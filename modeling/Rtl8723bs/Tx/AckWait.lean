/-
# Waiting for the acknowledgement of a management frame

`dump_mgntframe_and_wait_ack_timeout` sends a frame for which the firmware is to report whether
it was acknowledged, and waits for the report.  There is one `ack_tx_ops` to wait on, and one
flag `ack_tx` that says that somebody does; a mutex lets one call in after the other.  A report
carries the number the driver gave the frame.

Calls and the handlers of reports are interleaved at each access to the flag and to the context.
A report may come any time after its frame was handed over, and each comes once.
-/
import Mathlib.Logic.Function.Basic
import Rtl8723bs.SubmitCtx

namespace Rtl8723bs

namespace AckWait

/-! ## 1. Calls and reports -/

abbrev CallId := Nat
abbrev RptId := Nat

/-- Where a call of `dump_mgntframe_and_wait_ack_timeout` is: before the access of the name. -/
inductive CallPc where
  | idle
  | lock
  | setAckTx
  | setSeq
  | initDone
  | initStatus
  | xmit
  | wait
  | readStatus
  | clearAckTx
  | unlock
  | returned
deriving DecidableEq, Repr

/-- A call and its frame.  `ret` is its return value, `sent` says that the frame was handed over
with the number `swDefine`, and `acked` that a report of success on it came while the call was
waiting. -/
structure Call where
  pc : CallPc
  timeoutMs : Nat
  ret : Int
  sent : Bool
  swDefine : UInt8
  acked : Bool
deriving DecidableEq, Repr

def Call.idle : Call := ⟨.idle, 0, 0, false, 0, false⟩

/-- Where the handler of a report is. -/
inductive RptPc where
  | idle
  | test
  | store
  | complete
  | done
deriving DecidableEq, Repr

/-- A report: the frame it is on, the bytes of it that count (`*(pdata + 0)` and
`*(pdata + 6)`), and whether it came after its call had stopped waiting. -/
structure Rpt where
  pc : RptPc
  frame : CallId
  header : UInt8
  seqNo : UInt8
  late : Bool
deriving DecidableEq, Repr

def Rpt.idle : Rpt := ⟨.idle, 0, 0, 0, false⟩

/-- The status `CCX_FwC2HTxRpt_8723b` passes on: bit 7 is `RETRY_OVER`, bit 6 `LIFE_TIME_OVER`;
`seq_no` is not compared. -/
def Rpt.status (r : Rpt) : SctxStatus :=
  if (r.header >>> 7 &&& (1 : UInt8)) ||| (r.header >>> 6 &&& (1 : UInt8)) != 0 then
    .doneCcxPktFail
  else .doneSuccess

/-- `_SUCCESS` and `_FAIL`. -/
def success : Int := 1

def fail : Int := 0

/-- `struct xmit_priv`, as far as it goes here, the static `seq_no`, the calls and the reports. -/
structure World where
  ackTx : Bool
  seqNo : UInt8
  nextSeq : UInt8
  ackTxOps : SubmitCtx
  mutex : Option CallId
  calls : CallId → Call
  rpts : RptId → Rpt

/-- After `_rtw_init_xmit_priv`. -/
def World.start : World :=
  { ackTx := false, seqNo := 0, nextSeq := 0, ackTxOps := rtwSctxInit, mutex := none
    calls := fun _ => .idle, rpts := fun _ => .idle }

def World.setCall (w : World) (c : CallId) (x : Call) : World :=
  { w with calls := Function.update w.calls c x }

def World.setRpt (w : World) (r : RptId) (x : Rpt) : World :=
  { w with rpts := Function.update w.rpts r x }

/-! ## 2. The call -/

/-- The call is entered.  Where the driver cannot run it returns -1. -/
def World.enter (w : World) (c : CallId) (timeoutMs : Nat) (cannotRun : Bool) : World :=
  if cannotRun then w.setCall c { w.calls c with pc := .returned, ret := -1 }
  else w.setCall c { w.calls c with pc := .lock, timeoutMs := timeoutMs, ret := fail }

/-- The next access of a call, where it has no choice. -/
def World.go (w : World) (c : CallId) : Option World :=
  let x := w.calls c
  match x.pc with
  | .lock =>
    if w.mutex = none then some ({ w with mutex := some c }.setCall c { x with pc := .setAckTx })
    else none
  | .setAckTx => some ({ w with ackTx := true }.setCall c { x with pc := .setSeq })
  | .setSeq =>
    some ({ w with seqNo := w.nextSeq, nextSeq := w.nextSeq + 1 }.setCall c
      { x with pc := .initDone })
  | .initDone =>
    some ({ w with ackTxOps := { w.ackTxOps with done := 0 } }.setCall c
      { x with pc := .initStatus })
  | .initStatus =>
    some ({ w with ackTxOps := w.ackTxOps.store .submitted }.setCall c { x with pc := .xmit })
  | .readStatus =>
    let ret := if w.ackTxOps.woken then success else fail
    some (w.setCall c { x with pc := .clearAckTx, ret := ret })
  | .clearAckTx => some ({ w with ackTx := false }.setCall c { x with pc := .unlock })
  | .unlock => some ({ w with mutex := none }.setCall c { x with pc := .returned })
  | _ => none

/-- `rtw_hal_mgnt_xmit`: the frame is handed over with the number of now, or is not. -/
def World.xmit (w : World) (c : CallId) (ok : Bool) : World :=
  let x := w.calls c
  if ok then w.setCall c { x with pc := .wait, sent := true, swDefine := w.seqNo }
  else w.setCall c { x with pc := .clearAckTx }

/-- `rtw_sctx_wait` takes a completion. -/
def World.wake (w : World) (c : CallId) : World :=
  { w with ackTxOps := w.ackTxOps.take }.setCall c { w.calls c with pc := .readStatus }

/-- The time is over. -/
def World.timeout (w : World) (c : CallId) : World :=
  w.setCall c { w.calls c with pc := .clearAckTx }

/-! ## 3. The report -/

/-- A call is waiting for the report on its frame. -/
def CallPc.waiting : CallPc → Bool
  | .wait | .readStatus => true
  | _ => false

/-- A call has stopped waiting. -/
def CallPc.over : CallPc → Bool
  | .clearAckTx | .unlock | .returned => true
  | _ => false

/-- A report comes, on a frame that was handed over. -/
def World.deliver (w : World) (r : RptId) (frame : CallId) (header : UInt8) : World :=
  let x := w.calls frame
  let rpt : Rpt := ⟨.test, frame, header, x.swDefine, x.pc.over⟩
  (w.setRpt r rpt).setCall frame
    { x with acked := x.acked || (x.pc.waiting && rpt.status = .doneSuccess) }

/-- The next access of `rtw_ack_tx_done`, from the handler of a report. -/
def World.handle (w : World) (r : RptId) : Option World :=
  let x := w.rpts r
  match x.pc with
  | .test => some (w.setRpt r { x with pc := if w.ackTx then .store else .done })
  | .store =>
    some ({ w with ackTxOps := w.ackTxOps.store x.status }.setRpt r { x with pc := .complete })
  | .complete =>
    some ({ w with ackTxOps := w.ackTxOps.complete }.setRpt r { x with pc := .done })
  | _ => none

/-! ## 4. Runs -/

inductive Act where
  | enter (c : CallId) (timeoutMs : Nat) (cannotRun : Bool)
  | go (c : CallId)
  | xmit (c : CallId) (ok : Bool)
  | wake (c : CallId)
  | timeout (c : CallId)
  | deliver (r : RptId) (frame : CallId) (header : UInt8)
  | handle (r : RptId)
deriving DecidableEq, Repr

/-- One step; `none` where it cannot be taken.  A timeout of zero is none. -/
def World.step (w : World) : Act → Option World
  | .enter c timeoutMs cannotRun =>
    if (w.calls c).pc = .idle then some (w.enter c timeoutMs cannotRun) else none
  | .go c => w.go c
  | .xmit c ok => if (w.calls c).pc = .xmit then some (w.xmit c ok) else none
  | .wake c =>
    if (w.calls c).pc = .wait ∧ 0 < w.ackTxOps.done then some (w.wake c) else none
  | .timeout c =>
    if (w.calls c).pc = .wait ∧ (w.calls c).timeoutMs ≠ 0 then some (w.timeout c) else none
  | .deliver r frame header =>
    if (w.rpts r).pc = .idle ∧ (w.calls frame).sent = true then some (w.deliver r frame header)
    else none
  | .handle r => w.handle r

/-- A run, any number of steps in any order. -/
def World.run (w : World) (acts : List Act) : Option World := acts.foldlM World.step w

end AckWait

end Rtl8723bs
