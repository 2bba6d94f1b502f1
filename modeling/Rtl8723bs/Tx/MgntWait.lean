/-
# Waiting for a management frame to be written

`dump_mgntframe_and_wait` puts the address of a submit context of its own into the xmit_buf,
hands the frame over and waits.  Who writes the buffer to the port finishes the context through
the pointer in the buffer and gives the buffer back, and another thread may be given it at once.

A call is a frame with the buffer it was given.  The threads are interleaved at each access to
the pointer of the buffer and to the context behind it, so `rtw_sctx_done_err` is seven steps.
Two programs run for a call: the one that writes the frame (`tx`), and the one that waits
(`wait`).  A beacon is written by the waiting thread itself, before it waits.
-/
import Mathlib.Logic.Function.Basic
import Rtl8723bs.SubmitCtx

namespace Rtl8723bs

namespace MgntWait

/-! ## 1. Calls and buffers -/

abbrev BufId := Nat
abbrev CallId := Nat

/-- `XMITBUF_DATA`, `XMITBUF_MGNT`, `XMITBUF_CMD`. -/
inductive BufTag where
  | data
  | mgnt
  | cmd
deriving DecidableEq, Repr

/-- What of a `struct xmit_buf` the waiting is about: the pointer `sctx`, whose frame is in
`pbuf`, and whether it is in its free list (a command buffer never is). -/
structure XmitBuf where
  bufTag : BufTag
  sctx : Option CallId
  frame : Option CallId
  free : Bool
deriving DecidableEq, Repr

/-- Where a thread is in `if (pxmitbuf->sctx) rtw_sctx_done_err(&pxmitbuf->sctx, status)`.
The first line is only in `rtw_alloc_xmitbuf` and `rtw_free_xmitbuf`.  `storeStatus` and
`complete` have loaded the pointer. -/
inductive Stage where
  | guard
  | test
  | loadStatus
  | storeStatus (p : CallId)
  | loadDone
  | complete (p : CallId)
  | setNull
deriving DecidableEq, Repr

/-- The thread has seen a pointer and not yet completed the context behind it. -/
def Stage.mid : Stage → Bool
  | .loadStatus | .storeStatus _ | .loadDone | .complete _ => true
  | _ => false

/-- What follows `rtw_sctx_done_err`: the rest of `rtw_alloc_xmitbuf`, the return of
`sdio_write_port` to `rtl8723bs_mgnt_xmit` with an error, `rtw_free_xmitbuf`, or its rest. -/
inductive Cont where
  | allocated
  | retry
  | written
  | freed
deriving DecidableEq, Repr

/-- Where the frame is on its way to the port. -/
inductive TxPc where
  | idle
  | owned
  | pending
  | writing
  | done (stage : Stage) (status : SctxStatus) (k : Cont)
  | finished
deriving DecidableEq, Repr

def TxPc.mid : TxPc → Bool
  | .done stage _ _ => stage.mid
  | _ => false

/-- The frame is written and its waiter not completed yet. -/
def TxPc.sure : TxPc → Bool
  | .done stage .doneSuccess _ => stage = .test || stage.mid
  | _ => false

/-- Where the caller is: `build` before `dump_mgntframe_and_wait`, `plain` if it is not called,
`clear` before it sets the pointer of the buffer to NULL. -/
inductive WaitPc where
  | build
  | plain
  | init
  | refused
  | xmit
  | wait
  | clear (ret : Bool)
  | returned (ret : Bool)
deriving DecidableEq, Repr

/-- A frame, its buffer, and the submit context on the stack of its call.  `ret` is what
`rtw_hal_mgnt_xmit` returns.  `wrote` and `inTime` record that the frame was written, and that
this was before its waiter gave up. -/
structure Call where
  buf : BufId
  beacon : Bool
  tx : TxPc
  wait : WaitPc
  sctx : SubmitCtx
  ret : Bool
  wrote : Bool
  inTime : Bool
deriving DecidableEq, Repr

/-- `fault` records that a submit context was used through NULL, or after its function had
returned. -/
structure World where
  bufs : BufId → XmitBuf
  calls : CallId → Call
  fault : Bool

/-- The waiter has not given up and not been told. -/
def WaitPc.waiting : WaitPc → Bool
  | .xmit | .wait => true
  | _ => false

/-- The waiter's function has returned. -/
def WaitPc.gone : WaitPc → Bool
  | .returned _ => true
  | _ => false

/-- Where a call is after `rtw_sctx_done_err`. -/
def Call.resume (x : Call) : Cont → Call
  | .allocated => { x with tx := .owned }
  | .retry => { x with tx := .done .test .doneWritePortErr .written }
  | .written => { x with tx := .done .guard .doneBufFree .freed }
  | .freed =>
    { x with
      tx := .finished
      wait := match x.wait with
        | .refused => .returned false
        | .xmit => if x.ret then .wait else .clear false
        | pc => pc }

def Call.idle : Call :=
  { buf := 0, beacon := false, tx := .idle, wait := .build, sctx := rtwSctxInit, ret := true
    wrote := false, inTime := false }

/-- The state after `_rtw_init_xmit_priv`. -/
def start (tag : BufId → BufTag) : World :=
  { bufs := fun b => { bufTag := tag b, sctx := none, frame := none, free := tag b != .cmd }
    calls := fun _ => .idle
    fault := false }

namespace World

def setCall (w : World) (c : CallId) (x : Call) : World :=
  { w with calls := Function.update w.calls c x }

def setBuf (w : World) (b : BufId) (x : XmitBuf) : World :=
  { w with bufs := Function.update w.bufs b x }

def setTx (w : World) (c : CallId) (tx : TxPc) : World :=
  w.setCall c { w.calls c with tx := tx }

/-- The buffer of a call. -/
def bufOf (w : World) (c : CallId) : XmitBuf := w.bufs (w.calls c).buf

/-- `pxmitbuf->sctx = v`. -/
def setSctx (w : World) (c : CallId) (v : Option CallId) : World :=
  w.setBuf (w.calls c).buf { w.bufOf c with sctx := v }

def crash (w : World) : World := { w with fault := true }

/-! ## 2. `rtw_sctx_done_err` -/

/-- What follows `rtw_sctx_done_err`.  A thread that has given the buffer back itself goes on in
`dump_mgntframe_and_wait`. -/
def resume (w : World) (c : CallId) (k : Cont) : World :=
  let x := w.calls c
  match k with
  | .freed =>
    (w.setBuf x.buf { w.bufOf c with free := (w.bufOf c).bufTag != .cmd }).setCall c (x.resume k)
  | k => w.setCall c (x.resume k)

/-- Use of the submit context of `p`. -/
def useSctx (w : World) (p : CallId) (f : SubmitCtx → SubmitCtx) : World :=
  let w := if (w.calls p).wait.gone then w.crash else w
  w.setCall p { w.calls p with sctx := f (w.calls p).sctx }

/-- One step of `rtw_sctx_done_err(&pxmitbuf->sctx, status)`. -/
def doneErrStep (w : World) (c : CallId) (stage : Stage) (status : SctxStatus) (k : Cont) :
    World :=
  match stage with
  | .guard =>
    if (w.bufOf c).sctx.isSome then w.setTx c (.done .test status k) else w.resume c k
  | .test =>
    if (w.bufOf c).sctx.isSome then w.setTx c (.done .loadStatus status k) else w.resume c k
  | .loadStatus =>
    match (w.bufOf c).sctx with
    | some p => w.setTx c (.done (.storeStatus p) status k)
    | none => w.crash.setTx c (.done .setNull status k)
  | .storeStatus p => (w.useSctx p (·.store status)).setTx c (.done .loadDone status k)
  | .loadDone =>
    match (w.bufOf c).sctx with
    | some p => w.setTx c (.done (.complete p) status k)
    | none => w.crash.setTx c (.done .setNull status k)
  | .complete p => (w.useSctx p (·.complete)).setTx c (.done .setNull status k)
  | .setNull => (w.setSctx c none).resume c k

/-! ## 3. The steps -/

/-- What `sdio_write_port` meets: `sd_write` without an error, with one, or
`hw_init_completed` not set. -/
inductive WriteResult where
  | ok
  | err
  | hwNotReady
deriving DecidableEq, Repr

inductive Act where
  | alloc (c : CallId) (b : BufId) (beacon : Bool)
  | discard (c : CallId)
  | send (c : CallId)
  | init (c : CallId)
  | refuse (c : CallId)
  | setSctx (c : CallId)
  | mgntXmit (c : CallId)
  | dequeue (c : CallId)
  | requeue (c : CallId)
  | drop (c : CallId)
  | write (c : CallId) (res : WriteResult)
  | doneErr (c : CallId)
  | wake (c : CallId)
  | timeout (c : CallId)
  | clear (c : CallId)
deriving DecidableEq, Repr

/-- `sd_write` puts the bytes of the buffer on the port, whosever frame they are. -/
def markWritten (w : World) (c : CallId) : World :=
  match (w.bufOf c).frame with
  | some g =>
    let x := w.calls g
    w.setCall g { x with wrote := true, inTime := x.inTime || x.wait.waiting }
  | none => w

/-- The rest of `sdio_write_port`, and what `rtl8723bs_mgnt_xmit` makes of an error. -/
def writePort (w : World) (c : CallId) : WriteResult → World
  | .ok => (w.markWritten c).setTx c (.done .test .doneSuccess .written)
  | .err =>
    let x := w.calls c
    w.setCall c
      { x with
        ret := false
        tx := .done .test .doneWritePortErr (if x.beacon then .retry else .written) }
  | .hwNotReady =>
    let x := w.calls c
    w.setCall c
      { x with
        ret := false
        tx := if x.beacon then .done .test .doneWritePortErr .written
              else .done .guard .doneBufFree .freed }

/-- One step of a thread, if it is there.
`alloc` is `rtw_alloc_xmitbuf`, `rtw_alloc_xmitbuf_ext` or `__rtw_alloc_cmd_xmitbuf`.
`send` and `discard` are for a frame that nobody waits for.
`init`, `refuse` (`RTW_CANNOT_RUN`), `setSctx`, `mgntXmit`, `wake`, `timeout` and `clear` are
`dump_mgntframe_and_wait`; `dequeue`, `requeue` (no free page), `drop` (`RTW_CANNOT_RUN`),
`write` and `doneErr` are `_dequeue_writeport`, or `rtl8723bs_mgnt_xmit` for a beacon. -/
def step (w : World) : Act → Option World
  | .alloc c b beacon =>
    let x := w.calls c
    let buf := w.bufs b
    if x.tx = .idle ∧ (buf.bufTag = .cmd ∨ buf.free = true) then
      some ((w.setBuf b { buf with frame := some c, free := false }).setCall c
        { x with buf := b, beacon := beacon, tx := .done .guard .doneBufAlloc .allocated })
    else none
  | .discard c =>
    let x := w.calls c
    if x.tx = .owned ∧ x.wait = .build then
      some (w.setCall c { x with wait := .plain, tx := .done .guard .doneBufFree .freed })
    else none
  | .send c =>
    let x := w.calls c
    if x.tx = .owned ∧ x.wait = .build then
      some (w.setCall c
        { x with wait := .plain, tx := if x.beacon then .writing else .pending })
    else none
  | .init c =>
    let x := w.calls c
    if x.tx = .owned ∧ x.wait = .build then
      some (w.setCall c { x with wait := .init, sctx := rtwSctxInit })
    else none
  | .refuse c =>
    let x := w.calls c
    if x.tx = .owned ∧ x.wait = .build then
      some (w.setCall c { x with wait := .refused, tx := .done .guard .doneBufFree .freed })
    else none
  | .setSctx c =>
    let x := w.calls c
    if x.tx = .owned ∧ x.wait = .init then
      some ((w.setSctx c (some c)).setCall c { x with wait := .xmit })
    else none
  | .mgntXmit c =>
    let x := w.calls c
    if x.tx = .owned ∧ x.wait = .xmit then
      some (w.setCall c
        (if x.beacon then { x with tx := .writing } else { x with tx := .pending, wait := .wait }))
    else none
  | .dequeue c => if (w.calls c).tx = .pending then some (w.setTx c .writing) else none
  | .requeue c =>
    if (w.calls c).tx = .writing ∧ (w.calls c).beacon = false then some (w.setTx c .pending)
    else none
  | .drop c =>
    if (w.calls c).tx = .writing ∧ (w.calls c).beacon = false then
      some (w.setTx c (.done .guard .doneBufFree .freed))
    else none
  | .write c res => if (w.calls c).tx = .writing then some (w.writePort c res) else none
  | .doneErr c =>
    match (w.calls c).tx with
    | .done stage status k => some (w.doneErrStep c stage status k)
    | _ => none
  | .wake c =>
    let x := w.calls c
    if x.wait = .wait ∧ x.sctx.done ≠ 0 then
      some (w.setCall c { x with wait := .clear x.sctx.woken, sctx := x.sctx.take })
    else none
  | .timeout c =>
    let x := w.calls c
    if x.wait = .wait ∧ x.sctx.done = 0 then
      some (w.setCall c { x with wait := .clear false })
    else none
  | .clear c =>
    let x := w.calls c
    match x.wait with
    | .clear ret => some ((w.setSctx c none).setCall c { x with wait := .returned ret })
    | _ => none

/-- A run of the threads: some interleaving of their steps. -/
def run (w : World) (acts : List Act) : Option World := acts.foldlM step w

/-! ## 4. When the steps are in order -/

/-- The buffer's last user has given it back. -/
def unused (w : World) (b : BufId) : Bool :=
  match (w.bufs b).frame with
  | some d => (w.calls d).tx = .finished
  | none => true

/-- Some thread is between its test of the pointer of the buffer and its completion. -/
def midDone (w : World) (b : BufId) : Bool :=
  match (w.bufs b).frame with
  | some d => (w.calls d).tx.mid
  | none => false

/-- A step in order.  A buffer is taken when its last user has given it back, which only for
command buffers is not known anyway.  A waiter gives up when its frame is not written yet.  A
waiter clears the pointer of the buffer when it is NULL already, or its own with no thread about
to use it. -/
def stepOk (w : World) : Act → Bool
  | .alloc _ b _ => w.unused b
  | .timeout c => !(w.calls c).tx.sure
  | .clear c =>
    (w.bufOf c).sctx = none || (w.bufOf c).sctx = some c && !w.midDone (w.calls c).buf
  | _ => true

/-- Every step of the run is in order. -/
def runOk (w : World) : List Act → Bool
  | [] => true
  | a :: acts =>
    w.stepOk a &&
      match w.step a with
      | some w' => w'.runOk acts
      | none => true

end World

end MgntWait

end Rtl8723bs
