/-
# Receive reordering: one station, one TID

`recv_indicatepkt_reorder` keeps the frames of one block-ack session in order: it drops what is
behind the window (`check_indicate_seq`), inserts the rest into `pending_recvframe_queue`
(`enqueue_reorder_recvframe`) and hands up what is no longer waited for
(`recv_indicatepkts_in_order`).  A timer, `rtw_reordering_ctrl_timeout_handler`, gives up on a
frame that does not come.

The functions are pure: they take the `recv_reorder_ctrl` and return the new one, with the
frames that were taken off the queue and what became of each of them.
-/
import Rtl8723bs.Rx.Frame

namespace Rtl8723bs

/-- `struct recv_reorder_ctrl`. -/
structure RecvReorderCtrl where
  enable : Bool
  /-- `wstart_b`, a `u16`; `0xFFFF` before the first frame. -/
  indicateSeq : Nat
  wsizeB : Nat
  pendingRecvframeQueue : List RecvFrame
  bReorderWaiting : Bool
  /-- Is `reordering_ctrl_timer` running? -/
  timerSet : Bool
deriving DecidableEq, Repr, Inhabited

/-- `SN_LESS(a, b)`: `((a - b) & 0x800) != 0`, on promoted `int`s. -/
def snLess (a b : Nat) : Bool :=
  (BitVec.ofNat 32 a - BitVec.ofNat 32 b) &&& 0x800#32 ≠ 0#32

/-! ## 1. The window -/

/-- `check_indicate_seq`: `none` for a frame behind the window. -/
def checkIndicateSeq (ctrl : RecvReorderCtrl) (seqNum : Nat) : Option RecvReorderCtrl :=
  let wsize := ctrl.wsizeB
  let wend := (((ctrl.indicateSeq : Int) + wsize - 1) % 4096).toNat
  -- the window end stays the one computed before the first frame sets the start
  let indicateSeq := if ctrl.indicateSeq = 0xFFFF then seqNum else ctrl.indicateSeq
  if snLess seqNum indicateSeq then none
  else if seqNum = indicateSeq then
    some { ctrl with indicateSeq := (indicateSeq + 1) % 4096 }
  else if snLess wend seqNum then
    if wsize ≤ seqNum + 1 then some { ctrl with indicateSeq := seqNum + 1 - wsize }
    else some { ctrl with indicateSeq := 0xFFF - (wsize - (seqNum + 1)) + 1 }
  else some { ctrl with indicateSeq := indicateSeq }

/-- The search and the insertion of `enqueue_reorder_recvframe`: `none` for a duplicate. -/
def enqueueReorderRecvframe (prframe : RecvFrame) : List RecvFrame → Option (List RecvFrame)
  | [] => some [prframe]
  | pnext :: t =>
    if snLess pnext.attrib.seqNum prframe.attrib.seqNum then
      (enqueueReorderRecvframe prframe t).map (pnext :: ·)
    else if pnext.attrib.seqNum = prframe.attrib.seqNum then none
    else some (prframe :: pnext :: t)

/-! ## 2. Indication -/

/-- What became of a frame taken off the queue. -/
inductive Delivery where
  /-- `rtw_recv_indicatepkt`, which passes the packet up and frees the frame. -/
  | indicated (f : RecvFrame)
  /-- `amsdu_to_msdu`, which passes the subframes up and frees the frame. -/
  | deaggregated (f : RecvFrame)
  /-- Neither: the adapter cannot run, or `amsdu` is not a flag.  Nobody frees the frame. -/
  | leftOver (f : RecvFrame)
deriving DecidableEq, Repr

namespace Delivery

def frame : Delivery → RecvFrame
  | indicated f => f
  | deaggregated f => f
  | leftOver f => f

/-- Did the frame go up to the network stack? -/
def up : Delivery → Bool
  | indicated _ => true
  | deaggregated _ => true
  | leftOver _ => false

end Delivery

/-- The dispatch inside the loop of `recv_indicatepkts_in_order`. -/
def deliver (a : Adapter) (f : RecvFrame) : Delivery :=
  if f.attrib.amsdu = 0 then
    if rtwCannotRun a then .leftOver f else .indicated f
  else if f.attrib.amsdu = 1 then .deaggregated f
  else .leftOver f

/-- The loop of `recv_indicatepkts_in_order`: the frames taken off, the new `indicate_seq`, the
queue that is left and `bPktInBuf`. -/
def indicateLoop : Nat → List RecvFrame → List RecvFrame × Nat × List RecvFrame × Bool
  | indicateSeq, [] => ([], indicateSeq, [], false)
  | indicateSeq, prframe :: t =>
    if snLess indicateSeq prframe.attrib.seqNum then ([], indicateSeq, prframe :: t, true)
    else
      let next :=
        if indicateSeq = prframe.attrib.seqNum then (indicateSeq + 1) % 4096 else indicateSeq
      let r := indicateLoop next t
      (prframe :: r.1, r.2)

/-- `recv_indicatepkts_in_order`: the result, what became of the frames, the controller. -/
def recvIndicatepktsInOrder (a : Adapter) (ctrl : RecvReorderCtrl) (bforced : Bool) :
    Bool × List Delivery × RecvReorderCtrl :=
  match bforced, ctrl.pendingRecvframeQueue with
  | true, [] => (true, [], ctrl)
  | _, queue =>
    let start :=
      match bforced, queue with
      | true, prframe :: _ => prframe.attrib.seqNum
      | _, _ => ctrl.indicateSeq
    let r := indicateLoop start queue
    (r.2.2.2, r.1.map (deliver a),
      { ctrl with indicateSeq := r.2.1, pendingRecvframeQueue := r.2.2.1 })

/-! ## 3. An arrival and an expiry -/

/-- What a call leaves behind: its result, what became of the frames it let go, and the
controller.  `frame` is the frame it was called with, after the conversion to Ethernet. -/
structure ReorderResult where
  retval : RxStatus
  frame : RecvFrame
  deliveries : List Delivery
  ctrl : RecvReorderCtrl
deriving DecidableEq, Repr

/-- The part under the queue's lock, steps s2 to s4. -/
def reorderLocked (a : Adapter) (ctrl : RecvReorderCtrl) (f : RecvFrame) : ReorderResult :=
  match checkIndicateSeq ctrl f.attrib.seqNum with
  | none => ⟨.fail, f, [], ctrl⟩
  | some ctrl₁ =>
    match enqueueReorderRecvframe f ctrl₁.pendingRecvframeQueue with
    | none => ⟨.fail, f, [], ctrl₁⟩
    | some queue =>
      match recvIndicatepktsInOrder a { ctrl₁ with pendingRecvframeQueue := queue } false with
      | (true, deliveries, ctrl₂) =>
        if ctrl₂.bReorderWaiting then ⟨.success, f, deliveries, ctrl₂⟩
        else ⟨.success, f, deliveries, { ctrl₂ with bReorderWaiting := true, timerSet := true }⟩
      | (false, deliveries, ctrl₂) =>
        ⟨.success, f, deliveries, { ctrl₂ with bReorderWaiting := false, timerSet := false }⟩

/-- `recv_indicatepkt_reorder`. -/
def recvIndicatepktReorder (a : Adapter) (ctrl : RecvReorderCtrl) (prframe : RecvFrame) :
    ReorderResult :=
  if prframe.attrib.amsdu = 0 then
    match wlanhdrToEthhdr a prframe with
    | none => ⟨.fail, prframe, [], ctrl⟩
    | some f =>
      if f.attrib.qos ≠ 1 then
        if rtwCannotRun a then ⟨.fail, f, [], ctrl⟩
        else ⟨.success, f, [.indicated f], ctrl⟩
      else if !ctrl.enable then
        ⟨.success, f, [.indicated f], { ctrl with indicateSeq := (f.attrib.seqNum + 1) % 4096 }⟩
      else reorderLocked a ctrl f
  else if prframe.attrib.amsdu = 1 ∧ !ctrl.enable then
    ⟨.success, prframe, [.deaggregated prframe],
      { ctrl with indicateSeq := (prframe.attrib.seqNum + 1) % 4096 }⟩
  else reorderLocked a ctrl prframe

/-- `rtw_reordering_ctrl_timeout_handler`.  The timer has fired, so it is not running. -/
def rtwReorderingCtrlTimeoutHandler (a : Adapter) (ctrl : RecvReorderCtrl) :
    List Delivery × RecvReorderCtrl :=
  if rtwCannotRun a then ([], { ctrl with timerSet := false })
  else
    match recvIndicatepktsInOrder a { ctrl with bReorderWaiting := false, timerSet := false }
      true with
    | (true, deliveries, ctrl₁) => (deliveries, { ctrl₁ with timerSet := true })
    | (false, deliveries, ctrl₁) => (deliveries, ctrl₁)

end Rtl8723bs
