/-
# Block-ack sessions on the receiving side

A block-ack session of one station and TID begins when the driver accepts an ADDBA request
(`add_ba_rsp_hdl`) and ends with a DELBA (`OnAction_back`) or when a later request is refused.
Both set `enable` in the `recv_reorder_ctrl` that `recv_indicatepkt_reorder` and the timer work
on, and neither looks at the frames that are pending there.

A run records what went up in each session, and what was pending when a session ended.
-/
import Rtl8723bs.Rx.ReorderRun

namespace Rtl8723bs

open Serial

/-! ## 1. The handlers -/

/-- `struct recv_reorder_ctrl` with its `ampdu_size`. -/
structure BaCtrl where
  ctrl : RecvReorderCtrl
  ampduSize : Nat
deriving DecidableEq, Repr

def rxAmpduSizeInvalid : Nat := 0xFF
def rtwWlanCategoryBack : UInt8 := 3
def rtwWlanActionDelba : UInt8 := 2

/-- The status codes of `process_addba_req`. -/
def addbaStatus (accept : Bool) : Nat := if accept then 0 else 37

/-- `add_ba_rsp_hdl`, once the station is found and the response is sent. -/
def addBaRspHdl (status size : Nat) (s : BaCtrl) : BaCtrl :=
  let ctrl := { s.ctrl with indicateSeq := 0xFFFF }
  if status = 0 then ⟨{ ctrl with enable := true }, size⟩
  else if status = 37 then ⟨{ ctrl with enable := false }, s.ampduSize⟩
  else ⟨ctrl, s.ampduSize⟩

/-- What `OnAction_back` looks at before the frame. -/
structure BackGuard where
  /-- The receiver address is the adapter's. -/
  ours : Bool
  ap : Bool
  assocSuccess : Bool
  /-- `rtw_get_stainfo` finds the station. -/
  found : Bool
  htEnable : Bool
deriving DecidableEq, Repr

/-- `OnAction_back`, as far as it concerns the `recv_reorder_ctrl` of one TID. -/
def onActionBack (g : BackGuard) (frameBody : List UInt8) (tid : Nat) (s : BaCtrl) : BaCtrl :=
  if !g.ours then s
  else if !g.ap && !g.assocSuccess then s
  else if !g.found then s
  else if frameBody.getD 0 0 ≠ rtwWlanCategoryBack then s
  else if !g.htEnable then s
  else if frameBody.getD 1 0 ≠ rtwWlanActionDelba then s
  -- a DELBA of the recipient ends a session of the sending side
  else if frameBody.getD 3 0 &&& 0x08 = 0 then s
  else if ((frameBody.getD 3 0 >>> 4) &&& 0x0F).toNat = tid then
    ⟨{ s.ctrl with enable := false }, rxAmpduSizeInvalid⟩
  else s

/-! ## 2. Runs -/

/-- What can happen to one station and TID. -/
inductive BaEvent
  | addba (accept : Bool) (size : Nat)
  | action (g : BackGuard) (frameBody : List UInt8)
  | arrival (a : Adapter) (f : QosArrival)
  | expiry (a : Adapter)

/-- A frame went up, or a session ended with these frames pending. -/
inductive BaMark
  | up (f : RecvFrame)
  | ended (pending : List RecvFrame)
deriving DecidableEq, Repr

/-- A run so far: the controller, the number of arrivals and expiries, what went up in each
session, the latest first, and what happened in order. -/
structure BaRun where
  ba : BaCtrl
  calls : Nat
  sessions : List (List RecvFrame)
  trace : List BaMark
deriving DecidableEq, Repr

/-- The arrival with a number of its own, to tell frames apart. -/
def QosArrival.numbered (f : QosArrival) (n : Nat) : QosArrival :=
  ⟨{ f.frame with id := n }, f.qos, f.seq12, f.flag⟩

namespace BaRun

/-- As `rtw_alloc_stainfo` leaves the controller. -/
def start : BaRun where
  ba :=
    ⟨{ enable := false
       indicateSeq := 0xFFFF
       wsizeB := 64
       pendingRecvframeQueue := []
       bReorderWaiting := false
       timerSet := false }, rxAmpduSizeInvalid⟩
  calls := 0
  sessions := []
  trace := []

def enable (s : BaRun) : Bool := s.ba.ctrl.enable

def queue (s : BaRun) : List RecvFrame := s.ba.ctrl.pendingRecvframeQueue

/-- The mark of a session that ends. -/
def endMark (s : BaRun) (ends : Bool) : List BaMark :=
  if s.enable && ends then [.ended s.queue] else []

/-- The record of what went up, if there is a session. -/
def record (s : BaRun) (fs : List RecvFrame) : List (List RecvFrame) :=
  match s.enable, s.sessions with
  | true, session :: t => (session ++ fs) :: t
  | _, sessions => sessions

/-- The handlers, with what they leave in the record; `tid` is the TID of the controller. -/
def step (tid : Nat) (s : BaRun) : BaEvent → BaRun
  | .addba accept size =>
    { s with
      ba := addBaRspHdl (addbaStatus accept) size s.ba
      sessions := if accept then [] :: s.sessions else s.sessions
      trace := s.trace ++ s.endMark true }
  | .action g frameBody =>
    let ba := onActionBack g frameBody tid s.ba
    { s with
      ba := ba
      trace := s.trace ++ s.endMark (!ba.ctrl.enable) }
  | .arrival a f =>
    let r := recvIndicatepktReorder a s.ba.ctrl (f.numbered s.calls).frame
    { ba := { s.ba with ctrl := r.ctrl }
      calls := s.calls + 1
      sessions := s.record (goneUp r.deliveries)
      trace := s.trace ++ (goneUp r.deliveries).map .up }
  | .expiry a =>
    let r := rtwReorderingCtrlTimeoutHandler a s.ba.ctrl
    { ba := { s.ba with ctrl := r.2 }
      calls := s.calls + 1
      sessions := s.record (goneUp r.1)
      trace := s.trace ++ (goneUp r.1).map .up }

end BaRun

/-! ## 3. What is asked of a run -/

/-- `f` has a later sequence number than `g`. -/
def Later (f g : RecvFrame) : Prop := Before 4096 g.attrib.seqNum f.attrib.seqNum

instance (f g : RecvFrame) : Decidable (Later f g) := inferInstanceAs (Decidable (Before _ _ _))

/-- Order within each session, order across the end of a session, and nothing stranded. -/
structure BaRun.InOrder (s : BaRun) : Prop where
  /-- What went up in a session keeps the serial order. -/
  sessions : ∀ fs ∈ s.sessions, (fs.map (·.attrib.seqNum)).IsChain (Before 4096)
  /-- A frame that was pending at the end does not go up after a later one. -/
  ends : ∀ pending f g, [.ended pending, .up f, .up g].Sublist s.trace → g ∈ pending → ¬Later f g
  /-- Without a session, pending frames wait for the timer. -/
  drained : s.enable = false → s.queue = [] ∨ s.ba.ctrl.timerSet = true

/-- The first frame of a session continues what is pending: each pending frame is another one,
inside the window that it opens or less than the rest of the half ring behind it. -/
def RecvReorderCtrl.Continues (ctrl : RecvReorderCtrl) (f : RecvFrame) : Prop :=
  ∀ g ∈ ctrl.pendingRecvframeQueue, g.attrib.seqNum ≠ f.attrib.seqNum ∧
    (ahead 4096 f.attrib.seqNum g.attrib.seqNum < ctrl.wsizeB ∨
      ahead 4096 g.attrib.seqNum f.attrib.seqNum < 2048 - ctrl.wsizeB)

instance (ctrl : RecvReorderCtrl) (f : RecvFrame) : Decidable (ctrl.Continues f) :=
  inferInstanceAs (Decidable (∀ g ∈ ctrl.pendingRecvframeQueue, _))

/-- The event does no harm to pending frames: no later frame comes while there is no session, the
first frame of a session continues what is pending, and the adapter runs when frames are taken
off the queue. -/
def BaRun.Harmless (s : BaRun) : BaEvent → Prop
  | .addba _ _ => True
  | .action _ _ => True
  | .arrival a f =>
    (s.enable = false → ∀ g ∈ s.queue, ¬Later f.frame g) ∧
      (s.enable = true → rtwCannotRun a = false ∧
        (s.ba.ctrl.indicateSeq = 0xFFFF → s.ba.ctrl.Continues f.frame))
  | .expiry a => rtwCannotRun a = true → s.queue = []

instance (s : BaRun) (e : BaEvent) : Decidable (s.Harmless e) :=
  match e with
  | .addba _ _ => inferInstanceAs (Decidable True)
  | .action _ _ => inferInstanceAs (Decidable True)
  | .arrival _ _ => inferInstanceAs (Decidable (_ ∧ _))
  | .expiry _ => inferInstanceAs (Decidable (_ → _))

/-- Events one after the other, each harmless. -/
inductive BaSteps (tid : Nat) : BaRun → Prop
  | start : BaSteps tid BaRun.start
  | step {s : BaRun} (hrun : BaSteps tid s) (e : BaEvent) (hok : s.Harmless e) :
      BaSteps tid (s.step tid e)

end Rtl8723bs
