/-
# Power save: what is counted and what is announced

`Sched` follows the frames; this adds the bookkeeping around the sleeping queues.
`sleepq_ac_len` counts the frames of the categories for which the station enabled U-APSD
delivery, and `tim_bitmap` has a bit for each AID whose station is to be told of buffered
frames.  Both are kept by hand in `xmitframe_enqueue_for_sleeping_sta`, `wakeup_sta_to_xmit`,
`xmit_delivery_enabled_frames` and in the PS-Poll branch of `validate_recv_ctrl_frame`.

Each function here does to the `Sched` in it what the function of the same name in the module
before does (`toSched_wakeupStaToXmit`, `toSched_stopStaXmit`), so what was proved there of the
pending queues holds here.
-/
import Rtl8723bs.Tx.Sched

namespace Rtl8723bs

open LinkedQueues

/-! ## 1. The data -/

/-- `uapsd_vo` to `uapsd_bk` and `has_legacy_ac` of a station.  Bit 0 of a category says that
delivery is enabled for it, bit 1 that it triggers a delivery. -/
structure StaWmm where
  uapsd : Ac → BitVec 8
  hasLegacyAc : Bool

/-- What a zeroed `sta_info` holds. -/
def zeroWmm : StaWmm := ⟨fun _ => 0, false⟩

/-- The bit of a category in the QoS info field of a WMM element. -/
def qosInfoBit : Ac → Nat
  | .vo => 0
  | .vi => 1
  | .bk => 2
  | .be => 3

/-- `rtw_ap_parse_sta_wmm_ie`; `none` if the AP has no QoS or the request no WMM element. -/
def rtwApParseStaWmmIe (qosInfo : Option (BitVec 8)) : StaWmm :=
  match qosInfo with
  | none => ⟨fun _ => 0, true⟩
  | some info =>
    ⟨fun ac => if info &&& 0xf ≠ 0 ∧ info.getLsbD (qosInfoBit ac) then 0x3 else 0,
      info &&& 0xf ≠ 0xf⟩

def StaWmm.deliveryEnabled (w : StaWmm) (ac : Ac) : Bool := (w.uapsd ac).getLsbD 0

def StaWmm.triggerEnabled (w : StaWmm) (ac : Ac) : Bool := (w.uapsd ac).getLsbD 1

structure PsState extends Sched where
  wmm : StaId → StaWmm
  sleepqAcLen : StaId → BitVec 32
  timBitmap : BitVec 16

/-- Delivery is enabled for the category of the frame. -/
def PsState.delivers (ps : PsState) (psta : StaId) (f : XmitFrame) : Bool :=
  (ps.wmm psta).deliveryEnabled (acOf f.priority)

/-- `pstapriv->tim_bitmap &= ~BIT(psta->cmn.aid)`. -/
def PsState.clearTim (ps : PsState) (psta : StaId) : PsState :=
  { ps with timBitmap := ps.timBitmap &&& ~~~bit16 (ps.aid psta) }

/-! ## 2. To sleep -/

/-- `xmitframe_enqueue_for_sleeping_sta`; `none` is `_FALSE`. -/
def PsState.xmitframeEnqueueForSleepingSta (ps : PsState) (f : XmitFrame) : Option PsState :=
  match Rtl8723bs.xmitframeEnqueueForSleepingSta ps.toSched f, f.psta with
  | some st, some psta =>
    if isMcast f.ra then some { ps with toSched := st, timBitmap := ps.timBitmap ||| bit16 0 }
    else
      some
        { ps with
          toSched := st
          sleepqAcLen :=
            if ps.delivers psta f then
              Function.update ps.sleepqAcLen psta (ps.sleepqAcLen psta + 1)
            else ps.sleepqAcLen
          timBitmap :=
            -- legacy and not delivered, or all are delivered and so is this one
            if (ps.wmm psta).hasLegacyAc ≠ ps.delivers psta f then
              ps.timBitmap ||| bit16 (ps.aid psta)
            else ps.timBitmap }
  | _, _ => none

/-- The loop of `dequeue_xmitframes_to_sleeping_queue`. -/
def PsState.dequeueLoop (psta : StaId) (ac : Ac) :
    List XmitFrame → List XmitFrame → PsState → PsState
  | _, [], ps => ps
  | kept, f :: rest, ps =>
    let f := { f with triggered := 0 }
    match ps.xmitframeEnqueueForSleepingSta f with
    | some ps' =>
      PsState.dequeueLoop psta ac kept rest
        { ps' with
          q := ((ps'.q.setQueue psta ac (kept ++ rest)).leave psta ac [f.id]).count psta
            (acOf f.priority) (-1) }
    | none =>
      PsState.dequeueLoop psta ac (kept ++ [f]) rest
        { ps with q := ps.q.setQueue psta ac (kept ++ f :: rest) }

/-- One queue in `stop_sta_xmit`. -/
def PsState.putAside (psta : StaId) (ps : PsState) (ac : Ac) : PsState :=
  let ps := PsState.dequeueLoop psta ac [] (ps.q.queue psta ac) ps
  { ps with toSched := ps.toSched.unlink psta ac }

/-- `stop_sta_xmit`. -/
def PsState.stopStaXmit (ps : PsState) (psta : StaId) : Option PsState :=
  match rtwGetBcmcStainfo ps.table with
  | none => none
  | some pstaBmc =>
    some (PsState.putAside pstaBmc ([Ac.vo, .vi, .be, .bk].foldl (PsState.putAside psta)
      { ps with toSched := ps.toSched.dozeOff psta }) .be)

/-! ## 3. Awake again -/

/-- The loop of `wakeup_sta_to_xmit` over the sleeping queue of the station. -/
def PsState.releaseLoop (psta : StaId) : List XmitFrame → PsState → PsState
  | [], ps => ps
  | f :: rest, ps =>
    PsState.releaseLoop psta rest
      { ps with
        toSched :=
          rtl8723bsHalXmitframeEnqueue (ps.toSched.sleepDequeue psta rest)
            { f with triggered := 1 }
        sleepqAcLen :=
          if (ps.wmm psta).triggerEnabled (acOf f.priority) then
            Function.update ps.sleepqAcLen psta (ps.sleepqAcLen psta - 1)
          else ps.sleepqAcLen }

/-- What `wakeup_sta_to_xmit` does when the sleeping queue is empty. -/
def PsState.wakeIfDone (ps : PsState) (psta : StaId) : PsState :=
  { ps with
    toSched := ps.toSched.wakeIfDone psta
    timBitmap :=
      if ps.sleepqLen psta = 0 then ps.timBitmap &&& ~~~bit16 (ps.aid psta) else ps.timBitmap }

/-- What it does for the frames to everybody. -/
def PsState.releaseBmc (ps : PsState) (pstaBmc : StaId) : PsState :=
  { ps with
    toSched := ps.toSched.releaseBmc pstaBmc
    timBitmap :=
      if ps.staDzBitmap &&& 0xfffe = 0 ∧ (ps.toSched.releaseBmc pstaBmc).sleepqLen pstaBmc = 0
      then ps.timBitmap &&& ~~~bit16 0 else ps.timBitmap }

/-- `wakeup_sta_to_xmit`. -/
def PsState.wakeupStaToXmit (ps : PsState) (psta : StaId) : PsState :=
  let ps' := (PsState.releaseLoop psta (ps.sleepQ psta) ps).wakeIfDone psta
  match rtwGetBcmcStainfo ps.table with
  | none => ps'
  | some pstaBmc => ps'.releaseBmc pstaBmc

/-! ## 4. Triggered and polled -/

/-- A frame leaves the sleeping queue on its own: `sleepq_len` is counted down, and what is left
is `l`. -/
def PsState.sendOne (ps : PsState) (psta : StaId) (f : XmitFrame) (l : List XmitFrame) : PsState :=
  { ps with
    toSched :=
      rtl8723bsHalXmitframeEnqueue (ps.toSched.sleepDequeue psta l) { f with triggered := 1 } }

/-- One frame in `xmit_delivery_enabled_frames`, which leaves `l` in the queue.  When no more
frame is counted, a station without legacy category has nothing left to be signalled. -/
def PsState.deliverOne (ps : PsState) (psta : StaId) (f : XmitFrame) (l : List XmitFrame) :
    PsState :=
  let ps :=
    { ps.sendOne psta f l with
      sleepqAcLen := Function.update ps.sleepqAcLen psta (ps.sleepqAcLen psta - 1) }
  if ps.sleepqAcLen psta = 0 ∧ (ps.wmm psta).hasLegacyAc = false then ps.clearTim psta else ps

/-- The loop of `xmit_delivery_enabled_frames`: `kept` was passed over. -/
def PsState.deliverLoop (psta : StaId) : List XmitFrame → List XmitFrame → PsState → PsState
  | _, [], ps => ps
  | kept, f :: rest, ps =>
    if (ps.wmm psta).triggerEnabled (acOf f.priority) = false then
      PsState.deliverLoop psta (kept ++ [f]) rest ps
    else PsState.deliverLoop psta kept rest (ps.deliverOne psta f (kept ++ rest))

/-- `xmit_delivery_enabled_frames`. -/
def PsState.xmitDeliveryEnabledFrames (ps : PsState) (psta : StaId) : PsState :=
  PsState.deliverLoop psta [] (ps.sleepQ psta) ps

/-- The PS-Poll of a sleeping station: the first frame is sent, whatever its category. -/
def PsState.psPoll (ps : PsState) (psta : StaId) : PsState :=
  match ps.sleepQ psta with
  | f :: rest =>
    let ps := ps.sendOne psta f rest
    if ps.sleepqLen psta = 0 then ps.clearTim psta else ps
  | [] =>
    if ps.timBitmap.getLsbD (ps.aid psta) then
      -- an error is reported if the counter is not 0
      { ps.clearTim psta with sleepqLen := Function.update ps.sleepqLen psta 0 }
    else ps

/-- `GetAid`. -/
def getAid (m : Mem) : Nat := le16 m 2 % 16384

def wifiPspoll : Nat := 0xa4

/-- The station whose PS-Poll `validate_recv_ctrl_frame` answers; the frame itself is dropped
either way.  `priority` is what `pattrib` holds for a control frame. -/
def PsState.polledBy (ps : PsState) (macAddr : MacAddr) (m : Mem) (priority : Nat) :
    Option StaId :=
  if getFrameType m ≠ wifiCtrlType then none
  else if getAddr1 m ≠ macAddr then none
  else
    match rtwGetStainfo ps.table (getAddr2 m) with
    | none => none
    | some psta =>
      if getFrameSubType m ≠ wifiPspoll then none
      else if ps.aid psta ≠ getAid m then none
      else if (ps.wmm psta).deliveryEnabled (acOf priority) then none
      else if ps.sleeping psta && ps.staDzBitmap.getLsbD (ps.aid psta) then some psta
      else none

/-- `validate_recv_ctrl_frame`. -/
def PsState.validateRecvCtrlFrame (ps : PsState) (macAddr : MacAddr) (m : Mem)
    (priority : Nat) : PsState :=
  (ps.polledBy macAddr m priority).elim ps ps.psPoll

/-! ## 5. Events -/

/-- The access point with its stations, before the first frame was put to sleep. -/
def PsState.start (ps : PsState) : PsState :=
  { ps with
    sleepQ := fun _ => []
    sleepqLen := fun _ => 0
    sleepqAcLen := fun _ => 0
    timBitmap := 0 }

/-- What happens to the sleeping queues.  The callers find the station by an address.  `other`
is any other part of the driver: it may change who sleeps, the bitmap of sleeping stations and
the pending queues, but neither the stations nor what waits for them. -/
inductive PsEvent
  | enqueue (f : XmitFrame)
  | stop (a : MacAddr)
  | wakeup (a : MacAddr)
  | trigger (a : MacAddr)
  | ctrl (macAddr : MacAddr) (m : Mem) (priority : Nat)
  | other (st : Sched)

def psStep (ps : PsState) : PsEvent → Option PsState
  | .enqueue f => some ((ps.xmitframeEnqueueForSleepingSta f).getD ps)
  | .stop a =>
    match rtwGetStainfo ps.table a with
    | none => some ps
    | some psta => ps.stopStaXmit psta
  | .wakeup a => some ((rtwGetStainfo ps.table a).elim ps ps.wakeupStaToXmit)
  | .trigger a => some ((rtwGetStainfo ps.table a).elim ps ps.xmitDeliveryEnabledFrames)
  | .ctrl macAddr m priority => some (ps.validateRecvCtrlFrame macAddr m priority)
  | .other st =>
    some
      { ps with
        toSched :=
          { st with
            table := ps.table
            inPool := ps.inPool
            aid := ps.aid
            sleepQ := ps.sleepQ
            sleepqLen := ps.sleepqLen } }

end Rtl8723bs
