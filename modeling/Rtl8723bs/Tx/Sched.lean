/-
# The transmit queues: one `tx_servq` for every station and access category

`rtw_xmit_classifier` puts a frame into the queue of its station and category, links that
queue on the category's pending list and moves two counters, `qcnt` of the queue and `accnt`
of the category.  `rtw_dequeue_xframe` and `xmit_xmitframes` take frames out again,
`stop_sta_xmit` moves them to the sleeping queue of a station that dozes off,
`wakeup_sta_to_xmit` classifies them once more and `rtw_free_stainfo` drops them.  Each does
its own list surgery and its own counting, and each is translated so: the lists, the links and
the counters are separate parts of `Queues`, and no operation here updates more of them than
the source does.

The TIM bitmap, the U-APSD bookkeeping and the beacon updates steer nothing of this and are
left out.
-/
import Rtl8723bs.Lib.LinkedQueues
import Rtl8723bs.Sta

namespace Rtl8723bs

open LinkedQueues

/-! ## 1. The data -/

/-- The index into `hwxmits`: VO, VI, BE, BK. -/
inductive Ac
  | vo
  | vi
  | be
  | bk
deriving DecidableEq, Repr

/-- What the transmit queues read of `struct xmit_frame` and its `pkt_attrib`; `id` is the
address of the frame, which tells it from every other. -/
structure XmitFrame where
  id : Nat
  ra : MacAddr
  psta : Option StaId
  priority : Nat
  qsel : Nat := 0
  triggered : Nat := 0
deriving DecidableEq, Repr

abbrev TxQueues := Queues StaId Ac XmitFrame Nat

/-- The adapter as the transmit queues see it.  `q.queue` is `sta_pending`, `q.cnt` is `qcnt`,
`q.linked` the pending list of a category and `q.total` its `accnt`. -/
structure Sched where
  q : TxQueues
  /-- `MLME_IS_AP(padapter) || MLME_IS_MESH(padapter)`. -/
  isAp : Bool
  /-- `pmlmeinfo->state == _HW_STATE_AP_`. -/
  hwStateAp : Bool
  table : StaTable
  inPool : ∀ e ∈ table.entries, e.2 < numSta
  /-- `psta->state & _FW_LINKED`. -/
  fwLinked : StaId → Bool
  /-- `psta->state & WIFI_SLEEP_STATE`. -/
  sleeping : StaId → Bool
  aid : StaId → Nat
  /-- `sta_aid[aid - 1]`, read at `aid`. -/
  staAid : Nat → Option StaId
  sleepQ : StaId → List XmitFrame
  sleepqLen : StaId → BitVec 32
  staDzBitmap : BitVec 16
  wifiSpec : Bool
  wmmParaSeq : List Ac

/-- `rtw_get_sta_pending`: the category of a user priority. -/
def acOf (up : Nat) : Ac :=
  match up with
  | 1 | 2 => .bk
  | 4 | 5 => .vi
  | 6 | 7 => .vo
  | _ => .be

/-- `inx`: the order in which the categories are served. -/
def Sched.inx (st : Sched) : List Ac :=
  if st.wifiSpec then st.wmmParaSeq else [.vo, .vi, .be, .bk]

/-- `BIT(n)`, stored into a 16-bit bitmap. -/
def bit16 (n : Nat) : BitVec 16 := BitVec.twoPow 16 n

theorem getLsbD_bit16 (n k : Nat) :
    (bit16 n).getLsbD k = (decide (n < 16) && decide (n = k)) :=
  BitVec.getLsbD_twoPow n k

theorem getLsbD_clear (x : BitVec 16) (n k : Nat) :
    (x &&& ~~~bit16 n).getLsbD k = (x.getLsbD k && decide (n ≠ k)) := by
  rw [BitVec.getLsbD_and, BitVec.getLsbD_not, getLsbD_bit16]
  by_cases hk : k < 16
  · by_cases hn : n = k
    · simp [hn, hk]
    · simp [hn, hk]
  · rw [BitVec.getLsbD_of_ge x k (Nat.le_of_not_lt hk)]
    rfl

/-! ## 2. Classifying and dequeueing -/

/-- `rtw_xmit_classifier`; `none` is `_FAIL`. -/
def rtwXmitClassifier (st : Sched) (f : XmitFrame) : Option Sched :=
  if f.psta ≠ rtwGetStainfo st.table f.ra then none
  else
    match rtwGetStainfo st.table f.ra with
    | none => none
    | some psta =>
      if st.fwLinked psta = false then none
      else
        let ac := acOf f.priority
        some
          { st with
            q := (((st.q.link psta ac).setQueue psta ac (st.q.queue psta ac ++ [f])).enter
              psta ac f.id).count psta ac 1 }

/-- `rtl8723bs_hal_xmitframe_enqueue`: a frame that cannot be classified is freed. -/
def rtl8723bsHalXmitframeEnqueue (st : Sched) (f : XmitFrame) : Sched :=
  (rtwXmitClassifier st f).getD st

/-- The first frame of a queue is taken: `rtw_list_delete`, `qcnt--`, `accnt--`. -/
def Sched.takeFirst (st : Sched) (psta : StaId) (ac : Ac) (f : XmitFrame)
    (rest : List XmitFrame) : Sched :=
  { st with q := ((st.q.setQueue psta ac rest).leave psta ac [f.id]).count psta ac (-1) }

/-- `rtw_list_delete(&ptxservq->tx_pending)`. -/
def Sched.unlink (st : Sched) (psta : StaId) (ac : Ac) : Sched :=
  { st with q := st.q.unlink psta ac }

/-- The stations linked on one pending list, until one of them has a frame. -/
def dequeueStations (st : Sched) (ac : Ac) : List StaId → Option (XmitFrame × Sched)
  | [] => none
  | psta :: stas =>
    match st.q.queue psta ac with
    | [] => dequeueStations st ac stas
    | f :: rest =>
      let st := st.takeFirst psta ac f rest
      some (f, if rest = [] then st.unlink psta ac else st)

/-- `rtw_dequeue_xframe`. -/
def rtwDequeueXframe (st : Sched) : Option (XmitFrame × Sched) :=
  st.inx.findSome? (fun ac => dequeueStations st ac (st.q.linked ac))

/-! ## 3. Stations that doze off, wake up or go away -/

/-- `rtw_list_insert_tail(&pxmitframe->list, &psta->sleep_q)` and `sleepq_len++`. -/
def Sched.sleepEnqueue (st : Sched) (psta : StaId) (f : XmitFrame) : Sched :=
  { st with
    sleepQ := Function.update st.sleepQ psta (st.sleepQ psta ++ [f])
    sleepqLen := Function.update st.sleepqLen psta (st.sleepqLen psta + 1) }

/-- `xmitframe_enqueue_for_sleeping_sta`; `none` is `_FALSE`.  A triggered frame is never
queued; that branch may still change its `qsel`, which only the caller would see. -/
def xmitframeEnqueueForSleepingSta (st : Sched) (f : XmitFrame) : Option Sched :=
  if st.isAp = false then none
  else if f.psta ≠ rtwGetStainfo st.table f.ra then none
  else
    match rtwGetStainfo st.table f.ra with
    | none => none
    | some psta =>
      if st.fwLinked psta = false then none
      else if f.triggered = 1 then none
      else if isMcast f.ra then
        if st.staDzBitmap = 0 then none
        else some { st.sleepEnqueue psta f with staDzBitmap := st.staDzBitmap ||| bit16 0 }
      else if st.sleeping psta && st.staDzBitmap.getLsbD (st.aid psta) then
        some (st.sleepEnqueue psta f)
      else none

/-- The loop of `dequeue_xmitframes_to_sleeping_queue` over one queue: `kept` was passed over,
the rest is still to come.  The counters that move are those of the frame's own priority. -/
def dequeueLoop (psta : StaId) (ac : Ac) : List XmitFrame → List XmitFrame → Sched → Sched
  | _, [], st => st
  | kept, f :: rest, st =>
    let f := { f with triggered := 0 }
    match xmitframeEnqueueForSleepingSta st f with
    | some st' =>
      dequeueLoop psta ac kept rest
        { st' with
          q := ((st'.q.setQueue psta ac (kept ++ rest)).leave psta ac [f.id]).count psta
            (acOf f.priority) (-1) }
    | none =>
      dequeueLoop psta ac (kept ++ [f]) rest
        { st with q := st.q.setQueue psta ac (kept ++ f :: rest) }

/-- One queue in `stop_sta_xmit`: `dequeue_xmitframes_to_sleeping_queue`, and then
`rtw_list_delete(&tx_pending)` whatever is left. -/
def putAside (psta : StaId) (st : Sched) (ac : Ac) : Sched :=
  (dequeueLoop psta ac [] (st.q.queue psta ac) st).unlink psta ac

/-- `psta->state |= WIFI_SLEEP_STATE` and the bit of the station in `sta_dz_bitmap`, which has
16 of them. -/
def Sched.dozeOff (st : Sched) (psta : StaId) : Sched :=
  { st with
    sleeping := Function.update st.sleeping psta true
    staDzBitmap := st.staDzBitmap ||| bit16 (st.aid psta) }

/-- `stop_sta_xmit`; `none` is a null pointer: without TDLS nothing checks that there is an
entry for the broadcast address. -/
def stopStaXmit (st : Sched) (psta : StaId) : Option Sched :=
  match rtwGetBcmcStainfo st.table with
  | none => none
  | some pstaBmc =>
    some (putAside pstaBmc ([Ac.vo, .vi, .be, .bk].foldl (putAside psta) (st.dozeOff psta)) .be)

/-- The first frame of a sleeping queue is taken, and `sleepq_len--`. -/
def Sched.sleepDequeue (st : Sched) (psta : StaId) (rest : List XmitFrame) : Sched :=
  { st with
    sleepQ := Function.update st.sleepQ psta rest
    sleepqLen := Function.update st.sleepqLen psta (st.sleepqLen psta - 1) }

/-- A loop of `wakeup_sta_to_xmit` over the sleeping queue of a station. -/
def releaseLoop (psta : StaId) : List XmitFrame → Sched → Sched
  | [], st => st
  | f :: rest, st =>
    releaseLoop psta rest
      (rtl8723bsHalXmitframeEnqueue (st.sleepDequeue psta rest) { f with triggered := 1 })

/-- The station is awake once its sleeping queue is empty. -/
def Sched.wakeIfDone (st : Sched) (psta : StaId) : Sched :=
  if st.sleepqLen psta = 0 then
    { st with
      sleeping := Function.update st.sleeping psta false
      staDzBitmap := st.staDzBitmap &&& ~~~bit16 (st.aid psta) }
  else st

/-- The frames for everybody go out when nobody sleeps any more. -/
def Sched.releaseBmc (st : Sched) (pstaBmc : StaId) : Sched :=
  if st.staDzBitmap &&& 0xfffe = 0 then
    let st := releaseLoop pstaBmc (st.sleepQ pstaBmc) st
    if st.sleepqLen pstaBmc = 0 then
      { st with staDzBitmap := st.staDzBitmap &&& ~~~bit16 0 }
    else st
  else st

/-- `wakeup_sta_to_xmit`. -/
def wakeupStaToXmit (st : Sched) (psta : StaId) : Sched :=
  let st' := (releaseLoop psta (st.sleepQ psta) st).wakeIfDone psta
  match rtwGetBcmcStainfo st.table with
  | none => st'
  | some pstaBmc => st'.releaseBmc pstaBmc

/-- `rtw_list_delete(&psta->hash_list)`. -/
def StaTable.delete (t : StaTable) (psta : StaId) : StaTable where
  entries := t.entries.filter (fun e => e.2 ≠ psta)
  nodup := t.nodup.sublist (List.filter_sublist.map _)

/-- One queue in `rtw_free_stainfo`: the frames are freed, the queue unlinked, `accnt` brought
down by `qcnt` and `qcnt` set to 0. -/
def freeServq (psta : StaId) (st : Sched) (ac : Ac) : Sched :=
  { st with
    q := (((st.q.setQueue psta ac []).leave psta ac ((st.q.queue psta ac).map
      XmitFrame.id)).unlink psta ac).count psta ac (-st.q.cnt psta ac) }

/-- The power save state and the AID that `rtw_free_stainfo` gives up at the end. -/
def Sched.releaseAid (st : Sched) (psta : StaId) : Sched :=
  if st.hwStateAp then
    if 0 < st.aid psta ∧ st.staAid (st.aid psta) = some psta then
      { st with
        staDzBitmap := st.staDzBitmap &&& ~~~bit16 (st.aid psta)
        staAid := Function.update st.staAid (st.aid psta) none
        aid := Function.update st.aid psta 0 }
    else { st with staDzBitmap := st.staDzBitmap &&& ~~~bit16 (st.aid psta) }
  else st

/-- What `rtw_free_stainfo` does first: the entry is no longer found, `_FW_LINKED` is cleared
and the sleeping queue is freed. -/
def Sched.unhash (st : Sched) (psta : StaId) : Sched :=
  { st with
    table := st.table.delete psta
    inPool := fun e he => st.inPool e (List.mem_of_mem_filter he)
    fwLinked := Function.update st.fwLinked psta false
    sleepQ := Function.update st.sleepQ psta []
    sleepqLen := Function.update st.sleepqLen psta 0 }

/-- `rtw_free_stainfo` of a pool entry. -/
def rtwFreeStainfo (st : Sched) (psta : StaId) : Sched :=
  ([Ac.vo, .vi, .be, .bk].foldl (freeServq psta) (st.unhash psta)).releaseAid psta

/-! ## 4. `xmit_xmitframes` -/

/-- What the bus and the buffer pool answer; `n` counts the requests. -/
structure SdioBus where
  /-- `check_pending_xmitbuf` and `bHigherBusyTxTraffic`, at the category. -/
  congested : Ac → Bool
  /-- `rtw_hal_get_sdio_tx_max_length`. -/
  maxXmitLen : Ac → Nat
  /-- `rtw_hal_sdio_max_txoqt_free_space`, at least 8. -/
  oqtFree : Nat
  /-- `txdesc_size + rtw_wlan_pkt_size(pxmitframe)`. -/
  txlen : XmitFrame → Nat
  /-- Whether `rtw_alloc_xmitbuf` finds a buffer. -/
  bufFree : Nat → Bool
  /-- `rtw_xmitframe_coalesce`: the bytes taken, descriptor included, or `_FAIL`. -/
  coalesce : Nat → Option Nat

/-- `struct xmit_buf`: its length, and whether `priv_data` is set. -/
structure XmitBuf where
  len : Nat
  privData : Bool

/-- The local variables of `xmit_xmitframes`. -/
structure TxRegs where
  pxmitbuf : Option XmitBuf := none
  k : Nat := 0
  preQsel : Nat := 0xFF
  err : Int := 0
  n : Nat := 0

/-- `_RND(sz, 8)`. -/
def rnd8 (sz : Nat) : Nat := (sz + 7) / 8 * 8

/-- `QSLT_HIGH`. -/
def qsltHigh : Nat := 0x11

/-- `rtw_hal_busagg_qsel_check`. -/
def busaggQselCheck (isAp : Bool) (preQsel nextQsel : Nat) : Bool :=
  !(isAp && ((preQsel = qsltHigh || nextQsel = qsltHigh) && preQsel ≠ nextQsel))

/-- `pxmitbuf = rtw_alloc_xmitbuf(pxmitpriv)`; without a buffer the loop ends with -2. -/
def allocXmitbuf (bus : SdioBus) (r : TxRegs) : Except TxRegs TxRegs :=
  if bus.bufFree r.n then .ok { r with pxmitbuf := some ⟨0, false⟩, k := 0, n := r.n + 1 }
  else .error { r with pxmitbuf := none, err := -2, n := r.n + 1 }

/-- Room for one more frame: the buffer at hand, or a new one.  A full buffer is handed on, and
the loop ends with -3 if more than one station is waiting. -/
def makeRoom (bus : SdioBus) (isAp single : Bool) (ac : Ac) (f : XmitFrame) (r : TxRegs) :
    Except TxRegs TxRegs :=
  match r.pxmitbuf with
  | none => allocXmitbuf bus r
  | some b =>
    if bus.maxXmitLen ac < rnd8 b.len + bus.txlen f ∨ bus.oqtFree - 1 ≤ r.k ∨
        (r.k ≠ 0 ∧ busaggQselCheck isAp r.preQsel f.qsel = false) then
      if 0 < b.len ∧ b.privData ∧ single = false then
        .error { r with pxmitbuf := none, err := -3 }
      else allocXmitbuf bus r
    else .ok r

/-- `rtw_xmitframe_coalesce` into the buffer, and the bookkeeping after it. -/
def coalesceFrame (bus : SdioBus) (f : XmitFrame) (r : TxRegs) : TxRegs :=
  match r.pxmitbuf with
  | none => r
  | some b =>
    let b := { b with privData := b.privData || r.k = 0 }
    match bus.coalesce r.n with
    | none => { r with pxmitbuf := some b, n := r.n + 1 }
    | some txlen =>
      { r with
        pxmitbuf := some { b with len := rnd8 b.len + txlen }
        k := r.k + 1
        preQsel := f.qsel
        n := r.n + 1 }

/-- `pxmitframe->attrib.psta->state & WIFI_SLEEP_STATE`. -/
def Sched.ownerSleeps (st : Sched) (f : XmitFrame) : Bool := f.psta.any st.sleeping

/-- The frames of one station, as long as there is room for them and they may be sent. -/
def serveFrames (bus : SdioBus) (single : Bool) (psta : StaId) (ac : Ac) :
    List XmitFrame → TxRegs → Sched → TxRegs × Sched
  | [], r, st => (r, st)
  | f :: rest, r, st =>
    match makeRoom bus st.isAp single ac f r with
    | .error r => (r, st)
    | .ok r =>
      if st.isAp && st.ownerSleeps f && f.triggered = 0 then (r, st)
      else serveFrames bus single psta ac rest (coalesceFrame bus f r)
        (st.takeFirst psta ac f rest)

/-- After a station was served: it leaves the list when it has nothing left, and moves to the
end of the list when the others are to have their turn. -/
def settle (psta : StaId) (ac : Ac) (err : Int) (st : Sched) : Sched :=
  if st.q.queue psta ac = [] then st.unlink psta ac
  else if err = -3 then { st with q := (st.q.unlink psta ac).insertTail psta ac }
  else st

/-- The stations of one category. -/
def serveStations (bus : SdioBus) (single : Bool) (ac : Ac) :
    List StaId → TxRegs → Sched → TxRegs × Sched
  | [], r, st => (r, st)
  | psta :: stas, r, st =>
    let s := serveFrames bus single psta ac (st.q.queue psta ac) r st
    let st := settle psta ac s.1.err s.2
    if s.1.err ≠ 0 then (s.1, st) else serveStations bus single ac stas s.1 st

/-- The loop of `xmit_xmitframes` over the categories `inx`.  The lock is held for one category
at a time, and of the local variables only `err` is read again in the next one. -/
def xmitRounds (bus : SdioBus) : List Ac → TxRegs → Sched → Int × Sched
  | [], r, st => (r.err, st)
  | ac :: inx, r, st =>
    if bus.congested ac ∧ 0 < st.q.total ac ∧ st.q.total ac < 5 then (-2, st)
    else
      let s := serveStations bus (st.q.linked ac).tail.isEmpty ac (st.q.linked ac) r st
      if s.1.err = -2 then (-2, s.2)
      else xmitRounds bus inx { s.1 with pxmitbuf := none } s.2

/-- `xmit_xmitframes`. -/
def xmitXmitframes (bus : SdioBus) (st : Sched) : Int × Sched := xmitRounds bus st.inx {} st

end Rtl8723bs
