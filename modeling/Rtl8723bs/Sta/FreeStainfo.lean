/-
# Does a station give back what it held?

`rtw_free_stainfo` frees the frames of a station queue by queue, and `rtw_alloc_stainfo` makes every
list head of the entry anew, whatever is on it.  The sleeping queue, the four pending queues and the
sixteen reordering queues are freed, and the timers are stopped; the fragments on `defrag_q` are
not, and they are lost with the next station that gets the entry.  The bits of the station in the
two bitmaps are cleared in an AP only (`freeStainfo_returns_iff`).

`Sched` and `RecvPool` have the queues; here are the pools of the transmit frames and the timers
besides.
-/
import Rtl8723bs.Rx.DefragJoin
import Rtl8723bs.Rx.RecvHands
import Rtl8723bs.Tx.PowerSave
import Rtl8723bs.Tx.SchedRun

namespace Rtl8723bs

open Shelves LinkedQueues

/-! ## 1. The state -/

/-- The transmit and the receive side of the stations. -/
structure StaFrames where
  ps : PsState
  rx : RecvPool
  /-- `ext_tag` of a transmit frame. -/
  extTag : Nat → Bool
  /-- `free_xmit_queue`, and `free_xframe_ext_queue` for the frames with an `ext_tag`. -/
  freeXmitQueue : Bool → List Nat
  freeXmitframeCnt : Bool → Nat
  addbaRetryTimer : StaId → Bool
  dot11wExpireTimer : StaId → Bool

/-- The categories, as `rtw_free_stainfo` goes through them. -/
def allAcs : List Ac := [.vo, .vi, .be, .bk]

/-- `rtw_free_xmitframe`, for a frame that was on a queue. -/
def StaFrames.rtwFreeXmitframe (s : StaFrames) (id : Nat) : StaFrames :=
  let tag := s.extTag id
  { s with
    freeXmitQueue := Function.update s.freeXmitQueue tag (s.freeXmitQueue tag ++ [id])
    freeXmitframeCnt := Function.update s.freeXmitframeCnt tag (s.freeXmitframeCnt tag + 1) }

/-- `rtw_free_xmitframe_queue`; the queue is emptied where it is. -/
def StaFrames.rtwFreeXmitframeQueue (s : StaFrames) (fs : List XmitFrame) : StaFrames :=
  fs.foldl (fun s f => s.rtwFreeXmitframe f.id) s

/-- The transmit queues and the bitmaps in `rtw_free_stainfo`. -/
def PsState.freeStainfo (ps : PsState) (psta : StaId) : PsState :=
  { toSched := rtwFreeStainfo ps.toSched psta
    wmm := Function.update ps.wmm psta zeroWmm
    sleepqAcLen := Function.update ps.sleepqAcLen psta 0
    timBitmap := if ps.hwStateAp then (ps.clearTim psta).timBitmap else ps.timBitmap }

/-- One reordering queue in `rtw_free_stainfo`: the timer is stopped and the frames are freed. -/
def RecvPool.freeReorder (s : RecvPool) (psta : StaId) (tid : Nat) : RecvPool :=
  let ctrl := s.recvreorderCtrl psta tid
  (s.setReorderCtrl psta tid { ctrl with timerSet := false }).freeAll ctrl.pendingRecvframeQueue

/-- All sixteen. -/
def RecvPool.freeReorders (s : RecvPool) (psta : StaId) : RecvPool :=
  (List.range 16).foldl (freeReorder · psta) s

/-- `rtw_free_stainfo`. -/
def StaFrames.freeStainfo (s : StaFrames) (psta : StaId) : StaFrames :=
  let held := s.ps.sleepQ psta ++ allAcs.flatMap (s.ps.q.queue psta)
  { s.rtwFreeXmitframeQueue held with
    ps := s.ps.freeStainfo psta
    dot11wExpireTimer := Function.update s.dot11wExpireTimer psta false
    addbaRetryTimer := Function.update s.addbaRetryTimer psta false
    rx := s.rx.freeReorders psta }

/-- A controller as `rtw_alloc_stainfo` sets it. -/
def freshReorderCtrl : RecvReorderCtrl where
  enable := false
  indicateSeq := 0xFFFF
  wsizeB := 64
  pendingRecvframeQueue := []
  bReorderWaiting := false
  timerSet := false

/-- The lists of an entry in `rtw_alloc_stainfo`: `_rtw_init_stainfo`, and the controllers. -/
def StaFrames.initStainfo (s : StaFrames) (psta : StaId) : StaFrames :=
  { s with
    ps := { s.ps with
      q := allAcs.foldl (fun q ac => q.setQueue psta ac []) s.ps.q
      sleepQ := Function.update s.ps.sleepQ psta []
      sleepqLen := Function.update s.ps.sleepqLen psta 0
      sleepqAcLen := Function.update s.ps.sleepqAcLen psta 0
      wmm := Function.update s.ps.wmm psta zeroWmm }
    rx := { s.rx with
      defragQ := Function.update s.rx.defragQ psta []
      recvreorderCtrl := Function.update s.rx.recvreorderCtrl psta fun tid =>
        if tid < 16 then freshReorderCtrl else s.rx.recvreorderCtrl psta tid } }

/-! ## 2. What is asked -/

/-- Where a transmit frame can be. -/
inductive XmitPlace
  | free (tag : Bool)
  | sleep (psta : StaId)
  | pending (psta : StaId) (ac : Ac)
deriving DecidableEq

/-- The transmit frames in a place. -/
def StaFrames.xmitAt (s : StaFrames) : XmitPlace → List Nat
  | .free tag => s.freeXmitQueue tag
  | .sleep psta => (s.ps.sleepQ psta).map (·.id)
  | .pending psta ac => (s.ps.q.queue psta ac).map (·.id)

/-- The receive frames a station holds. -/
def StaFrames.recvHeld (s : StaFrames) (psta : StaId) : List Nat :=
  s.rx.framesAt (.defrag psta) ++
    (List.range 16).flatMap fun tid => s.rx.framesAt (.pending psta tid)

/-- The transmit frames a station holds. -/
def StaFrames.xmitHeld (s : StaFrames) (psta : StaId) : List Nat :=
  s.xmitAt (.sleep psta) ++ allAcs.flatMap fun ac => s.xmitAt (.pending psta ac)

/-- Every frame is in one place, and once. -/
structure StaFrames.Placed (s : StaFrames) (stock : Set Nat) : Prop where
  recv : Kept RecvPool.stock s.rx.framesAt
  xmit : Kept stock s.xmitAt

/-- Neither bitmap has the bit of the AID. -/
def PsState.BitsClear (ps : PsState) (aid : Nat) : Prop :=
  ps.staDzBitmap.getLsbD aid = false ∧ ps.timBitmap.getLsbD aid = false

/-- **Nothing stays with the station.**  Its frames are back in their pools, once; no timer of it
runs; its bits are clear; and when the entry is made anew every frame still is somewhere. -/
structure StaFrames.Returns (s : StaFrames) (psta : StaId) (stock : Set Nat) : Prop where
  recv : ∀ id ∈ s.recvHeld psta, (s.freeStainfo psta).rx.freeRecvQueue.count id = 1
  xmit : ∀ id ∈ s.xmitHeld psta, ((s.freeStainfo psta).freeXmitQueue (s.extTag id)).count id = 1
  timers : (∀ tid < 16, ((s.freeStainfo psta).rx.recvreorderCtrl psta tid).timerSet = false) ∧
    (s.freeStainfo psta).addbaRetryTimer psta = false
  bits : (s.freeStainfo psta).ps.BitsClear (s.ps.aid psta)
  again : ((s.freeStainfo psta).initStainfo psta).Placed stock

/-! ## 3. The reordering queues -/

namespace RecvPool

variable {s : RecvPool} {psta : StaId}

theorem framesAt_rtwFreeRecvframe {id : Nat} (hnot : id ∉ s.framesAt .handler) :
    (s.rtwFreeRecvframe id).framesAt = fun p =>
      if p = .free then (s.framesAt p).filter (· ≠ id) ++ [id]
      else (s.framesAt p).filter (· ≠ id) := by
  have hself : (s.framesAt .handler).filter (· ≠ id) = s.framesAt .handler := by
    rw [List.filter_eq_self]
    intro x hx
    simpa using fun hxid : x = id => hnot (hxid ▸ hx)
  have hplaced := placed_rtwFreeRecvframe s id (s.framesAt .handler)
  rw [hself] at hplaced
  have hat : ∀ t : RecvPool, t.placed (t.framesAt .handler) = t.framesAt := by
    intro t
    funext p
    cases p <;> rfl
  rw [hat s] at hplaced
  rw [← hplaced]
  exact (hat (s.rtwFreeRecvframe id)).symm

/-- Frames that are not in hand are freed, wherever they are. -/
theorem freeAll_kept : ∀ {l : List RecvFrame} {s : RecvPool}, Kept stock s.framesAt →
    (∀ f ∈ l, f.id ∈ stock ∧ f.id ∉ s.framesAt .handler) →
    Kept stock (s.freeAll l).framesAt ∧
      ∀ q, q ≠ .free → (s.freeAll l).framesAt q = (s.framesAt q).filter (· ∉ l.map (·.id))
  | [], s, h, _ => by
    refine ⟨h, fun q _ => ?_⟩
    rw [List.filter_eq_self.mpr]
    · rfl
    · exact fun x _ => decide_eq_true List.not_mem_nil
  | f :: t, s, h, hl => by
    obtain ⟨hid, hnot⟩ := hl f List.mem_cons_self
    have hfree := framesAt_rtwFreeRecvframe hnot
    have hkept : Kept stock (s.rtwFreeRecvframe f.id).framesAt := by
      rw [hfree]
      exact h.moveTo hid .free
    obtain ⟨ih, hsame⟩ := @freeAll_kept t (s.rtwFreeRecvframe f.id) hkept (fun g hg => by
      obtain ⟨hgid, hgnot⟩ := hl g (List.mem_cons_of_mem f hg)
      refine ⟨hgid, fun hmem => hgnot ?_⟩
      rw [hfree] at hmem
      exact (List.mem_filter.mp hmem).1)
    refine ⟨ih, fun q hq => (hsame q hq).trans ?_⟩
    rw [hfree, List.map_cons]
    dsimp only
    rw [if_neg hq, List.filter_filter]
    refine List.filter_congr fun x _ => ?_
    simp only [List.mem_cons, not_or, Bool.decide_and, Bool.and_comm]

/-- A timer of a station is left alone by `rtw_free_recvframe`. -/
theorem freeAll_timerSet : ∀ (l : List RecvFrame) (s : RecvPool) (i : StaId) (tid : Nat),
    ((s.freeAll l).recvreorderCtrl i tid).timerSet = (s.recvreorderCtrl i tid).timerSet
  | [], _, _, _ => rfl
  | f :: t, s, i, tid => freeAll_timerSet t (s.rtwFreeRecvframe f.id) i tid

/-- **One reordering queue is freed**, and its timer stopped; nothing else changes but the free
queue. -/
theorem freeReorder_spec (h : Kept stock s.framesAt) (psta : StaId) (tid : Nat) :
    Kept stock (s.freeReorder psta tid).framesAt ∧
      (s.freeReorder psta tid).framesAt (.pending psta tid) = [] ∧
      (∀ q, q ≠ .free → q ≠ .pending psta tid →
        (s.freeReorder psta tid).framesAt q = s.framesAt q) ∧
      ((s.freeReorder psta tid).recvreorderCtrl psta tid).timerSet = false ∧
      ∀ t, t ≠ tid → ((s.freeReorder psta tid).recvreorderCtrl psta t).timerSet
        = (s.recvreorderCtrl psta t).timerSet := by
  have hstop : (s.setReorderCtrl psta tid
      { s.recvreorderCtrl psta tid with timerSet := false }).framesAt = s.framesAt := by
    funext p
    cases p with
    | pending i t =>
      by_cases hit : i = psta ∧ t = tid
      · obtain ⟨rfl, rfl⟩ := hit
        simp only [framesAt, setReorderCtrl_self]
      · simp only [framesAt, setReorderCtrl_ne s _ hit]
    | _ => rfl
  have hqueue : ∀ f ∈ (s.recvreorderCtrl psta tid).pendingRecvframeQueue,
      f.id ∈ s.framesAt (.pending psta tid) := fun f hf => List.mem_map.mpr ⟨f, hf, rfl⟩
  obtain ⟨hkept, hfilter⟩ := @freeAll_kept (s.recvreorderCtrl psta tid).pendingRecvframeQueue
    (s.setReorderCtrl psta tid { s.recvreorderCtrl psta tid with timerSet := false })
    (hstop ▸ h) (fun f hf => by
      rw [hstop]
      exact ⟨(h.mem _).mpr ⟨_, hqueue f hf⟩,
        fun hhand => absurd (h.apart _ _ _ (hqueue f hf) hhand) (by simp)⟩)
  rw [hstop] at hfilter
  refine ⟨hkept, ?_, fun q hfree hq => ?_, ?_, fun t ht => ?_⟩
  · rw [show (s.freeReorder psta tid).framesAt (.pending psta tid) = _ from hfilter _ (by simp),
      List.filter_eq_nil_iff]
    intro x hx
    exact fun hout => of_decide_eq_true hout hx
  · rw [show (s.freeReorder psta tid).framesAt q = _ from hfilter q hfree, List.filter_eq_self]
    intro x hx
    refine decide_eq_true fun hmem => hq (h.apart _ _ _ hx ?_)
    exact hmem
  · unfold freeReorder
    dsimp only
    rw [freeAll_timerSet, setReorderCtrl_self]
  · unfold freeReorder
    dsimp only
    rw [freeAll_timerSet, setReorderCtrl_ne s _ (fun h => ht h.2)]

/-- The first `n` of them. -/
theorem foldl_freeReorder_spec (h : Kept stock s.framesAt) (psta : StaId) : ∀ n : Nat,
    Kept stock ((List.range n).foldl (freeReorder · psta) s).framesAt ∧
      (∀ tid < n,
        ((List.range n).foldl (freeReorder · psta) s).framesAt (.pending psta tid) = []) ∧
      (∀ q, q ≠ .free → (∀ tid < n, q ≠ .pending psta tid) →
        ((List.range n).foldl (freeReorder · psta) s).framesAt q = s.framesAt q) ∧
      ∀ tid < n,
        (((List.range n).foldl (freeReorder · psta) s).recvreorderCtrl psta tid).timerSet = false
  | 0 => ⟨h, nofun, fun _ _ _ => rfl, nofun⟩
  | n + 1 => by
    obtain ⟨hkept, hnil, hsame, hstop⟩ := foldl_freeReorder_spec h psta n
    obtain ⟨hkept', hnil', hsame', hstop', hothers⟩ := freeReorder_spec hkept psta n
    rw [List.range_succ, List.foldl_append, List.foldl_cons, List.foldl_nil]
    refine ⟨hkept', fun tid htid => ?_, fun q hfree hq => ?_, fun tid htid => ?_⟩
    · rcases Nat.lt_succ_iff_lt_or_eq.mp htid with hlt | rfl
      · have hne : Place.pending psta tid ≠ .pending psta n := by
          intro heq
          cases heq
          exact Nat.lt_irrefl _ hlt
        rw [hsame' (.pending psta tid) nofun hne, hnil tid hlt]
      · exact hnil'
    · rw [hsame' q hfree (hq n (Nat.lt_succ_self n)),
        hsame q hfree fun tid htid => hq tid (Nat.lt_succ_of_lt htid)]
    · rcases Nat.lt_succ_iff_lt_or_eq.mp htid with hlt | rfl
      · rw [hothers tid (by omega), hstop tid hlt]
      · exact hstop'

/-- **All of them.** -/
theorem freeReorders_spec (h : Kept stock s.framesAt) (psta : StaId) :
    Kept stock (s.freeReorders psta).framesAt ∧
      (∀ tid < 16, (s.freeReorders psta).framesAt (.pending psta tid) = []) ∧
      (∀ q, q ≠ .free → (∀ tid < 16, q ≠ .pending psta tid) →
        (s.freeReorders psta).framesAt q = s.framesAt q) ∧
      ∀ tid < 16, ((s.freeReorders psta).recvreorderCtrl psta tid).timerSet = false := by
  unfold freeReorders
  exact foldl_freeReorder_spec h psta 16

end RecvPool

/-! ## 4. The transmit queues -/

section Xmit

variable {s : StaFrames} {psta : StaId} {stock : Set Nat}

/-- The frames go to the end of the queue of their `ext_tag`, in order. -/
theorem rtwFreeXmitframeQueue_spec : ∀ (fs : List XmitFrame) (s : StaFrames),
    (s.rtwFreeXmitframeQueue fs).extTag = s.extTag ∧
      ∀ tag, (s.rtwFreeXmitframeQueue fs).freeXmitQueue tag
        = s.freeXmitQueue tag ++ (fs.map (·.id)).filter (s.extTag · = tag)
  | [], s => ⟨rfl, fun _ => (List.append_nil _).symm⟩
  | f :: t, s => by
    obtain ⟨htag, hqueue⟩ := rtwFreeXmitframeQueue_spec t (s.rtwFreeXmitframe f.id)
    refine ⟨htag, fun tag => (hqueue tag).trans ?_⟩
    unfold StaFrames.rtwFreeXmitframe
    dsimp only
    rw [List.map_cons, List.filter_cons]
    by_cases hf : s.extTag f.id = tag
    · subst hf
      rw [Function.update_self, if_pos (decide_eq_true rfl), List.append_assoc]
      rfl
    · rw [Function.update_of_ne (Ne.symm hf), if_neg (by simpa using hf)]

theorem rtwFreeStainfo_staDzBitmap (st : Sched) (psta : StaId) :
    (rtwFreeStainfo st psta).staDzBitmap
      = if st.hwStateAp then st.staDzBitmap &&& ~~~bit16 (st.aid psta) else st.staDzBitmap := by
  unfold rtwFreeStainfo Sched.releaseAid
  change (if st.hwStateAp = true then _ else _ : Sched).staDzBitmap = _
  split
  · split <;> rfl
  · rfl

/-- The places of the transmit frames after `rtw_free_stainfo`. -/
theorem xmitAt_freeStainfo (s : StaFrames) (psta : StaId) :
    (∀ tag, (s.freeStainfo psta).xmitAt (.free tag)
      = s.xmitAt (.free tag) ++ (s.xmitHeld psta).filter (s.extTag · = tag)) ∧
    (∀ i, (s.freeStainfo psta).xmitAt (.sleep i)
      = if i = psta then [] else s.xmitAt (.sleep i)) ∧
    ∀ i ac, (s.freeStainfo psta).xmitAt (.pending i ac)
      = if i = psta then [] else s.xmitAt (.pending i ac) := by
  refine ⟨fun tag => ?_, fun i => ?_, fun i ac => ?_⟩
  · have hheld : (s.ps.sleepQ psta ++ allAcs.flatMap (s.ps.q.queue psta)).map (·.id)
        = s.xmitHeld psta := by
      rw [List.map_append, List.map_flatMap]
      rfl
    rw [← hheld]
    exact (rtwFreeXmitframeQueue_spec _ s).2 tag
  · change ((rtwFreeStainfo s.ps.toSched psta).sleepQ i).map _ = _
    rw [rtwFreeStainfo_sleepQ]
    by_cases hi : i = psta
    · rw [hi, Function.update_self, if_pos rfl]
      rfl
    · rw [Function.update_of_ne hi, if_neg hi]
      rfl
  · change ((rtwFreeStainfo s.ps.toSched psta).q.queue i ac).map _ = _
    rw [rtwFreeStainfo_queue]
    split
    · rfl
    · rfl

/-- The shelves that `rtw_free_stainfo` moves transmit frames between. -/
def xmitPlaces (psta : StaId) : List XmitPlace :=
  .free false :: .free true :: .sleep psta :: allAcs.map (.pending psta)

/-- **The transmit frames of the station are moved to their pools.** -/
theorem kept_freeStainfo (h : Kept stock s.xmitAt) : Kept stock (s.freeStainfo psta).xmitAt := by
  obtain ⟨hfree, hsleep, hpending⟩ := xmitAt_freeStainfo s psta
  refine h.rearrange (xmitPlaces psta) ?_ ?_ ?_
  · unfold xmitPlaces allAcs
    simp
  · intro p hp
    unfold xmitPlaces allAcs at hp
    cases p with
    | free tag => cases tag <;> simp at hp
    | sleep i =>
      have hi : i ≠ psta := fun hi => hp (by rw [hi]; simp)
      rw [hsleep, if_neg hi]
    | pending i ac =>
      have hi : i ≠ psta := fun hi => hp (by rw [hi]; cases ac <;> simp)
      rw [hpending, if_neg hi]
  · have hsplit : ((s.xmitHeld psta).filter (s.extTag · = false) ++
        (s.xmitHeld psta).filter (s.extTag · = true)).Perm (s.xmitHeld psta) := by
      have hperm := List.filter_append_perm (s.extTag · = false) (s.xmitHeld psta)
      have hnot : (fun x => !decide (s.extTag x = false))
          = fun x => decide (s.extTag x = true) := by
        funext x
        cases s.extTag x <;> rfl
      rwa [hnot] at hperm
    have hafter : (xmitPlaces psta).flatMap (s.freeStainfo psta).xmitAt
        = s.xmitAt (.free false) ++ (s.xmitHeld psta).filter (s.extTag · = false) ++
          (s.xmitAt (.free true) ++ (s.xmitHeld psta).filter (s.extTag · = true)) := by
      unfold xmitPlaces allAcs
      simp only [List.flatMap_cons, List.flatMap_nil, List.map_cons, List.map_nil, hfree, hsleep,
        hpending, if_true, List.append_nil]
    have hbefore : (xmitPlaces psta).flatMap s.xmitAt
        = s.xmitAt (.free false) ++ (s.xmitAt (.free true) ++ s.xmitHeld psta) := by
      unfold xmitPlaces StaFrames.xmitHeld
      rw [List.flatMap_cons, List.flatMap_cons, List.flatMap_cons, List.flatMap_map]
    rw [hafter, hbefore, List.append_assoc]
    refine List.Perm.append_left _ ?_
    refine (List.perm_append_comm_assoc _ _ _).trans (List.Perm.append_left _ hsplit)

end Xmit

/-! ## 5. The result -/

section Result

variable {s : StaFrames} {psta : StaId} {stock : Set Nat}

/-- A frame that lies in a place lies there once. -/
theorem count_of_kept {π : Type} {stock : Set Nat} {shelf : π → List Nat} (h : Kept stock shelf)
    {p : π} {id : Nat} (hid : id ∈ shelf p) : (shelf p).count id = 1 :=
  List.count_eq_one_of_mem (h.nodup p) hid

theorem freeStainfo_rx (s : StaFrames) (psta : StaId) :
    (s.freeStainfo psta).rx = s.rx.freeReorders psta := by
  unfold StaFrames.freeStainfo
  dsimp only

/-- What lay on a reordering queue of the station is free. -/
theorem recv_freed (h : s.Placed stock) {id tid : Nat} (htid : tid < 16)
    (hid : id ∈ s.rx.framesAt (.pending psta tid)) :
    id ∈ (s.rx.freeReorders psta).framesAt .free := by
  obtain ⟨hkept, hnil, hsame, _⟩ := RecvPool.freeReorders_spec h.recv psta
  have hgone : id ∉ (s.rx.freeReorders psta).framesAt (.pending psta tid) := by
    rw [hnil tid htid]
    exact List.not_mem_nil
  obtain ⟨q, hq, hidq⟩ := h.recv.moved hkept hid hgone
  by_contra hfree
  have hne : q ≠ .free := by
    rintro rfl
    exact hfree hidq
  refine hq (hsame q hne fun t ht => ?_)
  rintro rfl
  rw [hnil t ht] at hidq
  exact absurd hidq List.not_mem_nil

/-- What lay on `defrag_q` still lies there. -/
theorem defragQ_freeReorders (h : s.Placed stock) (i : StaId) :
    (s.rx.freeReorders psta).framesAt (.defrag i) = s.rx.framesAt (.defrag i) :=
  (RecvPool.freeReorders_spec h.recv psta).2.2.1 _ nofun fun _ _ => nofun

theorem xmit_freed {id : Nat} (hid : id ∈ s.xmitHeld psta) :
    id ∈ (s.freeStainfo psta).xmitAt (.free (s.extTag id)) := by
  rw [(xmitAt_freeStainfo s psta).1]
  exact List.mem_append_right _ (List.mem_filter.mpr ⟨hid, decide_eq_true rfl⟩)

/-- The bits of the station, afterwards. -/
theorem bitsClear_freeStainfo (s : StaFrames) (psta : StaId) :
    (s.freeStainfo psta).ps.BitsClear (s.ps.aid psta) ↔
      s.ps.hwStateAp = true ∨ s.ps.BitsClear (s.ps.aid psta) := by
  have hdz : (s.freeStainfo psta).ps.staDzBitmap = if s.ps.hwStateAp then
      s.ps.staDzBitmap &&& ~~~bit16 (s.ps.aid psta) else s.ps.staDzBitmap :=
    rtwFreeStainfo_staDzBitmap s.ps.toSched psta
  have htim : (s.freeStainfo psta).ps.timBitmap = if s.ps.hwStateAp then
      s.ps.timBitmap &&& ~~~bit16 (s.ps.aid psta) else s.ps.timBitmap := rfl
  unfold PsState.BitsClear
  rw [hdz, htim]
  cases s.ps.hwStateAp with
  | false => simp
  | true =>
    have hclear : ∀ x : BitVec 16,
        (x &&& ~~~bit16 (s.ps.aid psta)).getLsbD (s.ps.aid psta) = false := by
      intro x
      rw [getLsbD_clear, decide_eq_false (not_not.mpr rfl), Bool.and_false]
    rw [if_pos rfl, if_pos rfl, hclear, hclear]
    simp

/-- An entry whose lists are empty is made anew without loss. -/
theorem placed_initStainfo (h : s.Placed stock) (hdefrag : s.rx.framesAt (.defrag psta) = [])
    (hreorder : ∀ tid < 16, s.rx.framesAt (.pending psta tid) = [])
    (hsleep : s.xmitAt (.sleep psta) = []) (hpending : ∀ ac, s.xmitAt (.pending psta ac) = []) :
    (s.initStainfo psta).Placed stock := by
  have hrecv : (s.initStainfo psta).rx.framesAt = s.rx.framesAt := by
    funext p
    cases p with
    | defrag i =>
      by_cases hi : i = psta
      · subst hi
        rw [hdefrag]
        change (Function.update s.rx.defragQ i [] i).map _ = []
        rw [Function.update_self]
        rfl
      · change (Function.update s.rx.defragQ psta [] i).map _ = (s.rx.defragQ i).map _
        rw [Function.update_of_ne hi]
    | pending i tid =>
      by_cases hi : i = psta
      · subst hi
        change (Function.update s.rx.recvreorderCtrl i _ i tid).pendingRecvframeQueue.map _ = _
        rw [Function.update_self]
        split
        · rename_i htid
          exact (hreorder tid htid).symm
        · rfl
      · change (Function.update s.rx.recvreorderCtrl psta _ i tid).pendingRecvframeQueue.map _ = _
        rw [Function.update_of_ne hi]
        rfl
    | _ => rfl
  have hxmit : (s.initStainfo psta).xmitAt = s.xmitAt := by
    funext p
    cases p with
    | free tag => rfl
    | sleep i =>
      by_cases hi : i = psta
      · subst hi
        rw [hsleep]
        change (Function.update s.ps.sleepQ i [] i).map _ = []
        rw [Function.update_self]
        rfl
      · change (Function.update s.ps.sleepQ psta [] i).map _ = (s.ps.sleepQ i).map _
        rw [Function.update_of_ne hi]
    | pending i ac =>
      have hqueue : (s.initStainfo psta).ps.q.queue i ac
          = if i = psta then [] else s.ps.q.queue i ac := by
        have hone : ∀ (q : TxQueues) (ac' : Ac), (q.setQueue psta ac' []).queue i ac
            = if i = psta ∧ ac = ac' then [] else q.queue i ac := fun _ _ => rfl
        unfold StaFrames.initStainfo allAcs
        simp only [List.foldl_cons, List.foldl_nil, hone]
        by_cases hi : i = psta
        · cases ac <;> simp [hi]
        · simp only [hi, false_and, if_false]
      change ((s.initStainfo psta).ps.q.queue i ac).map _ = _
      rw [hqueue]
      split
      · rename_i hi
        rw [hi]
        exact (hpending ac).symm
      · rfl
  exact ⟨hrecv ▸ h.recv, hxmit ▸ h.xmit⟩

/-- **A station gives back all it held exactly when no fragment waits on its `defrag_q`**, and its
bits are cleared in an AP or were not set. -/
theorem freeStainfo_returns_iff (h : s.Placed stock) :
    s.Returns psta stock ↔ s.rx.defragQ psta = [] ∧
      (s.ps.hwStateAp = true ∨ s.ps.BitsClear (s.ps.aid psta)) := by
  obtain ⟨hkept, hnil, _, hstop⟩ := RecvPool.freeReorders_spec h.recv psta
  have hrx := freeStainfo_rx s psta
  rw [← hrx] at hkept hnil hstop
  have hdefrag : (s.freeStainfo psta).rx.framesAt (.defrag psta) = s.rx.framesAt (.defrag psta) :=
    by
      rw [hrx]
      exact defragQ_freeReorders h psta
  obtain ⟨_, hsleep, hpending⟩ := xmitAt_freeStainfo s psta
  have hxmit : Kept stock (s.freeStainfo psta).xmitAt := kept_freeStainfo h.xmit
  constructor
  · intro hret
    refine ⟨?_, (bitsClear_freeStainfo s psta).mp hret.bits⟩
    by_contra hne
    obtain ⟨f, hf⟩ := List.exists_mem_of_ne_nil _ hne
    have hplace : f.id ∈ s.rx.framesAt (.defrag psta) := List.mem_map.mpr ⟨f, hf, rfl⟩
    have hcount := hret.recv f.id (List.mem_append_left _ hplace)
    have hnot : f.id ∉ (s.freeStainfo psta).rx.freeRecvQueue :=
      Kept.stays hkept hplace hdefrag (q := .free) nofun
    rw [List.count_eq_zero_of_not_mem hnot] at hcount
    cases hcount
  · rintro ⟨hempty, hbits⟩
    have hnone : s.rx.framesAt (.defrag psta) = [] := congrArg (List.map _) hempty
    have hpool : ∀ id ∈ s.xmitHeld psta,
        ((s.freeStainfo psta).xmitAt (.free (s.extTag id))).count id = 1 :=
      fun id hid => count_of_kept hxmit (xmit_freed hid)
    have htimer : (s.freeStainfo psta).addbaRetryTimer psta = false := by
      unfold StaFrames.freeStainfo
      exact Function.update_self ..
    have hreorder : ∀ id ∈ s.recvHeld psta,
        ((s.freeStainfo psta).rx.framesAt .free).count id = 1 := by
      intro id hid
      unfold StaFrames.recvHeld at hid
      rw [hnone, List.nil_append] at hid
      obtain ⟨tid, htid, hid⟩ := List.mem_flatMap.mp hid
      have hfree : id ∈ (s.freeStainfo psta).rx.framesAt .free := by
        rw [hrx]
        exact recv_freed h (List.mem_range.mp htid) hid
      exact count_of_kept hkept hfree
    have hagain : ((s.freeStainfo psta).initStainfo psta).Placed stock := by
      refine placed_initStainfo ⟨hkept, hxmit⟩ (hdefrag.trans hnone) hnil ?_ fun ac => ?_
      · rw [hsleep, if_pos rfl]
      · rw [hpending, if_pos rfl]
    exact ⟨hreorder, hpool, ⟨hstop, htimer⟩, (bitsClear_freeStainfo s psta).mpr hbits, hagain⟩

end Result

/-- An AP whose station 1 has one frame asleep, `defrag` on its `defrag_q` and `pending` on its
first reordering queue; the receive frame 0 is not free. -/
def apWith (defrag pending : List RecvFrame) : StaFrames where
  ps := {
    q := Queues.empty
    isAp := true
    hwStateAp := true
    table := ⟨[(bcAddr, 0), (⟨0x02, 0, 0, 0, 0, 0x01⟩, 1)], by decide⟩
    inPool := by decide
    fwLinked := fun _ => true
    sleeping := fun i => i = 1
    aid := id
    staAid := fun a => if a = 1 then some 1 else none
    sleepQ := fun i => if i = 1 then [⟨7, ⟨0x02, 0, 0, 0, 0, 0x01⟩, some 1, 0, 0, 0⟩] else []
    sleepqLen := fun i => if i = 1 then 1 else 0
    staDzBitmap := 0x2
    wifiSpec := false
    wmmParaSeq := [.vo, .vi, .be, .bk]
    wmm := fun _ => zeroWmm
    sleepqAcLen := fun _ => 0
    timBitmap := 0x2 }
  rx := { RecvPool.start with
    freeRecvQueue := (List.range nrRecvframe).filter (· ≠ 0)
    freeRecvframeCnt := 255
    defragQ := fun i => if i = 1 then defrag else []
    recvreorderCtrl := fun i tid => { freshReorderCtrl with
      pendingRecvframeQueue := if i = 1 ∧ tid = 0 then pending else []
      timerSet := true } }
  extTag := fun _ => false
  freeXmitQueue := fun tag => if tag then [] else [8, 9]
  freeXmitframeCnt := fun tag => if tag then 0 else 2
  addbaRetryTimer := fun _ => true
  dot11wExpireTimer := fun _ => true

/-- Its transmit frames. -/
def threeFrames : Set Nat := {x | x ∈ [7, 8, 9]}

theorem apWith_xmit (defrag pending : List RecvFrame) :
    Kept threeFrames (apWith defrag pending).xmitAt := by
  have hall : Kept threeFrames fun p : XmitPlace => if p = .free false then [7, 8, 9] else [] :=
    kept_single (by decide)
  have hmoved := hall.moveTo (x := 7) (by decide : 7 ∈ [7, 8, 9]) (.sleep 1)
  have hat : (apWith defrag pending).xmitAt = fun p =>
      if p = .sleep 1 then (if p = .free false then [7, 8, 9] else []).filter (· ≠ 7) ++ [7]
      else (if p = .free false then [7, 8, 9] else []).filter (· ≠ 7) := by
    funext p
    cases p with
    | free tag => cases tag <;> rfl
    | sleep i =>
      by_cases hi : i = 1
      · subst hi
        rfl
      · simp [StaFrames.xmitAt, apWith, hi]
    | pending i ac => rfl
  rw [hat]
  exact hmoved

/-- A frame that waits for others to be reordered. -/
theorem freeStainfo_returns_reordered :
    (apWith [] [fragIn 0 0 40]).Placed threeFrames ∧
      (apWith [] [fragIn 0 0 40]).Returns 1 threeFrames := by
  have hplaced : (apWith [] [fragIn 0 0 40]).Placed threeFrames := by
    refine ⟨?_, apWith_xmit _ _⟩
    have hall : Kept RecvPool.stock fun p : RecvPool.Place =>
        if p = .free then List.range nrRecvframe else [] := kept_single List.nodup_range
    have hmoved := hall.moveTo (x := 0) (RecvPool.mem_stock.mpr (by decide)) (.pending 1 0)
    have hid : (fragIn 0 0 40).id = 0 := by decide +kernel
    have hat : (apWith [] [fragIn 0 0 40]).rx.framesAt = fun p =>
        if p = .pending 1 0 then
          (if p = .free then List.range nrRecvframe else []).filter (· ≠ 0) ++ [0]
        else (if p = .free then List.range nrRecvframe else []).filter (· ≠ 0) := by
      funext p
      cases p with
      | pending i tid =>
        by_cases hi : i = 1 ∧ tid = 0
        · obtain ⟨rfl, rfl⟩ := hi
          simp [RecvPool.framesAt, apWith, hid]
        · simp [RecvPool.framesAt, apWith, hi]
      | defrag i => simp [RecvPool.framesAt, apWith]
      | _ => rfl
    rw [hat]
    exact hmoved
  exact ⟨hplaced, (freeStainfo_returns_iff hplaced).mpr ⟨rfl, .inl rfl⟩⟩

/-- A fragment that waits for the next one stays where it is, and when the entry is given to another
station it is nowhere. -/
theorem fragment_lost :
    0 ∈ (apWith [fragIn 1 0 40] []).recvHeld 1 ∧
      ((apWith [fragIn 1 0 40] []).freeStainfo 1).rx.freeRecvQueue.count 0 = 0 ∧
      (((apWith [fragIn 1 0 40] []).freeStainfo 1).initStainfo 1).rx.framesAt (.defrag 1) = [] ∧
      ¬ (apWith [fragIn 1 0 40] []).Returns 1 threeFrames := by
  have hheld : 0 ∈ (apWith [fragIn 1 0 40] []).recvHeld 1 := by decide +kernel
  have hcount : ((apWith [fragIn 1 0 40] []).freeStainfo 1).rx.freeRecvQueue.count 0 = 0 := by
    decide +kernel
  refine ⟨hheld, hcount, by decide +kernel, fun h => ?_⟩
  have hback := h.recv 0 hheld
  rw [hcount] at hback
  cases hback

end Rtl8723bs
