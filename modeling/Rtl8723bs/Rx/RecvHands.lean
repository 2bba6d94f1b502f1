/-
# Frames in hand

What the receive handler has in its hands is made explicit: `Holds s hands` says that the queues
of `s` and the frames `hands` together are the pool, and that the books are right.  A frame goes
from the hands to a queue, from a queue to the hands, or back to the free queue.
-/
import Rtl8723bs.Rx.RecvPool

namespace Rtl8723bs

open Shelves

/-! ## 1. The frames in the handler's hands -/

/-- What the receive path relies on in a data frame: two attributes are flags. -/
def RecvFrame.Flags (f : RecvFrame) : Prop := f.attrib.mfrag ≤ 1 ∧ f.attrib.amsdu ≤ 1

namespace RecvPool

/-- The stock. -/
def stock : Set Nat := {id | id ∈ List.range nrRecvframe}

/-- The places, with `hands` in the handler's. -/
def placed (s : RecvPool) (hands : List Nat) : Place → List Nat
  | .handler => hands
  | p => s.framesAt p

/-- **The invariant, with the frames in hand.** -/
structure Holds (s : RecvPool) (hands : List Nat) : Prop where
  kept : Kept stock (s.placed hands)
  cnt : s.freeRecvframeCnt = s.freeRecvQueue.length
  balance : ∀ id < nrRecvframe,
    s.allocs id = s.frees id + if id ∈ s.freeRecvQueue then 0 else 1
  swdec : ∀ f ∈ s.ucSwdecPendingQueue, f.Flags
  defrag : ∀ i, ∀ f ∈ s.defragQ i, f.Flags
  pending : ∀ i tid, ∀ f ∈ (s.recvreorderCtrl i tid).pendingRecvframeQueue, f.attrib.amsdu ≤ 1

/-- **The invariant.** -/
structure Inv (s : RecvPool) : Prop where
  holds : s.Holds (s.phase.held.map (·.id))
  flags : ∀ f ∈ s.phase.held, f.Flags

variable {s s' : RecvPool} {hands hands' : List Nat}

theorem mem_stock {id : Nat} : id ∈ stock ↔ id < nrRecvframe := List.mem_range

/-- The hands and one queue are rearranged. -/
theorem Holds.move (h : s.Holds hands) {p : Place} (hp : p ≠ .handler)
    (hout : ∀ q, q ≠ p → q ≠ .handler → s'.framesAt q = s.framesAt q)
    (hperm : (s'.framesAt p ++ hands').Perm (s.framesAt p ++ hands)) :
    Kept stock (s'.placed hands') := by
  have hat : ∀ (t : RecvPool) (l : List Nat), t.placed l p = t.framesAt p := by
    intro t l
    cases p <;> first | rfl | exact absurd rfl hp
  refine h.kept.rearrange [p, .handler] (by simpa using hp) ?_ ?_
  · intro q hq
    simp only [List.mem_cons, List.not_mem_nil, or_false, not_or] at hq
    have hsame := hout q hq.1 hq.2
    cases q <;> first | exact hsame | exact absurd rfl hq.2
  · simpa [hat, placed] using hperm

theorem Holds.perm (h : s.Holds hands) (hperm : hands'.Perm hands) : s.Holds hands' :=
  ⟨h.move (p := .free) nofun (fun _ _ _ => rfl) (List.Perm.append_left _ hperm),
    h.cnt, h.balance, h.swdec, h.defrag, h.pending⟩

/-- A frame in hand is on no queue. -/
theorem Holds.not_free (h : s.Holds hands) {id : Nat} (hid : id ∈ hands) :
    id ∉ s.freeRecvQueue :=
  fun hfree => absurd (h.kept.apart .handler .free id hid hfree) nofun

theorem Holds.lt (h : s.Holds hands) {id : Nat} (hid : id ∈ hands) : id < nrRecvframe :=
  mem_stock.mp ((h.kept.mem id).mpr ⟨.handler, hid⟩)

theorem Holds.nodup (h : s.Holds hands) : hands.Nodup := h.kept.nodup .handler

/-! ## 2. Giving a frame back -/

/-- The places after `rtw_free_recvframe`. -/
theorem placed_rtwFreeRecvframe (s : RecvPool) (id : Nat) (hands : List Nat) :
    (s.rtwFreeRecvframe id).placed (hands.filter (· ≠ id)) = fun p =>
      if p = .free then (s.placed hands p).filter (· ≠ id) ++ [id]
      else (s.placed hands p).filter (· ≠ id) := by
  funext p
  cases p <;> simp [placed, framesAt, rtwFreeRecvframe, listDelete, List.filter_map,
    Function.comp_def]

/-- **A frame that is away is given back**, wherever it is. -/
theorem Holds.freed (h : s.Holds hands) {id : Nat} (hlt : id < nrRecvframe)
    (hnot : id ∉ s.freeRecvQueue) : (s.rtwFreeRecvframe id).Holds (hands.filter (· ≠ id)) := by
  have hfilter : s.freeRecvQueue.filter (· ≠ id) = s.freeRecvQueue := by
    rw [List.filter_eq_self]
    rintro x hx
    simpa using fun hxid : x = id => hnot (hxid ▸ hx)
  refine ⟨?_, ?_, ?_, ?_, ?_, ?_⟩
  · rw [placed_rtwFreeRecvframe]
    exact h.kept.moveTo (mem_stock.mpr hlt) .free
  · change s.freeRecvframeCnt + 1 = (s.freeRecvQueue.filter (· ≠ id) ++ [id]).length
    rw [hfilter, h.cnt, List.length_append, List.length_singleton]
  · intro x hx
    have hbal := h.balance x hx
    simp only [rtwFreeRecvframe, listDelete, hfilter, List.mem_append, List.mem_singleton]
    rcases eq_or_ne x id with rfl | hne
    · rw [if_neg hnot] at hbal
      simp [hbal]
    · simpa [hne] using hbal
  · intro f hf
    exact h.swdec f (List.mem_filter.mp hf).1
  · intro i f hf
    exact h.defrag i f (List.mem_filter.mp hf).1
  · intro i tid f hf
    exact h.pending i tid f (List.mem_filter.mp hf).1

/-- A frame in hand is given back. -/
theorem Holds.free {id : Nat} (h : s.Holds (id :: hands)) : (s.rtwFreeRecvframe id).Holds hands := by
  have hid : id ∈ id :: hands := List.mem_cons_self
  have hnodup := h.nodup
  have hfreed := h.freed (h.lt hid) (h.not_free hid)
  have hrest : (id :: hands).filter (· ≠ id) = hands := by
    rw [List.filter_cons_of_neg (by simp), List.filter_eq_self]
    intro x hx
    simpa using fun hxid : x = id => (List.nodup_cons.mp hnodup).1 (hxid ▸ hx)
  rwa [hrest] at hfreed

/-- Frames in hand are given back. -/
theorem Holds.freeAll : ∀ {l : List RecvFrame} {s : RecvPool},
    s.Holds (l.map (·.id) ++ hands) → (s.freeAll l).Holds hands
  | [], _, h => h
  | _ :: t, _, h => Holds.freeAll (l := t) (Holds.free h)

/-- What is not a queue or a counter is not looked at. -/
theorem Holds.congr (h : s.Holds hands) (hfree : s'.freeRecvQueue = s.freeRecvQueue)
    (hcnt : s'.freeRecvframeCnt = s.freeRecvframeCnt)
    (hswdec : s'.ucSwdecPendingQueue = s.ucSwdecPendingQueue) (hdefrag : s'.defragQ = s.defragQ)
    (hctrl : s'.recvreorderCtrl = s.recvreorderCtrl) (hallocs : s'.allocs = s.allocs)
    (hfrees : s'.frees = s.frees) : s'.Holds hands := by
  have hplaced : s'.placed hands = s.placed hands := by
    funext p
    cases p <;> simp [placed, framesAt, hfree, hswdec, hdefrag, hctrl]
  exact ⟨hplaced ▸ h.kept, by rw [hcnt, hfree, h.cnt], by rw [hallocs, hfrees, hfree]; exact h.balance,
    hswdec ▸ h.swdec, hdefrag ▸ h.defrag, hctrl ▸ h.pending⟩

/-! ## 3. Between the hands and a queue -/

theorem Holds.setSwdec (h : s.Holds hands) {l : List RecvFrame}
    (hperm : (l.map (·.id) ++ hands').Perm (s.ucSwdecPendingQueue.map (·.id) ++ hands))
    (hflags : ∀ f ∈ l, f.Flags) : Holds { s with ucSwdecPendingQueue := l } hands' := by
  refine ⟨h.move (p := .swdec) nofun ?_ hperm, h.cnt, h.balance, hflags, h.defrag, h.pending⟩
  intro q hq _
  cases q <;> first | rfl | exact absurd rfl hq

theorem Holds.setDefrag (h : s.Holds hands) {q : StaId → List RecvFrame} {i : StaId}
    (hout : ∀ j, j ≠ i → q j = s.defragQ j)
    (hperm : ((q i).map (·.id) ++ hands').Perm ((s.defragQ i).map (·.id) ++ hands))
    (hflags : ∀ f ∈ q i, f.Flags) : Holds { s with defragQ := q } hands' := by
  refine ⟨h.move (p := .defrag i) nofun ?_ hperm, h.cnt, h.balance, h.swdec, ?_, h.pending⟩
  · intro p hp hhand
    cases p with
    | defrag j => exact congrArg (List.map _) (hout j (fun hij => hp (hij ▸ rfl)))
    | _ => rfl
  · intro j f hf
    rcases eq_or_ne j i with rfl | hji
    · exact hflags f hf
    · exact h.defrag j f (hout j hji ▸ hf)

theorem setReorderCtrl_self (s : RecvPool) (i : StaId) (tid : Nat) (c : RecvReorderCtrl) :
    (s.setReorderCtrl i tid c).recvreorderCtrl i tid = c := by
  simp [setReorderCtrl]

theorem setReorderCtrl_ne (s : RecvPool) {i j : StaId} {tid t : Nat} (c : RecvReorderCtrl)
    (hne : ¬(j = i ∧ t = tid)) :
    (s.setReorderCtrl i tid c).recvreorderCtrl j t = s.recvreorderCtrl j t := by
  rcases eq_or_ne j i with rfl | hji
  · have htt : t ≠ tid := fun htt => hne ⟨rfl, htt⟩
    simp [setReorderCtrl, htt]
  · simp [setReorderCtrl, hji]

theorem Holds.setReorder (h : s.Holds hands) {i : StaId} {tid : Nat} {c : RecvReorderCtrl}
    (hperm : (c.pendingRecvframeQueue.map (·.id) ++ hands').Perm
      ((s.recvreorderCtrl i tid).pendingRecvframeQueue.map (·.id) ++ hands))
    (hflags : ∀ f ∈ c.pendingRecvframeQueue, f.attrib.amsdu ≤ 1) :
    (s.setReorderCtrl i tid c).Holds hands' := by
  refine ⟨h.move (p := .pending i tid) nofun ?_ ?_, h.cnt, h.balance, h.swdec, h.defrag, ?_⟩
  · intro p hp hhand
    cases p with
    | pending j t =>
      have hne : ¬(j = i ∧ t = tid) := by
        rintro ⟨rfl, rfl⟩
        exact hp rfl
      exact congrArg (fun c => c.pendingRecvframeQueue.map (·.id)) (setReorderCtrl_ne s c hne)
    | _ => rfl
  · simpa only [framesAt, setReorderCtrl_self] using hperm
  · intro j t f hf
    by_cases hjt : j = i ∧ t = tid
    · obtain ⟨rfl, rfl⟩ := hjt
      rw [setReorderCtrl_self] at hf
      exact hflags f hf
    · rw [setReorderCtrl_ne s c hjt] at hf
      exact h.pending j t f hf

end RecvPool

end Rtl8723bs
