/-
# Queues of owners hung on lists, with two levels of counters

Every owner `i` has one queue in each class `g`.  A queue that holds something is linked on
the list of its class, so that a server finds it; `cnt i g` counts what the queue holds and
`total g` what all queues of the class hold.  `entered` and `left` are histories: the keys of
what was put into a queue and of what was taken out of it.

`Counted` is the bookkeeping: both counters are right, no owner is linked twice and the items
leave in the order they entered.  `LinkedAt` is the link of one queue.  `Good` is both, for
every queue, and `GoodBut i g` both with the link of one queue left open, as it is in the
middle of an operation on that queue.
-/
import Mathlib.Algebra.BigOperators.Group.Finset.Basic
import Mathlib.Data.Int.Basic
import Mathlib.Algebra.Order.Group.Int
import Mathlib.Data.List.Nodup

namespace LinkedQueues

variable {ι γ α κ β : Type}

structure Queues (ι γ α κ : Type) where
  queue : ι → γ → List α
  cnt : ι → γ → Int
  linked : γ → List ι
  total : γ → Int
  entered : ι → γ → List κ
  left : ι → γ → List κ

/-! ## 1. The operations -/

section Ops

variable [DecidableEq ι] [DecidableEq γ]

/-- `f` with the value at `i` and `g` replaced. -/
def put (f : ι → γ → β) (i : ι) (g : γ) (v : β) : ι → γ → β :=
  fun j h => if j = i ∧ h = g then v else f j h

@[simp] theorem put_same (f : ι → γ → β) (i : ι) (g : γ) (v : β) : put f i g v i g = v := by
  simp [put]

theorem put_ne {f : ι → γ → β} {i j : ι} {g h : γ} {v : β} (hne : ¬(j = i ∧ h = g)) :
    put f i g v j h = f j h :=
  if_neg hne

@[simp] theorem put_self (f : ι → γ → β) (i : ι) (g : γ) : put f i g (f i g) = f := by
  funext j h
  by_cases hjh : j = i ∧ h = g
  · obtain ⟨rfl, rfl⟩ := hjh
    exact put_same f j h _
  · exact put_ne hjh

/-- No queue holds anything, and nothing ever entered. -/
def Queues.empty : Queues ι γ α κ where
  queue _ _ := []
  cnt _ _ := 0
  linked _ := []
  total _ := 0
  entered _ _ := []
  left _ _ := []

/-- Link the queue at the tail of its class. -/
def Queues.insertTail (q : Queues ι γ α κ) (i : ι) (g : γ) : Queues ι γ α κ :=
  { q with linked := Function.update q.linked g (q.linked g ++ [i]) }

/-- Link the queue at the tail of its class, unless it is linked. -/
def Queues.link (q : Queues ι γ α κ) (i : ι) (g : γ) : Queues ι γ α κ :=
  if i ∈ q.linked g then q else q.insertTail i g

/-- Take the queue off the list of its class; nothing happens if it is not linked. -/
def Queues.unlink (q : Queues ι γ α κ) (i : ι) (g : γ) : Queues ι γ α κ :=
  { q with linked := Function.update q.linked g ((q.linked g).filter (· ≠ i)) }

/-- Replace what a queue holds; neither the counters nor the link know of it. -/
def Queues.setQueue (q : Queues ι γ α κ) (i : ι) (g : γ) (l : List α) : Queues ι γ α κ :=
  { q with queue := put q.queue i g l }

/-- Change both counters of a queue by `d`. -/
def Queues.count (q : Queues ι γ α κ) (i : ι) (g : γ) (d : Int) : Queues ι γ α κ :=
  { q with
    cnt := put q.cnt i g (q.cnt i g + d)
    total := Function.update q.total g (q.total g + d) }

/-- Write down that `k` entered. -/
def Queues.enter (q : Queues ι γ α κ) (i : ι) (g : γ) (k : κ) : Queues ι γ α κ :=
  { q with entered := put q.entered i g (q.entered i g ++ [k]) }

/-- Write down that `ks` left, in that order. -/
def Queues.leave (q : Queues ι γ α κ) (i : ι) (g : γ) (ks : List κ) : Queues ι γ α κ :=
  { q with left := put q.left i g (q.left i g ++ ks) }

@[simp] theorem Queues.link_queue (q : Queues ι γ α κ) (i : ι) (g : γ) :
    (q.link i g).queue = q.queue := by
  unfold Queues.link
  split <;> rfl

@[simp] theorem Queues.link_total (q : Queues ι γ α κ) (i : ι) (g : γ) :
    (q.link i g).total = q.total := by
  unfold Queues.link
  split <;> rfl

end Ops

/-! ## 2. The invariant -/

/-- **The books.**  Both counters count what is there, for the owners `S`; nothing else has a
queue; no queue is linked twice; and what entered is what left, followed by what is there. -/
structure Counted (S : Finset ι) (key : α → κ) (q : Queues ι γ α κ) : Prop where
  cnt_eq : ∀ i g, q.cnt i g = (q.queue i g).length
  total_eq : ∀ g, q.total g = ∑ i ∈ S, q.cnt i g
  outside : ∀ i g, i ∉ S → q.queue i g = []
  nodup : ∀ g, (q.linked g).Nodup
  fifo : ∀ i g, q.entered i g = q.left i g ++ (q.queue i g).map key

/-- A queue is linked if and only if it holds something. -/
def LinkedAt (q : Queues ι γ α κ) (i : ι) (g : γ) : Prop :=
  i ∈ q.linked g ↔ q.queue i g ≠ []

structure Good (S : Finset ι) (key : α → κ) (q : Queues ι γ α κ) : Prop where
  counted : Counted S key q
  linkedAt : ∀ i g, LinkedAt q i g

/-- Good, except that the queue of `i` in `g` may be linked or not. -/
structure GoodBut (S : Finset ι) (key : α → κ) (i : ι) (g : γ) (q : Queues ι γ α κ) : Prop where
  counted : Counted S key q
  linkedAt : ∀ j h, ¬(j = i ∧ h = g) → LinkedAt q j h

variable {S : Finset ι} {key : α → κ} {q : Queues ι γ α κ} {i : ι} {g : γ}

theorem good_empty : Good S key (Queues.empty : Queues ι γ α κ) := by
  refine ⟨⟨?_, ?_, ?_, ?_, ?_⟩, ?_⟩
  · intro i g
    rfl
  · intro g
    exact Finset.sum_const_zero.symm
  · intro i g _
    rfl
  · intro g
    exact List.nodup_nil
  · intro i g
    rfl
  · intro i g
    simp [LinkedAt, Queues.empty]

theorem Good.but (h : Good S key q) (i : ι) (g : γ) : GoodBut S key i g q :=
  ⟨h.counted, fun j k _ => h.linkedAt j k⟩

theorem GoodBut.good (h : GoodBut S key i g q) (hl : LinkedAt q i g) : Good S key q := by
  refine ⟨h.counted, ?_⟩
  intro j k
  by_cases hjk : j = i ∧ k = g
  · obtain ⟨rfl, rfl⟩ := hjk
    exact hl
  · exact h.linkedAt j k hjk

/-! ## 3. What the operations keep -/

section Rules

variable [DecidableEq ι] [DecidableEq γ]

/-- One summand moves the sum of its class by as much as it moves itself. -/
theorem sum_put (f : ι → γ → Int) (hS : i ∈ S) (d : Int) :
    ∑ j ∈ S, put f i g (f i g + d) j g = ∑ j ∈ S, f j g + d := by
  have hrest : ∑ j ∈ S.erase i, put f i g (f i g + d) j g = ∑ j ∈ S.erase i, f j g := by
    refine Finset.sum_congr rfl ?_
    intro j hj
    exact put_ne (fun hji => Finset.ne_of_mem_erase hj hji.1)
  have hnew := Finset.add_sum_erase S (fun j => put f i g (f i g + d) j g) hS
  have hold := Finset.add_sum_erase S (fun j => f j g) hS
  simp only [put_same, hrest] at hnew
  omega

/-- **One queue changes.**  The books stay right when the counters move by as much as the queue
and the histories account for the difference. -/
theorem Counted.edit (h : Counted S key q) {l : List α} {d : Int} {es ls : List κ}
    (hS : i ∈ S) (hd : q.cnt i g + d = l.length) (hlog : es = ls ++ l.map key) :
    Counted S key
      { q with
        queue := put q.queue i g l
        cnt := put q.cnt i g (q.cnt i g + d)
        total := Function.update q.total g (q.total g + d)
        entered := put q.entered i g es
        left := put q.left i g ls } := by
  refine ⟨?_, ?_, ?_, h.nodup, ?_⟩
  · intro j k
    by_cases hjk : j = i ∧ k = g
    · obtain ⟨rfl, rfl⟩ := hjk
      simpa only [put_same] using hd
    · simpa only [put_ne hjk] using h.cnt_eq j k
  · intro k
    by_cases hk : k = g
    · subst hk
      simp only [Function.update_self, sum_put q.cnt hS d, h.total_eq k]
    · have hsame : ∀ j, put q.cnt i g (q.cnt i g + d) j k = q.cnt j k :=
        fun j => put_ne (fun hjk => hk hjk.2)
      simp only [Function.update_of_ne hk, hsame, h.total_eq k]
  · intro j k hj
    have hji : ¬(j = i ∧ k = g) := fun hjk => hj (hjk.1 ▸ hS)
    simpa only [put_ne hji] using h.outside j k hj
  · intro j k
    by_cases hjk : j = i ∧ k = g
    · obtain ⟨rfl, rfl⟩ := hjk
      simpa only [put_same] using hlog
    · simpa only [put_ne hjk] using h.fifo j k

omit [DecidableEq ι] [DecidableEq γ] in
/-- A queue that holds something has an owner in `S`. -/
theorem Counted.mem_of_queue (h : Counted S key q) (hq : q.queue i g ≠ []) : i ∈ S := by
  by_contra hi
  exact hq (h.outside i g hi)

omit [DecidableEq ι] in
theorem Counted.insertTail (h : Counted S key q) (hi : i ∉ q.linked g) :
    Counted S key (q.insertTail i g) := by
  refine ⟨h.cnt_eq, h.total_eq, h.outside, ?_, h.fifo⟩
  intro k
  by_cases hk : k = g
  · subst hk
    simp only [Queues.insertTail, Function.update_self]
    refine List.Nodup.append (h.nodup k) (List.nodup_singleton i) ?_
    simpa using hi
  · simpa only [Queues.insertTail, Function.update_of_ne hk] using h.nodup k

theorem Counted.link (h : Counted S key q) : Counted S key (q.link i g) := by
  unfold Queues.link
  split
  · exact h
  · rename_i hi
    exact h.insertTail hi

theorem Counted.unlink (h : Counted S key q) : Counted S key (q.unlink i g) := by
  refine ⟨h.cnt_eq, h.total_eq, h.outside, ?_, h.fifo⟩
  intro k
  by_cases hk : k = g
  · subst hk
    simpa only [Queues.unlink, Function.update_self] using (h.nodup k).filter _
  · simpa only [Queues.unlink, Function.update_of_ne hk] using h.nodup k

/-- An item is put at the end and counted. -/
theorem Counted.push (h : Counted S key q) (hS : i ∈ S) (a : α) :
    Counted S key
      (((q.setQueue i g (q.queue i g ++ [a])).enter i g (key a)).count i g 1) := by
  have hd : q.cnt i g + 1 = (q.queue i g ++ [a]).length := by
    rw [h.cnt_eq i g, List.length_append, List.length_singleton]
    rfl
  have hlog : q.entered i g ++ [key a] = q.left i g ++ (q.queue i g ++ [a]).map key := by
    rw [h.fifo i g, List.map_append, List.append_assoc, List.map_singleton]
  simpa only [Queues.setQueue, Queues.enter, Queues.count, put_self] using h.edit hS hd hlog

/-- The first item is taken out and counted off; the others may change, but for their keys. -/
theorem Counted.take (h : Counted S key q) {a : α} {t t' : List α}
    (hq : q.queue i g = a :: t) (ht : t'.map key = t.map key) :
    Counted S key (((q.setQueue i g t').leave i g [key a]).count i g (-1)) := by
  have hS : i ∈ S := h.mem_of_queue (by rw [hq]; exact List.cons_ne_nil a t)
  have hlen : t'.length = t.length := by simpa using congrArg List.length ht
  have hd : q.cnt i g + -1 = (t'.length : Int) := by
    rw [h.cnt_eq i g, hq, List.length_cons, hlen]
    push_cast
    omega
  have hlog : q.entered i g = q.left i g ++ [key a] ++ t'.map key := by
    rw [h.fifo i g, hq, List.map_cons, ht, List.append_assoc, List.singleton_append]
  simpa only [Queues.setQueue, Queues.leave, Queues.count, put_self] using h.edit hS hd hlog

/-- Everything is taken out, and the whole count taken off. -/
theorem Counted.clear (h : Counted S key q) (hS : i ∈ S) :
    Counted S key
      (((q.setQueue i g []).leave i g ((q.queue i g).map key)).count i g (-q.cnt i g)) := by
  have hd : q.cnt i g + -q.cnt i g = (([] : List α).length : Int) := by
    simp
  have hlog : q.entered i g = q.left i g ++ (q.queue i g).map key ++ ([] : List α).map key := by
    rw [List.map_nil, List.append_nil]
    exact h.fifo i g
  simpa only [Queues.setQueue, Queues.leave, Queues.count, put_self] using h.edit hS hd hlog

omit [DecidableEq ι] [DecidableEq γ] in
/-- The link of a queue is a matter of its list and its contents only. -/
theorem linkedAt_congr {q q' : Queues ι γ α κ} {j : ι} {k : γ} (h : LinkedAt q j k)
    (hl : j ∈ q'.linked k ↔ j ∈ q.linked k) (hq : q'.queue j k = q.queue j k) :
    LinkedAt q' j k := by
  unfold LinkedAt
  rw [hl, hq]
  exact h

omit [DecidableEq ι] in
theorem mem_insertTail {j : ι} {k : γ} :
    j ∈ (q.insertTail i g).linked k ↔ j ∈ q.linked k ∨ (j = i ∧ k = g) := by
  by_cases hk : k = g
  · subst hk
    simp [Queues.insertTail]
  · simp [Queues.insertTail, hk]

theorem mem_link {j : ι} {k : γ} :
    j ∈ (q.link i g).linked k ↔ j ∈ q.linked k ∨ (j = i ∧ k = g) := by
  unfold Queues.link
  split
  · rename_i hi
    constructor
    · exact Or.inl
    · rintro (hj | ⟨rfl, rfl⟩)
      · exact hj
      · exact hi
  · exact mem_insertTail

theorem mem_unlink {j : ι} {k : γ} :
    j ∈ (q.unlink i g).linked k ↔ j ∈ q.linked k ∧ ¬(j = i ∧ k = g) := by
  by_cases hk : k = g
  · subst hk
    simp [Queues.unlink]
  · simp [Queues.unlink, hk]

/-- Entering a queue: linked if it was not, the item put at the end, both counters moved. -/
theorem Good.push (h : Good S key q) (hS : i ∈ S) (a : α) :
    Good S key
      ((((q.link i g).setQueue i g (q.queue i g ++ [a])).enter i g (key a)).count i g 1) := by
  have hc : Counted S key (q.link i g) := h.counted.link
  refine ⟨?_, ?_⟩
  · have hpush := hc.push (g := g) hS a
    rwa [Queues.link_queue] at hpush
  · intro j k
    by_cases hjk : j = i ∧ k = g
    · obtain ⟨rfl, rfl⟩ := hjk
      unfold LinkedAt
      constructor
      · intro _
        simp [Queues.setQueue, Queues.enter, Queues.count]
      · intro _
        exact mem_link.mpr (Or.inr ⟨rfl, rfl⟩)
    · refine linkedAt_congr (h.linkedAt j k) ?_ ?_
      · exact mem_link.trans (or_iff_left hjk)
      · change put (q.link i g).queue i g _ j k = q.queue j k
        rw [put_ne hjk, Queues.link_queue]

theorem GoodBut.take (h : GoodBut S key i g q) {a : α} {t t' : List α}
    (hq : q.queue i g = a :: t) (ht : t'.map key = t.map key) :
    GoodBut S key i g (((q.setQueue i g t').leave i g [key a]).count i g (-1)) :=
  ⟨h.counted.take hq ht,
    fun j k hjk => linkedAt_congr (h.linkedAt j k hjk) Iff.rfl (put_ne hjk)⟩

theorem GoodBut.clear (h : GoodBut S key i g q) (hS : i ∈ S) :
    GoodBut S key i g
      (((q.setQueue i g []).leave i g ((q.queue i g).map key)).count i g (-q.cnt i g)) :=
  ⟨h.counted.clear hS,
    fun j k hjk => linkedAt_congr (h.linkedAt j k hjk) Iff.rfl (put_ne hjk)⟩

theorem GoodBut.unlink (h : GoodBut S key i g q) : GoodBut S key i g (q.unlink i g) :=
  ⟨h.counted.unlink, fun j k hjk =>
    linkedAt_congr (h.linkedAt j k hjk) (mem_unlink.trans (and_iff_left hjk)) rfl⟩

/-- A queue that was emptied is taken off its list. -/
theorem GoodBut.unlink_empty (h : GoodBut S key i g q) (hq : q.queue i g = []) :
    Good S key (q.unlink i g) := by
  refine h.unlink.good ?_
  constructor
  · intro hi
    exact absurd ⟨rfl, rfl⟩ (mem_unlink.mp hi).2
  · intro hne
    exact absurd hq hne

/-- A queue that holds something may go to the end of its list. -/
theorem GoodBut.relink (h : GoodBut S key i g q) (hq : q.queue i g ≠ []) :
    Good S key ((q.unlink i g).insertTail i g) := by
  have hnot : i ∉ (q.unlink i g).linked g := fun hi => (mem_unlink.mp hi).2 ⟨rfl, rfl⟩
  have hbut : GoodBut S key i g ((q.unlink i g).insertTail i g) :=
    ⟨h.unlink.counted.insertTail hnot, fun j k hjk =>
      linkedAt_congr (h.unlink.linkedAt j k hjk) (mem_insertTail.trans (or_iff_left hjk)) rfl⟩
  refine hbut.good ?_
  constructor
  · intro _
    exact hq
  · intro _
    exact mem_insertTail.mpr (Or.inr ⟨rfl, rfl⟩)

end Rules

end LinkedQueues
