/-
# A queue with one consumer

Items enter at the tail; one consumer takes the head into its hand, may put it back at the head,
may act on it, and lays it aside when it is done.  So at every moment the items that ever
entered are, in their order, those laid aside, the one in the hand, and those in the queue, and
the log of the items acted on is a sublist of that: each is acted on at most once, first come
first served.
-/
import Mathlib.Data.List.Nodup

/-- The items laid aside, the one in the hand, those in the queue, and the log. -/
structure Fifo (ι : Type) where
  aside : List ι
  hand : Option ι
  queue : List ι
  log : List ι

namespace Fifo

variable {ι : Type} {f : Fifo ι} {c : ι}

/-- Every item that entered, in its order. -/
def all (f : Fifo ι) : List ι := f.aside ++ f.hand.toList ++ f.queue

/-- Nothing entered twice, and the log is of items taken from the queue, in their order. -/
structure Good (f : Fifo ι) : Prop where
  nodup : f.all.Nodup
  log : f.log.Sublist (f.aside ++ f.hand.toList)

/-- The item in the hand was not acted on. -/
def Untouched (f : Fifo ι) : Prop := f.log.Sublist f.aside

theorem good_empty : Good (⟨[], none, [], []⟩ : Fifo ι) where
  nodup := List.nodup_nil
  log := List.Sublist.refl _

theorem Good.log_all (h : f.Good) : f.log.Sublist f.all :=
  h.log.trans (List.sublist_append_left _ _)

theorem mem_all {d : ι} : d ∈ f.all ↔ d ∈ f.aside ∨ f.hand = some d ∨ d ∈ f.queue := by
  unfold all
  rw [List.mem_append, List.mem_append, Option.mem_toList, or_assoc]

/-- The item in the hand is nowhere else. -/
theorem Good.hand_apart (h : f.Good) (hc : f.hand = some c) : c ∉ f.aside ∧ c ∉ f.queue := by
  have hnodup : (f.aside ++ [c] ++ f.queue).Nodup := by
    have := h.nodup
    rwa [all, hc] at this
  rw [List.append_assoc, List.nodup_append] at hnodup
  obtain ⟨-, hrest, hdisj⟩ := hnodup
  exact ⟨fun haside => hdisj c haside c List.mem_cons_self rfl,
    (List.nodup_cons.mp hrest).1⟩

/-- An item that was laid aside is not in the queue. -/
theorem Good.queue_apart (h : f.Good) {d : ι} (hd : d ∈ f.queue) : d ∉ f.aside := by
  intro haside
  have hnodup := h.nodup
  rw [all, List.nodup_append] at hnodup
  exact hnodup.2.2 d (List.mem_append_left _ haside) d hd rfl

theorem Good.push (h : f.Good) (hc : c ∉ f.all) : Good { f with queue := f.queue ++ [c] } where
  nodup := by
    have hall : all { f with queue := f.queue ++ [c] } = f.all ++ [c] := by
      simp [all]
    rw [hall, List.nodup_append]
    refine ⟨h.nodup, List.nodup_singleton c, ?_⟩
    intro d hd e he hde
    rw [List.mem_singleton] at he
    exact hc (he ▸ hde ▸ hd)
  log := h.log

/-- The consumer takes the head. -/
theorem Good.take {q : List ι} (h : f.Good) (hhand : f.hand = none) (hq : f.queue = c :: q) :
    Good { f with hand := some c, queue := q } where
  nodup := by
    have hnodup := h.nodup
    rw [all, hhand, hq] at hnodup
    simpa [all] using hnodup
  log := by
    have hlog := h.log
    rw [hhand] at hlog
    exact hlog.trans (by simp)

theorem Good.untouched (h : f.Good) (hhand : f.hand = none) : f.Untouched := by
  have hlog := h.log
  rw [hhand] at hlog
  simpa [Untouched] using hlog

/-- The consumer puts the item back at the head, before it acted on it. -/
theorem Good.putBack (h : f.Good) (hc : f.hand = some c) (hlog : f.Untouched) :
    Good { f with hand := none, queue := c :: f.queue } where
  nodup := by
    have hnodup := h.nodup
    rw [all, hc] at hnodup
    simpa [all] using hnodup
  log := by simpa [Untouched] using hlog

/-- The consumer acts on the item, for the first time. -/
theorem Good.act (h : f.Good) (hc : f.hand = some c) (hlog : f.Untouched) :
    Good { f with log := f.log ++ [c] } where
  nodup := h.nodup
  log := by
    rw [hc]
    exact hlog.append (List.Sublist.refl [c])

/-- The consumer lays the item aside. -/
theorem Good.layAside (h : f.Good) (hc : f.hand = some c) :
    Good { f with aside := f.aside ++ [c], hand := none } where
  nodup := by
    have hnodup := h.nodup
    rw [all, hc] at hnodup
    simpa [all] using hnodup
  log := by
    have hlog := h.log
    rw [hc] at hlog
    simpa using hlog

end Fifo
