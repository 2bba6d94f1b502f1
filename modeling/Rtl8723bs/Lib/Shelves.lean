/-
# Items on shelves

Every item of a stock lies on one shelf, once, and nothing else lies on any.  Whatever is done
between some of the shelves keeps it so, as long as the items on them are the same afterwards,
in whatever order and on whichever of them.
-/
import Mathlib.Data.List.Nodup
import Mathlib.Data.Set.Basic

namespace Shelves

variable {α π : Type}

/-- **The stock is kept.**  No shelf holds an item twice, no two shelves hold the same item, and
the shelves hold the stock. -/
structure Kept (stock : Set α) (shelf : π → List α) : Prop where
  nodup : ∀ p, (shelf p).Nodup
  apart : ∀ p q x, x ∈ shelf p → x ∈ shelf q → p = q
  mem : ∀ x, x ∈ stock ↔ ∃ p, x ∈ shelf p

variable {stock : Set α} {shelf shelf' : π → List α}

/-- **Each item is in exactly one place.** -/
theorem Kept.existsUnique (h : Kept stock shelf) {x : α} (hx : x ∈ stock) :
    ∃! p, x ∈ shelf p := by
  obtain ⟨p, hp⟩ := (h.mem x).mp hx
  exact ⟨p, hp, fun q hq => h.apart q p x hq hp⟩

/-- Everything on one shelf. -/
theorem kept_single [DecidableEq π] {p : π} {l : List α} (hl : l.Nodup) :
    Kept {x | x ∈ l} (fun q => if q = p then l else []) := by
  refine ⟨?_, ?_, ?_⟩
  · intro q
    split
    · exact hl
    · exact List.nodup_nil
  · intro q r x hq hr
    rcases eq_or_ne q p with rfl | hqp
    · rcases eq_or_ne r q with rfl | hrq
      · rfl
      · simp [hrq] at hr
    · simp [hqp] at hq
  · intro x
    constructor
    · intro hx
      exact ⟨p, by simpa using hx⟩
    · rintro ⟨q, hq⟩
      rcases eq_or_ne q p with rfl | hqp
      · simpa using hq
      · simp [hqp] at hq

/-- Nothing is twice on some of the shelves taken together. -/
theorem Kept.nodup_flatMap (h : Kept stock shelf) {ps : List π} (hps : ps.Nodup) :
    (ps.flatMap shelf).Nodup := by
  rw [List.nodup_flatMap]
  refine ⟨fun p _ => h.nodup p, hps.imp ?_⟩
  intro p q hpq x hp hq
  exact hpq (h.apart p q x hp hq)

/-- One shelf of several that hold nothing twice. -/
theorem apart_of_nodup_flatMap : ∀ {ps : List π} {p q : π} {x : α}, (ps.flatMap shelf).Nodup →
    p ∈ ps → q ∈ ps → x ∈ shelf p → x ∈ shelf q → p = q
  | r :: t, p, q, x, h, hp, hq, hxp, hxq => by
    rw [List.flatMap_cons, List.nodup_append] at h
    obtain ⟨-, ht, hrt⟩ := h
    have hlater : ∀ s, s ∈ t → x ∈ shelf s → x ∉ shelf r :=
      fun s hs hx hr => hrt x hr x (List.mem_flatMap.mpr ⟨s, hs, hx⟩) rfl
    rcases List.mem_cons.mp hp with rfl | hpt
    · rcases List.mem_cons.mp hq with rfl | hqt
      · rfl
      · exact absurd hxp (hlater q hqt hxq)
    · rcases List.mem_cons.mp hq with rfl | hqt
      · exact absurd hxq (hlater p hpt hxp)
      · exact apart_of_nodup_flatMap ht hpt hqt hxp hxq

/-- **Items are moved between the shelves `ps`.**  The stock is kept if no other shelf changes
and the items on these are the same as before. -/
theorem Kept.rearrange (h : Kept stock shelf) (ps : List π) (hps : ps.Nodup)
    (hout : ∀ p, p ∉ ps → shelf' p = shelf p)
    (hperm : (ps.flatMap shelf').Perm (ps.flatMap shelf)) : Kept stock shelf' := by
  have hnodup := hperm.nodup_iff.mpr (h.nodup_flatMap hps)
  have hfrom : ∀ {p x}, p ∈ ps → x ∈ shelf' p → ∃ q ∈ ps, x ∈ shelf q := by
    intro p x hp hx
    exact List.mem_flatMap.mp (hperm.mem_iff.mp (List.mem_flatMap.mpr ⟨p, hp, hx⟩))
  have hto : ∀ {p x}, p ∈ ps → x ∈ shelf p → ∃ q ∈ ps, x ∈ shelf' q := by
    intro p x hp hx
    exact List.mem_flatMap.mp (hperm.mem_iff.mpr (List.mem_flatMap.mpr ⟨p, hp, hx⟩))
  -- an item of `ps` was on `ps` before, so it is not on another shelf
  have hcross : ∀ {p q x}, p ∈ ps → q ∉ ps → x ∈ shelf' p → x ∉ shelf' q := by
    intro p q x hp hq hxp hxq
    obtain ⟨r, hr, hxr⟩ := hfrom hp hxp
    rw [hout q hq] at hxq
    exact hq (h.apart r q x hxr hxq ▸ hr)
  refine ⟨?_, ?_, ?_⟩
  · intro p
    by_cases hp : p ∈ ps
    · exact (List.nodup_flatMap.mp hnodup).1 p hp
    · rw [hout p hp]
      exact h.nodup p
  · intro p q x hxp hxq
    by_cases hp : p ∈ ps
    · by_cases hq : q ∈ ps
      · exact apart_of_nodup_flatMap hnodup hp hq hxp hxq
      · exact absurd hxq (hcross hp hq hxp)
    · by_cases hq : q ∈ ps
      · exact absurd hxp (hcross hq hp hxq)
      · rw [hout p hp] at hxp
        rw [hout q hq] at hxq
        exact h.apart p q x hxp hxq
  · intro x
    rw [h.mem x]
    constructor
    · rintro ⟨p, hxp⟩
      by_cases hp : p ∈ ps
      · obtain ⟨q, -, hq⟩ := hto hp hxp
        exact ⟨q, hq⟩
      · exact ⟨p, by rwa [hout p hp]⟩
    · rintro ⟨p, hxp⟩
      by_cases hp : p ∈ ps
      · obtain ⟨q, -, hq⟩ := hfrom hp hxp
        exact ⟨q, hq⟩
      · exact ⟨p, by rwa [← hout p hp]⟩

/-- **One item is moved** from a shelf to another. -/
theorem Kept.move (h : Kept stock shelf) {p q : π} (hpq : p ≠ q) {x : α}
    (hfrom : (shelf p).Perm (x :: shelf' p)) (hto : (shelf' q).Perm (x :: shelf q))
    (hout : ∀ r, r ≠ p → r ≠ q → shelf' r = shelf r) : Kept stock shelf' := by
  refine h.rearrange [p, q] (by simp [hpq]) (fun r hr => ?_) ?_
  · simp only [List.mem_cons, List.not_mem_nil, or_false, not_or] at hr
    exact hout r hr.1 hr.2
  · simp only [List.flatMap_cons, List.flatMap_nil, List.append_nil]
    exact (hto.append_left _).trans (List.perm_middle.trans (hfrom.symm.append_right _))

/-- **An item that is not where it was is on a shelf that has changed.** -/
theorem Kept.moved (h : Kept stock shelf) (h' : Kept stock shelf') {x : α} {p : π}
    (hx : x ∈ shelf p) (hgone : x ∉ shelf' p) : ∃ q, shelf' q ≠ shelf q ∧ x ∈ shelf' q := by
  obtain ⟨q, hq⟩ := (h'.mem x).mp ((h.mem x).mpr ⟨p, hx⟩)
  refine ⟨q, fun hsame => hgone ?_, hq⟩
  obtain rfl : q = p := h.apart q p x (hsame ▸ hq) hx
  exact hq

/-- An item on a shelf that is as it was is on no other. -/
theorem Kept.stays (h' : Kept stock shelf') {x : α} {p q : π} (hx : x ∈ shelf p)
    (hsame : shelf' p = shelf p) (hne : q ≠ p) : x ∉ shelf' q :=
  fun hq => hne (h'.apart q p x hq (hsame ▸ hx))

/-- **An item is put at the end of one shelf**, wherever it was before. -/
theorem Kept.moveTo [DecidableEq α] [DecidableEq π] (h : Kept stock shelf) {x : α}
    (hx : x ∈ stock) (q : π) :
    Kept stock (fun p => if p = q then (shelf p).filter (· ≠ x) ++ [x]
      else (shelf p).filter (· ≠ x)) := by
  have hmem : ∀ p y, y ∈ (if p = q then (shelf p).filter (· ≠ x) ++ [x]
      else (shelf p).filter (· ≠ x)) ↔ (y ≠ x ∧ y ∈ shelf p) ∨ (y = x ∧ p = q) := by
    intro p y
    split
    · rename_i hpq
      simp [hpq, and_comm]
    · rename_i hpq
      simp [hpq, and_comm]
  refine ⟨?_, ?_, ?_⟩
  · intro p
    have hrest := (h.nodup p).filter (fun y => decide (y ≠ x))
    split
    · rw [List.nodup_append]
      refine ⟨hrest, List.nodup_singleton x, ?_⟩
      rintro y hy _ hz rfl
      rw [List.mem_singleton.mp hz] at hy
      simp at hy
    · exact hrest
  · intro p p' y hy hy'
    rw [hmem] at hy hy'
    rcases hy with ⟨hne, hy⟩ | ⟨rfl, rfl⟩
    · rcases hy' with ⟨-, hy'⟩ | ⟨heq, -⟩
      · exact h.apart p p' y hy hy'
      · exact absurd heq hne
    · rcases hy' with ⟨hne, -⟩ | ⟨-, rfl⟩
      · exact absurd rfl hne
      · rfl
  · intro y
    simp only [hmem]
    rcases eq_or_ne y x with rfl | hyx
    · exact ⟨fun _ => ⟨q, Or.inr ⟨rfl, rfl⟩⟩, fun _ => hx⟩
    · rw [h.mem y]
      simp [hyx]

end Shelves
