/-
# Numbers given out by a table

A table hands out numbers to holders: the holder with the number `n + 1` is in slot `n`, and a
holder without a number has the number 0.  Table and holder each keep their half, so the two
can come apart.  A tight table is one where they agree; taking a free slot and giving one back
keep it tight, and as long as there are no more live holders than slots, a holder without a
number finds a free slot.
-/
import Mathlib.Data.List.Perm.Subperm
import Mathlib.Data.List.Nodup
import Mathlib.Logic.Function.Basic

namespace SlotTable

variable {ι : Type} {live live' : ι → Prop} {slot : Nat → Option ι} {num : ι → Nat} {bound : Nat}

/-- Table and holders agree: who is in a slot is live and has its number, who has a number is
in its slot, and no number is above the bound. -/
structure Tight (live : ι → Prop) (slot : Nat → Option ι) (num : ι → Nat) (bound : Nat) :
    Prop where
  holds : ∀ i p, slot i = some p → live p ∧ num p = i + 1
  own : ∀ p, num p ≠ 0 → slot (num p - 1) = some p
  le : ∀ p, num p ≤ bound

theorem tight_empty (hslot : ∀ i, slot i = none) (hnum : ∀ p, num p = 0) :
    Tight live slot num bound where
  holds i p h := absurd (hslot i ▸ h) nofun
  own _ h := absurd (hnum _) h
  le p := hnum p ▸ Nat.zero_le bound

/-- Who has no number is in no slot. -/
theorem Tight.not_slot (h : Tight live slot num bound) {p : ι} (hzero : num p = 0) (i : Nat) :
    slot i ≠ some p := by
  intro hi
  have hnum := (h.holds i p hi).2
  omega

/-- A slot above the bound is free. -/
theorem Tight.above (h : Tight live slot num bound) {i : Nat} (hi : bound ≤ i) :
    slot i = none := by
  cases hs : slot i with
  | none => rfl
  | some p =>
    have hnum := (h.holds i p hs).2
    have hle := h.le p
    omega

/-- Only those with a number have to be live. -/
theorem Tight.mono (h : Tight live slot num bound)
    (hlive : ∀ p, num p ≠ 0 → live p → live' p) : Tight live' slot num bound where
  holds i p hi := by
    obtain ⟨hl, hnum⟩ := h.holds i p hi
    exact ⟨hlive p (by omega) hl, hnum⟩
  own := h.own
  le := h.le

variable [DecidableEq ι]

/-- A live holder without a number takes a free slot. -/
theorem Tight.take (h : Tight live slot num bound) {p : ι} (hlive : live p)
    (hzero : num p = 0) {i : Nat} (hfree : slot i = none) (hi : i < bound) :
    Tight live (Function.update slot i (some p)) (Function.update num p (i + 1)) bound := by
  constructor
  · intro j q hj
    rcases eq_or_ne j i with rfl | hji
    · rw [Function.update_self] at hj
      cases hj
      rw [Function.update_self]
      exact ⟨hlive, rfl⟩
    · rw [Function.update_of_ne hji] at hj
      obtain ⟨hl, hnum⟩ := h.holds j q hj
      have hqp : q ≠ p := by
        rintro rfl
        exact h.not_slot hzero j hj
      rw [Function.update_of_ne hqp]
      exact ⟨hl, hnum⟩
  · intro q hq
    rcases eq_or_ne q p with rfl | hqp
    · rw [Function.update_self, Nat.add_sub_cancel, Function.update_self]
    · rw [Function.update_of_ne hqp] at hq ⊢
      have hown := h.own q hq
      have hne : num q - 1 ≠ i := by
        intro heq
        rw [heq, hfree] at hown
        cases hown
      rw [Function.update_of_ne hne]
      exact hown
  · intro q
    rcases eq_or_ne q p with rfl | hqp
    · rw [Function.update_self]
      exact hi
    · rw [Function.update_of_ne hqp]
      exact h.le q

/-- A holder gives its number back. -/
theorem Tight.drop (h : Tight live slot num bound) (p : ι) :
    Tight live (if num p = 0 then slot else Function.update slot (num p - 1) none)
      (Function.update num p 0) bound := by
  have hother : ∀ q, q ≠ p → num q ≠ 0 →
      (if num p = 0 then slot else Function.update slot (num p - 1) none) (num q - 1) = some q := by
    intro q hqp hq
    split
    · exact h.own q hq
    · rename_i hp
      rw [Function.update_of_ne]
      · exact h.own q hq
      · intro heq
        have hown := h.own q hq
        rw [heq, h.own p hp] at hown
        exact hqp (Option.some.inj hown).symm
  constructor
  · intro i q hi
    have hold : slot i = some q ∧ q ≠ p := by
      split at hi
      · rename_i hp
        refine ⟨hi, ?_⟩
        rintro rfl
        exact h.not_slot hp i hi
      · rename_i hp
        rcases eq_or_ne i (num p - 1) with rfl | hne
        · rw [Function.update_self] at hi
          cases hi
        · rw [Function.update_of_ne hne] at hi
          refine ⟨hi, ?_⟩
          rintro rfl
          have hnum := (h.holds i q hi).2
          omega
    rw [Function.update_of_ne hold.2]
    exact h.holds i q hold.1
  · intro q hq
    rcases eq_or_ne q p with rfl | hqp
    · rw [Function.update_self] at hq
      exact absurd rfl hq
    · rw [Function.update_of_ne hqp] at hq ⊢
      exact hother q hqp hq
  · intro q
    rcases eq_or_ne q p with rfl | hqp
    · rw [Function.update_self]
      exact Nat.zero_le bound
    · rw [Function.update_of_ne hqp]
      exact h.le q

/-- **A holder without a number finds a free slot**, if there are no more live holders than
slots: the holders in `n` taken slots and the one without a number would be `n + 1`. -/
theorem Tight.exists_free {S : List ι} {n : Nat} (h : Tight (· ∈ S) slot num bound)
    (hlen : S.length ≤ n) {p : ι} (hp : p ∈ S) (hzero : num p = 0) : ∃ i < n, slot i = none := by
  by_contra hno
  have htaken : ∀ i < n, ∃ q, slot i = some q := by
    intro i hi
    cases hs : slot i with
    | none => exact absurd ⟨i, hi, hs⟩ hno
    | some q => exact ⟨q, rfl⟩
  have hsub : List.range n ⊆ ((S.erase p).map fun q => num q - 1) := by
    intro i hi
    obtain ⟨q, hq⟩ := htaken i (List.mem_range.mp hi)
    obtain ⟨hmem, hnum⟩ := h.holds i q hq
    have hqp : q ≠ p := by
      rintro rfl
      exact h.not_slot hzero i hq
    refine List.mem_map.mpr ⟨q, (List.mem_erase_of_ne hqp).mpr hmem, ?_⟩
    omega
  have hle := (List.subperm_of_subset List.nodup_range hsub).length_le
  rw [List.length_range, List.length_map, List.length_erase_of_mem hp] at hle
  have hpos := List.length_pos_of_mem hp
  omega

end SlotTable
