/-
# Credits of one's own, and shared ones

A `Stock` is what several users can take from: each has units of its own, and there are units
shared by all.  Whoever takes uses up its own units first.  A holder `h` keeps a copy of the stock
`d` of somebody else; `excess h d` is how much the copy believes in that is not there.  Taking as
much or more from the copy than from the stock never makes it worse (`excess_take_take`), growth
of the stock neither (`excess_mono`), and what is taken behind the holder's back makes it worse by
that much at most (`excess_take_le`).
-/
import Mathlib.Algebra.BigOperators.Group.Finset.Basic
import Mathlib.Algebra.Order.BigOperators.Group.Finset
import Mathlib.Data.Fintype.BigOperators
import Mathlib.Logic.Function.Basic

namespace Credits

variable {ι : Type}

/-- Units of each user's own, and shared ones. -/
@[ext] structure Stock (ι : Type) where
  own : ι → Nat
  shared : Nat

/-- What `i` can take. -/
def Stock.free (s : Stock ι) (i : ι) : Nat := s.own i + s.shared

/-- One stock has no more of anything than another. -/
structure Stock.Le (s t : Stock ι) : Prop where
  own : ∀ i, s.own i ≤ t.own i
  shared : s.shared ≤ t.shared

section Take

variable [DecidableEq ι]

/-- `i` takes `n`, its own first. -/
def Stock.take (s : Stock ι) (i : ι) (n : Nat) : Stock ι where
  own := Function.update s.own i (s.own i - n)
  shared := s.shared - (n - s.own i)

@[simp] theorem take_own_self (s : Stock ι) (i : ι) (n : Nat) :
    (s.take i n).own i = s.own i - n := Function.update_self i _ _

theorem take_own_ne {s : Stock ι} {i j : ι} (n : Nat) (hne : j ≠ i) :
    (s.take i n).own j = s.own j := Function.update_of_ne hne _ _

@[simp] theorem take_shared (s : Stock ι) (i : ι) (n : Nat) :
    (s.take i n).shared = s.shared - (n - s.own i) := rfl

/-- Nothing is lost on the way, if there was enough. -/
theorem free_take {s : Stock ι} {i : ι} {n : Nat} (h : n ≤ s.free i) :
    (s.take i n).free i + n = s.free i := by
  unfold Stock.free at *
  rw [take_own_self, take_shared]
  omega

end Take

/-! ## 1. What a copy has too much -/

variable [Fintype ι]

/-- How much more `h` says than `d` has. -/
def excess (h d : Stock ι) : Nat := ∑ i, (h.own i - d.own i) + (h.shared - d.shared)

variable {h d d' : Stock ι} {i : ι}

theorem excess_eq_zero_iff : excess h d = 0 ↔ h.Le d := by
  unfold excess
  rw [Nat.add_eq_zero_iff, Finset.sum_eq_zero_iff]
  constructor
  · rintro ⟨hown, hshared⟩
    exact ⟨fun i => Nat.sub_eq_zero_iff_le.mp (hown i (Finset.mem_univ i)),
      Nat.sub_eq_zero_iff_le.mp hshared⟩
  · rintro ⟨hown, hshared⟩
    exact ⟨fun i _ => Nat.sub_eq_zero_of_le (hown i), Nat.sub_eq_zero_of_le hshared⟩

/-- No single number is off by more than all together. -/
theorem own_le_add_excess : h.own i ≤ d.own i + excess h d := by
  have hone := Finset.single_le_sum (f := fun j => h.own j - d.own j)
    (fun j _ => Nat.zero_le _) (Finset.mem_univ i)
  unfold excess
  omega

theorem shared_le_add_excess : h.shared ≤ d.shared + excess h d := by
  unfold excess
  omega

theorem free_le_add_excess : h.free i ≤ d.free i + excess h d := by
  have hone := Finset.single_le_sum (f := fun j => h.own j - d.own j)
    (fun j _ => Nat.zero_le _) (Finset.mem_univ i)
  unfold excess Stock.free
  omega

/-- The stock may grow. -/
theorem excess_mono (hle : d.Le d') : excess h d' ≤ excess h d :=
  Nat.add_le_add (Finset.sum_le_sum fun i _ => Nat.sub_le_sub_left (hle.own i) _)
    (Nat.sub_le_sub_left hle.shared _)

variable [DecidableEq ι]

/-- Where two sums differ at one place only, they differ by what they differ by there. -/
theorem sum_add_of_agree {f g : ι → Nat} (hoff : ∀ j, j ≠ i → f j = g j) :
    ∑ j, f j + g i = ∑ j, g j + f i := by
  have hrest : ∑ j ∈ Finset.univ.erase i, f j = ∑ j ∈ Finset.univ.erase i, g j :=
    Finset.sum_congr rfl fun j hj => hoff j (Finset.ne_of_mem_erase hj)
  rw [← Finset.add_sum_erase _ f (Finset.mem_univ i), ← Finset.add_sum_erase _ g
    (Finset.mem_univ i), hrest]
  omega

/-- **Taking from both**: as long as the holder had `n` in its copy and not more is really taken,
the copy is no worse than before. -/
theorem excess_take_take {n m : Nat} (hhas : n ≤ h.free i) (hle : m ≤ n) :
    excess (h.take i n) (d.take i m) ≤ excess h d := by
  have hsum := @sum_add_of_agree ι _ i _ (fun j => (h.take i n).own j - (d.take i m).own j)
    (fun j => h.own j - d.own j)
    fun j hj => by rw [take_own_ne n hj, take_own_ne m hj]
  rw [take_own_self, take_own_self] at hsum
  unfold excess
  rw [take_shared, take_shared]
  unfold Stock.free at hhas
  omega

/-- **Taking from the stock alone** makes the copy worse by that much at most. -/
theorem excess_take_le (m : Nat) : excess h (d.take i m) ≤ excess h d + m := by
  have hsum := @sum_add_of_agree ι _ i _ (fun j => h.own j - (d.take i m).own j)
    (fun j => h.own j - d.own j) fun j hj => by rw [take_own_ne m hj]
  rw [take_own_self] at hsum
  unfold excess
  rw [take_shared]
  omega

end Credits
