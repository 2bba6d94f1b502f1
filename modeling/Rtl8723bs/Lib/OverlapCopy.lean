/-
# Copies to an overlapping place

Memory is copied word by word to a place that may overlap the one it comes from.  Each word is read
from the memory as it then is.  A copy upwards is right when the last word goes first, and a copy
downwards when the first one does: no word is written before it was read.
-/
import Mathlib.Tactic.TypeStar

namespace OverlapCopy

variable {α : Type*}

/-- The `w` cells at `src`, over those at `dst`. -/
def putWord (w dst src : Nat) (m : Nat → α) : Nat → α := fun x =>
  if dst ≤ x ∧ x < dst + w then m (src + (x - dst)) else m x

/-- `n` words, the last one first. -/
def copyDescending (w dst src : Nat) : Nat → (Nat → α) → Nat → α
  | 0, m => m
  | n + 1, m => copyDescending w dst src n (putWord w (dst + w * n) (src + w * n) m)

/-- `n` words, the first one first. -/
def copyAscending (w dst src : Nat) : Nat → (Nat → α) → Nat → α
  | 0, m => m
  | n + 1, m => putWord w (dst + w * n) (src + w * n) (copyAscending w dst src n m)

/-- The copy that was meant: all cells are read before the first is written. -/
abbrev copied (w dst src n : Nat) (m : Nat → α) : Nat → α := putWord (w * n) dst src m

variable {w dst src : Nat}

/-- **A copy upwards**, the last word first. -/
theorem copyDescending_eq (h : src ≤ dst) (n : Nat) (m : Nat → α) :
    copyDescending w dst src n m = copied w dst src n m := by
  induction n generalizing m with
  | zero =>
    funext x
    have hno : ¬(dst ≤ x ∧ x < dst + w * 0) := by omega
    rw [copyDescending, copied, putWord, if_neg hno]
  | succ n ih =>
    rw [copyDescending, ih]
    funext x
    simp only [copied, putWord, Nat.mul_succ]
    by_cases hlow : dst ≤ x ∧ x < dst + w * n
    · -- the cells still to be read lie below the word that was written
      have hread : ¬(dst + w * n ≤ src + (x - dst) ∧ src + (x - dst) < dst + w * n + w) := by omega
      rw [if_pos hlow, if_neg hread, if_pos (by omega)]
    · rw [if_neg hlow]
      by_cases hword : dst + w * n ≤ x ∧ x < dst + w * n + w
      · rw [if_pos hword, if_pos (by omega)]
        congr 1
        omega
      · rw [if_neg hword, if_neg (by omega)]

/-- **A copy downwards**, the first word first. -/
theorem copyAscending_eq (h : dst ≤ src) (n : Nat) (m : Nat → α) :
    copyAscending w dst src n m = copied w dst src n m := by
  induction n with
  | zero =>
    funext x
    have hno : ¬(dst ≤ x ∧ x < dst + w * 0) := by omega
    rw [copyAscending, copied, putWord, if_neg hno]
  | succ n ih =>
    rw [copyAscending, ih]
    funext x
    simp only [copied, putWord, Nat.mul_succ]
    by_cases hword : dst + w * n ≤ x ∧ x < dst + w * n + w
    · -- the word to be read lies above the cells that were written
      have hread : ¬(dst ≤ src + w * n + (x - (dst + w * n)) ∧
          src + w * n + (x - (dst + w * n)) < dst + w * n) := by omega
      rw [if_pos hword, if_neg hread, if_pos (by omega)]
      congr 1
      omega
    · rw [if_neg hword]
      by_cases hlow : dst ≤ x ∧ x < dst + w * n
      · rw [if_pos hlow, if_pos (by omega)]
      · rw [if_neg hlow, if_neg (by omega)]

end OverlapCopy
