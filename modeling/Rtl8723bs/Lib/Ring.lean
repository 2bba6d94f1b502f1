/-
# Rings of cells

Values are put in at one index and taken out at another, and both indices go round.  What a ring
holds are the cells from where it is read up to where it is written; one cell stays free, for a
ring whose indices are the same holds nothing.
-/
import Mathlib.Logic.Function.Basic

namespace Ring

variable {α : Type} {n r w k : Nat} {m : Nat → α}

/-! ## 1. Indices -/

/-- The index behind `i`. -/
def next (n i : Nat) : Nat := if i + 1 = n then 0 else i + 1

/-- How far it is from `r` up to `w`. -/
def dist (n r w : Nat) : Nat := if r ≤ w then w - r else n - r + w

theorem next_eq_mod (hw : w < n) : (w + 1) % n = next n w := by
  unfold next
  split
  · rename_i heq
    rw [heq, Nat.mod_self]
  · exact Nat.mod_eq_of_lt (by omega)

theorem next_lt (hw : w < n) : next n w < n := by
  unfold next
  split <;> omega

theorem dist_eq_zero (hr : r < n) : dist n r w = 0 ↔ r = w := by
  unfold dist
  split <;> omega

/-- There is one free cell left. -/
theorem dist_full (hr : r < n) (hw : w < n) : dist n r w = n - 1 ↔ next n w = r := by
  unfold dist next
  split <;> split <;> omega

theorem dist_next_write (hr : r < n) (h : next n w ≠ r) :
    dist n r (next n w) = dist n r w + 1 := by
  revert h
  unfold dist next
  split <;> split <;> split <;> omega

theorem dist_next_read (hr : r < n) (hw : w < n) (h : r ≠ w) :
    dist n r w = dist n (next n r) w + 1 := by
  unfold dist next
  split <;> split <;> split <;> omega

/-! ## 2. What a ring holds -/

/-- The `k` cells from `r` on. -/
def cells (n : Nat) (m : Nat → α) : Nat → Nat → List α
  | _, 0 => []
  | r, k + 1 => m r :: cells n m (next n r) k

/-- What is held between the two indices. -/
def held (n : Nat) (m : Nat → α) (r w : Nat) : List α := cells n m r (dist n r w)

@[simp] theorem length_cells : ∀ (r k : Nat), (cells n m r k).length = k
  | _, 0 => rfl
  | r, k + 1 => by simp [cells, length_cells (next n r) k]

@[simp] theorem length_held : (held n m r w).length = dist n r w := length_cells r _

/-- The last of the cells is the one that far away. -/
theorem cells_concat (hr : r < n) (hw : w < n) (hk : dist n r w = k) :
    cells n m r (k + 1) = cells n m r k ++ [m w] := by
  induction k generalizing r with
  | zero =>
    rw [(dist_eq_zero hr).mp hk]
    rfl
  | succ k ih =>
    have hne : r ≠ w := fun h => by simp [(dist_eq_zero hr).mpr h] at hk
    have hrest := dist_next_read hr hw hne
    rw [cells, ih (next_lt hr) (by omega), cells, List.cons_append]

/-- Cells in front of `w` do not see what is stored there. -/
theorem cells_update (hr : r < n) (hw : w < n) (hk : dist n r w = k) (x : α) :
    cells n (Function.update m w x) r k = cells n m r k := by
  induction k generalizing r with
  | zero => rfl
  | succ k ih =>
    have hne : r ≠ w := fun h => by simp [(dist_eq_zero hr).mpr h] at hk
    have hrest := dist_next_read hr hw hne
    rw [cells, cells, ih (next_lt hr) (by omega), Function.update_of_ne hne]

theorem held_update (hr : r < n) (hw : w < n) (x : α) :
    held n (Function.update m w x) r w = held n m r w :=
  cells_update hr hw rfl x

/-- **Putting in**: the cell at `w` comes last. -/
theorem held_next_write (hr : r < n) (hw : w < n) (h : next n w ≠ r) :
    held n m r (next n w) = held n m r w ++ [m w] := by
  rw [held, dist_next_write hr h, cells_concat hr hw rfl, held]

/-- **Taking out**: the cell at `r` was first. -/
theorem held_next_read (hr : r < n) (hw : w < n) (h : r ≠ w) :
    held n m r w = m r :: held n m (next n r) w := by
  rw [held, dist_next_read hr hw h, cells, held]

end Ring
