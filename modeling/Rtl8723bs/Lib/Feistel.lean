/-
# Additive rounds

A register of words, and rounds that each add to one word what they compute from the others.  What
a round computes need not be invertible: it is there again when the round is to be undone.  So the
register behind any number of rounds determines the one in front of them (`run_bijective`).
-/
import Mathlib.Algebra.Group.Basic
import Mathlib.Logic.Function.Basic

namespace Feistel

variable {ι G : Type} [DecidableEq ι]

/-! ## 1. One round -/

/-- A round: the word it changes, and what it adds, which does not depend on that word. -/
structure Round (ι G : Type) [DecidableEq ι] where
  word : ι
  mix : (ι → G) → G
  blind : ∀ s v, mix (Function.update s word v) = mix s

/-- The round that adds a function of word `j` to word `i`. -/
def Round.of (i j : ι) (hij : j ≠ i) (f : G → G) : Round ι G where
  word := i
  mix s := f (s j)
  blind s v := congrArg f (Function.update_of_ne hij v s)

variable [AddGroup G]

def Round.apply (r : Round ι G) (s : ι → G) : ι → G :=
  Function.update s r.word (s r.word + r.mix s)

def Round.undo (r : Round ι G) (s : ι → G) : ι → G :=
  Function.update s r.word (s r.word - r.mix s)

theorem Round.undo_apply (r : Round ι G) (s : ι → G) : r.undo (r.apply s) = s := by
  simp only [undo, apply, r.blind, Function.update_self, Function.update_idem,
    add_sub_cancel_right, Function.update_eq_self]

theorem Round.apply_undo (r : Round ι G) (s : ι → G) : r.apply (r.undo s) = s := by
  simp only [undo, apply, r.blind, Function.update_self, Function.update_idem,
    sub_add_cancel, Function.update_eq_self]

theorem Round.apply_bijective (r : Round ι G) : Function.Bijective r.apply :=
  Function.bijective_iff_has_inverse.mpr ⟨r.undo, r.undo_apply, r.apply_undo⟩

/-! ## 2. Many rounds -/

/-- One round after the other. -/
def run (rs : List (Round ι G)) (s : ι → G) : ι → G := rs.foldl (fun s r => r.apply s) s

@[simp] theorem run_nil (s : ι → G) : run [] s = s := rfl

@[simp] theorem run_cons (r : Round ι G) (rs : List (Round ι G)) (s : ι → G) :
    run (r :: rs) s = run rs (r.apply s) := rfl

theorem run_append (rs rs' : List (Round ι G)) (s : ι → G) :
    run (rs ++ rs') s = run rs' (run rs s) := List.foldl_append

/-- **No register is lost**, whatever the rounds compute. -/
theorem run_bijective (rs : List (Round ι G)) : Function.Bijective (run rs) := by
  induction rs with
  | nil => exact Function.bijective_id
  | cons r rs ih => exact ih.comp r.apply_bijective

end Feistel
