/-
# Streaks

Something is observed again and again, and a change is believed once the same was seen often enough
in a row.  The observations stand with the latest in front.
-/

namespace Streak

variable {κ : Type} {m n : Nat} {k x : κ} {hist : List κ}

/-- The last `n` observations were `k`. -/
def Streak (n : Nat) (k : κ) (hist : List κ) : Prop := hist.take n = List.replicate n k

theorem zero (k : κ) (hist : List κ) : Streak 0 k hist := rfl

theorem not_nil : ¬ Streak (n + 1) k [] := by
  simp [Streak, List.replicate_succ]

theorem succ_iff : Streak (n + 1) k (x :: hist) ↔ x = k ∧ Streak n k hist := by
  simp [Streak, List.replicate_succ]

/-- One more of the same. -/
theorem succ (h : Streak n k hist) : Streak (n + 1) k (k :: hist) := succ_iff.mpr ⟨rfl, h⟩

theorem one (k : κ) (hist : List κ) : Streak 1 k (k :: hist) := succ (zero k hist)

/-- A long streak has the short ones in it. -/
theorem mono (h : Streak n k hist) (hle : m ≤ n) : Streak m k hist := by
  have htake := congrArg (List.take m) h
  rwa [List.take_take, List.take_replicate, Nat.min_eq_left hle] at htake

end Streak
