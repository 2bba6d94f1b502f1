/-
# Loops that walk over an array

A loop body either goes on with a new state or breaks with one.  Many such loops have a cursor
that only moves forward and up to a bound, and hand out items on their way: these are walks.
A walk is given by where the cursor goes next from each address and what is handed out there, so
two loops that follow the same walk hand out the same items, whatever else they do.
-/
import Mathlib.Data.List.Basic

namespace Walk

/-! ## 1. Loops -/

/-- One turn of a loop: go on, or break. -/
inductive Turn (σ : Type) where
  | go (s : σ)
  | stop (s : σ)

variable {σ π : Type}

/-- At most `n` turns. -/
def runLoop (turn : σ → Turn σ) : Nat → σ → σ
  | 0, s => s
  | n + 1, s =>
    match turn s with
    | .go s' => runLoop turn n s'
    | .stop s' => s'

theorem runLoop_go {turn : σ → Turn σ} {s s' : σ} (h : turn s = .go s') (n : Nat) :
    runLoop turn (n + 1) s = runLoop turn n s' := by
  simp [runLoop, h]

theorem runLoop_stop {turn : σ → Turn σ} {s s' : σ} (h : turn s = .stop s') (n : Nat) :
    runLoop turn (n + 1) s = s' := by
  simp [runLoop, h]

/-! ## 2. Walks -/

/-- Where the cursor goes next, and the item handed out on the way, if any. -/
abbrev Next (π : Type) := Nat → Option (Nat × Option π)

/-- The cursor moves forward and up to the bound. -/
structure Advances (next : Next π) (bound : Nat) : Prop where
  lt : ∀ {a b p}, next a = some (b, p) → a < b
  stop : ∀ {a}, bound ≤ a → next a = none

/-- The items handed out from the address `a`, and the address where the walk stops. -/
def walk (next : Next π) : Nat → Nat → List π × Nat
  | 0, a => ([], a)
  | n + 1, a =>
    match next a with
    | none => ([], a)
    | some (b, p) => (p.toList ++ (walk next n b).1, (walk next n b).2)

variable {next : Next π} {bound : Nat}

theorem Advances.lt_bound (h : Advances next bound) {a b : Nat} {p : Option π}
    (hab : next a = some (b, p)) : a < bound := by
  by_contra hle
  rw [h.stop (Nat.le_of_not_lt hle)] at hab
  cases hab

/-- An induction from the bound down. -/
theorem induct_from {P : Nat → Prop} (bound : Nat)
    (step : ∀ a, (a < bound → ∀ b, a < b → P b) → P a) (a : Nat) : P a := by
  suffices hall : ∀ n a, bound - a ≤ n → P a from hall (bound - a) a (Nat.le_refl _)
  intro n
  induction n with
  | zero =>
    intro a ha
    refine step a fun hlt => ?_
    omega
  | succ n ih =>
    intro a ha
    refine step a fun _ b hb => ih b ?_
    omega

/-- An induction along the walk. -/
theorem Advances.induct (h : Advances next bound) {P : Nat → Prop}
    (step : ∀ a, (∀ b p, next a = some (b, p) → P b) → P a) (a : Nat) : P a :=
  induct_from bound (fun a ih => step a fun b _ hab => ih (h.lt_bound hab) b (h.lt hab)) a

/-- Enough turns are enough. -/
theorem Advances.walk_eq (h : Advances next bound) {n m a : Nat} (hn : bound - a ≤ n)
    (hm : bound - a ≤ m) : walk next n a = walk next m a := by
  induction n generalizing m a with
  | zero =>
    have hstop := h.stop (a := a) (by omega)
    cases m <;> simp [walk, hstop]
  | succ n ih =>
    cases hnext : next a with
    | none => cases m <;> simp [walk, hnext]
    | some bp =>
      obtain ⟨b, p⟩ := bp
      have hlt := h.lt hnext
      have hbound := h.lt_bound hnext
      cases m with
      | zero => omega
      | succ m =>
        have hrest := ih (m := m) (a := b) (by omega) (by omega)
        simp [walk, hnext, hrest]

/-- The whole walk from the address `a`. -/
def split (next : Next π) (bound a : Nat) : List π × Nat := walk next (bound - a) a

theorem Advances.split_stop (_ : Advances next bound) {a : Nat} (ha : next a = none) :
    split next bound a = ([], a) := by
  unfold split
  cases bound - a with
  | zero => rfl
  | succ n => simp [walk, ha]

theorem Advances.split_step (h : Advances next bound) {a b : Nat} {p : Option π}
    (ha : next a = some (b, p)) :
    split next bound a = (p.toList ++ (split next bound b).1, (split next bound b).2) := by
  have hlt := h.lt ha
  have hbound := h.lt_bound ha
  obtain ⟨n, hn⟩ : ∃ n, bound - a = n + 1 := ⟨bound - a - 1, by omega⟩
  unfold split
  rw [hn, walk, ha]
  dsimp only
  rw [h.walk_eq (m := bound - b) (by omega) (Nat.le_refl _)]

/-- A walk does not go back. -/
theorem Advances.le_split (h : Advances next bound) (a : Nat) : a ≤ (split next bound a).2 := by
  refine h.induct (P := fun a => a ≤ (split next bound a).2) ?_ a
  intro a ih
  cases hnext : next a with
  | none =>
    simp only [h.split_stop hnext, Nat.le_refl]
  | some bp =>
    obtain ⟨b, p⟩ := bp
    have hlt := h.lt hnext
    have hb := ih b p hnext
    rw [h.split_step hnext]
    omega

/-! ## 3. Loops that follow a walk -/

/-- The loop goes where the walk goes and hands out what it does, in the states with `P`. -/
structure Follows (turn : σ → Turn σ) (next : Next π) (addr : σ → Nat) (out : σ → List π)
    (P : σ → Prop) : Prop where
  go : ∀ {s s'}, P s → turn s = .go s' →
    P s' ∧ ∃ p, next (addr s) = some (addr s', p) ∧ out s' = out s ++ p.toList
  stop : ∀ {s s'}, P s → turn s = .stop s' → next (addr s) = none

/-- **A loop that follows a walk comes to where the walk stops**, with the items of the walk,
and breaks there. -/
theorem Follows.run {turn : σ → Turn σ} {addr : σ → Nat} {out : σ → List π} {P : σ → Prop}
    (h : Follows turn next addr out P) (hadv : Advances next bound) {n : Nat} {s : σ} (hs : P s)
    (hn : bound - addr s < n) :
    ∃ l, P l ∧ addr l = (split next bound (addr s)).2 ∧
      out l = out s ++ (split next bound (addr s)).1 ∧ turn l = .stop (runLoop turn n s) := by
  induction n generalizing s with
  | zero => omega
  | succ n ih =>
    cases hturn : turn s with
    | stop s' =>
      rw [hadv.split_stop (h.stop hs hturn), runLoop_stop hturn]
      exact ⟨s, hs, rfl, (List.append_nil _).symm, hturn⟩
    | go s' =>
      obtain ⟨hs', p, hnext, hout⟩ := h.go hs hturn
      have hlt := hadv.lt hnext
      have hbound := hadv.lt_bound hnext
      obtain ⟨l, hl, haddr, hpackets, hlast⟩ := ih hs' (by omega)
      rw [hadv.split_step hnext, runLoop_go hturn]
      refine ⟨l, hl, haddr, ?_, hlast⟩
      rw [hpackets, hout, List.append_assoc]

end Walk
