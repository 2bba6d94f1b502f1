/-
# Names in places

Things with names are put in places: `home` says where the thing of a name is, `occ` says whose
thing is in a place.  When the two are inverse to each other, no two names share a place and no
name has two.  Putting, clearing and exchanging keep them so, if nothing is put on top of
another thing and nothing is put down twice.
-/
import Mathlib.Logic.Equiv.Basic

namespace Placement

variable {κ : Type} {home : κ → Option Nat} {occ : Nat → Option κ}

/-- Each name is where `home` says, and no other is there. -/
def Placed (home : κ → Option Nat) (occ : Nat → Option κ) : Prop :=
  ∀ n e, home n = some e ↔ occ e = some n

/-- **No two names share a place.** -/
theorem Placed.inj (h : Placed home occ) {n n' : κ} {e : Nat} (hn : home n = some e)
    (hn' : home n' = some e) : n = n' :=
  Option.some.inj (((h n e).mp hn).symm.trans ((h n' e).mp hn'))

theorem placed_empty : Placed (fun _ : κ => none) (fun _ => none) :=
  fun _ _ => ⟨nofun, nofun⟩

/-- Everything in a place is gone from it. -/
def vacate (home : κ → Option Nat) (e : Nat) : κ → Option Nat :=
  fun n => if home n = some e then none else home n

theorem vacate_some {n : κ} {e e' : Nat} :
    vacate home e n = some e' ↔ home n = some e' ∧ e' ≠ e := by
  unfold vacate
  split
  · rename_i h
    refine ⟨nofun, fun h' => ?_⟩
    rw [h] at h'
    exact absurd (Option.some.inj h'.1).symm h'.2
  · rename_i h
    refine ⟨fun h' => ⟨h', ?_⟩, fun h' => h'.1⟩
    rintro rfl
    exact h h'

theorem Placed.clear (h : Placed home occ) (e : Nat) :
    Placed (vacate home e) (Function.update occ e none) := by
  intro n e'
  rw [vacate_some]
  rcases eq_or_ne e' e with rfl | hne
  · rw [Function.update_self]
    exact ⟨fun h' => absurd rfl h'.2, nofun⟩
  · rw [Function.update_of_ne hne, ← h n e']
    exact ⟨fun h' => h'.1, fun h' => ⟨h', hne⟩⟩

/-- Places are exchanged, and everything with them. -/
theorem Placed.permute (h : Placed home occ) (σ : Equiv.Perm Nat) (hσ : ∀ e, σ (σ e) = e) :
    Placed (fun n => (home n).map σ) (occ ∘ σ) := by
  intro n e
  rw [Function.comp_apply, ← h n (σ e), Option.map_eq_some_iff]
  constructor
  · rintro ⟨e', he', rfl⟩
    rw [hσ]
    exact he'
  · intro he
    exact ⟨σ e, he, hσ e⟩

/-- Two places are emptied, and what was in them is put back crosswise. -/
theorem crossed {α : Type} (f : Nat → α) {a b : Nat} (hab : a ≠ b) {z : α} (fromA fromB : Bool)
    (ha : fromA = false → f a = z) (hb : fromB = false → f b = z) :
    (let g := Function.update (Function.update f a z) b z
     let g := if fromA then Function.update g b (f a) else g
     if fromB then Function.update g a (f b) else g) = f ∘ Equiv.swap a b := by
  rw [Equiv.comp_swap_eq_update]
  cases fromA <;> cases fromB
  · simp [ha, hb, Function.update_comm hab]
  · simp [ha, Function.update_comm hab]
  · simp [hb, Function.update_comm hab]
  · simp [Function.update_comm hab]

variable [DecidableEq κ]

/-- A thing is put down: its place is free or its own, and it is nowhere else. -/
theorem Placed.put (h : Placed home occ) {n : κ} {e : Nat}
    (hplace : ∀ n', occ e = some n' → n' = n) (honly : ∀ e', home n = some e' → e' = e) :
    Placed (Function.update home n (some e)) (Function.update occ e (some n)) := by
  intro n' e'
  rcases eq_or_ne n' n with rfl | hn
  · rw [Function.update_self]
    rcases eq_or_ne e' e with rfl | he
    · rw [Function.update_self]
      exact ⟨fun _ => rfl, fun _ => rfl⟩
    · rw [Function.update_of_ne he, ← h n' e']
      exact ⟨fun h' => absurd (Option.some.inj h').symm he, fun h' => absurd (honly e' h') he⟩
  · rw [Function.update_of_ne hn]
    rcases eq_or_ne e' e with rfl | he
    · rw [Function.update_self, h n' e']
      exact ⟨fun h' => absurd (hplace n' h') hn, fun h' => absurd (Option.some.inj h').symm hn⟩
    · rw [Function.update_of_ne he]
      exact h n' e'

/-- Two places are emptied, and the names of what was in them are put back crosswise. -/
theorem Placed.crossed (h : Placed home occ) (a b : Nat) :
    (let g := vacate (vacate home a) b
     let g := match occ a with
       | some n => Function.update g n (some b)
       | none => g
     match occ b with
       | some n => Function.update g n (some a)
       | none => g) = fun n => (home n).map (Equiv.swap a b) := by
  have hother : ∀ n, home n ≠ some a → home n ≠ some b →
      vacate (vacate home a) b n = (home n).map (Equiv.swap a b) := by
    intro n ha hb
    unfold vacate
    rw [if_neg ha, if_neg hb]
    cases hn : home n with
    | none => rfl
    | some e =>
      rw [hn] at ha hb
      have hswap := Equiv.swap_apply_of_ne_of_ne (fun he => ha (congrArg some he))
        (fun he => hb (congrArg some he))
      exact (congrArg some hswap).symm
  have hnot : ∀ n n' e, home n ≠ some e → occ e = some n' → n ≠ n' := by
    rintro n _ e hn hocc rfl
    exact hn ((h n e).mpr hocc)
  have hfirst : ∀ n, home n ≠ some b →
      (match occ a with
        | some n => Function.update (vacate (vacate home a) b) n (some b)
        | none => vacate (vacate home a) b) n = (home n).map (Equiv.swap a b) := by
    intro n hb
    by_cases ha : home n = some a
    · rw [(h n a).mp ha, ha]
      dsimp only
      rw [Function.update_self]
      exact congrArg some (Equiv.swap_apply_left a b).symm
    · cases hocc : occ a with
      | none => exact hother n ha hb
      | some n' =>
        dsimp only
        rw [Function.update_of_ne (hnot n n' a ha hocc)]
        exact hother n ha hb
  funext n
  dsimp only
  by_cases hb : home n = some b
  · rw [(h n b).mp hb, hb]
    dsimp only
    rw [Function.update_self]
    exact congrArg some (Equiv.swap_apply_right a b).symm
  · rw [← hfirst n hb]
    cases hocc : occ b with
    | none => rfl
    | some n' =>
      dsimp only
      rw [Function.update_of_ne (hnot n n' b hb hocc)]

end Placement
