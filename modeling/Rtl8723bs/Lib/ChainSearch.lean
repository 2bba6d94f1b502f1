/-
# Searches along a chain of places

A loop looks at one place after another.  At each it stops because there is no more to look at,
stops because it has found what it looks for, or goes on to the place that this one names.  Where
that place lies is up to what is read, so such a loop may come to a place a second time and never
end.

`Chain.ends_iff` says when it ends; a chain whose places only go up always does, as far as no place
names itself.
-/
import Mathlib.Data.Finset.Card

/-- What a search does at a place: whether there is anything to look at, whether it is what is
looked for, and where to go on. -/
structure Chain where
  go : Nat → Bool
  hit : Nat → Bool
  next : Nat → Nat

namespace Chain

variable (c : Chain)

/-- The search from `a`, in at most `n` rounds; `none` where these are too few. -/
def search : Nat → Nat → Option (Option Nat)
  | 0, _ => none
  | n + 1, a =>
    if c.go a then if c.hit a then some (some a) else search n (c.next a) else some none

/-- The places looked at in the first `n` rounds. -/
def visited : Nat → Nat → List Nat
  | 0, _ => []
  | n + 1, a => if c.go a then a :: if c.hit a then [] else visited n (c.next a) else []

/-- The search goes on behind `a`. -/
def Passes (a : Nat) : Prop := c.go a = true ∧ c.hit a = false

/-- The places a search from `s` comes to. -/
inductive Comes (s : Nat) : Nat → Prop
  | start : Comes s s
  | next {a : Nat} : Comes s a → c.Passes a → Comes s (c.next a)

/-- The search comes to `a` again. -/
def Again (a : Nat) : Prop := c.Passes a ∧ c.Comes (c.next a) a

variable {c} {s a b n m : Nat} {r : Option Nat}

/-! ## 1. Rounds -/

theorem search_stop (h : c.go a = false) : c.search (n + 1) a = some none := by
  simp [search, h]

theorem search_hit (hgo : c.go a = true) (hhit : c.hit a = true) :
    c.search (n + 1) a = some (some a) := by
  simp [search, hgo, hhit]

theorem search_passes (h : c.Passes a) : c.search (n + 1) a = c.search n (c.next a) := by
  simp [search, h.1, h.2]

theorem visited_passes (h : c.Passes a) : c.visited (n + 1) a = a :: c.visited n (c.next a) := by
  simp [visited, h.1, h.2]

/-- Each place ends the search or passes it on. -/
theorem cases_place (c : Chain) (a : Nat) :
    c.go a = false ∨ (c.go a = true ∧ c.hit a = true) ∨ c.Passes a := by
  unfold Passes
  cases c.go a <;> cases c.hit a <;> simp

/-- More rounds give the same. -/
theorem search_mono (h : c.search n a = some r) (hle : n ≤ m) : c.search m a = some r := by
  induction n generalizing m a with
  | zero => simp [search] at h
  | succ n ih =>
    obtain ⟨m, rfl⟩ : ∃ k, m = k + 1 := ⟨m - 1, by omega⟩
    rcases cases_place c a with hstop | ⟨hgo, hhit⟩ | hpass
    · rwa [search_stop hstop] at h ⊢
    · rwa [search_hit hgo hhit] at h ⊢
    · rw [search_passes hpass] at h ⊢
      exact ih h (by omega)

/-- A search has one outcome. -/
theorem search_unique {r' : Option Nat} (h : c.search n a = some r)
    (h' : c.search m a = some r') : r = r' := by
  have hn := search_mono h (Nat.le_max_left n m)
  have hm := search_mono h' (Nat.le_max_right n m)
  exact Option.some.inj (hn.symm.trans hm)

/-! ## 2. The places a search comes to -/

/-- The first step of a way is split off. -/
theorem Comes.cons (hpass : c.Passes s) (h : c.Comes (c.next s) a) : c.Comes s a := by
  induction h with
  | start => exact .next .start hpass
  | next _ hp ih => exact .next ih hp

theorem Comes.trans (h : c.Comes s a) (h' : c.Comes a b) : c.Comes s b := by
  induction h' with
  | start => exact h
  | next _ hp ih => exact .next ih hp

/-- The place itself, or one behind it. -/
theorem Comes.head (h : c.Comes s a) : a = s ∨ c.Passes s ∧ c.Comes (c.next s) a := by
  induction h with
  | start => exact .inl rfl
  | next _ hp ih =>
    rcases ih with rfl | ⟨hs, hcomes⟩
    · exact .inr ⟨hp, .start⟩
    · exact .inr ⟨hs, .next hcomes hp⟩

/-- A search that ends passes through every place it comes to. -/
theorem Comes.search (h : c.Comes s a) (hs : c.search n s = some r) :
    ∃ m ≤ n, c.search m a = some r := by
  induction h with
  | start => exact ⟨n, Nat.le_refl n, hs⟩
  | next _ hp ih =>
    obtain ⟨m, hm, hsearch⟩ := ih
    cases m with
    | zero => simp [Chain.search] at hsearch
    | succ m =>
      rw [search_passes hp] at hsearch
      exact ⟨m, by omega, hsearch⟩

/-- What is found is a place the search comes to. -/
theorem comes_of_search (h : c.search n s = some (some a)) :
    c.Comes s a ∧ c.go a = true ∧ c.hit a = true := by
  induction n generalizing s with
  | zero => simp [search] at h
  | succ n ih =>
    rcases cases_place c s with hstop | ⟨hgo, hhit⟩ | hpass
    · simp [search_stop hstop] at h
    · rw [search_hit hgo hhit] at h
      cases h
      exact ⟨.start, hgo, hhit⟩
    · rw [search_passes hpass] at h
      obtain ⟨hcomes, hplace⟩ := ih h
      exact ⟨hcomes.cons hpass, hplace⟩

/-- A search that ends from a place on ends from every place it comes there from. -/
theorem Comes.search_from (h : c.Comes s a) (ha : c.search n a = some r) :
    ∃ m, c.search m s = some r := by
  induction h generalizing n with
  | start => exact ⟨n, ha⟩
  | next _ hp ih => exact ih (n := n + 1) (by rw [search_passes hp]; exact ha)

/-- A search that comes to what it looks for finds it. -/
theorem Comes.found (h : c.Comes s a) (hgo : c.go a = true) (hhit : c.hit a = true) :
    ∃ n, c.search n s = some (some a) :=
  h.search_from (n := 1) (search_hit hgo hhit)

/-- The places looked at are those the search comes to and finds something at. -/
theorem mem_visited (h : a ∈ c.visited n s) : c.Comes s a ∧ c.go a = true := by
  induction n generalizing s with
  | zero => simp [visited] at h
  | succ n ih =>
    rcases cases_place c s with hstop | ⟨hgo, hhit⟩ | hpass
    · simp [visited, hstop] at h
    · simp only [visited, hgo, hhit, if_true, List.mem_singleton] at h
      subst h
      exact ⟨.start, hgo⟩
    · rw [visited_passes hpass, List.mem_cons] at h
      rcases h with rfl | h
      · exact ⟨.start, hpass.1⟩
      · obtain ⟨hcomes, hgo⟩ := ih h
        exact ⟨hcomes.cons hpass, hgo⟩

/-- A place the search comes to is looked at, if there is anything to look at. -/
theorem Comes.visited (h : c.Comes s a) (hgo : c.go a = true) : ∃ n, a ∈ c.visited n s := by
  suffices hall : ∀ n b, a ∈ c.visited n b → c.Comes s b → ∃ m, a ∈ c.visited m s by
    refine hall 1 a ?_ h
    cases hhit : c.hit a <;> simp [Chain.visited, hgo, hhit]
  intro n b hb hcomes
  induction hcomes generalizing n with
  | start => exact ⟨n, hb⟩
  | next _ hp ih => exact ih (n + 1) (by rw [visited_passes hp]; exact List.mem_cons_of_mem _ hb)

/-- A search that ends looks at every place it comes to, if there is anything to look at. -/
theorem Comes.mem_visited (h : c.Comes s a) (hs : c.search n s = some r) (hgo : c.go a = true) :
    a ∈ c.visited n s := by
  induction n generalizing s with
  | zero => simp [Chain.search] at hs
  | succ n ih =>
    rcases h.head with rfl | ⟨hpass, hrest⟩
    · cases hhit : c.hit a <;> simp [Chain.visited, hgo, hhit]
    · rw [search_passes hpass] at hs
      rw [visited_passes hpass]
      exact List.mem_cons_of_mem _ (ih hrest hs)

/-! ## 3. Searches that end -/

/-- A search that comes to a place again does not end. -/
theorem not_again_of_ends (hs : c.search n s = some r) (h : c.Comes s a) : ¬ c.Again a := by
  rintro ⟨hpass, hagain⟩
  obtain ⟨m, -, hm⟩ := h.search hs
  -- fewer and fewer rounds would be enough from `a` on
  induction m using Nat.strong_induction_on with
  | _ m ih =>
    cases m with
    | zero => simp [search] at hm
    | succ m =>
      rw [search_passes hpass] at hm
      obtain ⟨k, hk, hsearch⟩ := hagain.search hm
      exact ih k (by omega) hsearch

/-- The rounds of a search that has not ended look at one place each. -/
theorem length_visited (h : c.search n s = none) : (c.visited n s).length = n := by
  induction n generalizing s with
  | zero => rfl
  | succ n ih =>
    rcases cases_place c s with hstop | ⟨hgo, hhit⟩ | hpass
    · simp [search_stop hstop] at h
    · simp [search_hit hgo hhit] at h
    · rw [search_passes hpass] at h
      rw [visited_passes hpass, List.length_cons, ih h]

/-- No place is looked at twice if the search comes to none again. -/
theorem nodup_visited (h : ∀ a, c.Comes s a → ¬ c.Again a) : (c.visited n s).Nodup := by
  induction n generalizing s with
  | zero => exact List.nodup_nil
  | succ n ih =>
    rcases cases_place c s with hstop | ⟨hgo, hhit⟩ | hpass
    · simp [visited, hstop]
    · simp [visited, hgo, hhit]
    · rw [visited_passes hpass, List.nodup_cons]
      refine ⟨fun hmem => h s .start ⟨hpass, (mem_visited hmem).1⟩, ih fun a ha => ?_⟩
      exact h a (ha.cons hpass)

/-- A search that comes to no place again has ended when there are no more places. -/
theorem ends_of_not_again {bound : Nat} (hbound : ∀ a, c.go a = true → a < bound)
    (h : ∀ a, c.Comes s a → ¬ c.Again a) : ∃ r, c.search (bound + 1) s = some r := by
  cases hs : c.search (bound + 1) s with
  | some r => exact ⟨r, rfl⟩
  | none =>
    have hle : (c.visited (bound + 1) s).length ≤ bound := by
      rw [← List.toFinset_card_of_nodup (nodup_visited h), ← Finset.card_range bound]
      refine Finset.card_le_card fun a ha => ?_
      exact Finset.mem_range.mpr (hbound a (mem_visited (List.mem_toFinset.mp ha)).2)
    rw [length_visited hs] at hle
    omega

/-- **A search ends** exactly if it comes to no place again. -/
theorem ends_iff {bound : Nat} (hbound : ∀ a, c.go a = true → a < bound) :
    (∃ n r, c.search n s = some r) ↔ ∀ a, c.Comes s a → ¬ c.Again a := by
  constructor
  · rintro ⟨n, r, hs⟩ a ha
    exact not_again_of_ends hs ha
  · intro h
    exact ⟨bound + 1, ends_of_not_again hbound h⟩

/-! ## 4. Searches that stay where they should -/

/-- A search from `s` ends, looks only at places with `P`, and finds only places with `Q`. -/
structure Stays (c : Chain) (P Q : Nat → Prop) (s : Nat) : Prop where
  ends : ∃ n r, c.search n s = some r
  looks : ∀ n, ∀ a ∈ c.visited n s, P a
  finds : ∀ n a, c.search n s = some (some a) → Q a

/-- **A search stays where it should** exactly if every place it comes to lets it. -/
theorem stays_iff {P Q : Nat → Prop} {bound : Nat} (hbound : ∀ a, c.go a = true → a < bound) :
    c.Stays P Q s ↔ ∀ a, c.Comes s a → c.go a = true →
      P a ∧ (c.hit a = true → Q a) ∧ ¬ c.Again a := by
  constructor
  · intro h a ha hgo
    obtain ⟨n, r, hends⟩ := h.ends
    obtain ⟨k, hk⟩ := ha.visited hgo
    refine ⟨h.looks k a hk, fun hhit => ?_, not_again_of_ends hends ha⟩
    obtain ⟨j, hj⟩ := ha.found hgo hhit
    exact h.finds j a hj
  · intro h
    have hagain : ∀ a, c.Comes s a → ¬ c.Again a := fun a ha hback =>
      (h a ha hback.1.1).2.2 hback
    refine ⟨(ends_iff hbound).mpr hagain, fun n a hn => ?_, fun n a hn => ?_⟩
    · obtain ⟨ha, hgo⟩ := mem_visited hn
      exact (h a ha hgo).1
    · obtain ⟨ha, hgo, hhit⟩ := comes_of_search hn
      exact (h a ha hgo).2.1 hhit

/-! ## 5. Chains that do not go down -/

theorem Comes.le (hup : ∀ a, c.Passes a → a ≤ c.next a) (h : c.Comes s a) : s ≤ a := by
  induction h with
  | start => exact Nat.le_refl s
  | next _ hp ih => exact Nat.le_trans ih (hup _ hp)

/-- Where no place names one below it, only a place that names itself is come to again. -/
theorem again_iff (hup : ∀ a, c.Passes a → a ≤ c.next a) :
    c.Again a ↔ c.Passes a ∧ c.next a = a := by
  constructor
  · rintro ⟨hpass, hcomes⟩
    exact ⟨hpass, Nat.le_antisymm (hcomes.le hup) (hup a hpass)⟩
  · rintro ⟨hpass, hself⟩
    refine ⟨hpass, ?_⟩
    rw [hself]
    exact .start

/-- A chain that only goes up comes to no place again. -/
theorem not_again (hup : ∀ a, c.Passes a → a < c.next a) : ¬ c.Again a := by
  rintro h
  obtain ⟨hpass, hself⟩ := (again_iff fun a ha => Nat.le_of_lt (hup a ha)).mp h
  have := hup a hpass
  omega

end Chain
