/-
# Pools with free lists

Items of several kinds, each kind with a list of those that are free and a counter beside it.
`alloc` takes the first of a list, `release` puts an item at the end of the list of its kind, and
neither looks at the counter.  `Good` is what both keep: the counters count, and every item was
given back as often as it was taken, but for the time it is out.
-/
import Mathlib.Data.List.Nodup
import Mathlib.Data.Set.Basic
import Mathlib.Algebra.Order.Group.Int
import Mathlib.Logic.Function.Basic

namespace Pools

variable {α κ : Type}

/-- `allocs` and `frees` are histories: how often each item was taken and given back. -/
structure Pool (α κ : Type) where
  kind : α → κ
  free : κ → List α
  cnt : κ → Int
  allocs : α → Nat
  frees : α → Nat

/-- Is the item out? -/
def Pool.out [DecidableEq α] (s : Pool α κ) (x : α) : Nat := if x ∈ s.free (s.kind x) then 0 else 1

/-- **The books of a pool.** -/
structure Pool.Good [DecidableEq α] (s : Pool α κ) (stock : Set α) : Prop where
  cnt : ∀ k, s.cnt k = (s.free k).length
  home : ∀ k, ∀ x ∈ s.free k, s.kind x = k
  nodup : ∀ k, (s.free k).Nodup
  balance : ∀ x ∈ stock, s.allocs x = s.frees x + s.out x

variable [DecidableEq α] [DecidableEq κ]

/-- Take the first free item of a kind. -/
def Pool.alloc (s : Pool α κ) (k : κ) : Option (α × Pool α κ) :=
  match s.free k with
  | [] => none
  | x :: rest =>
    some (x, { s with
      free := Function.update s.free k rest
      cnt := Function.update s.cnt k (s.cnt k - 1)
      allocs := Function.update s.allocs x (s.allocs x + 1) })

/-- Give an item back to the list of its kind. -/
def Pool.release (s : Pool α κ) (x : α) : Pool α κ :=
  { s with
    free := Function.update s.free (s.kind x) (s.free (s.kind x) ++ [x])
    cnt := Function.update s.cnt (s.kind x) (s.cnt (s.kind x) + 1)
    frees := Function.update s.frees x (s.frees x + 1) }

variable {stock : Set α} {s s' : Pool α κ} {k : κ} {x : α}

/-- What `alloc` does, when there is an item. -/
theorem alloc_cases (h : s.alloc k = some (x, s')) :
    s.free k = x :: s'.free k ∧ (∀ j, j ≠ k → s'.free j = s.free j) ∧ s'.kind = s.kind := by
  unfold Pool.alloc at h
  split at h
  · cases h
  · rename_i hfree
    cases h
    refine ⟨?_, fun j hj => Function.update_of_ne hj _ _, rfl⟩
    dsimp only
    rw [Function.update_self, hfree]

/-- The others are free as before. -/
theorem mem_alloc_ne (h : s.alloc k = some (x, s')) {y : α} (hy : y ≠ x) (j : κ) :
    y ∈ s'.free j ↔ y ∈ s.free j := by
  obtain ⟨hk, hne, -⟩ := alloc_cases h
  by_cases hj : j = k
  · rw [hj, hk, List.mem_cons]
    exact ⟨.inr, fun h => h.resolve_left hy⟩
  · rw [hne j hj]

theorem release_free_self (s : Pool α κ) (x : α) :
    (s.release x).free (s.kind x) = s.free (s.kind x) ++ [x] := Function.update_self _ _ _

theorem release_free_ne (hk : k ≠ s.kind x) : (s.release x).free k = s.free k :=
  Function.update_of_ne hk _ _

theorem mem_release_ne {y : α} (hy : y ≠ x) (j : κ) :
    y ∈ (s.release x).free j ↔ y ∈ s.free j := by
  by_cases hj : j = s.kind x
  · rw [hj, release_free_self, List.mem_append, List.mem_singleton]
    exact ⟨fun h => h.resolve_right hy, .inl⟩
  · rw [release_free_ne hj]

@[simp] theorem release_kind (s : Pool α κ) (x : α) : (s.release x).kind = s.kind := rfl

omit [DecidableEq κ] in
/-- An item that is not touched is out or not as before. -/
theorem out_congr {y : α} (hkind : s'.kind = s.kind)
    (hmem : y ∈ s'.free (s.kind y) ↔ y ∈ s.free (s.kind y)) : s'.out y = s.out y := by
  unfold Pool.out
  rw [hkind]
  simp only [hmem]

theorem Pool.Good.alloc (h : s.Good stock) (halloc : s.alloc k = some (x, s')) :
    s'.Good stock := by
  obtain ⟨hk, hne, hkind⟩ := alloc_cases halloc
  have hnodup := h.nodup k
  rw [hk, List.nodup_cons] at hnodup
  have hx : s.kind x = k := h.home k x (by rw [hk]; exact List.mem_cons_self)
  have hcnt : s'.cnt = Function.update s.cnt k (s.cnt k - 1) ∧ s'.frees = s.frees ∧
      s'.allocs = Function.update s.allocs x (s.allocs x + 1) := by
    unfold Pool.alloc at halloc
    split at halloc
    · cases halloc
    · cases halloc
      exact ⟨rfl, rfl, rfl⟩
  obtain ⟨hcnt, hfrees, hallocs⟩ := hcnt
  have hsub : ∀ j, ∀ y ∈ s'.free j, y ∈ s.free j := by
    intro j y hy
    by_cases hj : j = k
    · rw [hj, hk]
      exact List.mem_cons_of_mem x (hj ▸ hy)
    · exact hne j hj ▸ hy
  constructor
  · intro j
    rw [hcnt]
    by_cases hj : j = k
    · rw [hj, Function.update_self, h.cnt k, hk, List.length_cons]
      push_cast
      omega
    · rw [Function.update_of_ne hj, hne j hj]
      exact h.cnt j
  · intro j y hy
    rw [hkind]
    exact h.home j y (hsub j y hy)
  · intro j
    by_cases hj : j = k
    · exact hj ▸ hnodup.2
    · rw [hne j hj]
      exact h.nodup j
  · intro y hstock
    rw [hallocs, hfrees]
    by_cases hy : y = x
    · subst hy
      have hin : s.out y = 0 := if_pos (by rw [hx, hk]; exact List.mem_cons_self)
      have hout : s'.out y = 1 := if_neg (by rw [hkind, hx]; exact hnodup.1)
      rw [Function.update_self, h.balance y hstock, hin, hout]
    · rw [Function.update_of_ne hy, h.balance y hstock]
      exact congrArg _ (out_congr hkind (mem_alloc_ne halloc hy _)).symm

/-- An item that is out may be given back. -/
theorem Pool.Good.release (h : s.Good stock) (hx : x ∉ s.free (s.kind x)) :
    (s.release x).Good stock := by
  constructor
  · intro j
    by_cases hj : j = s.kind x
    · rw [hj, release_free_self, List.length_append, List.length_singleton]
      change Function.update s.cnt (s.kind x) (s.cnt (s.kind x) + 1) (s.kind x) = _
      rw [Function.update_self, h.cnt]
      push_cast
      rfl
    · rw [release_free_ne hj]
      exact (Function.update_of_ne hj _ _).trans (h.cnt j)
  · intro j y hy
    rw [release_kind]
    by_cases hj : j = s.kind x
    · rw [hj, release_free_self, List.mem_append, List.mem_singleton] at hy
      rcases hy with hy | rfl
      · exact (h.home _ y hy).trans hj.symm
      · exact hj.symm
    · exact h.home j y (release_free_ne hj ▸ hy)
  · intro j
    by_cases hj : j = s.kind x
    · rw [hj, release_free_self]
      refine List.nodup_append.mpr ⟨h.nodup _, List.nodup_singleton x, fun y hy z hz hyz => hx ?_⟩
      rw [hyz, List.mem_singleton.mp hz] at hy
      exact hy
    · rw [release_free_ne hj]
      exact h.nodup j
  · intro y hstock
    change s.allocs y = Function.update s.frees x (s.frees x + 1) y + _
    by_cases hy : y = x
    · subst hy
      have hout : s.out y = 1 := if_neg hx
      have hin : (s.release y).out y = 0 := if_pos (by
        rw [release_kind, release_free_self]
        exact List.mem_append_right _ (List.mem_singleton_self y))
      rw [Function.update_self, h.balance y hstock, hin, hout]
    · rw [Function.update_of_ne hy, h.balance y hstock]
      exact congrArg _ (out_congr (release_kind s x) (mem_release_ne hy _)).symm

/-- Several items are given back, one after the other. -/
theorem foldl_release_free (k : κ) (l : List α) (s : Pool α κ) :
    (l.foldl Pool.release s).kind = s.kind ∧
      (l.foldl Pool.release s).free k = s.free k ++ l.filter (fun x => decide (s.kind x = k)) := by
  induction l generalizing s with
  | nil => simp
  | cons x l ih =>
    obtain ⟨hkind, hfree⟩ := ih (s.release x)
    refine ⟨hkind, hfree.trans ?_⟩
    rw [release_kind, List.filter_cons]
    by_cases hk : k = s.kind x
    · rw [hk, release_free_self]
      simp
    · rw [release_free_ne hk]
      simp [Ne.symm hk]

theorem Pool.Good.foldl_release {l : List α} (h : s.Good stock) (hl : l.Nodup)
    (hout : ∀ x ∈ l, ∀ k, x ∉ s.free k) : (l.foldl Pool.release s).Good stock := by
  induction l generalizing s with
  | nil => exact h
  | cons x l ih =>
    obtain ⟨hx, hl⟩ := List.nodup_cons.mp hl
    refine ih (h.release (hout x List.mem_cons_self _)) hl fun y hy k => ?_
    have hyx : y ≠ x := fun heq => hx (heq ▸ hy)
    rw [mem_release_ne hyx]
    exact hout y (List.mem_cons_of_mem x hy) k

end Pools
