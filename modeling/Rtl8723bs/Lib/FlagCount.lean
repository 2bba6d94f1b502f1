/-
# Counters that count flags

Every owner has one flag of each kind, and a counter of each kind says how many owners have
theirs set.  `write` changes one flag and moves its counter when the flag really changes;
`wipe` clears all flags of an owner and tells no counter.  `Counts S f k` is the law: the
counter of kind `k` is the number of owners in `S` whose flag is set.
-/
import Mathlib.Data.List.Nodup
import Mathlib.Data.List.Count
import Mathlib.Algebra.Order.Group.Int
import Mathlib.Logic.Function.Basic

namespace FlagCount

variable {ι κ : Type}

structure Flags (ι κ : Type) where
  flag : κ → ι → Bool
  num : κ → Int

/-- No flag is set. -/
def Flags.empty : Flags ι κ where
  flag _ _ := false
  num _ := 0

/-- Each counter is the number of owners in `S` with the flag set. -/
def Counts (S : List ι) (f : Flags ι κ) (k : κ) : Prop := f.num k = S.countP (f.flag k)

section Ops

variable [DecidableEq ι] [DecidableEq κ]

/-- Give a flag the value `b`; the counter moves if that is a change. -/
def Flags.write (f : Flags ι κ) (k : κ) (i : ι) (b : Bool) : Flags ι κ :=
  if f.flag k i = b then f
  else
    { flag := Function.update f.flag k (Function.update (f.flag k) i b)
      num := Function.update f.num k (if b then f.num k + 1 else f.num k - 1) }

/-- Clear all flags of an owner, whatever the counters say. -/
def Flags.wipe (f : Flags ι κ) (i : ι) : Flags ι κ :=
  { f with flag := fun k => Function.update (f.flag k) i false }

/-- Set a counter to zero, whatever the flags say. -/
def Flags.reset (f : Flags ι κ) (k : κ) : Flags ι κ :=
  { f with num := Function.update f.num k 0 }

/-! ## 1. What an operation changes -/

@[simp] theorem write_flag_self (f : Flags ι κ) (k : κ) (i : ι) (b : Bool) :
    (f.write k i b).flag k i = b := by
  unfold Flags.write
  split
  · assumption
  · show Function.update f.flag k (Function.update (f.flag k) i b) k i = b
    rw [Function.update_self, Function.update_self]

theorem write_flag_ne {f : Flags ι κ} {k k' : κ} {i i' : ι} (b : Bool)
    (hne : k' ≠ k ∨ i' ≠ i) : (f.write k i b).flag k' i' = f.flag k' i' := by
  unfold Flags.write
  split
  · rfl
  · show Function.update f.flag k (Function.update (f.flag k) i b) k' i' = f.flag k' i'
    by_cases hk : k' = k
    · subst hk
      rw [Function.update_self, Function.update_of_ne (hne.resolve_left fun h => h rfl)]
    · rw [Function.update_of_ne hk]

theorem write_num_ne {f : Flags ι κ} {k k' : κ} (i : ι) (b : Bool) (hne : k' ≠ k) :
    (f.write k i b).num k' = f.num k' := by
  unfold Flags.write
  split
  · rfl
  · exact Function.update_of_ne hne _ _

theorem write_same {f : Flags ι κ} {k : κ} {i : ι} {b : Bool} (h : f.flag k i = b) :
    f.write k i b = f :=
  if_pos h

/-- A flag that is set on is one more. -/
theorem write_num_true {f : Flags ι κ} {k : κ} {i : ι} (h : f.flag k i = false) :
    (f.write k i true).num k = f.num k + 1 := by
  unfold Flags.write
  rw [if_neg (by simp [h])]
  exact Function.update_self _ _ _

/-- A flag that is cleared is one less. -/
theorem write_num_false {f : Flags ι κ} {k : κ} {i : ι} (h : f.flag k i = true) :
    (f.write k i false).num k = f.num k - 1 := by
  unfold Flags.write
  rw [if_neg (by simp [h])]
  exact Function.update_self _ _ _

omit [DecidableEq κ] in
@[simp] theorem wipe_flag_self (f : Flags ι κ) (k : κ) (i : ι) : (f.wipe i).flag k i = false :=
  Function.update_self _ _ _

omit [DecidableEq κ] in
theorem wipe_flag_ne {f : Flags ι κ} {i i' : ι} (k : κ) (hne : i' ≠ i) :
    (f.wipe i).flag k i' = f.flag k i' :=
  Function.update_of_ne hne _ _

omit [DecidableEq ι] in
theorem reset_same {f : Flags ι κ} {k : κ} (h : f.num k = 0) : f.reset k = f := by
  unfold Flags.reset
  rw [← h, Function.update_eq_self]

omit [DecidableEq κ] in
@[simp] theorem wipe_num (f : Flags ι κ) (i : ι) : (f.wipe i).num = f.num := rfl

end Ops

/-! ## 2. The law -/

theorem counts_empty (S : List ι) (k : κ) : Counts S (Flags.empty : Flags ι κ) k := by
  show (0 : Int) = _
  induction S with
  | nil => rfl
  | cons i S ih => rw [List.countP_cons_of_neg (by simp [Flags.empty])]; exact ih

theorem Counts.nonneg {S : List ι} {f : Flags ι κ} {k : κ} (h : Counts S f k) : 0 ≤ f.num k :=
  h ▸ Int.natCast_nonneg _

/-- Some owner has the flag set, and the counter shows it. -/
theorem Counts.pos {S : List ι} {f : Flags ι κ} {k : κ} (h : Counts S f k) {i : ι} (hi : i ∈ S)
    (hf : f.flag k i = true) : 0 < f.num k := by
  have hpos : 0 < S.countP (f.flag k) := List.countP_pos_iff.mpr ⟨i, hi, hf⟩
  rw [h]
  exact Int.natCast_pos.mpr hpos

theorem Counts.perm {S T : List ι} {f : Flags ι κ} {k : κ} (h : Counts S f k)
    (hp : T.Perm S) : Counts T f k := by
  unfold Counts
  rw [h, hp.countP_eq]

/-- An owner whose flag is not set does not count. -/
theorem counts_cons {S : List ι} {f : Flags ι κ} {k : κ} {i : ι} (hf : f.flag k i = false) :
    Counts (i :: S) f k ↔ Counts S f k := by
  unfold Counts
  rw [List.countP_cons_of_neg (by simp [hf])]

/-- Only the flags of the owners matter. -/
theorem Counts.congr {S : List ι} {f g : Flags ι κ} {k : κ} (h : Counts S f k)
    (hnum : g.num k = f.num k) (hflag : ∀ i ∈ S, g.flag k i = f.flag k i) : Counts S g k := by
  have hcount : S.countP (g.flag k) = S.countP (f.flag k) :=
    List.countP_congr fun i hi => by rw [hflag i hi]
  unfold Counts
  rw [hnum, h, hcount]

section Ops

variable [DecidableEq ι] [DecidableEq κ]

/-- The owners split off one of them. -/
theorem countP_update {S : List ι} (hnd : S.Nodup) {i : ι} (hi : i ∈ S) (p : ι → Bool)
    (b : Bool) :
    S.countP (Function.update p i b) + (p i).toNat = S.countP p + b.toNat := by
  have hperm := List.perm_cons_erase hi
  have hnot : i ∉ S.erase i := fun hmem => (hnd.mem_erase_iff.mp hmem).1 rfl
  have hrest : (S.erase i).countP (Function.update p i b) = (S.erase i).countP p := by
    refine List.countP_congr fun j hj => ?_
    have hji : j ≠ i := fun h => hnot (h ▸ hj)
    rw [Function.update_of_ne hji]
  rw [hperm.countP_eq, hperm.countP_eq p, List.countP_cons, List.countP_cons, hrest,
    Function.update_self]
  cases b <;> cases p i <;> simp

/-- **A write keeps every counter right**, for an owner that counts. -/
theorem Counts.write {S : List ι} {f : Flags ι κ} {k : κ} (h : Counts S f k) (hnd : S.Nodup)
    {i : ι} (hi : i ∈ S) (k' : κ) (b : Bool) : Counts S (f.write k' i b) k := by
  by_cases hk : k = k'
  · subst hk
    unfold Flags.write
    split
    · exact h
    · rename_i hb
      have hcount := countP_update hnd hi (f.flag k) b
      show Function.update f.num k _ k = _
      simp only [Function.update_self]
      unfold Counts at h
      cases b with
      | true =>
        rw [Bool.not_eq_true] at hb
        rw [hb] at hcount
        simp only [Bool.toNat_true, Bool.toNat_false, if_true] at hcount ⊢
        omega
      | false =>
        rw [Bool.not_eq_false] at hb
        rw [hb] at hcount
        simp only [Bool.toNat_true, Bool.toNat_false, Bool.false_eq_true, if_false] at hcount ⊢
        omega
  · exact h.congr (write_num_ne i b hk) fun j _ => write_flag_ne b (Or.inl hk)

omit [DecidableEq κ] in
/-- Wiping someone who does not count changes no count. -/
theorem Counts.wipe {S : List ι} {f : Flags ι κ} {k : κ} (h : Counts S f k) {i : ι}
    (hi : i ∉ S) : Counts S (f.wipe i) k :=
  h.congr rfl fun _ hj => wipe_flag_ne k fun hji => hi (hji ▸ hj)

end Ops

end FlagCount
