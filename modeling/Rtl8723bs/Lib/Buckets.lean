/-
# A table of buckets

A chained hash table is a function from bucket numbers to lists.  What matters about it is
`filed h n`, the buckets below `n` one after the other: adding to one bucket adds one entry to
it up to order, taking an entry off its chain takes it out of it, and a search of the whole
table for something that only bucket `k` may hold is the search of that bucket.
-/
import Mathlib.Data.List.Nodup
import Mathlib.Data.List.Perm.Basic
import Mathlib.Logic.Function.Basic

namespace Buckets

open scoped List

variable {α : Type}

/-! ## 1. The operations -/

/-- Everything the buckets below `n` hold. -/
def filed (h : Nat → List α) (n : Nat) : List α := (List.range n).flatMap h

/-- `list_add_tail` on the chain of bucket `b`. -/
def insertTail (h : Nat → List α) (b : Nat) (a : α) : Nat → List α :=
  Function.update h b (h b ++ [a])

variable [DecidableEq α]

/-- `list_del_init`: the entry leaves whatever chain it is on. -/
def delete (h : Nat → List α) (a : α) : Nat → List α := fun b => (h b).filter (· ≠ a)

/-! ## 2. What is filed -/

omit [DecidableEq α] in
theorem mem_filed {h : Nat → List α} {n : Nat} {a : α} : a ∈ filed h n ↔ ∃ b < n, a ∈ h b := by
  simp only [filed, List.mem_flatMap, List.mem_range]

omit [DecidableEq α] in
theorem filed_succ (h : Nat → List α) (n : Nat) : filed h (n + 1) = filed h n ++ h n := by
  simp only [filed, List.range_succ, List.flatMap_append, List.flatMap_cons, List.flatMap_nil,
    List.append_nil]

omit [DecidableEq α] in
theorem filed_congr {h h' : Nat → List α} {n : Nat} (heq : ∀ b < n, h b = h' b) :
    filed h n = filed h' n := by
  induction n with
  | zero => rfl
  | succ n ih =>
    rw [filed_succ, filed_succ, ih fun b hb => heq b (Nat.lt_succ_of_lt hb),
      heq n (Nat.lt_succ_self n)]

omit [DecidableEq α] in
theorem filed_empty (n : Nat) : filed (fun _ => ([] : List α)) n = [] := by
  induction n with
  | zero => rfl
  | succ n ih => rw [filed_succ, ih, List.append_nil]

omit [DecidableEq α] in
/-- One more entry in one bucket is one more entry in the table. -/
theorem filed_insertTail (h : Nat → List α) {n b : Nat} (a : α) (hb : b < n) :
    filed (insertTail h b a) n ~ a :: filed h n := by
  induction n with
  | zero => exact absurd hb (Nat.not_lt_zero b)
  | succ n ih =>
    rw [filed_succ, filed_succ]
    rcases Nat.lt_or_ge b n with hlt | hge
    · have hn : insertTail h b a n = h n := Function.update_of_ne (Nat.ne_of_gt hlt) _ _
      rw [hn]
      exact (ih hlt).append_right (h n)
    · obtain rfl : b = n := by omega
      have hlow : filed (insertTail h b a) b = filed h b :=
        filed_congr fun c hc => Function.update_of_ne (Nat.ne_of_lt hc) _ _
      have hat : insertTail h b a b = h b ++ [a] := Function.update_self _ _ _
      rw [hlow, hat, ← List.append_assoc]
      exact List.perm_append_singleton a (filed h b ++ h b)

/-- An entry off its chain is out of the table, and nothing else is. -/
theorem filed_delete (h : Nat → List α) (n : Nat) (a : α) :
    filed (delete h a) n = (filed h n).filter (· ≠ a) := by
  induction n with
  | zero => rfl
  | succ n ih => rw [filed_succ, filed_succ, ih, List.filter_append]; rfl

/-- An entry that is on no chain is not missed. -/
theorem filed_delete_of_not_mem {h : Nat → List α} {n : Nat} {a : α} (ha : a ∉ filed h n) :
    filed (delete h a) n = filed h n := by
  rw [filed_delete, List.filter_eq_self]
  intro c hc
  exact decide_eq_true fun hca => ha (hca ▸ hc)

/-- An entry of a list without duplicates is put in front of the rest. -/
theorem perm_cons_filter {l : List α} {a : α} (hnd : l.Nodup) (ha : a ∈ l) :
    l ~ a :: l.filter (· ≠ a) := by
  have herase : l.filter (· ≠ a) = l.erase a := by
    rw [hnd.erase_eq_filter]
    refine List.filter_congr fun c _ => ?_
    simp only [ne_eq, decide_not]
    rfl
  rw [herase]
  exact List.perm_cons_erase ha

/-- A filed entry of a table without duplicates is put in front of the rest. -/
theorem filed_perm_delete {h : Nat → List α} {n : Nat} {a : α} (hnd : (filed h n).Nodup)
    (ha : a ∈ filed h n) : filed h n ~ a :: filed (delete h a) n := by
  rw [filed_delete]
  exact perm_cons_filter hnd ha

/-! ## 3. Searching -/

omit [DecidableEq α] in
/-- A search of the table is a search of the only bucket that may answer. -/
theorem find?_filed {h : Nat → List α} {n k : Nat} {p : α → Bool} (hk : k < n)
    (honly : ∀ b < n, ∀ a ∈ h b, p a = true → b = k) :
    (filed h n).find? p = (h k).find? p := by
  have hnone : ∀ m ≤ n, m ≤ k → (filed h m).find? p = none := by
    intro m hm hmk
    rw [List.find?_eq_none]
    intro a ha hpa
    obtain ⟨b, hb, hab⟩ := mem_filed.mp ha
    have hbk := honly b (by omega) a hab hpa
    omega
  induction n with
  | zero => exact absurd hk (Nat.not_lt_zero k)
  | succ n ih =>
    rw [filed_succ, List.find?_append]
    rcases Nat.lt_or_ge k n with hlt | hge
    · have hlast : (h n).find? p = none := by
        rw [List.find?_eq_none]
        intro a ha hpa
        exact Nat.ne_of_gt hlt (honly n (Nat.lt_succ_self n) a ha hpa)
      rw [ih hlt (fun b hb => honly b (Nat.lt_succ_of_lt hb))
        (fun m hm => hnone m (Nat.le_succ_of_le hm)), hlast, Option.or_none]
    · obtain rfl : k = n := by omega
      rw [hnone k (Nat.le_succ k) (Nat.le_refl k), Option.none_or]

end Buckets
