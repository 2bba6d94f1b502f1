/-
# Mailboxes

A writer and a reader share some boxes, and a flag at each says that something in it waits to be
read.  The writer goes round the boxes and puts a message only into one that is empty; the reader
takes what it likes, as far as its policy lets it.

`Reach.perm` is about every reader: what was taken and what waits is what was put, each message as
often as it was put.  `Reach.prefix` is about the reader that goes round as the writer does: it takes
the messages in the order in which they were put, and it is behind by the number of boxes at most.
-/
import Mathlib.Data.List.Perm.Basic
import Mathlib.Data.List.Nodup
import Mathlib.Data.List.Range
import Mathlib.Logic.Function.Basic

namespace Mailboxes

open scoped List

variable {M : Type}

/-- The boxes with their flags, the box to write next, and what was put and taken so far. -/
structure State (M : Type) where
  next : Nat
  full : Nat → Bool
  box : Nat → M
  put : List M
  taken : List M

/-- All boxes are empty. -/
def State.start (box : Nat → M) : State M := ⟨0, fun _ => false, box, [], []⟩

/-- A message is put into the next box, or one is taken.  `may k i` says that the reader may take
from box `i` when it has taken `k` messages. -/
inductive Step (n : Nat) (may : Nat → Nat → Prop) : State M → State M → Prop
  | put {s : State M} (m : M) (hempty : s.full s.next = false) :
      Step n may s { s with
        next := (s.next + 1) % n
        full := Function.update s.full s.next true
        box := Function.update s.box s.next m
        put := s.put ++ [m] }
  | take {s : State M} (i : Nat) (hi : i < n) (hfull : s.full i = true)
      (hmay : may s.taken.length i) :
      Step n may s { s with
        full := Function.update s.full i false
        taken := s.taken ++ [s.box i] }

inductive Reach (n : Nat) (may : Nat → Nat → Prop) (box : Nat → M) : State M → Prop
  | start : Reach n may box (State.start box)
  | step {s s' : State M} : Reach n may box s → Step n may s s' → Reach n may box s'

variable {n : Nat} {may : Nat → Nat → Prop} {box : Nat → M} {s s' : State M}

/-! ## 1. Nothing is lost -/

/-- The boxes with something in them. -/
def State.waiting (s : State M) (n : Nat) : List Nat := (List.range n).filter s.full

/-- What waits to be read. -/
def State.held (s : State M) (n : Nat) : List M := (s.waiting n).map s.box

/-- Setting a flag that was clear adds one box. -/
theorem filter_update_perm {full : Nat → Bool} {i : Nat} (hi : i < n) (hclear : full i = false) :
    ((List.range n).filter (Function.update full i true)).Perm
      (i :: (List.range n).filter full) := by
  have hnot : i ∉ (List.range n).filter full := by
    rw [List.mem_filter, hclear]
    rintro ⟨-, h⟩
    exact Bool.false_ne_true h
  rw [List.perm_ext_iff_of_nodup (List.nodup_range.filter _)
    (List.nodup_cons.mpr ⟨hnot, List.nodup_range.filter _⟩)]
  intro j
  rw [List.mem_cons, List.mem_filter, List.mem_filter, List.mem_range]
  by_cases hj : j = i
  · subst hj
    simp [hi]
  · simp [hj]

theorem Step.next_lt (h : Step n may s s') (hn : 0 < n) (hlt : s.next < n) : s'.next < n := by
  cases h with
  | put m hempty => exact Nat.mod_lt _ hn
  | take i hi hfull hmay => exact hlt

theorem Step.perm (h : Step n may s s') (hlt : s.next < n)
    (hperm : (s.taken ++ s.held n).Perm s.put) : (s'.taken ++ s'.held n).Perm s'.put := by
  cases h with
  | put m hempty =>
    have hwaiting := filter_update_perm hlt hempty
    have hkeep : ((List.range n).filter s.full).map (Function.update s.box s.next m)
        = ((List.range n).filter s.full).map s.box := by
      refine List.map_congr_left fun i hi => Function.update_of_ne ?_ m s.box
      rintro rfl
      rw [List.mem_filter, hempty] at hi
      exact Bool.false_ne_true hi.2
    have hheld := hwaiting.map (Function.update s.box s.next m)
    rw [List.map_cons, Function.update_self, hkeep] at hheld
    calc s.taken ++ _
        ~ s.taken ++ m :: s.held n := hheld.append_left s.taken
      _ ~ m :: (s.taken ++ s.held n) := List.perm_middle
      _ ~ m :: s.put := hperm.cons m
      _ ~ s.put ++ [m] := (List.perm_append_singleton m s.put).symm
  | take i hi hfull hmay =>
    have hwaiting : (s.waiting n).Perm (i :: (List.range n).filter
        (Function.update s.full i false)) := by
      have h := filter_update_perm hi (Function.update_self i false s.full)
      rw [Function.update_idem, Function.update_eq_self_iff.mpr hfull.symm] at h
      exact h
    have hheld := hwaiting.map s.box
    rw [List.map_cons] at hheld
    have hall := (hheld.append_left s.taken).symm.trans hperm
    rw [List.append_cons] at hall
    exact hall

/-- **Nothing is lost and nothing is read twice**, whatever the reader takes. -/
theorem Reach.perm (h : Reach n may box s) (hn : 0 < n) :
    s.next < n ∧ (s.taken ++ s.held n) ~ s.put := by
  induction h with
  | start =>
    refine ⟨hn, ?_⟩
    have hnone : (State.start box).held n = [] := by
      simp only [State.held, State.waiting, State.start, List.filter_false, List.map_nil]
    rw [hnone]
    exact .refl _
  | step _ hstep ih => exact ⟨hstep.next_lt hn ih.1, hstep.perm ih.1 ih.2⟩

/-! ## 2. A reader that goes round -/

/-- The reader takes from the boxes in turn. -/
def inTurn (n : Nat) (k i : Nat) : Prop := i = k % n

/-- What is put and not yet taken stands in the boxes from the reader's to the writer's. -/
structure InTurn (n : Nat) (s : State M) : Prop where
  next_eq : s.next = s.put.length % n
  near : s.put.length ≤ s.taken.length + n
  taken_prefix : s.taken <+: s.put
  cells : ∀ k, s.taken.length ≤ k → k < s.put.length →
    s.full (k % n) = true ∧ s.put[k]? = some (s.box (k % n))
  flags : ∀ i < n, s.full i = true → ∃ k, s.taken.length ≤ k ∧ k < s.put.length ∧ k % n = i

/-- Less than a round apart is not the same box. -/
theorem mod_ne {a k : Nat} (h : a < k) (hk : k < a + n) : k % n ≠ a % n := by
  intro heq
  have hzero := Nat.sub_mod_eq_zero_of_mod_eq heq
  rw [Nat.mod_eq_of_lt (by omega)] at hzero
  omega

theorem InTurn.put (hin : InTurn n s) (hn : 0 < n) (m : M) (hempty : s.full s.next = false) :
    InTurn n { s with
      next := (s.next + 1) % n
      full := Function.update s.full s.next true
      box := Function.update s.box s.next m
      put := s.put ++ [m] } := by
  have hle := hin.taken_prefix.length_le
  have hother : ∀ k, s.taken.length ≤ k → k < s.put.length → k % n ≠ s.next := by
    intro k hk hlt heq
    have hfull := (hin.cells k hk hlt).1
    rw [heq, hempty] at hfull
    exact Bool.false_ne_true hfull
  have hroom : s.put.length < s.taken.length + n := by
    rcases Nat.lt_or_ge s.put.length (s.taken.length + n) with h | h
    · exact h
    · refine absurd ?_ (hother s.taken.length (Nat.le_refl _) (by omega))
      have hlen : s.put.length = s.taken.length + n := Nat.le_antisymm hin.near h
      rw [hin.next_eq, hlen, Nat.add_mod_right]
  refine ⟨?_, ?_, hin.taken_prefix.trans (List.prefix_append _ _), ?_, ?_⟩
  · simp only [hin.next_eq, List.length_append, List.length_singleton, Nat.mod_add_mod]
  · simp only [List.length_append, List.length_singleton]
    omega
  · intro k hk hlt
    simp only [List.length_append, List.length_singleton] at hlt
    by_cases hlast : k = s.put.length
    · subst hlast
      simp only [← hin.next_eq, Function.update_self, List.getElem?_concat_length, and_self]
    · have hlt' : k < s.put.length := by omega
      have hne := hother k hk hlt'
      obtain ⟨hfull, hbox⟩ := hin.cells k hk hlt'
      simp only [Function.update_of_ne hne, List.getElem?_append_left hlt']
      exact ⟨hfull, hbox⟩
  · intro i hi hfull
    simp only [List.length_append, List.length_singleton]
    by_cases hnext : i = s.next
    · exact ⟨s.put.length, hle, by omega, by rw [hnext, hin.next_eq]⟩
    · simp only [Function.update_of_ne hnext] at hfull
      obtain ⟨k, hk, hlt, hmod⟩ := hin.flags i hi hfull
      exact ⟨k, hk, by omega, hmod⟩

theorem InTurn.take (hin : InTurn n s) (hn : 0 < n) (hfull : s.full (s.taken.length % n) = true) :
    InTurn n { s with
      full := Function.update s.full (s.taken.length % n) false
      taken := s.taken ++ [s.box (s.taken.length % n)] } := by
  obtain ⟨j, hj, hjlt, -⟩ := hin.flags _ (Nat.mod_lt _ hn) hfull
  have hlt : s.taken.length < s.put.length := by omega
  have hnear := hin.near
  have hbox := (hin.cells s.taken.length (Nat.le_refl _) hlt).2
  refine ⟨hin.next_eq, ?_, ?_, ?_, ?_⟩
  · simp only [List.length_append, List.length_singleton]
    omega
  · obtain ⟨rest, hrest⟩ := hin.taken_prefix
    have hhead : rest[0]? = some (s.box (s.taken.length % n)) := by
      rw [← hbox, ← hrest, List.getElem?_append_right (Nat.le_refl _), Nat.sub_self]
    cases rest with
    | nil => exact absurd hhead.symm (Option.some_ne_none _)
    | cons m rest =>
      rw [List.getElem?_cons_zero, Option.some.injEq] at hhead
      exact ⟨rest, by rw [← hrest, ← hhead, ← List.append_cons]⟩
  · intro k hk hklt
    replace hklt : k < s.put.length := hklt
    simp only [List.length_append, List.length_singleton] at hk
    have hne := mod_ne (n := n) (by omega : s.taken.length < k) (by omega)
    simp only [Function.update_of_ne hne]
    exact hin.cells k (by omega) hklt
  · intro i hi hfull'
    have hne : i ≠ s.taken.length % n := by
      rintro rfl
      simp only [Function.update_self] at hfull'
      exact Bool.false_ne_true hfull'
    simp only [Function.update_of_ne hne] at hfull'
    obtain ⟨k, hk, hklt, hmod⟩ := hin.flags i hi hfull'
    simp only [List.length_append, List.length_singleton]
    have hkne : k ≠ s.taken.length := by
      rintro rfl
      exact hne hmod.symm
    exact ⟨k, by omega, hklt, hmod⟩

/-- **A reader that goes round takes the messages in their order**, and is behind by the number of
boxes at most. -/
theorem Reach.inTurn (h : Reach n (inTurn n) box s) (hn : 0 < n) : InTurn n s := by
  induction h with
  | start =>
    refine ⟨(Nat.zero_mod n).symm, Nat.zero_le _, List.prefix_rfl, fun k _ hk => ?_, ?_⟩
    · exact absurd hk (Nat.not_lt_zero k)
    · exact fun i _ hfull => absurd hfull Bool.false_ne_true
  | step _ hstep ih =>
    cases hstep with
    | put m hempty => exact ih.put hn m hempty
    | take i hi hfull hmay =>
      cases hmay
      exact ih.take hn hfull

end Mailboxes
