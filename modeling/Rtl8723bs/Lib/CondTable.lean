/-
# Tables with conditional parts

A table is a list of rows, and the reader of a table has no stack: two flags and a condition that is
pending are all it knows.  A row holds something to write, or it is one of four marks: a condition's
first half, its second half (only here is it tested), an otherwise, an end.

What a table is meant to be is a list of entries and choices, each choice with arms and perhaps an
otherwise (`Item`).  `emitted_flatten` says that the reader does what is meant: of each choice it
writes the first arm whose condition holds, or the otherwise, and it is back where it began after
every choice.  Choices do not nest, neither in what is meant nor in what the reader can tell.
-/
import Mathlib.Data.List.Basic

namespace CondTable

variable {W P Q : Type}

/-! ## 1. The reader -/

inductive Row (W P Q : Type) where
  | entry (w : W)
  | pend (p : P)
  | confirm (q : Q)
  | otherwise
  | done
deriving DecidableEq, Repr

/-- Entries are written; some arm of the choice has been taken; the pending condition. -/
structure Reader (P : Type) where
  matched : Bool
  skipped : Bool
  pending : P
deriving DecidableEq, Repr

/-- Where no choice is open. -/
def Reader.Idle (r : Reader P) : Prop := r.matched = true ∧ r.skipped = false

variable (test : P → Q → Bool)

/-- What a row does to the reader. -/
def Reader.step (r : Reader P) : Row W P Q → Reader P
  | .entry _ => r
  | .pend p => { r with pending := p }
  | .confirm q =>
    if r.skipped then { r with matched := false }
    else { r with matched := test r.pending q, skipped := test r.pending q }
  | .otherwise => { r with matched := !r.skipped }
  | .done => { r with matched := true, skipped := false }

/-- What a row has written. -/
def Reader.out (r : Reader P) : Row W P Q → List W
  | .entry w => if r.matched then [w] else []
  | _ => []

/-- The reader after a table. -/
def Reader.after (r : Reader P) (rows : List (Row W P Q)) : Reader P :=
  rows.foldl (Reader.step test) r

/-- What is written of a table. -/
def emitted (r : Reader P) : List (Row W P Q) → List W
  | [] => []
  | row :: rows => r.out row ++ emitted (r.step test row) rows

/-! ## 2. What is meant -/

structure Arm (W P Q : Type) where
  p : P
  q : Q
  body : List W
deriving DecidableEq, Repr

inductive Item (W P Q : Type) where
  | entry (w : W)
  | choice (arms : List (Arm W P Q)) (other : Option (List W))
deriving DecidableEq, Repr

def Arm.rows (a : Arm W P Q) : List (Row W P Q) :=
  .pend a.p :: .confirm a.q :: a.body.map Row.entry

/-- An otherwise, if there is one. -/
def otherRows : Option (List W) → List (Row W P Q)
  | none => []
  | some body => .otherwise :: body.map Row.entry

def Item.rows : Item W P Q → List (Row W P Q)
  | .entry w => [.entry w]
  | .choice arms other => (arms.flatMap Arm.rows ++ otherRows other) ++ [.done]

def flatten (items : List (Item W P Q)) : List (Row W P Q) := items.flatMap Item.rows

/-- The first arm whose condition holds, or the otherwise. -/
def chosen (other : Option (List W)) : List (Arm W P Q) → List W
  | [] => other.getD []
  | a :: arms => if test a.p a.q then a.body else chosen other arms

def Item.meaning : Item W P Q → List W
  | .entry w => [w]
  | .choice arms other => chosen test other arms

/-! ## 3. The reader does what is meant -/

variable {test}

theorem emitted_append (rows rows' : List (Row W P Q)) (r : Reader P) :
    emitted test r (rows ++ rows') = emitted test r rows ++ emitted test (r.after test rows) rows' := by
  induction rows generalizing r with
  | nil => rfl
  | cons row rows ih => simp only [List.cons_append, emitted, ih, List.append_assoc, Reader.after,
      List.foldl_cons]

theorem after_append (rows rows' : List (Row W P Q)) (r : Reader P) :
    r.after test (rows ++ rows') = (r.after test rows).after test rows' :=
  List.foldl_append

/-- Entries do not change the reader. -/
theorem after_entries (body : List W) (r : Reader P) :
    r.after test (body.map (Row.entry : W → Row W P Q)) = r := by
  induction body generalizing r with
  | nil => rfl
  | cons w body ih => exact ih r

theorem emitted_entries (body : List W) (r : Reader P) :
    emitted test r (body.map (Row.entry : W → Row W P Q)) = if r.matched then body else [] := by
  induction body with
  | nil => simp only [List.map_nil, emitted, ite_self]
  | cons w body ih =>
    simp only [List.map_cons, emitted, Reader.step, ih, Reader.out]
    split <;> rfl

/-- One arm: it is written where its condition holds and no arm was taken before it. -/
theorem emitted_arm (a : Arm W P Q) (r : Reader P) :
    emitted test r a.rows = if !r.skipped && test a.p a.q then a.body else [] := by
  obtain ⟨matched, skipped, pending⟩ := r
  simp only [Arm.rows, emitted, Reader.out, List.nil_append, emitted_entries, Reader.step]
  cases skipped <;> simp

theorem after_arm (a : Arm W P Q) (r : Reader P) :
    (r.after test a.rows).skipped = (r.skipped || test a.p a.q) := by
  obtain ⟨matched, skipped, pending⟩ := r
  have hrows : Reader.after test ⟨matched, skipped, pending⟩ a.rows
      = Reader.step test ⟨matched, skipped, a.p⟩ (.confirm a.q : Row W P Q) := by
    rw [Arm.rows]
    exact after_entries a.body _
  rw [hrows]
  cases skipped <;> rfl

/-- An otherwise, where some arm was taken and where none was. -/
theorem emitted_other (other : Option (List W)) (r : Reader P) :
    emitted test r (otherRows other : List (Row W P Q))
      = if r.skipped then [] else other.getD [] := by
  cases other with
  | none => cases r.skipped <;> rfl
  | some body =>
    simp only [otherRows, emitted, Reader.out, List.nil_append, Reader.step, emitted_entries,
      Option.getD_some]
    cases r.skipped <;> rfl

/-- What arms and an otherwise write; none of them where an arm was taken before. -/
theorem emitted_arms (arms : List (Arm W P Q)) (other : Option (List W)) (r : Reader P) :
    emitted test r (arms.flatMap Arm.rows ++ otherRows other)
      = if r.skipped then [] else chosen test other arms := by
  induction arms generalizing r with
  | nil => exact emitted_other other r
  | cons a arms ih =>
    have hrest := ih (r.after test a.rows)
    rw [after_arm] at hrest
    rw [List.flatMap_cons, List.append_assoc, emitted_append, hrest, emitted_arm, chosen]
    cases r.skipped <;> cases test a.p a.q <;> simp

/-- **One item**, read from where no choice is open: what is meant is written, and no choice is open
after it. -/
theorem emitted_item (i : Item W P Q) {r : Reader P} (hidle : r.Idle) :
    emitted test r i.rows = i.meaning test ∧ (r.after test i.rows).Idle := by
  obtain ⟨hmatched, hskipped⟩ := hidle
  cases i with
  | entry w =>
    refine ⟨?_, hmatched, hskipped⟩
    simp only [Item.rows, emitted, Reader.out, hmatched, if_true, List.append_nil, Item.meaning]
  | choice arms other =>
    constructor
    · rw [Item.rows, emitted_append, emitted_arms, hskipped, if_neg Bool.false_ne_true]
      exact List.append_nil _
    · rw [Item.rows, after_append]
      exact ⟨rfl, rfl⟩

/-- **The reader of a table does what the table means.** -/
theorem emitted_flatten (items : List (Item W P Q)) {r : Reader P} (hidle : r.Idle) :
    emitted test r (flatten items) = items.flatMap (Item.meaning test) := by
  induction items generalizing r with
  | nil => rfl
  | cons i items ih =>
    obtain ⟨hout, hidle'⟩ := emitted_item i hidle
    rw [flatten, List.flatMap_cons, emitted_append, hout, List.flatMap_cons]
    exact congrArg _ (ih hidle')

end CondTable
