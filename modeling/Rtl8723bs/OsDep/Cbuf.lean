/-
# The circular buffer of pointers

`rtw_cbuf` hands pointers from one thread that pushes to one that pops, without a lock.  A call is
not one step here: the pushing thread looks whether the buffer is full, stores the pointer, and
moves the write index; the popping thread looks whether it is empty, loads the pointer, and moves
the read index; and the steps of the two come in any order.

`cbuf_fifo_iff` says in which runs the buffer is a queue.  `rtw_cbuf_full` compares the write index
with the read index less one, which is no index at all where the read index is zero: a buffer
that fills up there is not seen to be full.
-/
import Rtl8723bs.Lib.Ring

namespace Rtl8723bs

namespace Cbuf

variable {α : Type}

/-! ## 1. The functions -/

/-- `struct rtw_cbuf`, of pointers `α`. -/
structure RtwCbuf (α : Type) where
  write : UInt32
  read : UInt32
  size : UInt32
  bufs : Nat → α

namespace RtwCbuf

variable (cbuf : RtwCbuf α)

/-- `rtw_cbuf_full`. -/
def full : Bool := cbuf.write == cbuf.read - 1

/-- `rtw_cbuf_empty`. -/
def empty : Bool := cbuf.write == cbuf.read

/-- `cbuf->bufs[cbuf->write] = buf`. -/
def store (buf : α) : RtwCbuf α :=
  { cbuf with bufs := Function.update cbuf.bufs cbuf.write.toNat buf }

/-- `cbuf->write = (cbuf->write + 1) % cbuf->size`. -/
def advanceWrite : RtwCbuf α := { cbuf with write := (cbuf.write + 1) % cbuf.size }

/-- `cbuf->bufs[cbuf->read]`. -/
def load : α := cbuf.bufs cbuf.read.toNat

/-- `cbuf->read = (cbuf->read + 1) % cbuf->size`. -/
def advanceRead : RtwCbuf α := { cbuf with read := (cbuf.read + 1) % cbuf.size }

/-- `rtw_cbuf_push`, and whether it is `_SUCCESS`. -/
def push (buf : α) : Bool × RtwCbuf α :=
  if cbuf.full then (false, cbuf) else (true, (cbuf.store buf).advanceWrite)

/-- `rtw_cbuf_pop`; `none` is the `NULL` of an empty buffer. -/
def pop : Option α × RtwCbuf α :=
  if cbuf.empty then (none, cbuf) else (some cbuf.load, cbuf.advanceRead)

/-- `rtw_cbuf_alloc`, in memory that holds anything. -/
def alloc (bufs : Nat → α) (size : UInt32) : RtwCbuf α := ⟨0, 0, size, bufs⟩

end RtwCbuf

/-! ## 2. Two threads -/

/-- Where the pushing thread is. -/
inductive Pushing (α : Type)
  | idle
  | store (buf : α)
  | advance (buf : α)

/-- Where the popping thread is. -/
inductive Popping (α : Type)
  | idle
  | load
  | advance (buf : α)

/-- The buffer, the two threads, and what was pushed with success and what was popped, each in the
order in which the calls returned. -/
structure Sys (α : Type) where
  cbuf : RtwCbuf α
  pushing : Pushing α
  popping : Popping α
  pushed : List α
  popped : List α

/-- A thread calls, or goes on. -/
inductive Act (α : Type)
  | push (buf : α)
  | pushOn
  | pop
  | popOn

namespace Sys

variable (s : Sys α)

/-- As `rtw_cbuf_alloc` leaves it. -/
def start (bufs : Nat → α) (size : UInt32) : Sys α := ⟨.alloc bufs size, .idle, .idle, [], []⟩

/-- `rtw_cbuf_push` up to the look at the indices. -/
def beginPush (buf : α) : Sys α := if s.cbuf.full then s else { s with pushing := .store buf }

/-- `rtw_cbuf_pop` up to the look at the indices. -/
def beginPop : Sys α := if s.cbuf.empty then s else { s with popping := .load }

/-- The next step of the pushing thread. -/
def pushOn : Option (Sys α) :=
  match s.pushing with
  | .idle => none
  | .store buf => some { s with cbuf := s.cbuf.store buf, pushing := .advance buf }
  | .advance buf =>
    some { s with cbuf := s.cbuf.advanceWrite, pushing := .idle, pushed := s.pushed ++ [buf] }

/-- The next step of the popping thread. -/
def popOn : Option (Sys α) :=
  match s.popping with
  | .idle => none
  | .load => some { s with popping := .advance s.cbuf.load }
  | .advance buf =>
    some { s with cbuf := s.cbuf.advanceRead, popping := .idle, popped := s.popped ++ [buf] }

/-- A step of the one thread or the other; `none` where the thread cannot take it. -/
def step : Act α → Option (Sys α)
  | .push buf =>
    match s.pushing with
    | .idle => some (s.beginPush buf)
    | _ => none
  | .pushOn => s.pushOn
  | .pop =>
    match s.popping with
    | .idle => some s.beginPop
    | _ => none
  | .popOn => s.popOn

/-- The state after some steps. -/
def run (s : Sys α) : List (Act α) → Option (Sys α)
  | [] => some s
  | a :: as => (s.step a).bind fun s' => s'.run as

/-- A call of `rtw_cbuf_push` with nothing between its steps. -/
theorem run_push (buf : α) (h : s.pushing = .idle) :
    s.run (if s.cbuf.full then [.push buf] else [.push buf, .pushOn, .pushOn]) =
      some { s with
        cbuf := (s.cbuf.push buf).2
        pushed := if (s.cbuf.push buf).1 then s.pushed ++ [buf] else s.pushed } := by
  obtain ⟨cbuf, pushing, popping, pushed, popped⟩ := s
  subst h
  by_cases hfull : cbuf.full <;>
    simp [run, step, beginPush, pushOn, RtwCbuf.push, hfull]

/-- A call of `rtw_cbuf_pop` with nothing between its steps. -/
theorem run_pop (h : s.popping = .idle) :
    s.run (if s.cbuf.empty then [.pop] else [.pop, .popOn, .popOn]) =
      some { s with cbuf := s.cbuf.pop.2, popped := s.popped ++ s.cbuf.pop.1.toList } := by
  obtain ⟨cbuf, pushing, popping, pushed, popped⟩ := s
  subst h
  by_cases hempty : cbuf.empty <;>
    simp [run, step, beginPop, popOn, RtwCbuf.pop, hempty]

/-! ## 3. What a queue does -/

/-- How many values are stored: pushed, and not popped. -/
def stored : Nat := s.pushed.length - s.popped.length

/-- What was popped was pushed, in this order, and `rtw_cbuf_empty` says whether that is all. -/
def InOrder : Prop := s.popped <+: s.pushed ∧ (s.cbuf.empty = true ↔ s.stored = 0)

/-- A call of `rtw_cbuf_push` fails exactly if `size - 1` values are stored. -/
def FailsFull : Act α → Prop
  | .push _ => s.cbuf.full = true ↔ s.stored = s.cbuf.size.toNat - 1
  | _ => True

/-- In every state of a run the values are in order, and every call made in it fails or succeeds as
it should. -/
def BoundedFifo (s : Sys α) : List (Act α) → Prop
  | [] => s.InOrder
  | a :: as => s.InOrder ∧ ∀ s', s.step a = some s' → s.FailsFull a ∧ BoundedFifo s' as

/-- `rtw_cbuf_push` is called on a buffer that filled up with the read index at zero. -/
def FilledAtZero : Act α → Prop
  | .push _ => s.cbuf.read = 0 ∧ s.cbuf.write.toNat = s.cbuf.size.toNat - 1
  | _ => False

/-- No call in a run finds the buffer filled up so. -/
def NeverFilledAtZero (s : Sys α) : List (Act α) → Prop
  | [] => True
  | a :: as => ∀ s', s.step a = some s' → ¬ s.FilledAtZero a ∧ NeverFilledAtZero s' as

end Sys

end Cbuf

end Rtl8723bs
