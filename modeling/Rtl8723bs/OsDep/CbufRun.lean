/-
# Runs of the circular buffer

Each step of either thread keeps what the buffer holds in front of what was popped: together they are
what was pushed.  The one step that does not is a push into a buffer that filled up with the read
index at zero, and such a call goes on where it should fail.
-/
import Rtl8723bs.OsDep.Cbuf

namespace Rtl8723bs

namespace Cbuf

variable {α : Type}

open Ring

/-! ## 1. Indices -/

namespace RtwCbuf

variable {cbuf : RtwCbuf α}

/-- The read index and the write index, and what lies between them. -/
abbrev r (cbuf : RtwCbuf α) : Nat := cbuf.read.toNat

abbrev w (cbuf : RtwCbuf α) : Nat := cbuf.write.toNat

abbrev n (cbuf : RtwCbuf α) : Nat := cbuf.size.toNat

def contents (cbuf : RtwCbuf α) : List α := held cbuf.n cbuf.bufs cbuf.r cbuf.w

/-- The indices are indices. -/
structure Within (cbuf : RtwCbuf α) : Prop where
  two : 2 ≤ cbuf.n
  read : cbuf.r < cbuf.n
  write : cbuf.w < cbuf.n

theorem empty_iff : cbuf.empty = true ↔ cbuf.r = cbuf.w := by
  simp only [empty, beq_iff_eq, r, w, ← UInt32.toNat_inj]
  exact eq_comm

theorem toNat_succ_mod {i size : UInt32} (h : i.toNat < size.toNat) :
    ((i + 1) % size).toNat = next size.toNat i.toNat := by
  have hsize := size.toNat_lt
  have hfit : (i.toNat + 1) % 2 ^ 32 = i.toNat + 1 := Nat.mod_eq_of_lt (by omega)
  rw [UInt32.toNat_mod, UInt32.toNat_add, UInt32.toNat_one, hfit, next_eq_mod h]

/-- `rtw_cbuf_full` sees one free cell, but not where the read index is zero. -/
theorem full_iff (h : cbuf.Within) : cbuf.full = true ↔ next cbuf.n cbuf.w = cbuf.r ∧ cbuf.r ≠ 0 := by
  have hsize := cbuf.size.toNat_lt
  have hread := h.read
  have hwrite := h.write
  simp only [n, r, w] at hread hwrite ⊢
  simp only [full, beq_iff_eq, ← UInt32.toNat_inj, UInt32.toNat_sub, UInt32.toNat_one, next]
  split <;> omega

theorem w_advanceWrite (h : cbuf.Within) : cbuf.advanceWrite.w = next cbuf.n cbuf.w :=
  toNat_succ_mod h.write

theorem r_advanceRead (h : cbuf.Within) : cbuf.advanceRead.r = next cbuf.n cbuf.r :=
  toNat_succ_mod h.read

theorem Within.advanceWrite (h : cbuf.Within) : cbuf.advanceWrite.Within where
  two := h.two
  read := h.read
  write := by rw [w_advanceWrite h]; exact next_lt h.write

theorem Within.advanceRead (h : cbuf.Within) : cbuf.advanceRead.Within where
  two := h.two
  read := by rw [r_advanceRead h]; exact next_lt h.read
  write := h.write

theorem Within.store (h : cbuf.Within) (buf : α) : (cbuf.store buf).Within := ⟨h.two, h.read, h.write⟩

/-! ## 2. Contents -/

theorem contents_store (h : cbuf.Within) (buf : α) : (cbuf.store buf).contents = cbuf.contents :=
  held_update h.read h.write buf

theorem contents_advanceWrite (h : cbuf.Within) (hfree : next cbuf.n cbuf.w ≠ cbuf.r) :
    cbuf.advanceWrite.contents = cbuf.contents ++ [cbuf.bufs cbuf.w] := by
  have hheld := held_next_write (m := cbuf.bufs) h.read h.write hfree
  rw [← w_advanceWrite h] at hheld
  exact hheld

theorem contents_advanceRead (h : cbuf.Within) (hne : cbuf.r ≠ cbuf.w) :
    cbuf.contents = cbuf.load :: cbuf.advanceRead.contents := by
  have hheld := held_next_read (m := cbuf.bufs) h.read h.write hne
  rw [← r_advanceRead h] at hheld
  exact hheld

end RtwCbuf

open RtwCbuf

namespace Sys

variable {s s' : Sys α} {a : Act α}

/-! ## 3. The invariant -/

/-- What the pushing thread has seen or done holds until it is done. -/
def PushReady (cbuf : RtwCbuf α) : Pushing α → Prop
  | .idle => True
  | .store _ => next cbuf.n cbuf.w ≠ cbuf.r
  | .advance buf => next cbuf.n cbuf.w ≠ cbuf.r ∧ cbuf.bufs cbuf.w = buf

/-- What the popping thread has seen or done holds until it is done. -/
def PopReady (cbuf : RtwCbuf α) : Popping α → Prop
  | .idle => True
  | .load => cbuf.r ≠ cbuf.w
  | .advance buf => cbuf.r ≠ cbuf.w ∧ cbuf.load = buf

/-- What was pushed is what was popped and what the buffer holds. -/
structure Good (s : Sys α) : Prop where
  within : s.cbuf.Within
  pushed : s.pushed = s.popped ++ s.cbuf.contents
  pushing : PushReady s.cbuf s.pushing
  popping : PopReady s.cbuf s.popping

theorem good_start (bufs : Nat → α) {size : UInt32} (h : 2 ≤ size.toNat) : (start bufs size).Good where
  within := ⟨h, Nat.lt_of_lt_of_le Nat.two_pos h, Nat.lt_of_lt_of_le Nat.two_pos h⟩
  pushed := rfl
  pushing := trivial
  popping := trivial

theorem Good.stored_eq (h : s.Good) : s.stored = dist s.cbuf.n s.cbuf.r s.cbuf.w := by
  have hlen : s.cbuf.contents.length = dist s.cbuf.n s.cbuf.r s.cbuf.w := length_held
  rw [stored, h.pushed, List.length_append, hlen]
  omega

theorem Good.inOrder (h : s.Good) : s.InOrder := by
  refine ⟨⟨s.cbuf.contents, h.pushed.symm⟩, ?_⟩
  rw [h.stored_eq, dist_eq_zero h.within.read]
  exact empty_iff

/-- The buffer is full where one cell is free. -/
theorem Good.stored_full (h : s.Good) :
    s.stored = s.cbuf.n - 1 ↔ next s.cbuf.n s.cbuf.w = s.cbuf.r := by
  rw [h.stored_eq, dist_full h.within.read h.within.write]

/-- **The one call that goes wrong** is the one that finds the read index at zero. -/
theorem Good.failsFull_iff (h : s.Good) : s.FailsFull a ↔ ¬ s.FilledAtZero a := by
  cases a with
  | push buf =>
    have hwrite := h.within.write
    have htwo := h.within.two
    simp only [FailsFull, FilledAtZero, h.stored_full, full_iff h.within, ← UInt32.toNat_inj,
      UInt32.toNat_zero]
    simp only [next, n, r, w] at hwrite htwo ⊢
    split <;> omega
  | pushOn => simp [FailsFull, FilledAtZero]
  | pop => simp [FailsFull, FilledAtZero]
  | popOn => simp [FailsFull, FilledAtZero]

/-! ## 4. Steps -/

theorem Good.beginPush (h : s.Good) (buf : α) (hclear : ¬ s.FilledAtZero (.push buf)) :
    (s.beginPush buf).Good := by
  unfold Sys.beginPush
  split
  · exact h
  · rename_i hfull
    have hfails := h.failsFull_iff.mpr hclear
    rw [FailsFull, h.stored_full] at hfails
    exact ⟨h.within, h.pushed, mt hfails.mpr hfull, h.popping⟩

theorem Good.beginPop (h : s.Good) : s.beginPop.Good := by
  unfold Sys.beginPop
  split
  · exact h
  · rename_i hempty
    exact ⟨h.within, h.pushed, h.pushing, mt empty_iff.mpr hempty⟩

/-- The popping thread does not see what is stored behind all values. -/
theorem PopReady.store {cbuf : RtwCbuf α} {p : Popping α} (h : PopReady cbuf p) (buf : α) :
    PopReady (cbuf.store buf) p := by
  cases p with
  | idle => exact h
  | load => exact h
  | advance x => exact ⟨h.1, (Function.update_of_ne h.1 _ _).trans h.2⟩

/-- It finds a value still when there is one more. -/
theorem PopReady.advanceWrite {cbuf : RtwCbuf α} {p : Popping α} (hin : cbuf.Within)
    (hfree : next cbuf.n cbuf.w ≠ cbuf.r) (h : PopReady cbuf p) : PopReady cbuf.advanceWrite p := by
  have hne : cbuf.advanceWrite.r ≠ cbuf.advanceWrite.w := by
    rw [w_advanceWrite hin]
    exact hfree.symm
  cases p with
  | idle => exact h
  | load => exact hne
  | advance x => exact ⟨hne, h.2⟩

/-- The pushing thread has a cell still when there is one value less. -/
theorem PushReady.advanceRead {cbuf : RtwCbuf α} {p : Pushing α} (hin : cbuf.Within)
    (hne : cbuf.r ≠ cbuf.w) (h : PushReady cbuf p) : PushReady cbuf.advanceRead p := by
  have hread := hin.read
  have hwrite := hin.write
  have hfree : next cbuf.n cbuf.w ≠ next cbuf.n cbuf.r := by
    simp only [next]
    split <;> split <;> omega
  rw [← r_advanceRead hin] at hfree
  cases p with
  | idle => exact h
  | store x => exact hfree
  | advance x => exact ⟨hfree, h.2⟩

theorem Good.pushOn (h : s.Good) (hs : s.pushOn = some s') : s'.Good := by
  have hready := h.pushing
  cases hp : s.pushing with
  | idle => simp [Sys.pushOn, hp] at hs
  | store buf =>
    rw [hp] at hready
    simp only [Sys.pushOn, hp, Option.some.injEq] at hs
    subst hs
    refine ⟨h.within.store buf, ?_, ⟨hready, Function.update_self _ _ _⟩, h.popping.store buf⟩
    rw [contents_store h.within]
    exact h.pushed
  | advance buf =>
    rw [hp] at hready
    simp only [Sys.pushOn, hp, Option.some.injEq] at hs
    subst hs
    refine ⟨h.within.advanceWrite, ?_, trivial, h.popping.advanceWrite h.within hready.1⟩
    rw [contents_advanceWrite h.within hready.1, hready.2, ← List.append_assoc, ← h.pushed]

theorem Good.popOn (h : s.Good) (hs : s.popOn = some s') : s'.Good := by
  have hready := h.popping
  cases hp : s.popping with
  | idle => simp [Sys.popOn, hp] at hs
  | load =>
    rw [hp] at hready
    simp only [Sys.popOn, hp, Option.some.injEq] at hs
    subst hs
    exact ⟨h.within, h.pushed, h.pushing, hready, rfl⟩
  | advance buf =>
    rw [hp] at hready
    simp only [Sys.popOn, hp, Option.some.injEq] at hs
    subst hs
    refine ⟨h.within.advanceRead, ?_, h.pushing.advanceRead h.within hready.1, trivial⟩
    rw [h.pushed, contents_advanceRead h.within hready.1, hready.2, List.append_assoc]
    rfl

/-- A step that does not find the buffer filled up at zero keeps everything. -/
theorem Good.step (h : s.Good) (hclear : ¬ s.FilledAtZero a) (hs : s.step a = some s') :
    s'.Good := by
  cases a with
  | push buf =>
    simp only [Sys.step] at hs
    split at hs
    · cases hs
      exact h.beginPush buf hclear
    · cases hs
  | pushOn => exact h.pushOn hs
  | pop =>
    simp only [Sys.step] at hs
    split at hs
    · cases hs
      exact h.beginPop
    · cases hs
  | popOn => exact h.popOn hs

/-! ## 5. Runs -/

theorem Good.boundedFifo_iff (h : s.Good) (as : List (Act α)) :
    s.BoundedFifo as ↔ s.NeverFilledAtZero as := by
  induction as generalizing s with
  | nil => exact ⟨fun _ => trivial, fun _ => h.inOrder⟩
  | cons a as ih =>
    constructor
    · rintro ⟨-, hsteps⟩ s' hs
      obtain ⟨hfails, hrest⟩ := hsteps s' hs
      have hclear := h.failsFull_iff.mp hfails
      exact ⟨hclear, (ih (h.step hclear hs)).mp hrest⟩
    · intro hsteps
      refine ⟨h.inOrder, fun s' hs => ?_⟩
      obtain ⟨hclear, hrest⟩ := hsteps s' hs
      exact ⟨h.failsFull_iff.mpr hclear, (ih (h.step hclear hs)).mpr hrest⟩

end Sys

/-- **The buffer is a bounded queue**, in whatever order the threads take their steps, in exactly the
runs in which no call of `rtw_cbuf_push` finds it filled up with the read index at zero. -/
theorem cbuf_fifo_iff (bufs : Nat → α) (size : UInt32) (h : 2 ≤ size.toNat) (as : List (Act α)) :
    (Sys.start bufs size).BoundedFifo as ↔ (Sys.start bufs size).NeverFilledAtZero as :=
  (Sys.good_start bufs h).boundedFifo_iff as

theorem cbuf_fifo_three :
    (Sys.start (fun _ => 0) 3).BoundedFifo [.push 7, .pushOn, .pop, .pushOn, .pop, .popOn] ↔
      (Sys.start (fun _ => 0) 3).NeverFilledAtZero
        [.push 7, .pushOn, .pop, .pushOn, .pop, .popOn] :=
  cbuf_fifo_iff _ 3 (by decide) _

/-- Two values are pushed into a buffer of two, both with success, and then it is empty. -/
theorem second_push_empties :
    (∃ s, (Sys.start (fun _ => 0) 2).run [.push 7, .pushOn, .pushOn, .push 8, .pushOn, .pushOn] =
      some s ∧ s.pushed = [7, 8] ∧ s.popped = [] ∧ s.cbuf.empty = true) ∧
    ¬ (Sys.start (fun _ => 0) 2).BoundedFifo
      [.push 7, .pushOn, .pushOn, .push 8, .pushOn, .pushOn] := by
  refine ⟨⟨_, rfl, rfl, rfl, rfl⟩, fun h => ?_⟩
  have hfourth := ((h.2 _ rfl).2.2 _ rfl).2.2 _ rfl |>.2.2 _ rfl
  exact absurd (hfourth.1.mpr rfl) (by decide)

end Cbuf

end Rtl8723bs
