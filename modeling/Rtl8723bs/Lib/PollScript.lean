/-
# Scripts of register writes and polls

A script is a list of commands for a device with registers of one byte: change some bits of a
register, wait until some bits of a register have a value, let time pass.  `Runs` is its meaning
without any limit: a poll is repeated for as long as the value does not show, and the number of
polls is counted.  A script that waits for something that never comes has no run.

The device is arbitrary, reading may change it, and time may.  What can still be said of a register
is what follows from its own behaviour: `Kept` is a register that holds what is written into it, and
`Runs.kept` says what a script leaves in it, whatever the other registers do.
-/
import Mathlib.Data.List.Basic

namespace PollScript

variable {A D : Type}

/-! ## 1. Devices and scripts -/

/-- What a read returns and leaves, what a write leaves, and what time does. -/
structure Device (A D : Type) where
  read : A → D → UInt8 × D
  write : A → UInt8 → D → D
  wait : Nat → D → D

inductive Cmd (A : Type) where
  | write (a : A) (mask value : UInt8)
  | poll (a : A) (mask value : UInt8)
  | wait (us : Nat)
deriving DecidableEq, Repr

/-- A byte with the bits of a mask changed. -/
def masked (mask value old : UInt8) : UInt8 := old &&& ~~~mask ||| value &&& mask

/-- Read, change the bits, write back. -/
def Device.modify (dev : Device A D) (a : A) (mask value : UInt8) (d : D) : D :=
  dev.write a (masked mask value (dev.read a d).1) (dev.read a d).2

/-- The value polled for shows. -/
def Device.Shows (dev : Device A D) (a : A) (mask value : UInt8) (d : D) : Prop :=
  (dev.read a d).1 &&& mask = value &&& mask

instance (dev : Device A D) (a : A) (mask value : UInt8) (d : D) :
    Decidable (dev.Shows a mask value d) :=
  inferInstanceAs (Decidable ((dev.read a d).1 &&& mask = value &&& mask))

/-- The runs of a script, with the polls they take; a poll that misses is followed by a pause. -/
inductive Runs (dev : Device A D) (pause : Nat) : List (Cmd A) → D → Nat → D → Prop
  | nil (d : D) : Runs dev pause [] d 0 d
  | write {a : A} {mask value : UInt8} {cs : List (Cmd A)} {d d' : D} {n : Nat} :
      Runs dev pause cs (dev.modify a mask value d) n d' →
      Runs dev pause (.write a mask value :: cs) d n d'
  | wait {us : Nat} {cs : List (Cmd A)} {d d' : D} {n : Nat} :
      Runs dev pause cs (dev.wait us d) n d' → Runs dev pause (.wait us :: cs) d n d'
  | hit {a : A} {mask value : UInt8} {cs : List (Cmd A)} {d d' : D} {n : Nat} :
      dev.Shows a mask value d → Runs dev pause cs (dev.read a d).2 n d' →
      Runs dev pause (.poll a mask value :: cs) d (n + 1) d'
  | miss {a : A} {mask value : UInt8} {cs : List (Cmd A)} {d d' : D} {n : Nat} :
      ¬ dev.Shows a mask value d →
      Runs dev pause (.poll a mask value :: cs) (dev.wait pause (dev.read a d).2) n d' →
      Runs dev pause (.poll a mask value :: cs) d (n + 1) d'

variable {dev : Device A D} {pause : Nat}

/-! ## 2. Runs, command by command -/

theorem runs_nil_iff {d d' : D} {n : Nat} : Runs dev pause [] d n d' ↔ n = 0 ∧ d' = d := by
  constructor
  · rintro ⟨⟩
    exact ⟨rfl, rfl⟩
  · rintro ⟨rfl, rfl⟩
    exact .nil d'

theorem runs_write_iff {a : A} {mask value : UInt8} {cs : List (Cmd A)} {d d' : D} {n : Nat} :
    Runs dev pause (.write a mask value :: cs) d n d'
      ↔ Runs dev pause cs (dev.modify a mask value d) n d' := by
  refine ⟨fun h => ?_, .write⟩
  cases h with
  | write h => exact h

theorem runs_wait_iff {us : Nat} {cs : List (Cmd A)} {d d' : D} {n : Nat} :
    Runs dev pause (.wait us :: cs) d n d' ↔ Runs dev pause cs (dev.wait us d) n d' := by
  refine ⟨fun h => ?_, .wait⟩
  cases h with
  | wait h => exact h

theorem runs_hit_iff {a : A} {mask value : UInt8} {cs : List (Cmd A)} {d d' : D} {n : Nat}
    (hshow : dev.Shows a mask value d) : Runs dev pause (.poll a mask value :: cs) d n d'
      ↔ ∃ m, n = m + 1 ∧ Runs dev pause cs (dev.read a d).2 m d' := by
  constructor
  · intro h
    cases h with
    | hit _ h => exact ⟨_, rfl, h⟩
    | miss hno _ => exact absurd hshow hno
  · rintro ⟨m, rfl, h⟩
    exact .hit hshow h

theorem runs_miss_iff {a : A} {mask value : UInt8} {cs : List (Cmd A)} {d d' : D} {n : Nat}
    (hno : ¬ dev.Shows a mask value d) : Runs dev pause (.poll a mask value :: cs) d n d'
      ↔ ∃ m, n = m + 1 ∧
          Runs dev pause (.poll a mask value :: cs) (dev.wait pause (dev.read a d).2) m d' := by
  constructor
  · intro h
    cases h with
    | hit hshow _ => exact absurd hshow hno
    | miss _ h => exact ⟨_, rfl, h⟩
  · rintro ⟨m, rfl, h⟩
    exact .miss hno h

/-- **A script has one run at most.** -/
theorem Runs.unique {cs : List (Cmd A)} {d d₁ d₂ : D} {n₁ n₂ : Nat}
    (h₁ : Runs dev pause cs d n₁ d₁) (h₂ : Runs dev pause cs d n₂ d₂) : n₁ = n₂ ∧ d₁ = d₂ := by
  induction h₁ generalizing n₂ with
  | nil d =>
    obtain ⟨rfl, rfl⟩ := runs_nil_iff.mp h₂
    exact ⟨rfl, rfl⟩
  | write _ ih => exact ih (runs_write_iff.mp h₂)
  | wait _ ih => exact ih (runs_wait_iff.mp h₂)
  | hit hshow _ ih =>
    obtain ⟨m, rfl, h⟩ := (runs_hit_iff hshow).mp h₂
    exact ⟨congrArg (· + 1) (ih h).1, (ih h).2⟩
  | miss hno _ ih =>
    obtain ⟨m, rfl, h⟩ := (runs_miss_iff hno).mp h₂
    exact ⟨congrArg (· + 1) (ih h).1, (ih h).2⟩

/-- **Scripts one after the other**: their polls add up. -/
theorem runs_append_iff {cs es : List (Cmd A)} {d d' : D} {n : Nat} :
    Runs dev pause (cs ++ es) d n d'
      ↔ ∃ i d₁ j, Runs dev pause cs d i d₁ ∧ Runs dev pause es d₁ j d' ∧ n = i + j := by
  constructor
  · intro h
    generalize hall : cs ++ es = all at h
    induction h generalizing cs with
    | nil d =>
      obtain ⟨rfl, rfl⟩ := List.append_eq_nil_iff.mp hall
      exact ⟨0, d, 0, .nil d, .nil d, rfl⟩
    | write h ih =>
      rcases List.append_eq_cons_iff.mp hall with ⟨rfl, rfl⟩ | ⟨cs, rfl, htail⟩
      · exact ⟨0, _, _, .nil _, .write h, (Nat.zero_add _).symm⟩
      · obtain ⟨i, d₁, j, h₁, h₂, hn⟩ := ih htail.symm
        exact ⟨i, d₁, j, .write h₁, h₂, hn⟩
    | wait h ih =>
      rcases List.append_eq_cons_iff.mp hall with ⟨rfl, rfl⟩ | ⟨cs, rfl, htail⟩
      · exact ⟨0, _, _, .nil _, .wait h, (Nat.zero_add _).symm⟩
      · obtain ⟨i, d₁, j, h₁, h₂, hn⟩ := ih htail.symm
        exact ⟨i, d₁, j, .wait h₁, h₂, hn⟩
    | hit hshow h ih =>
      rcases List.append_eq_cons_iff.mp hall with ⟨rfl, rfl⟩ | ⟨cs, rfl, htail⟩
      · exact ⟨0, _, _, .nil _, .hit hshow h, (Nat.zero_add _).symm⟩
      · obtain ⟨i, d₁, j, h₁, h₂, rfl⟩ := ih htail.symm
        exact ⟨i + 1, d₁, j, .hit hshow h₁, h₂, Nat.add_right_comm i j 1⟩
    | miss hno h ih =>
      rcases List.append_eq_cons_iff.mp hall with ⟨rfl, rfl⟩ | ⟨cs, rfl, htail⟩
      · exact ⟨0, _, _, .nil _, .miss hno h, (Nat.zero_add _).symm⟩
      · obtain ⟨i, d₁, j, h₁, h₂, rfl⟩ := @ih (.poll _ _ _ :: cs) (by rw [htail]; rfl)
        exact ⟨i + 1, d₁, j, .miss hno h₁, h₂, Nat.add_right_comm i j 1⟩
  · rintro ⟨i, d₁, j, h₁, h₂, rfl⟩
    induction h₁ with
    | nil d => rwa [Nat.zero_add]
    | write _ ih => exact .write (ih h₂)
    | wait _ ih => exact .wait (ih h₂)
    | hit hshow _ ih =>
      rw [Nat.add_right_comm]
      exact .hit hshow (ih h₂)
    | miss hno _ ih =>
      rw [Nat.add_right_comm]
      exact .miss hno (ih h₂)

/-! ## 3. A register that holds what is written -/

/-- A register that holds what is written into it: `reg` is what it holds, and nothing else changes
that, no read, no time and no write into another register. -/
structure Kept (dev : Device A D) (a : A) (reg : D → UInt8) : Prop where
  read : ∀ d, (dev.read a d).1 = reg d
  afterRead : ∀ b d, reg (dev.read b d).2 = reg d
  wait : ∀ us d, reg (dev.wait us d) = reg d
  write : ∀ x d, reg (dev.write a x d) = x
  other : ∀ b x d, b ≠ a → reg (dev.write b x d) = reg d

variable [DecidableEq A]

/-- What a script does to a byte in a register. -/
def effect (a : A) : List (Cmd A) → UInt8 → UInt8
  | [], x => x
  | .write b mask value :: cs, x => effect a cs (if b = a then masked mask value x else x)
  | .poll _ _ _ :: cs, x => effect a cs x
  | .wait _ :: cs, x => effect a cs x

/-- **What a script leaves in a register that holds what is written**, whatever the others do. -/
theorem Runs.kept {a : A} {reg : D → UInt8} (hkept : Kept dev a reg) {cs : List (Cmd A)}
    {d d' : D} {n : Nat} (h : Runs dev pause cs d n d') : reg d' = effect a cs (reg d) := by
  induction h with
  | nil d => rfl
  | @write b mask value cs d d' n _ ih =>
    rw [ih, effect]
    congr 1
    by_cases hb : b = a
    · rw [if_pos hb, hb, Device.modify, hkept.write, hkept.read]
    · rw [if_neg hb, Device.modify, hkept.other _ _ _ hb, hkept.afterRead]
  | wait _ ih => rw [ih, hkept.wait, effect]
  | hit _ _ ih => rw [ih, hkept.afterRead, effect]
  | miss _ _ ih => rw [ih, hkept.wait, hkept.afterRead, effect]

/-- What a script waits for in such a register it has been given before. -/
theorem Runs.polled {a : A} {reg : D → UInt8} (hkept : Kept dev a reg) {cs es : List (Cmd A)}
    {mask value : UInt8} {d d' : D} {n : Nat}
    (h : Runs dev pause (cs ++ .poll a mask value :: es) d n d') :
    effect a cs (reg d) &&& mask = value &&& mask := by
  obtain ⟨i, d₁, j, hbefore, hrest, -⟩ := runs_append_iff.mp h
  rw [← hbefore.kept hkept]
  clear hbefore h
  generalize hall : Cmd.poll a mask value :: es = all at hrest
  induction hrest with
  | nil _ => exact absurd hall (List.cons_ne_nil _ _)
  | write _ _ => exact absurd (List.cons.inj hall).1 (by simp)
  | wait _ _ => exact absurd (List.cons.inj hall).1 (by simp)
  | hit hshow _ _ =>
    obtain ⟨hcmd, -⟩ := List.cons.inj hall
    obtain ⟨rfl, rfl, rfl⟩ := Cmd.poll.inj hcmd
    rwa [Device.Shows, hkept.read] at hshow
  | miss _ _ ih =>
    have hsame := ih hall
    obtain ⟨hcmd, -⟩ := List.cons.inj hall
    obtain ⟨rfl, rfl, rfl⟩ := Cmd.poll.inj hcmd
    rwa [hkept.wait, hkept.afterRead] at hsame

/-- The value that the last write to a bit gives it, and none where no write does. -/
def lastBit (a : A) (i : Nat) : List (Cmd A) → Option Bool
  | [] => none
  | .write b mask value :: cs =>
    (lastBit a i cs).or
      (if b = a ∧ mask.toBitVec.getLsbD i then some (value.toBitVec.getLsbD i) else none)
  | .poll _ _ _ :: cs => lastBit a i cs
  | .wait _ :: cs => lastBit a i cs

theorem getLsbD_masked (mask value x : UInt8) {i : Nat} (hi : i < 8) :
    (masked mask value x).toBitVec.getLsbD i
      = if mask.toBitVec.getLsbD i then value.toBitVec.getLsbD i else x.toBitVec.getLsbD i := by
  simp only [masked, UInt8.toBitVec_or, UInt8.toBitVec_and, UInt8.toBitVec_not, BitVec.getLsbD_or,
    BitVec.getLsbD_and, BitVec.getLsbD_not, hi, decide_true, Bool.true_and]
  cases mask.toBitVec.getLsbD i <;> simp

/-- **Each bit has the value of the last write to it**, and the value it had where there is none. -/
theorem getLsbD_effect (a : A) (cs : List (Cmd A)) {i : Nat} (hi : i < 8) (x : UInt8) :
    (effect a cs x).toBitVec.getLsbD i = (lastBit a i cs).getD (x.toBitVec.getLsbD i) := by
  induction cs generalizing x with
  | nil => rfl
  | cons c cs ih =>
    cases c with
    | write b mask value =>
      rw [effect, ih, lastBit]
      cases lastBit a i cs with
      | some v => rfl
      | none =>
        by_cases hb : b = a
        · simp only [hb, if_true, true_and, getLsbD_masked _ _ _ hi, Option.getD_none,
            Option.none_or]
          split <;> rfl
        · simp only [hb, if_false, false_and, Option.getD_none, Option.none_or]
    | poll b mask value => exact ih x
    | wait us => exact ih x

/-- The bits of a register that a script writes. -/
def written (a : A) : List (Cmd A) → UInt8
  | [] => 0
  | .write b mask _ :: cs => (if b = a then mask else 0) ||| written a cs
  | .poll _ _ _ :: cs => written a cs
  | .wait _ :: cs => written a cs

theorem lastBit_isSome (a : A) (i : Nat) (cs : List (Cmd A)) :
    (lastBit a i cs).isSome = (written a cs).toBitVec.getLsbD i := by
  induction cs with
  | nil => simp [lastBit, written]
  | cons c cs ih =>
    cases c with
    | write b mask value =>
      rw [lastBit, Option.isSome_or, ih, written, UInt8.toBitVec_or, BitVec.getLsbD_or,
        Bool.or_comm]
      congr 1
      by_cases hb : b = a
      · simp only [hb, true_and, if_true]
        cases mask.toBitVec.getLsbD i <;> rfl
      · simp [hb]
    | poll b mask value => exact ih
    | wait us => exact ih

/-- The bits that a script writes do not depend on what was there. -/
theorem effect_eq_of_written {a : A} {cs : List (Cmd A)} {x y : UInt8}
    (h : x &&& ~~~written a cs = y &&& ~~~written a cs) : effect a cs x = effect a cs y := by
  apply UInt8.eq_of_toBitVec_eq
  apply BitVec.eq_of_getLsbD_eq
  intro i hi
  rw [getLsbD_effect a cs hi, getLsbD_effect a cs hi]
  have hbit := congrArg (fun z : UInt8 => z.toBitVec.getLsbD i) h
  simp only [UInt8.toBitVec_and, UInt8.toBitVec_not, BitVec.getLsbD_and, BitVec.getLsbD_not, hi,
    decide_true, Bool.true_and, ← lastBit_isSome] at hbit
  cases hlast : lastBit a i cs with
  | some v => rfl
  | none => simpa [hlast] using hbit

/-- **A script undoes another** in the registers where it writes all the bits the other does. -/
theorem effect_of_covered {a : A} {cs es : List (Cmd A)} (x : UInt8)
    (h : written a cs &&& ~~~written a es = 0) :
    effect a es (effect a cs x) = effect a es x := by
  apply effect_eq_of_written
  apply UInt8.eq_of_toBitVec_eq
  apply BitVec.eq_of_getLsbD_eq
  intro i hi
  have hbit := congrArg (fun z : UInt8 => z.toBitVec.getLsbD i) h
  simp only [UInt8.toBitVec_and, UInt8.toBitVec_not, BitVec.getLsbD_and, BitVec.getLsbD_not, hi,
    decide_true, Bool.true_and, ← lastBit_isSome, UInt8.toBitVec_zero, BitVec.getLsbD_zero]
    at hbit ⊢
  rw [getLsbD_effect a cs hi]
  cases hcs : lastBit a i cs with
  | none => rfl
  | some v =>
    rw [hcs] at hbit
    simp only [Option.isSome_some, Bool.true_and] at hbit
    rw [hbit, Bool.and_false, Bool.and_false]

theorem written_eq_zero {a : A} {cs : List (Cmd A)}
    (h : ∀ mask value, Cmd.write a mask value ∉ cs) : written a cs = 0 := by
  induction cs with
  | nil => rfl
  | cons c cs ih =>
    have hrest := ih fun mask value hmem => h mask value (List.mem_cons_of_mem c hmem)
    cases c with
    | write b mask value =>
      by_cases hb : b = a
      · exact absurd (hb ▸ List.mem_cons_self) (h mask value)
      · rw [written, if_neg hb, hrest]
        rfl
    | poll b mask value => exact hrest
    | wait us => exact hrest

end PollScript
