/-
# CRC-32, bit by bit and by table

The checksum of IEEE 802.3 and IEEE 802.11, least significant bit first: the register starts
with all bits set, every byte is added to its low end and shifted out in eight steps, and the
complement of what is left is the checksum.

A shift is linear, so a byte can be shifted out at once: the entry of its remainder in a table of
256, and the rest of the register moved down (`byte_eq_table`).
-/
namespace Crc32

/-- The generator, its bits in reverse. -/
def poly : BitVec 32 := 0xedb88320#32

/-- One bit is shifted out. -/
def step (c : BitVec 32) : BitVec 32 := if c.getLsbD 0 then (c >>> 1) ^^^ poly else c >>> 1

def steps : Nat → BitVec 32 → BitVec 32
  | 0, c => c
  | k + 1, c => steps k (step c)

/-- One byte. -/
def byte (c : BitVec 32) (b : UInt8) : BitVec 32 := steps 8 (c ^^^ b.toBitVec.setWidth 32)

/-- The checksum of a byte string. -/
def crc32 (l : List UInt8) : BitVec 32 := ~~~ l.foldl byte 0xffffffff#32

/-! ## 1. Shifts are linear -/

theorem step_xor (a b : BitVec 32) : step (a ^^^ b) = step a ^^^ step b := by
  have hshift := BitVec.ushiftRight_xor_distrib a b 1
  have hcancel : ∀ x y : BitVec 32, (x ^^^ poly) ^^^ (y ^^^ poly) = x ^^^ y := by
    intro x y
    rw [BitVec.xor_comm y, BitVec.xor_assoc, ← BitVec.xor_assoc poly, BitVec.xor_self,
      BitVec.zero_xor]
  unfold step
  rw [BitVec.getLsbD_xor, hshift]
  cases a.getLsbD 0 <;> cases b.getLsbD 0
  · rfl
  · exact BitVec.xor_assoc _ _ _
  · simp only [Bool.xor_false, if_true, Bool.false_eq_true, if_false]
    rw [BitVec.xor_assoc, BitVec.xor_comm (b >>> 1), ← BitVec.xor_assoc]
  · exact (hcancel _ _).symm

theorem steps_xor (k : Nat) (a b : BitVec 32) : steps k (a ^^^ b) = steps k a ^^^ steps k b := by
  induction k generalizing a b with
  | zero => rfl
  | succ k ih => rw [steps, step_xor, ih, steps, steps]

/-- Zeros at the low end are shifted out without a trace. -/
theorem steps_of_low_zero (k : Nat) {c : BitVec 32} (h : ∀ i < k, c.getLsbD i = false) :
    steps k c = c >>> k := by
  induction k generalizing c with
  | zero => exact (BitVec.ushiftRight_zero c).symm
  | succ k ih =>
    have hstep : step c = c >>> 1 := by
      unfold step
      rw [h 0 (by omega)]
      rfl
    rw [steps, hstep, ih, ← BitVec.shiftRight_add, Nat.add_comm]
    intro i hi
    rw [BitVec.getLsbD_ushiftRight]
    exact h _ (by omega)

/-! ## 2. The table -/

/-- A register is its low byte and the rest. -/
theorem split_low (c : BitVec 32) : c = (c >>> 8 <<< 8) ^^^ (c.setWidth 8).setWidth 32 := by
  apply BitVec.eq_of_getLsbD_eq
  intro i hi
  simp only [BitVec.getLsbD_xor, BitVec.getLsbD_shiftLeft, BitVec.getLsbD_ushiftRight,
    BitVec.getLsbD_setWidth]
  by_cases h : i < 8
  · simp [h, hi]
  · have hback : 8 + (i - 8) = i := by omega
    simp [h, hi, hback]

/-- **A byte at a time**: with a table of the remainders of single bytes. -/
theorem byte_eq_table {t : UInt8 → BitVec 32}
    (ht : ∀ i : UInt8, t i = steps 8 (i.toBitVec.setWidth 32)) (c : BitVec 32) (b : UInt8) :
    byte c b = t ⟨(c ^^^ b.toBitVec.setWidth 32).setWidth 8⟩ ^^^ (c >>> 8) := by
  have hrest : (c ^^^ b.toBitVec.setWidth 32) >>> 8 = c >>> 8 := by
    apply BitVec.eq_of_getLsbD_eq
    intro i hi
    simp only [BitVec.getLsbD_ushiftRight, BitVec.getLsbD_xor, BitVec.getLsbD_setWidth]
    rw [BitVec.getLsbD_of_ge b.toBitVec (8 + i) (by omega), Bool.and_false, Bool.xor_false]
  have hhigh : steps 8 ((c >>> 8) <<< 8) = c >>> 8 := by
    rw [steps_of_low_zero]
    · apply BitVec.eq_of_getLsbD_eq
      intro i hi
      simp only [BitVec.getLsbD_ushiftRight, BitVec.getLsbD_shiftLeft, Nat.add_sub_cancel_left]
      by_cases h : 8 + i < 32
      · simp [h]
      · simp [h, BitVec.getLsbD_of_ge c (8 + i) (by omega)]
    · intro i hi
      simp [BitVec.getLsbD_shiftLeft, hi]
  unfold byte
  rw [split_low (c ^^^ b.toBitVec.setWidth 32), steps_xor, hrest, hhigh, ht, BitVec.xor_comm,
    ← hrest, ← split_low]

/-- The checksum by table. -/
theorem crc32_eq_table {t : UInt8 → BitVec 32}
    (ht : ∀ i : UInt8, t i = steps 8 (i.toBitVec.setWidth 32)) (l : List UInt8) :
    crc32 l = ~~~ l.foldl
      (fun (c : BitVec 32) b => t ⟨(c ^^^ b.toBitVec.setWidth 32).setWidth 8⟩ ^^^ (c >>> 8))
      0xffffffff#32 := by
  unfold crc32
  congr 1
  congr 1
  funext c b
  exact byte_eq_table ht c b

end Crc32
