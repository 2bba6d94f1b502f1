/-
# Registers

A word of four bytes, as the driver reads it from a buffer and as it stands in the registers after it
has been written.
-/
import Mathlib.Data.List.Basic

namespace Rtl8723bs

/-- `le32_to_cpu` of four bytes. -/
def le32ToCpu (b : Nat → UInt8) : BitVec 32 :=
  (b 3).toBitVec ++ (b 2).toBitVec ++ (b 1).toBitVec ++ (b 0).toBitVec

/-- `rtw_write32`. -/
def rtwWrite32 (reg : Nat → UInt8) (addr : Nat) (w : BitVec 32) : Nat → UInt8 := fun a =>
  if addr ≤ a ∧ a < addr + 4 then UInt8.ofBitVec (w.extractLsb' (8 * (a - addr)) 8) else reg a

theorem ofBitVec_le32ToCpu (b : Nat → UInt8) {k : Nat} (hk : k < 4) :
    UInt8.ofBitVec ((le32ToCpu b).extractLsb' (8 * k) 8) = b k := by
  apply UInt8.eq_of_toBitVec_eq
  apply BitVec.eq_of_getLsbD_eq
  intro i hi
  have hcases : k = 0 ∨ k = 1 ∨ k = 2 ∨ k = 3 := by omega
  rcases hcases with rfl | rfl | rfl | rfl <;>
    simp [le32ToCpu, hi] <;> grind

/-- The four bytes that were written. -/
theorem rtwWrite32_at (reg : Nat → UInt8) (addr : Nat) (b : Nat → UInt8) {k : Nat} (hk : k < 4) :
    rtwWrite32 reg addr (le32ToCpu b) (addr + k) = b k := by
  rw [rtwWrite32, if_pos ⟨Nat.le_add_right addr k, Nat.add_lt_add_left hk addr⟩,
    Nat.add_sub_cancel_left, ofBitVec_le32ToCpu b hk]

theorem rtwWrite32_of_ne (reg : Nat → UInt8) (addr : Nat) (w : BitVec 32) {a : Nat}
    (ha : a < addr ∨ addr + 4 ≤ a) : rtwWrite32 reg addr w a = reg a :=
  if_neg (by omega)

end Rtl8723bs
