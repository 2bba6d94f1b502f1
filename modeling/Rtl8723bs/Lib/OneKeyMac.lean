/-
# OMAC1, over any block function

The blocks of a message are chained, and the last is masked before it goes through the block
function: by the double of the encryption of nothing where the message fills its last block, by the
double of that where the block is filled up with a one bit and zeros.

A block is also a polynomial over two elements, its first bit the coefficient of `x^127`; doubling
is the product by `x` modulo `x^128 + x^7 + x^2 + x + 1`.
-/
import Rtl8723bs.Lib.Ccm
import Mathlib.Algebra.Group.Nat.Defs

namespace OneKeyMac

open Ccm (Block xor byte byte_lt zeroBlock chain blocks blockAt)

/-! ## 1. Blocks as polynomials -/

/-- The coefficient of `x^k` in a block. -/
def coeff (b : Block) (k : Nat) : Bool := (byte b (15 - k / 8)).toBitVec.getLsbD (k % 8)

/-- The byte with these bits. -/
def ofBits (f : Nat → Bool) : UInt8 :=
  ⟨BitVec.ofNat 8 ((List.range 8).foldr (fun j n => 2 * n + (f j).toNat) 0)⟩

/-- The product by `x`: all coefficients move up, and `x^128` is `x^7 + x^2 + x + 1`. -/
def doubleCoeff (b : Block) (k : Nat) : Bool :=
  (decide (0 < k) && coeff b (k - 1)) ^^ (coeff b 127 && (0x87).testBit k)

def double (b : Block) : Block := fun i => ofBits fun j => doubleCoeff b (8 * (15 - i.val) + j)

/-! ## 2. The code -/

/-- Where the last block of a message begins. -/
def lastStart (msg : List UInt8) : Nat := 16 * ((msg.length - 1) / 16)

/-- The bytes of the last block, at most sixteen; none of a message of none. -/
def last (msg : List UInt8) : List UInt8 := msg.drop (lastStart msg)

/-- The last block, and the mask that goes with it. -/
def lastBlock (E : Block → Block) (msg : List UInt8) : Block :=
  if (last msg).length = 16 then xor (blockAt (last msg) 0) (double (E zeroBlock))
  else xor (blockAt (last msg ++ [0x80]) 0) (double (double (E zeroBlock)))

/-- The message code. -/
def mac (E : Block → Block) (msg : List UInt8) : Block :=
  E (xor (chain E zeroBlock (blocks (msg.take (lastStart msg)))) (lastBlock E msg))

theorem length_last_le (msg : List UInt8) : (last msg).length ≤ 16 := by
  rw [last, List.length_drop, lastStart]
  omega

theorem lastStart_add_length (msg : List UInt8) :
    lastStart msg + (last msg).length = msg.length := by
  rw [last, List.length_drop, lastStart]
  omega

theorem last_eq_nil_iff (msg : List UInt8) : (last msg).length = 0 ↔ msg.length = 0 := by
  rw [last, List.length_drop, lastStart]
  omega

/-! ## 3. Bits, and bytes made of them -/

theorem testBit_foldr (n : Nat) : ∀ (f : Nat → Bool) (j : Nat), j < n →
    ((List.range n).foldr (fun j n => 2 * n + (f j).toNat) 0).testBit j = f j := by
  induction n with
  | zero => exact fun _ j hj => absurd hj (Nat.not_lt_zero j)
  | succ n ih =>
    intro f j hj
    have hf := (f 0).toNat_lt
    rw [List.range_succ_eq_map, List.foldr_cons, List.foldr_map]
    cases j with
    | zero =>
      rw [Nat.testBit_zero, Nat.mul_add_mod, Nat.mod_eq_of_lt hf]
      cases f 0 <;> rfl
    | succ j =>
      rw [Nat.testBit_succ, Nat.mul_add_div (by decide), Nat.div_eq_of_lt hf]
      exact ih (fun j => f (j + 1)) j (by omega)

theorem getLsbD_ofBits (f : Nat → Bool) {j : Nat} (hj : j < 8) :
    (ofBits f).toBitVec.getLsbD j = f j := by
  rw [ofBits, BitVec.getLsbD_ofNat, testBit_foldr 8 f j hj, decide_eq_true hj, Bool.true_and]

theorem coeff_double (b : Block) {k : Nat} (hk : k < 128) :
    coeff (double b) k = doubleCoeff b k := by
  have hplace : 15 - k / 8 < 16 := by omega
  rw [coeff, byte_lt _ hplace, double, getLsbD_ofBits _ (Nat.mod_lt k (by decide))]
  congr 1
  simp only
  omega

/-- A block is its coefficients. -/
theorem ext_coeff {b c : Block} (h : ∀ k < 128, coeff b k = coeff c k) : b = c := by
  funext i
  apply UInt8.toBitVec_inj.mp
  apply BitVec.eq_of_getLsbD_eq
  intro j hj
  have hi := i.isLt
  have hk := h (8 * (15 - i.val) + j) (by omega)
  have hdiv : 15 - (8 * (15 - i.val) + j) / 8 = i.val := by omega
  have hmod : (8 * (15 - i.val) + j) % 8 = j := by omega
  simpa only [coeff, hdiv, hmod, byte_lt _ hi] using hk

end OneKeyMac
