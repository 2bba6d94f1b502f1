/-
# AES with a key of 128 bits

The cipher of the standard, in its own terms: bytes are the polynomials of degree below eight over
the field of two elements, modulo `x^8 + x^4 + x^3 + x + 1`; a block is sixteen bytes, four columns
of four; a round substitutes each byte, shifts the rows, mixes the columns and adds a round key.  The
substitution is a parameter; the standard's is the inverse in the field, under an affine map.

`encrypt_bijective` says that it is a cipher, for any substitution that can be undone.  `mixColumns`
is undone by doing it three times more (`mixColumns_four`), so no second set of coefficients is
needed for it.
-/
import Rtl8723bs.Lib.Ccm
import Mathlib.Logic.Function.Iterate

namespace Aes

open Ccm (Block xor byte byte_lt)

/-! ## 1. Bytes as polynomials -/

/-- A polynomial of degree below eight times `x`. -/
def timesX (n : Nat) : Nat := n * 2 ^^^ n / 128 * 0x11b

/-- A byte times `x`. -/
def xtime (b : UInt8) : UInt8 := UInt8.ofNat (timesX b.toNat)

/-- The product of two bytes, by Horner's rule in the first. -/
def mul (a b : UInt8) : UInt8 :=
  UInt8.ofNat ((List.range 8).foldr (fun i n => timesX n ^^^ (a.toNat >>> i) % 2 * b.toNat) 0)

/-- The power 254: the inverse of a byte that is not zero, and zero of zero. -/
def inv (a : UInt8) : UInt8 :=
  ((List.range 7).foldl (fun p _ => (mul p.1 p.1, mul p.2 (mul p.1 p.1))) (a, 1)).2

/-- A byte with its bits turned left. -/
def turn (b : UInt8) (k : Nat) : UInt8 :=
  UInt8.ofNat (b.toNat <<< k) ||| UInt8.ofNat (b.toNat >>> (8 - k))

/-- The substitution of the standard: the inverse, under an affine map. -/
def subByte (a : UInt8) : UInt8 :=
  let b := inv a
  b ^^^ turn b 1 ^^^ turn b 2 ^^^ turn b 3 ^^^ turn b 4 ^^^ 0x63

/-! ## 2. The cipher -/

section Cipher
variable (S : UInt8 → UInt8)

def subBytes (b : Block) : Block := fun i => S (b i)

/-- Row `r` moves `r` columns to the left. -/
def shiftRows (b : Block) : Block := fun i => byte b (i.val + 4 * (i.val % 4))

/-- The byte `k` below a byte in its column, over the end to the top. -/
def below (b : Block) (i k : Nat) : UInt8 := byte b (4 * (i / 4) + (i + k) % 4)

/-- Each column times `3x^3 + x^2 + x + 2`, modulo `x^4 + 1`. -/
def mixColumns (b : Block) : Block := fun i =>
  mul 2 (below b i.val 0) ^^^ mul 3 (below b i.val 1) ^^^ below b i.val 2 ^^^ below b i.val 3

/-- The constant of a round key. -/
def rcon (n : Nat) : UInt8 := xtime^[n] 1

/-- What the last column of a round key adds to the first of the next. -/
def keyWord (n : Nat) (k : Block) (r : Nat) : UInt8 :=
  S (byte k (12 + (r + 1) % 4)) ^^^ (if r = 0 then rcon n else 0)

/-- The round key after a round key: each column is added to the columns before it. -/
def nextKey (n : Nat) (k : Block) : Block := fun i =>
  (List.range (i.val / 4 + 1)).foldl (fun x c => x ^^^ byte k (4 * c + i.val % 4))
    (keyWord S n k (i.val % 4))

def roundKey (key : Block) : Nat → Block
  | 0 => key
  | n + 1 => nextKey S n (roundKey key n)

def round (k s : Block) : Block := xor (mixColumns (shiftRows (subBytes S s))) k

def lastRound (k s : Block) : Block := xor (shiftRows (subBytes S s)) k

/-- The block after the first key and some of the rounds. -/
def rounds (key : Block) : Nat → Block → Block
  | 0, m => xor m (roundKey S key 0)
  | n + 1, m => round S (roundKey S key (n + 1)) (rounds key n m)

def encrypt (key m : Block) : Block := lastRound S (roundKey S key 10) (rounds S key 9 m)

end Cipher

/-! ## 3. The arithmetic of bytes -/

/-- What holds of the numbers below 256 holds of bytes. -/
theorem forall_byte {P : UInt8 → Prop} (h : ∀ i : Fin 256, P (UInt8.ofNat i.val)) (b : UInt8) :
    P b := by
  have hb := h ⟨b.toNat, b.toNat_lt⟩
  simpa using hb

theorem xtime_toBitVec (b : UInt8) : (xtime b).toBitVec
    = b.toBitVec <<< 1 ^^^ (if b.toBitVec.msb then 0x1b#8 else 0) :=
  forall_byte (P := fun b => (xtime b).toBitVec
    = b.toBitVec <<< 1 ^^^ (if b.toBitVec.msb then 0x1b#8 else 0)) (by decide +kernel) b

theorem xor_cancel_left (a b : UInt8) : a ^^^ (a ^^^ b) = b := by
  rw [← UInt8.xor_assoc, UInt8.xor_self, UInt8.zero_xor]

theorem xor_left_comm (a b c : UInt8) : a ^^^ (b ^^^ c) = b ^^^ (a ^^^ c) := by
  rw [← UInt8.xor_assoc, UInt8.xor_comm a b, UInt8.xor_assoc]

theorem xtime_xor (a b : UInt8) : xtime (a ^^^ b) = xtime a ^^^ xtime b := by
  apply UInt8.toBitVec_inj.mp
  simp only [UInt8.toBitVec_xor, xtime_toBitVec, BitVec.shiftLeft_xor_distrib, BitVec.msb_xor]
  have hcancel : ∀ x y c : BitVec 8, x ^^^ c ^^^ (y ^^^ c) = x ^^^ y := fun x y c => by
    rw [BitVec.xor_comm y c, ← BitVec.xor_assoc, BitVec.xor_assoc x c c, BitVec.xor_self,
      BitVec.xor_zero]
  cases a.toBitVec.msb <;> cases b.toBitVec.msb
  · simp
  · simp; ac_rfl
  · simp; ac_rfl
  · simpa using (hcancel _ _ _).symm

theorem mul_two (b : UInt8) : mul 2 b = xtime b :=
  forall_byte (P := fun b => mul 2 b = xtime b) (by decide +kernel) b

theorem mul_three (b : UInt8) : mul 3 b = xtime b ^^^ b :=
  forall_byte (P := fun b => mul 3 b = xtime b ^^^ b) (by decide +kernel) b

/-- A step of Horner's rule, in operations of `Nat` that the kernel computes at once. -/
def hornerNat (a b i n : Nat) : Nat :=
  Nat.xor (Nat.xor (Nat.mul n 2) (Nat.mul (Nat.div n 128) 0x11b))
    (Nat.mul (Nat.mod (Nat.shiftRight a i) 2) b)

/-- `mul` on numbers. -/
def mulNat (a b : Nat) : Nat :=
  Nat.mod (hornerNat a b 0 (hornerNat a b 1 (hornerNat a b 2 (hornerNat a b 3
    (hornerNat a b 4 (hornerNat a b 5 (hornerNat a b 6 (hornerNat a b 7 0)))))))) 256

theorem toNat_mul (a b : UInt8) : (mul a b).toNat = mulNat a.toNat b.toNat := rfl

/-- `inv` on numbers. -/
def invNat (a : Nat) : Nat :=
  ((List.range 7).foldl (fun p _ => (mulNat p.1 p.1, mulNat p.2 (mulNat p.1 p.1))) (a, 1)).2

theorem toNat_inv (a : UInt8) : (inv a).toNat = invNat a.toNat := by
  have hrun : ∀ (l : List Nat) (p : UInt8 × UInt8) (n : Nat × Nat), p.1.toNat = n.1 →
      p.2.toNat = n.2 →
      (l.foldl (fun p _ => (mul p.1 p.1, mul p.2 (mul p.1 p.1))) p).2.toNat
        = (l.foldl (fun p _ => (mulNat p.1 p.1, mulNat p.2 (mulNat p.1 p.1))) n).2 := by
    intro l
    induction l with
    | nil => exact fun _ _ _ h => h
    | cons i l ih =>
      intro p n h1 h2
      exact ih _ _ (by rw [toNat_mul, h1]) (by rw [toNat_mul, toNat_mul, h1, h2])
  exact hrun _ _ _ rfl rfl

/-! ## 4. The round keys, column by column -/

/-- The byte of a round key at a place: its column, and what comes before it. -/
theorem byte_nextKey (S : UInt8 → UInt8) (n : Nat) (k : Block) {c r : Nat} (hc : c < 4)
    (hr : r < 4) : byte (nextKey S n k) (4 * c + r)
      = (List.range (c + 1)).foldl (fun x c => x ^^^ byte k (4 * c + r)) (keyWord S n k r) := by
  have hcol : (4 * c + r) / 4 = c := by omega
  have hrow : (4 * c + r) % 4 = r := by omega
  rw [byte_lt _ (by omega), nextKey]
  simp only [hcol, hrow]

theorem byte_nextKey_first (S : UInt8 → UInt8) (n : Nat) (k : Block) {r : Nat} (hr : r < 4) :
    byte (nextKey S n k) (4 * 0 + r) = keyWord S n k r ^^^ byte k (4 * 0 + r) :=
  byte_nextKey S n k (by decide) hr

theorem byte_nextKey_next (S : UInt8 → UInt8) (n : Nat) (k : Block) {c r : Nat} (hc : c + 1 < 4)
    (hr : r < 4) : byte (nextKey S n k) (4 * (c + 1) + r)
      = byte (nextKey S n k) (4 * c + r) ^^^ byte k (4 * (c + 1) + r) := by
  rw [byte_nextKey S n k hc hr, byte_nextKey S n k (by omega) hr, List.range_succ,
    List.foldl_append]
  rfl

/-! ## 5. It is a cipher -/

/-- The column of a byte, from that byte on. -/
theorem below_mixColumns (b : Block) (i k : Nat) (hi : i < 16) : below (mixColumns b) i k
    = xtime (below b i k) ^^^ (xtime (below b i (k + 1)) ^^^ below b i (k + 1))
      ^^^ below b i (k + 2) ^^^ below b i (k + 3) := by
  have hlt : 4 * (i / 4) + (i + k) % 4 < 16 := by omega
  rw [below, byte_lt _ hlt]
  simp only [mixColumns, mul_two, mul_three]
  have hcol : ∀ j, below b (4 * (i / 4) + (i + k) % 4) j = below b i (k + j) := fun j => by
    unfold below
    congr 1
    omega
  simp only [hcol, Nat.add_zero]

theorem below_wrap (b : Block) (i k : Nat) : below b i (k + 4) = below b i k := by
  unfold below
  congr 1
  omega

theorem below_zero (b : Block) (i : Fin 16) : below b i.val 0 = b i := by
  have hlt : 4 * (i.val / 4) + (i.val + 0) % 4 = i.val := by omega
  rw [below, hlt, byte_lt _ i.isLt]

/-- Twice mixed, a byte is left with itself and the byte opposite: all else comes in pairs. -/
theorem below_mixColumns_two (b : Block) (i k : Nat) (hi : i < 16) :
    below (mixColumns (mixColumns b)) i k
      = xtime (xtime (below b i k)) ^^^ below b i k ^^^ xtime (xtime (below b i (k + 2))) := by
  simp only [below_mixColumns _ _ _ hi, Nat.add_assoc, Nat.reduceAdd, xtime_xor]
  rw [below_wrap b i k, show k + 5 = k + 1 + 4 from rfl, below_wrap b i (k + 1),
    show k + 6 = k + 2 + 4 from rfl, below_wrap b i (k + 2)]
  generalize below b i k = a0, below b i (k + 1) = a1, below b i (k + 2) = a2,
    below b i (k + 3) = a3
  generalize xtime (xtime a0) = c0, xtime (xtime a1) = c1, xtime (xtime a2) = c2
  generalize xtime a0 = b0, xtime a1 = b1, xtime a2 = b2, xtime a3 = b3
  simp only [UInt8.xor_comm, xor_left_comm, xor_cancel_left, UInt8.xor_self, UInt8.xor_zero]

/-- **The columns mixed four times are as they were.** -/
theorem mixColumns_four (b : Block) :
    mixColumns (mixColumns (mixColumns (mixColumns b))) = b := by
  funext i
  rw [← below_zero (mixColumns _) i, below_mixColumns_two _ _ _ i.isLt,
    below_mixColumns_two _ _ _ i.isLt, below_mixColumns_two _ _ _ i.isLt, below_wrap b i.val 0, ← below_zero b i]
  simp only [xtime_xor]
  generalize below b i.val 0 = a0, below b i.val (0 + 2) = a2
  generalize xtime (xtime a0) = c0, xtime (xtime a2) = c2
  generalize xtime (xtime c0) = d0, xtime (xtime c2) = d2
  simp only [UInt8.xor_comm, xor_left_comm, xor_cancel_left, UInt8.xor_self, UInt8.xor_zero]

theorem mixColumns_bijective : Function.Bijective mixColumns :=
  Function.bijective_iff_has_inverse.mpr
    ⟨fun b => mixColumns (mixColumns (mixColumns b)), mixColumns_four, mixColumns_four⟩

theorem shiftRows_four (b : Block) : shiftRows (shiftRows (shiftRows (shiftRows b))) = b := by
  funext i
  simp only [shiftRows, byte]
  congr 1
  apply Fin.ext
  have hi := i.isLt
  simp only
  omega

theorem shiftRows_bijective : Function.Bijective shiftRows :=
  Function.bijective_iff_has_inverse.mpr
    ⟨fun b => shiftRows (shiftRows (shiftRows b)), shiftRows_four, shiftRows_four⟩

theorem xor_bijective (k : Block) : Function.Bijective fun b => xor b k := by
  have hxor : ∀ b, xor (xor b k) k = b := fun b => by
    funext i
    simp only [Ccm.xor, UInt8.xor_assoc, UInt8.xor_self, UInt8.xor_zero]
  exact Function.bijective_iff_has_inverse.mpr ⟨fun b => xor b k, hxor, hxor⟩

section Bijective
variable {S T : UInt8 → UInt8} (hST : Function.LeftInverse T S) (hTS : Function.RightInverse T S)
include hST hTS

theorem subBytes_bijective : Function.Bijective (subBytes S) :=
  Function.bijective_iff_has_inverse.mpr
    ⟨subBytes T, fun b => funext fun i => hST (b i), fun b => funext fun i => hTS (b i)⟩

theorem round_bijective (k : Block) : Function.Bijective (round S k) :=
  (xor_bijective k).comp
    (mixColumns_bijective.comp (shiftRows_bijective.comp (subBytes_bijective hST hTS)))

theorem rounds_bijective (key : Block) (n : Nat) : Function.Bijective (rounds S key n) := by
  induction n with
  | zero => exact xor_bijective _
  | succ n ih => exact (round_bijective hST hTS _).comp ih

/-- **It is a cipher**: under each key, each block is what exactly one block is encrypted to. -/
theorem encrypt_bijective (key : Block) : Function.Bijective (encrypt S key) :=
  ((xor_bijective _).comp (shiftRows_bijective.comp (subBytes_bijective hST hTS))).comp
    (rounds_bijective hST hTS key 9)

end Bijective

end Aes
