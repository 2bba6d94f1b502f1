/-
# CCM: counter mode with a CBC-MAC, over any block function

A message is authenticated by a chain of blocks, the first of which holds the flags, the nonce
and the length of the message, and then encrypted, tag and all, with a key stream that the same
block function makes from a counter.  `M` is the length of the tag and `L` the length of the
length field, as the two parameters of the mode are called.

The block function is any function on blocks of sixteen bytes; decryption never inverts it.
`decrypt_encrypt` is the round trip, and `decrypt_eq_some_iff` says that nothing but an
encryption decrypts.
-/
import Mathlib.Data.List.OfFn
import Mathlib.Data.List.GetD

namespace Ccm

/-! ## 1. Blocks -/

/-- Sixteen bytes. -/
abbrev Block := Fin 16 → UInt8

def zeroBlock : Block := fun _ => 0

def xor (a b : Block) : Block := fun i => a i ^^^ b i

theorem index_lt (n : Nat) : n % 16 < 16 := Nat.mod_lt n (by decide)

/-- The byte of a block at a place. -/
def byte (b : Block) (n : Nat) : UInt8 := b ⟨n % 16, index_lt n⟩

theorem byte_lt (b : Block) {n : Nat} (h : n < 16) : byte b n = b ⟨n, h⟩ := by
  simp only [byte, Nat.mod_eq_of_lt h]

/-- The `i`-th block of a byte string, with zeros after its end. -/
def blockAt (l : List UInt8) (i : Nat) : Block := fun j => l.getD (16 * i + j) 0

/-- A byte string as blocks, the last one padded with zeros. -/
def blocks (l : List UInt8) : List Block :=
  (List.range ((l.length + 15) / 16)).map (blockAt l)

/-- A number as `k` bytes, most significant first. -/
def beBytes : Nat → Nat → List UInt8
  | 0, _ => []
  | k + 1, n => beBytes k (n / 256) ++ [UInt8.ofNat n]

/-- The first bytes of a block. -/
def firstBytes (n : Nat) (b : Block) : List UInt8 := (List.ofFn b).take n

/-- Chaining from a block on. -/
def chain (E : Block → Block) (x : Block) (bs : List Block) : Block :=
  bs.foldl (fun x b => E (xor x b)) x

theorem chain_append (E : Block → Block) (x : Block) (bs cs : List Block) :
    chain E x (bs ++ cs) = chain E (chain E x bs) cs := by
  unfold chain
  rw [List.foldl_append]

/-- Under the identity a chain adds its blocks up. -/
theorem chain_id_apply (bs : List Block) (x : Block) (i : Fin 16) :
    chain id x bs i = x i ^^^ chain id zeroBlock bs i := by
  induction bs generalizing x with
  | nil => exact UInt8.xor_zero.symm
  | cons b bs ih =>
    have hstep : ∀ y : Block, chain id y (b :: bs) = chain id (xor y b) bs := fun _ => rfl
    rw [hstep, hstep, ih (xor x b), ih (xor zeroBlock b)]
    simp only [xor, zeroBlock, UInt8.zero_xor, UInt8.xor_assoc]

theorem xor_comm (a b : Block) : xor a b = xor b a := by
  funext i
  exact UInt8.xor_comm (a i) (b i)

theorem xor_assoc (a b c : Block) : xor (xor a b) c = xor a (xor b c) := by
  funext i
  exact UInt8.xor_assoc (a i) (b i) (c i)

/-- The first block, and the rest. -/
theorem blocks_append {a b : List UInt8} (ha : a.length = 16) :
    blocks (a ++ b) = blockAt a 0 :: blocks b := by
  have hcount : ((a ++ b).length + 15) / 16 = (b.length + 15) / 16 + 1 := by
    rw [List.length_append]
    omega
  unfold blocks
  rw [hcount, List.range_succ_eq_map, List.map_cons, List.map_map]
  congr 1
  · funext j
    have hj := j.isLt
    simp only [blockAt, Nat.mul_zero, Nat.zero_add]
    rw [List.getD_append _ _ _ _ (by omega)]
  · refine List.map_congr_left fun i _ => ?_
    funext j
    simp only [Function.comp, blockAt]
    rw [List.getD_append_right _ _ _ _ (by omega)]
    congr 1
    omega

/-- A short string is one block. -/
theorem blocks_short {l : List UInt8} (hpos : 0 < l.length) (hle : l.length ≤ 16) :
    blocks l = [blockAt l 0] := by
  have hone : (l.length + 15) / 16 = 1 := by omega
  unfold blocks
  rw [hone]
  rfl

/-- Zeros at the end are padding. -/
theorem blockAt_append_replicate (l : List UInt8) (k i : Nat) :
    blockAt (l ++ List.replicate k 0) i = blockAt l i := by
  funext j
  simp only [blockAt]
  by_cases h : 16 * i + j < l.length
  · rw [List.getD_append _ _ _ _ h]
  · rw [List.getD_append_right _ _ _ _ (by omega), List.getD_eq_default l _ (by omega)]
    simp [List.getD_eq_getElem?_getD, List.getElem?_replicate]
    split <;> rfl

theorem xor_zeroBlock (b : Block) : xor zeroBlock b = b := by
  funext i
  exact UInt8.zero_xor

/-! ## 2. The mode -/

structure Params where
  /-- The length of the tag. -/
  M : Nat
  /-- The length of the length field. -/
  L : Nat

variable (p : Params) (E : Block → Block) (nonce : List UInt8)

/-- The first block of the chain. -/
def formatB0 (aad : List UInt8) (msgLen : Nat) : Block :=
  let flags := 64 * (if aad = [] then 0 else 1) + 8 * ((p.M - 2) / 2) + (p.L - 1)
  blockAt (UInt8.ofNat flags :: nonce ++ beBytes p.L msgLen) 0

/-- The additional data with its length, for lengths below 2^16 - 2^8. -/
def encodeAad (aad : List UInt8) : List UInt8 :=
  if aad = [] then [] else beBytes 2 aad.length ++ aad

/-- The counter block. -/
def ctrBlock (i : Nat) : Block :=
  blockAt (UInt8.ofNat (p.L - 1) :: nonce ++ beBytes p.L i) 0

/-- The chain over the first block, the additional data and the message. -/
def mac (aad msg : List UInt8) : Block :=
  chain E zeroBlock (formatB0 p nonce aad msg.length :: (blocks (encodeAad aad) ++ blocks msg))

/-- Byte `k` of the key stream; the message is encrypted with the blocks from the first on. -/
def keystream (k : Nat) : UInt8 :=
  E (ctrBlock p nonce (k / 16 + 1)) ⟨k % 16, Nat.mod_lt k (by decide)⟩

def ctrXor (msg : List UInt8) : List UInt8 :=
  msg.mapIdx (fun k b => b ^^^ keystream p E nonce k)

/-- The tag: the chain's first bytes under block zero of the key stream. -/
def tag (aad msg : List UInt8) : List UInt8 :=
  firstBytes p.M (xor (E (ctrBlock p nonce 0)) (mac p E nonce aad msg))

def encrypt (aad msg : List UInt8) : List UInt8 × List UInt8 :=
  (ctrXor p E nonce msg, tag p E nonce aad msg)

def decrypt (aad c t : List UInt8) : Option (List UInt8) :=
  let msg := ctrXor p E nonce c
  if tag p E nonce aad msg = t then some msg else none

/-! ## 3. The round trip -/

@[simp] theorem length_ctrXor (msg : List UInt8) :
    (ctrXor p E nonce msg).length = msg.length := by
  simp [ctrXor]

theorem getD_ctrXor {msg : List UInt8} {k : Nat} (hk : k < msg.length) :
    (ctrXor p E nonce msg).getD k 0 = msg.getD k 0 ^^^ keystream p E nonce k := by
  simp [ctrXor, List.getD_eq_getElem?_getD, hk]

/-- The key stream cancels. -/
theorem ctrXor_ctrXor (msg : List UInt8) :
    ctrXor p E nonce (ctrXor p E nonce msg) = msg := by
  apply List.ext_getElem
  · simp
  · intro k h₁ h₂
    simp only [ctrXor, List.getElem_mapIdx]
    rw [UInt8.xor_assoc, UInt8.xor_self, UInt8.xor_zero]

/-- **What was encrypted decrypts.** -/
theorem decrypt_encrypt (aad msg : List UInt8) :
    decrypt p E nonce aad (encrypt p E nonce aad msg).1 (encrypt p E nonce aad msg).2
      = some msg := by
  simp [decrypt, encrypt, ctrXor_ctrXor]

/-- **...and nothing else does.** -/
theorem decrypt_eq_some_iff {aad c t msg : List UInt8} :
    decrypt p E nonce aad c t = some msg ↔ encrypt p E nonce aad msg = (c, t) := by
  unfold decrypt encrypt
  simp only
  constructor
  · intro h
    split at h
    · rename_i htag
      cases h
      rw [ctrXor_ctrXor, htag]
    · cases h
  · intro h
    obtain ⟨hc, ht⟩ := Prod.mk.inj h
    rw [← hc, ctrXor_ctrXor, ht, if_pos rfl]

end Ccm
