/-
# `omac1_aes_128_vector`

The message comes in areas, `addr[e]` with `len[e]` bytes each, and is read byte by byte; where an
area is at its end, `addr` and `len` are asked for the next one at once.  So after the last byte
they are asked for the entry behind the last, which is then not used (`loaded`), and an area without
bytes would be read by one.

`Omac.run_spec` says what is computed for any memory: the code of the bytes in the order in which
they are read.  Where no area is empty these are the areas one after the other, and
`omac1_vector_is_cmac` names the code: CMAC under AES.
-/
import Rtl8723bs.Lib.OneKeyMac
import Rtl8723bs.Security.Aes

namespace Rtl8723bs

open Ccm (Block blockAt zeroBlock)

/-! ## 1. Areas, and the place that is read -/

/-- What `addr[e]` and `len[e]` give, behind the two arrays too. -/
structure Areas where
  addr : Nat → Nat → UInt8
  len : Nat → Nat

/-- `e`, where `pos` is in its area, and the entries of `addr` and `len` asked for so far. -/
structure Reader where
  e : Nat
  pos : Nat
  loaded : List Nat

namespace Omac

/-- Before the first byte. -/
def start : Reader := ⟨0, 0, [0]⟩

variable (a : Areas) (aes : List UInt8 → List UInt8)

/-- `*pos`. -/
def here (r : Reader) : UInt8 := a.addr r.e r.pos

/-- `pos++`, and the next area where `pos >= end`. -/
def next (r : Reader) : Reader :=
  if a.len r.e ≤ r.pos + 1 then ⟨r.e + 1, 0, r.loaded ++ [r.e + 1]⟩ else ⟨r.e, r.pos + 1, r.loaded⟩

/-- `cbc[i] ^= *pos++`, for the first `n` bytes of `cbc`. -/
def xorIn (n : Nat) (s : List UInt8 × Reader) : List UInt8 × Reader :=
  (List.range n).foldl (fun s i => (s.1.modify i (· ^^^ here a s.2), next a s.2)) s

/-- The loop over whole blocks: what is left, `cbc`, and the place. -/
def blockLoop : Nat → Nat → List UInt8 × Reader → Nat × (List UInt8 × Reader)
  | 0, left, s => (left, s)
  | fuel + 1, left, s =>
    if 16 ≤ left then
      blockLoop fuel (left - 16)
        (if 16 < left then (aes (xorIn a 16 s).1, (xorIn a 16 s).2) else xorIn a 16 s)
    else (left, s)

end Omac

/-- `gf_mulx`. -/
def gfMulx (pad : List UInt8) : List UInt8 :=
  let carry := pad.getD 0 0 &&& 0x80
  let pad := (List.range 15).foldl
    (fun p i => p.set i (p.getD i 0 <<< 1 ||| p.getD (i + 1) 0 >>> 7)) pad
  let pad := pad.set 15 (pad.getD 15 0 <<< 1)
  if carry ≠ 0 then pad.set 15 (pad.getD 15 0 ^^^ 0x87) else pad

namespace Omac

def zero16 : List UInt8 := List.replicate 16 0

variable (a : Areas) (aes : List UInt8 → List UInt8)

/-- `total_len`. -/
def totalLen (numElem : Nat) : Nat := (List.range numElem).foldl (fun t e => t + a.len e) 0

/-- `omac1_aes_128_vector` from where the key is set up: `mac`, and the entries asked for. -/
def run (numElem : Nat) : List UInt8 × List Nat :=
  let total := totalLen a numElem
  let s := blockLoop a aes total total (zero16, start)
  let left := s.1
  let pad := gfMulx (aes zero16)
  let more := decide (left ≠ 0 ∨ total = 0)
  let t := if more then xorIn a left s.2 else s.2
  let cbc := if more then t.1.modify left (· ^^^ 0x80) else t.1
  let pad := if more then gfMulx pad else pad
  (aes (List.zipWith (· ^^^ ·) pad cbc), t.2.loaded)

end Omac

/-- Sixteen bytes of a list. -/
def bytesOfList (l : List UInt8) : Bytes16 where
  q0 := ⟨l.getD 0 0, l.getD 1 0, l.getD 2 0, l.getD 3 0⟩
  q1 := ⟨l.getD 4 0, l.getD 5 0, l.getD 6 0, l.getD 7 0⟩
  q2 := ⟨l.getD 8 0, l.getD 9 0, l.getD 10 0, l.getD 11 0⟩
  q3 := ⟨l.getD 12 0, l.getD 13 0, l.getD 14 0, l.getD 15 0⟩

def Bytes16.toList (b : Bytes16) : List UInt8 :=
  [b.q0.b0, b.q0.b1, b.q0.b2, b.q0.b3, b.q1.b0, b.q1.b1, b.q1.b2, b.q1.b3,
    b.q2.b0, b.q2.b1, b.q2.b2, b.q2.b3, b.q3.b0, b.q3.b1, b.q3.b2, b.q3.b3]

/-- `aes_128_encrypt` on an array of bytes, with the key in `ctx`. -/
def aesOnList (rk : Nat → BitVec 32) (key : Bytes16) (l : List UInt8) : List UInt8 :=
  (aes128Encrypt rk key (bytesOfList l)).toList

/-- `omac1_aes_128_vector`; none where the key cannot be allocated. -/
def omac1Aes128Vector (alloc : Option (Nat → BitVec 32)) (key : Bytes16) (numElem : Nat)
    (a : Areas) : Option (List UInt8 × List Nat) :=
  alloc.map fun rk => Omac.run a (aesOnList rk key) numElem

/-- `omac1_aes_128`: one area; `beyond` is what lies behind the two arrays of one entry, and
`after` what lies behind the data. -/
def omac1Aes128 (alloc : Option (Nat → BitVec 32)) (key : Bytes16) (data : List UInt8)
    (after : Nat → UInt8) (beyond : Areas) : Option (List UInt8) :=
  (omac1Aes128Vector alloc key 1
    { addr := fun e i => if e = 0 then (if i < data.length then data.getD i 0 else after i)
        else beyond.addr e i
      len := fun e => if e = 0 then data.length else beyond.len e }).map fun r => r.1

/-! ## 2. Doubling -/

theorem getD_set_self {l : List UInt8} {i : Nat} (h : i < l.length) (x : UInt8) :
    (l.set i x).getD i 0 = x := by
  simp [List.getD_eq_getElem?_getD, h]

theorem getD_set_ne {i j : Nat} (h : i ≠ j) (l : List UInt8) (x : UInt8) :
    (l.set i x).getD j 0 = l.getD j 0 := by
  simp [List.getD_eq_getElem?_getD, h]

/-- The loop of `gf_mulx` after some bytes: each byte takes the highest bit of the next. -/
theorem gfMulx_loop {pad : List UInt8} (hlen : pad.length = 16) {n : Nat} (hn : n ≤ 15) :
    let p := (List.range n).foldl
      (fun p i => p.set i (p.getD i 0 <<< 1 ||| p.getD (i + 1) 0 >>> 7)) pad
    p.length = 16 ∧ ∀ j, p.getD j 0
      = if j < n then pad.getD j 0 <<< 1 ||| pad.getD (j + 1) 0 >>> 7 else pad.getD j 0 := by
  induction n with
  | zero => exact ⟨hlen, fun j => rfl⟩
  | succ n ih =>
    obtain ⟨hl, hget⟩ := ih (by omega)
    simp only [List.range_succ, List.foldl_append, List.foldl_cons, List.foldl_nil]
    refine ⟨by rw [List.length_set, hl], fun j => ?_⟩
    rcases Nat.lt_trichotomy j n with h | rfl | h
    · rw [getD_set_ne (by omega), hget, if_pos h, if_pos (by omega)]
    · rw [getD_set_self (by omega), hget, hget, if_neg (by omega), if_neg (by omega),
        if_pos (by omega)]
    · rw [getD_set_ne (by omega), hget, if_neg (by omega), if_neg (by omega)]

theorem length_gfMulx {pad : List UInt8} (hlen : pad.length = 16) : (gfMulx pad).length = 16 := by
  have hl := (gfMulx_loop hlen (le_refl 15)).1
  unfold gfMulx
  simp only
  split <;> simp only [List.length_set] <;> exact hl

theorem getD_gfMulx {pad : List UInt8} (hlen : pad.length = 16) {j : Nat} (hj : j < 16) :
    (gfMulx pad).getD j 0
      = if j < 15 then pad.getD j 0 <<< 1 ||| pad.getD (j + 1) 0 >>> 7
        else if pad.getD 0 0 &&& 0x80 ≠ 0 then pad.getD 15 0 <<< 1 ^^^ 0x87
        else pad.getD 15 0 <<< 1 := by
  obtain ⟨hl, hget⟩ := gfMulx_loop hlen (le_refl 15)
  unfold gfMulx
  simp only
  generalize (List.range 15).foldl
      (fun p i => p.set i (p.getD i 0 <<< 1 ||| p.getD (i + 1) 0 >>> 7)) pad = p at hl hget ⊢
  have h15 : p.getD 15 0 = pad.getD 15 0 := by
    rw [hget, if_neg (by decide)]
  by_cases h : j < 15
  · rw [if_pos h]
    split
    · rw [getD_set_ne (by omega), getD_set_ne (by omega), hget, if_pos h]
    · rw [getD_set_ne (by omega), hget, if_pos h]
  · obtain rfl : j = 15 := by omega
    rw [if_neg h]
    split
    · rw [getD_set_self (by rw [List.length_set, hl]; decide), getD_set_self (by omega), h15]
    · rw [getD_set_self (by omega), h15]

theorem byte_blockAt (l : List UInt8) {n : Nat} (hn : n < 16) :
    Ccm.byte (blockAt l 0) n = l.getD n 0 := by
  rw [Ccm.byte_lt _ hn, blockAt]
  simp only [Nat.mul_zero, Nat.zero_add]

/-- The bits that `gf_mulx` moves within a byte and out of it. -/
theorem bits_shifted (x : UInt8) :
    (∀ j : Fin 8, (x <<< 1).toBitVec.getLsbD j.val
      = (decide (0 < j.val) && x.toBitVec.getLsbD (j.val - 1))) ∧
    (∀ j : Fin 8, (x >>> 7).toBitVec.getLsbD j.val
      = (decide (j.val = 0) && x.toBitVec.getLsbD 7)) ∧
    (x &&& 0x80 ≠ 0 ↔ x.toBitVec.getLsbD 7 = true) := by
  revert x
  exact Aes.forall_byte (by decide +kernel)

theorem getLsbD_shiftLeft (x : UInt8) {j : Nat} (hj : j < 8) :
    (x <<< 1).toBitVec.getLsbD j = (decide (0 < j) && x.toBitVec.getLsbD (j - 1)) :=
  (bits_shifted x).1 ⟨j, hj⟩

theorem getLsbD_shiftRight (x : UInt8) {j : Nat} (hj : j < 8) :
    (x >>> 7).toBitVec.getLsbD j = (decide (j = 0) && x.toBitVec.getLsbD 7) :=
  (bits_shifted x).2.1 ⟨j, hj⟩

theorem and_high_ne_zero (x : UInt8) : x &&& 0x80 ≠ 0 ↔ x.toBitVec.getLsbD 7 = true :=
  (bits_shifted x).2.2

/-- **`gf_mulx` doubles.** -/
theorem blockAt_gfMulx {pad : List UInt8} (hlen : pad.length = 16) :
    blockAt (gfMulx pad) 0 = OneKeyMac.double (blockAt pad 0) := by
  refine OneKeyMac.ext_coeff fun k hk => ?_
  have hb : 15 - k / 8 < 16 := by omega
  have hj : k % 8 < 8 := Nat.mod_lt k (by decide)
  have hcarry : OneKeyMac.coeff (blockAt pad 0) 127 = (pad.getD 0 0).toBitVec.getLsbD 7 := by
    rw [OneKeyMac.coeff, byte_blockAt pad (by decide)]
  have hprev : ∀ m, (k - 1) / 8 = m → 0 < k → OneKeyMac.coeff (blockAt pad 0) (k - 1)
      = (pad.getD (15 - m) 0).toBitVec.getLsbD ((k - 1) % 8) := fun m hm hk0 => by
    rw [OneKeyMac.coeff, hm, byte_blockAt pad (by omega)]
  rw [OneKeyMac.coeff_double _ hk, OneKeyMac.coeff, byte_blockAt _ hb, getD_gfMulx hlen hb,
    OneKeyMac.doubleCoeff, hcarry]
  by_cases h8 : k < 8
  · -- the last byte, where the polynomial is added
    have hzero : k / 8 = 0 := Nat.div_eq_of_lt h8
    rw [hzero, if_neg (by decide), Nat.mod_eq_of_lt h8]
    have hlow : ∀ j : Fin 8, (0x87 : UInt8).toBitVec.getLsbD j.val = (0x87).testBit j.val := by
      decide
    have hshift := getLsbD_shiftLeft (pad.getD 15 0) h8
    have hc : (decide (0 < k) && OneKeyMac.coeff (blockAt pad 0) (k - 1))
        = (pad.getD 15 0 <<< 1).toBitVec.getLsbD k := by
      rw [hshift]
      rcases Nat.eq_zero_or_pos k with rfl | hpos
      · rfl
      · rw [hprev 0 (by omega) hpos, Nat.mod_eq_of_lt (by omega)]
    rw [hc]
    split
    · rename_i hhigh
      rw [UInt8.toBitVec_xor, BitVec.getLsbD_xor, (and_high_ne_zero _).mp hhigh, Bool.true_and]
      exact congrArg _ (hlow ⟨k, h8⟩)
    · rename_i hhigh
      have hclear := Bool.eq_false_iff.mpr (fun h => hhigh ((and_high_ne_zero _).mpr h))
      rw [hclear, Bool.false_and, Bool.xor_false]
  · -- any other byte takes a bit from the next
    have hpoly : (0x87 : Nat).testBit k = false :=
      Nat.testBit_lt_two_pow (lt_of_lt_of_le (by decide : 0x87 < 2 ^ 8)
        (Nat.pow_le_pow_right (by decide) (by omega)))
    rw [if_pos (by omega), UInt8.toBitVec_or, BitVec.getLsbD_or, getLsbD_shiftLeft _ hj,
      getLsbD_shiftRight _ hj, hpoly, Bool.and_false, Bool.xor_false,
      decide_eq_true (by omega : 0 < k), Bool.true_and]
    by_cases h0 : k % 8 = 0
    · rw [hprev (k / 8 - 1) (by omega) (by omega), h0]
      have hnext : 15 - (k / 8 - 1) = 15 - k / 8 + 1 := by omega
      have hbit : (k - 1) % 8 = 7 := by omega
      rw [hnext, hbit]
      simp
    · rw [hprev (k / 8) (by omega) (by omega)]
      have hbit : (k - 1) % 8 = k % 8 - 1 := by omega
      rw [hbit, decide_eq_true (by omega : 0 < k % 8), decide_eq_false h0]
      simp

/-! ## 3. What is read -/

namespace Omac

variable {a : Areas} {aes : List UInt8 → List UInt8}

/-- The bytes that are read from a place on, in the order in which they are. -/
def bytesRead (a : Areas) (n : Nat) (r : Reader) : List UInt8 :=
  (List.range n).map fun i => here a ((next a)^[i] r)

theorem length_bytesRead (a : Areas) (n : Nat) (r : Reader) : (bytesRead a n r).length = n := by
  simp [bytesRead]

theorem bytesRead_add (a : Areas) (m n : Nat) (r : Reader) :
    bytesRead a (m + n) r = bytesRead a m r ++ bytesRead a n ((next a)^[m] r) := by
  simp only [bytesRead, List.range_add, List.map_append, List.map_map]
  congr 1
  refine List.map_congr_left fun i _ => ?_
  rw [Function.comp, Nat.add_comm, Function.iterate_add_apply]

theorem getD_bytesRead (a : Areas) {n i : Nat} (hi : i < n) (r : Reader) :
    (bytesRead a n r).getD i 0 = here a ((next a)^[i] r) := by
  simp [bytesRead, List.getD_eq_getElem?_getD, hi]

theorem getD_modify (l : List UInt8) (i j : Nat) (x : UInt8) :
    (l.modify i (· ^^^ x)).getD j 0
      = if i = j ∧ j < l.length then l.getD j 0 ^^^ x else l.getD j 0 := by
  rcases Nat.lt_or_ge j l.length with hlt | hge
  · by_cases hij : i = j
    · simp [List.getD_eq_getElem?_getD, hij, hlt]
    · simp [List.getD_eq_getElem?_getD, hij]
  · rw [if_neg (by omega), List.getD_eq_default _ _ hge,
      List.getD_eq_default _ _ (by rw [List.length_modify]; exact hge)]

/-- The bytes read go into the block one by one. -/
theorem xorIn_spec {cbc : List UInt8} (hlen : cbc.length = 16) (r : Reader) {n : Nat}
    (hn : n ≤ 16) : (xorIn a n (cbc, r)).1.length = 16 ∧
      blockAt (xorIn a n (cbc, r)).1 0 = Ccm.xor (blockAt cbc 0) (blockAt (bytesRead a n r) 0) ∧
      (xorIn a n (cbc, r)).2 = (next a)^[n] r := by
  have hrun : (xorIn a n (cbc, r)).1.length = 16 ∧ (xorIn a n (cbc, r)).2 = (next a)^[n] r ∧
      ∀ j < 16, (xorIn a n (cbc, r)).1.getD j 0
        = if j < n then cbc.getD j 0 ^^^ here a ((next a)^[j] r) else cbc.getD j 0 := by
    induction n with
    | zero => exact ⟨hlen, rfl, fun j _ => rfl⟩
    | succ n ih =>
      obtain ⟨hl, hr, hget⟩ := ih (by omega)
      have hstep : xorIn a (n + 1) (cbc, r)
          = ((xorIn a n (cbc, r)).1.modify n (· ^^^ here a (xorIn a n (cbc, r)).2),
              next a (xorIn a n (cbc, r)).2) := by
        rw [xorIn, List.range_succ, List.foldl_append]
        rfl
      rw [hstep]
      refine ⟨by rw [List.length_modify, hl], ?_, fun j hj => ?_⟩
      · simp only [hr, Function.iterate_succ_apply']
      · simp only [getD_modify, hl, hr, hget j hj]
        rcases Nat.lt_trichotomy j n with h | rfl | h
        · rw [if_neg (by omega), if_pos h, if_pos (by omega)]
        · rw [if_pos ⟨rfl, hj⟩, if_neg (by omega), if_pos (by omega)]
        · rw [if_neg (by omega), if_neg (by omega), if_neg (by omega)]
  obtain ⟨hl, hr, hget⟩ := hrun
  refine ⟨hl, funext fun j => ?_, hr⟩
  simp only [blockAt, Nat.mul_zero, Nat.zero_add, Ccm.xor]
  rw [hget j.val j.isLt]
  split
  · rename_i h
    rw [getD_bytesRead a h]
  · rename_i h
    rw [List.getD_eq_default (bytesRead a n r) 0 (by rw [length_bytesRead]; omega),
      UInt8.xor_zero]

/-! ## 4. The chain -/

/-- A block function on lists of sixteen bytes. -/
def onBlock (aes : List UInt8 → List UInt8) (b : Block) : Block := blockAt (aes (List.ofFn b)) 0

theorem ofFn_blockAt {l : List UInt8} (hlen : l.length = 16) : List.ofFn (blockAt l 0) = l := by
  apply List.ext_getElem
  · rw [List.length_ofFn, hlen]
  · intro i _ h
    simp only [List.getElem_ofFn, blockAt, Nat.mul_zero, Nat.zero_add]
    exact List.getD_eq_getElem l 0 h

theorem onBlock_blockAt {l : List UInt8} (hlen : l.length = 16) :
    onBlock aes (blockAt l 0) = blockAt (aes l) 0 := by
  rw [onBlock, ofFn_blockAt hlen]

/-- Where the chain is after the blocks before the last. -/
def chained (aes : List UInt8 → List UInt8) (x : Block) (msg : List UInt8) : Block :=
  Ccm.chain (onBlock aes) x (Ccm.blocks (msg.take (OneKeyMac.lastStart msg)))

/-- A message of more than one block: its first block, and the rest. -/
theorem chained_cons {b rest : List UInt8} (hb : b.length = 16) (hrest : rest ≠ []) (x : Block) :
    chained aes x (b ++ rest)
        = chained aes (onBlock aes (Ccm.xor x (blockAt b 0))) rest ∧
      OneKeyMac.last (b ++ rest) = OneKeyMac.last rest := by
  have hpos := List.length_pos_of_ne_nil hrest
  have hstart : OneKeyMac.lastStart (b ++ rest) = b.length + OneKeyMac.lastStart rest := by
    simp only [OneKeyMac.lastStart, List.length_append, hb]
    omega
  constructor
  · rw [chained, hstart, List.take_length_add_append, Ccm.blocks_append hb]
    rfl
  · rw [OneKeyMac.last, hstart, List.drop_length_add_append]
    rfl

/-- What the loop over whole blocks leaves, of a message and the block that it starts from. -/
structure LoopOut (a : Areas) (aes : List UInt8 → List UInt8) (left : Nat) (x : Block)
    (r : Reader) (out : Nat × (List UInt8 × Reader)) : Prop where
  length : out.2.1.length = 16
  le : out.1 ≤ left
  place : out.2.2 = (next a)^[left - out.1] r
  full : (OneKeyMac.last (bytesRead a left r)).length = 16 → out.1 = 0 ∧ blockAt out.2.1 0
    = Ccm.xor (chained aes x (bytesRead a left r))
        (blockAt (OneKeyMac.last (bytesRead a left r)) 0)
  rest : (OneKeyMac.last (bytesRead a left r)).length ≠ 16 →
    out.1 = (OneKeyMac.last (bytesRead a left r)).length ∧
      blockAt out.2.1 0 = chained aes x (bytesRead a left r)

/-- A message of one block at most has nothing chained before the last. -/
theorem chained_short {msg : List UInt8} (h : msg.length ≤ 16) (x : Block) :
    chained aes x msg = x ∧ OneKeyMac.last msg = msg := by
  have hstart : OneKeyMac.lastStart msg = 0 := by
    rw [OneKeyMac.lastStart]
    omega
  constructor
  · rw [chained, hstart, List.take_zero]
    rfl
  · rw [OneKeyMac.last, hstart, List.drop_zero]

/-- Less than a block is left. -/
theorem loopOut_short {cbc : List UInt8} (hlen : cbc.length = 16) {left : Nat} (h : left < 16)
    (r : Reader) : LoopOut a aes left (blockAt cbc 0) r (left, (cbc, r)) := by
  have hshort : (bytesRead a left r).length ≤ 16 := by
    rw [length_bytesRead]
    omega
  obtain ⟨hchain, hlast⟩ : chained aes (blockAt cbc 0) (bytesRead a left r) = blockAt cbc 0 ∧
      OneKeyMac.last (bytesRead a left r) = bytesRead a left r := chained_short hshort _
  refine ⟨hlen, le_rfl, by rw [Nat.sub_self]; rfl, fun h => ?_, fun _ => ⟨?_, hchain.symm⟩⟩
  · rw [hlast, length_bytesRead] at h
    omega
  · rw [hlast, length_bytesRead]

/-- A block before the last. -/
theorem LoopOut.cons {n : Nat} {x : Block} {r : Reader} {out : Nat × (List UInt8 × Reader)}
    (hn : 0 < n) (h : LoopOut a aes n (onBlock aes (Ccm.xor x (blockAt (bytesRead a 16 r) 0)))
      ((next a)^[16] r) out) : LoopOut a aes (16 + n) x r out := by
  have hne : bytesRead a n ((next a)^[16] r) ≠ [] :=
    List.ne_nil_of_length_pos (by rw [length_bytesRead]; exact hn)
  obtain ⟨hchain, hlast⟩ := @chained_cons aes _ _ (length_bytesRead a 16 r) hne x
  rw [← bytesRead_add] at hchain hlast
  have hle := h.le
  refine ⟨h.length, by omega, ?_, fun hl => ?_, fun hl => ?_⟩
  · have hplace : 16 + n - out.1 = n - out.1 + 16 := by omega
    rw [h.place, hplace, Function.iterate_add_apply]
  · rw [hlast] at hl ⊢
    rw [hchain]
    exact h.full hl
  · rw [hlast] at hl ⊢
    rw [hchain]
    exact h.rest hl

/-- The last block, where it is full. -/
theorem loopOut_full {cbc : List UInt8} (hlen : cbc.length = 16) (r : Reader) :
    LoopOut a aes 16 (blockAt cbc 0) r (0, xorIn a 16 (cbc, r)) := by
  obtain ⟨hxlen, hxor, hxr⟩ := xorIn_spec hlen r (le_refl 16) (a := a)
  obtain ⟨hchain, hlast⟩ : chained aes (blockAt cbc 0) (bytesRead a 16 r) = blockAt cbc 0 ∧
      OneKeyMac.last (bytesRead a 16 r) = bytesRead a 16 r :=
    chained_short (length_bytesRead a 16 r).le _
  refine ⟨hxlen, Nat.zero_le _, hxr, fun _ => ⟨rfl, ?_⟩, fun h => ?_⟩
  · rw [hchain, hlast, hxor]
  · rw [hlast, length_bytesRead] at h
    exact absurd rfl h

/-- **The loop over whole blocks** takes the last block into `cbc` where it is full. -/
theorem blockLoop_spec (haes : ∀ l, l.length = 16 → (aes l).length = 16) (fuel : Nat) :
    ∀ (left : Nat) (cbc : List UInt8) (r : Reader), left ≤ fuel → cbc.length = 16 →
      LoopOut a aes left (blockAt cbc 0) r (blockLoop a aes fuel left (cbc, r)) := by
  induction fuel with
  | zero => exact fun left cbc r hle hlen => loopOut_short hlen (by omega) r
  | succ fuel ih =>
    intro left cbc r hle hlen
    rw [blockLoop]
    rcases Nat.lt_trichotomy left 16 with hlt | rfl | hgt
    · rw [if_neg (by omega)]
      exact loopOut_short hlen hlt r
    · have hend : blockLoop a aes fuel 0 (xorIn a 16 (cbc, r)) = (0, xorIn a 16 (cbc, r)) := by
        cases fuel <;> rfl
      rw [if_pos (le_refl 16), if_neg (lt_irrefl 16), Nat.sub_self, hend]
      exact loopOut_full hlen r
    · obtain ⟨hxlen, hxor, hxr⟩ := xorIn_spec hlen r (le_refl 16) (a := a)
      have hout := ih (left - 16) _ (xorIn a 16 (cbc, r)).2 (by omega) (haes _ hxlen)
      rw [← onBlock_blockAt hxlen, hxor] at hout
      rw [if_pos (by omega), if_pos hgt]
      have hsum : left = 16 + (left - 16) := by omega
      rw [hxr] at hout ⊢
      rw [hsum, Nat.add_sub_cancel_left]
      exact LoopOut.cons (by omega) hout

/-! ## 5. The code -/

theorem blockAt_zipWith {p c : List UInt8} (hp : p.length = 16) (hc : c.length = 16) :
    blockAt (List.zipWith (· ^^^ ·) p c) 0 = Ccm.xor (blockAt c 0) (blockAt p 0) := by
  funext i
  have hi := i.isLt
  simp only [blockAt, Nat.mul_zero, Nat.zero_add, Ccm.xor]
  rw [List.getD_eq_getElem _ _ (by rw [List.length_zipWith, hp, hc]; exact hi),
    List.getElem_zipWith, UInt8.xor_comm, List.getD_eq_getElem _ _ (by omega),
    List.getD_eq_getElem _ _ (by omega)]

/-- The one bit after the last byte. -/
theorem blockAt_modify {c m : List UInt8} {x : Block} (hc : c.length = 16)
    (h : blockAt c 0 = Ccm.xor x (blockAt m 0)) :
    blockAt (c.modify m.length (· ^^^ 0x80)) 0 = Ccm.xor x (blockAt (m ++ [0x80]) 0) := by
  funext i
  have hi := i.isLt
  have hci := congrFun h i
  simp only [blockAt, Nat.mul_zero, Nat.zero_add, Ccm.xor] at hci ⊢
  rw [getD_modify, hc, hci]
  rcases Nat.lt_trichotomy i.val m.length with hlt | heq | hgt
  · rw [if_neg (by omega), List.getD_append _ _ _ _ hlt]
  · rw [if_pos ⟨heq.symm, hi⟩, List.getD_append_right _ _ _ _ (by omega),
      List.getD_eq_default m _ (by omega), heq, Nat.sub_self, UInt8.xor_zero]
    rfl
  · rw [if_neg (by omega), List.getD_eq_default _ _ (by omega), List.getD_eq_default _ _
      (by rw [List.length_append]; exact hgt)]

/-- **What is computed is the code of the bytes in the order in which they are read**, for any
memory and any block function. -/
theorem run_spec (haes : ∀ l, l.length = 16 → (aes l).length = 16) (numElem : Nat) :
    run a aes numElem
      = (List.ofFn (OneKeyMac.mac (onBlock aes) (bytesRead a (totalLen a numElem) start)),
          ((next a)^[totalLen a numElem] start).loaded) := by
  have hz : zero16.length = 16 := rfl
  have hzero : blockAt zero16 0 = zeroBlock := by
    funext i
    revert i
    decide
  have hpad : (aes zero16).length = 16 := haes _ hz
  have hk1 := blockAt_gfMulx hpad
  rw [← onBlock_blockAt hz, hzero] at hk1
  have hk2 := blockAt_gfMulx (length_gfMulx hpad)
  rw [hk1] at hk2
  obtain ⟨hlen, hle, hplace, hfull, hrest⟩ :=
    blockLoop_spec (a := a) haes (totalLen a numElem) (totalLen a numElem) zero16 start le_rfl hz
  rw [hzero] at hfull hrest
  have hcode : ∀ c : List UInt8, c.length = 16 → aes c = List.ofFn (onBlock aes (blockAt c 0)) :=
    fun c hc => by rw [onBlock_blockAt hc, ofFn_blockAt (haes c hc)]
  have hsum := OneKeyMac.lastStart_add_length (bytesRead a (totalLen a numElem) start)
  rw [length_bytesRead] at hsum
  rw [run, OneKeyMac.mac, OneKeyMac.lastBlock]
  generalize hout : blockLoop a aes (totalLen a numElem) (totalLen a numElem) (zero16, start) = out
    at hlen hle hplace hfull hrest
  generalize hmsg : bytesRead a (totalLen a numElem) start = msg at hfull hrest hsum ⊢
  by_cases hl : (OneKeyMac.last msg).length = 16
  · obtain ⟨hleft, hcbc⟩ := hfull hl
    have hmore : decide (out.1 ≠ 0 ∨ totalLen a numElem = 0) = false := by
      rw [decide_eq_false_iff_not]
      omega
    simp only [hmore, Bool.false_eq_true, if_false, if_pos hl]
    have hxor := blockAt_zipWith (length_gfMulx hpad) hlen
    rw [hcode _ (by rw [List.length_zipWith, length_gfMulx hpad, hlen]; rfl), hxor, hk1, hcbc,
      hplace, hleft, Nat.sub_zero, Ccm.xor_assoc]
    rfl
  · obtain ⟨hleft, hcbc⟩ := hrest hl
    have hlong := OneKeyMac.length_last_le msg
    have htotal : msg.length = totalLen a numElem := by rw [← hmsg, length_bytesRead]
    have hempty := OneKeyMac.last_eq_nil_iff msg
    have hmore : decide (out.1 ≠ 0 ∨ totalLen a numElem = 0) = true := by
      rw [decide_eq_true_iff]
      omega
    have htail : bytesRead a out.1 out.2.2 = OneKeyMac.last msg := by
      have hsplit : bytesRead a (totalLen a numElem - out.1) start ++ bytesRead a out.1 out.2.2
          = msg := by
        rw [hplace, ← bytesRead_add, ← hmsg]
        congr 1
        omega
      have hstart : OneKeyMac.lastStart msg
          = (bytesRead a (totalLen a numElem - out.1) start).length := by
        rw [length_bytesRead]
        omega
      rw [OneKeyMac.last, hstart, ← hsplit, List.drop_left]
    obtain ⟨hxlen, hxor, hxr⟩ := xorIn_spec hlen out.2.2 (n := out.1) (by omega) (a := a)
    rw [htail, hcbc] at hxor
    have hone := blockAt_modify hxlen hxor
    rw [← hleft] at hone
    simp only [hmore, if_true, if_neg hl]
    have hmlen : ((xorIn a out.1 out.2).1.modify out.1 (· ^^^ 0x80)).length = 16 := by
      rw [List.length_modify]
      exact hxlen
    rw [hcode _ (by rw [List.length_zipWith, length_gfMulx (length_gfMulx hpad), hmlen]; rfl),
      blockAt_zipWith (length_gfMulx (length_gfMulx hpad)) hmlen, hk2, hone, hxr, hplace,
      ← Function.iterate_add_apply, Ccm.xor_assoc]
    have hall : out.1 + (totalLen a numElem - out.1) = totalLen a numElem := by omega
    rw [hall]
    rfl

/-! ## 6. Areas one after the other -/

/-- An area. -/
def area (a : Areas) (e : Nat) : List UInt8 := (List.range (a.len e)).map (a.addr e)

/-- The areas one after the other. -/
def message (a : Areas) (numElem : Nat) : List UInt8 := (List.range numElem).flatMap (area a)

theorem totalLen_succ (a : Areas) (n : Nat) : totalLen a (n + 1) = totalLen a n + a.len n := by
  rw [totalLen, List.range_succ, List.foldl_append]
  rfl

/-- Inside of an area. -/
theorem next_iterate {e i : Nat} (l : List Nat) (hi : i < a.len e) :
    (next a)^[i] ⟨e, 0, l⟩ = ⟨e, i, l⟩ := by
  induction i with
  | zero => rfl
  | succ i ih =>
    rw [Function.iterate_succ_apply', ih (by omega), next, if_neg (by simp only; omega)]

/-- A whole area that is not empty. -/
theorem read_area {e : Nat} (l : List Nat) (hpos : 0 < a.len e) :
    bytesRead a (a.len e) ⟨e, 0, l⟩ = area a e ∧
      (next a)^[a.len e] ⟨e, 0, l⟩ = ⟨e + 1, 0, l ++ [e + 1]⟩ := by
  constructor
  · refine List.map_congr_left fun i hi => ?_
    rw [next_iterate l (List.mem_range.mp hi), here]
  · obtain ⟨k, hk⟩ : ∃ k, a.len e = k + 1 := ⟨a.len e - 1, by omega⟩
    rw [hk, Function.iterate_succ_apply', next_iterate l (by omega), next, if_pos (by simp [hk])]

theorem read_message {n : Nat} (hpos : ∀ e < n, 0 < a.len e) :
    bytesRead a (totalLen a n) start = message a n ∧
      (next a)^[totalLen a n] start = ⟨n, 0, List.range (n + 1)⟩ := by
  induction n with
  | zero => exact ⟨rfl, rfl⟩
  | succ n ih =>
    obtain ⟨hread, hplace⟩ := ih fun e he => hpos e (by omega)
    obtain ⟨harea, hnext⟩ := read_area (List.range (n + 1)) (hpos n (by omega))
    constructor
    · rw [totalLen_succ, bytesRead_add, hread, hplace, harea, message, message, List.range_succ,
        List.flatMap_append, List.flatMap_singleton]
    · rw [totalLen_succ, Nat.add_comm, Function.iterate_add_apply, hplace, hnext,
        List.range_succ (n := n + 1)]

theorem read_empty {n : Nat} (hzero : ∀ e < n, a.len e = 0) :
    totalLen a n = 0 ∧ message a n = [] := by
  induction n with
  | zero => exact ⟨rfl, rfl⟩
  | succ n ih =>
    obtain ⟨htotal, hmsg⟩ := ih fun e he => hzero e (by omega)
    have harea : area a n = [] := by rw [area, hzero n (by omega)]; rfl
    refine ⟨by rw [totalLen_succ, htotal, hzero n (by omega)], ?_⟩
    rw [message, List.range_succ, List.flatMap_append, List.flatMap_singleton, harea,
      List.append_nil]
    exact hmsg

end Omac

/-! ## 7. With the driver's cipher -/

theorem length_aesOnList (rk : Nat → BitVec 32) (key : Bytes16) (l : List UInt8) :
    (aesOnList rk key l).length = 16 := rfl

theorem bytesOfList_ofFn (b : Block) : bytesOfList (List.ofFn b) = bufferOf b := rfl

theorem onBlock_aesOnList (rk : Nat → BitVec 32) (key : Bytes16) :
    Omac.onBlock (aesOnList rk key) = Aes.encrypt Aes.subByte (blockOf key) := by
  funext b
  have hblock : ∀ c : Bytes16, blockAt c.toList 0 = blockOf c := fun c => by
    funext i
    simp only [blockAt, Nat.mul_zero, Nat.zero_add]
    rfl
  rw [Omac.onBlock, aesOnList, hblock, bytesOfList_ofFn, rijndael_eq, blockOf_bufferOf,
    blockOf_bufferOf]

/-- **`omac1_aes_128_vector` returns the CMAC under AES of the areas one after the other**, where
all of them hold bytes or none does, whatever lies behind the areas and behind the arrays.  It asks
the arrays for each of their entries once, and for one behind them as soon as a byte is read. -/
theorem omac1_vector_is_cmac (rk : Nat → BitVec 32) (key : Bytes16) (numElem : Nat) (a : Areas)
    (hareas : (∀ e < numElem, 0 < a.len e) ∨ ∀ e < numElem, a.len e = 0) :
    omac1Aes128Vector (some rk) key numElem a
      = some (List.ofFn (OneKeyMac.mac (Aes.encrypt Aes.subByte (blockOf key))
            (Omac.message a numElem)),
          List.range (if Omac.message a numElem = [] then 1 else numElem + 1)) := by
  rw [omac1Aes128Vector, Option.map_some, Omac.run_spec fun l _ => length_aesOnList rk key l,
    onBlock_aesOnList]
  rcases hareas with hpos | hzero
  · obtain ⟨hread, hplace⟩ := Omac.read_message hpos
    rw [hread, hplace]
    cases numElem with
    | zero => rfl
    | succ n =>
      have hne : Omac.message a (n + 1) ≠ [] := fun h => by
        have hlen := congrArg List.length (hread.trans h)
        have hn := hpos n (by omega)
        rw [Omac.length_bytesRead, Omac.totalLen_succ, List.length_nil] at hlen
        omega
      rw [if_neg hne]
  · obtain ⟨htotal, hmsg⟩ := Omac.read_empty hzero
    rw [htotal, hmsg, if_pos rfl]
    rfl

/-- The AAD and the body of a frame, in two areas. -/
def twoAreas : Areas where
  addr e i := UInt8.ofNat (16 * e + i)
  len e := if e = 0 then 20 else 2

theorem omac1_vector_is_cmac_of_two :
    omac1Aes128Vector (some fun _ => 0) (bytesOfList []) 2 twoAreas = some (List.ofFn (OneKeyMac.mac (Aes.encrypt Aes.subByte (blockOf (bytesOfList [])))
        (Omac.message twoAreas 2)), List.range 3) :=
  omac1_vector_is_cmac _ _ 2 twoAreas (.inl (by decide))

end Rtl8723bs
