/-
# The block cipher, twice

The driver has AES two times over.  `aes128k128d` goes through a block byte by byte and makes the
round keys as it goes; the CCMP of data frames uses it.  `rijndaelEncrypt` works on four words, with
one table in which substitution and column mixing are already put together, and round keys made
beforehand; the integrity code of management frames uses that.

Both are the standard's cipher: `aes128k128d_eq` and `rijndael_eq`, the second by way of the words
that show a block (`wordsOf`) and of where a round key is to be found (`KeyAt`).
-/
import Rtl8723bs.Lib.Aes
import Mathlib.Algebra.Group.Nat.Defs
import Mathlib.Data.Fintype.EquivFin
import Mathlib.Tactic.FinCases

namespace Rtl8723bs

open Ccm (Block byte)

/-! ## 1. Byte by byte -/

/-- `sbox_table`. -/
def sboxTable : List UInt8 := [
  0x63, 0x7c, 0x77, 0x7b, 0xf2, 0x6b, 0x6f, 0xc5, 0x30, 0x01, 0x67, 0x2b, 0xfe, 0xd7, 0xab, 0x76,
  0xca, 0x82, 0xc9, 0x7d, 0xfa, 0x59, 0x47, 0xf0, 0xad, 0xd4, 0xa2, 0xaf, 0x9c, 0xa4, 0x72, 0xc0,
  0xb7, 0xfd, 0x93, 0x26, 0x36, 0x3f, 0xf7, 0xcc, 0x34, 0xa5, 0xe5, 0xf1, 0x71, 0xd8, 0x31, 0x15,
  0x04, 0xc7, 0x23, 0xc3, 0x18, 0x96, 0x05, 0x9a, 0x07, 0x12, 0x80, 0xe2, 0xeb, 0x27, 0xb2, 0x75,
  0x09, 0x83, 0x2c, 0x1a, 0x1b, 0x6e, 0x5a, 0xa0, 0x52, 0x3b, 0xd6, 0xb3, 0x29, 0xe3, 0x2f, 0x84,
  0x53, 0xd1, 0x00, 0xed, 0x20, 0xfc, 0xb1, 0x5b, 0x6a, 0xcb, 0xbe, 0x39, 0x4a, 0x4c, 0x58, 0xcf,
  0xd0, 0xef, 0xaa, 0xfb, 0x43, 0x4d, 0x33, 0x85, 0x45, 0xf9, 0x02, 0x7f, 0x50, 0x3c, 0x9f, 0xa8,
  0x51, 0xa3, 0x40, 0x8f, 0x92, 0x9d, 0x38, 0xf5, 0xbc, 0xb6, 0xda, 0x21, 0x10, 0xff, 0xf3, 0xd2,
  0xcd, 0x0c, 0x13, 0xec, 0x5f, 0x97, 0x44, 0x17, 0xc4, 0xa7, 0x7e, 0x3d, 0x64, 0x5d, 0x19, 0x73,
  0x60, 0x81, 0x4f, 0xdc, 0x22, 0x2a, 0x90, 0x88, 0x46, 0xee, 0xb8, 0x14, 0xde, 0x5e, 0x0b, 0xdb,
  0xe0, 0x32, 0x3a, 0x0a, 0x49, 0x06, 0x24, 0x5c, 0xc2, 0xd3, 0xac, 0x62, 0x91, 0x95, 0xe4, 0x79,
  0xe7, 0xc8, 0x37, 0x6d, 0x8d, 0xd5, 0x4e, 0xa9, 0x6c, 0x56, 0xf4, 0xea, 0x65, 0x7a, 0xae, 0x08,
  0xba, 0x78, 0x25, 0x2e, 0x1c, 0xa6, 0xb4, 0xc6, 0xe8, 0xdd, 0x74, 0x1f, 0x4b, 0xbd, 0x8b, 0x8a,
  0x70, 0x3e, 0xb5, 0x66, 0x48, 0x03, 0xf6, 0x0e, 0x61, 0x35, 0x57, 0xb9, 0x86, 0xc1, 0x1d, 0x9e,
  0xe1, 0xf8, 0x98, 0x11, 0x69, 0xd9, 0x8e, 0x94, 0x9b, 0x1e, 0x87, 0xe9, 0xce, 0x55, 0x28, 0xdf,
  0x8c, 0xa1, 0x89, 0x0d, 0xbf, 0xe6, 0x42, 0x68, 0x41, 0x99, 0x2d, 0x0f, 0xb0, 0x54, 0xbb, 0x16]

/-- `sbox`. -/
def sbox (a : UInt8) : UInt8 := sboxTable.getD a.toNat 0

/-- Four bytes in a row. -/
structure Quad where
  b0 : UInt8
  b1 : UInt8
  b2 : UInt8
  b3 : UInt8
deriving DecidableEq, Repr

/-- A buffer of sixteen bytes, in fours. -/
structure Bytes16 where
  q0 : Quad
  q1 : Quad
  q2 : Quad
  q3 : Quad
deriving DecidableEq, Repr

/-- `xor_32`. -/
def xor32 (a b : Quad) : Quad := ⟨a.b0 ^^^ b.b0, a.b1 ^^^ b.b1, a.b2 ^^^ b.b2, a.b3 ^^^ b.b3⟩

/-- `xor_128`. -/
def xor128 (a b : Bytes16) : Bytes16 :=
  ⟨xor32 a.q0 b.q0, xor32 a.q1 b.q1, xor32 a.q2 b.q2, xor32 a.q3 b.q3⟩

/-- `rcon_table` of `next_key`. -/
def rconTable : List UInt8 :=
  [0x01, 0x02, 0x04, 0x08, 0x10, 0x20, 0x40, 0x80, 0x1b, 0x36, 0x36, 0x36]

/-- `next_key`. -/
def nextKey (key : Bytes16) (round : Nat) : Bytes16 :=
  let sboxKey : Quad := ⟨sbox key.q3.b1, sbox key.q3.b2, sbox key.q3.b3, sbox key.q3.b0⟩
  let rcon := rconTable.getD round 0
  let k0 := xor32 key.q0 sboxKey
  let k0 := { k0 with b0 := k0.b0 ^^^ rcon }
  let k4 := xor32 key.q1 k0
  let k8 := xor32 key.q2 k4
  let k12 := xor32 key.q3 k8
  ⟨k0, k4, k8, k12⟩

/-- Four bytes of `byte_sub`. -/
def sboxQuad (q : Quad) : Quad := ⟨sbox q.b0, sbox q.b1, sbox q.b2, sbox q.b3⟩

/-- `byte_sub`. -/
def byteSub (b : Bytes16) : Bytes16 := ⟨sboxQuad b.q0, sboxQuad b.q1, sboxQuad b.q2, sboxQuad b.q3⟩

/-- `shift_row`. -/
def shiftRow (b : Bytes16) : Bytes16 where
  q0 := ⟨b.q0.b0, b.q1.b1, b.q2.b2, b.q3.b3⟩
  q1 := ⟨b.q1.b0, b.q2.b1, b.q3.b2, b.q0.b3⟩
  q2 := ⟨b.q2.b0, b.q3.b1, b.q0.b2, b.q1.b3⟩
  q3 := ⟨b.q3.b0, b.q0.b1, b.q1.b2, b.q2.b3⟩

/-- `add1b` of `mix_column`, for one byte. -/
def add1b (b : UInt8) : UInt8 := if b &&& 0x80 = 0x80 then 0x1b else 0x00

/-- A byte to the left, with the highest bit of the byte before it. -/
def shiftIn (prev cur : UInt8) : UInt8 :=
  if prev &&& 0x80 = 0x80 then cur <<< 1 ||| 0x01 else cur <<< 1

/-- `mix_column`.  The highest bits are masked off before the shift, so none is carried. -/
def mixColumn (q : Quad) : Quad :=
  let add : Quad := ⟨add1b q.b0, add1b q.b1, add1b q.b2, add1b q.b3⟩
  let swapHalfs : Quad := ⟨q.b2, q.b3, q.b0, q.b1⟩
  let rotl : Quad := ⟨q.b3, q.b0, q.b1, q.b2⟩
  let andf7 : Quad := ⟨q.b0 &&& 0x7f, q.b1 &&& 0x7f, q.b2 &&& 0x7f, q.b3 &&& 0x7f⟩
  let andf7 : Quad :=
    ⟨andf7.b0 <<< 1 &&& 0xfe, shiftIn andf7.b0 andf7.b1, shiftIn andf7.b1 andf7.b2,
      shiftIn andf7.b2 andf7.b3⟩
  let add1bf7 := xor32 add andf7
  let rotr := xor32 q add1bf7
  let rotr : Quad := ⟨rotr.b1, rotr.b2, rotr.b3, rotr.b0⟩
  xor32 (xor32 add1bf7 rotr) (xor32 swapHalfs rotl)

/-- The four calls of `mix_column` of a round. -/
def mixColumns (b : Bytes16) : Bytes16 :=
  ⟨mixColumn b.q0, mixColumn b.q1, mixColumn b.q2, mixColumn b.q3⟩

/-- One turn of the loop of `aes128k128d`, on the ciphertext and the round key. -/
def aesTurn (data : Bytes16) (s : Bytes16 × Bytes16) (round : Nat) : Bytes16 × Bytes16 :=
  if round = 0 then (xor128 s.2 data, nextKey s.2 round)
  else if round = 10 then (xor128 (shiftRow (byteSub s.1)) s.2, s.2)
  else (xor128 (mixColumns (shiftRow (byteSub s.1))) s.2, nextKey s.2 round)

/-- `aes128k128d`; `ciphertext` is what the buffer holds before. -/
def aes128k128d (key data ciphertext : Bytes16) : Bytes16 :=
  ((List.range 11).foldl (aesTurn data) (ciphertext, key)).1

/-! ## 2. Word by word -/

/-- `Te0`. -/
def te0Table : List (BitVec 32) := [
  0xc66363a5, 0xf87c7c84, 0xee777799, 0xf67b7b8d, 0xfff2f20d, 0xd66b6bbd, 0xde6f6fb1, 0x91c5c554,
  0x60303050, 0x02010103, 0xce6767a9, 0x562b2b7d, 0xe7fefe19, 0xb5d7d762, 0x4dababe6, 0xec76769a,
  0x8fcaca45, 0x1f82829d, 0x89c9c940, 0xfa7d7d87, 0xeffafa15, 0xb25959eb, 0x8e4747c9, 0xfbf0f00b,
  0x41adadec, 0xb3d4d467, 0x5fa2a2fd, 0x45afafea, 0x239c9cbf, 0x53a4a4f7, 0xe4727296, 0x9bc0c05b,
  0x75b7b7c2, 0xe1fdfd1c, 0x3d9393ae, 0x4c26266a, 0x6c36365a, 0x7e3f3f41, 0xf5f7f702, 0x83cccc4f,
  0x6834345c, 0x51a5a5f4, 0xd1e5e534, 0xf9f1f108, 0xe2717193, 0xabd8d873, 0x62313153, 0x2a15153f,
  0x0804040c, 0x95c7c752, 0x46232365, 0x9dc3c35e, 0x30181828, 0x379696a1, 0x0a05050f, 0x2f9a9ab5,
  0x0e070709, 0x24121236, 0x1b80809b, 0xdfe2e23d, 0xcdebeb26, 0x4e272769, 0x7fb2b2cd, 0xea75759f,
  0x1209091b, 0x1d83839e, 0x582c2c74, 0x341a1a2e, 0x361b1b2d, 0xdc6e6eb2, 0xb45a5aee, 0x5ba0a0fb,
  0xa45252f6, 0x763b3b4d, 0xb7d6d661, 0x7db3b3ce, 0x5229297b, 0xdde3e33e, 0x5e2f2f71, 0x13848497,
  0xa65353f5, 0xb9d1d168, 0x00000000, 0xc1eded2c, 0x40202060, 0xe3fcfc1f, 0x79b1b1c8, 0xb65b5bed,
  0xd46a6abe, 0x8dcbcb46, 0x67bebed9, 0x7239394b, 0x944a4ade, 0x984c4cd4, 0xb05858e8, 0x85cfcf4a,
  0xbbd0d06b, 0xc5efef2a, 0x4faaaae5, 0xedfbfb16, 0x864343c5, 0x9a4d4dd7, 0x66333355, 0x11858594,
  0x8a4545cf, 0xe9f9f910, 0x04020206, 0xfe7f7f81, 0xa05050f0, 0x783c3c44, 0x259f9fba, 0x4ba8a8e3,
  0xa25151f3, 0x5da3a3fe, 0x804040c0, 0x058f8f8a, 0x3f9292ad, 0x219d9dbc, 0x70383848, 0xf1f5f504,
  0x63bcbcdf, 0x77b6b6c1, 0xafdada75, 0x42212163, 0x20101030, 0xe5ffff1a, 0xfdf3f30e, 0xbfd2d26d,
  0x81cdcd4c, 0x180c0c14, 0x26131335, 0xc3ecec2f, 0xbe5f5fe1, 0x359797a2, 0x884444cc, 0x2e171739,
  0x93c4c457, 0x55a7a7f2, 0xfc7e7e82, 0x7a3d3d47, 0xc86464ac, 0xba5d5de7, 0x3219192b, 0xe6737395,
  0xc06060a0, 0x19818198, 0x9e4f4fd1, 0xa3dcdc7f, 0x44222266, 0x542a2a7e, 0x3b9090ab, 0x0b888883,
  0x8c4646ca, 0xc7eeee29, 0x6bb8b8d3, 0x2814143c, 0xa7dede79, 0xbc5e5ee2, 0x160b0b1d, 0xaddbdb76,
  0xdbe0e03b, 0x64323256, 0x743a3a4e, 0x140a0a1e, 0x924949db, 0x0c06060a, 0x4824246c, 0xb85c5ce4,
  0x9fc2c25d, 0xbdd3d36e, 0x43acacef, 0xc46262a6, 0x399191a8, 0x319595a4, 0xd3e4e437, 0xf279798b,
  0xd5e7e732, 0x8bc8c843, 0x6e373759, 0xda6d6db7, 0x018d8d8c, 0xb1d5d564, 0x9c4e4ed2, 0x49a9a9e0,
  0xd86c6cb4, 0xac5656fa, 0xf3f4f407, 0xcfeaea25, 0xca6565af, 0xf47a7a8e, 0x47aeaee9, 0x10080818,
  0x6fbabad5, 0xf0787888, 0x4a25256f, 0x5c2e2e72, 0x381c1c24, 0x57a6a6f1, 0x73b4b4c7, 0x97c6c651,
  0xcbe8e823, 0xa1dddd7c, 0xe874749c, 0x3e1f1f21, 0x964b4bdd, 0x61bdbddc, 0x0d8b8b86, 0x0f8a8a85,
  0xe0707090, 0x7c3e3e42, 0x71b5b5c4, 0xcc6666aa, 0x904848d8, 0x06030305, 0xf7f6f601, 0x1c0e0e12,
  0xc26161a3, 0x6a35355f, 0xae5757f9, 0x69b9b9d0, 0x17868691, 0x99c1c158, 0x3a1d1d27, 0x279e9eb9,
  0xd9e1e138, 0xebf8f813, 0x2b9898b3, 0x22111133, 0xd26969bb, 0xa9d9d970, 0x078e8e89, 0x339494a7,
  0x2d9b9bb6, 0x3c1e1e22, 0x15878792, 0xc9e9e920, 0x87cece49, 0xaa5555ff, 0x50282878, 0xa5dfdf7a,
  0x038c8c8f, 0x59a1a1f8, 0x09898980, 0x1a0d0d17, 0x65bfbfda, 0xd7e6e631, 0x844242c6, 0xd06868b8,
  0x824141c3, 0x299999b0, 0x5a2d2d77, 0x1e0f0f11, 0x7bb0b0cb, 0xa85454fc, 0x6dbbbbd6, 0x2c16163a]

/-- `Td4s`, the bytes that the decryption substitutes. -/
def td4s : List UInt8 := [
  0x52, 0x09, 0x6a, 0xd5, 0x30, 0x36, 0xa5, 0x38, 0xbf, 0x40, 0xa3, 0x9e, 0x81, 0xf3, 0xd7, 0xfb,
  0x7c, 0xe3, 0x39, 0x82, 0x9b, 0x2f, 0xff, 0x87, 0x34, 0x8e, 0x43, 0x44, 0xc4, 0xde, 0xe9, 0xcb,
  0x54, 0x7b, 0x94, 0x32, 0xa6, 0xc2, 0x23, 0x3d, 0xee, 0x4c, 0x95, 0x0b, 0x42, 0xfa, 0xc3, 0x4e,
  0x08, 0x2e, 0xa1, 0x66, 0x28, 0xd9, 0x24, 0xb2, 0x76, 0x5b, 0xa2, 0x49, 0x6d, 0x8b, 0xd1, 0x25,
  0x72, 0xf8, 0xf6, 0x64, 0x86, 0x68, 0x98, 0x16, 0xd4, 0xa4, 0x5c, 0xcc, 0x5d, 0x65, 0xb6, 0x92,
  0x6c, 0x70, 0x48, 0x50, 0xfd, 0xed, 0xb9, 0xda, 0x5e, 0x15, 0x46, 0x57, 0xa7, 0x8d, 0x9d, 0x84,
  0x90, 0xd8, 0xab, 0x00, 0x8c, 0xbc, 0xd3, 0x0a, 0xf7, 0xe4, 0x58, 0x05, 0xb8, 0xb3, 0x45, 0x06,
  0xd0, 0x2c, 0x1e, 0x8f, 0xca, 0x3f, 0x0f, 0x02, 0xc1, 0xaf, 0xbd, 0x03, 0x01, 0x13, 0x8a, 0x6b,
  0x3a, 0x91, 0x11, 0x41, 0x4f, 0x67, 0xdc, 0xea, 0x97, 0xf2, 0xcf, 0xce, 0xf0, 0xb4, 0xe6, 0x73,
  0x96, 0xac, 0x74, 0x22, 0xe7, 0xad, 0x35, 0x85, 0xe2, 0xf9, 0x37, 0xe8, 0x1c, 0x75, 0xdf, 0x6e,
  0x47, 0xf1, 0x1a, 0x71, 0x1d, 0x29, 0xc5, 0x89, 0x6f, 0xb7, 0x62, 0x0e, 0xaa, 0x18, 0xbe, 0x1b,
  0xfc, 0x56, 0x3e, 0x4b, 0xc6, 0xd2, 0x79, 0x20, 0x9a, 0xdb, 0xc0, 0xfe, 0x78, 0xcd, 0x5a, 0xf4,
  0x1f, 0xdd, 0xa8, 0x33, 0x88, 0x07, 0xc7, 0x31, 0xb1, 0x12, 0x10, 0x59, 0x27, 0x80, 0xec, 0x5f,
  0x60, 0x51, 0x7f, 0xa9, 0x19, 0xb5, 0x4a, 0x0d, 0x2d, 0xe5, 0x7a, 0x9f, 0x93, 0xc9, 0x9c, 0xef,
  0xa0, 0xe0, 0x3b, 0x4d, 0xae, 0x2a, 0xf5, 0xb0, 0xc8, 0xeb, 0xbb, 0x3c, 0x83, 0x53, 0x99, 0x61,
  0x17, 0x2b, 0x04, 0x7e, 0xba, 0x77, 0xd6, 0x26, 0xe1, 0x69, 0x14, 0x63, 0x55, 0x21, 0x0c, 0x7d]

/-- `Te0[(i >> k) & 0xff]`. -/
def te0At (i : BitVec 32) (k : Nat) : BitVec 32 := te0Table.getD ((i >>> k) &&& 0xff#32).toNat 0

/-- `rotr`. -/
def rotr (val : BitVec 32) (bits : Nat) : BitVec 32 := val >>> bits ||| val <<< (32 - bits)

def te0 (i : BitVec 32) : BitVec 32 := te0At i 24
def te1 (i : BitVec 32) : BitVec 32 := rotr (te0At i 16) 8
def te2 (i : BitVec 32) : BitVec 32 := rotr (te0At i 8) 16
def te3 (i : BitVec 32) : BitVec 32 := rotr (te0At i 0) 24
def te41 (i : BitVec 32) : BitVec 32 := te0At i 24 <<< 8 &&& 0xff000000#32
def te42 (i : BitVec 32) : BitVec 32 := te0At i 16 &&& 0x00ff0000#32
def te43 (i : BitVec 32) : BitVec 32 := te0At i 8 &&& 0x0000ff00#32
def te44 (i : BitVec 32) : BitVec 32 := te0At i 0 >>> 8 &&& 0x000000ff#32
def te421 (i : BitVec 32) : BitVec 32 := te0At i 16 <<< 8 &&& 0xff000000#32
def te432 (i : BitVec 32) : BitVec 32 := te0At i 8 &&& 0x00ff0000#32
def te443 (i : BitVec 32) : BitVec 32 := te0At i 0 &&& 0x0000ff00#32
def te414 (i : BitVec 32) : BitVec 32 := te0At i 24 >>> 8 &&& 0x000000ff#32

/-- `rcons`. -/
def rcons : List UInt8 := [0x01, 0x02, 0x04, 0x08, 0x10, 0x20, 0x40, 0x80, 0x1B, 0x36]

/-- `RCON`. -/
def rconWord (i : Nat) : BitVec 32 := (rcons.getD i 0).toBitVec.setWidth 32 <<< 24

/-- `GETU32`. -/
def getu32 (q : Quad) : BitVec 32 :=
  q.b0.toBitVec.setWidth 32 <<< 24 ^^^ q.b1.toBitVec.setWidth 32 <<< 16
    ^^^ q.b2.toBitVec.setWidth 32 <<< 8 ^^^ q.b3.toBitVec.setWidth 32

/-- `PUTU32`. -/
def putu32 (st : BitVec 32) : Quad where
  b0 := ⟨(st >>> 24).setWidth 8⟩
  b1 := ⟨(st >>> 16).setWidth 8⟩
  b2 := ⟨(st >>> 8).setWidth 8⟩
  b3 := ⟨st.setWidth 8⟩

/-- One turn of the loop of `rijndaelKeySetupEnc`; `rk` has moved by four words a turn. -/
def keySetupTurn (rk : Nat → BitVec 32) (i : Nat) : Nat → BitVec 32 :=
  let temp := rk (4 * i + 3)
  let w4 := rk (4 * i) ^^^ te421 temp ^^^ te432 temp ^^^ te443 temp ^^^ te414 temp ^^^ rconWord i
  let w5 := rk (4 * i + 1) ^^^ w4
  let w6 := rk (4 * i + 2) ^^^ w5
  let w7 := rk (4 * i + 3) ^^^ w6
  fun n => if n = 4 * i + 4 then w4 else if n = 4 * i + 5 then w5 else if n = 4 * i + 6 then w6
    else if n = 4 * i + 7 then w7 else rk n

/-- The first four words. -/
def keyStart (rk : Nat → BitVec 32) (cipherKey : Bytes16) (n : Nat) : BitVec 32 :=
  if n = 0 then getu32 cipherKey.q0 else if n = 1 then getu32 cipherKey.q1
  else if n = 2 then getu32 cipherKey.q2 else if n = 3 then getu32 cipherKey.q3 else rk n

/-- `rijndaelKeySetupEnc`; `rk` is what was allocated, with whatever it holds. -/
def rijndaelKeySetupEnc (rk : Nat → BitVec 32) (cipherKey : Bytes16) : Nat → BitVec 32 :=
  (List.range 10).foldl keySetupTurn (keyStart rk cipherKey)

/-- The four words of the state. -/
structure Words where
  w0 : BitVec 32
  w1 : BitVec 32
  w2 : BitVec 32
  w3 : BitVec 32
deriving DecidableEq, Repr

/-- `ROUND`, with the key words from `base` on. -/
def rijndaelRound (rk : Nat → BitVec 32) (base : Nat) (s : Words) : Words where
  w0 := te0 s.w0 ^^^ te1 s.w1 ^^^ te2 s.w2 ^^^ te3 s.w3 ^^^ rk base
  w1 := te0 s.w1 ^^^ te1 s.w2 ^^^ te2 s.w3 ^^^ te3 s.w0 ^^^ rk (base + 1)
  w2 := te0 s.w2 ^^^ te1 s.w3 ^^^ te2 s.w0 ^^^ te3 s.w1 ^^^ rk (base + 2)
  w3 := te0 s.w3 ^^^ te1 s.w0 ^^^ te2 s.w1 ^^^ te3 s.w2 ^^^ rk (base + 3)

/-- The loop over two rounds a turn, left in the middle of the last: the words `t`, and where `rk`
has moved to.  The count is that of the turns still to come. -/
def rijndaelLoop (rk : Nat → BitVec 32) : Nat → Nat → Words → Words × Nat
  | 0, base, s => (rijndaelRound rk (base + 4) s, base + 8)
  | r + 1, base, s =>
    rijndaelLoop rk r (base + 8) (rijndaelRound rk (base + 8) (rijndaelRound rk (base + 4) s))

/-- `rijndaelEncrypt`: ten rounds, so `r` starts at five and four turns are whole. -/
def rijndaelEncrypt (rk : Nat → BitVec 32) (pt : Bytes16) : Bytes16 :=
  let s : Words :=
    ⟨getu32 pt.q0 ^^^ rk 0, getu32 pt.q1 ^^^ rk 1, getu32 pt.q2 ^^^ rk 2, getu32 pt.q3 ^^^ rk 3⟩
  let t := (rijndaelLoop rk 4 0 s).1
  let base := (rijndaelLoop rk 4 0 s).2
  { q0 := putu32 (te41 t.w0 ^^^ te42 t.w1 ^^^ te43 t.w2 ^^^ te44 t.w3 ^^^ rk base)
    q1 := putu32 (te41 t.w1 ^^^ te42 t.w2 ^^^ te43 t.w3 ^^^ te44 t.w0 ^^^ rk (base + 1))
    q2 := putu32 (te41 t.w2 ^^^ te42 t.w3 ^^^ te43 t.w0 ^^^ te44 t.w1 ^^^ rk (base + 2))
    q3 := putu32 (te41 t.w3 ^^^ te42 t.w0 ^^^ te43 t.w1 ^^^ te44 t.w2 ^^^ rk (base + 3)) }

/-- `aes_128_encrypt` after `aes_encrypt_init`; `rk` is what was allocated. -/
def aes128Encrypt (rk : Nat → BitVec 32) (key plain : Bytes16) : Bytes16 :=
  rijndaelEncrypt (rijndaelKeySetupEnc rk key) plain

/-! ## 3. The tables and the standard's arithmetic -/

/-- What a table of all bytes has at a byte. -/
theorem getD_table {α : Type} {t : List α} {f : UInt8 → α}
    (h : t = (List.range 256).map fun i => f (UInt8.ofNat i)) (d : α) (b : UInt8) :
    t.getD b.toNat d = f b := by
  have hb : b.toNat < (List.range 256).length := by
    rw [List.length_range]
    exact b.toNat_lt
  rw [h, List.getD_eq_getElem _ _ (by rwa [List.length_map]), List.getElem_map,
    List.getElem_range, UInt8.ofNat_toNat]

/-- What a table made of another has at a byte. -/
theorem getD_map_table {α β : Type} {t : List α} (ht : t.length = 256) (f : α → β) (d : α) (e : β)
    (b : UInt8) : (t.map f).getD b.toNat e = f (t.getD b.toNat d) := by
  have hb : b.toNat < t.length := by
    rw [ht]
    exact b.toNat_lt
  rw [List.getD_eq_getElem _ _ (by rwa [List.length_map]), List.getElem_map,
    List.getD_eq_getElem _ _ hb]

theorem length_sboxTable : sboxTable.length = 256 := by decide +kernel

/-- What `mix_column` does to the bits of one byte. -/
theorem byte_shifts (b : UInt8) : add1b b ^^^ (b &&& 0x7f) <<< 1 = Aes.xtime b ∧
    ¬ (b &&& 0x7f) &&& 0x80 = 0x80 ∧ b <<< 1 &&& (0xfe : UInt8) = b <<< 1 := by
  revert b
  exact Aes.forall_byte (by decide +kernel)

theorem add1b_shift (b : UInt8) : add1b b ^^^ (b &&& 0x7f) <<< 1 = Aes.xtime b := (byte_shifts b).1

/-- Nothing is shifted in where the highest bit has been masked off. -/
theorem shiftIn_masked (prev cur : UInt8) : shiftIn (prev &&& 0x7f) cur = cur <<< 1 :=
  if_neg (byte_shifts prev).2.1

theorem shift_low (b : UInt8) : b <<< 1 &&& (0xfe : UInt8) = b <<< 1 := (byte_shifts b).2.2

/-- A column of a block. -/
def column (b : Block) (c : Nat) : Quad :=
  ⟨byte b (4 * c + 0), byte b (4 * c + 1), byte b (4 * c + 2), byte b (4 * c + 3)⟩

/-- A block of the standard in a buffer. -/
def bufferOf (b : Block) : Bytes16 := ⟨column b 0, column b 1, column b 2, column b 3⟩

theorem byteSub_bufferOf (b : Block) :
    byteSub (bufferOf b) = bufferOf (Aes.subBytes sbox b) := by
  simp only [byteSub, sboxQuad, bufferOf, column]
  rfl

theorem shiftRow_bufferOf (b : Block) : shiftRow (bufferOf b) = bufferOf (Aes.shiftRows b) := rfl

theorem xor128_bufferOf (a b : Block) :
    xor128 (bufferOf a) (bufferOf b) = bufferOf (Ccm.xor a b) := rfl

theorem mixColumn_eq (q : Quad) : mixColumn q =
    ⟨Aes.xtime q.b0 ^^^ (Aes.xtime q.b1 ^^^ q.b1) ^^^ q.b2 ^^^ q.b3,
      Aes.xtime q.b1 ^^^ (Aes.xtime q.b2 ^^^ q.b2) ^^^ q.b3 ^^^ q.b0,
      Aes.xtime q.b2 ^^^ (Aes.xtime q.b3 ^^^ q.b3) ^^^ q.b0 ^^^ q.b1,
      Aes.xtime q.b3 ^^^ (Aes.xtime q.b0 ^^^ q.b0) ^^^ q.b1 ^^^ q.b2⟩ := by
  simp only [mixColumn, xor32, shiftIn_masked, shift_low, add1b_shift, Quad.mk.injEq]
  refine ⟨?_, ?_, ?_, ?_⟩ <;> ac_rfl

theorem mixColumns_bufferOf (b : Block) :
    mixColumns (bufferOf b) = bufferOf (Aes.mixColumns b) := by
  simp only [mixColumns, bufferOf, column, mixColumn_eq, byte, Aes.mixColumns, Aes.mul_two,
    Aes.mul_three]
  rfl

theorem rconTable_eq {round : Nat} (h : round < 10) : rconTable.getD round 0 = Aes.rcon round := by
  have hall : ∀ r : Fin 10, rconTable.getD r.val 0 = Aes.rcon r.val := by decide +kernel
  exact hall ⟨round, h⟩

/-- The first column of a round key, with `sbox_key` and `rcon`. -/
theorem column_nextKey_first (n : Nat) (k : Block) : column (Aes.nextKey sbox n k) 0
    = xor32 (column k 0)
        ⟨sbox (column k 3).b1 ^^^ Aes.rcon n, sbox (column k 3).b2,
          sbox (column k 3).b3, sbox (column k 3).b0⟩ := by
  have hword : ∀ r < 4, byte (Aes.nextKey sbox n k) (4 * 0 + r)
      = byte k (4 * 0 + r) ^^^ Aes.keyWord sbox n k r := fun r hr => by
    rw [Aes.byte_nextKey_first _ _ _ hr, UInt8.xor_comm]
  simp only [column, xor32, Quad.mk.injEq]
  refine ⟨hword 0 (by decide), (hword 1 (by decide)).trans ?_, (hword 2 (by decide)).trans ?_,
    (hword 3 (by decide)).trans ?_⟩ <;> simp [Aes.keyWord]

theorem column_nextKey_next (n : Nat) (k : Block) {c : Nat} (hc : c + 1 < 4) :
    column (Aes.nextKey sbox n k) (c + 1)
      = xor32 (column k (c + 1)) (column (Aes.nextKey sbox n k) c) := by
  have hbyte : ∀ r < 4, byte (Aes.nextKey sbox n k) (4 * (c + 1) + r)
      = byte k (4 * (c + 1) + r) ^^^ byte (Aes.nextKey sbox n k) (4 * c + r) :=
    fun r hr => by rw [Aes.byte_nextKey_next _ _ _ hc hr, UInt8.xor_comm]
  simp only [column, xor32, Quad.mk.injEq]
  exact ⟨hbyte 0 (by decide), hbyte 1 (by decide), hbyte 2 (by decide), hbyte 3 (by decide)⟩

theorem nextKey_bufferOf (k : Block) {round : Nat} (h : round < 10) :
    nextKey (bufferOf k) round = bufferOf (Aes.nextKey sbox round k) := by
  simp only [bufferOf, column_nextKey_next _ _ (by decide : 0 + 1 < 4),
    column_nextKey_next _ _ (by decide : 1 + 1 < 4),
    column_nextKey_next _ _ (by decide : 2 + 1 < 4), column_nextKey_first]
  simp only [nextKey, xor32, rconTable_eq h, UInt8.xor_assoc]

theorem aesTurn_first (key data stale : Bytes16) :
    aesTurn data (stale, key) 0 = (xor128 key data, nextKey key 0) := if_pos rfl

theorem aesTurn_middle (data : Bytes16) (s : Bytes16 × Bytes16) {n : Nat} (h0 : n ≠ 0)
    (h : n ≠ 10) :
    aesTurn data s n = (xor128 (mixColumns (shiftRow (byteSub s.1))) s.2, nextKey s.2 n) := by
  rw [aesTurn, if_neg h0, if_neg h]

theorem aesTurn_last (data : Bytes16) (s : Bytes16 × Bytes16) :
    aesTurn data s 10 = (xor128 (shiftRow (byteSub s.1)) s.2, s.2) := by
  rw [aesTurn, if_neg (by decide), if_pos rfl]

/-- The loop after some of its turns: the block of the standard, and the next round key. -/
theorem aesTurn_run (key data stale : Block) {n : Nat} (h : n < 10) :
    (List.range (n + 1)).foldl (aesTurn (bufferOf data)) (bufferOf stale, bufferOf key)
      = (bufferOf (Aes.rounds sbox key n data),
          bufferOf (Aes.roundKey sbox key (n + 1))) := by
  induction n with
  | zero =>
    have hone : (List.range (0 + 1)).foldl (aesTurn (bufferOf data)) (bufferOf stale, bufferOf key)
      = aesTurn (bufferOf data) (bufferOf stale, bufferOf key) 0 := rfl
    rw [hone, aesTurn_first, nextKey_bufferOf key h, xor128_bufferOf, Ccm.xor_comm]
    rfl
  | succ n ih =>
    rw [List.range_succ, List.foldl_append, ih (by omega), List.foldl_cons, List.foldl_nil,
      aesTurn_middle _ _ (Nat.succ_ne_zero n) (by omega), byteSub_bufferOf, shiftRow_bufferOf,
      mixColumns_bufferOf, xor128_bufferOf, nextKey_bufferOf _ h]
    rfl

theorem aes128k128d_bufferOf (key data stale : Block) :
    aes128k128d (bufferOf key) (bufferOf data) (bufferOf stale)
      = bufferOf (Aes.encrypt sbox key data) := by
  rw [aes128k128d, List.range_succ, List.foldl_append, aesTurn_run _ _ _ (by decide : 9 < 10),
    List.foldl_cons, List.foldl_nil, aesTurn_last, byteSub_bufferOf, shiftRow_bufferOf,
    xor128_bufferOf]
  rfl

/-! ## 4. Words and the bytes in them -/

/-- Four bytes as a word, the first the most significant. -/
def wordOf (q : Quad) : BitVec 32 :=
  q.b0.toBitVec ++ q.b1.toBitVec ++ q.b2.toBitVec ++ q.b3.toBitVec

theorem wordOf_xor (p q : Quad) : wordOf p ^^^ wordOf q = wordOf (xor32 p q) := by
  simp only [wordOf, xor32, UInt8.toBitVec_xor]
  rw [← BitVec.xor_append, ← BitVec.xor_append, ← BitVec.xor_append]

theorem getLsbD_wordOf (q : Quad) (i : Nat) : (wordOf q).getLsbD i
    = if i < 8 then q.b3.toBitVec.getLsbD i
      else if i < 16 then q.b2.toBitVec.getLsbD (i - 8)
      else if i < 24 then q.b1.toBitVec.getLsbD (i - 16) else q.b0.toBitVec.getLsbD (i - 24) := by
  simp only [wordOf, BitVec.getLsbD_append]
  by_cases h8 : i < 8
  · simp only [if_pos h8]
  by_cases h16 : i < 16
  · simp only [if_neg h8, if_pos h16, if_pos (show i - 8 < 8 by omega)]
  by_cases h24 : i < 24
  · simp only [if_neg h8, if_neg h16, if_pos h24, if_neg (show ¬ i - 8 < 8 by omega),
      if_pos (show i - 16 < 8 by omega), Nat.sub_sub, Nat.reduceAdd]
  · simp only [if_neg h8, if_neg h16, if_neg h24, if_neg (show ¬ i - 8 < 8 by omega),
      if_neg (show ¬ i - 16 < 8 by omega), Nat.sub_sub, Nat.reduceAdd]

theorem getLsbD_byte (b : UInt8) {i : Nat} (h : 8 ≤ i) : b.toBitVec.getLsbD i = false :=
  BitVec.getLsbD_of_ge _ _ h

theorem getu32_eq (q : Quad) : getu32 q = wordOf q := by
  apply BitVec.eq_of_getLsbD_eq
  intro i hi
  rw [getLsbD_wordOf, getu32]
  simp only [BitVec.getLsbD_xor, BitVec.getLsbD_shiftLeft, BitVec.getLsbD_setWidth]
  rcases (by omega : i < 8 ∨ (8 ≤ i ∧ i < 16) ∨ (16 ≤ i ∧ i < 24) ∨ 24 ≤ i) with h | h | h | h
  · simp [h, hi, show i < 24 by omega, show i < 16 by omega]
  · simp [h, hi, show i < 24 by omega, show ¬ i < 8 by omega, show i - 8 < 32 by omega]
  · simp [h, hi, show ¬ i < 8 by omega, show ¬ i < 16 by omega, show i - 16 < 32 by omega,
      getLsbD_byte _ (show 8 ≤ i by omega), getLsbD_byte _ (show 8 ≤ i - 8 by omega)]
  · simp [hi, show ¬ i < 8 by omega, show ¬ i < 16 by omega, show ¬ i < 24 by omega,
      show i - 24 < 32 by omega, getLsbD_byte _ (show 8 ≤ i by omega),
      getLsbD_byte _ (show 8 ≤ i - 8 by omega), getLsbD_byte _ (show 8 ≤ i - 16 by omega)]

theorem toNat_wordOf (q : Quad) : (wordOf q).toNat
    = q.b0.toNat * 16777216 + q.b1.toNat * 65536 + q.b2.toNat * 256 + q.b3.toNat := by
  have happ : ∀ (n : Nat) (x : BitVec n) (b : UInt8),
      (x ++ b.toBitVec).toNat = x.toNat * 256 + b.toNat := fun n x b => by
    rw [BitVec.toNat_append, ← Nat.shiftLeft_add_eq_or_of_lt b.toBitVec.isLt, Nat.shiftLeft_eq]
    rfl
  simp only [wordOf, happ, UInt8.toNat_toBitVec]
  omega

/-- The bytes that a table is asked for. -/
theorem toNat_shift_and (x : BitVec 32) (k : Nat) :
    (x >>> k &&& 0xff#32).toNat = x.toNat / 2 ^ k % 256 := by
  rw [BitVec.toNat_and, BitVec.toNat_ushiftRight, Nat.shiftRight_eq_div_pow]
  exact Nat.and_two_pow_sub_one_eq_mod _ 8

theorem te0At_wordOf (q : Quad) : te0At (wordOf q) 24 = te0Table.getD q.b0.toNat 0
    ∧ te0At (wordOf q) 16 = te0Table.getD q.b1.toNat 0
    ∧ te0At (wordOf q) 8 = te0Table.getD q.b2.toNat 0
    ∧ te0At (wordOf q) 0 = te0Table.getD q.b3.toNat 0 := by
  have h0 := q.b0.toNat_lt
  have h1 := q.b1.toNat_lt
  have h2 := q.b2.toNat_lt
  have h3 := q.b3.toNat_lt
  simp only [te0At, toNat_shift_and, toNat_wordOf]
  refine ⟨congrArg (te0Table.getD · 0) ?_, congrArg (te0Table.getD · 0) ?_,
    congrArg (te0Table.getD · 0) ?_, congrArg (te0Table.getD · 0) ?_⟩ <;> omega

theorem putu32_wordOf (q : Quad) : putu32 (wordOf q) = q := by
  have h0 := q.b0.toNat_lt
  have h1 := q.b1.toNat_lt
  have h2 := q.b2.toNat_lt
  have h3 := q.b3.toNat_lt
  have hbyte : ∀ (x : BitVec 32) (b : UInt8), x.toNat % 256 = b.toNat → ⟨x.setWidth 8⟩ = b :=
    fun x b h => by
      apply UInt8.toNat_inj.mp
      simpa using h
  have e0 := hbyte (wordOf q >>> 24) q.b0 (by simp [Nat.shiftRight_eq_div_pow, toNat_wordOf]; omega)
  have e1 := hbyte (wordOf q >>> 16) q.b1 (by simp [Nat.shiftRight_eq_div_pow, toNat_wordOf]; omega)
  have e2 := hbyte (wordOf q >>> 8) q.b2 (by simp [Nat.shiftRight_eq_div_pow, toNat_wordOf]; omega)
  have e3 := hbyte (wordOf q) q.b3 (by rw [toNat_wordOf]; omega)
  rw [putu32, e0, e1, e2, e3]

theorem wordOf_and (p q : Quad) : wordOf p &&& wordOf q
    = wordOf ⟨p.b0 &&& q.b0, p.b1 &&& q.b1, p.b2 &&& q.b2, p.b3 &&& q.b3⟩ := by
  simp only [wordOf, UInt8.toBitVec_and]
  rw [← BitVec.and_append, ← BitVec.and_append, ← BitVec.and_append]

theorem wordOf_or (p q : Quad) : wordOf p ||| wordOf q
    = wordOf ⟨p.b0 ||| q.b0, p.b1 ||| q.b1, p.b2 ||| q.b2, p.b3 ||| q.b3⟩ := by
  simp only [wordOf, UInt8.toBitVec_or]
  rw [← BitVec.or_append, ← BitVec.or_append, ← BitVec.or_append]

theorem wordOf_shiftLeft (q : Quad) : wordOf q <<< 8 = wordOf ⟨q.b1, q.b2, q.b3, 0⟩ := by
  apply BitVec.eq_of_toNat_eq
  have h0 := q.b0.toNat_lt
  have h1 := q.b1.toNat_lt
  have h2 := q.b2.toNat_lt
  have h3 := q.b3.toNat_lt
  rw [BitVec.toNat_shiftLeft, toNat_wordOf, toNat_wordOf, Nat.shiftLeft_eq]
  simp only [UInt8.toNat_zero]
  omega

theorem wordOf_shiftRight (q : Quad) : wordOf q >>> 8 = wordOf ⟨0, q.b0, q.b1, q.b2⟩ := by
  apply BitVec.eq_of_toNat_eq
  have h0 := q.b0.toNat_lt
  have h1 := q.b1.toNat_lt
  have h2 := q.b2.toNat_lt
  have h3 := q.b3.toNat_lt
  rw [BitVec.toNat_ushiftRight, toNat_wordOf, toNat_wordOf, Nat.shiftRight_eq_div_pow]
  simp only [UInt8.toNat_zero]
  omega

/-- A word turned by one, two and three bytes. -/
theorem rotr_wordOf (q : Quad) : rotr (wordOf q) 8 = wordOf ⟨q.b3, q.b0, q.b1, q.b2⟩
    ∧ rotr (wordOf q) 16 = wordOf ⟨q.b2, q.b3, q.b0, q.b1⟩
    ∧ rotr (wordOf q) 24 = wordOf ⟨q.b1, q.b2, q.b3, q.b0⟩ := by
  have hleft2 : wordOf q <<< 16 = wordOf ⟨q.b2, q.b3, 0, 0⟩ := by
    rw [BitVec.shiftLeft_add _ 8 8, wordOf_shiftLeft, wordOf_shiftLeft]
  have hleft3 : wordOf q <<< 24 = wordOf ⟨q.b3, 0, 0, 0⟩ := by
    rw [BitVec.shiftLeft_add _ 16 8, hleft2, wordOf_shiftLeft]
  have hright2 : wordOf q >>> 16 = wordOf ⟨0, 0, q.b0, q.b1⟩ := by
    rw [BitVec.shiftRight_add _ 8 8, wordOf_shiftRight, wordOf_shiftRight]
  have hright3 : wordOf q >>> 24 = wordOf ⟨0, 0, 0, q.b0⟩ := by
    rw [BitVec.shiftRight_add _ 16 8, hright2, wordOf_shiftRight]
  refine ⟨?_, ?_, ?_⟩
  · rw [rotr, wordOf_shiftRight, hleft3, wordOf_or]
    simp only [UInt8.zero_or, UInt8.or_zero]
  · rw [rotr, hright2, hleft2, wordOf_or]
    simp only [UInt8.zero_or, UInt8.or_zero]
  · rw [rotr, hright3, wordOf_shiftLeft, wordOf_or]
    simp only [UInt8.zero_or, UInt8.or_zero]

/-- One byte of a word. -/
theorem wordOf_masked (q : Quad) : wordOf q &&& 0xff000000#32 = wordOf ⟨q.b0, 0, 0, 0⟩
    ∧ wordOf q &&& 0x00ff0000#32 = wordOf ⟨0, q.b1, 0, 0⟩
    ∧ wordOf q &&& 0x0000ff00#32 = wordOf ⟨0, 0, q.b2, 0⟩
    ∧ wordOf q &&& 0x000000ff#32 = wordOf ⟨0, 0, 0, q.b3⟩ := by
  have hall : ∀ b : UInt8, b &&& 0xff = b := fun b => UInt8.and_neg_one
  refine ⟨?_, ?_, ?_, ?_⟩
  · refine (wordOf_and q ⟨0xff, 0, 0, 0⟩).trans ?_
    simp only [hall, UInt8.and_zero]
  · refine (wordOf_and q ⟨0, 0xff, 0, 0⟩).trans ?_
    simp only [hall, UInt8.and_zero]
  · refine (wordOf_and q ⟨0, 0, 0xff, 0⟩).trans ?_
    simp only [hall, UInt8.and_zero]
  · refine (wordOf_and q ⟨0, 0, 0, 0xff⟩).trans ?_
    simp only [hall, UInt8.and_zero]

/-! ## 5. One table for substitution and columns -/

/-- What is in the table: a byte substituted, times 2, 1, 1 and 3. -/
theorem te0Table_eq (b : UInt8) : te0Table.getD b.toNat 0
    = wordOf ⟨Aes.xtime (sbox b), sbox b, sbox b, Aes.xtime (sbox b) ^^^ sbox b⟩ := by
  have htable : te0Table
      = sboxTable.map fun s => wordOf ⟨Aes.xtime s, s, s, Aes.xtime s ^^^ s⟩ := by
    decide +kernel
  rw [htable, getD_map_table length_sboxTable _ 0, sbox]

/-- The entry turned, and its bytes alone. -/
theorem te0Table_parts (b : UInt8) :
    rotr (te0Table.getD b.toNat 0) 8
        = wordOf ⟨Aes.xtime (sbox b) ^^^ sbox b, Aes.xtime (sbox b), sbox b, sbox b⟩
      ∧ rotr (te0Table.getD b.toNat 0) 16
        = wordOf ⟨sbox b, Aes.xtime (sbox b) ^^^ sbox b, Aes.xtime (sbox b), sbox b⟩
      ∧ rotr (te0Table.getD b.toNat 0) 24
        = wordOf ⟨sbox b, sbox b, Aes.xtime (sbox b) ^^^ sbox b, Aes.xtime (sbox b)⟩
      ∧ te0Table.getD b.toNat 0 <<< 8 &&& 0xff000000#32 = wordOf ⟨sbox b, 0, 0, 0⟩
      ∧ te0Table.getD b.toNat 0 &&& 0x00ff0000#32 = wordOf ⟨0, sbox b, 0, 0⟩
      ∧ te0Table.getD b.toNat 0 &&& 0x0000ff00#32 = wordOf ⟨0, 0, sbox b, 0⟩
      ∧ te0Table.getD b.toNat 0 >>> 8 &&& 0x000000ff#32 = wordOf ⟨0, 0, 0, sbox b⟩ := by
  rw [te0Table_eq, wordOf_shiftLeft, wordOf_shiftRight]
  exact ⟨(rotr_wordOf _).1, (rotr_wordOf _).2.1, (rotr_wordOf _).2.2, (wordOf_masked _).1,
    (wordOf_masked _).2.1, (wordOf_masked _).2.2.1, (wordOf_masked _).2.2.2⟩

/-- A column of a round: four table entries and a key word. -/
theorem te_round (a b c d k : Quad) :
    te0 (wordOf a) ^^^ te1 (wordOf b) ^^^ te2 (wordOf c) ^^^ te3 (wordOf d) ^^^ wordOf k
      = wordOf (xor32 (mixColumn ⟨sbox a.b0, sbox b.b1, sbox c.b2, sbox d.b3⟩) k) := by
  simp only [te0, te1, te2, te3, (te0At_wordOf _).1, (te0At_wordOf _).2.1, (te0At_wordOf _).2.2.1,
    (te0At_wordOf _).2.2.2, te0Table_eq a.b0, (te0Table_parts _).1, (te0Table_parts _).2.1,
    (te0Table_parts _).2.2.1, wordOf_xor, mixColumn_eq]
  simp only [xor32]
  congr 2 <;> ac_rfl

/-- A column of the last round. -/
theorem te_last (a b c d k : Quad) :
    te41 (wordOf a) ^^^ te42 (wordOf b) ^^^ te43 (wordOf c) ^^^ te44 (wordOf d) ^^^ wordOf k
      = wordOf (xor32 ⟨sbox a.b0, sbox b.b1, sbox c.b2, sbox d.b3⟩ k) := by
  simp only [te41, te42, te43, te44, (te0At_wordOf _).1, (te0At_wordOf _).2.1,
    (te0At_wordOf _).2.2.1, (te0At_wordOf _).2.2.2, (te0Table_parts _).2.2.2.1,
    (te0Table_parts _).2.2.2.2.1, (te0Table_parts _).2.2.2.2.2.1, (te0Table_parts _).2.2.2.2.2.2,
    wordOf_xor]
  simp only [xor32, UInt8.xor_zero, UInt8.zero_xor]

/-- `sbox_key` of a round key. -/
theorem te_key (t : Quad) :
    te421 (wordOf t) ^^^ te432 (wordOf t) ^^^ te443 (wordOf t) ^^^ te414 (wordOf t)
      = wordOf ⟨sbox t.b1, sbox t.b2, sbox t.b3, sbox t.b0⟩ := by
  simp only [te421, te432, te443, te414, (te0At_wordOf _).1, (te0At_wordOf _).2.1,
    (te0At_wordOf _).2.2.1, (te0At_wordOf _).2.2.2, (te0Table_parts _).2.2.2.1,
    (te0Table_parts _).2.2.2.2.1, (te0Table_parts _).2.2.2.2.2.1, (te0Table_parts _).2.2.2.2.2.2,
    wordOf_xor]
  simp only [xor32, UInt8.xor_zero, UInt8.zero_xor]

theorem rconWord_eq {i : Nat} (h : i < 10) : rconWord i = wordOf ⟨rconTable.getD i 0, 0, 0, 0⟩ := by
  have hall : ∀ r : Fin 10, rconWord r.val = wordOf ⟨rconTable.getD r.val 0, 0, 0, 0⟩ := by
    decide +kernel
  exact hall ⟨i, h⟩

/-! ## 6. The words of a block, and of the round keys -/

/-- The state that shows a block. -/
def wordsOf (b : Bytes16) : Words := ⟨wordOf b.q0, wordOf b.q1, wordOf b.q2, wordOf b.q3⟩

/-- The words of a round key are where it is looked for. -/
structure KeyAt (rk : Nat → BitVec 32) (n : Nat) (k : Bytes16) : Prop where
  w0 : rk (4 * n) = wordOf k.q0
  w1 : rk (4 * n + 1) = wordOf k.q1
  w2 : rk (4 * n + 2) = wordOf k.q2
  w3 : rk (4 * n + 3) = wordOf k.q3

variable {rk : Nat → BitVec 32} {n : Nat} {k : Bytes16}

theorem rijndaelRound_wordsOf (h : KeyAt rk n k) (b : Bytes16) :
    rijndaelRound rk (4 * n) (wordsOf b)
      = wordsOf (xor128 (mixColumns (shiftRow (byteSub b))) k) := by
  simp only [rijndaelRound, wordsOf, h.w0, h.w1, h.w2, h.w3, te_round]
  rfl

theorem KeyAt.turn_same {i : Nat} (h : KeyAt rk n k) (hi : n ≤ i) :
    KeyAt (keySetupTurn rk i) n k := by
  have hsame : ∀ c < 4, keySetupTurn rk i (4 * n + c) = rk (4 * n + c) := fun c hc => by
    simp only [keySetupTurn]
    rw [if_neg (by omega), if_neg (by omega), if_neg (by omega), if_neg (by omega)]
  exact ⟨(hsame 0 (by decide)).trans h.w0, (hsame 1 (by decide)).trans h.w1,
    (hsame 2 (by decide)).trans h.w2, (hsame 3 (by decide)).trans h.w3⟩

theorem KeyAt.turn_next (h : KeyAt rk n k) (hn : n < 10) :
    KeyAt (keySetupTurn rk n) (n + 1) (nextKey k n) := by
  have h4 : rk (4 * n) ^^^ te421 (wordOf k.q3) ^^^ te432 (wordOf k.q3) ^^^ te443 (wordOf k.q3)
      ^^^ te414 (wordOf k.q3) ^^^ rconWord n = wordOf (nextKey k n).q0 := by
    have hkey := te_key k.q3
    rw [BitVec.xor_assoc, BitVec.xor_assoc] at hkey
    rw [h.w0, BitVec.xor_assoc (wordOf k.q0), BitVec.xor_assoc (wordOf k.q0),
      BitVec.xor_assoc (wordOf k.q0), te_key, rconWord_eq hn, wordOf_xor, wordOf_xor]
    simp only [nextKey, xor32, UInt8.xor_zero]
  have h5 : rk (4 * n + 1) ^^^ wordOf (nextKey k n).q0 = wordOf (nextKey k n).q1 := by
    rw [h.w1, wordOf_xor]
    rfl
  have h6 : rk (4 * n + 2) ^^^ wordOf (nextKey k n).q1 = wordOf (nextKey k n).q2 := by
    rw [h.w2, wordOf_xor]
    rfl
  have h7 : wordOf k.q3 ^^^ wordOf (nextKey k n).q2 = wordOf (nextKey k n).q3 := by
    rw [wordOf_xor]
    rfl
  constructor <;> simp [keySetupTurn, h.w3, h4, h5, h6, h7, Nat.mul_add]

/-- **The key setup lays all eleven round keys out**, whatever was allocated. -/
theorem rijndaelKeySetupEnc_keys (rk : Nat → BitVec 32) (key : Block) {n : Nat} (hn : n ≤ 10) :
    KeyAt (rijndaelKeySetupEnc rk (bufferOf key)) n
      (bufferOf (Aes.roundKey sbox key n)) := by
  have hrun : ∀ m ≤ 10, ∀ n ≤ m, KeyAt
      ((List.range m).foldl keySetupTurn (keyStart rk (bufferOf key))) n
      (bufferOf (Aes.roundKey sbox key n)) := by
    intro m
    induction m with
    | zero =>
      intro _ n hn
      obtain rfl := Nat.le_zero.mp hn
      exact ⟨getu32_eq _, getu32_eq _, getu32_eq _, getu32_eq _⟩
    | succ m ih =>
      intro hm n hn
      rw [List.range_succ, List.foldl_append]
      rcases Nat.lt_or_ge m n with hlt | hle
      · obtain rfl : n = m + 1 := by omega
        have hnext := (ih (by omega) m le_rfl).turn_next (by omega)
        rwa [nextKey_bufferOf _ (by omega)] at hnext
      · exact (ih (by omega) n hle).turn_same hle
  exact hrun 10 le_rfl n hn

theorem rijndaelLoop_wordsOf {rk : Nat → BitVec 32} {key : Block}
    (hkeys : ∀ n ≤ 10, KeyAt rk n (bufferOf (Aes.roundKey sbox key n))) (m : Block)
    (r : Nat) : ∀ j, 2 * (j + r) + 1 ≤ 9 →
      rijndaelLoop rk r (8 * j) (wordsOf (bufferOf (Aes.rounds sbox key (2 * j) m)))
        = (wordsOf (bufferOf (Aes.rounds sbox key (2 * (j + r) + 1) m)),
            8 * (j + r) + 8) := by
  have hround : ∀ n < 10, rijndaelRound rk (4 * (n + 1))
      (wordsOf (bufferOf (Aes.rounds sbox key n m)))
        = wordsOf (bufferOf (Aes.rounds sbox key (n + 1) m)) := fun n hn => by
    rw [rijndaelRound_wordsOf (hkeys (n + 1) hn), byteSub_bufferOf, shiftRow_bufferOf,
      mixColumns_bufferOf, xor128_bufferOf]
    rfl
  induction r with
  | zero =>
    intro j hj
    have hbase : 8 * j + 4 = 4 * (2 * j + 1) := by omega
    rw [rijndaelLoop, hbase, hround (2 * j) (by omega)]
    rfl
  | succ r ih =>
    intro j hj
    have hbase : 8 * j + 4 = 4 * (2 * j + 1) := by omega
    have hnext : 8 * j + 8 = 4 * (2 * j + 1 + 1) := by omega
    have hcount : j + 1 + r = j + (r + 1) := by omega
    have hturn := ih (j + 1) (by omega)
    rw [rijndaelLoop, hbase, hround (2 * j) (by omega), hnext, hround (2 * j + 1) (by omega)]
    rwa [hcount, show 8 * (j + 1) = 4 * (2 * j + 1 + 1) by omega] at hturn

theorem rijndaelEncrypt_bufferOf {rk : Nat → BitVec 32} {key : Block}
    (hkeys : ∀ n ≤ 10, KeyAt rk n (bufferOf (Aes.roundKey sbox key n))) (m : Block) :
    rijndaelEncrypt rk (bufferOf m) = bufferOf (Aes.encrypt sbox key m) := by
  have h0 := hkeys 0 (by decide)
  have h10 := hkeys 10 (by decide)
  have hstart : (⟨getu32 (bufferOf m).q0 ^^^ rk 0, getu32 (bufferOf m).q1 ^^^ rk 1,
      getu32 (bufferOf m).q2 ^^^ rk 2, getu32 (bufferOf m).q3 ^^^ rk 3⟩ : Words)
      = wordsOf (bufferOf (Aes.rounds sbox key (2 * 0) m)) := by
    have hfirst : bufferOf (Aes.rounds sbox key (2 * 0) m)
        = xor128 (bufferOf m) (bufferOf (Aes.roundKey sbox key 0)) := rfl
    rw [hfirst, getu32_eq, getu32_eq, getu32_eq, getu32_eq, h0.w0, h0.w1, h0.w2, h0.w3, wordOf_xor,
      wordOf_xor, wordOf_xor, wordOf_xor]
    rfl
  have hlast : bufferOf (Aes.encrypt sbox key m)
      = xor128 (shiftRow (byteSub (bufferOf (Aes.rounds sbox key 9 m))))
          (bufferOf (Aes.roundKey sbox key 10)) := by
    rw [byteSub_bufferOf, shiftRow_bufferOf, xor128_bufferOf]
    rfl
  rw [hlast, rijndaelEncrypt]
  simp only [hstart]
  rw [rijndaelLoop_wordsOf hkeys m 4 0 (by decide)]
  simp only [wordsOf, h10.w0, h10.w1, h10.w2, h10.w3, te_last, putu32_wordOf]
  rfl

/-! ## 7. The two are one cipher -/

/-- A buffer as a block of the standard. -/
def blockOf (b : Bytes16) : Block := fun i =>
  [b.q0.b0, b.q0.b1, b.q0.b2, b.q0.b3, b.q1.b0, b.q1.b1, b.q1.b2, b.q1.b3,
    b.q2.b0, b.q2.b1, b.q2.b2, b.q2.b3, b.q3.b0, b.q3.b1, b.q3.b2, b.q3.b3].getD i.val 0

theorem bufferOf_blockOf (b : Bytes16) : bufferOf (blockOf b) = b := rfl

/-- The table is the substitution of the standard. -/
theorem sbox_eq : sbox = Aes.subByte := by
  let affine (b : UInt8) : UInt8 :=
    b ^^^ Aes.turn b 1 ^^^ Aes.turn b 2 ^^^ Aes.turn b 3 ^^^ Aes.turn b 4 ^^^ 0x63
  have htable : sboxTable = (List.range 256).map fun i =>
      affine (UInt8.ofNat (Aes.invNat (UInt8.ofNat i).toNat)) := by
    decide +kernel
  funext a
  refine (getD_table (f := fun a => affine (UInt8.ofNat (Aes.invNat a.toNat))) htable 0 a).trans ?_
  rw [Aes.subByte, ← Aes.toNat_inv, UInt8.ofNat_toNat]

theorem aes128k128d_eq (key data stale : Bytes16) : aes128k128d key data stale
    = bufferOf (Aes.encrypt Aes.subByte (blockOf key) (blockOf data)) := by
  rw [← sbox_eq]
  exact aes128k128d_bufferOf (blockOf key) (blockOf data) (blockOf stale)

theorem rijndael_eq (rk : Nat → BitVec 32) (key data : Bytes16) : aes128Encrypt rk key data
    = bufferOf (Aes.encrypt Aes.subByte (blockOf key) (blockOf data)) := by
  rw [← sbox_eq]
  exact rijndaelEncrypt_bufferOf (fun _ hn => rijndaelKeySetupEnc_keys rk (blockOf key) hn)
    (blockOf data)

/-- **The two implementations agree**, for every key and every block, whatever the buffers hold
before; and what they agree on is the standard's cipher. -/
theorem aes_implementations_agree (rk : Nat → BitVec 32) (key data stale : Bytes16) :
    aes128k128d key data stale = aes128Encrypt rk key data ∧
      aes128Encrypt rk key data
        = bufferOf (Aes.encrypt Aes.subByte (blockOf key) (blockOf data)) :=
  ⟨(aes128k128d_eq key data stale).trans (rijndael_eq rk key data).symm, rijndael_eq rk key data⟩

/-- `sbox_table` and `Td4s` are tables of a map and its inverse. -/
theorem subByte_inverse : Function.LeftInverse (fun b => td4s.getD b.toNat 0) Aes.subByte ∧
    Function.RightInverse (fun b => td4s.getD b.toNat 0) Aes.subByte := by
  have htable : sboxTable.map (fun s => td4s.getD s.toNat 0)
      = (List.range 256).map fun i => UInt8.ofNat i := by
    decide +kernel
  have hleft : Function.LeftInverse (fun b : UInt8 => td4s.getD b.toNat 0) Aes.subByte := by
    rw [← sbox_eq]
    intro b
    show td4s.getD (sbox b).toNat 0 = b
    rw [sbox, ← getD_map_table length_sboxTable (fun s => td4s.getD s.toNat 0) 0 0]
    exact getD_table (f := id) htable 0 b
  -- a map of finitely many bytes that can be undone reaches all of them
  have : Finite UInt8 := Finite.of_injective UInt8.toFin fun _ _ h => UInt8.toFin_inj.mp h
  exact ⟨hleft, hleft.rightInverse_of_surjective (Finite.surjective_of_injective hleft.injective)⟩

theorem blockOf_bufferOf (b : Block) : blockOf (bufferOf b) = b := by
  funext i
  fin_cases i <;> rfl

theorem bufferOf_bijective : Function.Bijective bufferOf :=
  Function.bijective_iff_has_inverse.mpr ⟨blockOf, blockOf_bufferOf, bufferOf_blockOf⟩

/-- **Each implementation is a permutation of the blocks under every key.** -/
theorem aes_bijective (rk : Nat → BitVec 32) (key stale : Bytes16) :
    Function.Bijective (fun data => aes128k128d key data stale) ∧
      Function.Bijective (aes128Encrypt rk key) := by
  have hcipher : Function.Bijective fun data =>
      bufferOf (Aes.encrypt Aes.subByte (blockOf key) (blockOf data)) := by
    have hblock : Function.Bijective blockOf :=
      Function.bijective_iff_has_inverse.mpr ⟨bufferOf, bufferOf_blockOf, blockOf_bufferOf⟩
    have hencrypt := Aes.encrypt_bijective subByte_inverse.1 subByte_inverse.2 (blockOf key)
    exact bufferOf_bijective.comp (hencrypt.comp hblock)
  exact ⟨(funext fun data => aes128k128d_eq key data stale) ▸ hcipher,
    (funext fun data => rijndael_eq rk key data) ▸ hcipher⟩

end Rtl8723bs
