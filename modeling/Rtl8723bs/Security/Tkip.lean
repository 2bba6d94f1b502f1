/-
# RC4 keys of TKIP, and the checksum of WEP and TKIP

`phase1` and `phase2` mix the temporal key, the transmitter's address and the TSC into an RC4 key
of sixteen bytes; the S-box of the mixing is a table.  `getcrc32` is CRC-32 by a table that
`crc32_init` computes with the bits in reverse (`getcrc32_eq`).
-/
import Rtl8723bs.Lib.Bytes
import Rtl8723bs.Lib.Crc32
import Rtl8723bs.Security.Wep

namespace Rtl8723bs

/-! ## 1. `getcrc32` -/

/-- `CRC32_POLY`. -/
def crc32Poly : BitVec 32 := 0x04c11db7#32

/-- `crc32_reverseBit`. -/
def crc32ReverseBit (data : UInt8) : UInt8 :=
  ((data <<< 7) &&& (0x80 : UInt8)) ||| ((data <<< 5) &&& (0x40 : UInt8)) |||
    ((data <<< 3) &&& (0x20 : UInt8)) ||| ((data <<< 1) &&& (0x10 : UInt8)) |||
    ((data >>> 1) &&& (0x08 : UInt8)) ||| ((data >>> 3) &&& (0x04 : UInt8)) |||
    ((data >>> 5) &&& (0x02 : UInt8)) ||| ((data >>> 7) &&& (0x01 : UInt8))

/-- The inner loop of `crc32_init`, for `j` rounds. -/
def crc32InitLoop : Nat → BitVec 32 → BitVec 32
  | 0, c => c
  | j + 1, c =>
    crc32InitLoop j (if c &&& 0x80000000#32 ≠ 0#32 then (c <<< 1) ^^^ crc32Poly else c <<< 1)

/-- Byte `p[k]` of a `u32`, little-endian. -/
def u32Byte (c : BitVec 32) (k : Nat) : UInt8 := ⟨(c >>> (8 * k)).setWidth 8⟩

/-- A `u32` of four bytes, little-endian. -/
def u32OfBytes (b0 b1 b2 b3 : UInt8) : BitVec 32 :=
  b0.toBitVec.setWidth 32 ||| (b1.toBitVec.setWidth 32 <<< 8) |||
    (b2.toBitVec.setWidth 32 <<< 16) ||| (b3.toBitVec.setWidth 32 <<< 24)

/-- `crc32_table[i]`, as `crc32_init` makes it. -/
def crc32Table (i : UInt8) : BitVec 32 :=
  let k := crc32ReverseBit i
  let c := crc32InitLoop 8 (k.toBitVec.setWidth 32 <<< 24)
  u32OfBytes (crc32ReverseBit (u32Byte c 3)) (crc32ReverseBit (u32Byte c 2))
    (crc32ReverseBit (u32Byte c 1)) (crc32ReverseBit (u32Byte c 0))

/-- `getcrc32`. -/
def getcrc32 (buf : List UInt8) : BitVec 32 :=
  ~~~ buf.foldl (fun (crc : BitVec 32) p =>
    crc32Table ⟨(crc ^^^ p.toBitVec.setWidth 32).setWidth 8⟩ ^^^ (crc >>> 8)) 0xffffffff#32

/-- The table has the remainder of each byte. -/
theorem crc32Table_eq (i : UInt8) :
    crc32Table i = Crc32.steps 8 (i.toBitVec.setWidth 32) := by
  exact UInt8.forall_byte (P := fun i => crc32Table i = Crc32.steps 8 (i.toBitVec.setWidth 32))
    (by decide +kernel) i

/-- **`getcrc32` is CRC-32.** -/
theorem getcrc32_eq (buf : List UInt8) : getcrc32 buf = Crc32.crc32 buf :=
  (Crc32.crc32_eq_table crc32Table_eq buf).symm

/-- `*((u32 *)crc) = cpu_to_le32(getcrc32(..))`. -/
def icvBytes (buf : List UInt8) : List UInt8 :=
  let c := getcrc32 buf
  [u32Byte c 0, u32Byte c 1, u32Byte c 2, u32Byte c 3]

theorem length_icvBytes (buf : List UInt8) : (icvBytes buf).length = 4 := rfl

/-! ## 2. The S-box -/

/-- `Sbox1[0]`. -/
def sbox1Lo : Array UInt16 :=
  #[
    0xc6a5, 0xf884, 0xee99, 0xf68d, 0xff0d, 0xd6bd, 0xdeb1, 0x9154,
    0x6050, 0x0203, 0xcea9, 0x567d, 0xe719, 0xb562, 0x4de6, 0xec9a,
    0x8f45, 0x1f9d, 0x8940, 0xfa87, 0xef15, 0xb2eb, 0x8ec9, 0xfb0b,
    0x41ec, 0xb367, 0x5ffd, 0x45ea, 0x23bf, 0x53f7, 0xe496, 0x9b5b,
    0x75c2, 0xe11c, 0x3dae, 0x4c6a, 0x6c5a, 0x7e41, 0xf502, 0x834f,
    0x685c, 0x51f4, 0xd134, 0xf908, 0xe293, 0xab73, 0x6253, 0x2a3f,
    0x080c, 0x9552, 0x4665, 0x9d5e, 0x3028, 0x37a1, 0x0a0f, 0x2fb5,
    0x0e09, 0x2436, 0x1b9b, 0xdf3d, 0xcd26, 0x4e69, 0x7fcd, 0xea9f,
    0x121b, 0x1d9e, 0x5874, 0x342e, 0x362d, 0xdcb2, 0xb4ee, 0x5bfb,
    0xa4f6, 0x764d, 0xb761, 0x7dce, 0x527b, 0xdd3e, 0x5e71, 0x1397,
    0xa6f5, 0xb968, 0x0000, 0xc12c, 0x4060, 0xe31f, 0x79c8, 0xb6ed,
    0xd4be, 0x8d46, 0x67d9, 0x724b, 0x94de, 0x98d4, 0xb0e8, 0x854a,
    0xbb6b, 0xc52a, 0x4fe5, 0xed16, 0x86c5, 0x9ad7, 0x6655, 0x1194,
    0x8acf, 0xe910, 0x0406, 0xfe81, 0xa0f0, 0x7844, 0x25ba, 0x4be3,
    0xa2f3, 0x5dfe, 0x80c0, 0x058a, 0x3fad, 0x21bc, 0x7048, 0xf104,
    0x63df, 0x77c1, 0xaf75, 0x4263, 0x2030, 0xe51a, 0xfd0e, 0xbf6d,
    0x814c, 0x1814, 0x2635, 0xc32f, 0xbee1, 0x35a2, 0x88cc, 0x2e39,
    0x9357, 0x55f2, 0xfc82, 0x7a47, 0xc8ac, 0xbae7, 0x322b, 0xe695,
    0xc0a0, 0x1998, 0x9ed1, 0xa37f, 0x4466, 0x547e, 0x3bab, 0x0b83,
    0x8cca, 0xc729, 0x6bd3, 0x283c, 0xa779, 0xbce2, 0x161d, 0xad76,
    0xdb3b, 0x6456, 0x744e, 0x141e, 0x92db, 0x0c0a, 0x486c, 0xb8e4,
    0x9f5d, 0xbd6e, 0x43ef, 0xc4a6, 0x39a8, 0x31a4, 0xd337, 0xf28b,
    0xd532, 0x8b43, 0x6e59, 0xdab7, 0x018c, 0xb164, 0x9cd2, 0x49e0,
    0xd8b4, 0xacfa, 0xf307, 0xcf25, 0xcaaf, 0xf48e, 0x47e9, 0x1018,
    0x6fd5, 0xf088, 0x4a6f, 0x5c72, 0x3824, 0x57f1, 0x73c7, 0x9751,
    0xcb23, 0xa17c, 0xe89c, 0x3e21, 0x96dd, 0x61dc, 0x0d86, 0x0f85,
    0xe090, 0x7c42, 0x71c4, 0xccaa, 0x90d8, 0x0605, 0xf701, 0x1c12,
    0xc2a3, 0x6a5f, 0xaef9, 0x69d0, 0x1791, 0x9958, 0x3a27, 0x27b9,
    0xd938, 0xeb13, 0x2bb3, 0x2233, 0xd2bb, 0xa970, 0x0789, 0x33a7,
    0x2db6, 0x3c22, 0x1592, 0xc920, 0x8749, 0xaaff, 0x5078, 0xa57a,
    0x038f, 0x59f8, 0x0980, 0x1a17, 0x65da, 0xd731, 0x84c6, 0xd0b8,
    0x82c3, 0x29b0, 0x5a77, 0x1e11, 0x7bcb, 0xa8fc, 0x6dd6, 0x2c3a]

/-- `Sbox1[1]`, the same with the bytes of each entry swapped. -/
def sbox1Hi : Array UInt16 :=
  #[
    0xa5c6, 0x84f8, 0x99ee, 0x8df6, 0x0dff, 0xbdd6, 0xb1de, 0x5491,
    0x5060, 0x0302, 0xa9ce, 0x7d56, 0x19e7, 0x62b5, 0xe64d, 0x9aec,
    0x458f, 0x9d1f, 0x4089, 0x87fa, 0x15ef, 0xebb2, 0xc98e, 0x0bfb,
    0xec41, 0x67b3, 0xfd5f, 0xea45, 0xbf23, 0xf753, 0x96e4, 0x5b9b,
    0xc275, 0x1ce1, 0xae3d, 0x6a4c, 0x5a6c, 0x417e, 0x02f5, 0x4f83,
    0x5c68, 0xf451, 0x34d1, 0x08f9, 0x93e2, 0x73ab, 0x5362, 0x3f2a,
    0x0c08, 0x5295, 0x6546, 0x5e9d, 0x2830, 0xa137, 0x0f0a, 0xb52f,
    0x090e, 0x3624, 0x9b1b, 0x3ddf, 0x26cd, 0x694e, 0xcd7f, 0x9fea,
    0x1b12, 0x9e1d, 0x7458, 0x2e34, 0x2d36, 0xb2dc, 0xeeb4, 0xfb5b,
    0xf6a4, 0x4d76, 0x61b7, 0xce7d, 0x7b52, 0x3edd, 0x715e, 0x9713,
    0xf5a6, 0x68b9, 0x0000, 0x2cc1, 0x6040, 0x1fe3, 0xc879, 0xedb6,
    0xbed4, 0x468d, 0xd967, 0x4b72, 0xde94, 0xd498, 0xe8b0, 0x4a85,
    0x6bbb, 0x2ac5, 0xe54f, 0x16ed, 0xc586, 0xd79a, 0x5566, 0x9411,
    0xcf8a, 0x10e9, 0x0604, 0x81fe, 0xf0a0, 0x4478, 0xba25, 0xe34b,
    0xf3a2, 0xfe5d, 0xc080, 0x8a05, 0xad3f, 0xbc21, 0x4870, 0x04f1,
    0xdf63, 0xc177, 0x75af, 0x6342, 0x3020, 0x1ae5, 0x0efd, 0x6dbf,
    0x4c81, 0x1418, 0x3526, 0x2fc3, 0xe1be, 0xa235, 0xcc88, 0x392e,
    0x5793, 0xf255, 0x82fc, 0x477a, 0xacc8, 0xe7ba, 0x2b32, 0x95e6,
    0xa0c0, 0x9819, 0xd19e, 0x7fa3, 0x6644, 0x7e54, 0xab3b, 0x830b,
    0xca8c, 0x29c7, 0xd36b, 0x3c28, 0x79a7, 0xe2bc, 0x1d16, 0x76ad,
    0x3bdb, 0x5664, 0x4e74, 0x1e14, 0xdb92, 0x0a0c, 0x6c48, 0xe4b8,
    0x5d9f, 0x6ebd, 0xef43, 0xa6c4, 0xa839, 0xa431, 0x37d3, 0x8bf2,
    0x32d5, 0x438b, 0x596e, 0xb7da, 0x8c01, 0x64b1, 0xd29c, 0xe049,
    0xb4d8, 0xfaac, 0x07f3, 0x25cf, 0xafca, 0x8ef4, 0xe947, 0x1810,
    0xd56f, 0x88f0, 0x6f4a, 0x725c, 0x2438, 0xf157, 0xc773, 0x5197,
    0x23cb, 0x7ca1, 0x9ce8, 0x213e, 0xdd96, 0xdc61, 0x860d, 0x850f,
    0x90e0, 0x427c, 0xc471, 0xaacc, 0xd890, 0x0506, 0x01f7, 0x121c,
    0xa3c2, 0x5f6a, 0xf9ae, 0xd069, 0x9117, 0x5899, 0x273a, 0xb927,
    0x38d9, 0x13eb, 0xb32b, 0x3322, 0xbbd2, 0x70a9, 0x8907, 0xa733,
    0xb62d, 0x223c, 0x9215, 0x20c9, 0x4987, 0xffaa, 0x7850, 0x7aa5,
    0x8f03, 0xf859, 0x8009, 0x171a, 0xda65, 0x31d7, 0xc684, 0xb8d0,
    0xc382, 0xb029, 0x775a, 0x111e, 0xcb7b, 0xfca8, 0xd66d, 0x3a2c]

/-- `Lo8`. -/
def lo8 (v16 : UInt16) : UInt8 := v16.toUInt8
/-- `Hi8`. -/
def hi8 (v16 : UInt16) : UInt8 := (v16 >>> 8).toUInt8
/-- `Mk16`. -/
def mk16 (hi lo : UInt8) : UInt16 := lo.toUInt16 ^^^ (hi.toUInt16 <<< 8)
/-- `RotR1`. -/
def rotR1 (v16 : UInt16) : UInt16 := ((v16 >>> 1) &&& (0x7fff : UInt16)) ^^^ ((v16 &&& (1 : UInt16)) <<< 15)
/-- `TK16`, a word of the temporal key. -/
def tk16 (tk : List UInt8) (n : Nat) : UInt16 := mk16 (tk.getD (2 * n + 1) 0) (tk.getD (2 * n) 0)
/-- `_S_`. -/
def sBox (v16 : UInt16) : UInt16 :=
  sbox1Lo.getD (lo8 v16).toNat 0 ^^^ sbox1Hi.getD (hi8 v16).toNat 0

/-! ## 3. The mixing -/

/-- `u16 p1k[5]`. -/
structure P1k where
  w0 : UInt16
  w1 : UInt16
  w2 : UInt16
  w3 : UInt16
  w4 : UInt16
deriving DecidableEq, Repr

/-- One round of `phase1`. -/
def phase1Round (tk : List UInt8) (p : P1k) (i : Nat) : P1k :=
  let w0 := p.w0 + sBox (p.w4 ^^^ tk16 tk (i % 2 + 0))
  let w1 := p.w1 + sBox (w0 ^^^ tk16 tk (i % 2 + 2))
  let w2 := p.w2 + sBox (w1 ^^^ tk16 tk (i % 2 + 4))
  let w3 := p.w3 + sBox (w2 ^^^ tk16 tk (i % 2 + 6))
  let w4 := p.w4 + sBox (w3 ^^^ tk16 tk (i % 2 + 0))
  ⟨w0, w1, w2, w3, w4 + UInt16.ofNat i⟩

/-- `phase1`; `iv32` is the upper part of the TSC. -/
def phase1 (tk : List UInt8) (ta : MacAddr) (iv32 : UInt32) : P1k :=
  (List.range 8).foldl (phase1Round tk)
    ⟨iv32.toUInt16, (iv32 >>> 16).toUInt16, mk16 ta.b1 ta.b0, mk16 ta.b3 ta.b2, mk16 ta.b5 ta.b4⟩

/-- `phase2`; `iv16` is the lower part of the TSC. -/
def phase2 (tk : List UInt8) (p : P1k) (iv16 : UInt16) : List UInt8 :=
  let p5 := p.w4 + iv16
  let p0 := p.w0 + sBox (p5 ^^^ tk16 tk 0)
  let p1 := p.w1 + sBox (p0 ^^^ tk16 tk 1)
  let p2 := p.w2 + sBox (p1 ^^^ tk16 tk 2)
  let p3 := p.w3 + sBox (p2 ^^^ tk16 tk 3)
  let p4 := p.w4 + sBox (p3 ^^^ tk16 tk 4)
  let p5 := p5 + sBox (p4 ^^^ tk16 tk 5)
  let p0 := p0 + rotR1 (p5 ^^^ tk16 tk 6)
  let p1 := p1 + rotR1 (p0 ^^^ tk16 tk 7)
  let p2 := p2 + rotR1 p1
  let p3 := p3 + rotR1 p2
  let p4 := p4 + rotR1 p3
  let p5 := p5 + rotR1 p4
  [hi8 iv16, (hi8 iv16 ||| 0x20) &&& 0x7f, lo8 iv16, lo8 ((p5 ^^^ tk16 tk 0) >>> 1)] ++
    [p0, p1, p2, p3, p4, p5].flatMap fun w => [lo8 w, hi8 w]

/-- `GET_TKIP_PN`, least significant byte first. -/
def getTkipPn (m : Mem) (iv : Nat) : List UInt8 :=
  [m (iv + 2), m iv, m (iv + 4), m (iv + 5), m (iv + 6), m (iv + 7)]

/-- The RC4 key for the TSC whose six bytes are given, least significant first. -/
def tkipRc4Key (tk : List UInt8) (ta : MacAddr) (tsc : List UInt8) : List UInt8 :=
  let b (k : Nat) : UInt8 := tsc.getD k 0
  let pnl := mk16 (b 1) (b 0)
  let pnh := (b 2).toUInt32 ||| ((b 3).toUInt32 <<< 8) ||| ((b 4).toUInt32 <<< 16) |||
    ((b 5).toUInt32 <<< 24)
  phase2 tk (phase1 tk ta pnh) pnl

/-! ## 4. RC4 over a buffer -/

/-- `arcfour_init`, and `arcfour_encrypt` over a buffer. -/
def rc4 (key data : List UInt8) : List UInt8 := arcfourEncrypt (arcfourInit key) data

theorem length_rc4 (key data : List UInt8) : (rc4 key data).length = data.length :=
  length_arcfourEncrypt _ _

/-- Decrypting is encrypting once more. -/
theorem rc4_rc4 (key data : List UInt8) : rc4 key (rc4 key data) = data :=
  arcfourEncrypt_arcfourEncrypt _ _

end Rtl8723bs
