/-
# Michael, the message integrity code of TKIP

`rtw_secmicappend` takes bytes one at a time into a word and mixes a word in when it is full; what
of a word is not full yet stays in `M` until the next call.  So it makes no difference in which
pieces a message comes (`rtwSecmicappend_append`).  `rtw_secgetmic` pads and ends on a word.

`rtw_seccalctkipmic` is the receiver's: destination, source and priority are taken from a header,
and the payload is in one piece.
-/
import Rtl8723bs.Wifi

namespace Rtl8723bs

/-! ## 1. `struct mic_data` -/

/-- `struct mic_data`. -/
structure MicData where
  k0 : BitVec 32
  k1 : BitVec 32
  l : BitVec 32
  r : BitVec 32
  m : BitVec 32
  nBytesInM : Nat
deriving DecidableEq, Repr

/-- `secmicgetuint32`. -/
def secmicgetuint32 (p : List UInt8) : BitVec 32 :=
  (List.range 4).foldl (fun res i => res ||| BitVec.ofNat 32 (p.getD i 0).toNat <<< (8 * i)) 0

/-- `secmicputuint32`. -/
def secmicputuint32 (val : BitVec 32) : List UInt8 :=
  (List.range 4).map fun i => UInt8.ofNat (val >>> (8 * i)).toNat

/-- `secmicclear`. -/
def secmicclear (d : MicData) : MicData := { d with l := d.k0, r := d.k1, nBytesInM := 0, m := 0 }

/-- `rtw_secmicsetkey`. -/
def rtwSecmicsetkey (key : List UInt8) : MicData :=
  secmicclear
    { k0 := secmicgetuint32 key, k1 := secmicgetuint32 (key.drop 4), l := 0, r := 0, m := 0
      nBytesInM := 0 }

/-- A full word is mixed in. -/
def secmicWord (l r : BitVec 32) : BitVec 32 × BitVec 32 :=
  let r := r ^^^ l.rotateLeft 17
  let l := l + r
  let r := r ^^^ ((l &&& 0xff00ff00#32) >>> 8 ||| (l &&& 0x00ff00ff#32) <<< 8)
  let l := l + r
  let r := r ^^^ l.rotateLeft 3
  let l := l + r
  let r := r ^^^ l.rotateRight 2
  (l + r, r)

/-- `rtw_secmicappendbyte`. -/
def rtwSecmicappendbyte (d : MicData) (b : UInt8) : MicData :=
  let d := { d with
    m := d.m ||| BitVec.ofNat 32 b.toNat <<< (8 * d.nBytesInM), nBytesInM := d.nBytesInM + 1 }
  if 4 ≤ d.nBytesInM then
    let lr := secmicWord (d.l ^^^ d.m) d.r
    { d with l := lr.1, r := lr.2, m := 0, nBytesInM := 0 }
  else d

/-- `rtw_secmicappend`. -/
def rtwSecmicappend (d : MicData) (src : List UInt8) : MicData := src.foldl rtwSecmicappendbyte d

/-- `while (nBytesInM != 0)`: zeros to the end of the word, as many as there are rounds allowed. -/
def secmicPad : Nat → MicData → MicData
  | 0, d => d
  | fuel + 1, d => if d.nBytesInM = 0 then d else secmicPad fuel (rtwSecmicappendbyte d 0)

/-- `rtw_secgetmic`: the code, and the state after it. -/
def rtwSecgetmic (d : MicData) : List UInt8 × MicData :=
  let d := secmicPad 4 (rtwSecmicappend d [0x5a, 0, 0, 0, 0])
  (secmicputuint32 d.l ++ secmicputuint32 d.r, secmicclear d)

/-- The code of a message, given in one piece. -/
def michael (key message : List UInt8) : List UInt8 :=
  (rtwSecgetmic (rtwSecmicappend (rtwSecmicsetkey key) message)).1

/-- Where the destination and the source stand that are authenticated. -/
def micDa (header : Mem) : Nat := if header 1 &&& 1 ≠ 0 then 16 else 4

def micSa (header : Mem) : Nat :=
  if header 1 &&& 1 ≠ 0 then if header 1 &&& 2 ≠ 0 then 24 else 10
  else if header 1 &&& 2 ≠ 0 then 16 else 10

/-- `rtw_seccalctkipmic`. -/
def rtwSeccalctkipmic (key : List UInt8) (header : Mem) (data : List UInt8) (pri : UInt8) :
    List UInt8 :=
  let d := rtwSecmicsetkey key
  let d := rtwSecmicappend d (readBytes header (micDa header) 6)
  let d := rtwSecmicappend d (readBytes header (micSa header) 6)
  let d := rtwSecmicappend d [pri, 0, 0, 0]
  let d := rtwSecmicappend d data
  (rtwSecgetmic d).1

/-! ## 2. Pieces -/

section Pieces

variable {d : MicData}

/-- **The pieces of a message do not matter.** -/
theorem rtwSecmicappend_append (d : MicData) (a b : List UInt8) :
    rtwSecmicappend (rtwSecmicappend d a) b = rtwSecmicappend d (a ++ b) :=
  List.foldl_append.symm

theorem rtwSecmicappend_flatten (d : MicData) (pieces : List (List UInt8)) :
    pieces.foldl rtwSecmicappend d = rtwSecmicappend d pieces.flatten := by
  induction pieces generalizing d with
  | nil => rfl
  | cons p ps ih => rw [List.foldl_cons, ih, List.flatten_cons, rtwSecmicappend_append]

/-- What the receiver computes is the code of what it feeds. -/
theorem rtwSeccalctkipmic_eq (key : List UInt8) (header : Mem) (data : List UInt8) (pri : UInt8) :
    rtwSeccalctkipmic key header data pri = michael key (readBytes header (micDa header) 6 ++
      readBytes header (micSa header) 6 ++ [pri, 0, 0, 0] ++ data) := by
  unfold rtwSeccalctkipmic michael
  dsimp only
  rw [rtwSecmicappend_append, rtwSecmicappend_append, rtwSecmicappend_append, List.append_assoc,
    List.append_assoc]

/-- A word is never full between two bytes. -/
theorem rtwSecmicappendbyte_lt (h : d.nBytesInM < 4) (b : UInt8) :
    (rtwSecmicappendbyte d b).nBytesInM = (d.nBytesInM + 1) % 4 := by
  unfold rtwSecmicappendbyte
  dsimp only
  split
  · dsimp only
    omega
  · dsimp only
    omega

theorem rtwSecmicappend_lt (h : d.nBytesInM < 4) (src : List UInt8) :
    (rtwSecmicappend d src).nBytesInM = (d.nBytesInM + src.length) % 4 := by
  unfold rtwSecmicappend
  induction src generalizing d with
  | nil => exact (Nat.mod_eq_of_lt h).symm
  | cons b bs ih =>
    have hbyte := rtwSecmicappendbyte_lt h b
    rw [List.foldl_cons, ih (by omega), hbyte, List.length_cons]
    omega

/-- The padding loop has ended: four rounds are enough. -/
theorem secmicPad_done : ∀ {fuel : Nat} {d : MicData}, d.nBytesInM < 4 →
    4 ≤ d.nBytesInM + fuel ∨ d.nBytesInM = 0 → (secmicPad fuel d).nBytesInM = 0
  | 0, d, h, hfuel => hfuel.resolve_left (by omega)
  | fuel + 1, d, h, hfuel => by
    rw [secmicPad]
    split
    · assumption
    · have hbyte := rtwSecmicappendbyte_lt h 0
      exact secmicPad_done (by omega) (by omega)

/-- **`rtw_secgetmic` ends on a whole word**, whatever was fed. -/
theorem rtwSecgetmic_whole (key message : List UInt8) :
    (secmicPad 4 (rtwSecmicappend (rtwSecmicappend (rtwSecmicsetkey key) message)
      [0x5a, 0, 0, 0, 0])).nBytesInM = 0 := by
  have hset : (rtwSecmicsetkey key).nBytesInM < 4 := by
    change 0 < 4
    decide
  refine secmicPad_done ?_ (.inl (by omega))
  rw [rtwSecmicappend_append, rtwSecmicappend_lt hset]
  omega

theorem length_michael (key message : List UInt8) : (michael key message).length = 8 := rfl

end Pieces

/-- A key of eight zeros and no message. -/
example : michael (List.replicate 8 0) [] = [0x82, 0x92, 0x5c, 0x1c, 0xa1, 0xd1, 0x30, 0xb8] := by
  decide +kernel

end Rtl8723bs
