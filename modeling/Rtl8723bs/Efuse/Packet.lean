/-
# EFUSE packets

The content of the EFUSE is a sequence of packets, each with a header of one or two bytes: the
number of a section of eight bytes, and a mask of the words of the section that follow (a clear
bit is a word that is there).  A later packet overrides an earlier one, word by word, and the
map is what comes out at the end.  A header byte 0xFF is the end.
-/
import Mathlib.Data.List.Basic
import Mathlib.Data.UInt
import Mathlib.Logic.Function.Basic
import Rtl8723bs.Lib.Bytes

namespace Rtl8723bs.Efuse

/-! ## 1. Headers -/

/-- What `efuse_OneByteRead` gives at each address.  The array has 512 bytes; above are whatever
the hardware returns there. -/
abbrev Raw := Nat → UInt8

/-- A table of bytes: `efuseTbl`, `eFuseWord`, the eight bytes of a section. -/
abbrev Tbl := Nat → UInt8

/-- `EFUSE_REAL_CONTENT_LEN_8723B`. -/
def efuseRealContentLen : Nat := 512

/-- `EFUSE_MAX_SECTION_8723B`. -/
def efuseMaxSection : Nat := 64

/-- `EFUSE_MAX_WORD_UNIT`. -/
def efuseMaxWordUnit : Nat := 4

/-- `PGPKT_DATA_SIZE`. -/
def pgpktDataSize : Nat := 8

/-- `EXT_HEADER`. -/
def extHeader (header : UInt8) : Bool := header &&& 0x1F = 0x0F

/-- `ALL_WORDS_DISABLED`. -/
def allWordsDisabled (wde : UInt8) : Bool := wde &&& 0x0F = 0x0F

/-- `GET_HDR_OFFSET_2_0`. -/
def getHdrOffset20 (header : UInt8) : UInt8 := (header &&& 0xE0) >>> 5

/-- `!(wden & (0x01 << i))`. -/
def wordEnabled (wden : UInt8) (i : Nat) : Bool := wden &&& (1 <<< UInt8.ofNat i) = 0

/-- `Efuse_CalculateWordCnts`. -/
def efuseCalculateWordCnts (wordEn : UInt8) : Nat :=
  (if wordEnabled wordEn 0 then 1 else 0) + (if wordEnabled wordEn 1 then 1 else 0)
    + (if wordEnabled wordEn 2 then 1 else 0) + (if wordEnabled wordEn 3 then 1 else 0)

/-- The words of a mask, of those given. -/
def enabled (wden : UInt8) (is : List Nat) : List Nat := is.filter (wordEnabled wden)

theorem length_enabled (wden : UInt8) :
    (enabled wden (List.range efuseMaxWordUnit)).length = efuseCalculateWordCnts wden := by
  have hrange : List.range efuseMaxWordUnit = [0, 1, 2, 3] := rfl
  unfold enabled efuseCalculateWordCnts
  rw [hrange, ← List.countP_eq_length_filter]
  simp only [List.countP_cons, List.countP_nil]
  omega

/-- A mask of no words, in one header byte or in the second. -/
theorem wordCnts_disabled : ∀ wde : UInt8, allWordsDisabled wde = true →
    efuseCalculateWordCnts (wde &&& 0x0F) = 0 := UInt8.forall_byte (by decide +kernel)

theorem wordCnts_pos : ∀ wde : UInt8, allWordsDisabled wde = false →
    0 < efuseCalculateWordCnts (wde &&& 0x0F) := UInt8.forall_byte (by decide +kernel)

/-- What a header says. -/
inductive Head where
  | stop
  | blank
  | pkt (data : Nat) (offset wden : UInt8)
  deriving DecidableEq

/-- The header at an address: the end, a header of two bytes without words, or that of a packet
whose data are at `data`. -/
def head (img : Raw) (a : Nat) : Head :=
  if img a = 0xFF then .stop
  else if extHeader (img a) then
    if allWordsDisabled (img (a + 1)) then .blank
    else .pkt (a + 2) (getHdrOffset20 (img a) ||| ((img (a + 1) &&& 0xF0) >>> 1))
      (img (a + 1) &&& 0x0F)
  else .pkt (a + 1) ((img a >>> 4) &&& 0x0F) (img a &&& 0x0F)

theorem offset_one_byte : ∀ h : UInt8, ((h >>> 4) &&& 0x0F).toNat < 16 :=
  UInt8.forall_byte (by decide +kernel)

/-- A header in one byte names one of the first sixteen sections; one in two bytes has words. -/
theorem head_pkt {img : Raw} {a d : Nat} {offset wden : UInt8}
    (h : head img a = .pkt d offset wden) :
    d = a + 1 ∧ offset.toNat < 16 ∨ d = a + 2 ∧ 0 < efuseCalculateWordCnts wden := by
  unfold head at h
  split at h
  · cases h
  · split at h
    · split at h
      · cases h
      · rename_i hwords
        cases h
        exact .inr ⟨rfl, wordCnts_pos _ (Bool.not_eq_true _ ▸ hwords)⟩
    · cases h
      exact .inl ⟨rfl, offset_one_byte _⟩

/-! ## 2. Words -/

/-- The bytes from an address on. -/
def bytes (img : Raw) (a n : Nat) : List UInt8 := (List.range n).map fun i => img (a + i)

@[simp] theorem length_bytes (img : Raw) (a n : Nat) : (bytes img a n).length = n := by
  simp [bytes]

theorem bytes_succ (img : Raw) (a n : Nat) : bytes img a (n + 1) = img a :: bytes img (a + 1) n := by
  unfold bytes
  rw [List.range_succ_eq_map, List.map_cons, List.map_map]
  refine congrArg (img a :: ·) (List.map_congr_left fun i _ => ?_)
  exact congrArg img (by simp; omega)

theorem bytes_word (img : Raw) (a n : Nat) :
    bytes img a (2 * (n + 1)) = img a :: img (a + 1) :: bytes img (a + 2) (2 * n) := by
  rw [Nat.mul_succ, bytes_succ, bytes_succ]

/-- A word of a packet is put where the section has it. -/
def putWord (wden : UInt8) (base : Nat) (r : List UInt8 × Tbl) (i : Nat) : List UInt8 × Tbl :=
  if wordEnabled wden i then
    match r.1 with
    | x :: y :: rest =>
      (rest, Function.update (Function.update r.2 (base + 2 * i) x) (base + 2 * i + 1) y)
    | _ => r
  else r

/-- The data of a packet in a table, whose section is at `base`. -/
def putWords (wden : UInt8) (base : Nat) (data : List UInt8) (tbl : Tbl) : Tbl :=
  ((List.range efuseMaxWordUnit).foldl (putWord wden base) (data, tbl)).2

/-- Words go to the same places of a section, wherever the section is. -/
theorem foldl_putWord_shift (wden : UInt8) {is : List Nat} (his : ∀ i ∈ is, i < efuseMaxWordUnit)
    {base base' : Nat} {data : List UInt8} {tbl tbl' : Tbl}
    (h : ∀ j < pgpktDataSize, tbl (base + j) = tbl' (base' + j)) :
    ∀ j < pgpktDataSize, (is.foldl (putWord wden base) (data, tbl)).2 (base + j)
      = (is.foldl (putWord wden base') (data, tbl')).2 (base' + j) := by
  induction is generalizing data tbl tbl' with
  | nil => exact h
  | cons i is ih =>
    have his' : ∀ i ∈ is, i < efuseMaxWordUnit := fun k hk => his k (List.mem_cons_of_mem i hk)
    rw [List.foldl_cons, List.foldl_cons]
    unfold putWord
    dsimp only
    split
    · split
      · refine ih his' fun j hj => ?_
        have hshift : ∀ k, (base + j = base + k ↔ base' + j = base' + k) := by
          intro k
          omega
        simp only [Function.update_apply, Nat.add_assoc, hshift, h j hj]
      · exact ih his' h
    · exact ih his' h

/-- The words of a section stay in the section. -/
theorem foldl_putWord_outside (wden : UInt8) {is : List Nat}
    (his : ∀ i ∈ is, i < efuseMaxWordUnit) (base : Nat) (r : List UInt8 × Tbl) {x : Nat}
    (hx : x < base ∨ base + pgpktDataSize ≤ x) :
    (is.foldl (putWord wden base) r).2 x = r.2 x := by
  induction is generalizing r with
  | nil => rfl
  | cons i is ih =>
    have his' : ∀ i ∈ is, i < efuseMaxWordUnit := fun k hk => his k (List.mem_cons_of_mem i hk)
    have hi := his i List.mem_cons_self
    have hone : (putWord wden base r i).2 x = r.2 x := by
      unfold putWord
      split
      · split
        · unfold efuseMaxWordUnit at hi
          unfold pgpktDataSize at hx
          dsimp only
          rw [Function.update_of_ne (by omega), Function.update_of_ne (by omega)]
        · rfl
      · rfl
    rw [List.foldl_cons, ih his', hone]

theorem putWords_shift (wden : UInt8) (base base' : Nat) (data : List UInt8) {tbl tbl' : Tbl}
    (h : ∀ j < pgpktDataSize, tbl (base + j) = tbl' (base' + j)) :
    ∀ j < pgpktDataSize,
      putWords wden base data tbl (base + j) = putWords wden base' data tbl' (base' + j) :=
  foldl_putWord_shift wden (fun _ hi => List.mem_range.mp hi) h

theorem putWords_outside (wden : UInt8) {base : Nat} (data : List UInt8) (tbl : Tbl) {x : Nat}
    (hx : x < base ∨ base + pgpktDataSize ≤ x) : putWords wden base data tbl x = tbl x :=
  foldl_putWord_outside wden (fun _ hi => List.mem_range.mp hi) base (data, tbl) hx

/-- A word is read: the loop body that `hal_ReadEFuse_WiFi` and `Hal_EfusePgPacketRead` have. -/
def readWord (img : Raw) (wden : UInt8) (base : Nat) (r : Nat × Tbl) (i : Nat) : Nat × Tbl :=
  if wordEnabled wden i then
    (r.1 + 2,
      Function.update (Function.update r.2 (base + 2 * i) (img r.1)) (base + 2 * i + 1)
        (img (r.1 + 1)))
  else r

def readWords (img : Raw) (wden : UInt8) (base : Nat) (addr : Nat) (tbl : Tbl) : Nat × Tbl :=
  (List.range efuseMaxWordUnit).foldl (readWord img wden base) (addr, tbl)

theorem foldl_readWord (img : Raw) (wden : UInt8) (base : Nat) (is : List Nat) (a : Nat)
    (tbl : Tbl) :
    is.foldl (readWord img wden base) (a, tbl)
      = (a + 2 * (enabled wden is).length,
          (is.foldl (putWord wden base) (bytes img a (2 * (enabled wden is).length), tbl)).2) := by
  induction is generalizing a tbl with
  | nil => rfl
  | cons i is ih =>
    rw [List.foldl_cons, List.foldl_cons]
    cases hi : wordEnabled wden i with
    | false =>
      have hlen : (enabled wden (i :: is)).length = (enabled wden is).length := by
        simp [enabled, hi]
      have hread : readWord img wden base (a, tbl) i = (a, tbl) := by simp [readWord, hi]
      have hput : ∀ r, putWord wden base r i = r := by
        intro r
        simp [putWord, hi]
      rw [hlen, hread, hput, ih]
    | true =>
      have hlen : (enabled wden (i :: is)).length = (enabled wden is).length + 1 := by
        simp [enabled, hi]
      rw [hlen, bytes_word, readWord, if_pos hi, ih, putWord, if_pos hi]
      refine Prod.ext ?_ rfl
      dsimp only
      omega

/-- The length of the data of a packet. -/
def dataLen (wden : UInt8) : Nat := 2 * efuseCalculateWordCnts wden

/-- **Reading the words of a section** goes over the data of the packet and puts them. -/
theorem readWords_eq (img : Raw) (wden : UInt8) (base a : Nat) (tbl : Tbl) :
    readWords img wden base a tbl
      = (a + dataLen wden, putWords wden base (bytes img a (dataLen wden)) tbl) := by
  unfold readWords putWords dataLen
  rw [foldl_readWord, length_enabled]

/-! ## 3. Packets -/

/-- A packet: its section, its mask and the data it goes over. -/
structure Packet where
  offset : UInt8
  wden : UInt8
  data : List UInt8
  deriving DecidableEq

/-- What a packet does to the map. -/
def Packet.apply (tbl : Tbl) (p : Packet) : Tbl :=
  if p.offset.toNat < efuseMaxSection then
    putWords p.wden (p.offset.toNat * pgpktDataSize) p.data tbl
  else tbl

/-- A packet changes only its section. -/
theorem Packet.apply_outside {tbl : Tbl} {p : Packet} {sec j : Nat}
    (hne : p.offset.toNat ≠ sec) (hj : j < pgpktDataSize) :
    p.apply tbl (sec * pgpktDataSize + j) = tbl (sec * pgpktDataSize + j) := by
  unfold Packet.apply
  split
  · refine putWords_outside p.wden p.data tbl ?_
    unfold pgpktDataSize at hj ⊢
    omega
  · rfl

/-- 0xff will be efuse default value instead of 0x00. -/
def blankTbl : Tbl := fun _ => 0xFF

/-- The map of a sequence of packets. -/
def mapOf (packets : List Packet) : Tbl := packets.foldl Packet.apply blankTbl

theorem mapOf_append (ps : List Packet) (p : Packet) : mapOf (ps ++ [p]) = p.apply (mapOf ps) := by
  simp [mapOf]

end Rtl8723bs.Efuse
