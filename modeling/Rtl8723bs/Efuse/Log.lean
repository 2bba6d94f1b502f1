/-
# The EFUSE as a log

A programmed EFUSE is a log: packets one behind the other from address 0, and blank bytes behind
them.  Whatever reads it finds these packets and the end, and a packet that is programmed into
the blank bytes at the end is appended.
-/
import Rtl8723bs.Efuse.Walkers

namespace Rtl8723bs.Efuse

open Walk

variable {img img' : Raw}

/-! ## 1. Packets in an image -/

/-- The packets from one address of the array to another. -/
inductive PacketsAt (img : Raw) : Nat → List Packet → Nat → Prop
  | nil (a : Nat) : PacketsAt img a [] a
  | cons {a d b : Nat} {offset wden : UInt8} {ps : List Packet}
      (hhead : head img a = .pkt d offset wden) (hfits : d + dataLen wden ≤ efuseRealContentLen)
      (hrest : PacketsAt img (d + dataLen wden) ps b) :
      PacketsAt img a (⟨offset, wden, bytes img d (dataLen wden)⟩ :: ps) b

/-- A well-formed image: the packets, the address behind them, and blank bytes from there. -/
structure Log (img : Raw) (ps : List Packet) (e : Nat) : Prop where
  packets : PacketsAt img 0 ps e
  le : e ≤ efuseRealContentLen
  blank : ∀ i, e ≤ i → i < efuseRealContentLen → img i = 0xFF

theorem PacketsAt.le {a b : Nat} {ps : List Packet} (h : PacketsAt img a ps b) : a ≤ b := by
  induction h with
  | nil a => exact Nat.le_refl a
  | cons hhead _ _ ih =>
    have hd := head_pkt hhead
    omega

/-- **Every walk from header to header goes over the packets**, and stops behind them if the
byte there is blank. -/
theorem PacketsAt.split_eq {a b skip : Nat} {ps : List Packet} (h : PacketsAt img a ps b)
    (hskip : 0 < skip) (hb : b < efuseRealContentLen → img b = 0xFF) :
    split (headNext img skip) efuseRealContentLen a = (ps, b) := by
  have hadv := headNext_advances img hskip
  induction h with
  | nil a =>
    refine hadv.split_stop ?_
    rcases Nat.lt_or_ge a efuseRealContentLen with hlt | hge
    · exact headNext_stop (if_pos (hb hlt))
    · exact headNext_off hge
  | cons hhead hfits _ ih =>
    have hd := head_pkt hhead
    rw [hadv.split_step (headNext_pkt (by omega) hhead), ih hb]
    rfl

theorem Log.split_eq {ps : List Packet} {e skip : Nat} (h : Log img ps e) (hskip : 0 < skip) :
    split (headNext img skip) efuseRealContentLen 0 = (ps, e) :=
  h.packets.split_eq hskip fun hlt => h.blank e (Nat.le_refl e) hlt

/-! ## 2. Appending -/

theorem bytes_congr {a n : Nat} (h : ∀ i, a ≤ i → i < a + n → img' i = img i) :
    bytes img' a n = bytes img a n := by
  unfold bytes
  refine List.map_congr_left fun i hi => ?_
  have hin := List.mem_range.mp hi
  exact h (a + i) (by omega) (by omega)

/-- The header of a packet is in front of its data. -/
theorem head_congr {a d b : Nat} {offset wden : UInt8} (h : head img a = .pkt d offset wden)
    (hd : d ≤ b) (heq : ∀ i < b, img' i = img i) : head img' a = .pkt d offset wden := by
  have hpos := head_pkt h
  have ha : img' a = img a := heq a (by omega)
  unfold head at h ⊢
  rw [ha]
  split
  · rename_i hff
    rw [if_pos hff] at h
    cases h
  · rename_i hff
    rw [if_neg hff] at h
    split
    · rename_i hext
      rw [if_pos hext] at h
      have ha1 : img' (a + 1) = img (a + 1) := by
        refine heq (a + 1) ?_
        split at h
        · cases h
        · cases h
          omega
      rw [ha1]
      exact h
    · rename_i hext
      rw [if_neg hext] at h
      exact h

/-- What is behind the packets does not matter to them. -/
theorem PacketsAt.congr {a b : Nat} {ps : List Packet} (h : PacketsAt img a ps b)
    (heq : ∀ i < b, img' i = img i) : PacketsAt img' a ps b := by
  induction h with
  | nil a => exact .nil a
  | @cons a d b offset wden ps hhead hfits hrest ih =>
    have hle := hrest.le
    rw [← bytes_congr fun i _ hi => heq i (by omega)]
    exact .cons (head_congr hhead (by omega) heq) hfits (ih heq)

/-- A packet behind the packets. -/
theorem PacketsAt.snoc {a b d : Nat} {ps : List Packet} {offset wden : UInt8}
    (h : PacketsAt img a ps b) (hhead : head img b = .pkt d offset wden)
    (hfits : d + dataLen wden ≤ efuseRealContentLen) :
    PacketsAt img a (ps ++ [⟨offset, wden, bytes img d (dataLen wden)⟩]) (d + dataLen wden) := by
  induction h with
  | nil a => exact .cons hhead hfits (.nil _)
  | cons hhead' hfits' _ ih => exact .cons hhead' hfits' (ih hhead)

/-- **A packet that is programmed at the end is appended to the log.** -/
theorem Log.append {ps : List Packet} {e d : Nat} {offset wden : UInt8} (h : Log img ps e)
    (hkeep : ∀ i, i < e ∨ d + dataLen wden ≤ i → img' i = img i)
    (hhead : head img' e = .pkt d offset wden)
    (hfits : d + dataLen wden ≤ efuseRealContentLen) :
    Log img' (ps ++ [⟨offset, wden, bytes img' d (dataLen wden)⟩]) (d + dataLen wden) where
  packets := (h.packets.congr fun i hi => hkeep i (.inl hi)).snoc hhead hfits
  le := hfits
  blank := by
    intro i hi hlt
    have hd := head_pkt hhead
    rw [hkeep i (.inr hi)]
    exact h.blank i (by omega) hlt

/-! ## 3. Headers -/

/-- The header in one byte: of one of the first sixteen sections. -/
def header1 (offset wordEn : UInt8) : UInt8 := ((offset <<< 4) &&& 0xF0) ||| wordEn

/-- The two bytes of the other headers. -/
def header2 (offset : UInt8) : UInt8 := ((offset &&& 0x07) <<< 5) ||| 0x0F

def extHeader2 (offset wordEn : UInt8) : UInt8 := ((offset &&& 0x78) <<< 1) ||| wordEn

/-- What a mask with a word in it is: the four low bits, not all set. -/
def MaskOk (wordEn : UInt8) : Prop := wordEn.toNat < 15

instance (wordEn : UInt8) : Decidable (MaskOk wordEn) := inferInstanceAs (Decidable (_ < _))

theorem header1_decode : ∀ offset : UInt8, offset.toNat < 16 → ∀ wordEn : UInt8, MaskOk wordEn →
    header1 offset wordEn ≠ 0xFF ∧ extHeader (header1 offset wordEn) = false ∧
      (header1 offset wordEn >>> 4) &&& 0x0F = offset ∧
      header1 offset wordEn &&& 0x0F = wordEn :=
  UInt8.forall_lt fun n => UInt8.forall_lt (by revert n; decide +kernel)

theorem header2_decode : ∀ offset : UInt8, offset.toNat < 128 →
    header2 offset ≠ 0xFF ∧ extHeader (header2 offset) = true :=
  UInt8.forall_lt (by decide +kernel)

theorem extHeader2_decode : ∀ offset : UInt8, offset.toNat < 128 →
    ∀ wordEn : UInt8, MaskOk wordEn →
    extHeader2 offset wordEn ≠ 0xFF ∧ allWordsDisabled (extHeader2 offset wordEn) = false ∧
      getHdrOffset20 (header2 offset) ||| ((extHeader2 offset wordEn &&& 0xF0) >>> 1) = offset ∧
      extHeader2 offset wordEn &&& 0x0F = wordEn :=
  UInt8.forall_lt fun n => UInt8.forall_lt (by revert n; decide +kernel)

/-- The header in one byte reads back. -/
theorem head_header1 {offset wordEn : UInt8} {a : Nat} (hoff : offset.toNat < 16)
    (hmask : MaskOk wordEn) (ha : img a = header1 offset wordEn) :
    head img a = .pkt (a + 1) offset wordEn := by
  obtain ⟨hff, hext, hoffset, hwden⟩ := header1_decode offset hoff wordEn hmask
  unfold head
  rw [ha, if_neg hff, hext, hoffset, hwden]
  rfl

/-- The header in two bytes reads back. -/
theorem head_header2 {offset wordEn : UInt8} {a : Nat} (hoff : offset.toNat < 128)
    (hmask : MaskOk wordEn) (ha : img a = header2 offset)
    (ha1 : img (a + 1) = extHeader2 offset wordEn) :
    head img a = .pkt (a + 2) offset wordEn := by
  obtain ⟨hff, hext⟩ := header2_decode offset hoff
  obtain ⟨-, hwords, hoffset, hwden⟩ := extHeader2_decode offset hoff wordEn hmask
  unfold head
  rw [ha, ha1, if_neg hff, if_pos hext, hwords, hoffset, hwden]
  rfl

/-! ## 4. The data of a section -/

/-- The words of a section that a mask has, one behind the other. -/
def encWords (wden : UInt8) (data : Tbl) : List UInt8 :=
  (enabled wden (List.range efuseMaxWordUnit)).flatMap fun i => [data (2 * i), data (2 * i + 1)]

theorem length_encWords (wden : UInt8) (data : Tbl) :
    (encWords wden data).length = dataLen wden := by
  unfold encWords dataLen
  rw [List.length_flatMap, ← length_enabled]
  simp [Nat.mul_comm]

theorem foldl_putWord_enc (wden : UInt8) (base : Nat) (data : Tbl) (is : List Nat) (tbl : Tbl)
    (j : Nat) :
    (is.foldl (putWord wden base)
        ((enabled wden is).flatMap fun i => [data (2 * i), data (2 * i + 1)], tbl)).2 (base + j)
      = if j / 2 ∈ enabled wden is then data j else tbl (base + j) := by
  induction is generalizing tbl with
  | nil => simp [enabled]
  | cons i is ih =>
    rw [List.foldl_cons]
    unfold putWord
    cases hi : wordEnabled wden i with
    | false =>
      have henabled : enabled wden (i :: is) = enabled wden is := by simp [enabled, hi]
      rw [henabled]
      exact ih tbl
    | true =>
      have henabled : enabled wden (i :: is) = i :: enabled wden is := by simp [enabled, hi]
      rw [henabled, if_pos rfl, List.flatMap_cons]
      refine (ih _).trans ?_
      by_cases hmem : j / 2 ∈ enabled wden is
      · rw [if_pos hmem, if_pos (List.mem_cons_of_mem i hmem)]
      · rw [if_neg hmem]
        by_cases hji : j / 2 = i
        · rw [if_pos (hji ▸ List.mem_cons_self)]
          rcases Nat.mod_two_eq_zero_or_one j with heven | hodd
          · have hj : j = 2 * i := by omega
            rw [hj, Function.update_of_ne (by omega), Function.update_self]
          · have hj : j = 2 * i + 1 := by omega
            rw [hj, ← Nat.add_assoc, Function.update_self]
        · have hnot : j / 2 ∉ i :: enabled wden is := by simp [hji, hmem]
          rw [if_neg hnot, Function.update_of_ne (by omega), Function.update_of_ne (by omega)]

/-- A byte of a section after a packet: that of the packet if its word is in the mask. -/
theorem putWords_enc (wden : UInt8) (base : Nat) (data tbl : Tbl) {j : Nat}
    (hj : j < pgpktDataSize) :
    putWords wden base (encWords wden data) tbl (base + j)
      = if wordEnabled wden (j / 2) then data j else tbl (base + j) := by
  have hmem : j / 2 ∈ enabled wden (List.range efuseMaxWordUnit) ↔ wordEnabled wden (j / 2) := by
    unfold enabled
    rw [List.mem_filter, List.mem_range]
    unfold pgpktDataSize at hj
    unfold efuseMaxWordUnit
    exact and_iff_right (by omega)
  unfold putWords encWords
  rw [foldl_putWord_enc]
  simp only [hmem]

end Rtl8723bs.Efuse
