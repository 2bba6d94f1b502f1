/-
# Programming a packet

`Hal_EfusePgPacketWrite` looks for the end of the packets, checks that the byte there is blank,
programs the header, reading it back and trying again, and then the words of the mask, reading
them back; bad words go into another packet.  On blank bytes every byte takes the value it is
programmed with at once, so the packet is appended to the log.
-/
import Rtl8723bs.Efuse.Log

namespace Rtl8723bs.Efuse

open Walk

/-! ## 1. The functions -/

/-- The array, and `EfuseUsedBytes`, in which the driver keeps the end it found last. -/
structure Chip where
  img : Raw
  usedBytes : Nat

/-- `efuse_OneByteWrite`, where programming clears bits: a blank byte takes the value. -/
def efuseOneByteWrite (c : Chip) (addr : Nat) (data : UInt8) : Chip :=
  { c with img := Function.update c.img addr (c.img addr &&& data) }

/-- `EFUSE_REPEAT_THRESHOLD_`. -/
def efuseRepeatThreshold : Nat := 3

/-- The loops that read a header byte back and program it again, with the repetitions left; there
are none left after them if they fail. -/
def repeatHeader (addr : Nat) (pgHeader : UInt8) : Nat → Chip → Option Nat × Chip
  | 0, c => if c.img addr = 0xFF ∨ pgHeader ≠ c.img addr then (none, c) else (some 0, c)
  | n + 1, c =>
    if c.img addr = 0xFF ∨ pgHeader ≠ c.img addr then
      repeatHeader addr pgHeader n (efuseOneByteWrite c addr pgHeader)
    else (some (n + 1), c)

/-- `hal_EfusePgPacketWrite1ByteHeader`: the address of the header, unless it fails.  Behind the
loop the header is as programmed, so `hal_EfuseFixHeaderProcess` is not called. -/
def halEfusePgPacketWrite1ByteHeader (c : Chip) (addr : Nat) (offset wordEn : UInt8) :
    Option Nat × Chip :=
  let pgHeader := header1 offset wordEn
  match repeatHeader addr pgHeader (efuseRepeatThreshold + 1) (efuseOneByteWrite c addr pgHeader) with
  | (none, c) => (none, c)
  | (some _, c) => (some addr, c)

/-- The loop of `hal_EfusePgPacketWrite2ByteHeader`, which goes on behind a header without
words; `n` are the repetitions left, for both bytes together. -/
def write2ByteHeaderLoop (offset wordEn : UInt8) : Nat → Nat → Chip → Nat → Option Nat × Chip
  | 0, _, c, _ => (none, c)
  | turns + 1, n, c, addr =>
    if addr < availableEfuseBytes then
      let pgHeader := header2 offset
      match repeatHeader addr pgHeader n (efuseOneByteWrite c addr pgHeader) with
      | (none, c) => (none, c)
      | (some n, c) =>
        let extHdr := extHeader2 offset wordEn
        match repeatHeader (addr + 1) extHdr n (efuseOneByteWrite c (addr + 1) extHdr) with
        | (none, c) => (none, c)
        | (some n, c) =>
          if allWordsDisabled (c.img (addr + 1)) then
            match n with
            | 0 => (none, c)
            | n + 1 => write2ByteHeaderLoop offset wordEn turns n c (addr + 2)
          else (some (addr + 1), c)
    else (some addr, c)

/-- `hal_EfusePgPacketWrite2ByteHeader`: the address of the second byte, unless it fails. -/
def halEfusePgPacketWrite2ByteHeader (c : Chip) (addr : Nat) (offset wordEn : UInt8) :
    Option Nat × Chip :=
  if addr ≥ availableEfuseBytes then (none, c)
  else
    write2ByteHeaderLoop offset wordEn (efuseRepeatThreshold + 2) (efuseRepeatThreshold + 1) c addr

/-- `EFUSE_MAX_SECTION_BASE`. -/
def efuseMaxSectionBase : Nat := 16

/-- `hal_EfusePgPacketWriteHeader`. -/
def halEfusePgPacketWriteHeader (c : Chip) (addr : Nat) (offset wordEn : UInt8) :
    Option Nat × Chip :=
  if offset.toNat ≥ efuseMaxSectionBase then
    halEfusePgPacketWrite2ByteHeader c addr offset wordEn
  else halEfusePgPacketWrite1ByteHeader c addr offset wordEn

/-- `mask &= ~BIT(i)`. -/
def clearBit (mask : UInt8) (i : Nat) : UInt8 := mask &&& ~~~(1 <<< UInt8.ofNat i)

/-- A word is programmed and read back: the address behind it, `badworden` and the chip. -/
def writeWord (wordEn : UInt8) (data : Tbl) (r : Nat × UInt8 × Chip) (i : Nat) :
    Nat × UInt8 × Chip :=
  if wordEnabled wordEn i then
    let c := efuseOneByteWrite (efuseOneByteWrite r.2.2 r.1 (data (2 * i))) (r.1 + 1)
      (data (2 * i + 1))
    (r.1 + 2,
      if data (2 * i) ≠ c.img r.1 ∨ data (2 * i + 1) ≠ c.img (r.1 + 1) then clearBit r.2.1 i
      else r.2.1,
      c)
  else r

/-- `Hal_EfuseWordEnableDataWrite`. -/
def halEfuseWordEnableDataWrite (c : Chip) (efuseAddr : Nat) (wordEn : UInt8) (data : Tbl) :
    UInt8 × Chip :=
  ((List.range efuseMaxWordUnit).foldl (writeWord wordEn data) (efuseAddr, 0x0F, c)).2

/-- `efuse_WordEnableDataRead`. -/
def efuseWordEnableDataRead (wordEn : UInt8) (sourdata targetdata : Tbl) : Tbl := fun i =>
  if i < pgpktDataSize ∧ wordEnabled wordEn (i / 2) then sourdata i else targetdata i

/-- `hal_EfusePartialWriteCheck`: the address to program at. -/
def halEfusePartialWriteCheck (c : Chip) : Option Nat :=
  let startAddr := c.usedBytes % efuseRealContentLen
  if startAddr ≥ availableEfuseBytes then none
  else if c.img startAddr ≠ 0xFF then none
  else some startAddr

/-- `Efuse_GetCurrentSize`. -/
def efuseGetCurrentSize (c : Chip) : Nat × Chip :=
  let r := halEfuseGetCurrentSizeWiFi c.img c.usedBytes
  (r.1, { c with usedBytes := r.2 })

/-- `Hal_EfusePgPacketWrite`, and in it `hal_EfusePgPacketWriteData`, which calls it again for
the words that went bad, at most `depth` deep. -/
def halEfusePgPacketWrite : Nat → Chip → UInt8 → UInt8 → Tbl → Bool × Chip
  | 0, c, _, _, _ => (false, c)
  | depth + 1, c, offset, wordEn, pData =>
    let (currentSize, c) := efuseGetCurrentSize c
    if currentSize ≥ availableEfuseBytes then (false, c)
    else
      let data := efuseWordEnableDataRead wordEn pData blankTbl
      match halEfusePartialWriteCheck c with
      | none => (false, c)
      | some startAddr =>
        match halEfusePgPacketWriteHeader c startAddr offset wordEn with
        | (none, c) => (false, c)
        | (some addr, c) =>
          let (badworden, c) := halEfuseWordEnableDataWrite c (addr + 1) wordEn data
          if badworden = 0x0F then (true, c)
          else halEfusePgPacketWrite depth c offset badworden data

/-! ## 2. Blank bytes -/

/-- Bytes programmed one behind the other. -/
def burn (c : Chip) (addr : Nat) : List UInt8 → Chip
  | [] => c
  | x :: xs => burn (efuseOneByteWrite c addr x) (addr + 1) xs

@[simp] theorem efuseOneByteWrite_usedBytes (c : Chip) (addr : Nat) (x : UInt8) :
    (efuseOneByteWrite c addr x).usedBytes = c.usedBytes := rfl

@[simp] theorem efuseOneByteWrite_other {c : Chip} {addr i : Nat} {x : UInt8} (h : i ≠ addr) :
    (efuseOneByteWrite c addr x).img i = c.img i := Function.update_of_ne h ..

theorem efuseOneByteWrite_blank {c : Chip} {addr : Nat} (h : c.img addr = 0xFF) (x : UInt8) :
    (efuseOneByteWrite c addr x).img addr = x := by
  refine (Function.update_self ..).trans ?_
  rw [h]
  exact (UInt8.forall_byte (P := fun x => 0xFF &&& x = x) (by decide +kernel)) x

theorem burn_append (c : Chip) (addr : Nat) (xs ys : List UInt8) :
    burn c addr (xs ++ ys) = burn (burn c addr xs) (addr + xs.length) ys := by
  induction xs generalizing c addr with
  | nil => rfl
  | cons x xs ih =>
    have hlen : addr + (x :: xs).length = addr + 1 + xs.length := by
      rw [List.length_cons]
      omega
    rw [hlen]
    exact ih _ _

@[simp] theorem burn_usedBytes (c : Chip) (addr : Nat) (xs : List UInt8) :
    (burn c addr xs).usedBytes = c.usedBytes := by
  induction xs generalizing c addr with
  | nil => rfl
  | cons x xs ih => exact ih _ _

theorem burn_other (c : Chip) (addr : Nat) (xs : List UInt8) {i : Nat}
    (h : i < addr ∨ addr + xs.length ≤ i) : (burn c addr xs).img i = c.img i := by
  induction xs generalizing c addr with
  | nil => rfl
  | cons x xs ih =>
    rw [List.length_cons] at h
    exact (ih _ _ (by omega)).trans (efuseOneByteWrite_other (by omega))

/-- **Blank bytes read back as programmed.** -/
theorem bytes_burn {c : Chip} {addr : Nat} (xs : List UInt8)
    (h : ∀ i, addr ≤ i → i < addr + xs.length → c.img i = 0xFF) :
    bytes (burn c addr xs).img addr xs.length = xs := by
  induction xs generalizing c addr with
  | nil => rfl
  | cons x xs ih =>
    rw [List.length_cons] at h
    rw [List.length_cons, bytes_succ]
    have hhead : (burn c addr (x :: xs)).img addr = x :=
      (burn_other _ _ _ (.inl (Nat.lt_succ_self addr))).trans
        (efuseOneByteWrite_blank (h addr (Nat.le_refl _) (by omega)) x)
    have htail : bytes (burn (efuseOneByteWrite c addr x) (addr + 1) xs).img (addr + 1) xs.length
        = xs := by
      refine ih fun i hi hlt => ?_
      exact (efuseOneByteWrite_other (by omega)).trans (h i (by omega) (by omega))
    rw [hhead]
    exact congrArg (x :: ·) htail

/-- A byte that reads back is not programmed again. -/
theorem repeatHeader_done {c : Chip} {addr : Nat} {x : UInt8} (hx : x ≠ 0xFF)
    (h : c.img addr = x) (n : Nat) : repeatHeader addr x n c = (some n, c) := by
  have hok : ¬(c.img addr = 0xFF ∨ x ≠ c.img addr) := by
    rw [h]
    simp [hx]
  cases n <;> exact if_neg hok

/-- The words are programmed one behind the other, and none is bad. -/
theorem foldl_writeWord {wordEn : UInt8} {data : Tbl} (is : List Nat) {c : Chip} {addr : Nat}
    (h : ∀ i, addr ≤ i → i < addr + 2 * (enabled wordEn is).length → c.img i = 0xFF) :
    (is.foldl (writeWord wordEn data) (addr, 0x0F, c)).2
      = (0x0F, burn c addr
          ((enabled wordEn is).flatMap fun i => [data (2 * i), data (2 * i + 1)])) := by
  induction is generalizing c addr with
  | nil => rfl
  | cons i is ih =>
    rw [List.foldl_cons]
    cases hi : wordEnabled wordEn i with
    | false =>
      have henabled : enabled wordEn (i :: is) = enabled wordEn is := by simp [enabled, hi]
      have hskip : writeWord wordEn data (addr, 0x0F, c) i = (addr, 0x0F, c) := by
        simp [writeWord, hi]
      rw [henabled] at h ⊢
      rw [hskip]
      exact ih h
    | true =>
      have henabled : enabled wordEn (i :: is) = i :: enabled wordEn is := by simp [enabled, hi]
      rw [henabled, List.length_cons] at h
      have h0 : c.img addr = 0xFF := h addr (Nat.le_refl _) (by omega)
      have h1 : (efuseOneByteWrite c addr (data (2 * i))).img (addr + 1) = 0xFF :=
        (efuseOneByteWrite_other (by omega)).trans (h (addr + 1) (by omega) (by omega))
      have hword : writeWord wordEn data (addr, 0x0F, c) i
          = (addr + 2, 0x0F, burn c addr [data (2 * i), data (2 * i + 1)]) := by
        have hlow : (efuseOneByteWrite (efuseOneByteWrite c addr (data (2 * i))) (addr + 1)
            (data (2 * i + 1))).img addr = data (2 * i) :=
          (efuseOneByteWrite_other (by omega)).trans (efuseOneByteWrite_blank h0 _)
        have hhigh := efuseOneByteWrite_blank h1 (data (2 * i + 1))
        unfold writeWord
        dsimp only
        rw [if_pos hi, hlow, hhigh]
        simp [burn]
      rw [hword, henabled, List.flatMap_cons, burn_append]
      refine ih fun k hk hlt => ?_
      rw [burn_other _ _ _ (.inr (by simpa using hk))]
      exact h k (by omega) (by omega)

theorem halEfuseWordEnableDataWrite_blank {wordEn : UInt8} {data : Tbl} {c : Chip} {addr : Nat}
    (h : ∀ i, addr ≤ i → i < addr + dataLen wordEn → c.img i = 0xFF) :
    halEfuseWordEnableDataWrite c addr wordEn data = (0x0F, burn c addr (encWords wordEn data)) := by
  refine foldl_writeWord _ fun i hi hlt => h i hi ?_
  rw [length_enabled] at hlt
  exact hlt

/-! ## 3. The size -/

/-- `EfuseUsedBytes` is where a scan may start: the end of the log, or the header of a packet,
from where the scan goes back to address 0. -/
def UsedOk (c : Chip) (e : Nat) : Prop :=
  c.usedBytes = e ∨ c.usedBytes < efuseRealContentLen ∧ c.img c.usedBytes ≠ 0xFF

/-- A scan that starts at a header goes back to address 0 after three turns. -/
theorem sizeLoop_restart {img : Raw} {u : Nat} (hpos : u ≠ 0) (hlt : u < efuseRealContentLen)
    (hhdr : img u ≠ 0xFF) :
    sizeLoop img u = runLoop (sizeTurn img) (2 * efuseRealContentLen + 1) ⟨0, 0, 3, false, []⟩ := by
  have hagain : ∀ count < 2, sizeTurn img ⟨u, u, count, false, []⟩
      = .go ⟨u, u, count + 1, false, []⟩ := by
    intro count hcount
    have h4 : count + 1 < 4 := by omega
    have h2 : ¬count + 1 > 2 := by omega
    simp only [sizeTurn, if_pos hlt, if_neg hhdr, ne_eq, hpos, not_false_eq_true, and_self, if_true,
      if_pos h4, if_neg h2]
  have hback : sizeTurn img ⟨u, u, 2, false, []⟩ = .go ⟨0, 0, 3, false, []⟩ := by
    simp [sizeTurn, hlt, hhdr, hpos]
  unfold sizeLoop
  rw [runLoop_go (hagain 0 (by decide)), runLoop_go (hagain 1 (by decide)), runLoop_go hback]

/-- **The end of a log is found** from wherever `EfuseUsedBytes` is. -/
theorem efuseGetCurrentSize_log {c : Chip} {ps : List Packet} {e : Nat} (h : Log c.img ps e)
    (he : e < efuseRealContentLen) (hused : UsedOk c e) :
    efuseGetCurrentSize c = (e, { c with usedBytes := e }) := by
  have hsplit : sizeSplit c.img 0 = (ps, e) := h.split_eq (by decide)
  suffices hsize : halEfuseGetCurrentSizeWiFi c.img c.usedBytes = (e, e) by
    unfold efuseGetCurrentSize
    rw [hsize]
  by_cases hzero : c.usedBytes = 0
  · rw [hzero, (sizeLoop_zero c.img).2, hsplit]
  rcases hused with heq | ⟨hlt, hhdr⟩
  · have hstop : sizeTurn c.img ⟨e, e, 0, false, []⟩ = .stop ⟨e, e, 0, false, []⟩ := by
      simp [sizeTurn, he, h.blank e (Nat.le_refl e) he]
    have hloop : sizeLoop c.img e = ⟨e, e, 0, false, []⟩ := runLoop_stop hstop _
    rw [heq]
    simp [halEfuseGetCurrentSizeWiFi, hloop]
  · obtain ⟨haddr, -, herr⟩ := runLoop_size c.img (s := ⟨0, 0, 3, false, []⟩) rfl rfl rfl rfl
      (n := 2 * efuseRealContentLen + 1) (by decide)
    rw [← sizeLoop_restart hzero hlt hhdr] at haddr herr
    simp [halEfuseGetCurrentSizeWiFi, haddr, herr, hsplit]

/-! ## 4. The packet -/

/-- The header of a packet. -/
def hdrBytes (offset wordEn : UInt8) : List UInt8 :=
  if offset.toNat ≥ efuseMaxSectionBase then [header2 offset, extHeader2 offset wordEn]
  else [header1 offset wordEn]

theorem halEfusePgPacketWriteHeader_blank {c : Chip} {e : Nat} {offset wordEn : UInt8}
    (hoff : offset.toNat < 128) (hmask : MaskOk wordEn) (he : e < availableEfuseBytes)
    (h0 : c.img e = 0xFF) (h1 : c.img (e + 1) = 0xFF) :
    halEfusePgPacketWriteHeader c e offset wordEn
      = (some (e + (hdrBytes offset wordEn).length - 1), burn c e (hdrBytes offset wordEn)) := by
  unfold halEfusePgPacketWriteHeader hdrBytes
  split
  · obtain ⟨hff, -⟩ := header2_decode offset hoff
    obtain ⟨hff', hwords, -, -⟩ := extHeader2_decode offset hoff wordEn hmask
    have hhdr := repeatHeader_done hff (efuseOneByteWrite_blank h0 (header2 offset))
      (efuseRepeatThreshold + 1)
    have hblank : (efuseOneByteWrite c e (header2 offset)).img (e + 1) = 0xFF :=
      (efuseOneByteWrite_other (by omega)).trans h1
    have hext := efuseOneByteWrite_blank hblank (extHeader2 offset wordEn)
    have hloop := repeatHeader_done hff' hext (efuseRepeatThreshold + 1)
    unfold halEfusePgPacketWrite2ByteHeader write2ByteHeaderLoop
    simp only [if_neg (Nat.not_le.mpr he), if_pos he, hhdr, hloop, hext, hwords,
      Bool.false_eq_true, if_false]
    rfl
  · rename_i hlow
    obtain ⟨hff, -⟩ := header1_decode offset (Nat.lt_of_not_le hlow) wordEn hmask
    have hhdr := repeatHeader_done hff (efuseOneByteWrite_blank h0 (header1 offset wordEn))
      (efuseRepeatThreshold + 1)
    unfold halEfusePgPacketWrite1ByteHeader
    simp only [hhdr]
    rfl

/-- The header reads back, and is not the end. -/
theorem head_hdrBytes {img : Raw} {e : Nat} {offset wordEn : UInt8} (hoff : offset.toNat < 128)
    (hmask : MaskOk wordEn)
    (h : bytes img e (hdrBytes offset wordEn).length = hdrBytes offset wordEn) :
    head img e = .pkt (e + (hdrBytes offset wordEn).length) offset wordEn ∧ img e ≠ 0xFF := by
  unfold hdrBytes at h ⊢
  split at h
  · rename_i hhigh
    rw [if_pos hhigh]
    obtain ⟨ha, htail⟩ := List.cons.inj h
    have ha1 := (List.cons.inj htail).1
    exact ⟨head_header2 hoff hmask ha ha1, fun hff => (header2_decode offset hoff).1 (ha ▸ hff)⟩
  · rename_i hlow
    rw [if_neg hlow]
    have ha := (List.cons.inj h).1
    have hsec : offset.toNat < 16 := Nat.lt_of_not_le hlow
    exact ⟨head_header1 hsec hmask ha,
      fun hff => (header1_decode offset hsec wordEn hmask).1 (ha ▸ hff)⟩

theorem encWords_wordEnable (wordEn : UInt8) (data blank : Tbl) :
    encWords wordEn (efuseWordEnableDataRead wordEn data blank) = encWords wordEn data := by
  unfold encWords
  refine List.flatMap_congr fun i hi => ?_
  obtain ⟨hrange, hword⟩ := List.mem_filter.mp hi
  have hlt : i < 4 := List.mem_range.mp hrange
  have heven : 2 * i < pgpktDataSize ∧ wordEnabled wordEn (2 * i / 2) = true := by
    rw [Nat.mul_div_cancel_left i (by decide)]
    exact ⟨by unfold pgpktDataSize; omega, hword⟩
  have hodd : 2 * i + 1 < pgpktDataSize ∧ wordEnabled wordEn ((2 * i + 1) / 2) = true := by
    have hhalf : (2 * i + 1) / 2 = i := by omega
    rw [hhalf]
    exact ⟨by unfold pgpktDataSize; omega, hword⟩
  unfold efuseWordEnableDataRead
  rw [if_pos heven, if_pos hodd]

/-- The bytes that a packet takes. -/
def packetLen (offset wordEn : UInt8) : Nat :=
  dataLen wordEn + if offset.toNat ≥ efuseMaxSectionBase then 2 else 1

theorem packetLen_eq (offset wordEn : UInt8) :
    packetLen offset wordEn = (hdrBytes offset wordEn).length + dataLen wordEn := by
  unfold packetLen hdrBytes
  split <;> simp [Nat.add_comm]

/-- **A packet for which there is space is appended to the log.** -/
theorem halEfusePgPacketWrite_log {c : Chip} {ps : List Packet} {e : Nat} (h : Log c.img ps e)
    (hused : UsedOk c e) {offset wordEn : UInt8} (hoff : offset.toNat < 128)
    (hmask : MaskOk wordEn) (hfits : e + packetLen offset wordEn < availableEfuseBytes)
    (pData : Tbl) (depth : Nat) :
    ∃ c', halEfusePgPacketWrite (depth + 1) c offset wordEn pData = (true, c') ∧
      Log c'.img (ps ++ [⟨offset, wordEn, encWords wordEn pData⟩]) (e + packetLen offset wordEn) ∧
      UsedOk c' (e + packetLen offset wordEn) := by
  have hroom : availableEfuseBytes ≤ efuseRealContentLen := by decide
  have hlen := packetLen_eq offset wordEn
  have hhdrLen : 0 < (hdrBytes offset wordEn).length := by
    unfold hdrBytes
    split <;> exact Nat.succ_pos _
  have hblank : ∀ i, e ≤ i → i < efuseRealContentLen → c.img i = 0xFF := h.blank
  have hsize := efuseGetCurrentSize_log h (by omega) hused
  have hcheck : halEfusePartialWriteCheck { c with usedBytes := e } = some e := by
    have hmod : e % efuseRealContentLen = e := Nat.mod_eq_of_lt (by omega)
    simp only [halEfusePartialWriteCheck, hmod, hblank e (Nat.le_refl e) (by omega)]
    exact if_neg (by omega)
  have hheader := halEfusePgPacketWriteHeader_blank (c := { c with usedBytes := e }) hoff hmask
    (by omega) (hblank e (Nat.le_refl e) (by omega)) (hblank (e + 1) (by omega) (by omega))
  generalize hc₁ : burn { c with usedBytes := e } e (hdrBytes offset wordEn) = c₁ at hheader
  have hother : ∀ i, i < e ∨ e + (hdrBytes offset wordEn).length ≤ i → c₁.img i = c.img i := by
    intro i hi
    rw [← hc₁]
    exact burn_other _ _ _ hi
  have hdata : halEfuseWordEnableDataWrite c₁ (e + (hdrBytes offset wordEn).length) wordEn
      (efuseWordEnableDataRead wordEn pData blankTbl)
      = (0x0F, burn c₁ (e + (hdrBytes offset wordEn).length)
          (encWords wordEn (efuseWordEnableDataRead wordEn pData blankTbl))) := by
    refine halEfuseWordEnableDataWrite_blank fun i hi hlt => ?_
    rw [hother i (.inr hi)]
    exact hblank i (by omega) (by omega)
  rw [encWords_wordEnable] at hdata
  have hcall : halEfusePgPacketWrite (depth + 1) c offset wordEn pData
      = (true, burn c₁ (e + (hdrBytes offset wordEn).length) (encWords wordEn pData)) := by
    have haddr : e + (hdrBytes offset wordEn).length - 1 + 1
        = e + (hdrBytes offset wordEn).length := by omega
    simp only [halEfusePgPacketWrite, hsize, hcheck, hheader, haddr, hdata,
      if_neg (show ¬e ≥ availableEfuseBytes by omega), if_true]
  generalize hc₂ : burn c₁ (e + (hdrBytes offset wordEn).length) (encWords wordEn pData) = c₂
    at hcall
  have hbelow : ∀ i, i < e + (hdrBytes offset wordEn).length → c₂.img i = c₁.img i := by
    intro i hi
    rw [← hc₂]
    exact burn_other _ _ _ (.inl hi)
  have hhdr : bytes c₂.img e (hdrBytes offset wordEn).length = hdrBytes offset wordEn := by
    rw [bytes_congr fun i _ hi => hbelow i hi, ← hc₁]
    refine bytes_burn _ fun i hi hlt => ?_
    exact hblank i hi (by omega)
  have hwords : bytes c₂.img (e + (hdrBytes offset wordEn).length) (dataLen wordEn)
      = encWords wordEn pData := by
    have hend : ∀ i, e + (hdrBytes offset wordEn).length ≤ i →
        i < e + (hdrBytes offset wordEn).length + (encWords wordEn pData).length →
        c₁.img i = 0xFF := by
      intro i hi hlt
      rw [length_encWords] at hlt
      rw [hother i (.inr hi)]
      exact hblank i (by omega) (by omega)
    have hburn := bytes_burn (encWords wordEn pData) hend
    rw [length_encWords, hc₂] at hburn
    exact hburn
  obtain ⟨hhead, hff⟩ := head_hdrBytes hoff hmask hhdr
  have hkeep : ∀ i, i < e ∨ e + (hdrBytes offset wordEn).length + dataLen wordEn ≤ i →
      c₂.img i = c.img i := by
    intro i hi
    rw [← hc₂, burn_other _ _ _ (by rw [length_encWords]; omega)]
    exact hother i (by omega)
  have happend := h.append hkeep hhead (by omega)
  rw [hwords] at happend
  refine ⟨c₂, hcall, ?_, ?_⟩
  · rw [hlen, ← Nat.add_assoc]
    exact happend
  · have hused₂ : c₂.usedBytes = e := by
      rw [← hc₂, burn_usedBytes, ← hc₁, burn_usedBytes]
    refine .inr ⟨?_, ?_⟩
    · rw [hused₂]
      omega
    · rw [hused₂]
      exact hff

end Rtl8723bs.Efuse
