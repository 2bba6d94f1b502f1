/-
# Which bytes of the EFUSE a packet write programs

They have to be blank, below the protected ones, and of the right bank.  Every operation has a
rule that says which bytes it needs for that, from one byte up to the whole call with the packets
of the words that went bad; a call returns because each of these takes a blank byte.
-/
import Mathlib.Data.Finset.Card
import Rtl8723bs.Efuse.Banks

namespace Rtl8723bs.Efuse.Banks

/-! ## 1. What may be programmed -/

/-- The bytes of a bank below the protected ones. -/
def bankLimit (bank : Nat) : Nat :=
  if bank = 0 then availableBytesBank .wifi else availableBytesBank .bt

/-- A byte that a call for the type may program: blank or being tried again, below the protected
ones, and not of the WiFi bank if the call is one for Bluetooth. -/
structure Burn.Good (typ : EfuseType) (b : Burn) : Prop where
  blank : b.old = 0xFF ∨ b.retry = true
  below : b.addr < bankLimit b.bank
  bank : typ = .bt → b.bank ≠ 0

/-- All that was programmed might be. -/
def AllGood (typ : EfuseType) (d : Dev) : Prop := ∀ b ∈ d.log, b.Good typ

/-- The byte at an address of the selected bank may be programmed. -/
structure Free (typ : EfuseType) (d : Dev) (addr : Nat) : Prop where
  blank : efuseOneByteRead d addr = 0xFF
  below : addr < bankLimit d.bank
  bank : typ = .bt → d.bank ≠ 0

/-- So may `n` bytes from an address on. -/
def Room (typ : EfuseType) (d : Dev) (addr n : Nat) : Prop := ∀ i < n, Free typ d (addr + i)

section Program

variable {typ : EfuseType} {stuck : Stuck} {d : Dev} {addr a n : Nat} {x : UInt8} {retry : Bool}

@[simp] theorem efuseOneByteWrite_bank :
    (efuseOneByteWrite stuck retry d addr x).bank = d.bank := rfl

/-- Programming a byte leaves the other bytes. -/
theorem efuseOneByteWrite_other (h : a ≠ addr) :
    efuseOneByteRead (efuseOneByteWrite stuck retry d addr x) a = efuseOneByteRead d a := by
  simp [efuseOneByteRead, efuseOneByteWrite, h]

theorem free_congr {d' : Dev} (hbank : d'.bank = d.bank)
    (hread : efuseOneByteRead d' addr = efuseOneByteRead d addr) :
    Free typ d' addr ↔ Free typ d addr := by
  constructor
  · intro h
    exact ⟨hread ▸ h.blank, hbank ▸ h.below, hbank ▸ h.bank⟩
  · intro h
    exact ⟨hread.trans h.blank, hbank ▸ h.below, hbank ▸ h.bank⟩

theorem room_succ : Room typ d addr (n + 1) ↔ Free typ d addr ∧ Room typ d (addr + 1) n := by
  constructor
  · intro h
    refine ⟨h 0 (Nat.succ_pos n), fun i hi => ?_⟩
    have hnext := h (1 + i) (by omega)
    rwa [← Nat.add_assoc] at hnext
  · rintro ⟨hfirst, hrest⟩ i hi
    cases i with
    | zero => exact hfirst
    | succ i =>
      have hnext := hrest i (by omega)
      rwa [Nat.add_assoc, Nat.add_comm 1 i] at hnext

theorem allGood_write : AllGood typ (efuseOneByteWrite stuck retry d addr x) ↔
    AllGood typ d ∧ Burn.Good typ ⟨d.bank, addr, efuseOneByteRead d addr, retry⟩ := by
  simp only [AllGood, efuseOneByteWrite, List.forall_mem_cons]
  exact And.comm

theorem good_false_iff : Burn.Good typ ⟨d.bank, addr, efuseOneByteRead d addr, false⟩ ↔
    Free typ d addr :=
  ⟨fun h => ⟨h.blank.resolve_right Bool.false_ne_true, h.below, h.bank⟩,
    fun h => ⟨.inl h.blank, h.below, h.bank⟩⟩

/-- **A byte programmed for the first time** has to be free. -/
theorem allGood_first : AllGood typ (efuseOneByteWrite stuck false d addr x) ↔
    AllGood typ d ∧ Free typ d addr := by
  rw [allGood_write, good_false_iff]

theorem repeatHeader_bank (stuck : Stuck) (addr : Nat) (x : UInt8) (n : Nat) (d : Dev) :
    (repeatHeader stuck addr x n d).2.bank = d.bank := by
  induction n generalizing d with
  | zero =>
    simp only [repeatHeader]
    split <;> rfl
  | succ n ih =>
    simp only [repeatHeader]
    split
    · exact ih _
    · rfl

theorem repeatHeader_other (stuck : Stuck) (x : UInt8) (n : Nat) (d : Dev) (h : a ≠ addr) :
    efuseOneByteRead (repeatHeader stuck addr x n d).2 a = efuseOneByteRead d a := by
  induction n generalizing d with
  | zero =>
    simp only [repeatHeader]
    split <;> rfl
  | succ n ih =>
    simp only [repeatHeader]
    split
    · exact (ih _).trans (efuseOneByteWrite_other h)
    · rfl

/-- Trying again adds nothing to what has to be free, below the protected bytes. -/
theorem allGood_repeatHeader (stuck : Stuck) (x : UInt8) (n : Nat) (d : Dev)
    (hbelow : addr < bankLimit d.bank) (hbank : typ = .bt → d.bank ≠ 0) :
    AllGood typ (repeatHeader stuck addr x n d).2 ↔ AllGood typ d := by
  induction n generalizing d with
  | zero =>
    simp only [repeatHeader]
    split <;> exact Iff.rfl
  | succ n ih =>
    simp only [repeatHeader]
    split
    · rw [ih (efuseOneByteWrite stuck true d addr x) hbelow hbank, allGood_write]
      exact and_iff_left ⟨.inr rfl, hbelow, hbank⟩
    · exact Iff.rfl

theorem allGood_of_repeatHeader (stuck : Stuck) (addr : Nat) (x : UInt8) (n : Nat) (d : Dev)
    (h : AllGood typ (repeatHeader stuck addr x n d).2) : AllGood typ d := by
  induction n generalizing d with
  | zero =>
    simp only [repeatHeader] at h
    split at h <;> exact h
  | succ n ih =>
    simp only [repeatHeader] at h
    split at h
    · exact (allGood_write.mp (ih _ h)).1
    · exact h

@[simp] theorem writeHeaderByte_bank :
    (writeHeaderByte stuck d addr x n).2.bank = d.bank := repeatHeader_bank ..

theorem writeHeaderByte_other (h : a ≠ addr) :
    efuseOneByteRead (writeHeaderByte stuck d addr x n).2 a = efuseOneByteRead d a :=
  (repeatHeader_other stuck x n _ h).trans (efuseOneByteWrite_other h)

/-- **A header byte** has to be free, however often it is tried. -/
theorem allGood_writeHeaderByte (typ : EfuseType) (stuck : Stuck) (d : Dev) (addr : Nat)
    (x : UInt8) (n : Nat) :
    AllGood typ (writeHeaderByte stuck d addr x n).2 ↔ AllGood typ d ∧ Free typ d addr := by
  constructor
  · intro h
    exact allGood_first.mp (allGood_of_repeatHeader _ _ _ _ _ h)
  · intro h
    have hfirst : AllGood typ (efuseOneByteWrite stuck false d addr x) := allGood_first.mpr h
    exact (allGood_repeatHeader stuck x n (efuseOneByteWrite stuck false d addr x) h.2.below
      h.2.bank).mpr hfirst

/-- **The words** need all the bytes that they take. -/
theorem allGood_words (typ : EfuseType) (stuck : Stuck) (wordEn : UInt8) (data : Tbl)
    (is : List Nat) (addr : Nat) (bad : UInt8) (d : Dev) :
    AllGood typ (is.foldl (writeWord stuck wordEn data) (addr, bad, d)).2.2 ↔
      AllGood typ d ∧ Room typ d addr (2 * (enabled wordEn is).length) := by
  induction is generalizing addr bad d with
  | nil => simp [enabled, Room]
  | cons i is ih =>
    rw [List.foldl_cons]
    cases hi : wordEnabled wordEn i with
    | false =>
      have hskip : writeWord stuck wordEn data (addr, bad, d) i = (addr, bad, d) := by
        simp [writeWord, hi]
      have henabled : enabled wordEn (i :: is) = enabled wordEn is := by simp [enabled, hi]
      rw [hskip, henabled]
      exact ih addr bad d
    | true =>
      have henabled : enabled wordEn (i :: is) = i :: enabled wordEn is := by simp [enabled, hi]
      generalize hd₁ : efuseOneByteWrite stuck false d addr (data (2 * i)) = d₁
      generalize hd₂ : efuseOneByteWrite stuck false d₁ (addr + 1) (data (2 * i + 1)) = d₂
      have hword : writeWord stuck wordEn data (addr, bad, d) i
          = (addr + 2, (writeWord stuck wordEn data (addr, bad, d) i).2.1, d₂) := by
        simp only [writeWord, hi, if_true, hd₁, hd₂]
      have hbank₁ : d₁.bank = d.bank := by rw [← hd₁]; rfl
      have hbank₂ : d₂.bank = d.bank := by rw [← hd₂]; exact hbank₁
      have hread₁ : ∀ a, a ≠ addr → efuseOneByteRead d₁ a = efuseOneByteRead d a := by
        intro a ha
        rw [← hd₁]
        exact efuseOneByteWrite_other ha
      have hread₂ : ∀ a, addr + 2 ≤ a → efuseOneByteRead d₂ a = efuseOneByteRead d a := by
        intro a ha
        rw [← hd₂, efuseOneByteWrite_other (by omega)]
        exact hread₁ a (by omega)
      have hgood₁ : AllGood typ d₁ ↔ AllGood typ d ∧ Free typ d addr := by
        rw [← hd₁]
        exact allGood_first
      have hgood₂ : AllGood typ d₂ ↔ AllGood typ d₁ ∧ Free typ d (addr + 1) := by
        rw [← free_congr hbank₁ (hread₁ (addr + 1) (by omega)), ← hd₂]
        exact allGood_first
      have hroom : Room typ d₂ (addr + 2) (2 * (enabled wordEn is).length) ↔
          Room typ d (addr + 2) (2 * (enabled wordEn is).length) :=
        forall₂_congr fun i _ => free_congr hbank₂ (hread₂ _ (by omega))
      rw [hword, ih, hroom, hgood₂, hgood₁, henabled, List.length_cons, Nat.mul_succ, room_succ,
        room_succ]
      simp only [and_assoc]

theorem allGood_wordEnableDataWrite {wordEn : UInt8} {data : Tbl} :
    AllGood typ (halEfuseWordEnableDataWrite stuck d addr wordEn data).2 ↔
      AllGood typ d ∧ Room typ d addr (dataLen wordEn) := by
  have hwords := allGood_words typ stuck wordEn data (List.range efuseMaxWordUnit) addr 0x0F d
  rw [length_enabled] at hwords
  exact hwords

end Program

/-! ## 2. Cells stay programmed -/

/-- No byte that was programmed is blank again. -/
def Kept (d d' : Dev) : Prop := ∀ bank addr, d'.img bank addr = 0xFF → d.img bank addr = 0xFF

theorem Kept.refl (d : Dev) : Kept d d := fun _ _ h => h

theorem Kept.trans {d d₁ d₂ : Dev} (h : Kept d d₁) (h' : Kept d₁ d₂) : Kept d d₂ :=
  fun bank addr hff => h bank addr (h' bank addr hff)

theorem ff_of_and {x y : UInt8} (h : x &&& y = 0xFF) : x = 0xFF := by
  have hle : x &&& y ≤ x := by
    rw [UInt8.and_comm]
    exact UInt8.and_le_right
  rw [h, UInt8.le_iff_toNat_le] at hle
  have hlt := x.toNat_lt
  have hff : (0xFF : UInt8).toNat = 255 := rfl
  exact UInt8.toNat_inj.mp (by omega)

section Kept

variable {stuck : Stuck}

theorem kept_write (stuck : Stuck) (retry : Bool) (d : Dev) (addr : Nat) (x : UInt8) :
    Kept d (efuseOneByteWrite stuck retry d addr x) := by
  intro bank a hff
  by_cases hbank : bank = d.bank
  · subst hbank
    by_cases ha : a = addr
    · subst ha
      simp only [efuseOneByteWrite, Function.update_self] at hff
      exact ff_of_and hff
    · simpa [efuseOneByteWrite, ha] using hff
  · simpa [efuseOneByteWrite, hbank] using hff

theorem kept_repeatHeader (stuck : Stuck) (addr : Nat) (x : UInt8) (n : Nat) (d : Dev) :
    Kept d (repeatHeader stuck addr x n d).2 := by
  induction n generalizing d with
  | zero =>
    simp only [repeatHeader]
    split <;> exact Kept.refl d
  | succ n ih =>
    simp only [repeatHeader]
    split
    · exact (kept_write stuck true d addr x).trans (ih _)
    · exact Kept.refl d

theorem kept_writeHeaderByte (stuck : Stuck) (d : Dev) (addr : Nat) (x : UInt8) (n : Nat) :
    Kept d (writeHeaderByte stuck d addr x n).2 :=
  (kept_write stuck false d addr x).trans (kept_repeatHeader stuck addr x n _)

/-- A header byte that reads back is not blank. -/
theorem repeatHeader_read {addr : Nat} {x : UInt8} {n m : Nat} {d d' : Dev}
    (h : repeatHeader stuck addr x n d = (some m, d')) : efuseOneByteRead d' addr ≠ 0xFF := by
  induction n generalizing d with
  | zero =>
    simp only [repeatHeader] at h
    split at h
    · cases h
    · rename_i hok
      cases h
      exact fun hff => hok (.inl hff)
  | succ n ih =>
    simp only [repeatHeader] at h
    split at h
    · exact ih h
    · rename_i hok
      cases h
      exact fun hff => hok (.inl hff)

theorem kept_words (stuck : Stuck) (wordEn : UInt8) (data : Tbl) (is : List Nat) (addr : Nat)
    (bad : UInt8) (d : Dev) :
    Kept d (is.foldl (writeWord stuck wordEn data) (addr, bad, d)).2.2 ∧
      (is.foldl (writeWord stuck wordEn data) (addr, bad, d)).2.2.bank = d.bank := by
  induction is generalizing addr bad d with
  | nil => exact ⟨Kept.refl d, rfl⟩
  | cons i is ih =>
    rw [List.foldl_cons]
    unfold writeWord
    dsimp only
    split
    · obtain ⟨hkept, hbank⟩ := ih (addr + 2) _ _
      have hlow := kept_write stuck false d addr (data (2 * i))
      have hhigh := kept_write stuck false (efuseOneByteWrite stuck false d addr (data (2 * i)))
        (addr + 1) (data (2 * i + 1))
      exact ⟨(hlow.trans hhigh).trans hkept, hbank⟩
    · exact ih addr bad d

end Kept

/-! ## 3. A packet -/

/-- The bytes of the header that `hal_EfusePgPacketWrite2ByteHeader` comes to are free; behind a
header without words that is another one. -/
def LoopFits (whole : EfuseType) (stuck : Stuck) (typ : EfuseType) (offset wordEn : UInt8) :
    Nat → Nat → Dev → Nat → Prop
  | 0, _, _, _ => True
  | turns + 1, n, d, addr =>
    addr < availableBytesBank typ →
      Free whole d addr ∧
      match writeHeaderByte stuck d addr (header2 offset) n with
      | (none, _) => True
      | (some n, d) =>
        Free whole d (addr + 1) ∧
        match writeHeaderByte stuck d (addr + 1) (extHeader2 offset wordEn) n with
        | (some (n + 1), d) =>
          allWordsDisabled (efuseOneByteRead d (addr + 1)) = true →
            LoopFits whole stuck typ offset wordEn turns n d (addr + 2)
        | _ => True

/-- The bytes of the header that are come to are free. -/
def HeaderFits (whole : EfuseType) (stuck : Stuck) (typ : EfuseType) (offset wordEn : UInt8)
    (d : Dev) (addr : Nat) : Prop :=
  if offset.toNat ≥ efuseMaxSectionBase then
    LoopFits whole stuck typ offset wordEn (efuseRepeatThreshold + 2) (efuseRepeatThreshold + 1) d
      addr
  else Free whole d addr

/-- **There is room for the packet** where it starts: for its header, and behind a header that
reads back for the words. -/
def PacketFits (whole : EfuseType) (stuck : Stuck) (offset : UInt8) (c : Call) : Prop :=
  ∀ startAddr d, packetStart c = (some startAddr, d) →
    HeaderFits whole stuck c.typ offset c.wordEn d startAddr ∧
    ∀ addr, (halEfusePgPacketWriteHeader stuck c.typ d startAddr offset c.wordEn).1 = some addr →
      Room whole d (addr + 1) (dataLen c.wordEn)

section Packet

variable {whole typ : EfuseType} {stuck : Stuck} {d : Dev} {addr n : Nat} {offset wordEn : UInt8}

theorem allGood_loop (turns n : Nat) (d : Dev) (addr : Nat) :
    AllGood whole (write2ByteHeaderLoop stuck typ offset wordEn turns n d addr).2 ↔
      AllGood whole d ∧ LoopFits whole stuck typ offset wordEn turns n d addr := by
  induction turns generalizing n d addr with
  | zero => exact (and_iff_left trivial).symm
  | succ turns ih =>
    unfold write2ByteHeaderLoop LoopFits
    by_cases hlt : addr < availableBytesBank typ
    · simp only [hlt, if_true, forall_const]
      have hhdr := allGood_writeHeaderByte whole stuck d addr (header2 offset) n
      generalize writeHeaderByte stuck d addr (header2 offset) n = r at hhdr ⊢
      obtain ⟨_ | n₁, d₁⟩ := r
      · simpa only [and_true] using hhdr
      · have hext := allGood_writeHeaderByte whole stuck d₁ (addr + 1) (extHeader2 offset wordEn) n₁
        dsimp only at hhdr ⊢
        rw [← and_assoc, ← hhdr, ← and_assoc]
        generalize writeHeaderByte stuck d₁ (addr + 1) (extHeader2 offset wordEn) n₁ = r at hext ⊢
        obtain ⟨_ | n₂, d₂⟩ := r
        · simpa only [and_true] using hext
        · dsimp only at hext ⊢
          rw [← hext]
          cases hwords : allWordsDisabled (efuseOneByteRead d₂ (addr + 1)) with
          | false => cases n₂ <;> simp [hwords]
          | true =>
            cases n₂ with
            | zero => simp
            | succ n₂ => simpa [hwords] using ih n₂ d₂ (addr + 2)
    · rw [if_neg hlt]
      exact (and_iff_left fun h => absurd h hlt).symm

theorem allGood_header (whole : EfuseType) (stuck : Stuck) (typ : EfuseType) (d : Dev) (addr : Nat)
    (offset wordEn : UInt8) :
    AllGood whole (halEfusePgPacketWriteHeader stuck typ d addr offset wordEn).2 ↔
      AllGood whole d ∧ HeaderFits whole stuck typ offset wordEn d addr := by
  unfold halEfusePgPacketWriteHeader HeaderFits
  split
  · unfold halEfusePgPacketWrite2ByteHeader
    by_cases hge : addr ≥ availableBytesBank typ
    · rw [if_pos hge]
      exact (and_iff_left fun hlt => absurd hge (Nat.not_le.mpr hlt)).symm
    · rw [if_neg hge]
      exact allGood_loop _ _ _ _
  · have hhdr := allGood_writeHeaderByte whole stuck d addr (header1 offset wordEn)
      (efuseRepeatThreshold + 1)
    unfold halEfusePgPacketWrite1ByteHeader
    generalize writeHeaderByte stuck d addr (header1 offset wordEn) (efuseRepeatThreshold + 1) = r
      at hhdr ⊢
    obtain ⟨_ | n₁, d₁⟩ := r <;> exact hhdr

/-- What a header leaves: the bank, and the bytes behind it. -/
structure Behind (d d' : Dev) (addr : Nat) : Prop where
  bank : d'.bank = d.bank
  read : ∀ a, addr < a → efuseOneByteRead d' a = efuseOneByteRead d a
  kept : Kept d d'

theorem behind_writeHeaderByte (stuck : Stuck) (d : Dev) (addr : Nat) (x : UInt8) (n : Nat) :
    Behind d (writeHeaderByte stuck d addr x n).2 addr :=
  ⟨writeHeaderByte_bank, fun _ ha => writeHeaderByte_other (Nat.ne_of_gt ha),
    kept_writeHeaderByte stuck d addr x n⟩

theorem Behind.trans {d₁ d₂ : Dev} {b : Nat} (h : Behind d d₁ addr) (h' : Behind d₁ d₂ b)
    (hle : addr ≤ b) : Behind d d₂ b :=
  ⟨h'.bank.trans h.bank, fun a ha => (h'.read a ha).trans (h.read a (Nat.lt_of_le_of_lt hle ha)),
    h.kept.trans h'.kept⟩

/-- A header byte that was not blank behind the first is not blank in the end. -/
theorem Behind.read_ne {d₁ : Dev} {b : Nat} (h : Behind d d₁ b)
    (hread : efuseOneByteRead d addr ≠ 0xFF) : efuseOneByteRead d₁ addr ≠ 0xFF := by
  intro hff
  unfold efuseOneByteRead at hread hff
  rw [h.bank] at hff
  exact hread (h.kept _ _ hff)

/-- **A header that is written** leaves the bytes behind it, and its first byte is not blank. -/
theorem behind_loop {turns : Nat} {d' : Dev} {b : Nat}
    (h : write2ByteHeaderLoop stuck typ offset wordEn turns n d addr = (some b, d')) :
    addr ≤ b ∧ Behind d d' b ∧
      (addr < availableBytesBank typ → efuseOneByteRead d' addr ≠ 0xFF) := by
  induction turns generalizing n d addr with
  | zero => cases h
  | succ turns ih =>
    unfold write2ByteHeaderLoop at h
    split at h
    · have hhdr := behind_writeHeaderByte stuck d addr (header2 offset) n
      cases hfirst : writeHeaderByte stuck d addr (header2 offset) n with
      | mk left d₁ =>
        rw [hfirst] at h hhdr
        cases left with
        | none => cases h
        | some n₁ =>
          have hread₁ : efuseOneByteRead d₁ addr ≠ 0xFF := repeatHeader_read hfirst
          have hext := behind_writeHeaderByte stuck d₁ (addr + 1) (extHeader2 offset wordEn) n₁
          dsimp only at h hhdr
          generalize writeHeaderByte stuck d₁ (addr + 1) (extHeader2 offset wordEn) n₁ = r
            at h hext
          obtain ⟨_ | n₂, d₂⟩ := r
          · cases h
          · have hboth : Behind d d₂ (addr + 1) := hhdr.trans hext (Nat.le_succ addr)
            have hread₂ : efuseOneByteRead d₂ addr ≠ 0xFF := hext.read_ne hread₁
            dsimp only at h
            split at h
            · cases n₂ with
              | zero => cases h
              | succ n₂ =>
                obtain ⟨hle, hrest, -⟩ := ih h
                exact ⟨by omega, hboth.trans hrest (by omega), fun _ => hrest.read_ne hread₂⟩
            · cases h
              exact ⟨Nat.le_succ addr, hboth, fun _ => hread₂⟩
    · rename_i hge
      cases h
      exact ⟨Nat.le_refl _, ⟨rfl, fun _ _ => rfl, Kept.refl _⟩, fun hlt => absurd hlt hge⟩

theorem behind_header {d' : Dev} {b : Nat}
    (h : halEfusePgPacketWriteHeader stuck typ d addr offset wordEn = (some b, d')) :
    Behind d d' b ∧ efuseOneByteRead d' addr ≠ 0xFF := by
  unfold halEfusePgPacketWriteHeader at h
  split at h
  · unfold halEfusePgPacketWrite2ByteHeader at h
    split at h
    · cases h
    · rename_i hlt
      obtain ⟨-, hbehind, hread⟩ := behind_loop h
      exact ⟨hbehind, hread (Nat.lt_of_not_le hlt)⟩
  · have hhdr := behind_writeHeaderByte stuck d addr (header1 offset wordEn)
      (efuseRepeatThreshold + 1)
    unfold halEfusePgPacketWrite1ByteHeader at h
    cases hfirst : writeHeaderByte stuck d addr (header1 offset wordEn)
        (efuseRepeatThreshold + 1) with
    | mk left d₁ =>
      rw [hfirst] at h hhdr
      cases left with
      | none => cases h
      | some n₁ =>
        cases h
        exact ⟨hhdr, repeatHeader_read hfirst⟩

end Packet

/-- What a packet leaves. -/
def Outcome.dev : Outcome → Dev
  | .done _ d => d
  | .again c => c.dev

theorem btBankLoop_log (n : Nat) (d : Dev) (bank efuseAddr : Nat) :
    (btBankLoop n d bank efuseAddr).2.2.log = d.log := by
  induction n generalizing d bank efuseAddr with
  | zero => rfl
  | succ n ih =>
    simp only [btBankLoop]
    split
    · rfl
    · split
      · rfl
      · exact ih _ _ _

theorem packetStart_log (c : Call) : (packetStart c).2.log = c.dev.log := by
  have hsize : (efuseGetCurrentSize c.typ c.dev).2.log = c.dev.log := by
    cases c.typ with
    | wifi => rfl
    | bt => exact btBankLoop_log _ _ _ _
  unfold packetStart halEfusePgCheckAvailableAddr
  dsimp only
  split <;> exact hsize

/-- **What a packet programs is good** where there is room for it. -/
theorem allGood_turn (whole : EfuseType) (stuck : Stuck) (offset : UInt8) (c : Call) :
    AllGood whole (packetTurn stuck offset c).dev ↔
      AllGood whole c.dev ∧ PacketFits whole stuck offset c := by
  have hlog : AllGood whole (packetStart c).2 ↔ AllGood whole c.dev := by
    unfold AllGood
    rw [packetStart_log]
  unfold packetTurn PacketFits
  rw [← hlog]
  generalize packetStart c = r
  obtain ⟨_ | startAddr, d⟩ := r
  · exact (and_iff_left fun _ _ h => nomatch h).symm
  · have hheader := allGood_header whole stuck c.typ d startAddr offset c.wordEn
    have hfits : (∀ s e, (some startAddr, d) = (some s, e) →
        HeaderFits whole stuck c.typ offset c.wordEn e s ∧
        ∀ addr, (halEfusePgPacketWriteHeader stuck c.typ e s offset c.wordEn).1 = some addr →
          Room whole e (addr + 1) (dataLen c.wordEn)) ↔
        HeaderFits whole stuck c.typ offset c.wordEn d startAddr ∧
        ∀ addr,
          (halEfusePgPacketWriteHeader stuck c.typ d startAddr offset c.wordEn).1 = some addr →
          Room whole d (addr + 1) (dataLen c.wordEn) := by
      constructor
      · intro h
        exact h startAddr d rfl
      · rintro h s e ⟨⟩
        exact h
    rw [hfits, ← and_assoc, ← hheader]
    dsimp only
    cases hhdr : halEfusePgPacketWriteHeader stuck c.typ d startAddr offset c.wordEn with
    | mk found d₁ =>
      cases found with
      | none => simp [Outcome.dev]
      | some addr =>
        obtain ⟨⟨hbank, hread, -⟩, -⟩ := behind_header hhdr
        have hroom : Room whole d₁ (addr + 1) (dataLen c.wordEn) ↔
            Room whole d (addr + 1) (dataLen c.wordEn) :=
          forall₂_congr fun i _ => free_congr hbank (hread _ (by omega))
        have hwords : AllGood whole (halEfuseWordEnableDataWrite stuck d₁ (addr + 1) c.wordEn
            (efuseWordEnableDataRead c.wordEn c.pData blankTbl)).2 ↔
            AllGood whole d₁ ∧ Room whole d (addr + 1) (dataLen c.wordEn) := by
          rw [← hroom]
          exact allGood_wordEnableDataWrite
        dsimp only
        rw [apply_ite Outcome.dev]
        simpa [Outcome.dev] using hwords

/-! ## 4. The call -/

/-- A packet of WiFi starts at a blank byte of bank 0. -/
theorem packetStart_wifi {c : Call} (htyp : c.typ = .wifi) {startAddr : Nat} {d : Dev}
    (h : packetStart c = (some startAddr, d)) :
    d.bank = 0 ∧ d.img = c.dev.img ∧ startAddr < availableEfuseBytes ∧
      efuseOneByteRead d startAddr = 0xFF := by
  unfold packetStart halEfusePgCheckAvailableAddr at h
  rw [htyp] at h
  dsimp only at h
  split at h
  · obtain ⟨hcheck, hd⟩ := Prod.mk.inj h
    unfold halEfusePartialWriteCheck at hcheck
    dsimp only at hcheck
    split at hcheck
    · cases hcheck
    · rename_i hlt
      split at hcheck
      · cases hcheck
      · rename_i hblank
        cases hcheck
        subst hd
        exact ⟨rfl, rfl, Nat.lt_of_not_le hlt, not_not.mp hblank⟩
  · cases h

/-- The blank bytes of the WiFi bank that packets may still start at. -/
def blanks (d : Dev) : Nat :=
  ((Finset.range availableEfuseBytes).filter fun a => d.img 0 a = 0xFF).card

/-- A packet with bad words has taken a blank byte of the WiFi bank, if it was for that bank. -/
theorem blanks_again {stuck : Stuck} {offset : UInt8} {c c' : Call}
    (h : packetTurn stuck offset c = .again c') :
    c'.typ = .wifi ∧ (c.typ = .wifi → blanks c'.dev < blanks c.dev) := by
  unfold packetTurn at h
  cases hstart : packetStart c with
  | mk found d =>
    rw [hstart] at h
    cases found with
    | none => cases h
    | some startAddr =>
      cases hhdr : halEfusePgPacketWriteHeader stuck c.typ d startAddr offset c.wordEn with
      | mk found d₁ =>
        dsimp only at h
        rw [hhdr] at h
        cases found with
        | none => cases h
        | some addr =>
          obtain ⟨hwords, hbank₂⟩ := kept_words stuck c.wordEn
            (efuseWordEnableDataRead c.wordEn c.pData blankTbl) (List.range efuseMaxWordUnit)
            (addr + 1) 0x0F d₁
          dsimp only at h
          split at h
          · cases h
          · cases h
            refine ⟨rfl, fun htyp => ?_⟩
            obtain ⟨hbank, himg, hlt, hblank⟩ := packetStart_wifi htyp hstart
            obtain ⟨hbehind, hread⟩ := behind_header hhdr
            have hkept := hbehind.kept.trans hwords
            refine Finset.card_lt_card (Finset.ssubset_iff_of_subset (fun a ha => ?_) |>.mpr
              ⟨startAddr, ?_, ?_⟩)
            · rw [Finset.mem_filter] at ha ⊢
              exact ⟨ha.1, himg ▸ hkept 0 a ha.2⟩
            · rw [Finset.mem_filter, Finset.mem_range, ← himg, ← hbank]
              exact ⟨hlt, hblank⟩
            · intro hmem
              have hff := (Finset.mem_filter.mp hmem).2
              refine hread ?_
              unfold efuseOneByteRead
              rw [hbehind.bank, hbank]
              exact hwords 0 startAddr hff

/-- The packets that a call comes to: its own, and those of words that went bad. -/
inductive Reached (stuck : Stuck) (offset : UInt8) : Call → Call → Prop
  | start (c : Call) : Reached stuck offset c c
  | again {c c₁ c₂ : Call} (turn : packetTurn stuck offset c = .again c₁)
      (rest : Reached stuck offset c₁ c₂) : Reached stuck offset c c₂

/-- **What a call programs is good** where there is room for every packet that it comes to. -/
theorem allGood_run {whole : EfuseType} {stuck : Stuck} {offset : UInt8} {depth : Nat} {c : Call}
    {ok : Bool} {d : Dev} (h : halEfusePgPacketWrite stuck offset depth c = some (ok, d)) :
    AllGood whole d ↔
      AllGood whole c.dev ∧ ∀ c', Reached stuck offset c c' → PacketFits whole stuck offset c' := by
  induction depth generalizing c with
  | zero => cases h
  | succ depth ih =>
    have hturn := allGood_turn whole stuck offset c
    unfold halEfusePgPacketWrite at h
    cases hout : packetTurn stuck offset c with
    | done ok' d' =>
      rw [hout] at h hturn
      cases h
      refine hturn.trans (and_congr_right fun _ => ⟨fun hfits c' hreach => ?_, fun hall => ?_⟩)
      · cases hreach with
        | start => exact hfits
        | again turn => cases hout.symm.trans turn
      · exact hall c (.start c)
    | again c₁ =>
      rw [hout] at h hturn
      rw [ih h]
      refine (and_congr_left' hturn).trans ⟨?_, ?_⟩
      · rintro ⟨⟨hgood, hfits⟩, hall⟩
        refine ⟨hgood, fun c' hreach => ?_⟩
        cases hreach with
        | start => exact hfits
        | again turn rest =>
          cases hout.symm.trans turn
          exact hall c' rest
      · rintro ⟨hgood, hall⟩
        exact ⟨⟨hgood, hall c (.start c)⟩, fun c' hreach => hall c' (.again hout hreach)⟩

/-- **A call returns**, after at most as many packets as there are blank bytes. -/
theorem run_returns (stuck : Stuck) (offset : UInt8) (c : Call) :
    ∃ depth r, halEfusePgPacketWrite stuck offset depth c = some r := by
  have hwifi : ∀ n (c : Call), c.typ = .wifi → blanks c.dev < n →
      ∃ r, halEfusePgPacketWrite stuck offset n c = some r := by
    intro n
    induction n with
    | zero =>
      intro c htyp hblanks
      omega
    | succ n ih =>
      intro c htyp hblanks
      cases hout : packetTurn stuck offset c with
      | done ok d => exact ⟨(ok, d), by simp [halEfusePgPacketWrite, hout]⟩
      | again c₁ =>
        obtain ⟨htyp₁, hless⟩ := blanks_again hout
        have hfewer := hless htyp
        obtain ⟨r, hr⟩ := ih c₁ htyp₁ (by omega)
        exact ⟨r, by simp [halEfusePgPacketWrite, hout, hr]⟩
  cases hout : packetTurn stuck offset c with
  | done ok d => exact ⟨1, (ok, d), by simp [halEfusePgPacketWrite, hout]⟩
  | again c₁ =>
    obtain ⟨htyp₁, -⟩ := blanks_again hout
    obtain ⟨r, hr⟩ := hwifi (blanks c₁.dev + 1) c₁ htyp₁ (Nat.lt_succ_self _)
    exact ⟨blanks c₁.dev + 1 + 1, r, by rw [halEfusePgPacketWrite, hout]; exact hr⟩

/-- A call, with nothing programmed by it so far. -/
def Call.fresh (c : Call) : Call := { c with dev := { c.dev with log := [] } }

/-- **A call stays where it may**: it returns, and what it programmed were blank bytes, or bytes
being tried again, below the protected ones, and none of the WiFi bank if it is for Bluetooth. -/
def Stays (stuck : Stuck) (offset : UInt8) (c : Call) : Prop :=
  ∃ depth ok d, halEfusePgPacketWrite stuck offset depth c.fresh = some (ok, d) ∧ AllGood c.typ d

/-- **Bad words of a Bluetooth packet** have no room: they go to the WiFi bank. -/
theorem packetFits_wifi_iff {stuck : Stuck} {offset : UInt8} {c : Call} (htyp : c.typ = .wifi) :
    PacketFits .bt stuck offset c ↔ (packetStart c).1 = none := by
  constructor
  · intro h
    cases hstart : packetStart c with
    | mk found d =>
      cases found with
      | none => rfl
      | some startAddr =>
        obtain ⟨hbank, -, hlt, -⟩ := packetStart_wifi htyp hstart
        obtain ⟨hheader, -⟩ := h startAddr d hstart
        have hfree : Free .bt d startAddr := by
          unfold HeaderFits at hheader
          split at hheader
          · rw [htyp] at hheader
            exact (hheader hlt).1
          · exact hheader
        exact absurd hbank (hfree.bank rfl)
  · intro h startAddr d hstart
    rw [hstart] at h
    cases h

/-- The scan of the Bluetooth banks leaves one of them selected, unless `BTEfuseUsedBytes` is
behind both. -/
theorem bt_bank {d : Dev} (h : d.btUsedBytes / efuseBtRealBankContentLen < 2) :
    (halEfuseGetCurrentSizeBT d).2.bank ≠ 0 := by
  have hloop : ∀ n (d : Dev) bank efuseAddr, 0 < bank → 0 < n →
      (btBankLoop n d bank efuseAddr).2.2.bank ≠ 0 := by
    intro n
    induction n with
    | zero =>
      intro d bank efuseAddr _ hn
      omega
    | succ n ih =>
      intro d bank efuseAddr hbank _
      simp only [btBankLoop]
      split
      · exact Nat.ne_of_gt hbank
      · split
        · exact Nat.ne_of_gt hbank
        · exact ih _ _ _ (Nat.succ_pos bank) (by omega)
  exact hloop _ d _ _ (Nat.add_pos_left Nat.one_pos _) (by omega)

/-- **A packet write stays in its bank and below the protected bytes exactly when there is room
for every packet it comes to**, whatever bits are stuck. -/
theorem efuse_write_stays_iff (stuck : Stuck) (offset : UInt8) (c : Call) :
    Stays stuck offset c ↔
      ∀ c', Reached stuck offset c.fresh c' → PacketFits c.typ stuck offset c' := by
  have hempty : AllGood c.typ c.fresh.dev := fun b hb => nomatch hb
  constructor
  · rintro ⟨depth, ok, d, hrun, hgood⟩
    exact ((allGood_run hrun).mp hgood).2
  · intro hfits
    obtain ⟨depth, ⟨ok, d⟩, hrun⟩ := run_returns stuck offset c.fresh
    exact ⟨depth, ok, d, hrun, (allGood_run hrun).mpr ⟨hempty, hfits⟩⟩

/-- A packet of one word for blank Bluetooth banks. -/
def btPacket : Call := ⟨.bt, 0x0E, fun _ => 0, ⟨fun _ _ => 0xFF, 0, 0, 0, []⟩⟩

/-- The first byte of the word is stuck. -/
def stuckWord : Stuck := fun k => if k = 1 then 0xFF else 0

/-- A packet of four words for a WiFi bank with 490 bytes used. -/
def lastPacket : Call :=
  ⟨.wifi, 0x00, fun _ => 0, ⟨fun _ a => if a < 490 then 0x1F else 0xFF, 0, 490, 0, []⟩⟩

/-- The bad word of a Bluetooth packet is programmed in the WiFi bank, and a packet of nine bytes
at 490 goes over the end at 497 although nothing is stuck. -/
theorem efuse_write_leaves :
    ¬Stays stuckWord 1 btPacket ∧ ¬Stays (fun _ => 0) 1 lastPacket := by
  constructor
  · rintro ⟨depth, ok, d, hrun, hgood⟩
    obtain ⟨-, hfits⟩ := (allGood_run hrun).mp hgood
    have hturn : (match packetTurn stuckWord 1 btPacket.fresh with
        | .done _ _ => none
        | .again c => (packetStart c).1) = some 0 := by decide +kernel
    cases hout : packetTurn stuckWord 1 btPacket.fresh with
    | done ok' d' => simp [hout] at hturn
    | again c =>
      have hfit := hfits c (.again hout (.start c))
      have hnone := (packetFits_wifi_iff (blanks_again hout).1).mp hfit
      simp [hout, hnone] at hturn
  · rintro ⟨depth, ok, d, hrun, hgood⟩
    obtain ⟨-, hfits⟩ := (allGood_run hrun).mp hgood
    have hstart : packetStart lastPacket.fresh = (some 490, (packetStart lastPacket.fresh).2) :=
      Prod.ext (by decide +kernel) rfl
    obtain ⟨-, hroom⟩ := hfits lastPacket.fresh (.start _) 490 _ hstart
    have hbelow := (hroom 490 (by decide +kernel) 6 (by decide)).below
    exact absurd hbelow (by decide +kernel)

end Rtl8723bs.Efuse.Banks
