/-
# The loops of the HAL over the EFUSE

`hal_ReadEFuse_WiFi` builds the map, `Hal_EfusePgPacketRead` reads one section and
`hal_EfuseGetCurrentSize_WiFi` looks for the end.  Each has its own loop over the headers; each
loop is a walk here, and the packets it goes over are what it hands out.
-/
import Rtl8723bs.Efuse.Packet
import Rtl8723bs.Lib.Walk

namespace Rtl8723bs.Efuse

open Walk

/-! ## 1. The walks -/

/-- The packet at a header and where it ends, if the data that its mask says are there. -/
def wholePacket (img : Raw) (d : Nat) (offset wden : UInt8) : Nat × Option Packet :=
  (d + dataLen wden, some ⟨offset, wden, bytes img d (dataLen wden)⟩)

/-- A walk from header to header that goes on `skip` bytes behind a header without words. -/
def headNext (img : Raw) (skip : Nat) : Next Packet := fun a =>
  if a < efuseRealContentLen then
    match head img a with
    | .stop => none
    | .blank => some (a + skip, none)
    | .pkt d offset wden => some (wholePacket img d offset wden)
  else none

/-- The walk of `hal_ReadEFuse_WiFi` and of `Hal_EfusePgPacketRead`. -/
abbrev readNext (img : Raw) : Next Packet := headNext img 2

/-- The walk of `hal_EfuseGetCurrentSize_WiFi`: the second byte of a header without words is
taken for a header. -/
abbrev sizeNext (img : Raw) : Next Packet := headNext img 1

section HeadNext

variable {img : Raw} {skip a : Nat}

theorem headNext_off (ha : efuseRealContentLen ≤ a) : headNext img skip a = none :=
  if_neg (Nat.not_lt.mpr ha)

theorem headNext_stop (h : head img a = .stop) : headNext img skip a = none := by
  unfold headNext
  rw [h]
  exact ite_self none

theorem headNext_blank (ha : a < efuseRealContentLen) (h : head img a = .blank) :
    headNext img skip a = some (a + skip, none) := by
  unfold headNext
  rw [if_pos ha, h]

theorem headNext_pkt (ha : a < efuseRealContentLen) {d : Nat} {offset wden : UInt8}
    (h : head img a = .pkt d offset wden) :
    headNext img skip a = some (wholePacket img d offset wden) := by
  unfold headNext
  rw [if_pos ha, h]

theorem headNext_advances (img : Raw) (hskip : 0 < skip) :
    Advances (headNext img skip) efuseRealContentLen where
  lt := by
    intro a b p h
    unfold headNext at h
    split at h
    · split at h
      · cases h
      · cases h
        omega
      · rename_i d offset wden hhead
        cases h
        have hd := head_pkt hhead
        omega
    · cases h
  stop := headNext_off

/-- A loop that decodes the headers, goes on `skip` bytes behind one without words and goes
over the data of the others follows the walk. -/
theorem follows_headNext {σ : Type} {turn : σ → Turn σ} {addr : σ → Nat} {out : σ → List Packet}
    {P : σ → Prop} {stop blank : σ → σ} {pkt : σ → Nat → UInt8 → UInt8 → σ}
    (hturn : ∀ s, P s → addr s < efuseRealContentLen → turn s =
      match head img (addr s) with
      | .stop => .stop (stop s)
      | .blank => .go (blank s)
      | .pkt d offset wden => .go (pkt s d offset wden))
    (hend : ∀ s, P s → efuseRealContentLen ≤ addr s → turn s = .stop s)
    (hblank : ∀ s, P s → P (blank s) ∧ addr (blank s) = addr s + skip ∧ out (blank s) = out s)
    (hpkt : ∀ s d offset wden, P s → head img (addr s) = .pkt d offset wden →
      P (pkt s d offset wden) ∧ addr (pkt s d offset wden) = d + dataLen wden ∧
      out (pkt s d offset wden) = out s ++ [⟨offset, wden, bytes img d (dataLen wden)⟩]) :
    Follows turn (headNext img skip) addr out P where
  go := by
    intro s s' hs hgo
    rcases Nat.lt_or_ge (addr s) efuseRealContentLen with hlt | hge
    · rw [hturn s hs hlt] at hgo
      cases hhead : head img (addr s) with
      | stop =>
        rw [hhead] at hgo
        cases hgo
      | blank =>
        rw [hhead] at hgo
        cases hgo
        obtain ⟨hP, haddr, hout⟩ := hblank s hs
        rw [headNext_blank hlt hhead, haddr, hout]
        exact ⟨hP, none, rfl, (List.append_nil _).symm⟩
      | pkt d offset wden =>
        rw [hhead] at hgo
        cases hgo
        obtain ⟨hP, haddr, hout⟩ := hpkt s d offset wden hs hhead
        rw [headNext_pkt hlt hhead, haddr, hout]
        exact ⟨hP, _, rfl, rfl⟩
    · rw [hend s hs hge] at hgo
      cases hgo
  stop := by
    intro s s' hs hstop
    rcases Nat.lt_or_ge (addr s) efuseRealContentLen with hlt | hge
    · rw [hturn s hs hlt] at hstop
      cases hhead : head img (addr s) with
      | stop => exact headNext_stop hhead
      | blank =>
        rw [hhead] at hstop
        cases hstop
      | pkt d offset wden =>
        rw [hhead] at hstop
        cases hstop
    · exact headNext_off hge

/-- Where a walk from header to header stops there is the end of the data, or of the array. -/
theorem head_of_headNext_none (h : headNext img skip a = none) (ha : a < efuseRealContentLen) :
    head img a = .stop := by
  cases hhead : head img a with
  | stop => rfl
  | blank => cases (headNext_blank ha hhead).symm.trans h
  | pkt d offset wden => cases (headNext_pkt ha hhead).symm.trans h

end HeadNext

/-! ## 2. `hal_ReadEFuse_WiFi` -/

/-- The variables of the loop; with the packets it went over and the address at which it
reports the end of the data. -/
structure ReadSt where
  eFuseAddr : Nat
  efuseTbl : Tbl
  packets : List Packet
  dataEnd : Option Nat

/-- The part of a turn after the header. -/
def readSection (img : Raw) (s : ReadSt) (addr : Nat) (offset wden : UInt8) : ReadSt :=
  let r :=
    if offset.toNat < efuseMaxSection then
      readWords img wden (offset.toNat * pgpktDataSize) addr s.efuseTbl
    else (addr + efuseCalculateWordCnts wden * 2, s.efuseTbl)
  { s with
    eFuseAddr := r.1
    efuseTbl := r.2
    packets := s.packets ++ [⟨offset, wden, bytes img addr (r.1 - addr)⟩] }

def readTurn (img : Raw) (s : ReadSt) : Turn ReadSt :=
  if s.eFuseAddr < efuseRealContentLen then
    let efuseHeader := img s.eFuseAddr
    if efuseHeader = 0xFF then
      .stop { s with eFuseAddr := s.eFuseAddr + 1, dataEnd := some s.eFuseAddr }
    else if extHeader efuseHeader then
      let efuseExtHdr := img (s.eFuseAddr + 1)
      if allWordsDisabled efuseExtHdr then .go { s with eFuseAddr := s.eFuseAddr + 2 }
      else
        .go (readSection img s (s.eFuseAddr + 2)
          (getHdrOffset20 efuseHeader ||| ((efuseExtHdr &&& 0xF0) >>> 1)) (efuseExtHdr &&& 0x0F))
    else
      .go (readSection img s (s.eFuseAddr + 1) ((efuseHeader >>> 4) &&& 0x0F)
        (efuseHeader &&& 0x0F))
  else .stop s

def readLoop (img : Raw) : ReadSt :=
  runLoop (readTurn img) (efuseRealContentLen + 1) ⟨0, blankTbl, [], none⟩

/-- `EFUSE_MAX_MAP_LEN`. -/
def efuseMaxMapLen : Nat := 1024

/-- `hal_ReadEFuse_WiFi`: the bytes copied to `pbuf`, and `used`, which goes to
`EfuseUsedBytes`. -/
def halReadEFuseWiFi (img : Raw) (offset sizeByte : Nat) : Option (List UInt8 × Nat) :=
  if offset + sizeByte > efuseMaxMapLen then none
  else
    let s := readLoop img
    some ((List.range sizeByte).map fun i => s.efuseTbl (offset + i), s.eFuseAddr - 1)

/-- The part after the header goes over the whole packet, also when it skips the data. -/
theorem readSection_eq (img : Raw) (s : ReadSt) (addr : Nat) (offset wden : UInt8) :
    readSection img s addr offset wden
      = { s with
          eFuseAddr := addr + dataLen wden
          efuseTbl := Packet.apply s.efuseTbl ⟨offset, wden, bytes img addr (dataLen wden)⟩
          packets := s.packets ++ [⟨offset, wden, bytes img addr (dataLen wden)⟩] } := by
  unfold readSection Packet.apply
  split
  · simp [readWords_eq]
  · simp [dataLen, Nat.mul_comm]

theorem readTurn_eq {img : Raw} {s : ReadSt} (hlt : s.eFuseAddr < efuseRealContentLen) :
    readTurn img s =
      match head img s.eFuseAddr with
      | .stop => .stop { s with eFuseAddr := s.eFuseAddr + 1, dataEnd := some s.eFuseAddr }
      | .blank => .go { s with eFuseAddr := s.eFuseAddr + 2 }
      | .pkt d offset wden => .go (readSection img s d offset wden) := by
  unfold readTurn head
  rw [if_pos hlt]
  by_cases hff : img s.eFuseAddr = 0xFF
  · simp only [hff, if_true]
  by_cases hext : extHeader (img s.eFuseAddr)
  · by_cases hwords : allWordsDisabled (img (s.eFuseAddr + 1)) <;>
      simp only [hff, hext, hwords, if_true, if_false, Bool.false_eq_true]
  · simp only [hff, hext, if_false, Bool.false_eq_true]

theorem readTurn_end {img : Raw} {s : ReadSt} (hge : efuseRealContentLen ≤ s.eFuseAddr) :
    readTurn img s = .stop s := if_neg (Nat.not_lt.mpr hge)

/-- The loop follows its walk; its table is the map of the packets. -/
theorem readTurn_follows (img : Raw) :
    Follows (readTurn img) (readNext img) (·.eFuseAddr) (·.packets)
      (fun s => s.efuseTbl = mapOf s.packets ∧ s.dataEnd = none) := by
  refine follows_headNext (fun s _ hlt => readTurn_eq hlt) (fun s _ hge => readTurn_end hge) ?_ ?_
  · rintro s hs
    exact ⟨hs, rfl, rfl⟩
  · rintro s d offset wden ⟨htbl, hend⟩ -
    rw [readSection_eq]
    refine ⟨⟨?_, hend⟩, rfl, rfl⟩
    rw [mapOf_append, htbl]

/-- The packets of `hal_ReadEFuse_WiFi` from an address on, and where it stops. -/
abbrev readSplit (img : Raw) (a : Nat) : List Packet × Nat :=
  split (readNext img) efuseRealContentLen a

/-- **The map is that of the packets** `hal_ReadEFuse_WiFi` goes over; it reports the end of the
data where it stops, unless that is behind the array. -/
theorem readLoop_spec (img : Raw) :
    (readLoop img).packets = (readSplit img 0).1 ∧
      (readLoop img).efuseTbl = mapOf (readSplit img 0).1 ∧
      (((readSplit img 0).2 < efuseRealContentLen ∧
          (readLoop img).dataEnd = some (readSplit img 0).2 ∧
          (readLoop img).eFuseAddr = (readSplit img 0).2 + 1) ∨
        (efuseRealContentLen ≤ (readSplit img 0).2 ∧ (readLoop img).dataEnd = none ∧
          (readLoop img).eFuseAddr = (readSplit img 0).2)) := by
  obtain ⟨l, ⟨htbl, hend⟩, haddr, hpackets, hlast⟩ :=
    (readTurn_follows img).run (n := efuseRealContentLen + 1)
      (headNext_advances img (by decide)) (s := ⟨0, blankTbl, [], none⟩) ⟨rfl, rfl⟩
      (Nat.lt_succ_self _)
  change readTurn img l = .stop (readLoop img) at hlast
  change l.packets = [] ++ (readSplit img 0).1 at hpackets
  change l.eFuseAddr = (readSplit img 0).2 at haddr
  rw [List.nil_append] at hpackets
  have hnext := (readTurn_follows img).stop ⟨htbl, hend⟩ hlast
  rcases Nat.lt_or_ge l.eFuseAddr efuseRealContentLen with hlt | hge
  · rw [readTurn_eq hlt, head_of_headNext_none hnext hlt] at hlast
    have hdone := (Turn.stop.inj hlast).symm
    rw [← hpackets, ← haddr, hdone]
    exact ⟨rfl, htbl, .inl ⟨hlt, rfl, rfl⟩⟩
  · rw [readTurn_end hge] at hlast
    have hdone := (Turn.stop.inj hlast).symm
    rw [← hpackets, ← haddr, hdone]
    exact ⟨rfl, htbl, .inr ⟨hge, hend, rfl⟩⟩

/-! ## 3. `Hal_EfusePgPacketRead` -/

structure PgReadSt where
  efuseAddr : Nat
  data : Tbl
  packets : List Packet

/-- The part of a turn after the header. -/
def pgReadSection (img : Raw) (offset : UInt8) (s : PgReadSt) (addr : Nat)
    (hoffset hworden : UInt8) : PgReadSt :=
  let r :=
    if hoffset = offset then readWords img hworden 0 addr s.data
    else (addr + efuseCalculateWordCnts hworden * 2, s.data)
  { efuseAddr := r.1
    data := r.2
    packets := s.packets ++ [⟨hoffset, hworden, bytes img addr (r.1 - addr)⟩] }

def pgReadTurn (img : Raw) (offset : UInt8) (s : PgReadSt) : Turn PgReadSt :=
  if s.efuseAddr < efuseRealContentLen then
    let efuseData := img s.efuseAddr
    if efuseData = 0xFF then .stop { s with efuseAddr := s.efuseAddr + 1 }
    else if extHeader efuseData then
      let efuseExt := img (s.efuseAddr + 1)
      if allWordsDisabled efuseExt then .go { s with efuseAddr := s.efuseAddr + 2 }
      else
        .go (pgReadSection img offset s (s.efuseAddr + 2)
          (getHdrOffset20 efuseData ||| ((efuseExt &&& 0xF0) >>> 1)) (efuseExt &&& 0x0F))
    else
      .go (pgReadSection img offset s (s.efuseAddr + 1) ((efuseData >>> 4) &&& 0x0F)
        (efuseData &&& 0x0F))
  else .stop s

def pgReadLoop (img : Raw) (offset : UInt8) : PgReadSt :=
  runLoop (pgReadTurn img offset) (efuseRealContentLen + 1) ⟨0, blankTbl, []⟩

/-- `Hal_EfusePgPacketRead`: the eight bytes of `data`, or `_FALSE`. -/
def halEfusePgPacketRead (img : Raw) (offset : UInt8) : Option (List UInt8) :=
  if offset.toNat > efuseMaxSection then none
  else some ((List.range pgpktDataSize).map (pgReadLoop img offset).data)

theorem pgReadSection_eq (img : Raw) (offset : UInt8) (s : PgReadSt) (addr : Nat)
    (hoffset hworden : UInt8) :
    pgReadSection img offset s addr hoffset hworden
      = { efuseAddr := addr + dataLen hworden
          data :=
            if hoffset = offset then putWords hworden 0 (bytes img addr (dataLen hworden)) s.data
            else s.data
          packets := s.packets ++ [⟨hoffset, hworden, bytes img addr (dataLen hworden)⟩] } := by
  unfold pgReadSection
  split
  · simp [readWords_eq]
  · simp [dataLen, Nat.mul_comm]

theorem pgReadTurn_eq {img : Raw} {offset : UInt8} {s : PgReadSt}
    (hlt : s.efuseAddr < efuseRealContentLen) :
    pgReadTurn img offset s =
      match head img s.efuseAddr with
      | .stop => .stop { s with efuseAddr := s.efuseAddr + 1 }
      | .blank => .go { s with efuseAddr := s.efuseAddr + 2 }
      | .pkt d hoffset hworden => .go (pgReadSection img offset s d hoffset hworden) := by
  unfold pgReadTurn head
  rw [if_pos hlt]
  by_cases hff : img s.efuseAddr = 0xFF
  · simp only [hff, if_true]
  by_cases hext : extHeader (img s.efuseAddr)
  · by_cases hwords : allWordsDisabled (img (s.efuseAddr + 1)) <;>
      simp only [hff, hext, hwords, if_true, if_false, Bool.false_eq_true]
  · simp only [hff, hext, if_false, Bool.false_eq_true]

theorem pgReadTurn_end {img : Raw} {offset : UInt8} {s : PgReadSt}
    (hge : efuseRealContentLen ≤ s.efuseAddr) : pgReadTurn img offset s = .stop s :=
  if_neg (Nat.not_lt.mpr hge)

/-- The eight bytes are the section in the map of the packets. -/
def IsSection (offset : UInt8) (data : Tbl) (packets : List Packet) : Prop :=
  ∀ j < pgpktDataSize, data j = mapOf packets (offset.toNat * pgpktDataSize + j)

theorem IsSection.apply {offset : UInt8} {data : Tbl} {packets : List Packet}
    (h : IsSection offset data packets) (hoff : offset.toNat < efuseMaxSection) (p : Packet) :
    IsSection offset (if p.offset = offset then putWords p.wden 0 p.data data else data)
      (packets ++ [p]) := by
  intro j hj
  rw [mapOf_append]
  split
  · rename_i heq
    unfold Packet.apply
    rw [heq, if_pos hoff]
    have hshift := putWords_shift p.wden 0 (offset.toNat * pgpktDataSize) p.data
       (fun k hk => by simpa using h k hk) j hj
    simpa using hshift
  · rename_i hne
    have hsec : p.offset.toNat ≠ offset.toNat := fun heq => hne (UInt8.toNat_inj.mp heq)
    rw [Packet.apply_outside hsec hj]
    exact h j hj

theorem pgReadTurn_follows (img : Raw) {offset : UInt8} (hoff : offset.toNat < efuseMaxSection) :
    Follows (pgReadTurn img offset) (readNext img) (·.efuseAddr) (·.packets)
      (fun s => IsSection offset s.data s.packets) := by
  refine follows_headNext (fun s _ hlt => pgReadTurn_eq hlt) (fun s _ hge => pgReadTurn_end hge)
    ?_ ?_
  · intro s hs
    exact ⟨hs, rfl, rfl⟩
  · intro s d hoffset hworden hs _
    rw [pgReadSection_eq]
    exact ⟨hs.apply hoff ⟨hoffset, hworden, bytes img d (dataLen hworden)⟩, rfl, rfl⟩

/-- **A section is read from the same packets**, and is what the map has there. -/
theorem pgReadLoop_spec (img : Raw) {offset : UInt8} (hoff : offset.toNat < efuseMaxSection) :
    (pgReadLoop img offset).packets = (readSplit img 0).1 ∧
      IsSection offset (pgReadLoop img offset).data (readSplit img 0).1 := by
  obtain ⟨l, hdata, haddr, hpackets, hlast⟩ :=
    (pgReadTurn_follows img hoff).run (n := efuseRealContentLen + 1)
      (headNext_advances img (by decide)) (s := ⟨0, blankTbl, []⟩) (fun _ _ => rfl)
      (Nat.lt_succ_self _)
  change pgReadTurn img offset l = .stop (pgReadLoop img offset) at hlast
  change l.packets = [] ++ (readSplit img 0).1 at hpackets
  rw [List.nil_append] at hpackets
  have hkept : (pgReadLoop img offset).packets = l.packets ∧
      (pgReadLoop img offset).data = l.data := by
    rcases Nat.lt_or_ge l.efuseAddr efuseRealContentLen with hlt | hge
    · have hnext := (pgReadTurn_follows img hoff).stop hdata hlast
      rw [pgReadTurn_eq hlt, head_of_headNext_none hnext hlt] at hlast
      rw [← Turn.stop.inj hlast]
      exact ⟨rfl, rfl⟩
    · rw [pgReadTurn_end hge] at hlast
      rw [← Turn.stop.inj hlast]
      exact ⟨rfl, rfl⟩
  rw [hkept.1, hkept.2, ← hpackets]
  exact ⟨rfl, hdata⟩

/-! ## 4. `hal_EfuseGetCurrentSize_WiFi` -/

/-- The variables of the loop; `packets` are those since it was at address 0. -/
structure SizeSt where
  efuseAddr : Nat
  startAddr : Nat
  count : Nat
  error : Bool
  packets : List Packet

/-- The part of a turn after the header, whose last byte is at `addr`. -/
def sizeSection (img : Raw) (s : SizeSt) (addr : Nat) (hoffset hworden : UInt8) : SizeSt :=
  let next := addr + (efuseCalculateWordCnts hworden * 2 + 1)
  { s with
    efuseAddr := next
    packets := s.packets ++ [⟨hoffset, hworden, bytes img (addr + 1) (next - (addr + 1))⟩] }

def sizeTurn (img : Raw) (s : SizeSt) : Turn SizeSt :=
  if s.efuseAddr < efuseRealContentLen then
    let efuseData := img s.efuseAddr
    if efuseData = 0xFF then .stop s
    else if s.startAddr ≠ 0 ∧ s.efuseAddr = s.startAddr then
      let count := s.count + 1
      if count < 4 then
        if count > 2 then
          .go { s with efuseAddr := 0, startAddr := 0, count := count, packets := [] }
        else .go { s with count := count }
      else .stop { s with count := count, error := true }
    else if extHeader efuseData then
      let efuseExt := img (s.efuseAddr + 1)
      if allWordsDisabled efuseExt then .go { s with efuseAddr := s.efuseAddr + 1 }
      else
        .go (sizeSection img s (s.efuseAddr + 1)
          (getHdrOffset20 efuseData ||| ((efuseExt &&& 0xF0) >>> 1)) (efuseExt &&& 0x0F))
    else
      .go (sizeSection img s s.efuseAddr ((efuseData >>> 4) &&& 0x0F) (efuseData &&& 0x0F))
  else .stop s

/-- The loop from the address in `EfuseUsedBytes`; at most three turns go back. -/
def sizeLoop (img : Raw) (usedBytes : Nat) : SizeSt :=
  runLoop (sizeTurn img) (2 * efuseRealContentLen + 4) ⟨usedBytes, usedBytes, 0, false, []⟩

/-- `EFUSE_REAL_CONTENT_LEN_8723B - EFUSE_OOB_PROTECT_BYTES`. -/
def availableEfuseBytes : Nat := 512 - 15

/-- `hal_EfuseGetCurrentSize_WiFi`: what it returns and `EfuseUsedBytes` after it. -/
def halEfuseGetCurrentSizeWiFi (img : Raw) (usedBytes : Nat) : Nat × Nat :=
  let s := sizeLoop img usedBytes
  if s.error then (availableEfuseBytes, usedBytes) else (s.efuseAddr, s.efuseAddr)

theorem sizeSection_eq (img : Raw) (s : SizeSt) (addr : Nat) (hoffset hworden : UInt8) :
    sizeSection img s addr hoffset hworden
      = { s with
          efuseAddr := addr + 1 + dataLen hworden
          packets :=
            s.packets ++ [⟨hoffset, hworden, bytes img (addr + 1) (dataLen hworden)⟩] } := by
  have hnext : addr + (efuseCalculateWordCnts hworden * 2 + 1) = addr + 1 + dataLen hworden := by
    unfold dataLen
    omega
  unfold sizeSection
  rw [hnext]
  simp

theorem sizeTurn_eq {img : Raw} {s : SizeSt} (hstart : s.startAddr = 0)
    (hlt : s.efuseAddr < efuseRealContentLen) :
    sizeTurn img s =
      match head img s.efuseAddr with
      | .stop => .stop s
      | .blank => .go { s with efuseAddr := s.efuseAddr + 1 }
      | .pkt d hoffset hworden => .go (sizeSection img s (d - 1) hoffset hworden) := by
  have hnot : ¬(s.startAddr ≠ 0 ∧ s.efuseAddr = s.startAddr) := fun h => h.1 hstart
  unfold sizeTurn head
  rw [if_pos hlt]
  dsimp only
  rw [if_neg hnot]
  by_cases hff : img s.efuseAddr = 0xFF
  · simp only [hff, if_true]
  by_cases hext : extHeader (img s.efuseAddr)
  · by_cases hwords : allWordsDisabled (img (s.efuseAddr + 1)) <;>
      simp only [hff, hext, hwords, if_true, if_false, Bool.false_eq_true]
    rfl
  · simp only [hff, hext, if_false, Bool.false_eq_true]
    rfl

theorem sizeTurn_end {img : Raw} {s : SizeSt} (hge : efuseRealContentLen ≤ s.efuseAddr) :
    sizeTurn img s = .stop s := if_neg (Nat.not_lt.mpr hge)

/-- From address 0 the loop follows its walk. -/
theorem sizeTurn_follows (img : Raw) :
    Follows (sizeTurn img) (sizeNext img) (·.efuseAddr) (·.packets)
      (fun s => s.startAddr = 0 ∧ s.error = false) := by
  refine follows_headNext (fun s hs hlt => sizeTurn_eq hs.1 hlt) (fun s _ hge => sizeTurn_end hge)
    ?_ ?_
  · intro s hs
    exact ⟨hs, rfl, rfl⟩
  · intro s d hoffset hworden hs hhead
    obtain ⟨k, rfl⟩ : ∃ k, d = k + 1 := ⟨d - 1, by have := head_pkt hhead; omega⟩
    rw [sizeSection_eq]
    exact ⟨hs, rfl, rfl⟩

/-- The packets of `hal_EfuseGetCurrentSize_WiFi` from an address on, and where it stops. -/
abbrev sizeSplit (img : Raw) (a : Nat) : List Packet × Nat :=
  split (sizeNext img) efuseRealContentLen a

/-- Once the loop is at address 0 it comes to the end of its walk. -/
theorem runLoop_size (img : Raw) {s : SizeSt} (hstart : s.startAddr = 0) (herr : s.error = false)
    (haddr : s.efuseAddr = 0) (hpackets : s.packets = []) {n : Nat}
    (hn : efuseRealContentLen < n) :
    (runLoop (sizeTurn img) n s).efuseAddr = (sizeSplit img 0).2 ∧
      (runLoop (sizeTurn img) n s).packets = (sizeSplit img 0).1 ∧
      (runLoop (sizeTurn img) n s).error = false := by
  obtain ⟨l, ⟨hl, herr'⟩, hladdr, hlpackets, hlast⟩ :=
    (sizeTurn_follows img).run (n := n) (headNext_advances img (by decide)) (s := s)
      ⟨hstart, herr⟩ (by omega)
  rw [haddr] at hladdr hlpackets
  rw [hpackets, List.nil_append] at hlpackets
  have hkept : runLoop (sizeTurn img) n s = l := by
    rcases Nat.lt_or_ge l.efuseAddr efuseRealContentLen with hlt | hge
    · have hnext := (sizeTurn_follows img).stop ⟨hl, herr'⟩ hlast
      rw [sizeTurn_eq hl hlt, head_of_headNext_none hnext hlt] at hlast
      exact (Turn.stop.inj hlast).symm
    · rw [sizeTurn_end hge] at hlast
      exact (Turn.stop.inj hlast).symm
  rw [hkept]
  exact ⟨hladdr, hlpackets, herr'⟩

/-- **Scanning from address 0 returns the end of the walk.** -/
theorem sizeLoop_zero (img : Raw) :
    (sizeLoop img 0).packets = (sizeSplit img 0).1 ∧
      halEfuseGetCurrentSizeWiFi img 0 = ((sizeSplit img 0).2, (sizeSplit img 0).2) := by
  obtain ⟨haddr, hpackets, herr⟩ := runLoop_size img (s := ⟨0, 0, 0, false, []⟩) rfl rfl rfl rfl
    (n := 2 * efuseRealContentLen + 4) (by decide)
  refine ⟨hpackets, ?_⟩
  have herr' : (sizeLoop img 0).error = false := herr
  have haddr' : (sizeLoop img 0).efuseAddr = (sizeSplit img 0).2 := haddr
  simp only [halEfuseGetCurrentSizeWiFi, herr', haddr', Bool.false_eq_true, if_false]

end Rtl8723bs.Efuse
