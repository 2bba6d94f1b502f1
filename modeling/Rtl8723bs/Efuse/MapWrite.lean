/-
# Writing the map

`rtw_efuse_map_write` compares the new bytes with the map section by section, counts the bytes
that the packets for the differences need, and programs one packet for each section that
differs.  Read back, the map has the new bytes: every packet brings its section to what is
wanted, and no other packet touches it.
-/
import Rtl8723bs.Efuse.Write

namespace Rtl8723bs.Efuse

open Walk

/-! ## 1. The functions -/

/-- `EFUSE_MAP_LEN_8723B`. -/
def efuseMapLen : Nat := 512

/-- `rtw_efuse_map_read`. -/
def rtwEfuseMapRead (c : Chip) (addr cnts : Nat) : Option (List UInt8) × Chip :=
  if addr + cnts > efuseMapLen then (none, c)
  else
    match halReadEFuseWiFi c.img addr cnts with
    | none => (none, c)
    | some (data, used) => (some data, { c with usedBytes := used })

/-- What a call of `rtw_efuse_map_write` is about: the range and the new bytes, the map read
before, and whether byte 8 is kept, as it is on some chips (`adjuseVoltageVal`). -/
structure MapWrite where
  addr : Nat
  cnts : Nat
  data : Tbl
  map : Tbl
  keep8 : Bool

namespace MapWrite

variable (w : MapWrite)

/-- What the loop over the bytes of a section leaves. -/
structure Scan where
  idx : Nat
  wordEn : UInt8
  newdata : Tbl

def scanByte (r : Scan) (i : Nat) : Scan :=
  if r.idx < w.cnts then
    if w.data r.idx ≠ w.map (w.addr + r.idx) then
      { idx := r.idx + 1
        wordEn := clearBit r.wordEn (i / 2)
        newdata := Function.update r.newdata i
          (if w.addr + r.idx = 0x8 ∧ w.keep8 then w.map (w.addr + r.idx) else w.data r.idx) }
    else { r with idx := r.idx + 1 }
  else r

/-- The loop over the bytes of a section; the one that estimates the length does the same
without `newdata`. -/
def scanSection (idx offset : Nat) : Scan :=
  let j := (w.addr + idx) % pgpktDataSize
  (List.range' j (pgpktDataSize - j)).foldl w.scanByte
    ⟨idx, 0x0F, fun i => w.map (offset * pgpktDataSize + i)⟩

structure EstimateSt where
  idx : Nat
  offset : Nat
  chkTotalByte : Nat

def estimateTurn (s : EstimateSt) : Turn EstimateSt :=
  if s.idx < w.cnts then
    let r := w.scanSection s.idx s.offset
    .go
      { idx := r.idx
        offset := s.offset + 1
        chkTotalByte :=
          if r.wordEn ≠ 0x0F then
            s.chkTotalByte + (efuseCalculateWordCnts r.wordEn * 2
              + if s.offset ≥ efuseMaxSectionBase then 2 else 1)
          else s.chkTotalByte }
  else .stop s

structure WriteSt where
  chip : Chip
  idx : Nat
  offset : Nat
  ret : Bool

def writeTurn (depth : Nat) (s : WriteSt) : Turn WriteSt :=
  if s.idx < w.cnts then
    let r := w.scanSection s.idx s.offset
    if r.wordEn ≠ 0x0F then
      match halEfusePgPacketWrite depth s.chip (UInt8.ofNat s.offset) r.wordEn r.newdata with
      | (true, c) => .go { chip := c, idx := r.idx, offset := s.offset + 1, ret := true }
      | (false, c) => .stop { s with chip := c, idx := r.idx, ret := false }
    else .go { s with idx := r.idx, offset := s.offset + 1 }
  else .stop s

/-- The part of `rtw_efuse_map_write` behind reading the map. -/
def write (depth : Nat) (c : Chip) : Bool × Chip :=
  let chk := (runLoop w.estimateTurn (w.cnts + 1) ⟨0, w.addr / pgpktDataSize, 0⟩).chkTotalByte
  let (startAddr, c) := if c.usedBytes = 0 then efuseGetCurrentSize c else (c.usedBytes, c)
  if startAddr + chk ≥ availableEfuseBytes then (false, c)
  else
    let s := runLoop (w.writeTurn depth) (w.cnts + 1) ⟨c, 0, w.addr / pgpktDataSize, true⟩
    (s.ret, s.chip)

end MapWrite

/-- `rtw_efuse_map_write`; `masked` are the bytes that keep their value, and `depth` is how deep
`Efuse_PgPacketWrite` may call itself. -/
def rtwEfuseMapWrite (keep8 : Bool) (masked : Nat → Bool) (depth : Nat) (c : Chip)
    (addr cnts : Nat) (data : Tbl) : Bool × Chip :=
  if addr + cnts > efuseMapLen then (false, c)
  else
    match rtwEfuseMapRead c 0 efuseMapLen with
    | (none, c) => (false, c)
    | (some bytes, c) =>
      let map : Tbl := fun i => bytes.getD i 0xFF
      let w : MapWrite :=
        { addr := addr
          cnts := cnts
          data := fun i => if masked (addr + i) then map (addr + i) else data i
          map := map
          keep8 := keep8 }
      w.write depth c

namespace MapWrite

variable {w : MapWrite}

/-! ## 2. One section -/

theorem wordEnabled_clearBit : ∀ mask : UInt8, ∀ i < 4, ∀ k < 4,
    wordEnabled (clearBit mask i) k = (wordEnabled mask k || decide (i = k)) :=
  UInt8.forall_byte (by decide +kernel)

theorem clearBit_lt : ∀ mask : UInt8, mask.toNat < 16 → ∀ i < 4, (clearBit mask i).toNat < 16 :=
  UInt8.forall_byte (by decide +kernel)

theorem not_enabled_all : ∀ k < 4, wordEnabled 0x0F k = false := by decide

/-- The map that is wanted. -/
def wanted (w : MapWrite) (x : Nat) : UInt8 :=
  if w.addr ≤ x ∧ x < w.addr + w.cnts ∧ ¬(x = 0x8 ∧ w.keep8 = true) then w.data (x - w.addr)
  else w.map x

theorem wanted_outside {x : Nat} (h : x < w.addr ∨ w.addr + w.cnts ≤ x) : w.wanted x = w.map x :=
  if_neg fun hin => by omega

/-- Where the two loops are in front of a section. -/
structure Pos (w : MapWrite) (idx offset : Nat) : Prop where
  le : idx ≤ w.cnts
  inside : idx < w.cnts →
    offset = (w.addr + idx) / pgpktDataSize ∧ (idx = 0 ∨ (w.addr + idx) % pgpktDataSize = 0)
  done : idx = w.cnts → w.cnts = 0 ∨ w.addr + w.cnts ≤ pgpktDataSize * offset

theorem pos_start (w : MapWrite) : Pos w 0 (w.addr / pgpktDataSize) where
  le := Nat.zero_le _
  inside _ := ⟨rfl, .inl rfl⟩
  done h := .inl h.symm

/-- What the loop over a section knows in front of the byte `i`. -/
structure ScanInv (w : MapWrite) (idx offset : Nat) (i : Nat) (r : Scan) : Prop where
  idx_eq : r.idx = min w.cnts (idx + (i - (w.addr + idx) % pgpktDataSize))
  mask : r.wordEn.toNat < 16
  newdata : ∀ j < pgpktDataSize, r.newdata j =
    if j < i then w.wanted (offset * pgpktDataSize + j) else w.map (offset * pgpktDataSize + j)
  same : ∀ j < i, wordEnabled r.wordEn (j / 2) = false →
    w.wanted (offset * pgpktDataSize + j) = w.map (offset * pgpktDataSize + j)

variable {idx offset : Nat}

theorem ScanInv.step {i : Nat} {r : Scan} (h : ScanInv w idx offset i r) (hpos : Pos w idx offset)
    (hidx : idx < w.cnts) (hlow : (w.addr + idx) % pgpktDataSize ≤ i) (hi : i < pgpktDataSize) :
    ScanInv w idx offset (i + 1) (w.scanByte r i) := by
  obtain ⟨hoffset, -⟩ := hpos.inside hidx
  have hsize : pgpktDataSize = 8 := rfl
  rw [hsize] at hoffset hlow hi
  have hidx_eq := h.idx_eq
  rw [hsize] at hidx_eq
  have hi2 : i / 2 < 4 := by omega
  unfold scanByte
  split
  · rename_i hin
    have hx : w.addr + r.idx = offset * 8 + i := by omega
    have hback : offset * 8 + i - w.addr = r.idx := by omega
    split
    · -- The byte differs: its word is written.
      have hwanted : w.wanted (offset * 8 + i)
          = if w.addr + r.idx = 0x8 ∧ w.keep8 = true then w.map (w.addr + r.idx)
            else w.data r.idx := by
        unfold wanted
        rw [hback, hx]
        by_cases hkeep : offset * 8 + i = 0x8 ∧ w.keep8 = true
        · rw [if_neg (fun hall => hall.2.2 hkeep), if_pos hkeep]
        · rw [if_pos ⟨by omega, by omega, hkeep⟩, if_neg hkeep]
      constructor
      · rw [hsize]
        dsimp only
        omega
      · exact clearBit_lt _ h.mask _ hi2
      · intro j hj
        dsimp only
        rw [← hwanted]
        rcases eq_or_ne j i with rfl | hne
        · rw [Function.update_self, if_pos (Nat.lt_succ_self j)]
          rfl
        · have hlt : j < i + 1 ↔ j < i := by omega
          rw [Function.update_of_ne hne, h.newdata j hj]
          simp only [hlt]
      · intro j hj hword
        dsimp only at hword
        rw [wordEnabled_clearBit _ _ hi2 _ (by omega), Bool.or_eq_false_iff] at hword
        have hne : i / 2 ≠ j / 2 := by simpa using hword.2
        have hlt : j < i := by
          rcases Nat.lt_or_ge j i with hlt | hge
          · exact hlt
          · have heq : j = i := by omega
            exact absurd (heq ▸ rfl) hne
        exact h.same j hlt hword.1
    · rename_i hsame
      have hwanted : w.wanted (offset * 8 + i) = w.map (offset * 8 + i) := by
        unfold wanted
        rw [hback, ← hx]
        split
        · exact not_not.mp hsame
        · rfl
      constructor
      · rw [hsize]
        dsimp only
        omega
      · exact h.mask
      · intro j hj
        dsimp only
        rw [h.newdata j hj]
        rcases eq_or_ne j i with rfl | hne
        · rw [if_neg (Nat.lt_irrefl j), if_pos (Nat.lt_succ_self j)]
          exact hwanted.symm
        · have hlt : j < i + 1 ↔ j < i := by omega
          simp only [hlt]
      · intro j hj hword
        rcases Nat.lt_succ_iff_lt_or_eq.mp hj with hlt | rfl
        · exact h.same j hlt hword
        · exact hwanted
  · rename_i hout
    have hwanted : w.wanted (offset * 8 + i) = w.map (offset * 8 + i) :=
      wanted_outside (by omega)
    constructor
    · rw [hsize]
      omega
    · exact h.mask
    · intro j hj
      rw [h.newdata j hj]
      rcases eq_or_ne j i with rfl | hne
      · rw [if_neg (Nat.lt_irrefl j), if_pos (Nat.lt_succ_self j)]
        exact hwanted.symm
      · have hlt : j < i + 1 ↔ j < i := by omega
        simp only [hlt]
    · intro j hj hword
      rcases Nat.lt_succ_iff_lt_or_eq.mp hj with hlt | rfl
      · exact h.same j hlt hword
      · exact hwanted

theorem ScanInv.fold (hpos : Pos w idx offset) (hidx : idx < w.cnts) {n i : Nat} {r : Scan}
    (h : ScanInv w idx offset i r) (hlow : (w.addr + idx) % pgpktDataSize ≤ i)
    (hn : i + n = pgpktDataSize) :
    ScanInv w idx offset pgpktDataSize ((List.range' i n).foldl w.scanByte r) := by
  induction n generalizing i r with
  | zero =>
    rw [← hn]
    exact h
  | succ n ih =>
    rw [List.range'_succ, List.foldl_cons]
    exact ih (h.step hpos hidx hlow (by omega)) (by omega) (by omega)

/-- **What the loop over a section comes to:** the bytes wanted there, and a mask that has the
words in which they differ from the map. -/
theorem scanSection_spec (hpos : Pos w idx offset) (hidx : idx < w.cnts) :
    ScanInv w idx offset pgpktDataSize (w.scanSection idx offset) := by
  obtain ⟨hoffset, hstart⟩ := hpos.inside hidx
  have hsize : pgpktDataSize = 8 := rfl
  have hmod := Nat.mod_lt (w.addr + idx) (show 0 < pgpktDataSize by decide)
  refine ScanInv.fold hpos hidx (i := (w.addr + idx) % pgpktDataSize) ?_ (Nat.le_refl _) (by omega)
  have hbefore : ∀ j < (w.addr + idx) % pgpktDataSize,
      w.wanted (offset * pgpktDataSize + j) = w.map (offset * pgpktDataSize + j) := by
    intro j hj
    refine wanted_outside (.inl ?_)
    rw [hsize] at hoffset hstart hj ⊢
    omega
  constructor
  · dsimp only
    omega
  · exact (by decide : (0x0F : UInt8).toNat < 16)
  · intro j _
    split
    · rename_i hj
      exact (hbefore j hj).symm
    · rfl
  · intro j hj _
    exact hbefore j hj

/-- Behind the section the loops are in front of the next. -/
theorem ScanInv.next {r : Scan} (h : ScanInv w idx offset pgpktDataSize r)
    (hpos : Pos w idx offset) (hidx : idx < w.cnts) :
    Pos w r.idx (offset + 1) ∧ idx < r.idx := by
  obtain ⟨hoffset, -⟩ := hpos.inside hidx
  have hidx_eq := h.idx_eq
  have hsize : pgpktDataSize = 8 := rfl
  rw [hsize] at hoffset hidx_eq
  refine ⟨⟨?_, ?_, ?_⟩, ?_⟩
  · omega
  · intro hlt
    rw [hsize]
    omega
  · intro hend
    rw [hsize]
    omega
  · omega

/-! ## 3. The loops over the sections -/

theorem maskOk_of_ne {mask : UInt8} (hlt : mask.toNat < 16) (hne : mask ≠ 0x0F) : MaskOk mask := by
  have hnat : mask.toNat ≠ 15 := fun h => hne (UInt8.toNat_inj.mp h)
  unfold MaskOk
  omega

/-- The bytes that the packet of a section takes, if there is one. -/
def sectionLen (w : MapWrite) (idx offset : Nat) : Nat :=
  if (w.scanSection idx offset).wordEn ≠ 0x0F then
    efuseCalculateWordCnts (w.scanSection idx offset).wordEn * 2
      + if offset ≥ efuseMaxSectionBase then 2 else 1
  else 0

theorem sectionLen_eq {o : Nat} (ho : o < 256)
    (hword : (w.scanSection idx o).wordEn ≠ 0x0F) :
    w.sectionLen idx o = packetLen (UInt8.ofNat o) (w.scanSection idx o).wordEn := by
  have hnat : (UInt8.ofNat o).toNat = o := UInt8.toNat_ofNat_of_lt' ho
  unfold sectionLen packetLen dataLen
  rw [if_pos hword, hnat, Nat.mul_comm]

/-- The estimate from a section on. -/
def estimate (w : MapWrite) (n idx offset k : Nat) : Nat :=
  (runLoop w.estimateTurn n ⟨idx, offset, k⟩).chkTotalByte

theorem estimateTurn_go (hidx : idx < w.cnts) (k : Nat) :
    w.estimateTurn ⟨idx, offset, k⟩
      = .go ⟨(w.scanSection idx offset).idx, offset + 1, k + w.sectionLen idx offset⟩ := by
  unfold estimateTurn sectionLen
  dsimp only
  rw [if_pos hidx]
  split <;> rfl

theorem estimate_add (n idx offset k : Nat) :
    w.estimate n idx offset k = k + w.estimate n idx offset 0 := by
  induction n generalizing idx offset k with
  | zero => rfl
  | succ n ih =>
    unfold estimate at ih ⊢
    by_cases hidx : idx < w.cnts
    · rw [runLoop_go (estimateTurn_go hidx k), runLoop_go (estimateTurn_go hidx 0), ih, Nat.zero_add,
        ih _ _ (w.sectionLen idx offset), Nat.add_assoc]
    · have hstop : ∀ j, w.estimateTurn ⟨idx, offset, j⟩ = .stop ⟨idx, offset, j⟩ :=
        fun j => if_neg hidx
      rw [runLoop_stop (hstop k), runLoop_stop (hstop 0)]
      rfl

/-- The estimate adds the sections up. -/
theorem estimate_succ (hidx : idx < w.cnts) (n : Nat) :
    w.estimate (n + 1) idx offset 0
      = w.sectionLen idx offset + w.estimate n (w.scanSection idx offset).idx (offset + 1) 0 := by
  have hgo : w.estimateTurn ⟨idx, offset, 0⟩
      = .go ⟨(w.scanSection idx offset).idx, offset + 1, 0 + w.sectionLen idx offset⟩ :=
    estimateTurn_go hidx 0
  rw [Nat.zero_add] at hgo
  rw [← estimate_add]
  unfold estimate
  rw [runLoop_go hgo]

/-- In front of a section: the log has what is wanted in the sections before, and the map in
the others. -/
structure WriteInv (w : MapWrite) (ps : List Packet) (e : Nat) (s : WriteSt) : Prop where
  ret : s.ret = true
  log : Log s.chip.img ps e
  used : UsedOk s.chip e
  pos : Pos w s.idx s.offset
  map : ∀ x < efuseMapLen, mapOf ps x =
    if x < pgpktDataSize * s.offset then w.wanted x else w.map x

variable {ps : List Packet} {e : Nat} {s : WriteSt}

/-- A section whose bytes are all there moves the border. -/
theorem map_next {m m' : Tbl} {o : Nat}
    (hm : ∀ x < efuseMapLen, m x = if x < pgpktDataSize * o then w.wanted x else w.map x)
    (hother : ∀ x, x < o * pgpktDataSize ∨ o * pgpktDataSize + pgpktDataSize ≤ x → m' x = m x)
    (hsec : ∀ j < pgpktDataSize, m' (o * pgpktDataSize + j) = w.wanted (o * pgpktDataSize + j)) :
    ∀ x < efuseMapLen, m' x = if x < pgpktDataSize * (o + 1) then w.wanted x else w.map x := by
  intro x hx
  have hsize : pgpktDataSize = 8 := rfl
  rw [hsize] at hm hother hsec ⊢
  by_cases hin : o * 8 ≤ x ∧ x < o * 8 + 8
  · obtain ⟨j, rfl⟩ : ∃ j, x = o * 8 + j := ⟨x - o * 8, by omega⟩
    rw [if_pos (by omega)]
    exact hsec j (by omega)
  · rw [hother x (by omega), hm x hx]
    have hborder : x < 8 * o ↔ x < 8 * (o + 1) := by omega
    simp only [hborder]

/-- **One turn brings one section to what is wanted.** -/
theorem WriteInv.turn (h : WriteInv w ps e s) (hend : w.addr + w.cnts ≤ efuseMapLen)
    (hidx : s.idx < w.cnts) (hfits : e + w.sectionLen s.idx s.offset < availableEfuseBytes)
    (depth : Nat) :
    ∃ ps' s', w.writeTurn (depth + 1) s = .go s' ∧
      s'.idx = (w.scanSection s.idx s.offset).idx ∧ s'.offset = s.offset + 1 ∧
      WriteInv w ps' (e + w.sectionLen s.idx s.offset) s' := by
  have hscan := scanSection_spec h.pos hidx
  obtain ⟨hpos, -⟩ := hscan.next h.pos hidx
  obtain ⟨hoffset, -⟩ := h.pos.inside hidx
  have hsize : pgpktDataSize = 8 := rfl
  have hsec : s.offset < efuseMaxSection := by
    unfold efuseMapLen at hend
    unfold efuseMaxSection
    rw [hsize] at hoffset
    omega
  have hnat : (UInt8.ofNat s.offset).toNat = s.offset :=
    UInt8.toNat_ofNat_of_lt' (Nat.lt_of_lt_of_le hsec (by decide))
  have hbase : ∀ j < pgpktDataSize, mapOf ps (s.offset * pgpktDataSize + j)
      = w.map (s.offset * pgpktDataSize + j) := by
    intro j hj
    unfold efuseMaxSection at hsec
    rw [hsize] at hj ⊢
    rw [h.map _ (by unfold efuseMapLen; omega)]
    exact if_neg (by rw [hsize]; omega)
  by_cases hword : (w.scanSection s.idx s.offset).wordEn ≠ 0x0F
  · have hmask := maskOk_of_ne hscan.mask hword
    have hlen : w.sectionLen s.idx s.offset
        = packetLen (UInt8.ofNat s.offset) (w.scanSection s.idx s.offset).wordEn :=
      sectionLen_eq (by unfold efuseMaxSection at hsec; omega) hword
    rw [hlen] at hfits ⊢
    obtain ⟨c', hcall, hlog, hused⟩ := halEfusePgPacketWrite_log h.log h.used
      (by rw [hnat]; unfold efuseMaxSection at hsec; omega) hmask hfits
      (w.scanSection s.idx s.offset).newdata depth
    refine ⟨_, ⟨c', (w.scanSection s.idx s.offset).idx, s.offset + 1, true⟩, ?_, rfl, rfl, rfl,
      hlog, hused, hpos, ?_⟩
    · simp only [writeTurn, if_pos hidx, if_pos hword, hcall]
    · refine map_next h.map ?_ ?_
      · intro x hx
        rw [mapOf_append]
        unfold Packet.apply
        rw [hnat, if_pos hsec]
        exact putWords_outside _ _ _ hx
      · intro j hj
        rw [mapOf_append]
        unfold Packet.apply
        rw [hnat, if_pos hsec, putWords_enc _ _ _ _ hj]
        split
        · rw [hscan.newdata j hj, if_pos hj]
        · rename_i hoff
          rw [hbase j hj]
          exact (hscan.same j hj (Bool.not_eq_true _ ▸ hoff)).symm
  · have hnone : (w.scanSection s.idx s.offset).wordEn = 0x0F := not_not.mp hword
    have hlen : w.sectionLen s.idx s.offset = 0 := if_neg hword
    rw [hlen, Nat.add_zero]
    refine ⟨ps, { s with
      idx := (w.scanSection s.idx s.offset).idx
      offset := s.offset + 1 }, ?_, rfl, rfl, h.ret, h.log, h.used, hpos, ?_⟩
    · simp only [writeTurn, if_pos hidx, if_neg hword]
    · refine map_next h.map (fun _ _ => rfl) ?_
      intro j hj
      have hoff : wordEnabled (w.scanSection s.idx s.offset).wordEn (j / 2) = false := by
        rw [hnone]
        exact not_enabled_all _ (by rw [hsize] at hj; omega)
      rw [hbase j hj]
      exact (hscan.same j hj hoff).symm

/-- Behind the last section the log has what is wanted. -/
theorem WriteInv.run (h : WriteInv w ps e s) (hend : w.addr + w.cnts ≤ efuseMapLen) {n : Nat}
    (hn : w.cnts - s.idx < n)
    (hfits : e + w.estimate n s.idx s.offset 0 < availableEfuseBytes) (depth : Nat) :
    (runLoop (w.writeTurn (depth + 1)) n s).ret = true ∧
      ∃ ps' e', Log (runLoop (w.writeTurn (depth + 1)) n s).chip.img ps' e' ∧
        ∀ x < efuseMapLen, mapOf ps' x = w.wanted x := by
  induction n generalizing ps e s with
  | zero => omega
  | succ n ih =>
    by_cases hidx : s.idx < w.cnts
    · rw [estimate_succ hidx] at hfits
      obtain ⟨ps', s', hgo, hidx', hoffset', hinv⟩ := h.turn hend hidx (by omega) depth
      obtain ⟨-, hlt⟩ := (scanSection_spec h.pos hidx).next h.pos hidx
      rw [runLoop_go hgo]
      refine ih hinv (by omega) ?_
      rw [hidx', hoffset']
      omega
    · have hstop : w.writeTurn (depth + 1) s = .stop s := if_neg hidx
      rw [runLoop_stop hstop]
      refine ⟨h.ret, ps, e, h.log, ?_⟩
      intro x hx
      rw [h.map x hx]
      split
      · rfl
      · rename_i hge
        have hle := h.pos.le
        refine (wanted_outside ?_).symm
        rcases h.pos.done (by omega) with hzero | hdone <;> omega

end MapWrite

/-! ## 4. The result -/

/-- A log reads as the map of its packets. -/
theorem rtwEfuseMapRead_log {c : Chip} {ps : List Packet} {e : Nat} (h : Log c.img ps e) :
    ∃ used, rtwEfuseMapRead c 0 efuseMapLen
      = (some ((List.range efuseMapLen).map (mapOf ps)), { c with usedBytes := used }) ∧
      (e < efuseRealContentLen ∧ used = e ∨ used = efuseRealContentLen - 1) := by
  have hsplit : readSplit c.img 0 = (ps, e) := h.split_eq (by decide)
  obtain ⟨-, htbl, hend⟩ := readLoop_spec c.img
  rw [hsplit] at htbl hend
  refine ⟨(readLoop c.img).eFuseAddr - 1, ?_, ?_⟩
  · have hfits : ¬0 + efuseMapLen > efuseMapLen := by decide
    have hmap : ¬0 + efuseMapLen > efuseMaxMapLen := by decide
    unfold rtwEfuseMapRead halReadEFuseWiFi
    rw [if_neg hfits, if_neg hmap]
    simp [htbl]
  · rcases hend with ⟨hlt, -, haddr⟩ | ⟨hge, -, haddr⟩
    · exact .inl ⟨hlt, by rw [haddr]; rfl⟩
    · have hle := h.le
      refine .inr ?_
      rw [haddr]
      omega

/-- The part behind reading the map: it writes what is wanted, or nothing. -/
theorem MapWrite.write_log {w : MapWrite} (hend : w.addr + w.cnts ≤ efuseMapLen) {c : Chip}
    {ps : List Packet} {e : Nat} (h : Log c.img ps e)
    (hused : e < efuseRealContentLen ∧ c.usedBytes = e ∨ c.usedBytes = efuseRealContentLen - 1)
    (hmap : ∀ x < efuseMapLen, mapOf ps x = w.map x) (depth : Nat) :
    ((w.write (depth + 1) c).1 = true → ∃ ps' e', Log (w.write (depth + 1) c).2.img ps' e' ∧
      ∀ x < efuseMapLen, mapOf ps' x = w.wanted x) ∧
    ((w.write (depth + 1) c).1 = false → (w.write (depth + 1) c).2.img = c.img) := by
  have hstart : ∃ c₁, (if c.usedBytes = 0 then efuseGetCurrentSize c else (c.usedBytes, c))
      = (c.usedBytes, c₁) ∧ c₁.img = c.img ∧ c₁.usedBytes = c.usedBytes := by
    split
    · rename_i hzero
      rcases hused with ⟨hlt, heq⟩ | heq
      · refine ⟨c, ?_, rfl, rfl⟩
        rw [efuseGetCurrentSize_log h hlt (.inl heq), ← heq]
      · rw [hzero] at heq
        exact absurd heq (by decide)
    · exact ⟨c, rfl, rfl, rfl⟩
  obtain ⟨c₁, hc₁, himg, hused₁⟩ := hstart
  unfold MapWrite.write
  simp only [hc₁]
  split
  · refine ⟨fun hret => ?_, fun _ => himg⟩
    cases hret
  · rename_i hspace
    have hlt : e < efuseRealContentLen ∧ c.usedBytes = e := by
      rcases hused with hlt | heq
      · exact hlt
      · rw [heq] at hspace
        exact absurd (Nat.le_add_right_of_le (by decide)) hspace
    have hinv : WriteInv w ps e ⟨c₁, 0, w.addr / pgpktDataSize, true⟩ := by
      refine ⟨rfl, himg ▸ h, .inl (hused₁.trans hlt.2), pos_start w, ?_⟩
      intro x hx
      rw [hmap x hx]
      split
      · rename_i hbefore
        refine (wanted_outside (.inl ?_)).symm
        have hsize : pgpktDataSize = 8 := rfl
        rw [hsize] at hbefore
        dsimp only at hbefore
        omega
      · rfl
    obtain ⟨hret, ps', e', hlog', hmap'⟩ := hinv.run hend (n := w.cnts + 1) (by dsimp only; omega)
      (by
        rw [hlt.2] at hspace
        exact Nat.lt_of_not_le hspace) depth
    refine ⟨fun _ => ⟨ps', e', hlog', hmap'⟩, fun hfalse => ?_⟩
    rw [hret] at hfalse
    cases hfalse

/-- **What is written is read.**  For a well-formed image and any range of the map, if
`rtw_efuse_map_write` succeeds, the map read afterwards has the new bytes in the range and the
old ones everywhere else, but for byte 8 on the chips where it is kept; if it fails, no byte was
programmed. -/
theorem map_write_read (keep8 : Bool) (depth : Nat) {c : Chip} {ps : List Packet} {e : Nat}
    (h : Log c.img ps e) {addr cnts : Nat} (hend : addr + cnts ≤ efuseMapLen) (data : Tbl) :
    let r := rtwEfuseMapWrite keep8 (fun _ => false) (depth + 1) c addr cnts data
    (r.1 = true → ∃ old new : Tbl,
      (rtwEfuseMapRead c 0 efuseMapLen).1 = some ((List.range efuseMapLen).map old) ∧
      (rtwEfuseMapRead r.2 0 efuseMapLen).1 = some ((List.range efuseMapLen).map new) ∧
      ∀ x < efuseMapLen, new x =
        if addr ≤ x ∧ x < addr + cnts ∧ ¬(x = 0x8 ∧ keep8 = true) then data (x - addr)
        else old x) ∧
    (r.1 = false → r.2.img = c.img) := by
  obtain ⟨used, hread, hused⟩ := rtwEfuseMapRead_log h
  dsimp only
  unfold rtwEfuseMapWrite
  rw [if_neg (Nat.not_lt.mpr hend), hread]
  dsimp only
  generalize hw : (⟨addr, cnts, fun i => if false = true then
      ((List.range efuseMapLen).map (mapOf ps)).getD (addr + i) 0xFF else data i,
      fun i => ((List.range efuseMapLen).map (mapOf ps)).getD i 0xFF, keep8⟩ : MapWrite) = w
  have hmap : ∀ x < efuseMapLen, mapOf ps x = w.map x := by
    intro x hx
    rw [← hw]
    simp [List.getD, hx]
  have hwend : w.addr + w.cnts ≤ efuseMapLen := by
    rw [← hw]
    exact hend
  obtain ⟨hok, hfail⟩ := MapWrite.write_log hwend (c := { c with usedBytes := used }) h
    (by dsimp only; omega) hmap depth
  refine ⟨fun hret => ?_, hfail⟩
  obtain ⟨ps', e', hlog', hmap'⟩ := hok hret
  obtain ⟨used', hread', -⟩ := rtwEfuseMapRead_log hlog'
  refine ⟨mapOf ps, mapOf ps', rfl, by rw [hread'], ?_⟩
  intro x hx
  rw [hmap' x hx]
  unfold MapWrite.wanted
  rw [← hmap x hx, ← hw]
  rfl

/-- Two bytes across a border of sections, in a blank EFUSE. -/
theorem map_write_read_blank :
    let r := rtwEfuseMapWrite false (fun _ => false) 1 ⟨blankTbl, 0⟩ 7 2 (fun _ => 0x12)
    r.1 = true ∧ ∃ old new : Tbl,
      (rtwEfuseMapRead ⟨blankTbl, 0⟩ 0 efuseMapLen).1
        = some ((List.range efuseMapLen).map old) ∧
      (rtwEfuseMapRead r.2 0 efuseMapLen).1 = some ((List.range efuseMapLen).map new) ∧
      ∀ x < efuseMapLen, new x =
        if 7 ≤ x ∧ x < 7 + 2 ∧ ¬(x = 0x8 ∧ false = true) then 0x12 else old x := by
  have hlog : Log blankTbl [] 0 := ⟨.nil 0, by decide, fun _ _ _ => rfl⟩
  have hret : (rtwEfuseMapWrite false (fun _ => false) 1 ⟨blankTbl, 0⟩ 7 2 (fun _ => 0x12)).1
      = true := by decide +kernel
  exact ⟨hret, (map_write_read false 0 hlog (by decide) (fun _ => 0x12)).1 hret⟩

end Rtl8723bs.Efuse
