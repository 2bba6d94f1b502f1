/-
# The tables of the PHY

The MAC, the baseband and the RF are set up from tables of pairs of words.  The two top bits of the
first word tell a pair to be written from the marks of a condition; the four functions that read the
tables differ in the table and in how a pair is written.

`checkPositive_iff` says which boards a condition holds for, field by field.  `readAndConfig_eq` is
about every table that is made of entries and choices (`Lib/CondTable.lean`), whatever else stands in
the marks: the pairs that are written are those it means for this board.
-/
import Mathlib.Tactic.IntervalCases
import Rtl8723bs.Lib.CondTable

namespace Rtl8723bs

open CondTable

/-! ## 1. Conditions -/

/-- What `check_positive` reads of `struct PHY_DM_STRUCT`. -/
structure PhyDm where
  supportPlatform : BitVec 8
  supportInterface : BitVec 8
  cutVersion : BitVec 8
  boardType : BitVec 8
  packageType : BitVec 8
  typeGlna : BitVec 16
  typeGpa : BitVec 16
  typeAlna : BitVec 16
  typeApa : BitVec 16
deriving DecidableEq, Repr

namespace PhyDm
variable (dm : PhyDm)

/-- `_board_type`. -/
def boardTypeForPara : BitVec 8 :=
  (((dm.boardType &&& 0x10) >>> 4) <<< 0) |||
  (((dm.boardType &&& 0x08) >>> 3) <<< 1) |||
  (((dm.boardType &&& 0x80) >>> 7) <<< 2) |||
  (((dm.boardType &&& 0x40) >>> 6) <<< 3) |||
  (((dm.boardType &&& 0x04) >>> 2) <<< 4) |||
  (((dm.boardType &&& 0x02) >>> 1) <<< 5) |||
  (((dm.boardType &&& 0x20) >>> 5) <<< 6)

def odmCutA : BitVec 8 := 0

def cutVersionForPara : BitVec 8 := if dm.cutVersion = odmCutA then 15 else dm.cutVersion

def pkgTypeForPara : BitVec 8 := if dm.packageType = 0 then 15 else dm.packageType

def driver1 : BitVec 32 :=
  (dm.cutVersionForPara.setWidth 32 <<< 24) |||
  ((dm.supportInterface.setWidth 32 &&& 0xF0) <<< 16) |||
  (dm.supportPlatform.setWidth 32 <<< 16) |||
  (dm.pkgTypeForPara.setWidth 32 <<< 12) |||
  ((dm.supportInterface.setWidth 32 &&& 0x0F) <<< 8) |||
  dm.boardTypeForPara.setWidth 32

def driver2 : BitVec 32 :=
  ((dm.typeGlna.setWidth 32 &&& 0xFF) <<< 0) |||
  ((dm.typeGpa.setWidth 32 &&& 0xFF) <<< 8) |||
  ((dm.typeAlna.setWidth 32 &&& 0xFF) <<< 16) |||
  ((dm.typeApa.setWidth 32 &&& 0xFF) <<< 24)

def driver4 : BitVec 32 :=
  ((dm.typeGlna.setWidth 32 &&& 0xFF00) >>> 8) |||
  (dm.typeGpa.setWidth 32 &&& 0xFF00) |||
  ((dm.typeAlna.setWidth 32 &&& 0xFF00) <<< 8) |||
  ((dm.typeApa.setWidth 32 &&& 0xFF00) <<< 16)

end PhyDm

/-- `bit_mask`: the bytes of the amplifiers that a condition names. -/
def ampMask (cond1 : BitVec 32) : BitVec 32 :=
  (if cond1 &&& 0x1 ≠ 0 then 0x000000FF else 0) |||
  (if cond1 &&& 0x2 ≠ 0 then 0x0000FF00 else 0) |||
  (if cond1 &&& 0x4 ≠ 0 then 0x00FF0000 else 0) |||
  (if cond1 &&& 0x8 ≠ 0 then 0xFF000000 else 0)

/-- `check_positive`; it does not look at the third word. -/
def checkPositive (dm : PhyDm) (condition1 condition2 condition4 : BitVec 32) : Bool :=
  if condition1 &&& 0x0000F000 ≠ 0 ∧ condition1 &&& 0x0000F000 ≠ dm.driver1 &&& 0x0000F000 then false
  else if condition1 &&& 0x0F000000 ≠ 0 ∧ condition1 &&& 0x0F000000 ≠ dm.driver1 &&& 0x0F000000 then
    false
  else
    let cond1 := condition1 &&& 0x00FF0FFF
    let driver1 := dm.driver1 &&& 0x00FF0FFF
    if cond1 &&& driver1 = cond1 then
      if cond1 &&& 0x0F = 0 then true
      else
        let bitMask := ampMask cond1
        condition2 &&& bitMask = dm.driver2 &&& bitMask ∧
          condition4 &&& bitMask = dm.driver4 &&& bitMask
    else false

/-! ## 2. The reader -/

def condElse : BitVec 32 := 2
def condEndif : BitVec 32 := 3

/-- The variables of the loop. -/
structure TableState where
  isMatched : Bool
  isSkipped : Bool
  preV1 : BitVec 32
  preV2 : BitVec 32
deriving DecidableEq, Repr

/-- What a pair with one of the two top bits does to them. -/
def TableState.mark (dm : PhyDm) (t : TableState) (v1 v2 : BitVec 32) : TableState :=
  if v1 &&& 0x80000000 ≠ 0 then
    let cCond := (v1 &&& 0x30000000) >>> 28
    if cCond = condEndif then { t with isMatched := true, isSkipped := false }
    else if cCond = condElse then { t with isMatched := if t.isSkipped then false else true }
    else { t with preV1 := v1, preV2 := v2 }
  else if t.isSkipped = false then
    if checkPositive dm t.preV1 t.preV2 v2 then { t with isMatched := true, isSkipped := true }
    else { t with isMatched := false, isSkipped := false }
  else { t with isMatched := false }

/-- The loop over a table; `config` writes a pair. -/
def readPairs {S : Type} (config : BitVec 32 → BitVec 32 → S → S) (dm : PhyDm) :
    TableState → List (BitVec 32) → S → S
  | t, v1 :: v2 :: rest, s =>
    if v1 &&& 0xC0000000 ≠ 0 then readPairs config dm (t.mark dm v1 v2) rest s
    else if t.isMatched then readPairs config dm t rest (config v1 v2 s)
    else readPairs config dm t rest s
  | _, _, s => s

/-- `odm_read_and_config_mp_8723b_mac_reg` and its siblings, up to the table and the writing. -/
def readAndConfig {S : Type} (config : BitVec 32 → BitVec 32 → S → S) (dm : PhyDm)
    (array : List (BitVec 32)) (s : S) : S :=
  readPairs config dm ⟨true, false, 0, 0⟩ array s

/-! ## 3. Writing a pair -/

/-- What the driver does to the chip when it writes a pair. -/
structure PhyDev (S : Type) where
  write1Byte : BitVec 32 → BitVec 8 → S → S
  setBbReg : BitVec 32 → BitVec 32 → BitVec 32 → S → S
  setRfReg : BitVec 32 → BitVec 32 → BitVec 32 → S → S
  getRfReg : BitVec 32 → BitVec 32 → S → BitVec 32 × S
  sleepMs : Nat → S → S
  delayMs : Nat → S → S
  delayUs : Nat → S → S

def maskDword : BitVec 32 := 0xFFFFFFFF
def rfRegOffsetMask : BitVec 32 := 0xFFFFF

section Config
variable {S : Type} (phy : PhyDev S)

/-- `odm_config_mac_8723b`. -/
def odmConfigMac8723b (addr data : BitVec 32) (s : S) : S :=
  phy.write1Byte addr (data.setWidth 8) s

/-- `odm_config_bb_agc_8723b`. -/
def odmConfigBbAgc8723b (addr data : BitVec 32) (s : S) : S :=
  phy.delayUs 1 (phy.setBbReg addr maskDword data s)

/-- `odm_config_bb_phy_8723b`. -/
def odmConfigBbPhy8723b (addr data : BitVec 32) (s : S) : S :=
  phy.delayUs 1 <|
    if addr = 0xFE then phy.sleepMs 50 s
    else if addr = 0xFD then phy.delayMs 5 s
    else if addr = 0xFC then phy.delayMs 1 s
    else if addr = 0xFB then phy.delayUs 50 s
    else if addr = 0xFA then phy.delayUs 5 s
    else if addr = 0xF9 then phy.delayUs 1 s
    else phy.setBbReg addr maskDword data s

/-- The loop that writes 0xB6 again until it reads back, six times at most; `getvalue` is what was
read last. -/
def retryB6 (regAddr addr data : BitVec 32) : Nat → BitVec 32 → S → S
  | 0, _, s => s
  | n + 1, getvalue, s =>
    if getvalue >>> 8 ≠ data >>> 8 then
      let r := phy.getRfReg addr maskDword
        (phy.delayUs 1 (phy.setRfReg regAddr rfRegOffsetMask data s))
      retryB6 regAddr addr data n r.1 r.2
    else s

/-- The loop that writes 0xB2 again, with the LCK. -/
def retryB2 (regAddr addr data : BitVec 32) : Nat → BitVec 32 → S → S
  | 0, _, s => s
  | n + 1, getvalue, s =>
    if getvalue ≠ data then
      let s := phy.delayUs 1 (phy.setRfReg regAddr rfRegOffsetMask data s)
      let r := phy.getRfReg addr maskDword
        (phy.delayUs 1 (phy.setRfReg 0x18 rfRegOffsetMask 0x0FC07 s))
      retryB2 regAddr addr data n r.1 r.2
    else s

/-- `odm_config_rf_reg_8723b` for path A. -/
def odmConfigRfReg8723b (addr data regAddr : BitVec 32) (s : S) : S :=
  if addr = 0xFE ∨ addr = 0xFFE then phy.sleepMs 50 s
  else
    let s := phy.delayUs 1 (phy.setRfReg regAddr rfRegOffsetMask data s)
    let s := if addr = 0xB6 then
        let r := phy.getRfReg addr maskDword s
        retryB6 phy regAddr addr data 6 r.1 (phy.delayUs 1 r.2)
      else s
    if addr = 0xB2 then
      let r := phy.getRfReg addr maskDword s
      retryB2 phy regAddr addr data 6 r.1 (phy.delayUs 1 r.2)
    else s

/-- `odm_config_rf_radio_a_8723b`. -/
def odmConfigRfRadioA8723b (addr data : BitVec 32) (s : S) : S :=
  odmConfigRfReg8723b phy addr data (addr ||| (0x1000 &&& 0xE000)) s

end Config

/-! ## 4. What a condition asks for -/

namespace PhyDm
variable (dm : PhyDm)

/-- The bits that a condition can ask for: of the board, of the interface, of the platform.  A package
type that is too large shows among those of the platform. -/
def has (i : Nat) : Bool :=
  if i < 8 then dm.boardTypeForPara.getLsbD i
  else if i < 12 then dm.supportInterface.getLsbD (i - 8)
  else (decide (20 ≤ i) && dm.supportInterface.getLsbD (i - 16)) ||
    dm.supportPlatform.getLsbD (i - 16) || dm.pkgTypeForPara.getLsbD (i - 12)

/-- The amplifiers: GLNA, GPA, ALNA, APA. -/
def ampType : Nat → BitVec 16
  | 0 => dm.typeGlna
  | 1 => dm.typeGpa
  | 2 => dm.typeAlna
  | _ => dm.typeApa

end PhyDm

/-- Four bits of a condition that are zero where they do not matter. -/
def Nibble (cond : BitVec 32) (lo : Nat) (x : BitVec 8) : Prop :=
  cond.extractLsb' lo 4 = 0 ∨ cond.extractLsb' lo 4 = x.extractLsb' 0 4

section Bits

theorem and_mask_eq_iff {x y m : BitVec 32} (lo n : Nat)
    (hm : ∀ i < 32, m.getLsbD i = decide (lo ≤ i ∧ i < lo + n)) (hle : lo + n ≤ 32) :
    x &&& m = y &&& m ↔ x.extractLsb' lo n = y.extractLsb' lo n := by
  constructor
  · intro h
    apply BitVec.eq_of_getLsbD_eq
    intro i hi
    have hbit := congrArg (fun z : BitVec 32 => z.getLsbD (lo + i)) h
    simpa [hm (lo + i) (by omega), hi] using hbit
  · intro h
    apply BitVec.eq_of_getLsbD_eq
    intro i hi
    rw [BitVec.getLsbD_and, BitVec.getLsbD_and, hm i hi]
    by_cases hin : lo ≤ i ∧ i < lo + n
    · have hbit := congrArg (fun z : BitVec n => z.getLsbD (i - lo)) h
      have hsum : lo + (i - lo) = i := by omega
      have hlt : i - lo < n := by omega
      simp only [BitVec.getLsbD_extractLsb', hsum, hlt, decide_true, Bool.true_and] at hbit
      rw [hbit]
    · rw [decide_eq_false hin, Bool.and_false, Bool.and_false]

theorem and_eq_left_iff {x y : BitVec 32} :
    x &&& y = x ↔ ∀ i < 32, x.getLsbD i = true → y.getLsbD i = true := by
  constructor
  · intro h i _ hx
    have hbit := congrArg (fun z : BitVec 32 => z.getLsbD i) h
    simpa [hx] using hbit
  · intro h
    apply BitVec.eq_of_getLsbD_eq
    intro i hi
    rw [BitVec.getLsbD_and]
    cases hx : x.getLsbD i with
    | false => rfl
    | true => rw [h i hi hx, Bool.and_true]

theorem and_twoPow_ne_zero (c : BitVec 32) {k : Nat} (hk : k < 32) :
    c &&& BitVec.twoPow 32 k ≠ 0 ↔ c.getLsbD k = true := by
  rw [BitVec.and_twoPow]
  cases c.getLsbD k with
  | false => simp
  | true =>
    simp only [if_true, iff_true]
    intro h
    have hbit := congrArg (fun z : BitVec 32 => z.getLsbD k) h
    simp [hk] at hbit

/-- The mask has the bytes whose bits the condition has. -/
theorem ampMask_getLsbD (c : BitVec 32) {i : Nat} (hi : i < 32) :
    (ampMask c).getLsbD i = c.getLsbD (i / 8) := by
  have hall : ∀ b₀ b₁ b₂ b₃ : Bool, ∀ i < 32,
      ((if b₀ = true then 0x000000FF else 0) ||| (if b₁ = true then 0x0000FF00 else 0) |||
          (if b₂ = true then 0x00FF0000 else 0) ||| (if b₃ = true then 0xFF000000 else 0)
        : BitVec 32).getLsbD i
        = if i / 8 = 0 then b₀ else if i / 8 = 1 then b₁ else if i / 8 = 2 then b₂ else b₃ := by
    decide
  have hmask : ampMask c = (if c.getLsbD 0 = true then 0x000000FF else 0) |||
      (if c.getLsbD 1 = true then 0x0000FF00 else 0) |||
      (if c.getLsbD 2 = true then 0x00FF0000 else 0) |||
      (if c.getLsbD 3 = true then 0xFF000000 else 0) := by
    simp only [← and_twoPow_ne_zero c (by decide : 0 < 32),
      ← and_twoPow_ne_zero c (by decide : 1 < 32), ← and_twoPow_ne_zero c (by decide : 2 < 32),
      ← and_twoPow_ne_zero c (by decide : 3 < 32)]
    rfl
  rw [hmask, hall _ _ _ _ i hi]
  have hlt : i / 8 < 4 := by omega
  interval_cases i / 8 <;> rfl

theorem ampMask_eq_zero {c : BitVec 32} (h : c &&& 0x0F = 0) : ampMask c = 0 := by
  apply BitVec.eq_of_getLsbD_eq
  intro i hi
  have hm : ∀ k < 4, (0x0F : BitVec 32).getLsbD k = true := by decide
  have hbit := congrArg (fun z : BitVec 32 => z.getLsbD (i / 8)) h
  simp only [BitVec.getLsbD_and, hm (i / 8) (by omega), Bool.and_true] at hbit
  rw [ampMask_getLsbD c hi, hbit]
  exact BitVec.getLsbD_zero.trans BitVec.getLsbD_zero.symm

variable (dm : PhyDm)

theorem driver1_getLsbD {i : Nat} (hi : i < 28) : dm.driver1.getLsbD i
    = if i < 12 ∨ 16 ≤ i ∧ i < 24 then dm.has i
      else if i < 16 then dm.pkgTypeForPara.getLsbD (i - 12)
      else dm.cutVersionForPara.getLsbD (i - 24) := by
  interval_cases i <;> simp [PhyDm.driver1, PhyDm.has]

theorem driver1_package : dm.driver1.extractLsb' 12 4 = dm.pkgTypeForPara.extractLsb' 0 4 := by
  apply BitVec.eq_of_getLsbD_eq
  intro i hi
  rw [BitVec.getLsbD_extractLsb', BitVec.getLsbD_extractLsb', driver1_getLsbD dm (by omega)]
  rw [if_neg (by omega), if_pos (by omega), Nat.zero_add, Nat.add_sub_cancel_left]

theorem driver1_cut : dm.driver1.extractLsb' 24 4 = dm.cutVersionForPara.extractLsb' 0 4 := by
  apply BitVec.eq_of_getLsbD_eq
  intro i hi
  rw [BitVec.getLsbD_extractLsb', BitVec.getLsbD_extractLsb', driver1_getLsbD dm (by omega)]
  rw [if_neg (by omega), if_neg (by omega), Nat.zero_add, Nat.add_sub_cancel_left]

/-- A byte of the second and of the fourth word, and the type of its amplifier. -/
theorem driver2_byte {k : Nat} (hk : k < 4) :
    dm.driver2.extractLsb' (8 * k) 8 = (dm.ampType k).extractLsb' 0 8 := by
  apply BitVec.eq_of_getLsbD_eq
  intro i hi
  interval_cases k <;> interval_cases i <;> simp [PhyDm.driver2, PhyDm.ampType]

theorem driver4_byte {k : Nat} (hk : k < 4) :
    dm.driver4.extractLsb' (8 * k) 8 = (dm.ampType k).extractLsb' 8 8 := by
  apply BitVec.eq_of_getLsbD_eq
  intro i hi
  interval_cases k <;> interval_cases i <;> simp [PhyDm.driver4, PhyDm.ampType]

theorem nibble_iff (c : BitVec 32) {m : BitVec 32} {lo : Nat} {x : BitVec 8}
    (hm : ∀ i < 32, m.getLsbD i = decide (lo ≤ i ∧ i < lo + 4)) (hle : lo + 4 ≤ 32)
    (hx : dm.driver1.extractLsb' lo 4 = x.extractLsb' 0 4) :
    ¬ (c &&& m ≠ 0 ∧ c &&& m ≠ dm.driver1 &&& m) ↔ Nibble c lo x := by
  have hzero : c &&& m = 0 ↔ c.extractLsb' lo 4 = 0 := by
    have h := and_mask_eq_iff (x := c) (y := 0) lo 4 hm hle
    simpa using h
  rw [not_and_or, not_not, not_not, hzero, and_mask_eq_iff lo 4 hm hle, hx]
  rfl

/-- The bits that are compared one by one. -/
theorem bits_iff (c : BitVec 32) :
    c &&& 0x00FF0FFF &&& (dm.driver1 &&& 0x00FF0FFF) = c &&& 0x00FF0FFF
      ↔ ∀ i, i < 12 ∨ 16 ≤ i ∧ i < 24 → c.getLsbD i = true → dm.has i = true := by
  have hm : ∀ i < 32, (0x00FF0FFF : BitVec 32).getLsbD i
      = decide (i < 12 ∨ 16 ≤ i ∧ i < 24) := by decide
  rw [and_eq_left_iff]
  constructor
  · intro h i hi hc
    have hbit := h i (by omega)
    rw [BitVec.getLsbD_and, BitVec.getLsbD_and, hm i (by omega), decide_eq_true hi, hc,
      driver1_getLsbD dm (by omega), if_pos hi, Bool.and_true, Bool.and_true] at hbit
    exact hbit rfl
  · intro h i hi hc
    rw [BitVec.getLsbD_and, hm i hi, Bool.and_eq_true, decide_eq_true_eq] at hc
    rw [BitVec.getLsbD_and, hm i hi, driver1_getLsbD dm (by omega), if_pos hc.2,
      decide_eq_true hc.2, Bool.and_true]
    exact h i hc.2 hc.1

/-- Words that agree on the bytes of the amplifiers a condition names. -/
theorem and_ampMask_iff (c x y : BitVec 32) : x &&& ampMask c = y &&& ampMask c
    ↔ ∀ k < 4, c.getLsbD k = true → x.extractLsb' (8 * k) 8 = y.extractLsb' (8 * k) 8 := by
  constructor
  · intro h k hk hc
    apply BitVec.eq_of_getLsbD_eq
    intro i hi
    have hbit := congrArg (fun z : BitVec 32 => z.getLsbD (8 * k + i)) h
    have hdiv : (8 * k + i) / 8 = k := by omega
    simp only [BitVec.getLsbD_and, ampMask_getLsbD c (by omega : 8 * k + i < 32), hdiv, hc,
      Bool.and_true] at hbit
    rw [BitVec.getLsbD_extractLsb', BitVec.getLsbD_extractLsb', hbit]
  · intro h
    apply BitVec.eq_of_getLsbD_eq
    intro i hi
    rw [BitVec.getLsbD_and, BitVec.getLsbD_and, ampMask_getLsbD c hi]
    cases hc : c.getLsbD (i / 8) with
    | false => rw [Bool.and_false, Bool.and_false]
    | true =>
      have hbyte := congrArg (fun z : BitVec 8 => z.getLsbD (i % 8)) (h (i / 8) (by omega) hc)
      have hsum : 8 * (i / 8) + i % 8 = i := Nat.div_add_mod i 8
      have hlt : i % 8 < 8 := Nat.mod_lt i (by decide)
      simp only [BitVec.getLsbD_extractLsb', hsum, hlt, decide_true, Bool.true_and] at hbyte
      rw [hbyte]

end Bits

/-- **`check_positive`.**  A condition holds for a board when the package type and the cut are those
it names, if it names one, the board has every bit it asks for, and each amplifier it names is of the
type that its bytes in the second and fourth word give. -/
theorem checkPositive_iff (dm : PhyDm) (cond1 cond2 cond4 : BitVec 32) :
    checkPositive dm cond1 cond2 cond4 = true ↔
      Nibble cond1 12 dm.pkgTypeForPara ∧ Nibble cond1 24 dm.cutVersionForPara ∧
        (∀ i, i < 12 ∨ 16 ≤ i ∧ i < 24 → cond1.getLsbD i = true → dm.has i = true) ∧
        ∀ k < 4, cond1.getLsbD k = true →
          cond2.extractLsb' (8 * k) 8 = (dm.ampType k).extractLsb' 0 8 ∧
            cond4.extractLsb' (8 * k) 8 = (dm.ampType k).extractLsb' 8 8 := by
  have hpkg : ¬ (cond1 &&& 0x0000F000 ≠ 0 ∧
      cond1 &&& 0x0000F000 ≠ dm.driver1 &&& 0x0000F000) ↔ Nibble cond1 12 dm.pkgTypeForPara :=
    nibble_iff dm cond1 (by decide) (by decide) (driver1_package dm)
  have hcut : ¬ (cond1 &&& 0x0F000000 ≠ 0 ∧
      cond1 &&& 0x0F000000 ≠ dm.driver1 &&& 0x0F000000) ↔ Nibble cond1 24 dm.cutVersionForPara :=
    nibble_iff dm cond1 (by decide) (by decide) (driver1_cut dm)
  have hlow : ∀ k < 4, (cond1 &&& 0x00FF0FFF).getLsbD k = cond1.getLsbD k := by
    intro k hk
    have hm : ∀ k < 4, (0x00FF0FFF : BitVec 32).getLsbD k = true := by decide
    rw [BitVec.getLsbD_and, hm k hk, Bool.and_true]
  have hamps : (∀ k < 4, cond1.getLsbD k = true →
      cond2.extractLsb' (8 * k) 8 = (dm.ampType k).extractLsb' 0 8 ∧
        cond4.extractLsb' (8 * k) 8 = (dm.ampType k).extractLsb' 8 8)
      ↔ cond2 &&& ampMask (cond1 &&& 0x00FF0FFF) = dm.driver2 &&& ampMask (cond1 &&& 0x00FF0FFF) ∧
        cond4 &&& ampMask (cond1 &&& 0x00FF0FFF)
          = dm.driver4 &&& ampMask (cond1 &&& 0x00FF0FFF) := by
    rw [and_ampMask_iff, and_ampMask_iff]
    constructor
    · intro h
      refine ⟨fun k hk hc => ?_, fun k hk hc => ?_⟩
      · rw [driver2_byte dm hk, (h k hk (by rwa [hlow k hk] at hc)).1]
      · rw [driver4_byte dm hk, (h k hk (by rwa [hlow k hk] at hc)).2]
    · rintro ⟨h₂, h₄⟩ k hk hc
      rw [← driver2_byte dm hk, ← driver4_byte dm hk]
      exact ⟨h₂ k hk (by rwa [hlow k hk]), h₄ k hk (by rwa [hlow k hk])⟩
  rw [hamps, ← hpkg, ← hcut, ← bits_iff]
  simp only [checkPositive]
  by_cases h₁ : cond1 &&& 0x0000F000 ≠ 0 ∧ cond1 &&& 0x0000F000 ≠ dm.driver1 &&& 0x0000F000
  · rw [if_pos h₁]
    exact iff_of_false Bool.false_ne_true fun h => h.1 h₁
  rw [if_neg h₁]
  by_cases h₂ : cond1 &&& 0x0F000000 ≠ 0 ∧ cond1 &&& 0x0F000000 ≠ dm.driver1 &&& 0x0F000000
  · rw [if_pos h₂]
    exact iff_of_false Bool.false_ne_true fun h => h.2.1 h₂
  rw [if_neg h₂]
  by_cases h₃ : cond1 &&& 0x00FF0FFF &&& (dm.driver1 &&& 0x00FF0FFF) = cond1 &&& 0x00FF0FFF
  · rw [if_pos h₃]
    by_cases h₄ : cond1 &&& 0x00FF0FFF &&& 0x0F = 0
    · have hzero : ∀ x : BitVec 32, x &&& 0 = 0 := fun x => BitVec.and_zero
      simp only [if_pos h₄, ampMask_eq_zero h₄, hzero]
      exact iff_of_true trivial ⟨h₁, h₂, h₃, trivial, trivial⟩
    · rw [if_neg h₄, decide_eq_true_eq]
      exact ⟨fun h => ⟨h₁, h₂, h₃, h⟩, fun h => h.2.2.2⟩
  · rw [if_neg h₃]
    exact iff_of_false Bool.false_ne_true fun h => h₃ h.2.2.1

/-! ## 5. What a table means -/

abbrev Pair := BitVec 32 × BitVec 32

/-- A pair of words as a row; nothing is read of an otherwise and of an end. -/
def rowOf (v1 v2 : BitVec 32) : Row Pair Pair (BitVec 32) :=
  if v1 &&& 0xC0000000 ≠ 0 then
    if v1 &&& 0x80000000 ≠ 0 then
      if (v1 &&& 0x30000000) >>> 28 = condEndif then .done
      else if (v1 &&& 0x30000000) >>> 28 = condElse then .otherwise
      else .pend (v1, v2)
    else .confirm v2
  else .entry (v1, v2)

/-- The rows of an array; a last word that has no partner is not read. -/
def rowsOf : List (BitVec 32) → List (Row Pair Pair (BitVec 32))
  | v1 :: v2 :: rest => rowOf v1 v2 :: rowsOf rest
  | _ => []

/-- The condition of an arm. -/
def boardTest (dm : PhyDm) (p : Pair) (v2 : BitVec 32) : Bool := checkPositive dm p.1 p.2 v2

def TableState.reader (t : TableState) : Reader Pair := ⟨t.isMatched, t.isSkipped, t.preV1, t.preV2⟩

section Table
variable {S : Type} (config : BitVec 32 → BitVec 32 → S → S) (dm : PhyDm)

theorem mark_reader (t : TableState) {v1 v2 : BitVec 32} (h : v1 &&& 0xC0000000 ≠ 0) :
    (t.mark dm v1 v2).reader = t.reader.step (boardTest dm) (rowOf v1 v2) := by
  rw [rowOf, if_pos h, TableState.mark]
  by_cases hpos : v1 &&& 0x80000000 ≠ 0
  · rw [if_pos hpos, if_pos hpos]
    by_cases hend : (v1 &&& 0x30000000) >>> 28 = condEndif
    · simp only [hend, if_true]
      rfl
    · by_cases helse : (v1 &&& 0x30000000) >>> 28 = condElse
      · have hne : condElse ≠ condEndif := by decide
        simp only [helse, if_neg hne, if_true]
        cases hskipped : t.isSkipped <;> simp [TableState.reader, Reader.step, hskipped]
      · simp only [if_neg hend, if_neg helse]
        rfl
  · rw [if_neg hpos, if_neg hpos]
    obtain ⟨matched, skipped, preV1, preV2⟩ := t
    cases skipped with
    | true => rfl
    | false =>
      simp only [if_true, TableState.reader, Reader.step, boardTest, Bool.false_eq_true, if_false]
      cases checkPositive dm preV1 preV2 v2 <;> rfl

/-- The loop writes what the reader writes. -/
theorem readPairs_eq (array : List (BitVec 32)) (t : TableState) (s : S) :
    readPairs config dm t array s = (emitted (boardTest dm) t.reader (rowsOf array)).foldl
      (fun s w => config w.1 w.2 s) s := by
  fun_induction rowsOf array generalizing t s with
  | case1 v1 v2 rest ih =>
    rw [readPairs, emitted]
    by_cases hmark : v1 &&& 0xC0000000 ≠ 0
    · have hout : t.reader.out (rowOf v1 v2) = [] := by
        rw [rowOf, if_pos hmark]
        split
        · split
          · rfl
          · split <;> rfl
        · rfl
      rw [if_pos hmark, ih, mark_reader dm t hmark, hout, List.nil_append]
    · have hrow : rowOf v1 v2 = .entry (v1, v2) := if_neg hmark
      rw [if_neg hmark, hrow, List.foldl_append, ih, ih]
      cases hmatched : t.isMatched with
      | true => simp only [if_true, Reader.out, TableState.reader, hmatched, List.foldl_cons,
          List.foldl_nil, Reader.step]
      | false => simp only [Bool.false_eq_true, if_false, Reader.out, TableState.reader, hmatched,
          List.foldl_nil, Reader.step]
  | case2 array hnone =>
    rw [readPairs.eq_2 config dm t array s (fun v1 v2 rest h => hnone v1 v2 rest h)]
    rfl

/-- **The tables of the PHY.**  Whatever a table is for and however its pairs are written: what is
written of a table of entries and choices is, in this order, the entries, and of each choice the
first arm whose condition holds for the board, or the otherwise. -/
theorem readAndConfig_eq {array : List (BitVec 32)} {items : List (Item Pair Pair (BitVec 32))}
    (htable : rowsOf array = flatten items) (s : S) :
    readAndConfig config dm array s = (items.flatMap (Item.meaning (boardTest dm))).foldl
      (fun s w => config w.1 w.2 s) s := by
  rw [readAndConfig, readPairs_eq, htable]
  exact congrArg (List.foldl _ s) (emitted_flatten items ⟨rfl, rfl⟩)

end Table

/-- A board of package type 3, and what a table with an arm for it means. -/
def boardOfPackage3 : PhyDm := ⟨0, 0, 0, 0, 3, 0, 0, 0, 0⟩

def oneChoice : List (Item Pair Pair (BitVec 32)) :=
  [.entry (0x010, 1), .choice [⟨(0x80003000, 0), 0, [(0x011, 2)]⟩] (some [(0x011, 3)])]

theorem readAndConfig_eq_of_oneChoice :
    readAndConfig (fun addr data written => written ++ [(addr, data)]) boardOfPackage3
        [0x010, 1, 0x80003000, 0, 0x40000000, 0, 0x011, 2, 0xA0000000, 0, 0x011, 3, 0xB0000000, 0, 7]
        []
      = (oneChoice.flatMap (Item.meaning (boardTest boardOfPackage3))).foldl
          (fun written w => written ++ [(w.1, w.2)]) [] :=
  readAndConfig_eq _ _ (by decide +kernel) []

end Rtl8723bs
