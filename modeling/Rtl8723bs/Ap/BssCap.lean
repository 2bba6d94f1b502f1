/-
# What the stations of a BSS can do, counted

An access point has to know whether one of its stations is a legacy one: `mlme_priv` counts
the stations of seven kinds, and each `sta_info` has a flag for each kind that says whether it
is counted.  `bss_cap_update_on_sta_join` and `bss_cap_update_on_sta_leave` move flag and
counter together, `rtw_process_public_act_bsscoex` sets one more flag and `rtw_ap_check_scan`
clears one counter.  From the counters `rtw_ht_operation_update` works out the HT operation
mode, and `update_bcn_erpinfo_ie` and `update_bcn_htinfo_ie` write what is advertised into the
information elements of the beacon.
-/
import Rtl8723bs.Lib.FlagCount
import Rtl8723bs.Sta

namespace Rtl8723bs

open FlagCount

/-! ## 1. The data -/

/-- The counters of `mlme_priv`, each with the flag of `sta_info` it counts. -/
inductive CapKind
  /-- `num_sta_non_erp` and `nonerp_set`. -/
  | nonErp
  /-- `num_sta_no_short_preamble` and `no_short_preamble_set`. -/
  | noShortPreamble
  /-- `num_sta_no_short_slot_time` and `no_short_slot_time_set`. -/
  | noShortSlotTime
  /-- `num_sta_no_ht` and `no_ht_set`. -/
  | noHt
  /-- `num_sta_ht_no_gf` and `no_ht_gf_set`. -/
  | htNoGf
  /-- `num_sta_ht_20mhz` and `ht_20mhz_set`. -/
  | ht20mhz
  /-- `num_sta_40mhz_intolerant` and `ht_40mhz_intolerant`. -/
  | intol40mhz
deriving DecidableEq, Repr

/-- What an association request leaves in `sta_info` for `bss_cap_update_on_sta_join`. -/
structure StaCapab where
  /-- `flags & WLAN_STA_SHORT_PREAMBLE`. -/
  shortPreamble : Bool
  /-- `flags & WLAN_STA_NONERP`. -/
  nonErp : Bool
  /-- `capability & WLAN_CAPABILITY_SHORT_SLOT`. -/
  shortSlot : Bool
  /-- `flags & WLAN_STA_HT`. -/
  ht : Bool
  /-- `htpriv.ht_cap.cap_info`. -/
  htCapInfo : BitVec 16
deriving DecidableEq, Repr

/-- A zeroed `sta_info`. -/
def StaCapab.zero : StaCapab := ⟨false, false, false, false, 0⟩

/-- `struct HT_info_element`: the byte `infos[0]` and the 16 bits behind it. -/
structure HtInfoIe where
  infos0 : BitVec 8
  opMode : BitVec 16
deriving DecidableEq, Repr

/-- The element ids that `update_beacon` is called with here. -/
inductive BcnIe
  | erpInfo
  | htCapability
  | htAddInfo
  /-- `0xFF`: no element, only send the beacon. -/
  | any
deriving DecidableEq, Repr

/-- The parts of `mlme_priv`, `mlme_ext_priv` and `mlme_ext_info` that decide what the beacon
says about protection, and the elements of the beacon that say it. -/
structure Bss where
  caps : Flags StaId CapKind
  /-- `bstart_bss`. -/
  bstartBss : Bool
  curWirelessMode : Nat
  curChannel : Nat
  /-- `cur_bwmode >= CHANNEL_WIDTH_40`. -/
  curBw40 : Bool
  /-- `cur_ch_offset == HAL_PRIME_CHNL_OFFSET_LOWER`. -/
  offsetLower : Bool
  olbc : Bool
  olbcHt : Bool
  /-- `htpriv.ht_option`. -/
  htOption : Bool
  /-- `htpriv.ht_cap.cap_info` of the access point. -/
  apHtCapInfo : BitVec 16
  htOpMode : BitVec 16
  ht20mhzWidthReq : Bool
  htIntolerantChReported : Bool
  swTo20mhz : Bool
  erpEnable : Bool
  htInfoEnable : Bool
  /-- `data[0]` of the ERP element, when the beacon has one that is not empty. -/
  erpIe : Option (BitVec 8)
  /-- The HT operation element, when the beacon has one. -/
  htInfoIe : Option HtInfoIe
  updateBcn : Bool

/-- The counter of a kind. -/
def Bss.num (b : Bss) (k : CapKind) : Int := b.caps.num k

/-! ## 2. The beacon -/

/-- `WIRELESS_11B`. -/
def wireless11b : Nat := 1

/-- `RTW_ERP_INFO_NON_ERP_PRESENT | RTW_ERP_INFO_USE_PROTECTION`. -/
def erpInfoProtection : BitVec 8 := 0x03

/-- `RTW_ERP_INFO_BARKER_PREAMBLE_MODE`. -/
def erpInfoBarker : BitVec 8 := 0x04

/-- `IEEE80211_HT_CAP_SUP_WIDTH`. -/
def htCapSupWidth : BitVec 16 := 0x0002

/-- `IEEE80211_HT_CAP_GRN_FLD`. -/
def htCapGrnFld : BitVec 16 := 0x0010

/-- `HT_INFO_OPERATION_MODE_OP_MODE_MASK`. -/
def opModeMask : BitVec 16 := 0x0003

/-- `HT_INFO_OPERATION_MODE_NON_GF_DEVS_PRESENT`. -/
def nonGfDevsPresent : BitVec 16 := 0x0004

/-- `HT_INFO_OPERATION_MODE_NON_HT_STA_PRESENT`. -/
def nonHtStaPresent : BitVec 16 := 0x0010

/-- `OP_MODE_PURE`. -/
def opModePure : BitVec 16 := 0

/-- `OP_MODE_MAY_BE_LEGACY_STAS`. -/
def opModeMayBeLegacyStas : BitVec 16 := 1

/-- `OP_MODE_20MHZ_HT_STA_ASSOCED`. -/
def opMode20mhzHtStaAssoced : BitVec 16 := 2

/-- `OP_MODE_MIXED`. -/
def opModeMixed : BitVec 16 := 3

/-- The masks are set when `on`, and cleared otherwise. -/
def putBits {w : Nat} (x m : BitVec w) (on : Bool) : BitVec w :=
  if on then x ||| m else x &&& ~~~m

/-- A mask of one bit tests it. -/
theorem and_twoPow_eq_zero_iff {w : Nat} (x : BitVec w) {i : Nat} (hi : i < w) :
    x &&& BitVec.twoPow w i = 0 ↔ x.getLsbD i = false := by
  have hne : BitVec.twoPow w i ≠ 0 := by
    intro hzero
    have hbit := congrArg (fun y => y.getLsbD i) hzero
    simp [hi] at hbit
  rw [BitVec.and_twoPow]
  cases hx : x.getLsbD i with
  | true => exact ⟨fun h => absurd h hne, fun h => nomatch h⟩
  | false => exact ⟨fun _ => rfl, fun _ => rfl⟩

/-- `update_bcn_erpinfo_ie`.  The element is rewritten from the two counters; one of them is
compared with 1. -/
def Bss.updateBcnErpinfoIe (b : Bss) : Bss :=
  if !b.erpEnable then b
  else
    match b.erpIe with
    | none => b
    | some data =>
      let data := putBits data erpInfoProtection (b.num .nonErp = 1)
      let data := putBits data erpInfoBarker (b.num .noShortPreamble > 0)
      { b with erpIe := some data }

/-- `SET_HT_OP_ELE_2ND_CHL_OFFSET` and `SET_HT_OP_ELE_STA_CHL_WIDTH` on `infos[0]`. -/
def setChlWidth (infos0 : BitVec 8) (offset : BitVec 8) (width : Bool) : BitVec 8 :=
  putBits (putBits infos0 0x03 false ||| offset) 0x04 width

/-- `update_bcn_htinfo_ie`. -/
def Bss.updateBcnHtinfoIe (b : Bss) : Bss :=
  if !b.htOption then b
  else if !b.htInfoEnable then b
  else
    match b.htInfoIe with
    | none => b
    | some ie =>
      let narrow := b.num .intol40mhz > 0 ∨ b.ht20mhzWidthReq ∨ b.htIntolerantChReported ∨ b.olbc
      let wide := b.num .intol40mhz = 0 ∧ !b.ht20mhzWidthReq ∧ !b.htIntolerantChReported ∧ !b.olbc
      if !b.swTo20mhz ∧ b.curChannel ≤ 14 then
        if narrow then
          { b with
            swTo20mhz := true
            htInfoIe := some ⟨setChlWidth ie.infos0 0 false, b.htOpMode⟩ }
        else { b with htInfoIe := some ⟨ie.infos0, b.htOpMode⟩ }
      else if wide ∧ b.curBw40 then
        { b with
          swTo20mhz := false
          htInfoIe := some
            ⟨setChlWidth ie.infos0 (if b.offsetLower then 1 else 3) true, b.htOpMode⟩ }
      else { b with htInfoIe := some ⟨ie.infos0, b.htOpMode⟩ }

/-- `update_beacon`.  Whether the beacon is handed to the hardware (`tx`) changes nothing in
it. -/
def Bss.updateBeacon (b : Bss) (ieId : BcnIe) : Bss :=
  if !b.bstartBss then b
  else
    let b := match ieId with
      | .erpInfo => b.updateBcnErpinfoIe
      | .htAddInfo => b.updateBcnHtinfoIe
      | .htCapability => b
      | .any => b
    { b with updateBcn := true }

/-- The operation mode that `rtw_ht_operation_update` works out. -/
def Bss.newOpMode (b : Bss) : BitVec 16 :=
  if b.num .noHt ≠ 0 then opModeMixed
  else if b.apHtCapInfo &&& htCapSupWidth ≠ 0 ∧ b.num .ht20mhz ≠ 0 then opMode20mhzHtStaAssoced
  else if b.olbcHt then opModeMayBeLegacyStas
  else opModePure

/-- One `if … else if …` of `rtw_ht_operation_update`: a mask of `ht_op_mode` follows a
condition, and a change is counted. -/
def Bss.followBit (b : Bss) (m : BitVec 16) (on : Bool) : Bss × Nat :=
  if b.htOpMode &&& m = 0 ∧ on then ({ b with htOpMode := b.htOpMode ||| m }, 1)
  else if b.htOpMode &&& m ≠ 0 ∧ !on then ({ b with htOpMode := b.htOpMode &&& ~~~m }, 1)
  else (b, 0)

/-- `rtw_ht_operation_update`: the new state and `op_mode_changes`. -/
def Bss.htOperationUpdate (b : Bss) : Bss × Nat :=
  if !b.htOption then (b, 0)
  else
    let r₁ := b.followBit nonGfDevsPresent (b.num .htNoGf ≠ 0)
    let r₂ := r₁.1.followBit nonHtStaPresent (b.num .noHt ≠ 0 ∨ b.olbcHt)
    let b₂ := r₂.1
    if b₂.htOpMode &&& opModeMask ≠ b.newOpMode then
      ({ b₂ with htOpMode := b₂.htOpMode &&& ~~~opModeMask ||| b.newOpMode }, r₁.2 + r₂.2 + 1)
    else (b₂, r₁.2 + r₂.2)

/-- The end of join and leave: the HT operation mode, and its element when it changed. -/
def Bss.updateHtOperation (b : Bss) : Bss :=
  let r := b.htOperationUpdate
  if r.2 > 0 then (r.1.updateBeacon .htCapability).updateBeacon .htAddInfo else r.1

/-! ## 3. Joining and leaving -/

/-- Move a flag and its counter, and tell whether the counter has just become 1 or 0. -/
def Bss.count (b : Bss) (k : CapKind) (psta : StaId) (on : Bool) : Bss × Bool :=
  if b.caps.flag k psta = on then (b, false)
  else
    let b := { b with caps := b.caps.write k psta on }
    (b, b.num k = if on then 1 else 0)

/-- The flag and counter of non-ERP stations; the ERP element is written at the edges. -/
def Bss.countNonErp (b : Bss) (psta : StaId) (on : Bool) : Bss × Bool :=
  let r := b.count .nonErp psta on
  (if r.2 then r.1.updateBeacon .erpInfo else r.1, r.2)

/-- The part of `bss_cap_update_on_sta_join` that is about HT. -/
def Bss.countHt (b : Bss) (psta : StaId) (s : StaCapab) : Bss :=
  if s.ht then
    let b := (b.count .noHt psta false).1
    let b := if s.htCapInfo &&& htCapGrnFld = 0 then (b.count .htNoGf psta true).1 else b
    if s.htCapInfo &&& htCapSupWidth = 0 then (b.count .ht20mhz psta true).1 else b
  else (b.count .noHt psta true).1

/-- `bss_cap_update_on_sta_join`. -/
def Bss.capUpdateOnStaJoin (b : Bss) (psta : StaId) (s : StaCapab) : Bss :=
  let r₁ := b.count .noShortPreamble psta (!s.shortPreamble)
  let r₂ := r₁.1.countNonErp psta s.nonErp
  let r₃ := r₂.1.count .noShortSlotTime psta (!s.shortSlot)
  let b₄ := r₃.1.countHt psta s
  let changed := b₄.htOperationUpdate.2 > 0
  let b₅ := b₄.updateHtOperation
  let beaconUpdated := (b.curWirelessMode > wireless11b ∧ (r₁.2 ∨ r₃.2)) ∨ r₂.2 ∨ changed
  if beaconUpdated then b₅.updateBeacon .any else b₅

/-- `bss_cap_update_on_sta_leave`; the bit of the TIM is not part of this. -/
def Bss.capUpdateOnStaLeave (b : Bss) (psta : StaId) : Bss :=
  let r₁ := b.count .noShortPreamble psta false
  let r₂ := r₁.1.countNonErp psta false
  let r₃ := r₂.1.count .noShortSlotTime psta false
  let b₄ := (r₃.1.count .htNoGf psta false).1
  let b₄ := (b₄.count .noHt psta false).1
  let b₄ := (b₄.count .ht20mhz psta false).1
  let b₅ := b₄.updateHtOperation
  let beaconUpdated := (b.curWirelessMode > wireless11b ∧ (r₁.2 ∨ r₃.2)) ∨ r₂.2
  if beaconUpdated then b₅.updateBeacon .any else b₅

/-! ## 4. Coexistence frames and scans -/

/-- What `rtw_process_public_act_bsscoex` reads of a 20/40 coexistence frame. -/
structure BssCoex where
  addr2 : MacAddr
  /-- A `frame_body` that is not empty, with `EID_BSSCoexistence` and a length above 0. -/
  coexIe : Option (BitVec 8)
  /-- A `frame_body` longer than 8 with `EID_BSSIntolerantChlReport` and a length above 0. -/
  chlReport : Bool
deriving Repr

/-- `RTW_WLAN_20_40_BSS_COEX_40MHZ_INTOL`. -/
def coex40mhzIntol : BitVec 8 := 0x02

/-- `RTW_WLAN_20_40_BSS_COEX_20MHZ_WIDTH_REQ`. -/
def coex20mhzWidthReq : BitVec 8 := 0x04

/-- `rtw_process_public_act_bsscoex`, for the station the frame came from. -/
def Bss.processBsscoex (b : Bss) (psta : StaId) (f : BssCoex) : Bss :=
  let r := match f.coexIe with
    | none => (b, false)
    | some ieData =>
      if ieData &&& coex40mhzIntol ≠ 0 then
        ({ b with caps := b.caps.write .intol40mhz psta true },
          !b.caps.flag .intol40mhz psta)
      else if ieData &&& coex20mhzWidthReq ≠ 0 then
        ({ b with ht20mhzWidthReq := true }, !b.ht20mhzWidthReq)
      else (b, false)
  let r' := if f.chlReport then
      ({ r.1 with htIntolerantChReported := true }, r.2 || !r.1.htIntolerantChReported)
    else r
  if r'.2 then r'.1.updateBeacon .htAddInfo else r'.1

/-- `rtw_ap_check_scan`; `legacySeen` is whether a fresh scan result has no HT element. -/
def Bss.apCheckScan (b : Bss) (legacySeen : Bool) : Bss :=
  { b with
    olbc := b.olbc || legacySeen
    olbcHt := b.olbcHt || legacySeen
    caps := b.caps.reset .noHt }

/-- A BSS with an ERP element and an HT operation element, and no stations. -/
def Bss.fresh : Bss where
  caps := Flags.empty
  bstartBss := true
  curWirelessMode := 11
  curChannel := 6
  curBw40 := false
  offsetLower := false
  olbc := false
  olbcHt := false
  htOption := true
  apHtCapInfo := 0x002c
  htOpMode := 0
  ht20mhzWidthReq := false
  htIntolerantChReported := false
  swTo20mhz := false
  erpEnable := true
  htInfoEnable := true
  erpIe := some 0
  htInfoIe := some ⟨0, 0⟩
  updateBcn := false

/-! ## 5. Only flags and counters -/

section Caps

variable (b : Bss) (psta : StaId)

@[simp] theorem updateBeacon_caps (ieId : BcnIe) : (b.updateBeacon ieId).caps = b.caps := by
  unfold Bss.updateBeacon
  split
  · rfl
  · cases ieId
    · show b.updateBcnErpinfoIe.caps = b.caps
      unfold Bss.updateBcnErpinfoIe
      repeat' split
      all_goals rfl
    · rfl
    · show b.updateBcnHtinfoIe.caps = b.caps
      unfold Bss.updateBcnHtinfoIe
      split
      · rfl
      split
      · rfl
      split
      · rfl
      dsimp only
      repeat' split
      all_goals rfl
    · rfl

@[simp] theorem followBit_caps (m : BitVec 16) (on : Bool) :
    (b.followBit m on).1.caps = b.caps := by
  unfold Bss.followBit
  repeat' split
  all_goals rfl

@[simp] theorem updateHtOperation_caps : b.updateHtOperation.caps = b.caps := by
  have hop : b.htOperationUpdate.1.caps = b.caps := by
    unfold Bss.htOperationUpdate
    split
    · rfl
    · dsimp only
      split <;> simp only [followBit_caps]
  unfold Bss.updateHtOperation
  dsimp only
  split
  · rw [updateBeacon_caps, updateBeacon_caps, hop]
  · exact hop

@[simp] theorem count_caps (k : CapKind) (on : Bool) :
    (b.count k psta on).1.caps = b.caps.write k psta on := by
  unfold Bss.count
  split
  · rename_i h
    rw [write_same h]
  · rfl

@[simp] theorem countNonErp_caps (on : Bool) :
    (b.countNonErp psta on).1.caps = b.caps.write .nonErp psta on := by
  unfold Bss.countNonErp
  dsimp only
  split
  · rw [updateBeacon_caps, count_caps]
  · exact count_caps b psta .nonErp on

/-- The flags and counters after a leave: six writes. -/
theorem capUpdateOnStaLeave_caps :
    (b.capUpdateOnStaLeave psta).caps =
      (((((b.caps.write .noShortPreamble psta false).write .nonErp psta false).write
        .noShortSlotTime psta false).write .htNoGf psta false).write .noHt psta false).write
        .ht20mhz psta false := by
  unfold Bss.capUpdateOnStaLeave
  dsimp only
  split <;> simp only [updateBeacon_caps, updateHtOperation_caps, count_caps, countNonErp_caps]

/-- **A station that leaves keeps one flag**, the one of 40 MHz intolerance. -/
theorem capUpdateOnStaLeave_flag {k : CapKind}
    (h : (b.capUpdateOnStaLeave psta).caps.flag k psta = true) :
    k = .intol40mhz ∧ b.caps.flag k psta = true := by
  rw [capUpdateOnStaLeave_caps] at h
  cases k with
  | intol40mhz =>
    refine ⟨rfl, ?_⟩
    rwa [write_flag_ne false (Or.inl (by decide)), write_flag_ne false (Or.inl (by decide)),
      write_flag_ne false (Or.inl (by decide)), write_flag_ne false (Or.inl (by decide)),
      write_flag_ne false (Or.inl (by decide)), write_flag_ne false (Or.inl (by decide))] at h
  | ht20mhz => rw [write_flag_self] at h; cases h
  | noHt =>
    rw [write_flag_ne false (Or.inl (by decide)), write_flag_self] at h
    cases h
  | htNoGf =>
    rw [write_flag_ne false (Or.inl (by decide)), write_flag_ne false (Or.inl (by decide)),
      write_flag_self] at h
    cases h
  | noShortSlotTime =>
    rw [write_flag_ne false (Or.inl (by decide)), write_flag_ne false (Or.inl (by decide)),
      write_flag_ne false (Or.inl (by decide)), write_flag_self] at h
    cases h
  | nonErp =>
    rw [write_flag_ne false (Or.inl (by decide)), write_flag_ne false (Or.inl (by decide)),
      write_flag_ne false (Or.inl (by decide)), write_flag_ne false (Or.inl (by decide)),
      write_flag_self] at h
    cases h
  | noShortPreamble =>
    rw [write_flag_ne false (Or.inl (by decide)), write_flag_ne false (Or.inl (by decide)),
      write_flag_ne false (Or.inl (by decide)), write_flag_ne false (Or.inl (by decide)),
      write_flag_ne false (Or.inl (by decide)), write_flag_self] at h
    cases h

end Caps

end Rtl8723bs
