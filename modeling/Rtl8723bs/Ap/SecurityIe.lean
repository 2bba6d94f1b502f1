/-
# What an association request says of protection

`OnAssocReq` has the elements of a request looked up, and `rtw_ap_parse_sta_security_ie` then
decides from the RSN, the WPA and the WPS element whether the station is let in: with WPA2 enabled
the RSN element counts, else with WPA enabled the WPA element, and a request with neither is taken
for one of a station that is about to use WPS.  Whether WPS is going on is asked only of a beacon
with a WPS element.

`Negotiates` says what it is to ask for the protection of the BSS; `protected_iff` is the
comparison, for every request. -/
import Mathlib.Tactic.SplitIfs
import Rtl8723bs.AttrSearch

namespace Rtl8723bs

/-! ## 1. The elements of a request -/

/-- The elements of `left` bytes at `pos`, each the place and the length of its data, where they
fill the bytes; a round takes two bytes or more. -/
def ieListFrom (m : Mem) : Nat → Nat → Nat → Option (List (Nat × Nat))
  | 0, _, left => if left = 0 then some [] else none
  | n + 1, pos, left =>
    if left < 2 then if left = 0 then some [] else none
    else
      let elen := (m (pos + 1)).toNat
      if left - 2 < elen then none
      else (ieListFrom m n (pos + 2 + elen) (left - 2 - elen)).map ((pos + 2, elen) :: ·)

def ieList (m : Mem) (pos left : Nat) : Option (List (Nat × Nat)) := ieListFrom m left pos left

/-- The places in `struct rtw_ieee802_11_elems` that are looked at here. -/
structure Elems where
  rsnIe : Option (Nat × Nat) := none
  wpaIe : Option (Nat × Nat) := none
  wpsIe : Option (Nat × Nat) := none

/-- `WLAN_EID_RSN`. -/
def wlanEidRsn : UInt8 := 48

/-- `OUI_MICROSOFT`. -/
def ouiMicrosoft : List UInt8 := [0x00, 0x50, 0xF2]

/-- `OUI_BROADCOM`. -/
def ouiBroadcom : List UInt8 := [0x00, 0x90, 0x4C]

/-- `rtw_ieee802_11_parse_vendor_specific`. -/
def parseVendorSpecific (m : Mem) (pos elen : Nat) (elems : Elems) : Elems :=
  if elen < 4 then elems
  else if readBytes m pos 3 = ouiMicrosoft then
    if m (pos + 3) = 1 then { elems with wpaIe := some (pos, elen) }
    else if m (pos + 3) = 4 then { elems with wpsIe := some (pos, elen) }
    else elems
  else elems

/-- What is read of a vendor element; the WME types of Microsoft have a subtype. -/
def vendorReads (m : Mem) (pos elen : Nat) : List (Nat × Nat) :=
  if elen < 4 then []
  else if readBytes m pos 3 = ouiMicrosoft then
    (pos, 3) :: (pos + 3, 1) :: if m (pos + 3) = 2 ∧ 5 ≤ elen then [(pos + 4, 1)] else []
  else if readBytes m pos 3 = ouiBroadcom then [(pos, 3), (pos + 3, 1)]
  else [(pos, 3)]

/-- One round of `rtw_ieee802_11_parse_elems`, with the data of the element at `e`. -/
def parseElem (m : Mem) (elems : Elems) (e : Nat × Nat) : Elems :=
  if m (e.1 - 2) = wlanEidRsn then { elems with rsnIe := some e }
  else if m (e.1 - 2) = wlanEidVendorSpecific then parseVendorSpecific m e.1 e.2 elems
  else elems

/-- What such a round reads. -/
def elemReads (m : Mem) (e : Nat × Nat) : List (Nat × Nat) :=
  (e.1 - 2, 2) :: if m (e.1 - 2) = wlanEidVendorSpecific then vendorReads m e.1 e.2 else []

/-- `rtw_ieee802_11_parse_elems`; `none` is `ParseFailed`. -/
def parseElems (m : Mem) (start len : Nat) : Option Elems :=
  (ieList m start len).map fun es => es.foldl (parseElem m) {}

/-! ## 2. Cipher suites -/

/-- `WPA_CIPHER_NONE` and so on: the suite with the last byte given. -/
def cipherBit (last : UInt8) : Nat :=
  if last = 0 then 1 else if last = 1 then 2 else if last = 2 then 8
  else if last = 4 then 16 else if last = 5 then 4 else 0

/-- `rtw_get_wpa_cipher_suite`. -/
def rtwGetWpaCipherSuite (m : Mem) (s : Nat) : Nat :=
  if readBytes m s 3 = [0x00, 0x50, 0xF2] then cipherBit (m (s + 3)) else 0

/-- `rtw_get_wpa2_cipher_suite`. -/
def rtwGetWpa2CipherSuite (m : Mem) (s : Nat) : Nat :=
  if readBytes m s 3 = [0x00, 0x0F, 0xAC] then cipherBit (m (s + 3)) else 0

/-- The group suite and the list of pairwise suites in the `left` bytes at `pos`, where the two
parsers go on alike: the ciphers, or `none` for `_FAIL`. -/
def parseSuites (suite : Mem → Nat → Nat) (m : Mem) (pos : Nat) (left : Int) :
    Option (Nat × Nat) :=
  if 0 < left ∧ left < 4 then none
  else
    let group := if 4 ≤ left then suite m pos else 0
    let pos := if 4 ≤ left then pos + 4 else pos
    let left := if 4 ≤ left then left - 4 else left
    if 2 ≤ left then
      let count := le16 m pos
      if count = 0 ∨ left - 2 < count * 4 then none
      else
        some (group, (List.range count).foldl (fun c i => c ||| suite m (pos + 2 + 4 * i)) 0)
    else if left = 1 then none
    else some (group, 0)

/-- What is read of the suites. -/
def suiteReads (m : Mem) (pos : Nat) (left : Int) : List (Nat × Nat) :=
  if left < 4 then []
  else (pos, 4) :: if left < 6 then [] else (pos + 4, 2) ::
    if left - 6 < le16 m (pos + 4) * 4 then [] else
      (List.range (le16 m (pos + 4))).map fun i => (pos + 6 + 4 * i, 4)

/-- `rtw_parse_wpa_ie`. -/
def rtwParseWpaIe (m : Mem) (wpaIe wpaIeLen : Nat) : Option (Nat × Nat) :=
  if m wpaIe ≠ wlanEidVendorSpecific ∨ (m (wpaIe + 1)).toNat ≠ (wpaIeLen - 2) % 256 ∨
      readBytes m (wpaIe + 2) 4 ≠ [0x00, 0x50, 0xF2, 1] then none
  else parseSuites rtwGetWpaCipherSuite m (wpaIe + 8) ((wpaIeLen : Int) - 8)

/-- `rtw_parse_wpa2_ie`. -/
def rtwParseWpa2Ie (m : Mem) (rsnIe rsnIeLen : Nat) : Option (Nat × Nat) :=
  if m rsnIe ≠ wlanEidRsn ∨ (m (rsnIe + 1)).toNat ≠ (rsnIeLen - 2) % 256 then none
  else parseSuites rtwGetWpa2CipherSuite m (rsnIe + 4) ((rsnIeLen : Int) - 4)

/-! ## 3. `rtw_ap_parse_sta_security_ie` -/

/-- What is enabled, and the ciphers of the BSS, `securitypriv`. -/
structure ApSec where
  wpaPsk : Nat
  wpaGroupCipher : Nat
  wpa2GroupCipher : Nat
  wpaPairwiseCipher : Nat
  wpa2PairwiseCipher : Nat

/-- `MLME_IS_AP`, and `mlmepriv.wps_beacon_ie` with its length. -/
structure ApBeacon where
  mlmeIsAp : Bool
  mem : Mem
  wpsBeaconIe : Option (Nat × Nat)

/-- What is set of `struct sta_info`; of its flags `WLAN_STA_WPS` and `WLAN_STA_MAYBE_WPS`. -/
structure StaSec where
  dot8021xalg : Nat
  wpaPsk : Nat
  wpaGroupCipher : Nat
  wpa2GroupCipher : Nat
  wpaPairwiseCipher : Nat
  wpa2PairwiseCipher : Nat
  wps : Bool
  maybeWps : Bool
  wpaIe : List UInt8

/-- `sizeof(sta->wpa_ie)`. -/
def staWpaIeSz : Nat := 32

/-- The two tests of the ciphers that are left; the second overwrites the first. -/
def cipherStatus (group pairwise : Nat) : Nat :=
  if pairwise = 0 then wlanStatusPairwiseCipherNotValid
  else if group = 0 then wlanStatusGroupCipherNotValid
  else statsSuccessful

/-- The record as it is cleared at first. -/
def StaSec.clear (sta : StaSec) : StaSec where
  dot8021xalg := 0
  wpaPsk := 0
  wpaGroupCipher := 0
  wpa2GroupCipher := 0
  wpaPairwiseCipher := 0
  wpa2PairwiseCipher := 0
  wps := sta.wps
  maybeWps := sta.maybeWps
  wpaIe := List.replicate staWpaIeSz 0

/-- The element the function goes by, `wpa_ie`, with the answer so far and the record. -/
def chooseIe (sec : ApSec) (m : Mem) (elems : Elems) (sta : StaSec) :
    Option (Nat × Nat) × Nat × StaSec :=
  match if sec.wpaPsk.testBit 1 then elems.rsnIe else none with
  | some (ie, len) =>
    match rtwParseWpa2Ie m (ie - 2) (len + 2) with
    | none => (some (ie, len), wlanStatusInvalidIe, sta)
    | some (g, p) =>
      let g := g &&& sec.wpa2GroupCipher
      let p := p &&& sec.wpa2PairwiseCipher
      (some (ie, len), cipherStatus g p,
        { sta with dot8021xalg := 1, wpaPsk := 2, wpa2GroupCipher := g, wpa2PairwiseCipher := p })
  | none =>
    match if sec.wpaPsk.testBit 0 then elems.wpaIe else none with
    | some (ie, len) =>
      match rtwParseWpaIe m (ie - 2) (len + 2) with
      | none => (some (ie, len), wlanStatusInvalidIe, sta)
      | some (g, p) =>
        let g := g &&& sec.wpaGroupCipher
        let p := p &&& sec.wpaPairwiseCipher
        (some (ie, len), cipherStatus g p,
          { sta with dot8021xalg := 1, wpaPsk := 1, wpaGroupCipher := g, wpaPairwiseCipher := p })
    | none => (none, statsSuccessful, sta)

/-- `WPS_ATTR_SELECTED_REGISTRAR`. -/
def wpsAttrSelectedRegistrar : Nat := 0x1041

/-- `rtw_get_wps_attr_content`: the place and the length of the content. -/
def rtwGetWpsAttrContent (m : Mem) (wpsIe wpsIelen targetAttrId : Nat) :
    Option (Option (Nat × Nat)) := do
  match ← rtwGetWpsAttr m wpsIe wpsIelen targetAttrId with
  | none => return none
  | some (attrPtr, attrLen) =>
    if attrLen = 0 then return none
    else return some (attrPtr + 4, (attrLen + 2 ^ 32 - 4) % 2 ^ 32)

/-- `selected_registrar`: the first byte of the content, and 0 without one. -/
def selectedRegistrar (m : Mem) (wpsIe wpsIelen : Nat) : Option UInt8 :=
  (rtwGetWpsAttrContent m wpsIe wpsIelen wpsAttrSelectedRegistrar).map fun r =>
    match r with
    | some (p, len) => if len = 0 then 0 else m p
    | none => 0

/-- `rtw_ap_parse_sta_security_ie`: the answer and the record; `none` where the search in the
beacon's WPS element never ends. -/
def rtwApParseStaSecurityIe (sec : ApSec) (bcn : ApBeacon) (m : Mem) (elems : Elems)
    (sta : StaSec) : Option (Nat × StaSec) :=
  match chooseIe sec m elems sta.clear with
  | (wpaIe, status, sta) =>
    if status ≠ statsSuccessful then some (status, sta)
    else if bcn.mlmeIsAp = false then some (status, sta)
    else
      match wpaIe with
      | none =>
        let sta := { sta with wps := elems.wpsIe.isSome, maybeWps := elems.wpsIe.isNone }
        if 0 < sec.wpaPsk ∧ (sta.wps ∨ sta.maybeWps) then
          match bcn.wpsBeaconIe with
          | none => some (status, sta)
          | some (ie, len) =>
            (selectedRegistrar bcn.mem ie len).map fun sel =>
              (if sel = 0 then statsUnableHandleSta else status, sta)
        else some (status, sta)
      | some (ie, len) =>
        let sta := { sta with wps := false, maybeWps := false }
        if sec.wpaPsk = 0 then some (wlanStatusInvalidIe, sta)
        else if elems.wpsIe.isSome then some (status, { sta with wps := true })
        else
          let copyLen := min (len + 2) staWpaIeSz
          some (status, { sta with
            wpaIe := readBytes m (ie - 2) copyLen ++ List.replicate (staWpaIeSz - copyLen) 0 })

/-- What the function reads of the request. -/
def securityReads (sec : ApSec) (m : Mem) (elems : Elems) : List (Nat × Nat) :=
  match if sec.wpaPsk.testBit 1 then elems.rsnIe else none with
  | some (ie, len) => (ie - 2, 2) :: suiteReads m (ie + 2) ((len : Int) - 2) ++
      [(ie - 2, min (len + 2) staWpaIeSz)]
  | none =>
    match if sec.wpaPsk.testBit 0 then elems.wpaIe else none with
    | some (ie, len) => (ie - 2, 6) :: suiteReads m (ie + 6) ((len : Int) - 6) ++
        [(ie - 2, min (len + 2) staWpaIeSz)]
    | none => []

/-! ## 4. What it is to ask for protection -/

/-- An RSN element. -/
def isRsnIe (m : Mem) (e : Nat × Nat) : Bool := m (e.1 - 2) = wlanEidRsn

/-- A vendor element with an OUI of four bytes. -/
def isVendorIe (oui : List UInt8) (m : Mem) (e : Nat × Nat) : Bool :=
  m (e.1 - 2) = wlanEidVendorSpecific ∧ 4 ≤ e.2 ∧ readBytes m e.1 4 = oui

/-- `RTW_WPA_OUI_TYPE`. -/
def wpaOui : List UInt8 := [0x00, 0x50, 0xF2, 0x01]

/-- The element that counts: the last RSN element with WPA2 enabled, else the last WPA element with
WPA enabled. -/
def countedIe (sec : ApSec) (m : Mem) (es : List (Nat × Nat)) : Option (Nat × Nat) :=
  (if sec.wpaPsk.testBit 1 then es.reverse.find? (isRsnIe m) else none).or
    (if sec.wpaPsk.testBit 0 then es.reverse.find? (isVendorIe wpaOui m) else none)

/-- A group suite and a list of pairwise suites lie in the `left` bytes at `pos`, with a group
cipher and a pairwise cipher that are allowed. -/
structure OffersSuites (suite : Mem → Nat → Nat) (m : Mem) (pos : Nat) (left : Int)
    (group pairwise : Nat) : Prop where
  list : (6 + 4 * le16 m (pos + 4) : Nat) ≤ left
  group : suite m pos &&& group ≠ 0
  pairwise : ∃ i < le16 m (pos + 4), suite m (pos + 6 + 4 * i) &&& pairwise ≠ 0

/-- The element is one that is enabled, and it asks for ciphers the BSS allows. -/
def Offers (sec : ApSec) (m : Mem) (e : Nat × Nat) : Prop :=
  (sec.wpaPsk.testBit 1 ∧ isRsnIe m e ∧ OffersSuites rtwGetWpa2CipherSuite m (e.1 + 2)
    ((e.2 : Int) - 2) sec.wpa2GroupCipher sec.wpa2PairwiseCipher) ∨
  (sec.wpaPsk.testBit 0 ∧ isVendorIe wpaOui m e ∧ OffersSuites rtwGetWpaCipherSuite m (e.1 + 6)
    ((e.2 : Int) - 6) sec.wpaGroupCipher sec.wpaPairwiseCipher)

/-- **The request asks for the protection of the BSS.** -/
def Negotiates (sec : ApSec) (m : Mem) (es : List (Nat × Nat)) : Prop :=
  ∃ e, countedIe sec m es = some e ∧ Offers sec m e

/-- The beacon has a WPS element whose Selected Registrar is not 0. -/
def ApBeacon.WpsInProgress (bcn : ApBeacon) : Prop :=
  ∃ ie, bcn.wpsBeaconIe = some ie ∧ ∃ sel, selectedRegistrar bcn.mem ie.1 ie.2 = some sel ∧ sel ≠ 0

/-- No WPS element. -/
def NoWps (m : Mem) (es : List (Nat × Nat)) : Prop := ∀ e ∈ es, isVendorIe wpsOui m e = false

/-- The record holds the element `e`, and zeros behind it. -/
def StaSec.Holds (sta : StaSec) (m : Mem) (e : Nat × Nat) : Prop :=
  sta.wpaIe = readBytes m (e.1 - 2) (e.2 + 2) ++ List.replicate (staWpaIeSz - (e.2 + 2)) 0

/-- **What is asked of the function** for a request with the elements `es`: who is let in has asked
for the protection or comes while WPS is going on, `dot8021xalg` tells the two apart, the record
holds the element that was asked with, and what is read lies in an element. -/
structure Protects (sec : ApSec) (bcn : ApBeacon) (m : Mem) (es : List (Nat × Nat))
    (sta : StaSec) : Prop where
  admitted : ∀ r, rtwApParseStaSecurityIe sec bcn m (es.foldl (parseElem m) {}) sta
    = some (statsSuccessful, r) → Negotiates sec m es ∨ bcn.WpsInProgress
  alg : ∀ r, rtwApParseStaSecurityIe sec bcn m (es.foldl (parseElem m) {}) sta
    = some (statsSuccessful, r) → (r.dot8021xalg ≠ 0 ↔ Negotiates sec m es)
  kept : ∀ r, rtwApParseStaSecurityIe sec bcn m (es.foldl (parseElem m) {}) sta
    = some (statsSuccessful, r) → NoWps m es →
      ∀ e, countedIe sec m es = some e → e.2 + 2 ≤ staWpaIeSz → r.Holds m e
  reads : ∀ r ∈ es.flatMap (elemReads m) ++ securityReads sec m (es.foldl (parseElem m) {}),
    ∃ e ∈ es, e.1 - 2 ≤ r.1 ∧ r.1 + r.2 ≤ e.1 + e.2

/-- **The requests and states the code gets right.**  Without an element that counts, the beacon
must have a WPS element for the test to be made at all; the flag that says the interface is an
access point must be set, or the test and the copy are left out. -/
def ChecksMade (sec : ApSec) (bcn : ApBeacon) (m : Mem) (es : List (Nat × Nat)) : Prop :=
  match countedIe sec m es with
  | none => if bcn.mlmeIsAp = true then bcn.wpsBeaconIe.isSome = true else bcn.WpsInProgress
  | some e => bcn.mlmeIsAp ∨ ¬ (Offers sec m e ∧ e.2 + 2 ≤ staWpaIeSz ∧ NoWps m es)

/-! ## 5. The elements found -/

section Elements

variable {m : Mem} {es : List (Nat × Nat)} {e : Nat × Nat}

/-- An element lies in the request, behind its two bytes of header. -/
theorem mem_ieListFrom : ∀ {n pos left : Nat} {es : List (Nat × Nat)},
    ieListFrom m n pos left = some es → e ∈ es →
      pos + 2 ≤ e.1 ∧ e.1 + e.2 ≤ pos + left ∧ e.2 = (m (e.1 - 1)).toNat := by
  intro n
  induction n with
  | zero =>
    intro pos left es h he
    unfold ieListFrom at h
    split_ifs at h
    cases h
    exact absurd he List.not_mem_nil
  | succ n ih =>
    intro pos left es h he
    unfold ieListFrom at h
    dsimp only at h
    split_ifs at h with hshort hzero hlong
    · cases h
      exact absurd he List.not_mem_nil
    · obtain ⟨rest, hrest, rfl⟩ := Option.map_eq_some_iff.mp h
      rcases List.mem_cons.mp he with rfl | he
      · exact ⟨Nat.le_refl _, by dsimp only; omega, rfl⟩
      · obtain ⟨hle, hend, hlen⟩ := ih hrest he
        exact ⟨by omega, by omega, hlen⟩

/-- Each round notes the element of its round where it is of the kind, so the last one is kept. -/
theorem foldl_parseElem {get : Elems → Option (Nat × Nat)} {is : Nat × Nat → Bool}
    (h : ∀ x e, get (parseElem m x e) = if is e then some e else get x) (x : Elems) :
    get (es.foldl (parseElem m) x) = (es.reverse.find? is).or (get x) := by
  induction es generalizing x with
  | nil => rfl
  | cons e es ih =>
    rw [List.foldl_cons, ih, h, List.reverse_cons, List.find?_append, List.find?_cons,
      List.find?_nil]
    cases es.reverse.find? is <;> cases is e <;> rfl

theorem parseElem_rsnIe (x : Elems) (e : Nat × Nat) :
    (parseElem m x e).rsnIe = if isRsnIe m e then some e else x.rsnIe := by
  unfold parseElem parseVendorSpecific isRsnIe
  simp only [decide_eq_true_eq]
  split_ifs <;> rfl

/-- Four bytes are three and one more. -/
theorem readBytes_four {p : Nat} {a b c d : UInt8} :
    readBytes m p 4 = [a, b, c, d] ↔ readBytes m p 3 = [a, b, c] ∧ m (p + 3) = d := by
  simp [readBytes, and_assoc]

/-- A vendor element of Microsoft's, by its type. -/
theorem isVendorIe_microsoft {d : UInt8} : isVendorIe [0x00, 0x50, 0xF2, d] m e = true ↔
    m (e.1 - 2) = wlanEidVendorSpecific ∧ ¬ e.2 < 4 ∧ readBytes m e.1 3 = ouiMicrosoft ∧
      m (e.1 + 3) = d := by
  unfold isVendorIe ouiMicrosoft
  rw [decide_eq_true_eq, readBytes_four, Nat.not_lt]

theorem parseElem_wpaIe (x : Elems) (e : Nat × Nat) :
    (parseElem m x e).wpaIe = if isVendorIe wpaOui m e then some e else x.wpaIe := by
  have hrsn : wlanEidVendorSpecific ≠ wlanEidRsn := by decide
  unfold parseElem parseVendorSpecific wpaOui
  simp only [isVendorIe_microsoft]
  split_ifs <;> simp_all

theorem parseElem_wpsIe (x : Elems) (e : Nat × Nat) :
    (parseElem m x e).wpsIe = if isVendorIe wpsOui m e then some e else x.wpsIe := by
  have hrsn : wlanEidVendorSpecific ≠ wlanEidRsn := by decide
  unfold parseElem parseVendorSpecific wpsOui
  simp only [isVendorIe_microsoft]
  split_ifs <;> simp_all

end Elements

/-! ## 6. Suites -/

section Suites

variable {suite : Mem → Nat → Nat} {m : Mem} {pos G P : Nat} {left : Int}

/-- The suites of a list, taken together, have a cipher in common with a mask if one of them has. -/
theorem foldl_or_and_ne_zero (f : Nat → Nat) (mask : Nat) : ∀ (n : Nat),
    (List.range n).foldl (fun c i => c ||| f i) 0 &&& mask ≠ 0 ↔ ∃ i < n, f i &&& mask ≠ 0 := by
  intro n
  induction n with
  | zero => simp
  | succ n ih =>
    rw [List.range_succ, List.foldl_append, List.foldl_cons, List.foldl_nil,
      Nat.and_or_distrib_right, ne_eq, Nat.or_eq_zero_iff, not_and_or, ← ne_eq, ← ne_eq, ih]
    constructor
    · rintro (⟨i, hi, h⟩ | h)
      · exact ⟨i, by omega, h⟩
      · exact ⟨n, by omega, h⟩
    · rintro ⟨i, hi, h⟩
      rcases Nat.lt_succ_iff_lt_or_eq.mp hi with hlt | rfl
      · exact .inl ⟨i, hlt, h⟩
      · exact .inr h

/-- **What the parsers let through** with ciphers that are allowed is a group suite and a list of
pairwise suites with such ciphers. -/
theorem parseSuites_iff : (∃ g p, parseSuites suite m pos left = some (g, p) ∧ g &&& G ≠ 0 ∧
    p &&& P ≠ 0) ↔ OffersSuites suite m pos left G P := by
  constructor
  · rintro ⟨g, p, h, hg, hp⟩
    unfold parseSuites at h
    dsimp only at h
    split_ifs at h with hcut h4 h6 hcount h1 h6' hcount' h1'
    · simp only [Option.some.injEq, Prod.mk.injEq] at h
      obtain ⟨rfl, rfl⟩ := h
      have hlist := (foldl_or_and_ne_zero (fun i => suite m (pos + 4 + 2 + 4 * i)) P _).mp hp
      refine ⟨?_, hg, hlist⟩
      push Not at hcount
      omega
    · simp only [Option.some.injEq, Prod.mk.injEq] at h
      simp [← h.2] at hp
    · simp only [Option.some.injEq, Prod.mk.injEq] at h
      simp [← h.1] at hg
    · simp only [Option.some.injEq, Prod.mk.injEq] at h
      simp [← h.1] at hg
  · rintro ⟨hlist, hgroup, i, hi, hpair⟩
    refine ⟨_, _, ?_, hgroup,
      (foldl_or_and_ne_zero (fun i => suite m (pos + 4 + 2 + 4 * i)) P _).mpr ⟨i, hi, hpair⟩⟩
    unfold parseSuites
    dsimp only
    rw [if_neg (by omega), if_pos (show 4 ≤ left by omega), if_pos (show 4 ≤ left by omega),
      if_pos (show 4 ≤ left by omega), if_pos (show 2 ≤ left - 4 by omega),
      if_neg (by push Not; exact ⟨by omega, by omega⟩)]

/-- What is read of the suites lies in the bytes given. -/
theorem mem_suiteReads {r : Nat × Nat} (h : r ∈ suiteReads m pos left) :
    pos ≤ r.1 ∧ ((r.1 + r.2 : Nat) : Int) ≤ pos + left := by
  unfold suiteReads at h
  split_ifs at h with h4 h6 hcount
  · exact absurd h List.not_mem_nil
  · obtain rfl := List.mem_singleton.mp h
    exact ⟨Nat.le_refl _, by dsimp only; omega⟩
  · simp only [List.mem_cons, List.not_mem_nil, or_false] at h
    rcases h with rfl | rfl
    · exact ⟨Nat.le_refl _, by dsimp only; omega⟩
    · exact ⟨by dsimp only; omega, by dsimp only; omega⟩
  · rcases List.mem_cons.mp h with rfl | h
    · exact ⟨Nat.le_refl _, by dsimp only; omega⟩
    · rcases List.mem_cons.mp h with rfl | h
      · exact ⟨by dsimp only; omega, by dsimp only; omega⟩
      · obtain ⟨i, hi, rfl⟩ := List.mem_map.mp h
        have hlt := List.mem_range.mp hi
        exact ⟨by dsimp only; omega, by dsimp only; omega⟩

end Suites

/-! ## 7. The decision -/

section Decision

variable {sec : ApSec} {bcn : ApBeacon} {m : Mem} {es : List (Nat × Nat)} {e : Nat × Nat}
  {sta : StaSec}

/-- The elements the function chooses from. -/
def noted (m : Mem) (es : List (Nat × Nat)) : Elems := es.foldl (parseElem m) {}

theorem noted_rsnIe : (noted m es).rsnIe = es.reverse.find? (isRsnIe m) := by
  rw [noted, foldl_parseElem parseElem_rsnIe, Option.or_none]

theorem noted_wpaIe : (noted m es).wpaIe = es.reverse.find? (isVendorIe wpaOui m) := by
  rw [noted, foldl_parseElem parseElem_wpaIe, Option.or_none]

theorem noted_wpsIe : (noted m es).wpsIe = es.reverse.find? (isVendorIe wpsOui m) := by
  rw [noted, foldl_parseElem parseElem_wpsIe, Option.or_none]

theorem noWps_iff : NoWps m es ↔ (noted m es).wpsIe = none := by
  rw [noted_wpsIe, List.find?_eq_none]
  simp [NoWps]

/-- What counts is one of the elements, and of a kind that is enabled. -/
theorem countedIe_mem (h : countedIe sec m es = some e) : e ∈ es ∧
    (sec.wpaPsk.testBit 1 = true ∧ isRsnIe m e = true ∨
      sec.wpaPsk.testBit 0 = true ∧ isVendorIe wpaOui m e = true) := by
  unfold countedIe at h
  rcases Option.or_eq_some_iff.mp h with h | ⟨-, h⟩
  · split_ifs at h with hpsk
    exact ⟨List.mem_reverse.mp (List.mem_of_find?_eq_some h), .inl ⟨hpsk, List.find?_some h⟩⟩
  · split_ifs at h with hpsk
    exact ⟨List.mem_reverse.mp (List.mem_of_find?_eq_some h), .inr ⟨hpsk, List.find?_some h⟩⟩

theorem cipherStatus_eq_zero {g p : Nat} : cipherStatus g p = statsSuccessful ↔ g ≠ 0 ∧ p ≠ 0 := by
  unfold cipherStatus wlanStatusPairwiseCipherNotValid wlanStatusGroupCipherNotValid statsSuccessful
  split_ifs <;> simp_all

/-- An RSN element is not a vendor element. -/
theorem isVendorIe_of_isRsnIe {oui : List UInt8} (h : isRsnIe m e = true) :
    isVendorIe oui m e = false := by
  have hid : m (e.1 - 2) = wlanEidRsn := of_decide_eq_true h
  have hne : wlanEidRsn ≠ wlanEidVendorSpecific := by decide
  simp [isVendorIe, hid, hne]

/-- The test of an RSN element's header says nothing new. -/
theorem rtwParseWpa2Ie_eq (hrsn : isRsnIe m e = true) (h2 : 2 ≤ e.1)
    (hlen : e.2 = (m (e.1 - 1)).toNat) : rtwParseWpa2Ie m (e.1 - 2) (e.2 + 2)
      = parseSuites rtwGetWpa2CipherSuite m (e.1 + 2) ((e.2 : Int) - 2) := by
  have hid : m (e.1 - 2) = wlanEidRsn := of_decide_eq_true hrsn
  have hbyte : (m (e.1 - 2 + 1)).toNat = (e.2 + 2 - 2) % 256 := by
    rw [show e.1 - 2 + 1 = e.1 - 1 by omega, Nat.add_sub_cancel, ← hlen,
      Nat.mod_eq_of_lt (hlen ▸ UInt8.toNat_lt _)]
  unfold rtwParseWpa2Ie
  rw [if_neg (by rintro (h | h) <;> contradiction), show e.1 - 2 + 4 = e.1 + 2 by omega]
  congr 1
  omega

/-- Nor does that of a WPA element's header. -/
theorem rtwParseWpaIe_eq (hwpa : isVendorIe wpaOui m e = true) (h2 : 2 ≤ e.1)
    (hlen : e.2 = (m (e.1 - 1)).toNat) : rtwParseWpaIe m (e.1 - 2) (e.2 + 2)
      = parseSuites rtwGetWpaCipherSuite m (e.1 + 6) ((e.2 : Int) - 6) := by
  obtain ⟨hid, -, houi⟩ := of_decide_eq_true hwpa
  have hbyte : (m (e.1 - 2 + 1)).toNat = (e.2 + 2 - 2) % 256 := by
    rw [show e.1 - 2 + 1 = e.1 - 1 by omega, Nat.add_sub_cancel, ← hlen,
      Nat.mod_eq_of_lt (hlen ▸ UInt8.toNat_lt _)]
  have hsel : readBytes m (e.1 - 2 + 2) 4 = [0x00, 0x50, 0xF2, 1] := by
    rw [show e.1 - 2 + 2 = e.1 by omega]
    exact houi
  unfold rtwParseWpaIe
  rw [if_neg (by rintro (h | h | h) <;> contradiction), show e.1 - 2 + 8 = e.1 + 6 by omega]
  congr 1
  omega

theorem offers_rsn (hpsk : sec.wpaPsk.testBit 1 = true) (hrsn : isRsnIe m e = true) :
    Offers sec m e ↔ OffersSuites rtwGetWpa2CipherSuite m (e.1 + 2) ((e.2 : Int) - 2)
      sec.wpa2GroupCipher sec.wpa2PairwiseCipher := by
  unfold Offers
  rw [isVendorIe_of_isRsnIe hrsn]
  simp [hpsk, hrsn]

theorem offers_wpa (hpsk : sec.wpaPsk.testBit 0 = true) (hwpa : isVendorIe wpaOui m e = true) :
    Offers sec m e ↔ OffersSuites rtwGetWpaCipherSuite m (e.1 + 6) ((e.2 : Int) - 6)
      sec.wpaGroupCipher sec.wpaPairwiseCipher := by
  have hrsn : isRsnIe m e = false := by
    cases h : isRsnIe m e with
    | false => rfl
    | true => rw [isVendorIe_of_isRsnIe h] at hwpa; exact absurd hwpa (by decide)
  unfold Offers
  simp [hpsk, hwpa, hrsn]

/-- Without an element that counts, nothing is decided. -/
theorem chooseIe_none (h : countedIe sec m es = none) :
    chooseIe sec m (noted m es) sta = (none, statsSuccessful, sta) := by
  obtain ⟨hrsn, hwpa⟩ := Option.or_eq_none_iff.mp h
  rw [← noted_rsnIe] at hrsn
  rw [← noted_wpaIe] at hwpa
  unfold chooseIe
  rw [hrsn, hwpa]

/-- **The element that counts** decides: the answer is that of success if it asks for what is
allowed, and then `dot8021xalg` is set. -/
theorem chooseIe_some (h : countedIe sec m es = some e) (h2 : 2 ≤ e.1)
    (hlen : e.2 = (m (e.1 - 1)).toNat) :
    ∃ status sta', chooseIe sec m (noted m es) sta = (some e, status, sta') ∧
      (status = statsSuccessful ↔ Offers sec m e) ∧ sta'.wpaIe = sta.wpaIe ∧
      (status = statsSuccessful → sta'.dot8021xalg = 1) := by
  have hinvalid : wlanStatusInvalidIe ≠ statsSuccessful := by decide
  unfold countedIe at h
  rw [← noted_rsnIe, ← noted_wpaIe] at h
  unfold chooseIe
  rcases Option.or_eq_some_iff.mp h with h | ⟨hnone, h⟩
  · rw [h]
    have hpsk : sec.wpaPsk.testBit 1 = true := by
      by_contra hno
      rw [if_neg hno] at h
      cases h
    rw [if_pos hpsk, noted_rsnIe] at h
    have hrsn := List.find?_some h
    dsimp only
    rw [rtwParseWpa2Ie_eq hrsn h2 hlen, offers_rsn hpsk hrsn, ← parseSuites_iff]
    cases hparse : parseSuites rtwGetWpa2CipherSuite m (e.1 + 2) ((e.2 : Int) - 2) with
    | none =>
      exact ⟨_, _, rfl, ⟨fun h => absurd h hinvalid, by simp⟩, rfl, fun h => absurd h hinvalid⟩
    | some gp =>
      refine ⟨_, _, rfl, ?_, rfl, fun _ => rfl⟩
      rw [cipherStatus_eq_zero]
      simp [Prod.ext_iff]
  · rw [hnone, h]
    have hpsk : sec.wpaPsk.testBit 0 = true := by
      by_contra hno
      rw [if_neg hno] at h
      cases h
    rw [if_pos hpsk, noted_wpaIe] at h
    have hwpa := List.find?_some h
    dsimp only
    rw [rtwParseWpaIe_eq hwpa h2 hlen, offers_wpa hpsk hwpa, ← parseSuites_iff]
    cases hparse : parseSuites rtwGetWpaCipherSuite m (e.1 + 6) ((e.2 : Int) - 6) with
    | none =>
      exact ⟨_, _, rfl, ⟨fun h => absurd h hinvalid, by simp⟩, rfl, fun h => absurd h hinvalid⟩
    | some gp =>
      refine ⟨_, _, rfl, ?_, rfl, fun _ => rfl⟩
      rw [cipherStatus_eq_zero]
      simp [Prod.ext_iff]

/-- Without an element that counts, a station is let in unless the beacon's WPS element says that no
registrar is selected, and is taken for one without protection. -/
theorem answers_none (hpsk : sec.wpaPsk ≠ 0) (h : countedIe sec m es = none) :
    ((∃ r, rtwApParseStaSecurityIe sec bcn m (noted m es) sta = some (statsSuccessful, r)) ↔
      bcn.mlmeIsAp = false ∨ bcn.wpsBeaconIe = none ∨ bcn.WpsInProgress) ∧
    ∀ status r, rtwApParseStaSecurityIe sec bcn m (noted m es) sta = some (status, r) →
      r.dot8021xalg = 0 := by
  have hunable : statsUnableHandleSta ≠ statsSuccessful := by decide
  have hpos : 0 < sec.wpaPsk := Nat.pos_of_ne_zero hpsk
  unfold rtwApParseStaSecurityIe
  rw [chooseIe_none h]
  dsimp only
  rw [if_neg (not_not.mpr rfl)]
  cases hap : bcn.mlmeIsAp with
  | false =>
    rw [if_pos rfl]
    exact ⟨⟨fun _ => .inl rfl, fun _ => ⟨_, rfl⟩⟩, fun _ _ hr => by cases hr; rfl⟩
  | true =>
    have hmaybe : (noted m es).wpsIe.isSome = true ∨ (noted m es).wpsIe.isNone = true := by
      cases (noted m es).wpsIe <;> simp
    rw [if_neg (by decide), if_pos ⟨hpos, hmaybe⟩]
    unfold ApBeacon.WpsInProgress
    cases hbcn : bcn.wpsBeaconIe with
    | none => exact ⟨⟨fun _ => .inr (.inl rfl), fun _ => ⟨_, rfl⟩⟩, fun _ _ hr => by cases hr; rfl⟩
    | some ie =>
      dsimp only
      cases hsel : selectedRegistrar bcn.mem ie.1 ie.2 with
      | none => simp [hsel]
      | some sel =>
        constructor
        · by_cases h0 : sel = 0 <;> simp [hsel, h0, hunable]
        · intro status r hr
          rw [Option.map_some, Option.some.injEq, Prod.mk.injEq] at hr
          rw [← hr.2]
          rfl

/-- **With an element that counts** a station is let in if it asks for what is allowed, and then
`dot8021xalg` is set and the element is kept, unless the interface is not flagged as an access
point. -/
theorem answers_some (hpsk : sec.wpaPsk ≠ 0) (h : countedIe sec m es = some e) (h2 : 2 ≤ e.1)
    (hlen : e.2 = (m (e.1 - 1)).toNat) :
    ((∃ r, rtwApParseStaSecurityIe sec bcn m (noted m es) sta = some (statsSuccessful, r)) ↔
      Offers sec m e) ∧
    ∀ r, rtwApParseStaSecurityIe sec bcn m (noted m es) sta = some (statsSuccessful, r) →
      r.dot8021xalg = 1 ∧
      (bcn.mlmeIsAp = false → r.wpaIe = List.replicate staWpaIeSz 0) ∧
      (bcn.mlmeIsAp = true → NoWps m es → r.wpaIe = readBytes m (e.1 - 2) (min (e.2 + 2) staWpaIeSz)
        ++ List.replicate (staWpaIeSz - min (e.2 + 2) staWpaIeSz) 0) := by
  obtain ⟨status, sta', hchoose, hoffers, hie, halg⟩ :=
    @chooseIe_some sec m es e sta.clear h h2 hlen
  unfold rtwApParseStaSecurityIe
  rw [hchoose, ← hoffers]
  dsimp only
  by_cases hst : status = statsSuccessful
  · rw [if_neg (not_not.mpr hst)]
    have halg := halg hst
    cases hap : bcn.mlmeIsAp with
    | false =>
      rw [if_pos rfl, hst]
      refine ⟨⟨fun _ => rfl, fun _ => ⟨_, rfl⟩⟩, fun r hr => ?_⟩
      cases hr
      exact ⟨halg, fun _ => hie, fun hno => by cases hno⟩
    | true =>
      rw [if_neg (by decide), if_neg hpsk, hst]
      cases hwps : (noted m es).wpsIe with
      | none =>
        rw [if_neg (by simp)]
        refine ⟨⟨fun _ => rfl, fun _ => ⟨_, rfl⟩⟩, fun r hr => ?_⟩
        cases hr
        exact ⟨halg, fun hno => (by cases hno), fun _ _ => rfl⟩
      | some w =>
        rw [if_pos (Option.isSome_some : (some w).isSome = true)]
        refine ⟨⟨fun _ => rfl, fun _ => ⟨_, rfl⟩⟩, fun r hr => ?_⟩
        cases hr
        refine ⟨halg, fun hno => (by cases hno), fun _ hno => ?_⟩
        rw [noWps_iff.mp hno] at hwps
        cases hwps
  · rw [if_pos hst]
    have hne : ∀ r, some (status, sta') ≠ some (statsSuccessful, r) := by
      intro r hr
      cases hr
      exact hst rfl
    exact ⟨⟨fun ⟨r, hr⟩ => absurd hr (hne r), fun hno => absurd hno hst⟩,
      fun r hr => absurd hr (hne r)⟩

end Decision

/-! ## 8. What is read -/

section Reads

variable {sec : ApSec} {m : Mem} {es : List (Nat × Nat)} {e r : Nat × Nat}

theorem mem_vendorReads (h : r ∈ vendorReads m e.1 e.2) : e.1 ≤ r.1 ∧ r.1 + r.2 ≤ e.1 + e.2 := by
  unfold vendorReads at h
  split_ifs at h with hshort hms hwme hbc
  · exact absurd h List.not_mem_nil
  all_goals
    simp only [List.mem_cons, List.not_mem_nil, or_false] at h
  · rcases h with rfl | rfl | rfl <;> exact ⟨by dsimp only; omega, by dsimp only; omega⟩
  · rcases h with rfl | rfl <;> exact ⟨by dsimp only; omega, by dsimp only; omega⟩
  · rcases h with rfl | rfl <;> exact ⟨by dsimp only; omega, by dsimp only; omega⟩
  · subst h
    exact ⟨Nat.le_refl _, by dsimp only; omega⟩

/-- What a round reads lies in its element. -/
theorem mem_elemReads (h2 : 2 ≤ e.1) (h : r ∈ elemReads m e) :
    e.1 - 2 ≤ r.1 ∧ r.1 + r.2 ≤ e.1 + e.2 := by
  rcases List.mem_cons.mp h with rfl | h
  · exact ⟨Nat.le_refl _, by dsimp only; omega⟩
  · split_ifs at h
    · obtain ⟨hle, hend⟩ := mem_vendorReads h
      exact ⟨by omega, hend⟩
    · exact absurd h List.not_mem_nil

/-- What the function reads lies in the element that counts. -/
theorem mem_securityReads (hin : ∀ e ∈ es, 2 ≤ e.1) (h : r ∈ securityReads sec m (noted m es)) :
    ∃ e ∈ es, e.1 - 2 ≤ r.1 ∧ r.1 + r.2 ≤ e.1 + e.2 := by
  unfold securityReads at h
  split at h
  · rename_i ie len hchoose
    split_ifs at hchoose
    rw [noted_rsnIe] at hchoose
    have hmem : (ie, len) ∈ es := List.mem_reverse.mp (List.mem_of_find?_eq_some hchoose)
    have h2 : 2 ≤ ie := hin _ hmem
    refine ⟨(ie, len), hmem, ?_⟩
    rw [List.mem_append, List.mem_cons, List.mem_singleton] at h
    rcases h with (rfl | h) | rfl
    · exact ⟨Nat.le_refl _, by dsimp only; omega⟩
    · obtain ⟨hle, hend⟩ := mem_suiteReads h
      exact ⟨by dsimp only; omega, by dsimp only; omega⟩
    · exact ⟨Nat.le_refl _, by dsimp only; omega⟩
  · split at h
    · rename_i ie len hchoose
      split_ifs at hchoose
      rw [noted_wpaIe] at hchoose
      have hmem : (ie, len) ∈ es := List.mem_reverse.mp (List.mem_of_find?_eq_some hchoose)
      have h2 : 2 ≤ ie := hin _ hmem
      have hwpa : isVendorIe wpaOui m (ie, len) = true := List.find?_some hchoose
      obtain ⟨-, h4, -⟩ := of_decide_eq_true hwpa
      have h4 : 4 ≤ len := h4
      refine ⟨(ie, len), hmem, ?_⟩
      rw [List.mem_append, List.mem_cons, List.mem_singleton] at h
      rcases h with (rfl | h) | rfl
      · exact ⟨Nat.le_refl _, by dsimp only; omega⟩
      · obtain ⟨hle, hend⟩ := mem_suiteReads h
        exact ⟨by dsimp only; omega, by dsimp only; omega⟩
      · exact ⟨Nat.le_refl _, by dsimp only; omega⟩
    · exact absurd h List.not_mem_nil

end Reads

/-! ## 9. The requests the code gets right -/

section Protected

variable {sec : ApSec} {bcn : ApBeacon} {m : Mem} {es : List (Nat × Nat)} {e : Nat × Nat}
  {sta : StaSec}

theorem readBytes_ne_zeros {p n k : Nat} (h : m p ≠ 0) :
    readBytes m p (n + 1) ++ List.replicate k 0 ≠ List.replicate staWpaIeSz 0 := by
  intro heq
  have hmem : m p ∈ List.replicate staWpaIeSz (0 : UInt8) := by
    rw [← heq, readBytes]
    exact List.mem_append_left _ List.mem_cons_self
  exact h (List.eq_of_mem_replicate hmem)

/-- An element that counts does not begin with 0. -/
theorem countedIe_head (h : countedIe sec m es = some e) : m (e.1 - 2) ≠ 0 := by
  rcases (countedIe_mem h).2 with ⟨-, hrsn⟩ | ⟨-, hwpa⟩
  · rw [show m (e.1 - 2) = wlanEidRsn from of_decide_eq_true hrsn]
    decide
  · rw [(of_decide_eq_true hwpa).1]
    decide

/-- **A protected BSS admits as it should exactly where the tests are made**: for every request of
which the elements are `es`, with WPA or WPA2 enabled. -/
theorem protected_iff {start len : Nat} (hpsk : sec.wpaPsk ≠ 0)
    (hes : ieList m start len = some es) : Protects sec bcn m es sta ↔ ChecksMade sec bcn m es := by
  have hin : ∀ e ∈ es, 2 ≤ e.1 ∧ e.2 = (m (e.1 - 1)).toNat := by
    intro e he
    obtain ⟨hle, -, hlen⟩ := mem_ieListFrom hes he
    exact ⟨by omega, hlen⟩
  have hreads : ∀ r ∈ es.flatMap (elemReads m) ++ securityReads sec m (noted m es),
      ∃ e ∈ es, e.1 - 2 ≤ r.1 ∧ r.1 + r.2 ≤ e.1 + e.2 := by
    intro r hr
    rcases List.mem_append.mp hr with hr | hr
    · obtain ⟨e, he, hr⟩ := List.mem_flatMap.mp hr
      exact ⟨e, he, mem_elemReads (hin e he).1 hr⟩
    · exact mem_securityReads (fun e he => (hin e he).1) hr
  unfold ChecksMade
  cases hcount : countedIe sec m es with
  | none =>
    have hno : ¬ Negotiates sec m es := by
      rintro ⟨e, he, -⟩
      rw [hcount] at he
      cases he
    obtain ⟨hanswers, halg⟩ := @answers_none sec bcn m es sta hpsk hcount
    dsimp only
    constructor
    · intro hprot
      have hwps : bcn.mlmeIsAp = false ∨ bcn.wpsBeaconIe = none → bcn.WpsInProgress := by
        intro hskip
        obtain ⟨r, hr⟩ := hanswers.mpr (hskip.imp_right .inl)
        exact (hprot.admitted r hr).resolve_left hno
      split_ifs with hap
      · cases hbcn : bcn.wpsBeaconIe with
        | none =>
          obtain ⟨ie, hie, -⟩ := hwps (.inr hbcn)
          rw [hbcn] at hie
          cases hie
        | some ie => rfl
      · exact hwps (.inl (Bool.eq_false_iff.mpr hap))
    · intro hguard
      have hwps : bcn.mlmeIsAp = false ∨ bcn.wpsBeaconIe = none → bcn.WpsInProgress := by
        intro hskip
        split_ifs at hguard with hap
        · rcases hskip with hap' | hbcn
          · rw [hap] at hap'
            cases hap'
          · rw [hbcn] at hguard
            cases hguard
        · exact hguard
      refine ⟨fun r hr => .inr ?_, fun r hr => iff_of_false (not_not.mpr (halg _ r hr)) hno,
        fun r hr hnw e he => ?_, hreads⟩
      · rcases hanswers.mp ⟨r, hr⟩ with hap | hbcn | h
        · exact hwps (.inl hap)
        · exact hwps (.inr hbcn)
        · exact h
      · rw [hcount] at he
        cases he
  | some e =>
    obtain ⟨he, -⟩ := countedIe_mem hcount
    obtain ⟨h2, hlen⟩ := hin e he
    obtain ⟨hanswers, hset⟩ := @answers_some sec bcn m es e sta hpsk hcount h2 hlen
    dsimp only
    constructor
    · intro hprot
      by_cases hap : bcn.mlmeIsAp = true
      · exact .inl hap
      · refine .inr ?_
        rintro ⟨hoffers, hfits, hnw⟩
        obtain ⟨r, hr⟩ := hanswers.mpr hoffers
        have hzeros := (hset r hr).2.1 (Bool.eq_false_iff.mpr hap)
        have hholds := hprot.kept r hr hnw e hcount hfits
        exact readBytes_ne_zeros (countedIe_head hcount) (hholds.symm.trans hzeros)
    · intro hguard
      have hneg : ∀ r, rtwApParseStaSecurityIe sec bcn m (noted m es) sta
          = some (statsSuccessful, r) → Negotiates sec m es :=
        fun r hr => ⟨e, hcount, hanswers.mp ⟨r, hr⟩⟩
      refine ⟨fun r hr => .inl (hneg r hr), fun r hr => iff_of_true ?_ (hneg r hr),
        fun r hr hnw e' he' hfits => ?_, hreads⟩
      · rw [(hset r hr).1]
        decide
      · obtain rfl : e = e' := Option.some.inj (hcount.symm.trans he')
        rcases hguard with hap | hbad
        · have hcopy := (hset r hr).2.2 hap hnw
          rw [Nat.min_eq_left hfits] at hcopy
          exact hcopy
        · exact absurd ⟨hanswers.mp ⟨r, hr⟩, hfits, hnw⟩ hbad

end Protected

/-- WPA2 with CCMP only. -/
def wpa2Sec : ApSec where
  wpaPsk := 2
  wpaGroupCipher := 0
  wpa2GroupCipher := 16
  wpaPairwiseCipher := 0
  wpa2PairwiseCipher := 16

/-- A station before its request. -/
def newSta : StaSec where
  dot8021xalg := 0
  wpaPsk := 0
  wpaGroupCipher := 0
  wpa2GroupCipher := 0
  wpaPairwiseCipher := 0
  wpa2PairwiseCipher := 0
  wps := false
  maybeWps := false
  wpaIe := List.replicate staWpaIeSz 0

/-- A request with an SSID, a rate, and an RSN element that asks for CCMP. -/
def rsnRequest : Mem := fun i => [0, 1, 97, 1, 1, 0x82, 48, 18, 1, 0, 0x00, 0x0F, 0xAC, 4, 1, 0,
  0x00, 0x0F, 0xAC, 4, 1, 0, 0x00, 0x0F, 0xAC, 2].getD i 0

/-- Such a request is dealt with as it should be by an access point. -/
theorem protected_rsnRequest :
    ieList rsnRequest 0 26 = some [(2, 1), (5, 1), (8, 18)] ∧
    Protects wpa2Sec ⟨true, rsnRequest, none⟩ rsnRequest [(2, 1), (5, 1), (8, 18)] newSta := by
  have hes : ieList rsnRequest 0 26 = some [(2, 1), (5, 1), (8, 18)] := by decide
  exact ⟨hes, (protected_iff (by decide) hes).mpr (.inl rfl)⟩

/-- A request with an SSID and a rate and nothing else. -/
def bareRequest : Mem := fun i => [0, 1, 97, 1, 1, 0x82].getD i 0

/-- **A station that asks for no protection is let in** by an access point with WPA2 whose beacon
has no WPS element. -/
theorem bareRequest_admitted :
    ieList bareRequest 0 6 = some [(2, 1), (5, 1)] ∧
    (∃ r, rtwApParseStaSecurityIe wpa2Sec ⟨true, bareRequest, none⟩ bareRequest
      ([(2, 1), (5, 1)].foldl (parseElem bareRequest) {}) newSta = some (statsSuccessful, r)) ∧
    ¬ (Negotiates wpa2Sec bareRequest [(2, 1), (5, 1)] ∨
      ApBeacon.WpsInProgress ⟨true, bareRequest, none⟩) := by
  refine ⟨by decide, ⟨_, rfl⟩, ?_⟩
  have hcount : countedIe wpa2Sec bareRequest [(2, 1), (5, 1)] = none := by decide
  rintro (⟨e, he, -⟩ | ⟨ie, hie, -⟩)
  · rw [hcount] at he
    cases he
  · cases hie

end Rtl8723bs
