/-
# What a station looks at in the beacons of its AP

`rtw_get_bcn_keys` takes from a beacon what must not change while the link is up: the SSID, the
channel, two fields of the HT elements, and the ciphers.  `rtw_check_bcn_info` holds it against the
keys in use.  A change is believed when it was seen `new_bcn_max` times in a row; if it is one of
the HT fields only it is taken over, and else the link is given up.
-/
import Rtl8723bs.SecIe

namespace Rtl8723bs

namespace BcnKeys

/-! ## 1. The elements of a beacon -/

/-- `WLAN_EID_SSID`, `WLAN_EID_DS_PARAMS`, `WLAN_EID_HT_CAP` and `WLAN_EID_HT_OPERATION`. -/
def wlanEidSsid : UInt8 := 0

def wlanEidDsParams : UInt8 := 3

def wlanEidHtCap : UInt8 := 45

def wlanEidHtOperation : UInt8 := 61

/-- Of `struct rtw_ieee802_11_elems`, what is looked at here. -/
structure BcnElems extends Elems where
  ssid : Option (Nat × Nat) := none
  dsParams : Option (Nat × Nat) := none
  htCapabilities : Option (Nat × Nat) := none
  htOperation : Option (Nat × Nat) := none

/-- One round of `rtw_ieee802_11_parse_elems`. -/
def parseBcnElem (m : Mem) (elems : BcnElems) (e : Nat × Nat) : BcnElems :=
  if m (e.1 - 2) = wlanEidSsid then { elems with ssid := some e }
  else if m (e.1 - 2) = wlanEidDsParams then { elems with dsParams := some e }
  else if m (e.1 - 2) = wlanEidHtCap then { elems with htCapabilities := some e }
  else if m (e.1 - 2) = wlanEidHtOperation then { elems with htOperation := some e }
  else { elems with toElems := parseElem m elems.toElems e }

/-- `rtw_ieee802_11_parse_elems`; `none` is `ParseFailed`. -/
def parseBcnElems (m : Mem) (start len : Nat) : Option BcnElems :=
  (ieList m start len).map fun es => es.foldl (parseBcnElem m) {}

/-! ## 2. The keys -/

/-- `ENCRYP_PROTOCOL_E`. -/
inductive EncrypProtocol
  | opensys
  | wep
  | wpa
  | wpa2
deriving DecidableEq, Repr

/-- `struct beacon_keys`; of the SSID the `ssid_len` bytes, behind which there are zeros. -/
structure BeaconKeys where
  ssid : List UInt8
  bcnChannel : UInt8
  htCapInfo : Nat
  htInfoInfos0Sco : UInt8
  encrypProtocol : EncrypProtocol
  pairwiseCipher : Nat
  groupCipher : Nat
  is8021x : Nat
deriving DecidableEq, Repr

/-- `WLAN_HDR_A3_LEN`, the size of `struct rtw_ieee80211_hdr_3addr`, and `_BEACON_IE_OFFSET_`. -/
def wlanHdrA3Len : Nat := 24

def beaconIeOffset : Nat := 12

/-- The sizes of `struct rtw_ieee80211_ht_cap` and `struct HT_info_element`. -/
def htCapSize : Nat := 26

def htInfoSize : Nat := 22

/-- An element that is there and has data. -/
def filled (e : Option (Nat × Nat)) : Option (Nat × Nat) := e.filter fun e => e.2 ≠ 0

/-- What a parser of a security element leaves: `wpa_ie - 2` and `wpa_ie_len + 2` are the element
with its header, and the keys are 0 before. -/
def parsedSecIe (parse : Mem → Int → SecIe.Out → Option (Bool × SecIe.Out)) (m : Mem)
    (e : Nat × Nat) : SecIe.Out :=
  match parse (fun i => m (e.1 - 2 + i)) ((e.2 : Int) + 2) ⟨0, 0, some 0⟩ with
  | some (_, out) => out
  | none => ⟨0, 0, some 0⟩

/-- The protocol and the ciphers: RSN first, WPA second, then the privacy bit. -/
def securityOf (m : Mem) (capability : Nat) (elems : BcnElems) : EncrypProtocol × SecIe.Out :=
  match filled elems.rsnIe with
  | some e => (.wpa2, parsedSecIe SecIe.rtwParseWpa2Ie m e)
  | none =>
    match filled elems.wpaIe with
    | some e => (.wpa, parsedSecIe SecIe.rtwParseWpaIe m e)
    | none => (if capability &&& 16 ≠ 0 then .wep else .opensys, ⟨0, 0, some 0⟩)

/-- The channel: of the DS parameters, else of the HT operation, else the one we are on. -/
def channelOf (m : Mem) (curChannel : UInt8) (elems : BcnElems) : UInt8 :=
  match elems.dsParams.filter fun e => e.2 = 1, elems.htOperation with
  | some e, _ => m e.1
  | none, some e => m e.1
  | none, none => curChannel

/-- The data of an element that must have `size` bytes if it is there. -/
def sized {α : Type} (e : Option (Nat × Nat)) (size : Nat) (absent : α) (get : Nat → α) :
    Option α :=
  match e with
  | some (p, len) => if len = size then some (get p) else none
  | none => some absent

/-- `rtw_get_bcn_keys`, with `mlmeextpriv.cur_channel`; `none` is `_FALSE`. -/
def rtwGetBcnKeys (m : Mem) (packetLen : Nat) (curChannel : UInt8) : Option BeaconKeys := do
  let capability := le16 m (wlanHdrA3Len + 10)
  -- `left` is handed on as an unsigned number
  let left := (packetLen + 2 ^ 32 - wlanHdrA3Len - beaconIeOffset) % 2 ^ 32
  let elems ← parseBcnElems m (wlanHdrA3Len + beaconIeOffset) left
  let htCapInfo ← sized elems.htCapabilities htCapSize 0 fun p => le16 m p
  let sco ← sized elems.htOperation htInfoSize 0 fun p => m (p + 1) &&& 0x03
  let ssid ← match elems.ssid with
    | some (p, len) => if 32 < len then none else some (readBytes m p len)
    | none => some []
  let (protocol, out) := securityOf m capability elems
  some
    { ssid := ssid
      bcnChannel := channelOf m curChannel elems
      htCapInfo := htCapInfo
      htInfoInfos0Sco := sco
      encrypProtocol := protocol
      pairwiseCipher := out.pairwise
      groupCipher := out.group
      is8021x := out.is8021x.getD 0 }

/-! ## 3. The check -/

/-- `ht_cap_info` and `ht_info_infos_0` of the `BcnInfo` of the network we are linked to. -/
structure BcnInfo where
  htCapInfo : Nat
  htInfoInfos0 : UInt8
deriving DecidableEq, Repr

/-- `cur_beacon_keys`, `new_beacon_keys`, `new_beacon_cnts` and `BcnInfo`. -/
structure State where
  cur : BeaconKeys
  new : BeaconKeys
  cnts : UInt8
  info : BcnInfo
deriving DecidableEq, Repr

/-- What does not change while the link is up: whether there is one, the address of the AP, and
`new_bcn_max`. -/
structure Link where
  associated : Bool
  macAddress : List UInt8
  newBcnMax : Int

/-- A beacon as it is received, and the channel we are on then. -/
structure Beacon where
  frame : Mem
  packetLen : Nat
  curChannel : UInt8
  short : packetLen < 2 ^ 32

/-- `len`: what there is behind the header, as an unsigned number. -/
def Beacon.len (e : Beacon) : Nat := (e.packetLen + 2 ^ 32 - wlanHdrA3Len) % 2 ^ 32

/-- The keys of a beacon; one that hides the SSID has the SSID in use. -/
def keysOf (ssid : List UInt8) (e : Beacon) : Option BeaconKeys :=
  (rtwGetBcnKeys e.frame e.packetLen e.curChannel).map fun k =>
    if k.ssid = [] then { k with ssid := ssid } else k

/-- How often the new keys were seen. -/
def count (s : State) (k : BeaconKeys) : State :=
  if k = s.cur then { s with cnts := 0 }
  else if s.cnts = 0 ∨ k ≠ s.new then { s with new := k, cnts := 1 }
  else { s with cnts := s.cnts + 1 }

/-- Keys with the HT fields of others. -/
def BeaconKeys.withHt (k r : BeaconKeys) : BeaconKeys :=
  { k with htCapInfo := r.htCapInfo, htInfoInfos0Sco := r.htInfoInfos0Sco }

/-- `BcnInfo` with the HT fields of keys. -/
def BcnInfo.withHt (i : BcnInfo) (k : BeaconKeys) : BcnInfo where
  htCapInfo := k.htCapInfo
  htInfoInfos0 := (i.htInfoInfos0 &&& 0xfc) ||| k.htInfoInfos0Sco

/-- What is done when the count has reached `new_bcn_max`. -/
def believe (s : State) (k : BeaconKeys) : Bool × State :=
  if k = s.cur.withHt k then (true, { s with cur := k, cnts := 0, info := s.info.withHt k })
  else (false, { s with cur := s.cur.withHt k })

/-- `rtw_check_bcn_info`: whether it returns `_SUCCESS`, and what it leaves. -/
def rtwCheckBcnInfo (l : Link) (s : State) (e : Beacon) : Bool × State :=
  if l.associated = false then (true, s)
  else if maxIeSz < e.len then (false, s)
  else if readBytes e.frame 16 6 ≠ l.macAddress then (true, s)
  else
    match keysOf s.cur.ssid e with
    | none => (true, s)
    | some k =>
      let s := count s k
      if l.newBcnMax ≤ s.cnts.toNat then believe s k else (true, s)

/-! ## 4. The security elements -/

section Inside

open SecIe

variable {f : Format} {m : Mem} {len left : Int} {pos : Nat} {o : Out}

theorem exists_readIn (m : Mem) (len : Int) (pos n : Nat) (h : ((pos + n : Nat) : Int) ≤ len) :
    ∃ s, readIn m len pos n = some s := ⟨_, if_pos (Or.inr h)⟩

theorem exists_orSuites (f : Format) (m : Mem) (len : Int) (count pos c : Nat)
    (h : ((pos + 4 * count : Nat) : Int) ≤ len) :
    ∃ c', f.orSuites m len count pos c = some c' := by
  induction count generalizing pos c with
  | zero => exact ⟨c, rfl⟩
  | succ count ih =>
    obtain ⟨s, hs⟩ := exists_readIn m len pos 4 (by omega)
    rw [Format.orSuites, hs]
    exact ih (pos + 4) _ (by omega)

theorem exists_parseAkm (f : Format) (m : Mem) (o : Out) (h : (pos : Int) + left ≤ len) :
    ∃ r, f.parseAkm m len pos left o = some r := by
  rw [Format.parseAkm]
  cases o.is8021x with
  | none => exact ⟨_, rfl⟩
  | some flag =>
    by_cases hsix : 6 ≤ left
    · obtain ⟨s, hs⟩ := exists_readIn m len (pos + 2) 4 (by omega)
      exact ⟨_, by simp only [if_pos hsix, hs]; rfl⟩
    · exact ⟨_, if_neg hsix⟩

theorem exists_parsePairwise (f : Format) (m : Mem) (o : Out) (h : (pos : Int) + left ≤ len) :
    ∃ r, f.parsePairwise m len pos left o = some r := by
  rw [Format.parsePairwise]
  by_cases htwo : 2 ≤ left
  · obtain ⟨c, hc⟩ := exists_readIn m len pos 2 (by omega)
    rw [if_pos htwo, hc]
    by_cases hfew : getLe16 c = 0 ∨ left - 2 < getLe16 c * 4
    · exact ⟨_, if_pos hfew⟩
    · obtain ⟨p, hp⟩ := exists_orSuites f m len (getLe16 c) (pos + 2) o.pairwise (by omega)
      obtain ⟨r, hr⟩ := exists_parseAkm f m { o with pairwise := p }
        (show ((pos + 2 + 4 * getLe16 c : Nat) : Int) + (left - 2 - 4 * getLe16 c) ≤ len by omega)
      exact ⟨r, by simp only [Option.bind_eq_bind, Option.bind_some, if_neg hfew, hp, hr]⟩
  · rw [if_neg htwo]
    by_cases hone : left = 1
    · exact ⟨_, if_pos hone⟩
    · rw [if_neg hone]
      exact exists_parseAkm f m o h

theorem exists_parseGroup (f : Format) (m : Mem) (o : Out) (h : (pos : Int) + left ≤ len) :
    ∃ r, f.parseGroup m len pos left o = some r := by
  rw [Format.parseGroup]
  by_cases hfour : 4 ≤ left
  · obtain ⟨s, hs⟩ := exists_readIn m len pos 4 (by omega)
    obtain ⟨r, hr⟩ := exists_parsePairwise f m { o with group := f.cipherSuite s }
      (show ((pos + 4 : Nat) : Int) + (left - 4) ≤ len by omega)
    exact ⟨r, by simp only [if_pos hfour, hs, Option.bind_eq_bind, Option.bind_some, hr]⟩
  · rw [if_neg hfour]
    by_cases hpos : 0 < left
    · exact ⟨_, if_pos hpos⟩
    · rw [if_neg hpos]
      exact exists_parsePairwise f m o h

/-- An element with its header and what stands in front of the version is parsed inside. -/
theorem exists_parse (hlen : ((f.oui.length + 2 : Nat) : Int) ≤ len) :
    ∃ r, f.parse m len o = some r := by
  obtain ⟨id, hid⟩ := exists_readIn m len 0 1 (by omega)
  obtain ⟨l, hl⟩ := exists_readIn m len 1 1 (by omega)
  obtain ⟨oui, houi⟩ := exists_readIn m len 2 f.oui.length (by omega)
  obtain ⟨r, hr⟩ := exists_parseGroup f m o
    (show ((f.oui.length + 4 : Nat) : Int) + (len - (f.oui.length + 4 : Nat)) ≤ len by omega)
  rw [Format.parse, if_neg (by omega), hid, Option.bind_eq_bind, Option.bind_some]
  by_cases hkind : id = [f.eid]
  · rw [if_neg (not_not.mpr hkind), hl, Option.bind_some]
    by_cases hsize : l = [UInt8.ofInt (len - 2)]
    · rw [if_neg (not_not.mpr hsize), houi, Option.bind_some]
      by_cases hname : oui = f.oui
      · rw [if_neg (not_not.mpr hname)]
        exact ⟨r, hr⟩
      · exact ⟨_, if_pos hname⟩
    · exact ⟨_, if_pos hsize⟩
  · exact ⟨_, if_pos hkind⟩

/-- One round notes no WPA element without the bytes of its OUI and type. -/
theorem parseBcnElem_wpaIe {elems : BcnElems} {x e : Nat × Nat}
    (h : (parseBcnElem m elems x).wpaIe = some e) : elems.wpaIe = some e ∨ 4 ≤ e.2 := by
  have hsame : (parseBcnElem m elems x).wpaIe = elems.wpaIe ∨
      (parseBcnElem m elems x).wpaIe = (parseElem m elems.toElems x).wpaIe := by
    unfold parseBcnElem
    repeat' split
    all_goals first | exact .inl rfl | exact .inr rfl
  rcases hsame with hsame | hsame
  · exact .inl (hsame ▸ h)
  · rw [hsame, parseElem_wpaIe] at h
    by_cases hwpa : isVendorIe wpaOui m x = true
    · rw [if_pos hwpa] at h
      obtain rfl := Option.some.inj h
      exact .inr (of_decide_eq_true hwpa).2.1
    · rw [if_neg hwpa] at h
      exact .inl h

/-- A WPA element has the bytes of its OUI and type. -/
theorem wpaIe_long (es : List (Nat × Nat)) (elems : BcnElems)
    (h : ∀ e, elems.wpaIe = some e → 4 ≤ e.2) (e : Nat × Nat)
    (he : (es.foldl (parseBcnElem m) elems).wpaIe = some e) : 4 ≤ e.2 := by
  induction es generalizing elems with
  | nil => exact h e he
  | cons x es ih =>
    refine ih (parseBcnElem m elems x) (fun e' he' => ?_) he
    rcases parseBcnElem_wpaIe he' with hold | hlong
    · exact h e' hold
    · exact hlong

/-- **The security elements of a beacon are parsed inside.** -/
theorem parsers_inside {start n : Nat} {elems : BcnElems}
    (h : parseBcnElems m start n = some elems) :
    (∀ e, elems.rsnIe = some e →
      ∃ r, SecIe.rtwParseWpa2Ie (fun i => m (e.1 - 2 + i)) ((e.2 : Int) + 2) o = some r) ∧
    ∀ e, elems.wpaIe = some e →
      ∃ r, SecIe.rtwParseWpaIe (fun i => m (e.1 - 2 + i)) ((e.2 : Int) + 2) o = some r := by
  obtain ⟨es, -, rfl⟩ := Option.map_eq_some_iff.mp h
  refine ⟨fun e _ => exists_parse ?_, fun e he => exists_parse ?_⟩
  · simp only [rsn, List.length_nil]
    omega
  · have hlong := wpaIe_long es {} (by simp) e he
    simp only [wpa, List.length_cons, List.length_nil]
    omega

end Inside

end BcnKeys

end Rtl8723bs
