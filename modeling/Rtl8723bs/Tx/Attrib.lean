/-
# Transmit attributes: `update_attrib`

Before an Ethernet packet is queued its attributes are made up: the addresses, the station it
goes to, the cipher (`update_attrib_sec_info`) and the length of the 802.11 header.  The packet
number is drawn here, once for the packet: `WEP_IV`, `TKIP_IV` and `AES_IV` write it into the IV
and advance the station's `dot11txpn`.
-/
import Mathlib.Logic.Function.Basic
import Rtl8723bs.Sta
import Rtl8723bs.Security.Algo
import Rtl8723bs.Rx.Frame

namespace Rtl8723bs

/-! ## 1. The records -/

/-- `struct security_priv`, what transmission reads of it. -/
structure SecurityPriv where
  dot11AuthAlgrthm : Dot11AuthAlgrthm
  dot11PrivacyAlgrthm : Nat
  dot11PrivacyKeyIndex : Nat
  /-- `dot11DefKey[dot11PrivacyKeyIndex]`, as long as `dot11DefKeylen` says. -/
  dot11DefKey : List UInt8
  dot118021XGrpPrivacy : Nat
  dot118021XGrpKeyid : Nat
  dot118021XGrpKey : List UInt8
  dot118021XGrptxmickey : List UInt8
  busetkipkey : Bool
  swEncrypt : Bool
  hwDecrypted : Bool
  /-- `SEC_STATUS_STA_PK_GK_CONFLICT_DIS_BMC_SEARCH`. -/
  staPkGkConflict : Bool

/-- `struct sta_info`, what transmission reads and writes of it. -/
structure TxSta where
  /-- `state & _FW_LINKED`. -/
  fwLinked : Bool
  ieee8021xBlocked : Bool
  qosOption : Bool
  dot118021XPrivacy : Nat
  dot118021xUncstKey : List UInt8
  dot11tkiptxmickey : List UInt8
  /-- `dot11txpn.val`. -/
  dot11txpn : Nat
  /-- `sta_xmitpriv.txseq_tid`. -/
  txseqTid : Nat → Nat

/-- What else `update_attrib` and `rtw_make_wlanhdr` look at. -/
structure TxEnv where
  adapter : Adapter
  /-- `mlmepriv.qospriv.qos_option`. -/
  qosOption : Bool
  /-- `mlmepriv.acm_mask`. -/
  acmMask : Nat

/-- `struct pkt_attrib`. -/
structure PktAttrib where
  etherType : Nat
  dst : MacAddr
  src : MacAddr
  ta : MacAddr
  ra : MacAddr
  psta : StaId
  subtype : Nat
  priority : Nat
  hdrlen : Nat
  pktHdrlen : Nat
  pktlen : Nat
  encrypt : Nat
  bswenc : Bool
  keyIdx : Nat
  ivLen : Nat
  icvLen : Nat
  iv : Mem
  icv : Mem
  dot118021xUncstKey : List UInt8
  dot11tkiptxmickey : List UInt8
  qosEn : Bool
  mdata : Bool
  eosp : Nat
  ackPolicy : Nat
  amsdu : Nat
  seqnum : Nat
  nrFrags : Nat
  lastTxcmdsz : Nat

/-- `rtw_init_xmitframe` clears the attributes. -/
def initAttrib : PktAttrib where
  etherType := 0
  dst := zeroAddr
  src := zeroAddr
  ta := zeroAddr
  ra := zeroAddr
  psta := 0
  subtype := 0
  priority := 0
  hdrlen := 0
  pktHdrlen := 0
  pktlen := 0
  encrypt := 0
  bswenc := false
  keyIdx := 0
  ivLen := 0
  icvLen := 0
  iv := fun _ => 0
  icv := fun _ => 0
  dot118021xUncstKey := []
  dot11tkiptxmickey := []
  qosEn := false
  mdata := false
  eosp := 0
  ackPolicy := 0
  amsdu := 0
  seqnum := 0
  nrFrags := 0
  lastTxcmdsz := 0

/-! ## 2. The IV -/

/-- Byte `TSCk` of a packet number. -/
def tsc (pn k : Nat) : UInt8 := UInt8.ofNat (pn / 256 ^ k)

/-- The listed bytes over an array. -/
def setBytes (iv : Mem) (l : List UInt8) : Mem := fun i => if i < l.length then l.getD i 0 else iv i

/-- The counter after a packet number was drawn. -/
def nextPn (limit pn : Nat) : Nat := if pn = limit then 0 else pn + 1

/-- `(keyidx & 0x3) << 6`. -/
def keyIdBits (keyidx : Nat) : UInt8 := UInt8.ofNat (keyidx % 4 * 64)

/-- `WEP_IV`: the IV, and `dot11txpn` after it. -/
def wepIv (iv : Mem) (pn keyidx : Nat) : Mem × Nat :=
  (setBytes iv [tsc pn 0, tsc pn 1, tsc pn 2, keyIdBits keyidx], nextPn 0xffffff pn)

/-- `TKIP_IV`. -/
def tkipIv (iv : Mem) (pn keyidx : Nat) : Mem × Nat :=
  (setBytes iv [tsc pn 1, (tsc pn 1 ||| 0x20) &&& 0x7f, tsc pn 0, 0x20 ||| keyIdBits keyidx,
    tsc pn 2, tsc pn 3, tsc pn 4, tsc pn 5], nextPn 0xffffffffffff pn)

/-- `AES_IV`. -/
def aesIv (iv : Mem) (pn keyidx : Nat) : Mem × Nat :=
  (setBytes iv [tsc pn 0, tsc pn 1, 0, 0x20 ||| keyIdBits keyidx,
    tsc pn 2, tsc pn 3, tsc pn 4, tsc pn 5], nextPn 0xffffffffffff pn)

/-! ## 3. `update_attrib_sec_info` -/

/-- The cipher and the key index; `none` drops the packet. -/
def secAlgo (sec : SecurityPriv) (env : TxEnv) (psta : TxSta) (a : PktAttrib) :
    Option (Nat × Nat) :=
  if psta.ieee8021xBlocked then
    if a.etherType ≠ 0x888e ∧ checkFwstate env.adapter wifiMpState = false then none
    else some (0, a.keyIdx)
  else
    let bmcast := isMcast a.ra
    let encrypt := encryAlgo sec.dot11AuthAlgrthm sec.dot11PrivacyAlgrthm sec.dot118021XGrpPrivacy
      psta.dot118021XPrivacy a.encrypt bmcast
    let keyIdx := match sec.dot11AuthAlgrthm with
      | .open_ => sec.dot11PrivacyKeyIndex
      | .shared => sec.dot11PrivacyKeyIndex
      | .auto => sec.dot11PrivacyKeyIndex
      | .x8021 => if bmcast then sec.dot118021XGrpKeyid else 0
      | _ => 0
    -- the EAPOL packets of a WPS handshake are not under WEP
    if (encrypt = encWep40 ∨ encrypt = encWep104) ∧ a.etherType = 0x888e then some (0, keyIdx)
    else some (encrypt, keyIdx)

/-- The lengths and the IV of a cipher, and `dot11txpn` after it; `none` is `_FAIL`. -/
def secIv (sec : SecurityPriv) (psta : TxSta) (a : PktAttrib) : Option (PktAttrib × Nat) :=
  let bmcast := isMcast a.ra
  let keyid := if bmcast then a.keyIdx else 0
  if a.encrypt = encWep40 ∨ a.encrypt = encWep104 then
    let (iv, pn) := wepIv a.iv psta.dot11txpn a.keyIdx
    some ({ a with ivLen := 4, icvLen := 4, iv := iv }, pn)
  else if a.encrypt = encTkip then
    if sec.busetkipkey then
      let (iv, pn) := tkipIv a.iv psta.dot11txpn keyid
      some ({ a with ivLen := 8, icvLen := 4, iv := iv,
                     dot11tkiptxmickey := psta.dot11tkiptxmickey }, pn)
    else none
  else if a.encrypt = encAes then
    let (iv, pn) := aesIv a.iv psta.dot11txpn keyid
    some ({ a with ivLen := 8, icvLen := 8, iv := iv }, pn)
  else some ({ a with ivLen := 0, icvLen := 0 }, psta.dot11txpn)

/-- `update_attrib_sec_info`: the attributes, and the station's `dot11txpn`. -/
def updateAttribSecInfo (sec : SecurityPriv) (env : TxEnv) (psta : TxSta) (a : PktAttrib) :
    Option (PktAttrib × Nat) := do
  let (encrypt, keyIdx) ← secAlgo sec env psta a
  let (a, pn) ← secIv sec psta { a with encrypt := encrypt, keyIdx := keyIdx }
  let a := if 0 < a.encrypt then { a with dot118021xUncstKey := psta.dot118021xUncstKey } else a
  let bswenc := a.encrypt ≠ 0 ∧
    (sec.swEncrypt ∨ sec.hwDecrypted = false ∨ isMcast a.ra ∧ sec.staPkGkConflict)
  some ({ a with bswenc := bswenc }, pn)

/-- The cipher is the one `GET_ENCRY_ALGO` selects, or none. -/
theorem secAlgo_cases {sec : SecurityPriv} {env : TxEnv} {psta : TxSta} {a : PktAttrib}
    {encrypt keyIdx : Nat} (h : secAlgo sec env psta a = some (encrypt, keyIdx)) :
    encrypt = 0 ∨ encrypt = encryAlgo sec.dot11AuthAlgrthm sec.dot11PrivacyAlgrthm
      sec.dot118021XGrpPrivacy psta.dot118021XPrivacy a.encrypt (isMcast a.ra) := by
  unfold secAlgo at h
  split at h
  · split at h
    · cases h
    · cases h
      exact Or.inl rfl
  · simp only at h
    split at h
    · cases h
      exact Or.inl rfl
    · cases h
      exact Or.inr rfl

/-- What `secIv` does, cipher by cipher. -/
theorem secIv_cases {sec : SecurityPriv} {psta : TxSta} {a a' : PktAttrib} {pn : Nat}
    (h : secIv sec psta a = some (a', pn)) :
    let keyid := if isMcast a.ra then a.keyIdx else 0
    ((a.encrypt = encWep40 ∨ a.encrypt = encWep104) ∧
        a' = { a with ivLen := 4, icvLen := 4, iv := (wepIv a.iv psta.dot11txpn a.keyIdx).1 } ∧
        pn = nextPn 0xffffff psta.dot11txpn) ∨
      (a.encrypt = encTkip ∧
        a' = { a with ivLen := 8, icvLen := 4, iv := (tkipIv a.iv psta.dot11txpn keyid).1,
                      dot11tkiptxmickey := psta.dot11tkiptxmickey } ∧
        pn = nextPn 0xffffffffffff psta.dot11txpn) ∨
      (a.encrypt = encAes ∧
        a' = { a with ivLen := 8, icvLen := 8, iv := (aesIv a.iv psta.dot11txpn keyid).1 } ∧
        pn = nextPn 0xffffffffffff psta.dot11txpn) ∨
      (a.encrypt ≠ encTkip ∧ a.encrypt ≠ encAes ∧ a' = { a with ivLen := 0, icvLen := 0 } ∧
        pn = psta.dot11txpn) := by
  intro keyid
  unfold secIv at h
  simp only at h
  split at h
  · rename_i hwep
    cases h
    exact Or.inl ⟨hwep, rfl, rfl⟩
  · split at h
    · rename_i htkip
      split at h
      · cases h
        exact Or.inr (Or.inl ⟨htkip, rfl, rfl⟩)
      · cases h
    · rename_i htkip
      split at h
      · rename_i haes
        cases h
        exact Or.inr (Or.inr (Or.inl ⟨haes, rfl, rfl⟩))
      · rename_i haes
        cases h
        exact Or.inr (Or.inr (Or.inr ⟨htkip, haes, rfl, rfl⟩))

/-- `update_attrib_sec_info` settles on a cipher, draws the IV, and decides who encrypts. -/
theorem updateAttribSecInfo_cases {sec : SecurityPriv} {env : TxEnv} {psta : TxSta}
    {a a' : PktAttrib} {pn : Nat} (h : updateAttribSecInfo sec env psta a = some (a', pn)) :
    ∃ encrypt keyIdx a₁, secAlgo sec env psta a = some (encrypt, keyIdx) ∧
      secIv sec psta { a with encrypt := encrypt, keyIdx := keyIdx } = some (a₁, pn) ∧
      a' = { a₁ with dot118021xUncstKey := a'.dot118021xUncstKey, bswenc := a'.bswenc } := by
  unfold updateAttribSecInfo at h
  simp only [Option.bind_eq_bind, Option.bind_eq_some_iff] at h
  obtain ⟨⟨encrypt, keyIdx⟩, halgo, ⟨a₁, pn₁⟩, hiv, hres⟩ := h
  simp only [Option.some.injEq, Prod.mk.injEq] at hres
  obtain ⟨rfl, rfl⟩ := hres
  refine ⟨encrypt, keyIdx, a₁, halgo, hiv, ?_⟩
  split
  · rfl
  · rfl

/-! ## 4. `update_attrib` -/

/-- `qos_acm`. -/
def qosAcm (acmMask priority : Nat) : Nat :=
  match priority with
  | 0 | 3 => if acmMask &&& 2 ≠ 0 then 1 else priority
  | 4 | 5 => if acmMask &&& 4 ≠ 0 then 0 else priority
  | 6 | 7 => if acmMask &&& 8 ≠ 0 then 5 else priority
  | _ => priority

/-- `set_qos`. -/
def setQos (pkt : List UInt8) (a : PktAttrib) : PktAttrib :=
  let userPriority := if a.etherType = 0x0800 then (pkt.getD (ethHlen + 1) 0).toNat / 32 else 0
  { a with priority := userPriority, hdrlen := 26, subtype := wifiQosDataType }

/-- The receiver and transmitter addresses of a packet, by the mode the adapter is in. -/
def attribAddrs (adapter : Adapter) (a : PktAttrib) : PktAttrib :=
  if checkFwstate adapter wifiAdhocState ∨ checkFwstate adapter wifiAdhocMasterState then
    { a with ra := a.dst, ta := adapter.macAddr }
  else if checkFwstate adapter wifiStationState then
    { a with ra := adapter.bssid, ta := adapter.macAddr }
  else if checkFwstate adapter wifiApState then
    { a with ra := a.dst, ta := adapter.bssid }
  else a

/-- The header of a packet to a station: QoS or not. -/
def attribQos (env : TxEnv) (pkt : List UInt8) (a : PktAttrib) : PktAttrib :=
  if checkFwstate env.adapter (wifiApState ||| wifiAdhocState ||| wifiAdhocMasterState) then
    if a.qosEn then setQos pkt a else a
  else if env.qosOption then
    let a := setQos pkt a
    if env.acmMask ≠ 0 then { a with priority := qosAcm env.acmMask a.priority } else a
  else a

/-- What `update_attrib` sets once the cipher is known. -/
def attribHdr (i : StaId) (psta : TxSta) (a : PktAttrib) : PktAttrib :=
  { a with
    qosEn := psta.qosOption
    psta := i
    pktHdrlen := ethHlen
    hdrlen := 24
    subtype := wifiDataType
    priority := 0 }

/-- The attributes before a station is looked for. -/
def attribStart (adapter : Adapter) (pkt : List UInt8) : PktAttrib :=
  let m : Mem := fun i => pkt.getD i 0
  { attribAddrs adapter
      { initAttrib with etherType := be16 m 12, dst := readAddr m 0, src := readAddr m 6 } with
    pktlen := (pkt.drop ethHlen).length }

/-- The station a packet goes to. -/
def attribSta (t : StaTable) (ra : MacAddr) : Option StaId :=
  if isMcast ra then rtwGetBcmcStainfo t else rtwGetStainfo t ra

/-- `update_attrib`: the attributes of the packet, and the stations after it. -/
def updateAttrib (sec : SecurityPriv) (t : StaTable) (env : TxEnv) (stas : StaId → TxSta)
    (pkt : List UInt8) : Option (PktAttrib × (StaId → TxSta)) :=
  let a := attribStart env.adapter pkt
  match attribSta t a.ra with
  | none => none
  | some i =>
    if (stas i).fwLinked = false then none
    else match updateAttribSecInfo sec env (stas i) a with
      | none => none
      | some (a, pn) =>
        some (attribQos env pkt (attribHdr i (stas i) a),
          Function.update stas i { stas i with dot11txpn := pn })

/-- The QoS decision touches priority, header length and subtype. -/
theorem attribQos_frame (env : TxEnv) (pkt : List UInt8) (a : PktAttrib) :
    (attribQos env pkt a).encrypt = a.encrypt ∧ (attribQos env pkt a).iv = a.iv ∧
      (attribQos env pkt a).psta = a.psta := by
  unfold attribQos
  split
  · split
    · exact ⟨rfl, rfl, rfl⟩
    · exact ⟨rfl, rfl, rfl⟩
  · split
    · simp only
      split
      · exact ⟨rfl, rfl, rfl⟩
      · exact ⟨rfl, rfl, rfl⟩
    · exact ⟨rfl, rfl, rfl⟩

theorem attribStart_encrypt (adapter : Adapter) (pkt : List UInt8) :
    (attribStart adapter pkt).encrypt = 0 := by
  unfold attribStart attribAddrs
  simp only
  split
  · rfl
  · split
    · rfl
    · split
      · rfl
      · rfl

/-- `update_attrib`: the station is the one found for the receiver, and its packet number moves
as `update_attrib_sec_info` says. -/
theorem updateAttrib_cases {sec : SecurityPriv} {t : StaTable} {env : TxEnv}
    {stas stas' : StaId → TxSta} {pkt : List UInt8} {a : PktAttrib}
    (h : updateAttrib sec t env stas pkt = some (a, stas')) :
    ∃ a₁ i pn, attribSta t (attribStart env.adapter pkt).ra = some i ∧
      updateAttribSecInfo sec env (stas i) (attribStart env.adapter pkt) = some (a₁, pn) ∧
      a = attribQos env pkt (attribHdr i (stas i) a₁) ∧
      stas' = Function.update stas i { stas i with dot11txpn := pn } := by
  unfold updateAttrib at h
  simp only at h
  split at h
  · cases h
  · rename_i i hsta
    split at h
    · cases h
    · split at h
      · cases h
      · rename_i a₁ pn hsec
        cases h
        exact ⟨a₁, i, pn, hsta, hsec, rfl, rfl⟩

end Rtl8723bs
