/-
# Data frames that validation admits

What `validate_recv_frame` answers with `_SUCCESS` is a data frame with three addresses.  Its
header is 24 bytes long, 26 with a QoS field, and four longer with the Order bit; the lengths of
IV and ICV are those of its cipher (`validateRecvFrame_admitted`).
-/
import Rtl8723bs.Rx.SwDecrypt
import Rtl8723bs.Security.CcmpAad

namespace Rtl8723bs

/-- A data frame as validation leaves it. -/
structure DataAdmitted (f : RecvFrame) : Prop where
  data : getFrameType f.mem = wifiDataType
  toFrDs : getTofrDs f.mem ≠ 3
  hdrlen : f.attrib.hdrlen
    = (if isQosSubtype f.mem then 26 else 24) + if getOrder f.mem then 4 else 0
  ivLen : f.attrib.ivLen = (setIceIvLen f.attrib.encrypt).1
  icvLen : f.attrib.icvLen = (setIceIvLen f.attrib.encrypt).2
  inBuf : f.rxData ≤ f.rxTail ∧ f.rxTail ≤ f.buf.length

section Admitted

variable {p : RecvFrame}

theorem DataAdmitted.hdrlen_cases (h : DataAdmitted p) :
    p.attrib.hdrlen = 24 ∨ p.attrib.hdrlen = 26 ∨ p.attrib.hdrlen = 28 ∨ p.attrib.hdrlen = 30 := by
  rw [h.hdrlen]
  split <;> split <;> simp

theorem DataAdmitted.le_hdrlen (h : DataAdmitted p) : 24 ≤ p.attrib.hdrlen := by
  rcases h.hdrlen_cases with hl | hl | hl | hl <;> omega

theorem DataAdmitted.lt_buf (h : DataAdmitted p) {i : Nat} (hi : i < p.len) :
    p.rxData + i < p.buf.length := by
  have hbuf := h.inBuf
  unfold RecvFrame.len at hi
  omega

/-- Without the Order bit the header has three addresses and no HT Control. -/
theorem DataAdmitted.threeAddr (h : DataAdmitted p) (horder : getOrder p.mem = false) :
    ThreeAddrHdr p.mem p.attrib.hdrlen := by
  refine ⟨h.data, ?_⟩
  rw [h.hdrlen, horder]
  simp [isQosSubtype, wlanHdrA3QosLen, wlanHdrA3Len]

/-- `f` has attributes, place and header of `p`; what follows the header is its own. -/
structure SameHeader (p f : RecvFrame) : Prop where
  attrib : f.attrib = p.attrib
  place : f.rxData = p.rxData ∧ f.rxTail = p.rxTail ∧ f.buf.length = p.buf.length
  header : ∀ i < p.attrib.hdrlen, f.mem i = p.mem i

theorem SameHeader.len {f : RecvFrame} (hf : SameHeader p f) : f.len = p.len := by
  unfold RecvFrame.len
  rw [hf.place.1, hf.place.2.1]

/-- Frames with one header are admitted together. -/
theorem SameHeader.form {f : RecvFrame} (hf : SameHeader p f) (h : DataAdmitted p) :
    DataAdmitted f ∧ getOrder f.mem = getOrder p.mem ∧ qcExists f.mem = qcExists p.mem ∧
      getFragNum f.mem = getFragNum p.mem ∧ getFrameSubType f.mem = getFrameSubType p.mem := by
  have hhdr := h.le_hdrlen
  have h0 : f.mem 0 = p.mem 0 := hf.header 0 (by omega)
  have h1 : f.mem 1 = p.mem 1 := hf.header 1 (by omega)
  have hsub : getFrameSubType f.mem = getFrameSubType p.mem := by
    rw [getFrameSubType_byte, getFrameSubType_byte, h0]
  have horder : getOrder f.mem = getOrder p.mem := by
    simp only [getOrder, le16, Nat.zero_add, h0, h1]
  have htype : getFrameType f.mem = getFrameType p.mem := by
    rw [getFrameType_byte, getFrameType_byte, h0]
  have hds : getTofrDs f.mem = getTofrDs p.mem := by
    simp only [getTofrDs, getToDs, getFrDs, le16, Nat.zero_add, h0, h1]
  refine ⟨⟨htype.trans h.data, by rw [hds]; exact h.toFrDs, ?_, by rw [hf.attrib]; exact h.ivLen,
    by rw [hf.attrib]; exact h.icvLen,
    by rw [hf.place.1, hf.place.2.1, hf.place.2.2]; exact h.inBuf⟩,
    horder, ?_, ?_, hsub⟩
  · rw [hf.attrib, h.hdrlen, horder, isQosSubtype, isQosSubtype, hsub]
  · rw [qcExists_byte, h0, ← qcExists_byte]
  · simp only [getFragNum, le16, hf.header 22 (by omega), hf.header 23 (by omega)]

end Admitted

/-! ## 1. Finding the station -/

/-- Finding the station fills in addresses and nothing else. -/
def OnlyAddrs (f g : RecvFrame) : Prop :=
  ∃ dst src bssid ra ta, g = { f with attrib := { f.attrib with
    dst := dst, src := src, bssid := bssid, ra := ra, ta := ta } }

theorem sta2staDataFrame_addrs (env : RxEnv) (f : RecvFrame) :
    OnlyAddrs f (sta2staDataFrame env f).frame := by
  have hlookup : ∀ addr, (sta2staLookup env f addr).frame = f := by
    intro addr
    unfold sta2staLookup
    simp only
    split <;> rfl
  unfold sta2staDataFrame
  simp only
  split_ifs <;> first
    | exact ⟨_, _, _, _, _, rfl⟩
    | exact ⟨_, _, _, _, _, hlookup _⟩
    | (split <;> exact ⟨_, _, _, _, _, rfl⟩)

theorem ap2staDataFrame_addrs (env : RxEnv) (f : RecvFrame) :
    OnlyAddrs f (ap2staDataFrame env f).frame := by
  unfold ap2staDataFrame
  simp only
  split_ifs <;> first
    | exact ⟨_, _, _, _, _, rfl⟩
    | (split <;> exact ⟨_, _, _, _, _, rfl⟩)

theorem sta2apDataFrame_addrs (env : RxEnv) (f : RecvFrame) :
    OnlyAddrs f (sta2apDataFrame env f).frame := by
  unfold sta2apDataFrame
  simp only
  split_ifs <;> first
    | exact ⟨_, _, _, _, _, rfl⟩
    | (split <;> exact ⟨_, _, _, _, _, rfl⟩)

/-- A frame with four addresses finds no station. -/
theorem dataRoute_addrs (env : RxEnv) (f : RecvFrame) :
    OnlyAddrs f (dataRoute env f).frame ∧
      ((dataRoute env f).ret = .success → f.attrib.toFrDs ≠ 3) := by
  have htrans : ∀ {dst src bssid ra ta g}, OnlyAddrs { f with attrib := { f.attrib with
      dst := dst, src := src, bssid := bssid, ra := ra, ta := ta } } g → OnlyAddrs f g := by
    rintro _ _ _ _ _ _ ⟨dst, src, bssid, ra, ta, rfl⟩
    exact ⟨dst, src, bssid, ra, ta, rfl⟩
  unfold dataRoute
  simp only
  split
  · exact ⟨htrans (sta2staDataFrame_addrs env _), fun _ => by omega⟩
  · exact ⟨htrans (ap2staDataFrame_addrs env _), fun _ => by omega⟩
  · exact ⟨htrans (sta2apDataFrame_addrs env _), fun _ => by omega⟩
  · exact ⟨⟨_, _, _, _, _, rfl⟩, nofun⟩

/-- A frame that is validated went to a station, and had its QoS field read and its cipher set. -/
theorem validateRecvDataFrame_success {env : RxEnv} {s : ReplayState} {f : RecvFrame}
    (h : (validateRecvDataFrame env s f).ret = .success) :
    ∃ i, (validateRecvDataFrame env s f).frame
        = setEncrypt env i (parseQc (dataRoute env f).frame) ∧
      (dataRoute env f).ret = .success := by
  unfold validateRecvDataFrame at h ⊢
  simp only at h ⊢
  split at h
  · cases h
  · cases h
  · cases h
  rename_i psta hret hpsta
  refine ⟨psta, ?_, hret⟩
  split at h
  · cases h
  · split at h
    · rename_i hucast
      rw [if_pos hucast]
      split at h
      · cases h
      · rfl
    · rename_i hmcast
      rw [if_neg hmcast]
      split at h
      · cases h
      · rfl

/-! ## 2. The whole of validation -/

/-- The header length that `parseQc` sets. -/
theorem parseQc_hdrlen (f : RecvFrame) (hds : f.attrib.toFrDs ≠ 3) :
    (parseQc f).attrib.hdrlen
        = (if f.attrib.qos = 1 then 26 else 24) + (if f.attrib.order ≠ 0 then 4 else 0) ∧
      (parseQc f).buf = f.buf ∧ (parseQc f).rxData = f.rxData ∧ (parseQc f).rxTail = f.rxTail := by
  unfold parseQc
  dsimp only
  by_cases hqos : f.attrib.qos = 1
  · by_cases horder : f.attrib.order = 0 <;> simp [hqos, horder, hds]
  · by_cases horder : f.attrib.order = 0 <;> simp [hqos, horder, hds]

/-- The lengths of IV and ICV are those of the cipher that is set, and the header is as it was. -/
theorem setEncrypt_lens (env : RxEnv) (i : StaId) (f : RecvFrame) :
    (setEncrypt env i f).attrib.ivLen = (setIceIvLen (setEncrypt env i f).attrib.encrypt).1 ∧
      (setEncrypt env i f).attrib.icvLen = (setIceIvLen (setEncrypt env i f).attrib.encrypt).2 ∧
      (setEncrypt env i f).attrib.hdrlen = f.attrib.hdrlen ∧ (setEncrypt env i f).buf = f.buf ∧
      (setEncrypt env i f).rxData = f.rxData ∧ (setEncrypt env i f).rxTail = f.rxTail := by
  unfold setEncrypt
  split <;> exact ⟨rfl, rfl, rfl, rfl, rfl, rfl⟩

/-- A frame with the attributes that validation of a data frame starts from. -/
def readDataHeader (f : RecvFrame) : RecvFrame :=
  { readFrameControl f with attrib := { (readFrameControl f).attrib with
      qos := if getFrameSubType f.mem &&& 0x80 ≠ 0 then 1 else 0 } }

/-- Only a data frame that finds a station is validated. -/
theorem validateRecvFrame_success {env : RecvEnv} {replay : ReplayState}
    {q : StaId → List RecvFrame} {f : RecvFrame}
    (h : (validateRecvFrame env replay q f).ret = .success) :
    getFrameType f.mem = wifiDataType ∧ (dataRoute env.rx (readDataHeader f)).ret = .success ∧
      ∃ i, (validateRecvFrame env replay q f).frame
        = setEncrypt env.rx i (parseQc (dataRoute env.rx (readDataHeader f)).frame) := by
  unfold validateRecvFrame at h ⊢
  split at h
  · cases h
  rename_i hver
  rw [if_neg hver]
  dsimp only at h ⊢
  split at h
  · cases h
  rename_i hmgt
  rw [if_neg hmgt]
  split at h
  · cases h
  rename_i hctrl
  rw [if_neg hctrl]
  split at h
  case isFalse => cases h
  rename_i hdata
  rw [if_pos hdata]
  dsimp only at h ⊢
  obtain ⟨i, hframe, hroute⟩ := validateRecvDataFrame_success h
  exact ⟨hdata, hroute, i, hframe⟩

/-- Validation reads the header only: attributes are set, and the bytes stay. -/
theorem validateRecvFrame_read {env : RecvEnv} {replay : ReplayState}
    {q : StaId → List RecvFrame} {f : RecvFrame}
    (hbuf : f.rxData ≤ f.rxTail ∧ f.rxTail ≤ f.buf.length)
    (h : (validateRecvFrame env replay q f).ret = .success) :
    DataAdmitted (validateRecvFrame env replay q f).frame ∧
      (validateRecvFrame env replay q f).frame.mem = f.mem := by
  obtain ⟨hdata, hroute, i, hframe⟩ := validateRecvFrame_success h
  rw [hframe]
  obtain ⟨⟨dst, src, bssid, ra, ta, hg⟩, hds⟩ := dataRoute_addrs env.rx (readDataHeader f)
  rw [hg]
  have hds : getTofrDs f.mem ≠ 3 := hds hroute
  obtain ⟨hhdr, hbufQ, hrxQ, htailQ⟩ := parseQc_hdrlen { readDataHeader f with attrib :=
    { (readDataHeader f).attrib with
      dst := dst, src := src, bssid := bssid, ra := ra, ta := ta } } hds
  generalize parseQc _ = g at hhdr hbufQ hrxQ htailQ ⊢
  obtain ⟨hiv, hicv, hhdrE, hbufE, hrxE, htailE⟩ := setEncrypt_lens env.rx i g
  have hmem : (setEncrypt env.rx i g).mem = f.mem := by
    unfold RecvFrame.mem
    rw [hbufE, hrxE, hbufQ, hrxQ]
    rfl
  refine ⟨⟨by rw [hmem, hdata], by rw [hmem]; exact hds, ?_, hiv, hicv, ?_⟩, hmem⟩
  · rw [hhdrE, hhdr, hmem]
    dsimp only [readDataHeader, readFrameControl]
    by_cases horder : getOrder f.mem = true <;>
      by_cases hqos : getFrameSubType f.mem &&& 0x80 = 0 <;>
        simp [isQosSubtype, hqos, horder]
  · rw [hbufE, hrxE, htailE, hbufQ, hrxQ, htailQ]
    exact hbuf

/-- **What validation lets through is an admitted frame.** -/
theorem validateRecvFrame_admitted {env : RecvEnv} {replay : ReplayState}
    {q : StaId → List RecvFrame} {f : RecvFrame}
    (hbuf : f.rxData ≤ f.rxTail ∧ f.rxTail ≤ f.buf.length)
    (h : (validateRecvFrame env replay q f).ret = .success) :
    DataAdmitted (validateRecvFrame env replay q f).frame :=
  (validateRecvFrame_read hbuf h).1

end Rtl8723bs
