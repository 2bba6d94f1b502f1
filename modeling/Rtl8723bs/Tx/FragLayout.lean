/-
# Do the encryptors find the fragments?

The encryptors recompute the fragments of a packet from `frag_len`: they take fragments to be
`frag_len` bytes long, while `rtw_xmitframe_coalesce` makes them four bytes shorter, and they look
for the next header at the next multiple of four, while it is `TXDESC_OFFSET` bytes behind that.
So the two agree exactly on packets that need one fragment only (`frag_layout_agrees_iff`).
-/
import Rtl8723bs.Tx.Coalesce

namespace Rtl8723bs

/-! ## 1. Attributes as `update_attrib` makes them -/

/-- What holds of the attributes of a data packet. -/
structure PktAttrib.Sound (a : PktAttrib) (pkt : List UInt8) : Prop where
  hdrlen : a.hdrlen = 24 ∨ a.hdrlen = 26
  pktlen : a.pktlen = (pkt.drop a.pktHdrlen).length
  ivLen : a.ivLen ≤ 8
  ivFull : a.encrypt = encTkip ∨ a.encrypt = encAes → a.ivLen = 8
  icvLen : a.icvLen ≤ 8

theorem attribQos_sound {env : TxEnv} {pkt : List UInt8} {a : PktAttrib} (h : a.Sound pkt) :
    (attribQos env pkt a).Sound pkt := by
  have hset : (setQos pkt a).Sound pkt := ⟨Or.inr rfl, h.pktlen, h.ivLen, h.ivFull, h.icvLen⟩
  unfold attribQos
  split
  · split
    · exact hset
    · exact h
  · split
    · simp only
      split
      · exact ⟨hset.hdrlen, hset.pktlen, hset.ivLen, hset.ivFull, hset.icvLen⟩
      · exact hset
    · exact h

/-- `update_attrib_sec_info` sets the cipher's lengths, and leaves the packet's. -/
theorem updateAttribSecInfo_lens {sec : SecurityPriv} {env : TxEnv} {psta : TxSta}
    {a a' : PktAttrib} {pn : Nat} (h : updateAttribSecInfo sec env psta a = some (a', pn)) :
    a'.pktlen = a.pktlen ∧ a'.ivLen ≤ 8 ∧
      (a'.encrypt = encTkip ∨ a'.encrypt = encAes → a'.ivLen = 8) ∧ a'.icvLen ≤ 8 := by
  obtain ⟨encrypt, keyIdx, a₁, _, hiv, ha'⟩ := updateAttribSecInfo_cases h
  rw [ha']
  rcases secIv_cases hiv with ⟨hwep, rfl, _⟩ | ⟨_, rfl, _⟩ | ⟨_, rfl, _⟩ | ⟨htkip, haes, rfl, _⟩
  · refine ⟨rfl, (by decide : 4 ≤ 8), ?_, (by decide : 4 ≤ 8)⟩
    rcases hwep with hwep | hwep
    · rw [show encrypt = encWep40 from hwep]
      rintro (h | h) <;> cases h
    · rw [show encrypt = encWep104 from hwep]
      rintro (h | h) <;> cases h
  · exact ⟨rfl, (by decide : 8 ≤ 8), fun _ => rfl, (by decide : 4 ≤ 8)⟩
  · exact ⟨rfl, (by decide : 8 ≤ 8), fun _ => rfl, (by decide : 8 ≤ 8)⟩
  · exact ⟨rfl, (by decide : 0 ≤ 8), fun h => (h.elim htkip haes).elim, (by decide : 0 ≤ 8)⟩

/-- **`update_attrib` makes sound attributes.** -/
theorem updateAttrib_sound {sec : SecurityPriv} {t : StaTable} {env : TxEnv}
    {stas stas' : StaId → TxSta} {pkt : List UInt8} {a : PktAttrib}
    (h : updateAttrib sec t env stas pkt = some (a, stas')) : a.Sound pkt := by
  obtain ⟨a₁, i, pn, _, hsec, rfl, _⟩ := updateAttrib_cases h
  obtain ⟨hpkt, hiv, hfull, hicv⟩ := updateAttribSecInfo_lens hsec
  exact attribQos_sound ⟨Or.inl rfl, hpkt, hiv, hfull, hicv⟩

/-- `rtw_make_wlanhdr` writes the sequence number into the attributes, and nothing else. -/
theorem rtwMakeWlanhdr_attrib {t : StaTable} {env : TxEnv} {stas stas' : StaId → TxSta}
    {m m' : Mem} {hdr : Nat} {a a' : PktAttrib}
    (h : rtwMakeWlanhdr t env stas m hdr a = some (m', a', stas')) :
    a' = { a with seqnum := a'.seqnum } := by
  unfold rtwMakeWlanhdr at h
  simp only at h
  split at h
  · cases h
    rfl
  · simp only [Option.bind_eq_bind, Option.bind_eq_some_iff] at h
    obtain ⟨⟨m₁, qos⟩, _, h⟩ := h
    split at h
    · cases h
    · cases h
      rfl

/-! ## 2. The loop -/

theorem length_swIcv (a : PktAttrib) :
    (swIcv a).length = if a.bswenc then a.icvLen else 0 := by
  unfold swIcv
  cases a.bswenc with
  | false => simp
  | true =>
    simp only [and_true, if_true]
    split
    · exact length_readBytes _ _ _
    · simp only [List.length_nil]
      omega

/-- The loop does not look at the sequence number. -/
theorem coalesceLoop_seqnum (a : PktAttrib) (seqnum fragLen B fuel : Nat) :
    ∀ (m : Mem) (memStart i : Nat) (pk : List UInt8),
      coalesceLoop { a with seqnum := seqnum } fragLen B fuel m memStart i pk
        = coalesceLoop a fragLen B fuel m memStart i pk := by
  induction fuel with
  | zero => exact fun _ _ _ _ => rfl
  | succ fuel ih =>
    intro m memStart i pk
    rw [coalesceLoop, coalesceLoop]
    simp only [ih]
    rfl

/-- One round: either it is the last one, or the loop goes on behind this fragment. -/
theorem coalesceLoop_cases {a : PktAttrib} {fragLen B fuel : Nat} {m : Mem} {memStart i : Nat}
    {pk : List UInt8} {l : Laid}
    (h : coalesceLoop a fragLen B (fuel + 1) m memStart i pk = some l) :
    let memSz := (fragData a fragLen i pk).length
    let frag : Frag := ⟨memStart, (fragSnap a i).length + memSz⟩
    ((isMcast a.ra = true ∨ pk.drop memSz = []) ∧ l.frags = [frag] ∧ l.nrFrags = i + 1 ∧
        l.lastTxcmdsz = a.hdrlen + a.ivLen + (if i + 1 = 1 then (fragSnap a i).length else 0) +
          (if a.bswenc then a.icvLen else 0) + memSz ∧
        l.mem = clearMFrag (overwrite (setMFrag m memStart) (memStart + a.hdrlen)
          (fragBody a fragLen i pk)) memStart) ∨
      (isMcast a.ra = false ∧ pk.drop memSz ≠ [] ∧ ∃ (m' : Mem) (next : Nat) (l' : Laid),
        coalesceLoop a fragLen B fuel m' next (i + 1) (pk.drop memSz) = some l' ∧
          l.frags = frag :: l'.frags ∧ l.nrFrags = l'.nrFrags ∧
          l.lastTxcmdsz = l'.lastTxcmdsz) := by
  intro memSz frag
  rw [coalesceLoop] at h
  simp only at h
  split at h
  · rename_i hlast
    cases h
    exact Or.inl ⟨hlast, rfl, rfl, rfl, rfl⟩
  · rename_i hmore
    obtain ⟨l', hl', rfl⟩ := Option.map_eq_some_iff.mp h
    rw [not_or, Bool.not_eq_true] at hmore
    exact Or.inr ⟨hmore.1, hmore.2, _, _, l', hl', rfl, rfl, rfl⟩

/-- The loop counts its fragments. -/
theorem coalesceLoop_nrFrags {a : PktAttrib} {fragLen B : Nat} :
    ∀ {fuel : Nat} {m : Mem} {memStart i : Nat} {pk : List UInt8} {l : Laid},
      coalesceLoop a fragLen B fuel m memStart i pk = some l →
      l.nrFrags = i + l.frags.length ∧ l.frags ≠ []
  | fuel + 1, m, memStart, i, pk, l, h => by
    rcases coalesceLoop_cases h with ⟨_, hfrags, hnr, _⟩ | ⟨_, _, m', next, l', hl', hfrags, hnr, _⟩
    · rw [hfrags, hnr]
      exact ⟨rfl, List.cons_ne_nil _ _⟩
    · obtain ⟨ih, _⟩ := coalesceLoop_nrFrags hl'
      rw [hfrags, hnr, ih, List.length_cons]
      exact ⟨by omega, List.cons_ne_nil _ _⟩

/-- **The loop ends**: every fragment takes at least one byte of the packet. -/
theorem coalesceLoop_isSome {a : PktAttrib} {fragLen B : Nat}
    (hroom : ∀ i, 0 < mpduLen a fragLen i) :
    ∀ {fuel : Nat} {m : Mem} {memStart i : Nat} {pk : List UInt8}, pk.length < fuel →
      (coalesceLoop a fragLen B fuel m memStart i pk).isSome = true
  | fuel + 1, m, memStart, i, pk, h => by
    rw [coalesceLoop]
    simp only
    split
    · rfl
    · rename_i hmore
      rw [not_or, Bool.not_eq_true] at hmore
      rw [Option.isSome_map]
      refine coalesceLoop_isSome hroom ?_
      have hpos := hroom i
      have hne : pk ≠ [] := by
        rintro rfl
        exact hmore.2 List.drop_nil
      have hlen := List.length_pos_iff.mpr hne
      simp only [fragData, hmore.1, List.length_drop, List.length_take, Bool.false_eq_true,
        if_false]
      omega

/-- Does the packet fit one fragment, with its headers, an ICV if there is room kept for one, and
the FCS?  Multicast packets are never cut. -/
def PktAttrib.FitsOne (a : PktAttrib) (fragLen : Nat) : Prop :=
  isMcast a.ra = true ∨
    a.hdrlen + a.ivLen + 8 + a.pktlen + (if a.bswenc then a.icvLen else 0) + 4 ≤ fragLen

instance (a : PktAttrib) (fragLen : Nat) : Decidable (a.FitsOne fragLen) :=
  inferInstanceAs (Decidable (_ ∨ _))

/-- **A packet that fits is laid out as one fragment.** -/
theorem coalesceLoop_one {a : PktAttrib} {fragLen B fuel : Nat} {m : Mem} {memStart : Nat}
    {pk : List UInt8} {l : Laid} (hpktlen : a.pktlen = pk.length) (hfits : a.FitsOne fragLen)
    (h : coalesceLoop a fragLen B (fuel + 1) m memStart 0 pk = some l) :
    l.frags = [⟨memStart, 8 + (fragData a fragLen 0 pk).length⟩] ∧ l.nrFrags = 1 ∧
      l.lastTxcmdsz = a.hdrlen + a.ivLen + 8 + (if a.bswenc then a.icvLen else 0) +
        (fragData a fragLen 0 pk).length ∧
      l.mem = clearMFrag (overwrite (setMFrag m memStart) (memStart + a.hdrlen)
        (fragBody a fragLen 0 pk)) memStart := by
  rcases coalesceLoop_cases h with ⟨_, hf, hnr, hlast, hmem⟩ | ⟨hmc, hmore, _⟩
  · exact ⟨hf, hnr, hlast, hmem⟩
  · -- all of the packet would have been read
    have hicv := length_swIcv a
    have hsnap : (fragSnap a 0).length = 8 := rfl
    rcases hfits with hmc' | hlen
    · rw [hmc] at hmc'
      cases hmc'
    · refine absurd (List.drop_eq_nil_iff.mpr ?_) hmore
      rw [fragData, hmc, List.length_take]
      simp only [Bool.false_eq_true, if_false, mpduLen]
      omega

/-- A packet that does not fit is laid out as several, and the first of them is full. -/
theorem coalesceLoop_more {a : PktAttrib} {fragLen B fuel : Nat} {m : Mem} {memStart : Nat}
    {pk pkt : List UInt8} {l : Laid} (ha : a.Sound pkt) (hpktlen : a.pktlen = pk.length)
    (hfrag : 256 ≤ fragLen) (hmore : ¬ a.FitsOne fragLen)
    (h : coalesceLoop a fragLen B (fuel + 1) m memStart 0 pk = some l) :
    ∃ f fs, l.frags = f :: fs ∧ fs ≠ [] ∧ l.nrFrags = 1 + fs.length ∧
      f.len + (if a.bswenc then a.icvLen else 0) + a.ivLen + a.hdrlen + 4 = fragLen := by
  have hhdrlen := ha.hdrlen
  have hivLen := ha.ivLen
  have hicvLen := ha.icvLen
  have hicv := length_swIcv a
  have hsnap : (fragSnap a 0).length = 8 := rfl
  have hicvLe : (if a.bswenc then a.icvLen else 0) ≤ 8 := by
    split
    · exact hicvLen
    · exact Nat.zero_le 8
  obtain ⟨hmc, hlong⟩ := not_or.mp hmore
  rw [Bool.not_eq_true] at hmc
  have hdata : (fragData a fragLen 0 pk).length = mpduLen a fragLen 0 := by
    rw [fragData, hmc, List.length_take]
    simp only [Bool.false_eq_true, if_false, mpduLen]
    omega
  rcases coalesceLoop_cases h with ⟨hend, _⟩ | ⟨_, _, m', next, l', hl', hf, hnr, _⟩
  · refine absurd hend ?_
    rw [hmc, List.drop_eq_nil_iff, hdata, mpduLen]
    rintro (hmc' | hall)
    · cases hmc'
    · omega
  · obtain ⟨hcount, hne⟩ := coalesceLoop_nrFrags hl'
    refine ⟨_, _, hf, hne, hnr.trans hcount, ?_⟩
    simp only
    rw [hdata, mpduLen]
    omega

/-! ## 3. Agreement -/

/-- Header and payload length of each fragment; the MIC of a TKIP packet is payload of the last
one. -/
def layout (micLen : Nat) : List Frag → List (Nat × Nat)
  | [] => []
  | [f] => [(f.hdr, f.len + micLen)]
  | f :: g :: fs => (f.hdr, f.len) :: layout micLen (g :: fs)

def micLen (a : PktAttrib) : Nat := if a.encrypt = encTkip then 8 else 0

/-- The loop of `xmitframe_addmic` ends behind header and IV of the only fragment. -/
theorem addmicLoop_stop {a : PktAttrib} (fragLen : Nat) (m : Mem) (pframe : Nat)
    (h : a.nrFrags = 1) :
    pframe + a.hdrlen + a.ivLen ≤ (addmicLoop a fragLen m a.nrFrags 0 pframe).2 := by
  have hle := le_rnd4 pframe
  rw [h]
  simp only [addmicLoop, h, Nat.zero_add, if_true]
  omega

/-- `xmitframe_addmic` writes a MIC behind the last fragment it finds, under TKIP only. -/
theorem xmitframeAddmic_cases {c : SwCrypto} {sec : SecurityPriv} {fragLen bufAddr : Nat}
    {m m' : Mem} {a a' : PktAttrib}
    (h : xmitframeAddmic c sec fragLen bufAddr m a = some (m', a')) :
    a' = { a with lastTxcmdsz := a.lastTxcmdsz + micLen a } ∧
      (m' = m ∨ ∃ mic stop, m' = overwrite m stop mic ∧
        (a.nrFrags = 1 → bufAddr + txdescOffset + a.hdrlen + a.ivLen ≤ stop)) := by
  unfold xmitframeAddmic at h
  unfold micLen
  split at h
  · rename_i hne
    cases h
    rw [if_neg hne]
    exact ⟨rfl, Or.inl rfl⟩
  · rename_i htkip
    split at h
    · cases h
    · cases h
      rw [if_pos (not_not.mp htkip)]
      exact ⟨rfl, Or.inr ⟨_, _, rfl, addmicLoop_stop fragLen m _⟩⟩

/-- What `rtw_xmitframe_coalesce` did, when it returned `_SUCCESS`, step by step. -/
theorem rtwXmitframeCoalesce_parts {c : SwCrypto} {sec : SecurityPriv} {t : StaTable}
    {env : TxEnv} {stas : StaId → TxSta} {fragLen bufAddr : Nat} {m : Mem} {pkt : List UInt8}
    {a : PktAttrib} {r : Coalesced}
    (h : rtwXmitframeCoalesce c sec t env stas fragLen bufAddr m pkt a = some r) :
    ∃ m₁ a₁ laid,
      rtwMakeWlanhdr t env stas m (bufAddr + txdescOffset) a = some (m₁, a₁, r.stas) ∧
        coalesceLoop a fragLen bufAddr ((pkt.drop a.pktHdrlen).length + 1) m₁
          (bufAddr + txdescOffset) 0 (pkt.drop a.pktHdrlen) = some laid ∧
        r.frags = laid.frags ∧
        xmitframeAddmic c sec fragLen bufAddr laid.mem
            { a with seqnum := a₁.seqnum, nrFrags := laid.nrFrags, lastTxcmdsz := laid.lastTxcmdsz }
          = some (r.handed, r.attrib) ∧
        r.mem = xmitframeSwencrypt c sec r.attrib fragLen bufAddr r.handed := by
  unfold rtwXmitframeCoalesce at h
  split at h
  · cases h
  · simp only [Option.bind_eq_bind, Option.bind_eq_some_iff] at h
    obtain ⟨⟨m₁, a₁, stas₁⟩, hhdr, laid, hloop, ⟨m₂, a₂⟩, hmic, hres⟩ := h
    cases hres
    rw [rtwMakeWlanhdr_attrib hhdr] at hloop hmic
    rw [coalesceLoop_seqnum] at hloop
    exact ⟨m₁, a₁, laid, hhdr, hloop, rfl, hmic, rfl⟩

/-- The same without the header and the encryption. -/
theorem rtwXmitframeCoalesce_cases {c : SwCrypto} {sec : SecurityPriv} {t : StaTable}
    {env : TxEnv} {stas : StaId → TxSta} {fragLen bufAddr : Nat} {m : Mem} {pkt : List UInt8}
    {a : PktAttrib} {r : Coalesced}
    (h : rtwXmitframeCoalesce c sec t env stas fragLen bufAddr m pkt a = some r) :
    ∃ m₁ seqnum laid,
      coalesceLoop a fragLen bufAddr ((pkt.drop a.pktHdrlen).length + 1) m₁
          (bufAddr + txdescOffset) 0 (pkt.drop a.pktHdrlen) = some laid ∧
        r.frags = laid.frags ∧
        xmitframeAddmic c sec fragLen bufAddr laid.mem
            { a with seqnum := seqnum, nrFrags := laid.nrFrags, lastTxcmdsz := laid.lastTxcmdsz }
          = some (r.handed, r.attrib) := by
  obtain ⟨m₁, a₁, laid, _, hloop, hfrags, hmic, _⟩ := rtwXmitframeCoalesce_parts h
  exact ⟨m₁, a₁.seqnum, laid, hloop, hfrags, hmic⟩

/-- One fragment: the loop visits it once, with the length of the last one. -/
theorem encryptVisits_one {a : PktAttrib} (fragLen bufAddr : Nat) (h : a.nrFrags = 1) :
    encryptVisits a fragLen bufAddr
      = [(bufAddr + txdescOffset, a.lastTxcmdsz - a.hdrlen - a.ivLen - a.icvLen)] := by
  unfold encryptVisits
  rw [h, fragVisits, h, if_pos rfl, fragVisits]

/-- More than one: the first is taken to be `frag_len` bytes long. -/
theorem encryptVisits_more {a : PktAttrib} (fragLen bufAddr : Nat) (h : 2 ≤ a.nrFrags) :
    ∃ vs, encryptVisits a fragLen bufAddr
      = (bufAddr + txdescOffset, fragLen - a.hdrlen - a.ivLen - a.icvLen) :: vs := by
  obtain ⟨n, hn⟩ := Nat.exists_eq_add_of_le h
  unfold encryptVisits
  rw [hn, Nat.add_comm 2 n, fragVisits, if_neg (by omega)]
  exact ⟨_, rfl⟩

theorem layout_cons {micLen : Nat} {f : Frag} {fs : List Frag} (h : fs ≠ []) :
    layout micLen (f :: fs) = (f.hdr, f.len) :: layout micLen fs := by
  cases fs with
  | nil => exact absurd rfl h
  | cons g gs => rfl

/-- **The encryptors find the fragments of a packet exactly when it fits one fragment.** -/
theorem frag_layout_agrees_iff (c : SwCrypto) (sec : SecurityPriv) (t : StaTable) (env : TxEnv)
    (stas : StaId → TxSta) {fragLen : Nat} (bufAddr : Nat) (m : Mem) {pkt : List UInt8}
    {a : PktAttrib} {r : Coalesced} (ha : a.Sound pkt) (hsw : a.bswenc = true)
    (hfrag : 256 ≤ fragLen)
    (hr : rtwXmitframeCoalesce c sec t env stas fragLen bufAddr m pkt a = some r) :
    encryptVisits r.attrib fragLen bufAddr = layout (micLen a) r.frags ↔ a.FitsOne fragLen := by
  obtain ⟨m₁, seqnum, laid, hloop, hfrags, hmic⟩ := rtwXmitframeCoalesce_cases hr
  obtain ⟨hattr, _⟩ := xmitframeAddmic_cases hmic
  have hnrA : r.attrib.nrFrags = laid.nrFrags := by rw [hattr]
  have hlens : r.attrib.hdrlen = a.hdrlen ∧ r.attrib.ivLen = a.ivLen ∧
      r.attrib.icvLen = a.icvLen := by
    rw [hattr]
    exact ⟨rfl, rfl, rfl⟩
  have hlastA : r.attrib.lastTxcmdsz = laid.lastTxcmdsz + micLen a := by
    rw [hattr]
    rfl
  by_cases hfits : a.FitsOne fragLen
  · refine iff_of_true ?_ hfits
    obtain ⟨hf, hnr, hlast, _⟩ := coalesceLoop_one ha.pktlen hfits hloop
    rw [hsw, if_pos rfl] at hlast
    rw [encryptVisits_one _ _ (hnrA.trans hnr), hlastA, hlens.1, hlens.2.1, hlens.2.2, hlast,
      hfrags, hf]
    simp only [layout, List.cons.injEq, Prod.mk.injEq, and_true, true_and]
    omega
  · -- the first fragment is four bytes shorter than the encryptors take it to be
    refine iff_of_false ?_ hfits
    obtain ⟨f, fs, hf, hne, hnr, hlen⟩ := coalesceLoop_more ha ha.pktlen hfrag hfits hloop
    have hpos := List.length_pos_iff.mpr hne
    obtain ⟨vs, hvs⟩ := encryptVisits_more (a := r.attrib) fragLen bufAddr (by omega)
    rw [hsw, if_pos rfl] at hlen
    rw [hvs, hlens.1, hlens.2.1, hlens.2.2, hfrags, hf, layout_cons hne, List.cons.injEq,
      Prod.mk.injEq]
    rintro ⟨⟨-, hvisit⟩, -⟩
    omega

/-- Software AES under 802.1X. -/
def swAesSec : SecurityPriv where
  dot11AuthAlgrthm := .x8021
  dot11PrivacyAlgrthm := encAes
  dot11PrivacyKeyIndex := 0
  dot11DefKey := []
  dot118021XGrpPrivacy := encAes
  dot118021XGrpKeyid := 1
  dot118021XGrpKey := []
  dot118021XGrptxmickey := []
  busetkipkey := true
  swEncrypt := true
  hwDecrypted := true
  staPkGkConflict := false

def peerAddr : MacAddr := ⟨0x00, 0x11, 0x22, 0x33, 0x44, 0x55⟩

/-- A station associated with one AP. -/
def staEnv : TxEnv where
  adapter := ⟨false, false, wifiStationState ||| wifiAsocState, ⟨2, 0, 0, 0, 0, 1⟩, peerAddr⟩
  qosOption := false
  acmMask := 0

def peerTable : StaTable := ⟨[(peerAddr, 0)], by decide⟩

/-- The AP's entry, with a packet number to start from. -/
def peerSta (pn : Nat) : TxSta where
  fwLinked := true
  ieee8021xBlocked := false
  qosOption := false
  dot118021XPrivacy := encAes
  dot118021xUncstKey := []
  dot11tkiptxmickey := []
  dot11txpn := pn
  txseqTid := fun _ => 0

/-- An Ethernet packet of `n` bytes behind its header. -/
def ethPkt (n : Nat) : List UInt8 := List.replicate (14 + n) 0

/-- The attributes of a packet of `n` bytes to the AP. -/
def aesAttrib (n : Nat) : PktAttrib :=
  { initAttrib with
    ra := peerAddr
    subtype := wifiDataType
    hdrlen := 24
    pktHdrlen := 14
    pktlen := n
    encrypt := encAes
    bswenc := true
    ivLen := 8
    icvLen := 8 }

/-- Ciphers that leave their input as it is. -/
def plainCrypto : SwCrypto := ⟨fun _ => id, fun _ => id, fun _ => [], fun _ _ _ => [], fun _ _ => []⟩

/-- `rtw_xmitframe_coalesce` of a packet of `n` bytes, with `frag_len` 256. -/
def coalesceAes (n : Nat) : Option Coalesced :=
  rtwXmitframeCoalesce plainCrypto swAesSec peerTable staEnv (fun _ => peerSta 1) 256 4096
    (fun _ => 0) (ethPkt n) (aesAttrib n)

theorem aesAttrib_sound (n : Nat) : (aesAttrib n).Sound (ethPkt n) where
  hdrlen := Or.inl rfl
  pktlen := by
    simp only [aesAttrib, ethPkt, List.drop_replicate, List.length_replicate]
    omega
  ivLen := (by decide : 8 ≤ 8)
  ivFull := fun _ => rfl
  icvLen := (by decide : 8 ≤ 8)

theorem frag_layout_agrees_at_204 :
    ∃ r, coalesceAes 204 = some r ∧ (aesAttrib 204).FitsOne 256 ∧
      encryptVisits r.attrib 256 4096 = layout (micLen (aesAttrib 204)) r.frags := by
  have hsome : (coalesceAes 204).isSome = true := by decide +kernel
  obtain ⟨r, hr⟩ := Option.isSome_iff_exists.mp hsome
  have hfits : (aesAttrib 204).FitsOne 256 := Or.inr (by decide)
  exact ⟨r, hr, hfits, (frag_layout_agrees_iff _ _ _ _ _ _ _ (aesAttrib_sound 204) rfl
    (by decide) hr).mpr hfits⟩

/-- 300 bytes need two fragments.  The first header is found, with four bytes too many to
encrypt; the second lies 36 bytes behind the place where it is looked for. -/
theorem frag_layout_differs_at_300 :
    ∃ r, coalesceAes 300 = some r ∧
      encryptVisits r.attrib 256 4096 = [(4136, 216), (4392, 96)] ∧
      layout (micLen (aesAttrib 300)) r.frags = [(4136, 212), (4428, 96)] ∧
      encryptVisits r.attrib 256 4096 ≠ layout (micLen (aesAttrib 300)) r.frags := by
  have hrun : (coalesceAes 300).map (fun r => (encryptVisits r.attrib 256 4096,
      layout (micLen (aesAttrib 300)) r.frags))
      = some ([(4136, 216), (4392, 96)], [(4136, 212), (4428, 96)]) := by decide +kernel
  obtain ⟨r, hr, hres⟩ := Option.map_eq_some_iff.mp hrun
  obtain ⟨hvisits, hlayout⟩ := Prod.mk.inj hres
  refine ⟨r, hr, hvisits, hlayout, ?_⟩
  rw [hvisits, hlayout]
  decide

end Rtl8723bs
