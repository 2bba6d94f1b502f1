/-
# Does the receiver's Michael agree with the sender's?

`xmitframe_addmic` feeds destination, source and priority and then the fragments, which it finds
again by its own arithmetic; `recvframe_chkmic` feeds the same from the header and the reassembled
packet.  The state of Michael does not care for the pieces, so the two codes are equal when the
bytes are.  They are for a packet in one fragment, unless a station's QoS header and the QoS flag
of its access point's entry differ; from two fragments on the sender feeds four bytes too many for
each but the last (`mic_agrees_iff`). -/
import Rtl8723bs.Lib.Bytes
import Rtl8723bs.Security.Michael
import Rtl8723bs.Rx.SnapRoundTrip

namespace Rtl8723bs

/-! ## 1. What the sender feeds -/

/-- The pieces in the loop of `xmitframe_addmic`. -/
def addmicPieces (a : PktAttrib) (fragLen : Nat) (m : Mem) : Nat → Nat → Nat → List (List UInt8)
  | 0, _, _ => []
  | k + 1, curfragnum, payload =>
    let payload := rnd4 payload + a.hdrlen + a.ivLen
    let icv := if a.bswenc then a.icvLen else 0
    if curfragnum + 1 = a.nrFrags then
      let length := a.lastTxcmdsz - a.hdrlen - a.ivLen - icv
      readBytes m payload length :: addmicPieces a fragLen m k (curfragnum + 1) (payload + length)
    else
      let length := fragLen - a.hdrlen - a.ivLen - icv
      readBytes m payload length ::
        addmicPieces a fragLen m k (curfragnum + 1) (payload + length + a.icvLen)

/-- The code that `xmitframe_addmic` computes, call by call. -/
def addmicMic (key : List UInt8) (a : PktAttrib) (fragLen : Nat) (m : Mem) (pframe : Nat) :
    List UInt8 :=
  let header : Mem := fun i => m (pframe + i)
  let d := rtwSecmicsetkey key
  let d := rtwSecmicappend d (readBytes m (pframe + micDa header) 6)
  let d := rtwSecmicappend d (readBytes m (pframe + micSa header) 6)
  let d := rtwSecmicappend d [if a.qosEn then UInt8.ofNat a.priority else 0, 0, 0, 0]
  let d := (addmicPieces a fragLen m a.nrFrags 0 pframe).foldl rtwSecmicappend d
  (rtwSecgetmic d).1

/-- All that is fed, in order. -/
def addmicBytes (a : PktAttrib) (fragLen : Nat) (m : Mem) (pframe : Nat) : List UInt8 :=
  micHeader m pframe a ++ (addmicLoop a fragLen m a.nrFrags 0 pframe).1

section Fed

variable {a : PktAttrib} {fragLen : Nat} {m : Mem} {pframe : Nat}

theorem addmicPieces_flatten (a : PktAttrib) (fragLen : Nat) (m : Mem) :
    ∀ (k curfragnum payload : Nat), (addmicPieces a fragLen m k curfragnum payload).flatten
      = (addmicLoop a fragLen m k curfragnum payload).1
  | 0, _, _ => rfl
  | k + 1, curfragnum, payload => by
    rw [addmicPieces, addmicLoop]
    dsimp only
    split
    · rw [List.flatten_cons, addmicPieces_flatten]
    · rw [List.flatten_cons, addmicPieces_flatten]

/-- The addresses are found in the same way on both sides. -/
theorem micHeader_eq (a : PktAttrib) (m : Mem) (pframe : Nat) :
    micHeader m pframe a = readBytes m (pframe + micDa fun i => m (pframe + i)) 6 ++
      readBytes m (pframe + micSa fun i => m (pframe + i)) 6 ++
        [if a.qosEn then UInt8.ofNat a.priority else 0, 0, 0, 0] := by
  unfold micHeader micDa micSa
  dsimp only
  split_ifs <;> rfl

/-- **The sender's code is that of the bytes it feeds**, in whatever pieces. -/
theorem addmicMic_eq (key : List UInt8) (a : PktAttrib) (fragLen : Nat) (m : Mem) (pframe : Nat) :
    addmicMic key a fragLen m pframe = michael key (addmicBytes a fragLen m pframe) := by
  unfold addmicMic addmicBytes michael
  dsimp only
  rw [micHeader_eq, rtwSecmicappend_flatten, addmicPieces_flatten, rtwSecmicappend_append,
    rtwSecmicappend_append, rtwSecmicappend_append, List.append_assoc, List.append_assoc]

/-- How much the loop feeds. -/
theorem addmicLoop_length : ∀ {k curfragnum payload : Nat}, curfragnum + (k + 1) = a.nrFrags →
    (addmicLoop a fragLen m (k + 1) curfragnum payload).1.length
      = k * (fragLen - a.hdrlen - a.ivLen - if a.bswenc then a.icvLen else 0) +
        (a.lastTxcmdsz - a.hdrlen - a.ivLen - if a.bswenc then a.icvLen else 0)
  | 0, curfragnum, payload, h => by
    simp only [addmicLoop, h, if_true, List.append_nil, length_readBytes, Nat.zero_mul,
      Nat.zero_add]
  | k + 1, curfragnum, payload, h => by
    rw [addmicLoop]
    dsimp only
    rw [if_neg (by omega), List.length_append, length_readBytes,
      addmicLoop_length (show curfragnum + 1 + (k + 1) = a.nrFrags by omega), Nat.succ_mul]
    omega

end Fed

/-! ## 2. What the receiver feeds -/

/-- The priority a header gives a frame. -/
def rxPriority (header : Mem) : Nat := if isQosSubtype header then getPriority header 24 else 0

/-- All that `rtw_seccalctkipmic` feeds for a header and a packet. -/
def chkmicBytes (header : Mem) (pri : Nat) (msdu : List UInt8) : List UInt8 :=
  readBytes header (micDa header) 6 ++ readBytes header (micSa header) 6 ++
    [UInt8.ofNat pri, 0, 0, 0] ++ msdu

/-- `rtw_seccalctkipmic` as `recvframe_chkmic` calls it. -/
def chkmicCalc (key : List UInt8) (m : Mem) (off datalen pri : Nat) : List UInt8 :=
  rtwSeccalctkipmic key m (readBytes m off datalen) (UInt8.ofNat pri)

/-- Validation takes the priority from the QoS field. -/
theorem validateRecvFrame_priority {env : RecvEnv} {replay : ReplayState}
    {q : StaId → List RecvFrame} {f : RecvFrame}
    (h : (validateRecvFrame env replay q f).ret = .success) :
    (validateRecvFrame env replay q f).frame.attrib.priority = rxPriority f.mem := by
  obtain ⟨-, -, i, hframe⟩ := validateRecvFrame_success h
  have henc : ∀ g, (setEncrypt env.rx i g).attrib.priority = g.attrib.priority := by
    intro g
    unfold setEncrypt
    split <;> rfl
  have hqc : ∀ g, (parseQc g).attrib.priority
      = if g.attrib.qos = 1 then getPriority g.mem 24 else 0 := by
    intro g
    unfold parseQc
    dsimp only
    split_ifs <;> rfl
  obtain ⟨⟨dst, src, bssid, ra, ta, hroute⟩, -⟩ := dataRoute_addrs env.rx (readDataHeader f)
  rw [hframe, henc, hqc, hroute]
  unfold rxPriority isQosSubtype readDataHeader
  dsimp only
  by_cases hbit : getFrameSubType f.mem &&& 0x80 = 0
  · simp [hbit]
  · simp only [hbit, ne_eq, not_false_eq_true, if_true, decide_true]
    rfl

/-! ## 3. What is asked -/

/-- A packet behind its LLC header. -/
def packetMsdu (a : PktAttrib) (pkt : List UInt8) : List UInt8 :=
  rtwPutSnap a.etherType ++ pkt.drop 14

/-- The bodies of the fragments on the air, the MIC behind the last. -/
def airBody (a : PktAttrib) (handed : Mem) (frags : List Frag) : List UInt8 :=
  (layout 8 frags).flatMap fun v => readBytes handed (v.1 + a.hdrlen + a.ivLen) v.2

/-- **A TKIP packet at the receiver**, before its MIC is checked: `g` is the first fragment as it
arrives, and `f` the frame after decryption and reassembly. -/
structure MicArrived (env : RecvEnv) (replay : ReplayState) (q : StaId → List RecvFrame)
    (a : PktAttrib) (handed : Mem) (bufAddr : Nat) (frags : List Frag) (g f : RecvFrame) :
    Prop where
  header : ∀ i < a.hdrlen, g.mem i = handed (bufAddr + txdescOffset + i)
  received : g.rxData ≤ g.rxTail ∧ g.rxTail ≤ g.buf.length
  validated : (validateRecvFrame env replay q g).ret = .success
  attrib : f.attrib = { (validateRecvFrame env replay q g).frame.attrib with
    bdecrypted := f.attrib.bdecrypted, keyIndex := f.attrib.keyIndex }
  cipher : f.attrib.encrypt = encTkip
  kept : ∀ i < a.hdrlen, f.mem i = g.mem i
  room : f.len < 2 ^ 32
  len : f.len = a.hdrlen + a.ivLen + (airBody a handed frags).length + f.attrib.icvLen
  body : readBytes f.mem (a.hdrlen + a.ivLen) (airBody a handed frags).length
    = airBody a handed frags

/-- The receiver has the sender's MIC key. -/
structure SameMicKey (env : RecvEnv) (sec : SecurityPriv) (a : PktAttrib) (f : RecvFrame) :
    Prop where
  installed : isMcast f.attrib.ra = true → env.mic.binstallGrpkey = true
  key : ∀ i, rtwGetStainfo env.rx.stas f.attrib.ta = some i →
    (if isMcast f.attrib.ra then env.mic.grpRxMicKey f.attrib.keyIndex else env.mic.tkipRxMicKey i)
      = txMicKey sec a

/-- **Both sides agree on the MIC** of a packet that lies in the buffer as `l`: they feed the same
bytes, so for every key they come to the same code, and the receiver accepts the packet. -/
structure MicAgrees (a : PktAttrib) (fragLen bufAddr : Nat) (pkt : List UInt8) (l : Laid) :
    Prop where
  bytes : addmicBytes a fragLen l.mem (bufAddr + txdescOffset) =
    chkmicBytes (fun i => l.mem (bufAddr + txdescOffset + i))
      (rxPriority fun i => l.mem (bufAddr + txdescOffset + i)) (packetMsdu a pkt)
  code : ∀ key, addmicMic key a fragLen l.mem (bufAddr + txdescOffset) =
    rtwSeccalctkipmic key (fun i => l.mem (bufAddr + txdescOffset + i)) (packetMsdu a pkt)
      (UInt8.ofNat (rxPriority fun i => l.mem (bufAddr + txdescOffset + i)))
  accepted : ∀ (c : SwCrypto) (sec : SecurityPriv) (handed : Mem) (a' : PktAttrib) (env : RecvEnv)
    (replay : ReplayState) (q : StaId → List RecvFrame) (g f : RecvFrame),
    c.michael = michael → env.mic.seccalctkipmic = chkmicCalc →
    xmitframeAddmic c sec fragLen bufAddr l.mem a = some (handed, a') →
    MicArrived env replay q a handed bufAddr l.frags g f → SameMicKey env sec a f →
    (recvframeChkmic env.mic env.rx.stas f).1 = .success

/-- Does a station's header carry the priority that is authenticated?  The header has a QoS field by
`qospriv.qos_option`, and the MIC by the `qos_option` of the access point's entry. -/
def QosAgrees (env : TxEnv) (a : PktAttrib) : Prop :=
  checkFwstate env.adapter wifiStationState = true → env.qosOption = a.qosEn ∨ a.priority = 0

instance (env : TxEnv) (a : PktAttrib) : Decidable (QosAgrees env a) :=
  inferInstanceAs (Decidable (_ → _))

/-! ## 4. Sizes -/

section Sizes

variable {a : PktAttrib} {fragLen B : Nat}

/-- All fragments but the last are four bytes shorter than `frag_len` says. -/
theorem coalesceLoop_lens : ∀ {fuel : Nat} {m : Mem} {memStart i : Nat} {pk : List UInt8}
    {l : Laid},
    coalesceLoop a fragLen B fuel m memStart i pk = some l →
    (∀ i, a.hdrlen + a.ivLen + (fragSnap a i).length + (swIcv a).length + 4 ≤ fragLen) →
    ∃ f, l.frags.getLast? = some f ∧ (l.frags.map (·.len)).sum ≤
      (l.frags.length - 1) * (fragLen - 4 - a.hdrlen - a.ivLen - (swIcv a).length) + f.len
  | 0, _, _, _, _, _, h, _ => by cases h
  | fuel + 1, m, memStart, i, pk, l, h, hroom => by
    rcases coalesceLoop_round h with ⟨-, -, hfrags, -⟩ | ⟨hmc, l', hl', rfl⟩
    · rw [hfrags]
      exact ⟨_, rfl, by simp⟩
    · obtain ⟨f, hlast, hsum⟩ := coalesceLoop_lens hl' hroom
      have hne : l'.frags ≠ [] := (coalesceLoop_nrFrags hl').2
      have hpos := List.length_pos_iff.mpr hne
      have hlen : (roundFrag a fragLen memStart i pk).len
          ≤ fragLen - 4 - a.hdrlen - a.ivLen - (swIcv a).length := by
        have hspace := hroom i
        have hdata : (fragData a fragLen i pk).length ≤ mpduLen a fragLen i := by
          unfold fragData
          rw [hmc, if_neg Bool.false_ne_true, List.length_take]
          exact Nat.min_le_left _ _
        unfold mpduLen at hdata
        change (fragSnap a i).length + (fragData a fragLen i pk).length ≤ _
        omega
      refine ⟨f, ?_, ?_⟩
      · dsimp only
        rw [List.getLast?_cons, hlast]
        rfl
      · dsimp only
        rw [List.map_cons, List.sum_cons, List.length_cons, Nat.add_sub_cancel]
        obtain ⟨n, hn⟩ : ∃ n, l'.frags.length = n + 1 := ⟨l'.frags.length - 1, by omega⟩
        rw [hn, Nat.add_sub_cancel] at hsum
        rw [hn, Nat.succ_mul]
        omega

/-- The lengths of the fragments are those of the packet. -/
theorem length_bodies (m : Mem) (frags : List Frag) :
    (frags.flatMap (·.body a m)).length = (frags.map (·.len)).sum := by
  induction frags with
  | nil => rfl
  | cons f fs ih =>
    rw [List.flatMap_cons, List.length_append, ih, List.map_cons, List.sum_cons, Frag.body,
      length_readBytes]

end Sizes

/-! ## 5. The bytes -/

section Bytes

variable {sec : SecurityPriv} {t : StaTable} {env : TxEnv} {stas stas₁ stas₂ : StaId → TxSta}
  {pkt : List UInt8} {a a₁ : PktAttrib} {fragLen bufAddr : Nat} {m m₁ : Mem} {laid : Laid}

/-- A user priority has three bits. -/
theorem updateAttrib_priority_lt (h : updateAttrib sec t env stas pkt = some (a, stas₁)) :
    a.priority < 8 := by
  obtain ⟨a₁, i, pn, _, _, rfl, _⟩ := updateAttrib_cases h
  have hset : ∀ a₀, (setQos pkt a₀).priority < 8 := by
    intro a₀
    unfold setQos
    dsimp only
    split
    · have := (pkt.getD (ethHlen + 1) 0).toNat_lt
      omega
    · exact (by decide : 0 < 8)
  have hacm : ∀ mask p, p < 8 → qosAcm mask p < 8 := by
    intro mask p hp
    unfold qosAcm
    split <;> first | omega | (split <;> omega)
  have hstart : (attribHdr i (stas i) a₁).priority < 8 := (by decide : 0 < 8)
  unfold attribQos
  split_ifs
  · exact hset _
  · exact hstart
  · exact hacm _ _ (hset _)
  · exact hset _
  · exact hstart

/-- **The priority the receiver reads** in the first header. -/
theorem rxPriority_laid (ha : updateAttrib sec t env stas pkt = some (a, stas₁))
    (hhdr : rtwMakeWlanhdr t env stas₁ m (bufAddr + txdescOffset) a = some (m₁, a₁, stas₂))
    (hlaid : coalesceLoop a fragLen bufAddr ((pkt.drop 14).length + 1) m₁
      (bufAddr + txdescOffset) 0 (pkt.drop 14) = some laid) :
    HeaderSays env.adapter a (fun i => laid.mem (bufAddr + txdescOffset + i)) 0 ∧
      (rxPriority fun i => laid.mem (bufAddr + txdescOffset + i))
        = if wlanQos env a then a.priority else 0 := by
  have hkind := (updateAttrib_built ha).kind
  have hhdrlen := (updateAttrib_built ha).hdrlen
  have hsub : a.subtype = wifiDataType ∨ a.subtype = wifiQosDataType :=
    hkind.imp (fun h => h.2) fun h => h.2
  have hpri := updateAttrib_priority_lt ha
  have htold : HeaderSays env.adapter a (fun i => laid.mem (bufAddr + txdescOffset + i)) 0 :=
    (coalesceLoop_told hhdrlen hlaid (rtwMakeWlanhdr_told hhdrlen hsub hhdr)).congr
      (fun k _ _ => rfl) fun i _ _ => congrArg laid.mem (congrArg (_ + ·) (Nat.zero_add i))
  refine ⟨htold, ?_⟩
  obtain ⟨-, -, -, hqos⟩ := htold.read hsub
  unfold rxPriority isQosSubtype
  rcases hkind with ⟨hlen, hkind⟩ | ⟨hlen, hkind⟩
  · have hzero := updateAttrib_priority ha hlen
    rw [if_neg (by rw [decide_eq_true_iff, hqos, hkind]; decide), hzero, ite_self]
  · rw [if_pos (by rw [decide_eq_true_iff, hqos, hkind])]
    have hmade := rtwMakeWlanhdr_priority hlen hkind hhdr
    rw [Nat.mod_eq_of_lt (show a.priority < 16 by omega)] at hmade
    rw [← hmade]
    exact congrArg (· % 16) (le16_congr (coalesceLoop_header hlaid (by omega) (by omega))
      (coalesceLoop_header hlaid (by omega) (by omega)))

/-- A packet in one fragment is fed as it is. -/
theorem addmicLoop_fits (hword : bufAddr % 4 = 0) (hbuilt : a.Built pkt)
    (hpktHdr : a.pktHdrlen = 14)
    (hfits : a.FitsOne fragLen)
    (hlaid : coalesceLoop a fragLen bufAddr ((pkt.drop 14).length + 1) m₁
      (bufAddr + txdescOffset) 0 (pkt.drop 14) = some laid) :
    laid.nrFrags = 1 ∧ laid.frags = [⟨bufAddr + txdescOffset, (packetMsdu a pkt).length⟩] ∧
      let a' := { a with nrFrags := laid.nrFrags, lastTxcmdsz := laid.lastTxcmdsz }
      addmicLoop a' fragLen laid.mem a'.nrFrags 0 (bufAddr + txdescOffset) = (packetMsdu a pkt,
        bufAddr + txdescOffset + a.hdrlen + a.ivLen + (packetMsdu a pkt).length) := by
  have hhdr := hbuilt.hdrlen
  have hpk := hbuilt.pktlen
  rw [hpktHdr] at hpk
  obtain ⟨hfrags, hnr, hlast, -⟩ := coalesceLoop_one hpk hfits hlaid
  have hbodies : laid.frags.flatMap (·.body a laid.mem) = packetMsdu a pkt :=
    (coalesceLoop_laid (by omega) (fun _ => Nat.le_of_eq hpk.symm) (.inl rfl) rfl hlaid).bodies
  have hlen : 8 + (fragData a fragLen 0 (pkt.drop 14)).length = (packetMsdu a pkt).length := by
    rw [← hbodies, length_bodies, hfrags]
    rfl
  refine ⟨hnr, by rw [hfrags, hlen], ?_⟩
  have hsize : laid.lastTxcmdsz - a.hdrlen - a.ivLen - (if a.bswenc then a.icvLen else 0)
      = (packetMsdu a pkt).length := by
    rw [← hlen, hlast]
    omega
  have hrnd : rnd4 (bufAddr + txdescOffset) = bufAddr + txdescOffset := by
    unfold rnd4 txdescOffset
    rw [if_pos (by omega)]
    omega
  dsimp only
  rw [hnr]
  simp only [addmicLoop, Nat.zero_add, if_true, hrnd, hsize, List.append_nil]
  refine Prod.ext ?_ rfl
  dsimp only
  rw [hfrags, hlen, List.flatMap_cons, List.flatMap_nil, List.append_nil] at hbodies
  exact hbodies

/-- **A packet in several fragments is fed with four bytes too many for each but the last.** -/
theorem addmicLoop_cut (hbuilt : a.Built pkt) (hpktHdr : a.pktHdrlen = 14)
    (hfrag : 256 ≤ fragLen) (hmore : ¬ a.FitsOne fragLen)
    (hlaid : coalesceLoop a fragLen bufAddr ((pkt.drop 14).length + 1) m₁
      (bufAddr + txdescOffset) 0 (pkt.drop 14) = some laid) :
    let a' := { a with nrFrags := laid.nrFrags, lastTxcmdsz := laid.lastTxcmdsz }
    (packetMsdu a pkt).length
      < (addmicLoop a' fragLen laid.mem a'.nrFrags 0 (bufAddr + txdescOffset)).1.length := by
  have hhdr := hbuilt.hdrlen
  have hiv := hbuilt.ivLen
  have hicvLen := hbuilt.icvLen
  have hpk := hbuilt.pktlen
  rw [hpktHdr] at hpk
  have hicv := length_swIcv a
  have hicvLe : (if a.bswenc then a.icvLen else 0) ≤ 8 := by
    split
    · exact hicvLen
    · exact Nat.zero_le 8
  have hsnap : ∀ i, (fragSnap a i).length ≤ 8 := by
    intro i
    unfold fragSnap
    split
    · exact Nat.le_refl 8
    · exact Nat.zero_le 8
  obtain ⟨f, fs, hfrags, hne, hnr, -⟩ := coalesceLoop_more hbuilt.toSound hpk hfrag hmore hlaid
  have hfrom := coalesceLoop_laid (by omega) (fun _ => Nat.le_of_eq hpk.symm) (.inl rfl) rfl hlaid
  have hbodies : laid.frags.flatMap (·.body a laid.mem) = packetMsdu a pkt := hfrom.bodies
  obtain ⟨last, hlast, hsize⟩ := hfrom.size
  obtain ⟨last', hlast', hsum⟩ := coalesceLoop_lens hlaid (fun i => by
    have := hsnap i
    omega)
  obtain rfl : last = last' := Option.some.inj (hlast.symm.trans hlast')
  have hpos := List.length_pos_iff.mpr hne
  obtain ⟨n, hn⟩ : ∃ n, fs.length = n + 1 := ⟨fs.length - 1, by omega⟩
  rw [← length_bodies laid.mem, hbodies, hfrags, List.length_cons, Nat.add_sub_cancel, hn, hicv]
    at hsum
  dsimp only
  have hk : laid.nrFrags = n + 1 + 1 := by omega
  rw [hk, addmicLoop_length (by dsimp only; omega)]
  dsimp only
  rw [hsize]
  have hstep : (n + 1) * (fragLen - 4 - a.hdrlen - a.ivLen - if a.bswenc then a.icvLen else 0)
      < (n + 1) * (fragLen - a.hdrlen - a.ivLen - if a.bswenc then a.icvLen else 0) :=
    Nat.mul_lt_mul_of_pos_left (by omega) (Nat.succ_pos n)
  omega

end Bytes

/-! ## 6. The receiver's side -/

section Accepted

variable {adapter : Adapter} {a : PktAttrib} {h h' : Mem}

/-- The DS bits in the second byte. -/
theorem dsBit_eq (m : Mem) : (decide (m 1 &&& 1 ≠ 0) = (le16 m 0).testBit 8) ∧
    decide (m 1 &&& 2 ≠ 0) = (le16 m 0).testBit 9 := by
  have hbyte : ∀ x : UInt8, (decide (x &&& 1 ≠ 0) = x.toNat.testBit 0) ∧
      decide (x &&& 2 ≠ 0) = x.toNat.testBit 1 := UInt8.forall_byte (by decide +kernel)
  have hhigh : ∀ k, (le16 m 0).testBit (8 + k) = (m 1).toNat.testBit k := by
    intro k
    have hle : le16 m 0 = 2 ^ 8 * (m 1).toNat + (m 0).toNat := Nat.add_comm _ _
    rw [hle, Nat.testBit_two_pow_mul_add _ (m 0).toNat_lt, if_neg (by omega),
      Nat.add_sub_cancel_left]
  rw [show (8 : Nat) = 8 + 0 from rfl, hhigh 0, show (9 : Nat) = 8 + 1 from rfl, hhigh 1]
  exact hbyte (m 1)

/-- No header that is made has four addresses. -/
theorem HeaderSays.mic_lt (htold : HeaderSays adapter a h 0)
    (hsub : a.subtype = wifiDataType ∨ a.subtype = wifiQosDataType) :
    micDa h + 6 ≤ 22 ∧ micSa h + 6 ≤ 22 := by
  obtain ⟨hto, hfrom⟩ := dsBit_eq h
  rw [htold.bits 8 (by decide) (by decide)] at hto
  rw [htold.bits 9 (by decide) (by decide)] at hfrom
  have hnot : ¬ (h 1 &&& 1 ≠ 0 ∧ h 1 &&& 2 ≠ 0) := by
    rintro ⟨h1, h2⟩
    rw [decide_eq_true h1] at hto
    rw [decide_eq_true h2] at hfrom
    unfold dsBits at hto hfrom
    rcases hsub with hsub | hsub <;> rw [hsub] at hto hfrom <;>
      split_ifs at hto hfrom <;> first
        | exact absurd hto (by decide)
        | exact absurd hfrom (by decide)
  unfold micDa micSa
  constructor
  · split <;> decide
  · split_ifs with h1 h2
    · exact absurd ⟨h1, h2⟩ hnot
    · decide
    · decide
    · decide

/-- A header with the same bytes is fed in the same way. -/
theorem chkmicBytes_congr {n pri : Nat} {msdu : List UInt8} (htold : HeaderSays adapter a h 0)
    (hsub : a.subtype = wifiDataType ∨ a.subtype = wifiQosDataType) (hn : 24 ≤ n)
    (hsame : ∀ i < n, h' i = h i) : chkmicBytes h' pri msdu = chkmicBytes h pri msdu := by
  obtain ⟨hda, hsa⟩ := htold.mic_lt hsub
  have h1 : h' 1 = h 1 := hsame 1 (by omega)
  have hdaEq : micDa h' = micDa h := by
    unfold micDa
    rw [h1]
  have hsaEq : micSa h' = micSa h := by
    unfold micSa
    rw [h1]
  unfold chkmicBytes
  rw [hdaEq, hsaEq, readBytes_congr fun i _ hi => hsame i (by omega),
    readBytes_congr fun i _ hi => hsame i (by omega)]

theorem rxPriority_congr (htold : HeaderSays adapter a h 0)
    (hkind : a.hdrlen = 24 ∧ a.subtype = wifiDataType ∨
      a.hdrlen = 26 ∧ a.subtype = wifiQosDataType)
    (hsame : ∀ i < a.hdrlen, h' i = h i) : rxPriority h' = rxPriority h := by
  have hlow : le16 h' 0 = le16 h 0 := by
    rcases hkind with ⟨hlen, -⟩ | ⟨hlen, -⟩ <;>
      exact le16_congr (hsame 0 (by omega)) (hsame 1 (by omega))
  obtain ⟨-, -, -, hqos⟩ := htold.read (hkind.imp (fun h => h.2) fun h => h.2)
  unfold rxPriority isQosSubtype getFrameSubType at *
  rw [hlow]
  rcases hkind with ⟨hlen, hsub⟩ | ⟨hlen, hsub⟩
  · rw [if_neg (by rw [decide_eq_true_iff, hqos, hsub]; decide),
      if_neg (by rw [decide_eq_true_iff, hqos, hsub]; decide)]
  · rw [if_pos (by rw [decide_eq_true_iff, hqos, hsub]),
      if_pos (by rw [decide_eq_true_iff, hqos, hsub])]
    exact congrArg (· % 16) (le16_congr (hsame 24 (by omega)) (hsame 25 (by omega)))

end Accepted

/-! ## 7. Agreement -/

section Agreement

variable {sec : SecurityPriv} {t : StaTable} {env : TxEnv} {stas stas₁ stas₂ : StaId → TxSta}
  {pkt : List UInt8} {a a₁ : PktAttrib} {fragLen bufAddr : Nat} {m m₁ : Mem} {laid : Laid}

/-- The priority that is fed is the priority in the header. -/
theorem qosAgrees_iff (hpri : a.priority < 8) :
    (if a.qosEn then UInt8.ofNat a.priority else 0)
      = UInt8.ofNat (if wlanQos env a then a.priority else 0) ↔ QosAgrees env a := by
  have hzero : UInt8.ofNat a.priority = 0 ↔ a.priority = 0 := by
    rw [← UInt8.toNat_inj, UInt8.toNat_ofNat', Nat.mod_eq_of_lt (by omega)]
    rfl
  unfold QosAgrees wlanQos
  by_cases hsta : checkFwstate env.adapter wifiStationState = true
  · rw [if_pos hsta]
    have hzero' : 0 = UInt8.ofNat a.priority ↔ a.priority = 0 := eq_comm.trans hzero
    cases a.qosEn <;> cases env.qosOption <;> simp [hsta, hzero, hzero']
  · rw [if_neg hsta]
    cases a.qosEn <;> simp [hsta]

/-- **When the same bytes are fed.** -/
theorem addmicBytes_iff (hword : bufAddr % 4 = 0) (hfrag : 256 ≤ fragLen)
    (ha : updateAttrib sec t env stas pkt = some (a, stas₁))
    (hhdr : rtwMakeWlanhdr t env stas₁ m (bufAddr + txdescOffset) a = some (m₁, a₁, stas₂))
    (hlaid : coalesceLoop a fragLen bufAddr ((pkt.drop 14).length + 1) m₁
      (bufAddr + txdescOffset) 0 (pkt.drop 14) = some laid) (seqnum : Nat) :
    addmicBytes
      { a with seqnum := seqnum, nrFrags := laid.nrFrags, lastTxcmdsz := laid.lastTxcmdsz }
        fragLen laid.mem (bufAddr + txdescOffset) =
      chkmicBytes (fun i => laid.mem (bufAddr + txdescOffset + i))
        (rxPriority fun i => laid.mem (bufAddr + txdescOffset + i)) (packetMsdu a pkt) ↔
      a.FitsOne fragLen ∧ QosAgrees env a := by
  let b : PktAttrib := { a with seqnum := seqnum }
  have hbuilt := updateAttrib_built ha
  obtain ⟨-, -, -, -, hpktHdr, -⟩ := updateAttrib_packet ha
  have hb : b.Built pkt := ⟨⟨hbuilt.hdrlen, hbuilt.pktlen, hbuilt.ivLen, hbuilt.ivFull,
    hbuilt.icvLen⟩, hbuilt.kind, hbuilt.icvRc4, hbuilt.icvAes⟩
  have hlaidB := (coalesceLoop_seqnum a seqnum fragLen bufAddr _ _ _ _ _).trans hlaid
  obtain ⟨-, hpri⟩ := rxPriority_laid ha hhdr hlaid
  have hread : ∀ k, readBytes (fun i => laid.mem (bufAddr + txdescOffset + i)) k 6
      = readBytes laid.mem (bufAddr + txdescOffset + k) 6 :=
    fun k => readBytes_shift _ (fun _ _ _ => rfl) rfl
  have hagree := @qosAgrees_iff env a (updateAttrib_priority_lt ha)
  unfold addmicBytes chkmicBytes
  rw [micHeader_eq, hread, hread, hpri, List.append_assoc, List.append_assoc, List.append_assoc,
    List.append_assoc, List.append_cancel_left_eq, List.append_cancel_left_eq]
  dsimp only
  simp only [List.cons_append, List.nil_append, List.cons.injEq, true_and]
  rw [hagree, and_comm]
  refine and_congr_left fun _ => ?_
  constructor
  · intro heq
    by_contra hmore
    have hlt := addmicLoop_cut hb hpktHdr hfrag (show ¬ b.FitsOne fragLen from hmore) hlaidB
    exact absurd (congrArg List.length heq) (Nat.ne_of_gt hlt)
  · intro hfits
    obtain ⟨-, -, hfed⟩ :=
      addmicLoop_fits hword hb hpktHdr (show b.FitsOne fragLen from hfits) hlaidB
    exact congrArg Prod.fst hfed

/-- **The receiver accepts a packet of which it feeds the same bytes.** -/
theorem accepted_of_fits (hword : bufAddr % 4 = 0)
    (ha : updateAttrib sec t env stas pkt = some (a, stas₁)) (htkip : a.encrypt = encTkip)
    (hhdr : rtwMakeWlanhdr t env stas₁ m (bufAddr + txdescOffset) a = some (m₁, a₁, stas₂))
    (hlaid : coalesceLoop a fragLen bufAddr ((pkt.drop 14).length + 1) m₁
      (bufAddr + txdescOffset) 0 (pkt.drop 14) = some laid) {b a' : PktAttrib}
    (hb : b =
      { a with seqnum := a₁.seqnum, nrFrags := laid.nrFrags, lastTxcmdsz := laid.lastTxcmdsz })
    (hfits : a.FitsOne fragLen)
    (hbytes : addmicBytes b fragLen laid.mem (bufAddr + txdescOffset) =
      chkmicBytes (fun i => laid.mem (bufAddr + txdescOffset + i))
        (rxPriority fun i => laid.mem (bufAddr + txdescOffset + i)) (packetMsdu a pkt))
    {c : SwCrypto} {sec' : SecurityPriv} {handed : Mem} {rx : RecvEnv} {replay : ReplayState}
    {q : StaId → List RecvFrame} {g f : RecvFrame} (hc : c.michael = michael)
    (hk : rx.mic.seccalctkipmic = chkmicCalc)
    (hmic : xmitframeAddmic c sec' fragLen bufAddr laid.mem b = some (handed, a'))
    (harr : MicArrived rx replay q b handed bufAddr laid.frags g f)
    (hkey : SameMicKey rx sec' b f) : (recvframeChkmic rx.mic rx.rx.stas f).1 = .success := by
  have hbuilt := updateAttrib_built ha
  have hkind := hbuilt.kind
  have hhdrlen := hbuilt.hdrlen
  have hsub : a.subtype = wifiDataType ∨ a.subtype = wifiQosDataType :=
    hkind.imp (fun h => h.2) fun h => h.2
  obtain ⟨-, -, -, -, hpktHdr, -⟩ := updateAttrib_packet ha
  obtain ⟨htold, -⟩ := rxPriority_laid ha hhdr hlaid
  have hB : ({ a with seqnum := a₁.seqnum } : PktAttrib).Built pkt :=
    ⟨⟨hbuilt.hdrlen, hbuilt.pktlen, hbuilt.ivLen, hbuilt.ivFull, hbuilt.icvLen⟩, hbuilt.kind,
      hbuilt.icvRc4, hbuilt.icvAes⟩
  obtain ⟨-, hfrags, hfed⟩ := addmicLoop_fits hword hB hpktHdr hfits
    ((coalesceLoop_seqnum a a₁.seqnum fragLen bufAddr _ _ _ _ _).trans hlaid)
  have hbh : b.hdrlen = a.hdrlen ∧ b.ivLen = a.ivLen ∧ b.encrypt = encTkip := by
    rw [hb]
    exact ⟨rfl, rfl, htkip⟩
  have hfedB : addmicLoop b fragLen laid.mem b.nrFrags 0 (bufAddr + txdescOffset) =
      (packetMsdu a pkt,
        bufAddr + txdescOffset + a.hdrlen + a.ivLen + (packetMsdu a pkt).length) := by
    rw [hb]
    exact hfed
  have hfragsA : laid.frags = [⟨bufAddr + txdescOffset, (packetMsdu a pkt).length⟩] := hfrags
  generalize hn : (packetMsdu a pkt).length = n at hfedB hfragsA
  -- the code stands behind the packet
  obtain ⟨mic, hmicEq, hhanded⟩ : ∃ mic, mic = michael (txMicKey sec' b)
      (addmicBytes b fragLen laid.mem (bufAddr + txdescOffset)) ∧
      handed = overwrite laid.mem (bufAddr + txdescOffset + a.hdrlen + a.ivLen + n) mic := by
    unfold xmitframeAddmic at hmic
    rw [if_neg (not_not.mpr hbh.2.2)] at hmic
    split at hmic
    · cases hmic
    · dsimp only at hmic
      rw [hfedB] at hmic
      cases hmic
      refine ⟨_, rfl, ?_⟩
      unfold addmicBytes
      rw [hfedB, hc]
  have hmicLen : mic.length = 8 := by
    rw [hmicEq]
    exact length_michael _ _
  have hair : airBody b handed laid.frags = packetMsdu a pkt ++ mic := by
    have hmsdu : readBytes laid.mem (bufAddr + txdescOffset + a.hdrlen + a.ivLen) n
        = packetMsdu a pkt := by
      have hpk := hbuilt.pktlen
      rw [hpktHdr] at hpk
      have hbodies := (coalesceLoop_laid (by omega) (fun _ => Nat.le_of_eq hpk.symm) (.inl rfl) rfl
        hlaid).bodies
      rw [hfragsA, List.flatMap_cons, List.flatMap_nil, List.append_nil] at hbodies
      exact hbodies
    have hwritten := readBytes_overwrite laid.mem
      (bufAddr + txdescOffset + a.hdrlen + a.ivLen + n) mic
    rw [hmicLen] at hwritten
    unfold airBody
    rw [hfragsA, layout, List.flatMap_cons, List.flatMap_nil, List.append_nil, hbh.1, hbh.2.1,
      readBytes_add, hhanded, hwritten, readBytes_congr fun i _ hi => overwrite_of_lt hi, hmsdu]
  -- the frame at the receiver
  have hbody := harr.body
  have hlen := harr.len
  rw [hair, List.length_append, hn, hmicLen, hbh.1, hbh.2.1] at hbody hlen
  have hheader : ∀ i < a.hdrlen, g.mem i = laid.mem (bufAddr + txdescOffset + i) := by
    intro i hi
    rw [harr.header i (by rw [hbh.1]; exact hi), hhanded, overwrite_of_lt (by omega)]
  have hfmem : ∀ i < a.hdrlen, f.mem i = laid.mem (bufAddr + txdescOffset + i) := fun i hi =>
    (harr.kept i (by rw [hbh.1]; exact hi)).trans (hheader i hi)
  have hsaysG : HeaderSays env.adapter a g.mem 0 := by
    refine htold.congr (fun k _ _ => congrArg (fun v : Nat => v.testBit k) ?_)
      fun i _ hi => ?_
    · exact le16_congr (hheader 0 (by omega)) (hheader 1 (by omega))
    · rw [Nat.zero_add]
      exact hheader i (by omega)
  obtain ⟨hvlen, hviv, hvicv⟩ := validateRecvFrame_lens hsaysG hkind harr.received harr.validated
  have hvpri := validateRecvFrame_priority harr.validated
  have hpriority : f.attrib.priority =
      rxPriority fun i => laid.mem (bufAddr + txdescOffset + i) := by
    rw [harr.attrib]
    exact hvpri.trans (rxPriority_congr htold hkind hheader)
  have hcipher := harr.cipher
  have hattr : f.attrib.hdrlen = a.hdrlen ∧ f.attrib.ivLen = a.ivLen := by
    rw [harr.attrib] at hcipher ⊢
    dsimp only at hcipher ⊢
    rw [hcipher] at hviv
    exact ⟨hvlen, hviv.trans (hbuilt.ivFull (.inl htkip)).symm⟩
  obtain ⟨hmsdu, hcode⟩ := readBytes_append hbody
  rw [hn, hmicLen] at hcode
  rw [hn] at hmsdu
  unfold recvframeChkmic
  rw [if_pos hcipher]
  split
  · rfl
  · rename_i i hsta
    rw [if_neg (by
      rintro ⟨hmc, hno⟩
      rw [hkey.installed hmc] at hno
      cases hno)]
    have hdatalen : (((f.len : Int) - f.attrib.hdrlen - f.attrib.ivLen - f.attrib.icvLen - 8) %
        4294967296).toNat = n := by
      have hroom := harr.room
      rw [hattr.1, hattr.2]
      omega
    have hcorrect : micCorrect rx.mic i f = true := by
      unfold micCorrect
      dsimp only
      rw [hdatalen, hattr.1, hattr.2, hkey.key i hsta, hk, decide_eq_true_iff, hcode, hmicEq,
        hbytes]
      unfold chkmicCalc
      rw [hmsdu, rtwSeccalctkipmic_eq, hpriority]
      exact congrArg (michael _) (chkmicBytes_congr htold hsub (by omega) hfmem)
    dsimp only
    rw [if_pos hcorrect]

/-- **The two sides agree exactly on packets in one fragment whose priority is in the header.** -/
theorem mic_agrees_iff (hword : bufAddr % 4 = 0) (hfrag : 256 ≤ fragLen)
    (ha : updateAttrib sec t env stas pkt = some (a, stas₁)) (htkip : a.encrypt = encTkip)
    (hhdr : rtwMakeWlanhdr t env stas₁ m (bufAddr + txdescOffset) a = some (m₁, a₁, stas₂))
    (hlaid : coalesceLoop a fragLen bufAddr ((pkt.drop 14).length + 1) m₁
      (bufAddr + txdescOffset) 0 (pkt.drop 14) = some laid) :
    MicAgrees
        { a with seqnum := a₁.seqnum, nrFrags := laid.nrFrags, lastTxcmdsz := laid.lastTxcmdsz }
        fragLen bufAddr pkt laid ↔
      a.FitsOne fragLen ∧ QosAgrees env a := by
  have hiff := addmicBytes_iff hword hfrag ha hhdr hlaid a₁.seqnum
  constructor
  · exact fun h => hiff.mp h.bytes
  · intro hcond
    have hbytes := hiff.mpr hcond
    refine ⟨hbytes, fun key => ?_, ?_⟩
    · rw [addmicMic_eq, hbytes, rtwSeccalctkipmic_eq]
      rfl
    · intro c sec' handed a' rx replay q g f hc hk hmic harr hkey
      exact accepted_of_fits hword ha htkip hhdr hlaid rfl hcond.1 hbytes hc hk hmic harr hkey

end Agreement

/-- TKIP under 802.1X. -/
def tkipSec : SecurityPriv :=
  { swAesSec with dot11PrivacyAlgrthm := encTkip, dot118021XGrpPrivacy := encTkip }

/-- The access point's entry, with a MIC key. -/
def tkipSta : TxSta :=
  { peerSta 1 with dot118021XPrivacy := encTkip, dot11tkiptxmickey := List.replicate 16 1 }

/-- One fragment, without QoS. -/
theorem mic_agrees_short :
    ∃ a l, a.encrypt = encTkip ∧ l.nrFrags = 1 ∧ MicAgrees a 256 4096 (ethPkt 20) l := by
  let x := (sentBy staEnv tkipSec tkipSta (ethPkt 20)).get (by decide +kernel)
  let y := (headerBy staEnv x).get (by decide +kernel)
  let l := (laidBy 256 (ethPkt 20) x y).get (by decide +kernel)
  have hx : sentBy staEnv tkipSec tkipSta (ethPkt 20) = some x := (Option.some_get _).symm
  have hy : headerBy staEnv x = some y := (Option.some_get _).symm
  have hl : laidBy 256 (ethPkt 20) x y = some l := (Option.some_get _).symm
  have htkip : x.1.encrypt = encTkip := by decide +kernel
  have hone : l.nrFrags = 1 := by decide +kernel
  have hcond : x.1.FitsOne 256 ∧ QosAgrees staEnv x.1 := by decide +kernel
  clear_value l y x
  have hagrees := (mic_agrees_iff (by decide) (by decide) hx htkip hy hl).mpr hcond
  exact ⟨{ x.1 with seqnum := y.2.1.seqnum, nrFrags := l.nrFrags, lastTxcmdsz := l.lastTxcmdsz }, l,
    htkip, hone, hagrees⟩

/-- The number of fragments, and the codes of the two sides, for a station's packet. -/
def bothCodes (env : TxEnv) (pkt : List UInt8) : Option (Nat × List UInt8 × List UInt8) := do
  let x ← sentBy env tkipSec tkipSta pkt
  let y ← headerBy env x
  let l ← laidBy 256 pkt x y
  let a := { x.1 with seqnum := y.2.1.seqnum, nrFrags := l.nrFrags, lastTxcmdsz := l.lastTxcmdsz }
  let header : Mem := fun i => l.mem (4096 + txdescOffset + i)
  some (l.nrFrags, addmicMic tkipSta.dot11tkiptxmickey a 256 l.mem (4096 + txdescOffset),
    rtwSeccalctkipmic tkipSta.dot11tkiptxmickey header (packetMsdu a pkt)
      (UInt8.ofNat (rxPriority header)))

/-- An IP packet with a type of service. -/
def ipPkt (tos : UInt8) : List UInt8 := (ethPkt 20).take 12 ++ [8, 0, 0x45, tos, 1, 2, 3]

/-- 300 bytes in two fragments, and priority 7 in a QoS header to an access point whose entry has no
QoS: the codes differ. -/
theorem codes_differ :
    (∃ tx rx, bothCodes staEnv (ethPkt 300) = some (2, tx, rx) ∧ tx ≠ rx) ∧
      ∃ tx rx, bothCodes { staEnv with qosOption := true } (ipPkt 0xe0) = some (1, tx, rx) ∧
        tx ≠ rx :=
  ⟨⟨[209, 254, 30, 64, 183, 184, 205, 112], [202, 229, 127, 165, 28, 65, 120, 64],
      by decide +kernel, by decide⟩,
    [87, 116, 232, 120, 93, 178, 83, 8], [67, 178, 64, 129, 33, 17, 143, 157],
      by decide +kernel, by decide⟩

end Rtl8723bs
