/-
# An Ethernet packet over the air and back

`rtw_put_snap` puts an LLC header with one of two OUIs before the type and payload of a packet, and
`wlanhdr_to_ethhdr` takes either off again: 802.11 header, IV and six bytes of the LLC header make
room for destination and source, and the type stays where it is.  A body under neither header is
left whole, and its length is written where the type would be.

The source that comes back is the one in the header, and only an access point sends for others
(`ethernet_round_trip`).
-/
import Rtl8723bs.Tx.WlanHeader
import Rtl8723bs.Rx.Admitted
import Rtl8723bs.Rx.DefragJoin

namespace Rtl8723bs

/-! ## 1. The encapsulation header -/

/-- **What `rtw_put_snap` writes is recognized**, and the type is behind it. -/
theorem bsnaphdr_rtwPutSnap {m : Mem} {off hProto : Nat} (hlt : hProto < 65536)
    (h : readBytes m off 8 = rtwPutSnap hProto) :
    bsnaphdr m off = true ∧ be16 m (off + 6) = hProto := by
  unfold rtwPutSnap at h
  dsimp only at h
  simp only [readBytes, List.cons.injEq, and_true] at h
  obtain ⟨h0, h1, h2, h3, h4, h5, h6, h7⟩ := h
  have htype : be16 m (off + 6) = hProto := by
    have hhi : hProto / 256 < 256 := by omega
    unfold be16
    rw [h6, show off + 6 + 1 = off + 1 + 1 + 1 + 1 + 1 + 1 + 1 from rfl, h7, UInt8.toNat_ofNat',
      UInt8.toNat_ofNat']
    omega
  refine ⟨?_, htype⟩
  unfold bsnaphdr snapSize
  rw [decide_eq_true_iff]
  simp only [readBytes, h0, h1, h2, h3, h4, h5]
  by_cases houi : hProto = 0x8137 ∨ hProto = 0x80f3
  · rw [if_pos houi]
    exact .inr rfl
  · rw [if_neg houi]
    rw [not_or] at houi
    refine .inl ⟨rfl, fun hipx => houi.1 ?_, fun haarp => houi.2 ?_⟩
    · rw [← htype]
      unfold be16
      unfold snapEthTypeIpx at hipx
      simp only [List.cons.injEq, and_true] at hipx
      rw [hipx.1, hipx.2]
      rfl
    · rw [← htype]
      unfold be16
      unfold snapEthTypeAppletalkAarp at haarp
      simp only [List.cons.injEq, and_true] at haarp
      rw [haarp.1, haarp.2]
      rfl

/-! ## 2. `wlanhdr_to_ethhdr` -/

section Convert

variable {a : Adapter} {f g : RecvFrame} {n : Nat}

/-- The Ethernet header is in front, and what was behind it stays. -/
theorem data_writeEthhdr (hbuf : g.rxTail ≤ g.buf.length) (snap : Bool) (len : Nat)
    (hlen : 14 ≤ g.len) :
    (writeEthhdr g 0 snap len).data = g.attrib.dst.toBytes ++ (g.attrib.src.toBytes ++
      if snap then readBytes g.mem 12 (g.len - 12)
      else be16Bytes len ++ readBytes g.mem 14 (g.len - 14)) := by
  have hroom : g.rxData + 14 ≤ g.buf.length := by
    unfold RecvFrame.len at hlen
    omega
  have hkept : ∀ (f : RecvFrame) (off : Nat) (bytes : List UInt8), off ≤ f.buf.length →
      (f.memcpy off bytes).buf.length = f.buf.length := fun f off bytes h =>
    Int.ofNat.inj (congrArg RxPtrs.rxEnd (ptrs_memcpy h))
  have hpast : ∀ (m : Mem) (off k n : Nat) (l : List UInt8), off + l.length ≤ k →
      readBytes (overwrite m off l) k n = readBytes m k n := fun m off k n l h =>
    readBytes_congr fun x hx _ => overwrite_of_le (by omega)
  have hbelow : ∀ (m : Mem) (off k n : Nat) (l : List UInt8), k + n ≤ off →
      readBytes (overwrite m off l) k n = readBytes m k n := fun m off k n l h =>
    readBytes_congr fun x _ hx => overwrite_of_lt (by omega)
  -- destination and source
  let f₁ := g.memcpy (g.rxData + 0) g.attrib.dst.toBytes
  let f₂ := f₁.memcpy (g.rxData + 0 + 6) g.attrib.src.toBytes
  have hbuf₁ : f₁.buf.length = g.buf.length := hkept g _ _ (by omega)
  have hbuf₂ : f₂.buf.length = g.buf.length := (hkept f₁ _ _ (by omega)).trans hbuf₁
  have hmem₁ : f₁.mem = overwrite g.mem 0 g.attrib.dst.toBytes := by
    rw [← Nat.sub_self g.rxData]
    exact mem_memcpy (Nat.le_refl _) (by change g.rxData + 6 ≤ _; omega)
  have hmem₂ : f₂.mem = overwrite f₁.mem 6 g.attrib.src.toBytes := by
    have hmem := @mem_memcpy f₁ (g.rxData + 0 + 6) g.attrib.src.toBytes
      (by change g.rxData ≤ _; omega) (by change g.rxData + 12 ≤ _; omega)
    rw [show g.rxData + 0 + 6 - f₁.rxData = 6 by change g.rxData + 0 + 6 - g.rxData = 6; omega]
      at hmem
    exact hmem
  have hread : ∀ k, 12 ≤ k → ∀ n, readBytes f₂.mem k n = readBytes g.mem k n := by
    intro k hk n
    rw [hmem₂, hpast _ _ _ _ _ (show 6 + 6 ≤ k by omega), hmem₁,
      hpast _ _ _ _ _ (show 0 + 6 ≤ k by omega)]
  have haddrs : readBytes f₂.mem 0 12 = g.attrib.dst.toBytes ++ g.attrib.src.toBytes := by
    rw [show (12 : Nat) = 6 + 6 from rfl, readBytes_add, hmem₂,
      hbelow _ 6 0 6 _ (Nat.le_refl 6), hmem₁]
    exact congrArg₂ (· ++ ·) (readBytes_overwrite g.mem 0 g.attrib.dst.toBytes)
      (readBytes_overwrite _ 6 g.attrib.src.toBytes)
  cases snap with
  | true =>
    have hwritten : writeEthhdr g 0 true len = f₂ := rfl
    have hlen₂ : f₂.len = 12 + (g.len - 12) := by
      change g.rxTail - g.rxData = _
      unfold RecvFrame.len at hlen ⊢
      omega
    rw [hwritten, if_pos rfl, RecvFrame.data, hlen₂, readBytes_add, haddrs, Nat.zero_add,
      hread 12 (Nat.le_refl 12), List.append_assoc]
  | false =>
    have hmem₃ : (writeEthhdr g 0 false len).mem = overwrite f₂.mem 12 (be16Bytes len) := by
      have hmem := @mem_memcpy f₂ (g.rxData + 0 + 12) (be16Bytes len)
        (by change g.rxData ≤ _; omega) (by change g.rxData + 14 ≤ _; omega)
      rw [show g.rxData + 0 + 12 - f₂.rxData = 12 by
        change g.rxData + 0 + 12 - g.rxData = 12; omega] at hmem
      exact hmem
    have hlen₃ : (writeEthhdr g 0 false len).len = 12 + (2 + (g.len - 14)) := by
      change g.rxTail - g.rxData = _
      unfold RecvFrame.len at hlen ⊢
      omega
    rw [if_neg Bool.false_ne_true, RecvFrame.data, hlen₃, hmem₃, readBytes_add, readBytes_add,
      hbelow _ 12 0 12 _ (Nat.le_refl 12), haddrs, Nat.zero_add, List.append_assoc,
      hpast _ 12 14 _ (be16Bytes len) (Nat.le_refl 14), hread 14 (by decide)]
    exact congrArg (fun l => _ ++ (_ ++ (l ++ _))) (readBytes_overwrite f₂.mem 12 (be16Bytes len))

/-- What the ICV is taken off of. -/
def withoutIcv (f : RecvFrame) : RecvFrame :=
  if f.attrib.encrypt ≠ 0 then f.orSelf (f.pullTail f.attrib.icvLen) else f

/-- `n` bytes of body, behind header and IV and before the ICV. -/
structure Body (f : RecvFrame) (n : Nat) : Prop where
  hdrlen : 24 ≤ f.attrib.hdrlen
  inBuf : f.rxData ≤ f.rxTail ∧ f.rxTail ≤ f.buf.length
  len : f.len = f.attrib.hdrlen + f.attrib.ivLen + n +
    if f.attrib.encrypt ≠ 0 then f.attrib.icvLen else 0

/-- The body of `n` bytes. -/
def RecvFrame.msdu (f : RecvFrame) (n : Nat) : List UInt8 :=
  readBytes f.mem (f.attrib.hdrlen + f.attrib.ivLen) n

theorem Body.withoutIcv (h : Body f n) :
    (withoutIcv f).mem = f.mem ∧ (withoutIcv f).attrib = f.attrib ∧
      (withoutIcv f).rxData = f.rxData ∧ (withoutIcv f).buf = f.buf ∧
      (withoutIcv f).len = f.attrib.hdrlen + f.attrib.ivLen + n ∧
      f.rxData ≤ (withoutIcv f).rxTail ∧ (withoutIcv f).rxTail ≤ f.buf.length := by
  have hlen := h.len
  have hbuf := h.inBuf
  unfold Rtl8723bs.withoutIcv
  unfold RecvFrame.len at hlen ⊢
  split_ifs at hlen ⊢ with henc
  · unfold RecvFrame.orSelf RecvFrame.pullTail
    rw [if_neg (by omega), Option.getD_some]
    refine ⟨rfl, rfl, rfl, rfl, ?_, ?_, ?_⟩ <;> dsimp only <;> omega
  · exact ⟨rfl, rfl, rfl, rfl, by omega, by omega, by omega⟩

/-- **What the conversion makes of a body.**  An encapsulation header gives way to destination and
source, down to the type in it; another body is kept, with its length in front. -/
theorem wlanhdrToEthhdr_data {snap : Bool} (h : Body f n)
    (hmp : checkFwstate a wifiMpState = false)
    (hsnap : bsnaphdr f.mem (f.attrib.hdrlen + f.attrib.ivLen) = snap) (h8 : snap = true → 8 ≤ n) :
    ∃ e, wlanhdrToEthhdr a f = some e ∧
      e.attrib.ethType = be16 f.mem (f.attrib.hdrlen + f.attrib.ivLen + if snap then 6 else 0) ∧
      e.data = f.attrib.dst.toBytes ++ (f.attrib.src.toBytes ++
        if snap then (f.msdu n).drop 6 else be16Bytes (n % 65536) ++ f.msdu n) := by
  obtain ⟨hmem, hattr, hdata, hbuf, hlen, hle, htail⟩ := h.withoutIcv
  have hhdr := h.hdrlen
  have hmsdu : f.msdu n = readBytes f.mem (f.attrib.hdrlen + f.attrib.ivLen) n := rfl
  generalize hoff : f.attrib.hdrlen + f.attrib.ivLen = off at *
  have hoff24 : 24 ≤ off := by omega
  -- the frame that the pull leaves
  let cut := withoutIcv f
  let skip := off - 14 + if snap then 8 else 0
  let typed : RecvFrame := { cut with attrib := { f.attrib with
    ethType := be16 f.mem (off + if snap then 6 else 0) } }
  let g : RecvFrame := { typed with rxData := cut.rxData + skip }
  have hcutLen : cut.rxTail - cut.rxData = off + n := hlen
  have hgLen : g.len = if snap then n + 6 else n + 14 := by
    change cut.rxTail - (cut.rxData + (off - 14 + if snap then 8 else 0)) = _
    cases snap with
    | true =>
      have := h8 rfl
      rw [if_pos rfl, if_pos rfl]
      omega
    | false =>
      rw [if_neg Bool.false_ne_true, if_neg Bool.false_ne_true]
      omega
  have hg14 : 14 ≤ g.len := by
    rw [hgLen]
    split_ifs with hs
    · have := h8 hs
      omega
    · omega
  have hgMem : ∀ x, g.mem x = f.mem (skip + x) := by
    intro x
    rw [← hmem]
    change cut.buf.getD (cut.rxData + skip + x) 0 = cut.buf.getD (cut.rxData + (skip + x)) 0
    rw [Nat.add_assoc]
  have hgRead : ∀ k n, readBytes g.mem k n = readBytes f.mem (skip + k) n := fun k n =>
    readBytes_shift skip (fun x _ _ => hgMem x) rfl
  have hpull : typed.pull (((off + if snap then snapSize else 0 : Nat) : Int) - ethHlen +
      if snap then 2 else 0) = some g := by
    have hsz : ((off + if snap then snapSize else 0 : Nat) : Int) - ethHlen +
        (if snap then 2 else 0) = (skip : Int) := by
      have h6 : snapSize = 6 := rfl
      have h14 : ethHlen = 14 := rfl
      change _ = ((off - 14 + (if snap then 8 else 0) : Nat) : Int)
      split_ifs <;> omega
    have hfits : ¬ (cut.rxTail : Int) < cut.rxData + skip := by
      change 14 ≤ cut.rxTail - (cut.rxData + skip) at hg14
      omega
    unfold RecvFrame.pull
    rw [hsz, if_neg hfits]
    rfl
  have hrun : wlanhdrToEthhdr a f = some (writeEthhdr g 0 snap
      ((((off + n : Nat) : Int) - ((off + if snap then snapSize else 0 : Nat) : Int)) %
        65536).toNat) := by
    unfold wlanhdrToEthhdr
    dsimp only
    rw [show (if f.attrib.encrypt ≠ 0 then f.orSelf (f.pullTail f.attrib.icvLen) else f) = cut
      from rfl, hattr, hmem, hoff, hlen, hsnap, if_neg (by rw [hmp]; decide)]
    split
    · rename_i hnone
      exact absurd (hpull.symm.trans hnone) (Option.some_ne_none g)
    · rename_i g' hsome
      obtain rfl : g = g' := Option.some.inj (hpull.symm.trans hsome)
      rfl
  refine ⟨_, hrun, by cases snap <;> rfl, ?_⟩
  have hgBuf : g.rxTail ≤ g.buf.length := by
    change (withoutIcv f).rxTail ≤ (withoutIcv f).buf.length
    rw [hbuf]
    exact htail
  rw [data_writeEthhdr hgBuf snap _ hg14, hgLen]
  cases snap with
  | true =>
    have := h8 rfl
    have hrest : readBytes g.mem 12 (n + 6 - 12) = (f.msdu n).drop 6 := by
      rw [hgRead, hmsdu, readBytes_drop]
      congr 1
      · change off - 14 + 8 + 12 = off + 6
        omega
    rw [if_pos rfl, if_pos rfl, if_pos rfl, hrest]
  | false =>
    have hrest : readBytes g.mem 14 (n + 14 - 14) = f.msdu n := by
      rw [hgRead, hmsdu, Nat.add_sub_cancel]
      congr 1
      change off - 14 + 0 + 14 = off
      omega
    have hsize : ((((off + n : Nat) : Int) - ((off + 0 : Nat) : Int)) % 65536).toNat
        = n % 65536 := by omega
    simp only [Bool.false_eq_true, if_false]
    rw [hrest, hsize]

end Convert

/-! ## 3. What is sent -/

/-- The source address of a packet on the air: only an access point sends for others. -/
def sourceOf (adapter : Adapter) (src : MacAddr) : MacAddr :=
  if checkFwstate adapter wifiStationState = false ∧
      checkFwstate adapter wifiApState = true then src
  else adapter.macAddr

section Sent

variable {sec : SecurityPriv} {t : StaTable} {env : TxEnv} {stas stas' : StaId → TxSta}
  {pkt : List UInt8} {a : PktAttrib}

/-- The addresses of a packet are read before all else. -/
theorem attribStart_packet (adapter : Adapter) (pkt : List UInt8) :
    let a := attribStart adapter pkt
    let m : Mem := fun i => pkt.getD i 0
    a.etherType = be16 m 12 ∧ a.dst = readAddr m 0 ∧ a.src = readAddr m 6 ∧
      (checkFwstate adapter wifiStationState = true ∨ checkFwstate adapter wifiAdhocState = true ∨
        checkFwstate adapter wifiAdhocMasterState = true → a.ta = adapter.macAddr) := by
  unfold attribStart attribAddrs
  dsimp only
  split_ifs with hadhoc hsta hap
  · exact ⟨rfl, rfl, rfl, fun _ => rfl⟩
  · exact ⟨rfl, rfl, rfl, fun _ => rfl⟩
  · exact ⟨rfl, rfl, rfl, fun h => h.elim (fun h => absurd h hsta) fun h => absurd h hadhoc⟩
  · exact ⟨rfl, rfl, rfl, fun h => h.elim (fun h => absurd h hsta) fun h => absurd h hadhoc⟩

/-- `secIv` and `SET_ICE_IV_LEN` give a cipher the same lengths.  WAPI is not compiled in. -/
theorem secIv_lens {psta : TxSta} {a a' : PktAttrib} {pn : Nat}
    (h : secIv sec psta a = some (a', pn)) (hsms4 : a.encrypt ≠ encSms4) :
    setIceIvLen a.encrypt = (a'.ivLen, a'.icvLen) := by
  unfold secIv at h
  unfold setIceIvLen
  dsimp only at h
  split_ifs at h ⊢ <;> cases h <;> rfl

/-- **The attributes of a packet**: type and addresses are those of the packet, and the lengths of
IV and ICV those of the cipher. -/
theorem updateAttrib_packet (h : updateAttrib sec t env stas pkt = some (a, stas')) :
    let s := attribStart env.adapter pkt
    a.etherType = s.etherType ∧ a.dst = s.dst ∧ a.src = s.src ∧ a.ta = s.ta ∧ a.pktHdrlen = 14 ∧
      (a.encrypt ≠ encSms4 → setIceIvLen a.encrypt = (a.ivLen, a.icvLen)) := by
  obtain ⟨a₁, i, pn, _, hsec, rfl, _⟩ := updateAttrib_cases h
  have hqos : ∀ a₀ : PktAttrib, let b := attribQos env pkt a₀
      b.etherType = a₀.etherType ∧ b.dst = a₀.dst ∧ b.src = a₀.src ∧ b.ta = a₀.ta ∧
        b.pktHdrlen = a₀.pktHdrlen ∧ b.encrypt = a₀.encrypt ∧ b.ivLen = a₀.ivLen ∧
        b.icvLen = a₀.icvLen := by
    intro a₀
    unfold attribQos setQos
    dsimp only
    split_ifs <;> exact ⟨rfl, rfl, rfl, rfl, rfl, rfl, rfl, rfl⟩
  obtain ⟨hty, hdst, hsrc, hta, hlen, henc, hiv, hicv⟩ := hqos (attribHdr i (stas i) a₁)
  obtain ⟨encrypt, keyIdx, a₂, _, hsecIv, ha₁⟩ := updateAttribSecInfo_cases hsec
  have hattr : a₂.etherType = (attribStart env.adapter pkt).etherType ∧
      a₂.dst = (attribStart env.adapter pkt).dst ∧ a₂.src = (attribStart env.adapter pkt).src ∧
      a₂.ta = (attribStart env.adapter pkt).ta ∧ a₂.encrypt = encrypt := by
    rcases secIv_cases hsecIv with ⟨-, rfl, -⟩ | ⟨-, rfl, -⟩ | ⟨-, rfl, -⟩ | ⟨-, -, rfl, -⟩ <;>
      exact ⟨rfl, rfl, rfl, rfl, rfl⟩
  rw [hty, hdst, hsrc, hta, hlen, henc, hiv, hicv, ha₁]
  refine ⟨hattr.1, hattr.2.1, hattr.2.2.1, hattr.2.2.2.1, rfl, fun hsms4 => ?_⟩
  change a₂.encrypt ≠ encSms4 at hsms4
  change setIceIvLen a₂.encrypt = (a₂.ivLen, a₂.icvLen)
  rw [hattr.2.2.2.2] at hsms4 ⊢
  exact secIv_lens hsecIv hsms4

end Sent

/-! ## 4. What is received -/

section Received

variable {env : RxEnv} {f : RecvFrame}

/-- Outside the test mode a frame keeps the addresses of its header. -/
theorem dataRoute_frame (hmp : checkFwstate env.adapter wifiMpState = false) :
    (dataRoute env f).frame.attrib.dst = getDa f.mem ∧
      (dataRoute env f).frame.attrib.src = getSa f.mem := by
  have hlookup : ∀ g addr, (sta2staLookup env g addr).frame = g := by
    intro g addr
    unfold sta2staLookup
    dsimp only
    split <;> rfl
  have hss : ∀ g, (sta2staDataFrame env g).frame = g := by
    intro g
    unfold sta2staDataFrame
    dsimp only
    rw [hmp]
    split_ifs <;> first
      | rfl
      | exact hlookup _ _
      | contradiction
  have has : ∀ g, (ap2staDataFrame env g).frame = g := by
    intro g
    unfold ap2staDataFrame
    dsimp only
    rw [hmp]
    split_ifs <;> first
      | rfl
      | (split <;> rfl)
      | simp_all
  have hsa : ∀ g, (sta2apDataFrame env g).frame = g := by
    intro g
    unfold sta2apDataFrame
    dsimp only
    rw [hmp]
    split_ifs <;> first
      | rfl
      | (split <;> rfl)
      | simp_all
  unfold dataRoute
  dsimp only
  split
  · rw [hss]
    exact ⟨rfl, rfl⟩
  · rw [has]
    exact ⟨rfl, rfl⟩
  · rw [hsa]
    exact ⟨rfl, rfl⟩
  · exact ⟨rfl, rfl⟩

/-- **Validation takes destination and source from the header.** -/
theorem validateRecvFrame_addrs {env : RecvEnv} {replay : ReplayState}
    {q : StaId → List RecvFrame} (hmp : checkFwstate env.rx.adapter wifiMpState = false)
    (h : (validateRecvFrame env replay q f).ret = .success) :
    (validateRecvFrame env replay q f).frame.attrib.dst = getDa f.mem ∧
      (validateRecvFrame env replay q f).frame.attrib.src = getSa f.mem := by
  obtain ⟨-, -, i, hframe⟩ := validateRecvFrame_success h
  have hqc : ∀ g, (parseQc g).attrib.dst = g.attrib.dst ∧
      (parseQc g).attrib.src = g.attrib.src := by
    intro g
    unfold parseQc
    dsimp only
    split_ifs <;> exact ⟨rfl, rfl⟩
  have henc : ∀ g, (setEncrypt env.rx i g).attrib.dst = g.attrib.dst ∧
      (setEncrypt env.rx i g).attrib.src = g.attrib.src := by
    intro g
    unfold setEncrypt
    split <;> exact ⟨rfl, rfl⟩
  obtain ⟨hdst, hsrc⟩ := @dataRoute_frame env.rx (readDataHeader f) hmp
  rw [hframe, (henc _).1, (henc _).2, (hqc _).1, (hqc _).2, hdst, hsrc]
  exact ⟨rfl, rfl⟩

/-- **Header, IV and ICV are as long as the sender made them**, under the cipher the receiver takes
the frame to be under. -/
theorem validateRecvFrame_lens {env : RecvEnv} {replay : ReplayState}
    {q : StaId → List RecvFrame} {adapter : Adapter} {a : PktAttrib}
    (htold : HeaderSays adapter a f.mem 0)
    (hkind : a.hdrlen = 24 ∧ a.subtype = wifiDataType ∨
      a.hdrlen = 26 ∧ a.subtype = wifiQosDataType)
    (hbuf : f.rxData ≤ f.rxTail ∧ f.rxTail ≤ f.buf.length)
    (h : (validateRecvFrame env replay q f).ret = .success) :
    let v := (validateRecvFrame env replay q f).frame
    v.attrib.hdrlen = a.hdrlen ∧ v.attrib.ivLen = (setIceIvLen v.attrib.encrypt).1 ∧
      v.attrib.icvLen = (setIceIvLen v.attrib.encrypt).2 := by
  obtain ⟨hadm, hmem⟩ := validateRecvFrame_read hbuf h
  obtain ⟨-, -, horder, hqos⟩ := htold.read (hkind.imp (fun h => h.2) fun h => h.2)
  have hlen := hadm.hdrlen
  rw [hmem, horder, if_neg Bool.false_ne_true, Nat.add_zero] at hlen
  refine ⟨?_, hadm.ivLen, hadm.icvLen⟩
  rw [hlen]
  unfold isQosSubtype
  rcases hkind with ⟨hlen, hkind⟩ | ⟨hlen, hkind⟩
  · rw [hlen, if_neg]
    rw [decide_eq_true_iff, hqos, hkind]
    decide
  · rw [hlen, if_pos]
    rw [decide_eq_true_iff, hqos, hkind]

end Received

/-- **What becomes of a packet at the receiver.**  `g` is its first fragment as it arrives and
passes validation, and `f` the frame after decryption and reassembly: the bodies of the fragments
one behind the other, between header and IV of the first and ICV of the last. -/
structure Arrived (env : RecvEnv) (replay : ReplayState) (q : StaId → List RecvFrame) (laid : Laid)
    (bufAddr : Nat) (a : PktAttrib) (g f : RecvFrame) : Prop where
  header : ∀ i < a.hdrlen, g.mem i = laid.mem (bufAddr + txdescOffset + i)
  received : g.rxData ≤ g.rxTail ∧ g.rxTail ≤ g.buf.length
  validated : (validateRecvFrame env replay q g).ret = .success
  attrib : f.attrib = { (validateRecvFrame env replay q g).frame.attrib with
    bdecrypted := f.attrib.bdecrypted, keyIndex := f.attrib.keyIndex }
  cipher : f.attrib.encrypt = a.encrypt
  inBuf : f.rxData ≤ f.rxTail ∧ f.rxTail ≤ f.buf.length
  len : f.len = a.hdrlen + a.ivLen + (laid.frags.flatMap (·.body a laid.mem)).length + a.icvLen
  msdu : readBytes f.mem (a.hdrlen + a.ivLen) (laid.frags.flatMap (·.body a laid.mem)).length
    = laid.frags.flatMap (·.body a laid.mem)

/-! ## 5. The round trip -/

section RoundTrip

variable {sec : SecurityPriv} {t : StaTable} {env : TxEnv} {stas stas₁ stas₂ : StaId → TxSta}
  {pkt : List UInt8} {a a₁ : PktAttrib} {fragLen bufAddr : Nat} {m m₁ : Mem} {laid : Laid}
  {rx : RecvEnv} {replay : ReplayState} {q : StaId → List RecvFrame} {g f : RecvFrame}

/-- A byte string, read as memory. -/
theorem readBytes_list : ∀ {off n : Nat}, off + n ≤ pkt.length →
    readBytes (fun i => pkt.getD i 0) off n = (pkt.drop off).take n
  | off, 0, _ => List.take_zero.symm
  | off, n + 1, h => by
    rw [readBytes, readBytes_list (by omega), List.getD_eq_getElem _ _ (by omega),
      List.drop_eq_getElem_cons (show off < pkt.length by omega), List.take_succ_cons]

/-- The encapsulated packet begins with the type that stood in front of it. -/
theorem rtwPutSnap_type (h : 14 ≤ pkt.length) :
    (rtwPutSnap (be16 (fun i => pkt.getD i 0) 12) ++ pkt.drop 14).drop 6 = pkt.drop 12 := by
  have hbytes : pkt.drop 12 = pkt.getD 12 0 :: pkt.getD 13 0 :: pkt.drop 14 := by
    rw [List.drop_eq_getElem_cons (show 12 < pkt.length by omega),
      List.drop_eq_getElem_cons (show 13 < pkt.length by omega),
      List.getD_eq_getElem _ _ (show 12 < pkt.length by omega),
      List.getD_eq_getElem _ _ (show 13 < pkt.length by omega)]
  have h12 := (pkt.getD 12 0).toNat_lt
  have h13 := (pkt.getD 13 0).toNat_lt
  have hhi : UInt8.ofNat (be16 (fun i => pkt.getD i 0) 12 / 256) = pkt.getD 12 0 := by
    rw [← UInt8.toNat_inj, UInt8.toNat_ofNat']
    change (256 * (pkt.getD 12 0).toNat + (pkt.getD 13 0).toNat) / 256 % 2 ^ 8 = _
    omega
  have hlo : UInt8.ofNat (be16 (fun i => pkt.getD i 0) 12) = pkt.getD 13 0 := by
    rw [← UInt8.toNat_inj, UInt8.toNat_ofNat']
    change (256 * (pkt.getD 12 0).toNat + (pkt.getD 13 0).toNat) % 2 ^ 8 = _
    omega
  rw [hbytes]
  unfold rtwPutSnap
  dsimp only [List.cons_append, List.nil_append]
  rw [hhi, hlo]
  rfl

/-- The source in the header is the packet's, or the sender's own. -/
theorem sentSource_eq (ha : updateAttrib sec t env stas pkt = some (a, stas₁))
    (hmode : checkFwstate env.adapter wifiStationState = true ∨
      checkFwstate env.adapter wifiApState = true ∨ checkFwstate env.adapter wifiAdhocState = true ∨
      checkFwstate env.adapter wifiAdhocMasterState = true) :
    sentSource env.adapter a = sourceOf env.adapter (readAddr (fun i => pkt.getD i 0) 6) := by
  obtain ⟨-, -, hsrc, hta, -⟩ := updateAttrib_packet ha
  obtain ⟨-, -, hstart, hown⟩ := attribStart_packet env.adapter pkt
  unfold sentSource sourceOf
  by_cases hsta : checkFwstate env.adapter wifiStationState = true
  · rw [if_pos hsta, if_neg (by simp [hsta]), hta]
    exact hown (.inl hsta)
  · by_cases hap : checkFwstate env.adapter wifiApState = true
    · rw [if_neg hsta, if_pos hap, if_pos ⟨by simpa using hsta, hap⟩, hsrc, hstart]
    · rw [if_neg hsta, if_neg hap, if_neg (fun h => hap h.2), hta]
      exact hown (.inr ((hmode.resolve_left hsta).resolve_left hap))

/-- **The frame at the receiver**: its lengths are the sender's, and its addresses those of the
packet, but for the source of a station's packet. -/
theorem Arrived.frame (harr : Arrived rx replay q laid bufAddr a g f)
    (hmp : checkFwstate rx.rx.adapter wifiMpState = false)
    (ha : updateAttrib sec t env stas pkt = some (a, stas₁)) (hsms4 : a.encrypt ≠ encSms4)
    (hhdr : rtwMakeWlanhdr t env stas₁ m (bufAddr + txdescOffset) a = some (m₁, a₁, stas₂))
    (hlaid : coalesceLoop a fragLen bufAddr ((pkt.drop 14).length + 1) m₁
      (bufAddr + txdescOffset) 0 (pkt.drop 14) = some laid) :
    f.attrib.dst = readAddr (fun i => pkt.getD i 0) 0 ∧
      f.attrib.src = sourceOf env.adapter (readAddr (fun i => pkt.getD i 0) 6) ∧
      f.attrib.hdrlen = a.hdrlen ∧ f.attrib.ivLen = a.ivLen ∧ f.attrib.icvLen = a.icvLen := by
  have hbuilt := updateAttrib_built ha
  have hkind := hbuilt.kind
  have hhdrlen := hbuilt.hdrlen
  have hsub : a.subtype = wifiDataType ∨ a.subtype = wifiQosDataType :=
    hkind.imp (fun h => h.2) fun h => h.2
  obtain ⟨-, hdst, -, -, -, hlens⟩ := updateAttrib_packet ha
  obtain ⟨-, hstart, -, -⟩ := attribStart_packet env.adapter pkt
  -- the header, on its way into the buffer and over the air
  have htold : HeaderSays env.adapter a g.mem 0 := by
    have hfirst := coalesceLoop_told hhdrlen hlaid (rtwMakeWlanhdr_told hhdrlen hsub hhdr)
    have hcopy : ∀ i < 24, g.mem (0 + i) = laid.mem (bufAddr + txdescOffset + i) := by
      intro i hi
      rw [Nat.zero_add]
      exact harr.header i (by omega)
    exact hfirst.congr
      (fun k _ _ => congrArg (·.testBit k) (le16_congr (hcopy 0 (by decide)) (hcopy 1 (by decide))))
      fun i _ hi => hcopy i (by omega)
  obtain ⟨hda, hsa, -, -⟩ := htold.read hsub
  obtain ⟨hvdst, hvsrc⟩ := validateRecvFrame_addrs hmp harr.validated
  obtain ⟨hvlen, hviv, hvicv⟩ := validateRecvFrame_lens htold hkind harr.received harr.validated
  have hcipher := harr.cipher
  rw [harr.attrib] at hcipher ⊢
  dsimp only at hcipher ⊢
  rw [hcipher, hlens hsms4] at hviv hvicv
  refine ⟨?_, ?_, hvlen, hviv, hvicv⟩
  · rw [hvdst, hda, hdst, hstart]
  · rw [hvsrc, hsa, sentSource_eq ha (rtwMakeWlanhdr_mode hsub hhdr)]

/-- **The round trip.**  For every type and every payload the receiver's Ethernet packet is the
sender's, down to the source: an access point passes it on, and the others put their own address in
its place. A body that is under neither encapsulation header comes up with its length in place of
the type. -/
theorem ethernet_round_trip (hpkt : 14 ≤ pkt.length)
    (ha : updateAttrib sec t env stas pkt = some (a, stas₁)) (hsms4 : a.encrypt ≠ encSms4)
    (hhdr : rtwMakeWlanhdr t env stas₁ m (bufAddr + txdescOffset) a = some (m₁, a₁, stas₂))
    (hlaid : coalesceLoop a fragLen bufAddr ((pkt.drop 14).length + 1) m₁
      (bufAddr + txdescOffset) 0 (pkt.drop 14) = some laid)
    (harr : Arrived rx replay q laid bufAddr a g f)
    (hmp : checkFwstate rx.rx.adapter wifiMpState = false) :
    (∃ e, wlanhdrToEthhdr rx.rx.adapter f = some e ∧
      e.attrib.ethType = be16 (fun i => pkt.getD i 0) 12 ∧
      e.data = pkt.take 6 ++
        ((sourceOf env.adapter (readAddr (fun i => pkt.getD i 0) 6)).toBytes ++ pkt.drop 12)) ∧
    ∀ (f' : RecvFrame) (n : Nat), Body f' n → n < 65536 →
      bsnaphdr f'.mem (f'.attrib.hdrlen + f'.attrib.ivLen) = false →
      ∃ e, wlanhdrToEthhdr rx.rx.adapter f' = some e ∧
        e.data =
          f'.attrib.dst.toBytes ++ (f'.attrib.src.toBytes ++ (be16Bytes n ++ f'.msdu n)) := by
  constructor
  · obtain ⟨hdst, hsrc, hhdrlen, hivLen, hicvLen⟩ := harr.frame hmp ha hsms4 hhdr hlaid
    have hbuilt := updateAttrib_built ha
    have hlen24 := hbuilt.hdrlen
    obtain ⟨htype, -, -, -, hpktHdr, hlens⟩ := updateAttrib_packet ha
    obtain ⟨hstart, -, -, -⟩ := attribStart_packet env.adapter pkt
    have hbodies : laid.frags.flatMap (·.body a laid.mem)
        = rtwPutSnap (be16 (fun i => pkt.getD i 0) 12) ++ pkt.drop 14 := by
      have hpk := hbuilt.pktlen
      rw [hpktHdr] at hpk
      have hfrom :=
        coalesceLoop_laid (by omega) (fun _ => Nat.le_of_eq hpk.symm) (.inl rfl) rfl hlaid
      rw [hfrom.bodies, ← hstart, ← htype]
      rfl
    have hlt : ∀ m : Mem, be16 m 12 < 65536 := by
      intro m
      have h12 := (m 12).toNat_lt
      have h13 := (m (12 + 1)).toNat_lt
      unfold be16
      omega
    have hlen := harr.len
    have hmsdu := harr.msdu
    rw [hbodies] at hlen hmsdu
    generalize hn : (rtwPutSnap (be16 (fun i => pkt.getD i 0) 12) ++ pkt.drop 14).length = n
      at hlen hmsdu
    have hn8 : 8 ≤ n := by
      rw [← hn, List.length_append]
      exact Nat.le_add_right 8 _
    have hbody : Body f n := by
      refine ⟨by omega, harr.inBuf, ?_⟩
      rw [hlen, hhdrlen, hivLen, hicvLen, harr.cipher]
      split_ifs with henc
      · rfl
      · have hnone := hlens hsms4
        rw [not_not.mp henc] at hnone
        have hzero : 0 = a.icvLen := congrArg Prod.snd hnone
        rw [hzero]
    have hoff : f.attrib.hdrlen + f.attrib.ivLen = a.hdrlen + a.ivLen := by rw [hhdrlen, hivLen]
    have hsnap := bsnaphdr_rtwPutSnap (hlt _) (by
      have htake := readBytes_take f.mem (a.hdrlen + a.ivLen) hn8
      rw [hmsdu] at htake
      exact htake.symm.trans (List.take_left' rfl))
    obtain ⟨e, hrun, hty, hdata⟩ := wlanhdrToEthhdr_data hbody hmp (hoff ▸ hsnap.1) fun _ => hn8
    refine ⟨e, hrun, ?_, ?_⟩
    · rw [hty, hoff, if_pos rfl, hsnap.2]
    · have hkept : f.msdu n = rtwPutSnap (be16 (fun i => pkt.getD i 0) 12) ++ pkt.drop 14 := by
        unfold RecvFrame.msdu
        rw [hoff, hmsdu]
      have haddr : (readAddr (fun i => pkt.getD i 0) 0).toBytes = pkt.take 6 :=
        readBytes_list (show 0 + 6 ≤ pkt.length by omega)
      rw [hdata, if_pos rfl, hkept, rtwPutSnap_type hpkt, hdst, hsrc, haddr]
  · intro f' n hbody hlt hsnap
    obtain ⟨e, hrun, -, hdata⟩ := wlanhdrToEthhdr_data hbody hmp hsnap nofun
    refine ⟨e, hrun, ?_⟩
    rw [hdata, if_neg Bool.false_ne_true, Nat.mod_eq_of_lt hlt]

end RoundTrip

/-- A packet of type IPX through the AP. -/
def ipxFrom (src : MacAddr) : List UInt8 :=
  peerAddr.toBytes ++ src.toBytes ++ [0x81, 0x37, 1, 2, 3]

/-- What a sender makes of a packet: the attributes, the header, the fragments. -/
def sentBy (env : TxEnv) (sec : SecurityPriv) (psta : TxSta) (pkt : List UInt8) :
    Option (PktAttrib × (StaId → TxSta)) :=
  updateAttrib sec peerTable env (fun _ => psta) pkt

def headerBy (env : TxEnv) (x : PktAttrib × (StaId → TxSta)) :
    Option (Mem × PktAttrib × (StaId → TxSta)) :=
  rtwMakeWlanhdr peerTable env x.2 (fun _ => 0) (4096 + txdescOffset) x.1

def laidBy (fragLen : Nat) (pkt : List UInt8) (x : PktAttrib × (StaId → TxSta))
    (y : Mem × PktAttrib × (StaId → TxSta)) : Option Laid :=
  coalesceLoop x.1 fragLen 4096 ((pkt.drop 14).length + 1) y.1 (4096 + txdescOffset) 0 (pkt.drop 14)

/-- No encryption. -/
def openSec : SecurityPriv :=
  { swAesSec with dot11AuthAlgrthm := .open_, dot11PrivacyAlgrthm := 0 }

/-- The access point without encryption, in a state. -/
def apRxEnv (fwState : Nat) : RecvEnv where
  rx :=
    { adapter := ⟨false, false, fwState, peerAddr, peerAddr⟩
      stas := ⟨[(bcAddr, 0), (staEnv.adapter.macAddr, 1)], by decide⟩
      dot11AuthAlgrthm := .open_, dot11PrivacyAlgrthm := 0, dot118021XGrpPrivacy := 0
      dot118021XPrivacy := fun _ => 0 }
  mic := noMicKeys
  bcmc := rfl
  htOption := false
  busetkipkey := false
  swDecrypt := false
  ndisauthtype := 0
  ieee8021xBlocked := fun _ => false
  mpMode := false
  rxBindicatePkt := false
  wepDecrypt := fun f => f.buf
  tkipDecrypt := fun f => (.success, f.buf)
  aesDecrypt := fun f => (.success, f.buf)

/-- The bytes that arrive of a buffer. -/
def openReceived (laid : Laid) (n : Nat) : RecvFrame where
  id := 0
  attrib := queryRxDescStatus ⟨0, 0, 0, true, 0, false, false, 0, 0⟩
  buf := readBytes laid.mem (4096 + txdescOffset) n
  rxData := 0
  rxTail := n

/-- Its own packet arrives as it was. -/
theorem ethernet_round_trip_ipx :
    ∃ f e, wlanhdrToEthhdr (apRxEnv wifiApState).rx.adapter f = some e ∧
      e.data = ipxFrom staEnv.adapter.macAddr := by
  let pkt := ipxFrom staEnv.adapter.macAddr
  let x := (sentBy staEnv openSec (peerSta 1) pkt).get (by decide +kernel)
  let y := (headerBy staEnv x).get (by decide +kernel)
  let laid := (laidBy 2346 pkt x y).get (by decide +kernel)
  let g := openReceived laid 35
  let f := (validateRecvFrame (apRxEnv wifiApState) ReplayState.init (fun _ => []) g).frame
  have harr : Arrived (apRxEnv wifiApState) ReplayState.init (fun _ => []) laid 4096 x.1 g f :=
    { header := by decide +kernel
      received := by decide +kernel
      validated := by decide +kernel
      attrib := by decide +kernel
      cipher := by decide +kernel
      inBuf := by decide +kernel
      len := by decide +kernel
      msdu := by decide +kernel }
  have hx : sentBy staEnv openSec (peerSta 1) pkt = some x := (Option.some_get _).symm
  have hy : headerBy staEnv x = some y := (Option.some_get _).symm
  have hlaid : laidBy 2346 pkt x y = some laid := (Option.some_get _).symm
  have hopen : x.1.encrypt ≠ encSms4 := by decide +kernel
  clear_value f g laid y x
  obtain ⟨⟨e, hrun, -, hdata⟩, -⟩ := ethernet_round_trip (by decide +kernel : 14 ≤ pkt.length)
    hx hopen hy hlaid harr (by decide)
  exact ⟨f, e, hrun, hdata⟩

/-- The packet the access point passes up. -/
def echoOpen (fwState : Nat) (pkt : List UInt8) : Option (List UInt8) := do
  let x ← sentBy staEnv openSec (peerSta 1) pkt
  let y ← headerBy staEnv x
  let laid ← laidBy 2346 pkt x y
  let rx := apRxEnv fwState
  let v := validateRecvFrame rx ReplayState.init (fun _ => [])
    (openReceived laid (32 + (pkt.drop 14).length))
  let e ← wlanhdrToEthhdr rx.rx.adapter v.frame
  some e.data

/-- A station's packet from another host comes up as its own; and the test mode puts the descriptor
and its own type in front. -/
theorem foreign_source_replaced :
    echoOpen wifiApState (ipxFrom ⟨4, 0, 0, 0, 0, 9⟩) = some (ipxFrom staEnv.adapter.macAddr) ∧
      ipxFrom staEnv.adapter.macAddr ≠ ipxFrom ⟨4, 0, 0, 0, 0, 9⟩ ∧
      echoOpen (wifiApState ||| wifiMpState) (ipxFrom staEnv.adapter.macAddr)
        ≠ some (ipxFrom staEnv.adapter.macAddr) := by
  decide +kernel

end Rtl8723bs
