/-
# Packet numbers on the air

`update_attrib` draws one packet number for a packet, and `rtw_xmitframe_coalesce` copies the same
IV into every fragment of it.  So packets that fit one fragment go out under packet numbers that
are all different, for as long as the 48-bit counter of the station has not come round
(`tx_pn_fresh`); the fragments of a longer packet share one (`tx_pn_reused_in_fragments`).

A run interleaves packets being queued and packets being coalesced in any order; the keys stay.
-/
import Mathlib.Data.List.Perm.Basic
import Rtl8723bs.Tx.FragLayout

namespace Rtl8723bs

/-! ## 1. The packet number of an MPDU -/

/-- Ciphers with a 48-bit packet number. -/
def hasPn (encrypt : Nat) : Bool := encrypt = encTkip ∨ encrypt = encAes

/-- The packet number in the TKIP or CCMP header at `off`. -/
def pnOf (encrypt : Nat) (m : Mem) (off : Nat) : Nat :=
  let b (k : Nat) : Nat := (m (off + k)).toNat
  let low := if encrypt = encTkip then b 2 + 256 * b 0 else b 0 + 256 * b 1
  low + 256 ^ 2 * b 4 + 256 ^ 3 * b 5 + 256 ^ 4 * b 6 + 256 ^ 5 * b 7

/-- Whose key the MPDUs of a coalesced packet are under, and their packet numbers. -/
def mpduPns (r : Coalesced) : List (StaId × Nat) :=
  if hasPn r.attrib.encrypt then
    r.frags.map fun f =>
      (r.attrib.psta, pnOf r.attrib.encrypt r.handed (f.hdr + r.attrib.hdrlen))
  else []

/-- The packet number drawn for a packet. -/
def attribPn (a : PktAttrib) : Option (StaId × Nat) :=
  if hasPn a.encrypt then some (a.psta, pnOf a.encrypt a.iv 0) else none

theorem pnOf_congr {encrypt : Nat} {m m' : Mem} {off off' : Nat}
    (h : ∀ k < 8, m (off + k) = m' (off' + k)) : pnOf encrypt m off = pnOf encrypt m' off' := by
  unfold pnOf
  simp only [h 0 (by omega), h 1 (by omega), h 2 (by omega), h 4 (by omega), h 5 (by omega),
    h 6 (by omega), h 7 (by omega)]

theorem toNat_tsc (pn k : Nat) : (tsc pn k).toNat = pn / 256 ^ k % 256 := by
  unfold tsc
  exact UInt8.toNat_ofNat'

/-- `AES_IV` writes the counter. -/
theorem pnOf_aesIv (iv : Mem) {pn : Nat} (keyidx : Nat) (h : pn < 2 ^ 48) :
    pnOf encAes (aesIv iv pn keyidx).1 0 = pn := by
  have hne : ¬ encAes = encTkip := by decide
  unfold pnOf
  simp only [aesIv, setBytes, hne, if_false]
  simp [toNat_tsc]
  omega

/-- `TKIP_IV` writes the counter, and `GET_TKIP_PN` order reads it back. -/
theorem pnOf_tkipIv (iv : Mem) {pn : Nat} (keyidx : Nat) (h : pn < 2 ^ 48) :
    pnOf encTkip (tkipIv iv pn keyidx).1 0 = pn := by
  unfold pnOf
  simp only [tkipIv, setBytes, if_true]
  simp [toNat_tsc]
  omega

theorem nextPn_eq {pn : Nat} (h : pn < 2 ^ 48) : nextPn 0xffffffffffff pn = (pn + 1) % 2 ^ 48 := by
  unfold nextPn
  split
  · omega
  · omega

/-! ## 2. One station, one cipher -/

/-- Is the station the one for multicast? -/
def staMcast (t : StaTable) (i : StaId) : Bool := t.entries.any fun e => e.2 = i ∧ isMcast e.1

/-- The cipher of a station's key. -/
def staCipher (sec : SecurityPriv) (t : StaTable) (psta : TxSta) (i : StaId) : Nat :=
  encryAlgo sec.dot11AuthAlgrthm sec.dot11PrivacyAlgrthm sec.dot118021XGrpPrivacy
    psta.dot118021XPrivacy 0 (staMcast t i)

/-- Multicast packets and no others go to the multicast station. -/
theorem attribSta_mcast {t : StaTable} {ra : MacAddr} {i : StaId} (h : attribSta t ra = some i) :
    staMcast t i = isMcast ra := by
  obtain ⟨addr, hmem, haddr⟩ : ∃ addr, (addr, i) ∈ t.entries ∧ isMcast addr = isMcast ra := by
    unfold attribSta at h
    split at h
    · rename_i hra
      exact ⟨_, rtwGetStainfo_mem h, by rw [hra]; rfl⟩
    · rename_i hra
      rw [Bool.not_eq_true] at hra
      exact ⟨_, rtwGetStainfo_individual h hra, rfl⟩
  rw [← haddr, Bool.eq_iff_iff]
  unfold staMcast
  rw [List.any_eq_true]
  constructor
  · rintro ⟨e, he, hcond⟩
    rw [decide_eq_true_iff] at hcond
    have hsame : e = (addr, i) := List.inj_on_of_nodup_map t.nodup he hmem hcond.1
    rw [hsame] at hcond
    exact hcond.2
  · intro hmc
    exact ⟨_, hmem, decide_eq_true ⟨rfl, hmc⟩⟩

/-- A packet to a station is under the station's cipher, or not protected. -/
theorem updateAttrib_pn {sec : SecurityPriv} {t : StaTable} {env : TxEnv}
    {stas stas' : StaId → TxSta} {pkt : List UInt8} {a : PktAttrib}
    (h : updateAttrib sec t env stas pkt = some (a, stas')) :
    ∃ pn, stas' = Function.update stas a.psta { stas a.psta with dot11txpn := pn } ∧
      (hasPn a.encrypt = true → a.encrypt = staCipher sec t (stas a.psta) a.psta ∧
        ((stas a.psta).dot11txpn < 2 ^ 48 →
          pnOf a.encrypt a.iv 0 = (stas a.psta).dot11txpn ∧
            pn = ((stas a.psta).dot11txpn + 1) % 2 ^ 48)) ∧
      (hasPn a.encrypt = false → hasPn (staCipher sec t (stas a.psta) a.psta) = true →
        pn = (stas a.psta).dot11txpn) := by
  obtain ⟨a₁, i, pn, hsta, hsec, ha, rfl⟩ := updateAttrib_cases h
  obtain ⟨encrypt, keyIdx, a₂, halgo, hiv, ha₁⟩ := updateAttribSecInfo_cases hsec
  obtain ⟨henc, hivEq, hpsta⟩ := attribQos_frame env pkt (attribHdr i (stas i) a₁)
  rw [← ha] at henc hivEq hpsta
  have hpsta' : a.psta = i := hpsta
  have hcipher : encrypt = 0 ∨ encrypt = staCipher sec t (stas i) i := by
    have hcases := secAlgo_cases halgo
    rw [attribStart_encrypt, ← attribSta_mcast hsta] at hcases
    exact hcases
  have henc' : a.encrypt = a₂.encrypt := henc.trans (by rw [ha₁]; rfl)
  have hiv' : a.iv = a₂.iv := hivEq.trans (by rw [ha₁]; rfl)
  rw [hpsta', henc', hiv']
  refine ⟨pn, rfl, ?_, ?_⟩
  · intro hpn
    have hpick : ∀ {e}, encrypt = e → e ≠ 0 → e = staCipher sec t (stas i) i := by
      rintro e rfl hne
      exact hcipher.resolve_left hne
    rcases secIv_cases hiv with ⟨hwep, rfl, _⟩ | ⟨htkip, rfl, hnext⟩ | ⟨haes, rfl, hnext⟩ |
      ⟨htkip, haes, rfl, _⟩
    · rcases hwep with hwep | hwep
      · rw [show encrypt = encWep40 from hwep] at hpn
        cases hpn
      · rw [show encrypt = encWep104 from hwep] at hpn
        cases hpn
    · have he : encrypt = encTkip := htkip
      refine ⟨he.trans (hpick he (by decide)), fun hlt => ⟨?_, hnext.trans (nextPn_eq hlt)⟩⟩
      simp only [he]
      exact pnOf_tkipIv _ _ hlt
    · have he : encrypt = encAes := haes
      refine ⟨he.trans (hpick he (by decide)), fun hlt => ⟨?_, hnext.trans (nextPn_eq hlt)⟩⟩
      simp only [he]
      exact pnOf_aesIv _ _ hlt
    · rw [hasPn, decide_eq_true_iff] at hpn
      exact (hpn.elim htkip haes).elim
  · intro hpn hkey
    -- a packet without a packet number is not protected at all
    have hzero : a₂.encrypt = encrypt → encrypt = 0 := by
      intro he
      refine hcipher.resolve_right fun hc => ?_
      rw [← hc, ← he, hpn] at hkey
      cases hkey
    rcases secIv_cases hiv with ⟨hwep, rfl, _⟩ | ⟨he, rfl, _⟩ | ⟨he, rfl, _⟩ | ⟨_, _, rfl, hnext⟩
    · have hwep' : encrypt = encWep40 ∨ encrypt = encWep104 := hwep
      rw [hzero rfl] at hwep'
      rcases hwep' with hwep' | hwep' <;> cases hwep'
    · rw [show encrypt = encTkip from he] at hpn
      cases hpn
    · rw [show encrypt = encAes from he] at hpn
      cases hpn
    · exact hnext

/-! ## 3. A packet that fits -/

/-- **A packet that fits goes out as one MPDU, under the packet number drawn for it.** -/
theorem mpduPns_one {c : SwCrypto} {sec : SecurityPriv} {t : StaTable} {env : TxEnv}
    {stas : StaId → TxSta} {fragLen bufAddr : Nat} {m : Mem} {pkt : List UInt8} {a : PktAttrib}
    {r : Coalesced} (ha : a.Sound pkt) (hfits : a.FitsOne fragLen)
    (hr : rtwXmitframeCoalesce c sec t env stas fragLen bufAddr m pkt a = some r) :
    mpduPns r = (attribPn a).toList := by
  obtain ⟨m₁, seqnum, laid, hloop, hfrags, hmic⟩ := rtwXmitframeCoalesce_cases hr
  obtain ⟨hattr, hmem⟩ := xmitframeAddmic_cases hmic
  obtain ⟨hf, hnr, _, hlaid⟩ := coalesceLoop_one ha.pktlen hfits hloop
  have henc : r.attrib.encrypt = a.encrypt := by rw [hattr]
  have hpsta : r.attrib.psta = a.psta := by rw [hattr]
  have hhdrlen : r.attrib.hdrlen = a.hdrlen := by rw [hattr]
  unfold mpduPns attribPn
  rw [henc, hpsta, hhdrlen, hfrags, hf]
  split
  · rename_i hpn
    have hiv : a.ivLen = 8 := ha.ivFull (of_decide_eq_true hpn)
    have hlen := ha.hdrlen
    have hbytes : ∀ k < 8, r.handed (bufAddr + txdescOffset + a.hdrlen + k) = a.iv (0 + k) := by
      intro k hk
      have hbelow : r.handed (bufAddr + txdescOffset + a.hdrlen + k)
          = laid.mem (bufAddr + txdescOffset + a.hdrlen + k) := by
        rcases hmem with hmem | ⟨mic, stop, hmem, hstop⟩
        · rw [hmem]
        · have hbehind := hstop hnr
          simp only at hbehind
          rw [hmem, overwrite_of_lt (by omega)]
      rw [hbelow, hlaid, clearMFrag, andLe16, setLe16_of_le (by omega)]
      have hbody : 8 ≤ (fragBody a fragLen 0 (pkt.drop a.pktHdrlen)).length := by
        simp only [fragBody, List.length_append, length_readBytes]
        omega
      unfold overwrite
      rw [if_pos (by omega), Nat.add_sub_cancel_left, fragBody, List.append_assoc,
        List.append_assoc, List.getD_append _ _ _ _ (by rw [length_readBytes]; omega),
        getD_readBytes _ (by omega)]
    simp only [List.map_cons, List.map_nil, Option.toList_some, List.cons.injEq, Prod.mk.injEq,
      and_true, true_and]
    exact pnOf_congr hbytes
  · rfl

/-! ## 4. Runs -/

/-- The transmit side under fixed keys: the stations, the packets that have their attributes and
wait, and the packet numbers of the MPDUs that were handed to encryption.  `drawn` counts the
packet numbers drawn for each station. -/
structure TxState where
  stas : StaId → TxSta
  pending : List (PktAttrib × List UInt8)
  handed : List (StaId × Nat)
  drawn : StaId → Nat

inductive TxEvent where
  /-- `update_attrib` of a packet. -/
  | submit (env : TxEnv) (pkt : List UInt8)
  /-- `rtw_xmitframe_coalesce` of the `k`-th packet that waits. -/
  | send (k : Nat) (env : TxEnv) (c : SwCrypto) (fragLen bufAddr : Nat) (m : Mem)
  /-- The `k`-th packet that waits is dropped. -/
  | drop (k : Nat)
  /-- The state of a station changes. -/
  | station (i : StaId) (fwLinked ieee8021xBlocked qosOption : Bool)

/-- Association and 802.1X change what a station may send, not its keys. -/
def TxSta.setState (psta : TxSta) (fwLinked ieee8021xBlocked qosOption : Bool) : TxSta :=
  { psta with
    fwLinked := fwLinked
    ieee8021xBlocked := ieee8021xBlocked
    qosOption := qosOption }

section

variable (sec : SecurityPriv) (t : StaTable)

def txSubmit (s : TxState) (env : TxEnv) (pkt : List UInt8) : TxState :=
  match updateAttrib sec t env s.stas pkt with
  | none => s
  | some (a, stas) =>
    { s with
      stas := stas
      pending := s.pending ++ [(a, pkt)]
      drawn := if hasPn a.encrypt then Function.update s.drawn a.psta (s.drawn a.psta + 1)
        else s.drawn }

def txSend (s : TxState) (k : Nat) (env : TxEnv) (c : SwCrypto) (fragLen bufAddr : Nat) (m : Mem) :
    TxState :=
  match s.pending[k]? with
  | none => s
  | some (a, pkt) =>
    match rtwXmitframeCoalesce c sec t env s.stas fragLen bufAddr m pkt a with
    | none => { s with pending := s.pending.eraseIdx k }
    | some r =>
      { s with
        stas := r.stas
        pending := s.pending.eraseIdx k
        handed := s.handed ++ mpduPns r }

def txStep (s : TxState) : TxEvent → TxState
  | .submit env pkt => txSubmit sec t s env pkt
  | .send k env c fragLen bufAddr m => txSend sec t s k env c fragLen bufAddr m
  | .drop k => { s with pending := s.pending.eraseIdx k }
  | .station i fwLinked ieee8021xBlocked qosOption =>
    let psta := (s.stas i).setState fwLinked ieee8021xBlocked qosOption
    { s with stas := Function.update s.stas i psta }

def txRun (s : TxState) (es : List TxEvent) : TxState := es.foldl (txStep sec t) s

/-- Under new keys nothing waits and nothing was sent. -/
def txStart (stas : StaId → TxSta) : TxState := ⟨stas, [], [], fun _ => 0⟩

/-- The packet that is sent, if there is one, fits one fragment. -/
def StepFits (s : TxState) : TxEvent → Prop
  | .send k _ _ fragLen _ _ => ∀ p ∈ s.pending[k]?, p.1.FitsOne fragLen
  | _ => True

instance decidableStepFits (s : TxState) : (e : TxEvent) → Decidable (StepFits s e)
  | .send k _ _ fragLen _ _ =>
    inferInstanceAs (Decidable (∀ p ∈ s.pending[k]?, p.1.FitsOne fragLen))
  | .submit _ _ => isTrue trivial
  | .drop _ => isTrue trivial
  | .station _ _ _ _ => isTrue trivial

/-- Every packet that is sent in the run fits one fragment. -/
def RunFits (s : TxState) : List TxEvent → Prop
  | [] => True
  | e :: es => StepFits s e ∧ RunFits (txStep sec t s e) es

instance decidableRunFits : (s : TxState) → (es : List TxEvent) → Decidable (RunFits sec t s es)
  | _, [] => isTrue trivial
  | s, e :: es =>
    have := decidableRunFits (txStep sec t s e) es
    inferInstanceAs (Decidable (_ ∧ _))

/-! ## 5. The invariant -/

/-- All the packet numbers in use: on MPDUs, and in IVs of packets that wait. -/
def TxState.live (s : TxState) : List (StaId × Nat) :=
  s.handed ++ s.pending.filterMap fun p => attribPn p.1

/-- The counter of a station is `drawn` draws from where it started, and what is in use was
drawn. -/
structure TxInv (pn₀ : StaId → Nat) (s : TxState) : Prop where
  sound : ∀ p ∈ s.pending, p.1.Sound p.2
  counter : ∀ i, hasPn (staCipher sec t (s.stas i) i) = true →
    (s.stas i).dot11txpn = (pn₀ i + s.drawn i) % 2 ^ 48
  range : ∀ q ∈ s.live, ∃ k < s.drawn q.1, q.2 = (pn₀ q.1 + k) % 2 ^ 48
  nodup : (∀ i, s.drawn i ≤ 2 ^ 48) → s.live.Nodup

variable {sec t}

theorem txInv_start {stas : StaId → TxSta} {pn₀ : StaId → Nat}
    (h : ∀ i, (stas i).dot11txpn = pn₀ i) (hlt : ∀ i, pn₀ i < 2 ^ 48) :
    TxInv sec t pn₀ (txStart stas) where
  sound := fun _ hp => absurd hp List.not_mem_nil
  counter := fun i _ => by
    have := hlt i
    simp only [txStart, h i, Nat.add_zero]
    omega
  range := fun _ hq => absurd hq List.not_mem_nil
  nodup := fun _ => List.nodup_nil

/-- Packets that wait may go, and stations change, as long as ciphers and counters stay. -/
theorem TxInv.of_live {pn₀ : StaId → Nat} {s s' : TxState} (h : TxInv sec t pn₀ s)
    (hsound : ∀ p ∈ s'.pending, p.1.Sound p.2)
    (hstas : ∀ i, (s'.stas i).dot118021XPrivacy = (s.stas i).dot118021XPrivacy ∧
      (hasPn (staCipher sec t (s.stas i) i) = true →
        (s'.stas i).dot11txpn = (s.stas i).dot11txpn))
    (hdrawn : s'.drawn = s.drawn) (hlive : s'.live.Subperm s.live) : TxInv sec t pn₀ s' where
  sound := hsound
  counter := fun i hi => by
    obtain ⟨hpriv, hpn⟩ := hstas i
    have hi' : hasPn (staCipher sec t (s.stas i) i) = true := by
      rw [staCipher, ← hpriv]
      exact hi
    rw [hpn hi', hdrawn, h.counter i hi']
  range := fun q hq => by
    rw [hdrawn]
    exact h.range q (hlive.subset hq)
  nodup := fun hle => by
    rw [hdrawn] at hle
    obtain ⟨l, hperm, hsub⟩ := hlive
    exact hperm.nodup_iff.mp ((h.nodup hle).sublist hsub)

/-- A draw puts the station's counter in use and advances it. -/
theorem TxInv.draw {pn₀ : StaId → Nat} {s s' : TxState} {i : StaId} (h : TxInv sec t pn₀ s)
    (hkey : hasPn (staCipher sec t (s.stas i) i) = true)
    (hsound : ∀ p ∈ s'.pending, p.1.Sound p.2)
    (hstas : s'.stas = Function.update s.stas i
      { s.stas i with dot11txpn := ((s.stas i).dot11txpn + 1) % 2 ^ 48 })
    (hdrawn : s'.drawn = Function.update s.drawn i (s.drawn i + 1))
    (hlive : s'.live = s.live ++ [(i, (s.stas i).dot11txpn)]) : TxInv sec t pn₀ s' where
  sound := hsound
  counter := fun j hj => by
    rw [hdrawn]
    rw [hstas] at hj ⊢
    by_cases hji : j = i
    · subst hji
      have hcounter := h.counter j hkey
      rw [Function.update_self, Function.update_self, hcounter]
      change ((pn₀ j + s.drawn j) % 2 ^ 48 + 1) % 2 ^ 48 = (pn₀ j + (s.drawn j + 1)) % 2 ^ 48
      omega
    · rw [Function.update_of_ne hji] at hj ⊢
      rw [Function.update_of_ne hji]
      exact h.counter j hj
  range := fun q hq => by
    rw [hdrawn]
    rw [hlive, List.mem_append, List.mem_singleton] at hq
    rcases hq with hq | rfl
    · obtain ⟨k, hk, hval⟩ := h.range q hq
      refine ⟨k, ?_, hval⟩
      by_cases hqi : q.1 = i
      · rw [hqi] at hk ⊢
        rw [Function.update_self]
        omega
      · rwa [Function.update_of_ne hqi]
    · exact ⟨s.drawn i, by rw [Function.update_self]; omega, h.counter i hkey⟩
  nodup := fun hle => by
    rw [hdrawn] at hle
    have hlast : s.drawn i + 1 ≤ 2 ^ 48 := by
      have := hle i
      rwa [Function.update_self] at this
    have hold : ∀ j, s.drawn j ≤ 2 ^ 48 := by
      intro j
      by_cases hji : j = i
      · rw [hji]
        omega
      · have := hle j
        rwa [Function.update_of_ne hji] at this
    rw [hlive, List.nodup_append]
    refine ⟨h.nodup hold, List.nodup_singleton _, ?_⟩
    rintro q hq q' hq' rfl
    rw [List.mem_singleton.mp hq'] at hq
    -- the counter has not come round yet
    obtain ⟨k, hk, hval⟩ := h.range _ hq
    have hcounter := h.counter i hkey
    simp only at hk hval
    omega

/-- Drawing a packet number keeps the invariant. -/
theorem txInv_submit {pn₀ : StaId → Nat} {s : TxState} (h : TxInv sec t pn₀ s) (env : TxEnv)
    (pkt : List UInt8) : TxInv sec t pn₀ (txSubmit sec t s env pkt) := by
  unfold txSubmit
  split
  · exact h
  · rename_i a stas hattr
    obtain ⟨pn, rfl, hdraw, hkeep⟩ := updateAttrib_pn hattr
    have hsound : ∀ p ∈ s.pending ++ [(a, pkt)], p.1.Sound p.2 := by
      intro p hp
      rcases List.mem_append.mp hp with hp | hp
      · exact h.sound p hp
      · rw [List.mem_singleton.mp hp]
        exact updateAttrib_sound hattr
    have hlive : s.handed ++ (s.pending ++ [(a, pkt)]).filterMap (fun p => attribPn p.1)
        = s.live ++ (attribPn a).toList := by
      rw [List.filterMap_append, ← List.append_assoc]
      rfl
    cases hpn : hasPn a.encrypt with
    | true =>
      obtain ⟨hcipher, hdraw⟩ := hdraw hpn
      have hkey : hasPn (staCipher sec t (s.stas a.psta) a.psta) = true := by
        rw [← hcipher]
        exact hpn
      have hcounter := h.counter a.psta hkey
      obtain ⟨hiv, rfl⟩ := hdraw (by omega)
      refine h.draw hkey hsound rfl rfl (hlive.trans ?_)
      rw [attribPn, if_pos hpn, hiv]
      rfl
    | false =>
      refine h.of_live hsound (fun i => ?_) rfl ?_
      · by_cases hi : i = a.psta
        · subst hi
          simp only [Function.update_self]
          exact ⟨trivial, hkeep hpn⟩
        · simp only [Function.update_of_ne hi]
          exact ⟨trivial, fun _ => trivial⟩
      · have hnone : (attribPn a).toList = [] := by
          rw [attribPn, hpn]
          rfl
        rw [TxState.live, hlive, hnone, List.append_nil]

/-- Headers and sequence numbers do not touch keys and counters. -/
theorem rtwMakeWlanhdr_stas {env : TxEnv} {stas stas' : StaId → TxSta} {m m' : Mem} {hdr : Nat}
    {a a' : PktAttrib} (h : rtwMakeWlanhdr t env stas m hdr a = some (m', a', stas')) (i : StaId) :
    (stas' i).dot118021XPrivacy = (stas i).dot118021XPrivacy ∧
      (stas' i).dot11txpn = (stas i).dot11txpn := by
  unfold rtwMakeWlanhdr at h
  simp only at h
  split at h
  · cases h
    exact ⟨rfl, rfl⟩
  · simp only [Option.bind_eq_bind, Option.bind_eq_some_iff] at h
    obtain ⟨⟨m₁, qos⟩, _, h⟩ := h
    split at h
    · cases h
    · cases h
      by_cases hi : i = a.psta
      · subst hi
        simp only [Function.update_self]
        exact ⟨trivial, trivial⟩
      · simp only [Function.update_of_ne hi]
        exact ⟨trivial, trivial⟩

theorem rtwXmitframeCoalesce_stas {c : SwCrypto} {env : TxEnv} {stas : StaId → TxSta}
    {fragLen bufAddr : Nat} {m : Mem} {pkt : List UInt8} {a : PktAttrib} {r : Coalesced}
    (h : rtwXmitframeCoalesce c sec t env stas fragLen bufAddr m pkt a = some r) (i : StaId) :
    (r.stas i).dot118021XPrivacy = (stas i).dot118021XPrivacy ∧
      (r.stas i).dot11txpn = (stas i).dot11txpn := by
  unfold rtwXmitframeCoalesce at h
  split at h
  · cases h
  · simp only [Option.bind_eq_bind, Option.bind_eq_some_iff] at h
    obtain ⟨⟨m₁, a₁, stas₁⟩, hhdr, laid, _, ⟨m₂, a₂⟩, _, hres⟩ := h
    cases hres
    exact rtwMakeWlanhdr_stas hhdr i

/-- Dropping a packet keeps the invariant. -/
theorem TxInv.drop {pn₀ : StaId → Nat} {s : TxState} (h : TxInv sec t pn₀ s) (k : Nat) :
    TxInv sec t pn₀ { s with pending := s.pending.eraseIdx k } := by
  refine h.of_live (fun p hp => h.sound p (List.mem_of_mem_eraseIdx hp))
    (fun _ => ⟨rfl, fun _ => rfl⟩) rfl (List.Sublist.subperm ?_)
  exact ((List.eraseIdx_sublist s.pending k).filterMap _).append_left s.handed

/-- Sending a packet that fits moves its packet number to the air. -/
theorem txInv_send {pn₀ : StaId → Nat} {s : TxState} (h : TxInv sec t pn₀ s) {k : Nat}
    {env : TxEnv} {c : SwCrypto} {fragLen bufAddr : Nat} {m : Mem}
    (hfits : StepFits s (.send k env c fragLen bufAddr m)) :
    TxInv sec t pn₀ (txSend sec t s k env c fragLen bufAddr m) := by
  unfold txSend
  split
  · exact h
  · rename_i a pkt hk
    obtain ⟨hlt, hget⟩ := List.getElem?_eq_some_iff.mp hk
    have hmem : (a, pkt) ∈ s.pending := List.mem_of_getElem? hk
    have hrest : ∀ p ∈ s.pending.eraseIdx k, p.1.Sound p.2 := fun p hp =>
      h.sound p (List.mem_of_mem_eraseIdx hp)
    have hperm : s.live.Perm (s.handed ++ ((attribPn a).toList ++
        (s.pending.eraseIdx k).filterMap fun p => attribPn p.1)) := by
      have hcons := List.getElem_cons_eraseIdx_perm hlt
      rw [hget] at hcons
      have hmap := (hcons.symm.filterMap fun p => attribPn p.1).append_left s.handed
      rw [List.filterMap_cons] at hmap
      cases hpn : attribPn a with
      | none =>
        rw [hpn] at hmap
        exact hmap
      | some q =>
        rw [hpn] at hmap
        exact hmap
    split
    · exact h.drop k
    · rename_i r hr
      refine h.of_live hrest (fun i => ?_) rfl ?_
      · obtain ⟨hpriv, hpn⟩ := rtwXmitframeCoalesce_stas hr i
        exact ⟨hpriv, fun _ => hpn⟩
      · rw [TxState.live, mpduPns_one (h.sound _ hmem) (hfits _ hk) hr, List.append_assoc]
        exact hperm.symm.subperm

/-- Every step keeps the invariant. -/
theorem txInv_step {pn₀ : StaId → Nat} {s : TxState} (h : TxInv sec t pn₀ s) (e : TxEvent)
    (hfits : StepFits s e) : TxInv sec t pn₀ (txStep sec t s e) := by
  cases e with
  | submit env pkt => exact txInv_submit h env pkt
  | send k env c fragLen bufAddr m => exact txInv_send h hfits
  | drop k => exact h.drop k
  | station i fwLinked ieee8021xBlocked qosOption =>
    refine h.of_live h.sound (fun j => ?_) rfl (List.Subperm.refl _)
    by_cases hji : j = i
    · subst hji
      simp only [txStep, Function.update_self]
      exact ⟨rfl, fun _ => rfl⟩
    · simp only [txStep, Function.update_of_ne hji]
      exact ⟨trivial, fun _ => trivial⟩

theorem txInv_run {pn₀ : StaId → Nat} (es : List TxEvent) :
    ∀ {s : TxState}, TxInv sec t pn₀ s → RunFits sec t s es →
      TxInv sec t pn₀ (txRun sec t s es) := by
  induction es with
  | nil => exact fun h _ => h
  | cons e es ih =>
    rintro s h ⟨hstep, hrest⟩
    exact ih (txInv_step h e hstep) hrest

/-- **No packet number is used twice** under a key, in any run whose packets fit one fragment and
in which no station's counter is drawn from more than `2 ^ 48` times. -/
theorem tx_pn_fresh (stas : StaId → TxSta) (hstart : ∀ i, (stas i).dot11txpn < 2 ^ 48 - 1)
    (es : List TxEvent) (hfits : RunFits sec t (txStart stas) es)
    (hcount : ∀ i, (txRun sec t (txStart stas) es).drawn i ≤ 2 ^ 48) :
    (txRun sec t (txStart stas) es).handed.Nodup := by
  have hinv₀ : TxInv sec t (fun i => (stas i).dot11txpn) (txStart stas) := by
    refine txInv_start (fun _ => rfl) fun i => ?_
    have := hstart i
    omega
  have hinv := txInv_run es hinv₀ hfits
  exact (hinv.nodup hcount).sublist (List.sublist_append_left _ _)

/-- An event draws at most one packet number. -/
theorem txStep_drawn (s : TxState) (e : TxEvent) (i : StaId) :
    (txStep sec t s e).drawn i ≤ s.drawn i + 1 := by
  cases e with
  | submit env pkt =>
    change (txSubmit sec t s env pkt).drawn i ≤ s.drawn i + 1
    unfold txSubmit
    split
    · exact Nat.le_succ _
    · rename_i a stas _
      simp only
      split
      · by_cases hi : i = a.psta
        · rw [hi, Function.update_self]
        · rw [Function.update_of_ne hi]
          exact Nat.le_succ _
      · exact Nat.le_succ _
  | send k env c fragLen bufAddr m =>
    change (txSend sec t s k env c fragLen bufAddr m).drawn i ≤ s.drawn i + 1
    unfold txSend
    split
    · exact Nat.le_succ _
    · split
      · exact Nat.le_succ _
      · exact Nat.le_succ _
  | drop k => exact Nat.le_succ _
  | station j fwLinked ieee8021xBlocked qosOption => exact Nat.le_succ _

theorem txRun_drawn (es : List TxEvent) (i : StaId) :
    ∀ s : TxState, (txRun sec t s es).drawn i ≤ s.drawn i + es.length := by
  induction es with
  | nil => exact fun s => Nat.le_refl _
  | cons e es ih =>
    intro s
    have hrest := ih (txStep sec t s e)
    have hstep : (txStep sec t s e).drawn i ≤ s.drawn i + 1 := txStep_drawn s e i
    rw [List.length_cons]
    exact hrest.trans (by omega)

/-- The AP's entry, before the seventh packet. -/
def peerStas : StaId → TxSta := fun _ => peerSta 7

/-- Packets of `n` and `k` bytes are queued, and sent the other way round. -/
def twoPackets (n k : Nat) : List TxEvent :=
  [.submit staEnv (ethPkt n), .submit staEnv (ethPkt k),
    .send 1 staEnv plainCrypto 256 4096 (fun _ => 0),
    .send 0 staEnv plainCrypto 256 4096 (fun _ => 0)]

theorem tx_pn_fresh_of_two :
    (∀ i, (peerStas i).dot11txpn < 2 ^ 48 - 1) ∧
      RunFits swAesSec peerTable (txStart peerStas) (twoPackets 100 204) ∧
      (txRun swAesSec peerTable (txStart peerStas) (twoPackets 100 204)).handed
        = [(0, 8), (0, 7)] ∧
      (txRun swAesSec peerTable (txStart peerStas) (twoPackets 100 204)).handed.Nodup := by
  have hstart : ∀ i, (peerStas i).dot11txpn < 2 ^ 48 - 1 := by
    intro _
    exact (by decide : 7 < 2 ^ 48 - 1)
  have hfits : RunFits swAesSec peerTable (txStart peerStas) (twoPackets 100 204) := by
    decide +kernel
  refine ⟨hstart, hfits, by decide +kernel, tx_pn_fresh peerStas hstart _ hfits fun i => ?_⟩
  exact (txRun_drawn _ i _).trans (by decide : 0 + 4 ≤ 2 ^ 48)

/-- A packet of 300 bytes goes out as two MPDUs under one packet number. -/
theorem tx_pn_reused_in_fragments :
    (∀ i, (peerStas i).dot11txpn < 2 ^ 48 - 1) ∧
      (txRun swAesSec peerTable (txStart peerStas)
        [.submit staEnv (ethPkt 300), .send 0 staEnv plainCrypto 256 4096 (fun _ => 0)]).handed
        = [(0, 7), (0, 7)] ∧
      ¬ (txRun swAesSec peerTable (txStart peerStas) [.submit staEnv (ethPkt 300),
        .send 0 staEnv plainCrypto 256 4096 (fun _ => 0)]).handed.Nodup := by
  have hhanded : (txRun swAesSec peerTable (txStart peerStas)
      [.submit staEnv (ethPkt 300), .send 0 staEnv plainCrypto 256 4096 (fun _ => 0)]).handed
      = [(0, 7), (0, 7)] := by decide +kernel
  refine ⟨fun _ => (by decide : 7 < 2 ^ 48 - 1), hhanded, ?_⟩
  rw [hhanded]
  decide

end

end Rtl8723bs
