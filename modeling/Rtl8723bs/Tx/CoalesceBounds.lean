/-
# What does a coalesced packet write?

`rtw_calculate_wlan_pkt_size_by_attribue` says before `rtw_xmitframe_coalesce` how long a packet
will be.  For a packet that fits one fragment it is right, to the byte (`coalesce_size`), and the
function writes nothing outside that many bytes behind the TX descriptor, MIC and encryption
included (`coalesce_confined`).  Only `rtw_make_wlanhdr` does not look: it zeroes 64 bytes for the
header of any packet, and a failed call leaves what it has written by then.
-/
import Rtl8723bs.Tx.FragComplete
import Rtl8723bs.Security.CcmpRefine

namespace Rtl8723bs

/-! ## 1. Writes that stay inside -/

/-- Nothing is written outside `[lo, hi)`. -/
def Confined (m m' : Mem) (lo hi : Nat) : Prop := ∀ x, x < lo ∨ hi ≤ x → m' x = m x

section Confined

variable {m m' m'' : Mem} {lo hi lo' hi' : Nat}

theorem Confined.refl (m : Mem) (lo hi : Nat) : Confined m m lo hi := fun _ _ => rfl

theorem Confined.trans (h : Confined m m' lo hi) (h' : Confined m' m'' lo hi) :
    Confined m m'' lo hi := fun x hx => (h' x hx).trans (h x hx)

/-- A larger window is kept to as well. -/
theorem Confined.mono (h : Confined m m' lo' hi') (hlo : lo ≤ lo') (hhi : hi' ≤ hi) :
    Confined m m' lo hi := fun x hx => h x (by omega)

theorem overwrite_confined {off : Nat} {l : List UInt8} (hlo : lo ≤ off)
    (hhi : off + l.length ≤ hi) : Confined m (overwrite m off l) lo hi := by
  rintro x (hx | hx)
  · exact overwrite_of_lt (by omega)
  · exact overwrite_of_le (by omega)

theorem setLe16_confined {off v : Nat} (hlo : lo ≤ off) (hhi : off + 2 ≤ hi) :
    Confined m (setLe16 m off v) lo hi := overwrite_confined hlo hhi

theorem orLe16_confined {off bits : Nat} (hlo : lo ≤ off) (hhi : off + 2 ≤ hi) :
    Confined m (orLe16 m off bits) lo hi := setLe16_confined hlo hhi

theorem writeAddr_confined {off : Nat} {x : MacAddr} (hlo : lo ≤ off) (hhi : off + 6 ≤ hi) :
    Confined m (writeAddr m off x) lo hi := overwrite_confined hlo hhi

/-- A step that may be left out. -/
theorem Confined.ite {b : Prop} [Decidable b] (h : Confined m m' lo hi) :
    Confined m (if b then m' else m) lo hi := by
  split
  · exact h
  · exact .refl m lo hi

/-- What is not written is what was there before. -/
theorem Confined.inside (h : Confined m m' lo hi) {x : Nat} (hx : m' x ≠ m x) :
    lo ≤ x ∧ x < hi := by
  have hnot := mt (h x) hx
  omega

end Confined

/-! ## 2. The header -/

section Header

variable {t : StaTable} {env : TxEnv} {stas stas' : StaId → TxSta} {m m' : Mem} {hdr : Nat}
  {a a' : PktAttrib}

/-- More Data, Protected Frame and the QoS field. -/
def wlanhdrFlags (m : Mem) (hdr : Nat) (a : PktAttrib) (qos : Bool) : Mem :=
  let m := if a.mdata then orLe16 m hdr 0x2000 else m
  let m := if a.encrypt ≠ 0 then orLe16 m hdr 0x4000 else m
  if qos then wlanhdrQos m (hdr + a.hdrlen - 2) a else m

/-- The header as `rtw_make_wlanhdr` has it when it looks for the station: what it leaves if there
is none. -/
def wlanhdrLeft (env : TxEnv) (m : Mem) (hdr : Nat) (a : PktAttrib) : Mem :=
  let m := overwrite m hdr (List.replicate wlanhdrOffset 0)
  let m := orLe16 (andLe16 m hdr 0xff03) hdr a.subtype
  if a.subtype &&& wifiDataType = 0 then m
  else
    match wlanhdrAddrs env m hdr a with
    | none => m
    | some (m, qos) => wlanhdrFlags m hdr a qos

/-- A header that was made has its sequence number besides. -/
theorem rtwMakeWlanhdr_mem (h : rtwMakeWlanhdr t env stas m hdr a = some (m', a', stas')) :
    m' = wlanhdrLeft env m hdr a ∨ ∃ v, m' = setLe16 (wlanhdrLeft env m hdr a) (hdr + 22) v := by
  unfold rtwMakeWlanhdr at h
  unfold wlanhdrLeft
  dsimp only at h ⊢
  split at h
  · rename_i hsub
    cases h
    exact .inl (if_pos hsub).symm
  · rename_i hsub
    rw [if_neg hsub]
    obtain ⟨⟨m₁, qos⟩, haddrs, h⟩ := Option.bind_eq_some_iff.mp h
    rw [haddrs]
    dsimp only at h ⊢
    split at h
    · cases h
    · cases h
      exact .inr ⟨_, rfl⟩

/-- The QoS field is in the header. -/
theorem wlanhdrQos_confined {qc lo hi : Nat} (hlo : lo ≤ qc) (hhi : qc + 2 ≤ hi) :
    Confined m (wlanhdrQos m qc a) lo hi := by
  have hor : ∀ (m₁ : Mem) (bits : Nat), Confined m₁ (orLe16 m₁ qc bits) lo hi :=
    fun m₁ bits => orLe16_confined hlo hhi
  unfold wlanhdrQos
  dsimp only
  exact (((hor _ _).ite.trans (hor _ _)).trans (hor _ _)).trans (hor _ _).ite

theorem wlanhdrAddrs_confined {qos : Bool} {hi : Nat} (hhi : hdr + 22 ≤ hi)
    (h : wlanhdrAddrs env m hdr a = some (m', qos)) : Confined m m' hdr hi := by
  have hwrite : ∀ (m₁ : Mem) (x y z : MacAddr), Confined m₁ (writeAddr (writeAddr
      (writeAddr m₁ (hdr + 4) x) (hdr + 10) y) (hdr + 16) z) hdr hi := fun m₁ x y z =>
    ((writeAddr_confined (by omega) (by omega)).trans
      (writeAddr_confined (by omega) (by omega))).trans (writeAddr_confined (by omega) (by omega))
  have hbits : ∀ b, Confined m (orLe16 m hdr b) hdr hi :=
    fun b => orLe16_confined (Nat.le_refl hdr) (by omega)
  unfold wlanhdrAddrs at h
  dsimp only at h
  split at h
  · cases h
    exact (hbits _).trans (hwrite _ _ _ _)
  · split at h
    · cases h
      exact (hbits _).trans (hwrite _ _ _ _)
    · split at h
      · cases h
        exact hwrite _ _ _ _
      · cases h

/-- **`rtw_make_wlanhdr` writes 64 bytes at most.** -/
theorem wlanhdrLeft_confined {hi : Nat} (hlen : a.hdrlen = 24 ∨ a.hdrlen = 26)
    (hhi : hdr + wlanhdrOffset ≤ hi) : Confined m (wlanhdrLeft env m hdr a) hdr hi := by
  have h64 : hdr + 64 ≤ hi := hhi
  have hzero : Confined m (overwrite m hdr (List.replicate wlanhdrOffset 0)) hdr hi :=
    overwrite_confined (Nat.le_refl hdr) (by rw [List.length_replicate]; exact hhi)
  have hor : ∀ (m₁ : Mem) (bits : Nat), Confined m₁ (orLe16 m₁ hdr bits) hdr hi :=
    fun m₁ bits => orLe16_confined (Nat.le_refl hdr) (by omega)
  have hand : ∀ (m₁ : Mem) (bits : Nat), Confined m₁ (andLe16 m₁ hdr bits) hdr hi :=
    fun m₁ bits => setLe16_confined (Nat.le_refl hdr) (by omega)
  have hflags : ∀ (m₁ : Mem) (qos : Bool), Confined m₁ (wlanhdrFlags m₁ hdr a qos) hdr hi :=
    fun m₁ qos => ((hor _ _).ite.trans (hor _ _).ite).trans
      (wlanhdrQos_confined (by omega) (by omega)).ite
  have hstart := (hzero.trans (hand _ 0xff03)).trans (hor _ a.subtype)
  unfold wlanhdrLeft
  dsimp only
  split
  · exact hstart
  · split
    · exact hstart
    · rename_i m₁ qos haddrs
      exact (hstart.trans (wlanhdrAddrs_confined (by omega) haddrs)).trans (hflags m₁ qos)

theorem rtwMakeWlanhdr_confined {hi : Nat} (hlen : a.hdrlen = 24 ∨ a.hdrlen = 26)
    (hhi : hdr + wlanhdrOffset ≤ hi)
    (h : rtwMakeWlanhdr t env stas m hdr a = some (m', a', stas')) : Confined m m' hdr hi := by
  have hleft := @wlanhdrLeft_confined env m hdr a hi hlen hhi
  rcases rtwMakeWlanhdr_mem h with rfl | ⟨v, rfl⟩
  · exact hleft
  · unfold wlanhdrOffset at hhi
    exact hleft.trans (setLe16_confined (by omega) (by omega))

end Header

/-! ## 3. The first byte of the header -/

section FirstByte

variable {env : TxEnv} {m m' : Mem} {hdr : Nat} {a a' : PktAttrib}

theorem setLe16_self (m : Mem) (off v : Nat) : setLe16 m off v off = UInt8.ofNat v := by
  unfold setLe16 overwrite
  rw [if_pos ⟨Nat.le_refl off, Nat.lt_add_of_pos_right (Nat.succ_pos _)⟩, Nat.sub_self]
  rfl

/-- Bits of the second byte leave the first. -/
theorem orLe16_first {bits : Nat} (hbits : bits % 256 = 0) : orLe16 m hdr bits hdr = m hdr := by
  unfold orLe16
  rw [setLe16_self, ← UInt8.toNat_inj, UInt8.toNat_ofNat', Nat.or_mod_two_pow,
    show bits % 2 ^ 8 = 0 from hbits, Nat.or_zero]
  have hlt := (m hdr).toNat_lt
  unfold le16
  omega

theorem clearMFrag_first : clearMFrag m hdr hdr = m hdr := by
  unfold clearMFrag andLe16
  rw [setLe16_self, ← UInt8.toNat_inj, UInt8.toNat_ofNat', Nat.and_mod_two_pow,
    show 0xfbff % 2 ^ 8 = 2 ^ 8 - 1 from rfl, Nat.and_two_pow_sub_one_eq_mod]
  have hlt := (m hdr).toNat_lt
  unfold le16
  omega

/-- The DS bits are in the second byte, the addresses behind. -/
theorem wlanhdrAddrs_first {qos : Bool} (h : wlanhdrAddrs env m hdr a = some (m', qos)) :
    m' hdr = m hdr := by
  have hwrite : ∀ (m₁ : Mem) (x y z : MacAddr), writeAddr (writeAddr (writeAddr m₁ (hdr + 4) x)
      (hdr + 10) y) (hdr + 16) z hdr = m₁ hdr := by
    intro m₁ x y z
    unfold writeAddr
    rw [overwrite_of_lt (by omega), overwrite_of_lt (by omega), overwrite_of_lt (by omega)]
  unfold wlanhdrAddrs at h
  dsimp only at h
  split at h
  · cases h
    rw [hwrite, orLe16_first rfl]
  · split at h
    · cases h
      rw [hwrite, orLe16_first rfl]
    · split at h
      · cases h
        rw [hwrite]
      · cases h

/-- The header starts with the subtype. -/
theorem wlanhdrLeft_first (hlen : a.hdrlen = 24 ∨ a.hdrlen = 26) :
    wlanhdrLeft env m hdr a hdr = UInt8.ofNat a.subtype := by
  have hzero : le16 (overwrite m hdr (List.replicate wlanhdrOffset 0)) hdr = 0 :=
    le16_zeroed m hdr (by decide : 0 + 1 < wlanhdrOffset)
  have hstart : orLe16 (andLe16 (overwrite m hdr (List.replicate wlanhdrOffset 0)) hdr 0xff03) hdr
      a.subtype hdr = UInt8.ofNat a.subtype := by
    unfold orLe16 andLe16
    rw [setLe16_self, le16_setLe16, hzero, Nat.zero_and, Nat.zero_mod, Nat.zero_or]
  have hor : ∀ (b : Prop) [Decidable b] (m₁ : Mem) (bits : Nat), bits % 256 = 0 →
      (if b then orLe16 m₁ hdr bits else m₁) hdr = m₁ hdr := by
    intro b _ m₁ bits hbits
    split
    · exact orLe16_first hbits
    · rfl
  -- the QoS field is behind
  have hqos : ∀ (qos : Bool) (m₂ : Mem),
      (if qos = true then wlanhdrQos m₂ (hdr + a.hdrlen - 2) a else m₂) hdr = m₂ hdr := by
    intro qos m₂
    have hconf := @wlanhdrQos_confined m₂ a _ _ _ (Nat.le_refl (hdr + a.hdrlen - 2))
      (Nat.le_refl _)
    exact hconf.ite hdr (.inl (by omega))
  unfold wlanhdrLeft
  split
  · exact hstart
  · cases haddrs : wlanhdrAddrs env (orLe16 (andLe16 (overwrite m hdr
      (List.replicate wlanhdrOffset 0)) hdr 0xff03) hdr a.subtype) hdr a with
    | none => exact hstart
    | some w =>
      obtain ⟨m₁, qos⟩ := w
      dsimp only
      unfold wlanhdrFlags
      rw [hqos, hor _ _ _ rfl, hor _ _ _ rfl, wlanhdrAddrs_first haddrs, hstart]

end FirstByte

/-! ## 4. One fragment -/

/-- What the ciphers and Michael give: a byte for a byte, four bytes of ICV, eight of MIC. -/
structure SwCrypto.Sized (c : SwCrypto) : Prop where
  arcfour : ∀ key l, (c.arcfour key l).length = l.length
  crc32 : ∀ l, (c.crc32 l).length = 4
  michael : ∀ key l, (c.michael key l).length = 8

/-- Sound attributes with the header and the cipher they are for. -/
structure PktAttrib.Built (a : PktAttrib) (pkt : List UInt8) : Prop extends a.Sound pkt where
  kind : a.hdrlen = 24 ∧ a.subtype = wifiDataType ∨ a.hdrlen = 26 ∧ a.subtype = wifiQosDataType
  icvRc4 : a.encrypt = encWep40 ∨ a.encrypt = encWep104 ∨ a.encrypt = encTkip → a.icvLen = 4
  icvAes : a.encrypt = encAes → a.icvLen = 8

/-- **`update_attrib` builds them.** -/
theorem updateAttrib_built {sec : SecurityPriv} {t : StaTable} {env : TxEnv}
    {stas stas' : StaId → TxSta} {pkt : List UInt8} {a : PktAttrib}
    (h : updateAttrib sec t env stas pkt = some (a, stas')) : a.Built pkt := by
  have hsound := updateAttrib_sound h
  obtain ⟨a₁, i, pn, _, hsec, rfl, _⟩ := updateAttrib_cases h
  have hqos : ∀ a₀ : PktAttrib, a₀.hdrlen = 24 ∧ a₀.subtype = wifiDataType →
      ((attribQos env pkt a₀).hdrlen = 24 ∧ (attribQos env pkt a₀).subtype = wifiDataType ∨
        (attribQos env pkt a₀).hdrlen = 26 ∧ (attribQos env pkt a₀).subtype = wifiQosDataType) ∧
      (attribQos env pkt a₀).encrypt = a₀.encrypt ∧ (attribQos env pkt a₀).icvLen = a₀.icvLen := by
    intro a₀ h₀
    unfold attribQos
    dsimp only
    split
    · split
      · exact ⟨.inr ⟨rfl, rfl⟩, rfl, rfl⟩
      · exact ⟨.inl h₀, rfl, rfl⟩
    · split
      · split
        · exact ⟨.inr ⟨rfl, rfl⟩, rfl, rfl⟩
        · exact ⟨.inr ⟨rfl, rfl⟩, rfl, rfl⟩
      · exact ⟨.inl h₀, rfl, rfl⟩
  obtain ⟨hkind, henc, hicv⟩ := hqos (attribHdr i (stas i) a₁) ⟨rfl, rfl⟩
  have hcipher : ((a₁.encrypt = encWep40 ∨ a₁.encrypt = encWep104 ∨ a₁.encrypt = encTkip) →
      a₁.icvLen = 4) ∧ (a₁.encrypt = encAes → a₁.icvLen = 8) := by
    obtain ⟨encrypt, keyIdx, a₂, _, hiv, ha₁⟩ := updateAttribSecInfo_cases hsec
    rw [ha₁]
    unfold secIv at hiv
    dsimp only at hiv
    have haes : encAes ≠ encWep40 ∧ encAes ≠ encWep104 ∧ encAes ≠ encTkip := by decide
    split at hiv
    · rename_i hwep
      cases hiv
      refine ⟨fun _ => rfl, fun he => ?_⟩
      rw [show encrypt = encAes from he] at hwep
      exact (hwep.elim haes.1 haes.2.1).elim
    · rename_i hwep
      split at hiv
      · rename_i htkip
        split at hiv
        · cases hiv
          refine ⟨fun _ => rfl, fun he => ?_⟩
          rw [show encrypt = encAes from he] at htkip
          exact (haes.2.2 htkip).elim
        · cases hiv
      · rename_i htkip
        have hrc4 : ¬(encrypt = encWep40 ∨ encrypt = encWep104 ∨ encrypt = encTkip) :=
          fun he => he.elim (hwep ∘ .inl) fun he => he.elim (hwep ∘ .inr) htkip
        split at hiv
        · cases hiv
          exact ⟨fun he => (hrc4 he).elim, fun _ => rfl⟩
        · rename_i hno
          cases hiv
          exact ⟨fun he => (hrc4 he).elim, fun he => (hno he).elim⟩
  exact ⟨hsound, hkind, fun h => hicv.trans (hcipher.1 (by rw [henc] at h; exact h)),
    fun h => hicv.trans (hcipher.2 (henc.symm.trans h))⟩

/-- `rtw_calculate_wlan_pkt_size_by_attribue`. -/
def rtwCalculateWlanPktSizeByAttribue (a : PktAttrib) : Nat :=
  a.hdrlen + a.ivLen + 8 + a.pktlen + (if a.encrypt = encTkip then 8 else 0) +
    (if a.bswenc then a.icvLen else 0)

section OneFragment

variable {c : SwCrypto} {sec : SecurityPriv} {t : StaTable} {env : TxEnv}
  {stas stas' : StaId → TxSta} {fragLen bufAddr : Nat} {m m' : Mem} {pkt : List UInt8}
  {a a' : PktAttrib}

/-- The body of the only fragment, ICV included. -/
theorem length_fragBody_one {pk : List UInt8} (hpk : a.pktlen = pk.length)
    (hfits : a.FitsOne fragLen) : (fragBody a fragLen 0 pk).length
      = a.ivLen + 8 + a.pktlen + (if a.bswenc then a.icvLen else 0) ∧
      (fragData a fragLen 0 pk).length = a.pktlen := by
  have hsnap : (fragSnap a 0).length = 8 := rfl
  have hicv := length_swIcv a
  have hdata : (fragData a fragLen 0 pk).length = a.pktlen := by
    unfold fragData
    rw [List.length_take]
    rcases hfits with hmc | hlen
    · rw [if_pos hmc, hpk, Nat.min_self]
    · split
      · rw [hpk, Nat.min_self]
      · unfold mpduLen
        omega
  refine ⟨?_, hdata⟩
  unfold fragBody
  rw [List.length_append, List.length_append, List.length_append, length_readBytes, hdata, hicv,
    hsnap]

/-- `xmitframe_addmic` finds the end of the only fragment, if the buffer is aligned. -/
theorem addmicLoop_one (hone : a.nrFrags = 1) (hword : bufAddr % 4 = 0) :
    (addmicLoop a fragLen m a.nrFrags 0 (bufAddr + txdescOffset)).2
      = bufAddr + txdescOffset + a.hdrlen + a.ivLen +
        (a.lastTxcmdsz - a.hdrlen - a.ivLen - if a.bswenc then a.icvLen else 0) := by
  have hrnd : rnd4 (bufAddr + txdescOffset) = bufAddr + txdescOffset := by
    unfold rnd4 txdescOffset
    rw [if_pos (by omega)]
    omega
  rw [hone]
  simp only [addmicLoop, hone, Nat.zero_add, if_true, hrnd]

/-- Eight bytes of MIC behind the fragment, where room was made for them. -/
theorem xmitframeAddmic_confined {lo hi : Nat} (hc : c.Sized) (hone : a.nrFrags = 1)
    (hword : bufAddr % 4 = 0) (hlo : lo ≤ bufAddr + txdescOffset + a.hdrlen)
    (hsize : a.hdrlen + a.ivLen + (if a.bswenc then a.icvLen else 0) ≤ a.lastTxcmdsz)
    (hhi : bufAddr + txdescOffset + a.lastTxcmdsz + micLen a ≤ hi)
    (h : xmitframeAddmic c sec fragLen bufAddr m a = some (m', a')) : Confined m m' lo hi := by
  unfold xmitframeAddmic at h
  unfold micLen at hhi
  split at h
  · cases h
    exact .refl m lo hi
  · rename_i htkip
    rw [if_pos (not_not.mp htkip)] at hhi
    split at h
    · cases h
    · cases h
      have hstop := @addmicLoop_one fragLen bufAddr m a hone hword
      exact overwrite_confined (by omega) (by rw [hc.michael]; omega)

/-- RC4 gives as many bytes as it takes, four of them ICV. -/
theorem arcfourFragment_confined {key : List UInt8} {v : Nat × Nat} {lo hi : Nat} (hc : c.Sized)
    (hlo : lo ≤ v.1) (hhi : v.1 + a.ivLen + a.hdrlen + v.2 + 4 ≤ hi) :
    Confined m (arcfourFragment c key a m v) lo hi := by
  refine overwrite_confined (by omega) ?_
  rw [hc.arcfour, List.length_append, length_readBytes, hc.crc32]
  omega

/-- CCMP writes payload and MIC. -/
theorem aesCipher_confined {aes : Ccm.Block → Ccm.Block} {hdrlen n : Nat}
    (h : ThreeAddrHdr m hdrlen) :
    Confined m (aesCipher aes hdrlen m n) (hdrlen + 8) (hdrlen + 8 + n + 8) := by
  rw [aesCipher_refines aes h]
  refine (overwrite_confined (Nat.le_refl _) ?_).trans (overwrite_confined (by omega) ?_)
  · rw [show (Ccm.encrypt ccmpParams aes (ccmpNonce m hdrlen) (driverAad m hdrlen)
      (readBytes m (hdrlen + 8) n)).1.length = n from
        (Ccm.length_ctrXor _ _ _ _).trans (length_readBytes m _ n)]
    omega
  · exact Nat.le_of_eq (congrArg (hdrlen + 8 + n + ·) (length_tag_ccmp _ _ _ _))

/-- The encryptors keep to the fragment, once the only one is where they look. -/
theorem xmitframeSwencrypt_confined {hi : Nat} (hc : c.Sized) (ha : a.Built pkt)
    (hone : a.nrFrags = 1)
    (hthree : ThreeAddrHdr (fun i => m (bufAddr + txdescOffset + i)) a.hdrlen)
    (hsize : a.hdrlen + a.ivLen + (if a.bswenc then a.icvLen else 0) ≤ a.lastTxcmdsz)
    (hhi : bufAddr + txdescOffset + a.lastTxcmdsz ≤ hi) :
    Confined m (xmitframeSwencrypt c sec a fragLen bufAddr m) (bufAddr + txdescOffset) hi := by
  have hvisits := encryptVisits_one fragLen bufAddr hone
  have hrc4 : ∀ key, a.bswenc = true → a.icvLen = 4 → Confined m (arcfourFragment c key a m
      (bufAddr + txdescOffset, a.lastTxcmdsz - a.hdrlen - a.ivLen - a.icvLen))
      (bufAddr + txdescOffset) hi := by
    intro key hsw hicv
    rw [if_pos hsw] at hsize
    exact arcfourFragment_confined hc (Nat.le_refl _) (by dsimp only; omega)
  unfold xmitframeSwencrypt
  split
  · rename_i hsw
    split
    · rename_i hwep
      unfold rtwWepEncrypt
      rw [if_pos hwep, hvisits]
      exact hrc4 _ hsw (ha.icvRc4 (hwep.imp_right .inl))
    · split
      · rename_i htkip
        unfold rtwTkipEncrypt
        rw [if_pos htkip, hvisits]
        exact hrc4 _ hsw (ha.icvRc4 (.inr (.inr htkip)))
      · split
        · rename_i haes
          have hicv := ha.icvAes haes
          have hiv := ha.ivFull (.inr haes)
          rw [if_pos hsw] at hsize
          unfold rtwAesEncrypt
          rw [if_pos haes, hvisits]
          intro x hx
          dsimp only [List.foldl_cons, List.foldl_nil]
          split
          · rename_i hle
            refine (aesCipher_confined hthree _ (.inr ?_)).trans (congrArg m (by omega))
            omega
          · rfl
        · exact .refl m _ _
  · exact .refl m _ _

/-- The header of the only fragment, as it is found behind the loop and the MIC. -/
theorem three_addr_of_first (ha : a.Built pkt) (h : m (bufAddr + txdescOffset) =
    UInt8.ofNat a.subtype) : ThreeAddrHdr (fun i => m (bufAddr + txdescOffset + i)) a.hdrlen := by
  have hbyte : m (bufAddr + txdescOffset + 0) = UInt8.ofNat a.subtype := h
  refine ⟨?_, ?_⟩
  · rw [getFrameType_byte, hbyte]
    rcases ha.kind with ⟨_, hsub⟩ | ⟨_, hsub⟩ <;> rw [hsub] <;> rfl
  · rw [getFrameSubType_byte, hbyte]
    rcases ha.kind with ⟨hlen, hsub⟩ | ⟨hlen, hsub⟩ <;> rw [hlen, hsub] <;> rfl

/-- The only fragment, from its header to its ICV. -/
theorem coalesceLoop_confined {m₁ : Mem} {laid : Laid} (ha : a.Built pkt)
    (hfits : a.FitsOne fragLen)
    (h : coalesceLoop a fragLen bufAddr ((pkt.drop a.pktHdrlen).length + 1) m₁
      (bufAddr + txdescOffset) 0 (pkt.drop a.pktHdrlen) = some laid) :
    laid.nrFrags = 1 ∧
      laid.lastTxcmdsz + micLen a = rtwCalculateWlanPktSizeByAttribue a ∧
      Confined m₁ laid.mem (bufAddr + txdescOffset) (bufAddr + txdescOffset + laid.lastTxcmdsz) ∧
      laid.mem (bufAddr + txdescOffset) = m₁ (bufAddr + txdescOffset) := by
  have hhdrlen := ha.hdrlen
  obtain ⟨hbody, hdata⟩ := length_fragBody_one ha.pktlen hfits
  obtain ⟨_, hnr, hlast, hmem⟩ := coalesceLoop_one ha.pktlen hfits h
  rw [hdata] at hlast
  refine ⟨hnr, ?_, ?_, ?_⟩
  · unfold rtwCalculateWlanPktSizeByAttribue micLen
    omega
  · rw [hmem]
    refine (Confined.trans ?_ (overwrite_confined (by omega) (by omega))).trans
      (setLe16_confined (Nat.le_refl _) (by omega))
    exact orLe16_confined (Nat.le_refl _) (by omega)
  · rw [hmem, clearMFrag_first, overwrite_of_lt (by omega)]
    exact orLe16_first rfl

end OneFragment

/-! ## 5. The function -/

section Function

variable {c : SwCrypto} {sec : SecurityPriv} {t : StaTable} {env : TxEnv} {stas : StaId → TxSta}
  {fragLen bufAddr : Nat} {m : Mem} {pkt : List UInt8} {a : PktAttrib} {r : Coalesced}

/-- **The estimate is right for a packet that fits one fragment.** -/
theorem coalesce_size (ha : a.Built pkt) (hfits : a.FitsOne fragLen)
    (hr : rtwXmitframeCoalesce c sec t env stas fragLen bufAddr m pkt a = some r) :
    r.attrib.lastTxcmdsz = rtwCalculateWlanPktSizeByAttribue a := by
  obtain ⟨m₁, a₁, laid, _, hlaid, _, hmic, _⟩ := rtwXmitframeCoalesce_parts hr
  obtain ⟨hattr, _⟩ := xmitframeAddmic_cases hmic
  rw [hattr]
  exact (coalesceLoop_confined ha hfits hlaid).2.1

/-- Of a packet in fragments the last one is counted: with its headers, and not more than is left
of the packet. -/
theorem coalesceLoop_lastTxcmdsz {B : Nat} : ∀ {fuel : Nat} {m : Mem} {memStart i : Nat}
    {pk : List UInt8} {l : Laid}, coalesceLoop a fragLen B fuel m memStart i pk = some l →
    a.hdrlen ≤ l.lastTxcmdsz ∧
      l.lastTxcmdsz ≤ a.hdrlen + a.ivLen + 8 + (if a.bswenc then a.icvLen else 0) + pk.length
  | fuel + 1, m, memStart, i, pk, l, h => by
    have hdata : (fragData a fragLen i pk).length ≤ pk.length := List.length_take_le' _ _
    have hsnap : (if i + 1 = 1 then (fragSnap a i).length else 0) ≤ 8 := by
      unfold fragSnap
      split_ifs <;> first | exact Nat.zero_le 8 | exact Nat.le_of_eq rfl
    rcases coalesceLoop_cases h with ⟨_, _, _, hlast, _⟩ | ⟨_, _, _, _, l', hl', _, _, hlast⟩
    · rw [hlast]
      omega
    · obtain ⟨ihlow, ihhigh⟩ := coalesceLoop_lastTxcmdsz hl'
      rw [List.length_drop] at ihhigh
      omega

/-- **The estimate is never too low.** -/
theorem coalesce_size_le (ha : a.Built pkt)
    (hr : rtwXmitframeCoalesce c sec t env stas fragLen bufAddr m pkt a = some r) :
    24 ≤ r.attrib.lastTxcmdsz ∧
      r.attrib.lastTxcmdsz ≤ rtwCalculateWlanPktSizeByAttribue a := by
  obtain ⟨m₁, a₁, laid, _, hlaid, _, hmic, _⟩ := rtwXmitframeCoalesce_parts hr
  obtain ⟨hattr, _⟩ := xmitframeAddmic_cases hmic
  obtain ⟨hlow, hhigh⟩ := coalesceLoop_lastTxcmdsz hlaid
  have hhdrlen := ha.hdrlen
  have hpktlen := ha.pktlen
  rw [hattr]
  change 24 ≤ laid.lastTxcmdsz + micLen a ∧ laid.lastTxcmdsz + micLen a ≤ _
  unfold rtwCalculateWlanPktSizeByAttribue micLen
  omega

/-- **And nothing is written outside it**, but for the 64 bytes of the header. -/
theorem coalesce_confined (hc : c.Sized) (ha : a.Built pkt) (hfits : a.FitsOne fragLen)
    (hword : bufAddr % 4 = 0)
    (hr : rtwXmitframeCoalesce c sec t env stas fragLen bufAddr m pkt a = some r) :
    Confined m r.mem (bufAddr + txdescOffset)
      (bufAddr + txdescOffset + max wlanhdrOffset (rtwCalculateWlanPktSizeByAttribue a)) := by
  obtain ⟨m₁, a₁, laid, hhdr, hlaid, _, hmic, hmem⟩ := rtwXmitframeCoalesce_parts hr
  obtain ⟨hattr, _⟩ := xmitframeAddmic_cases hmic
  obtain ⟨hnr, hlast, hloop, hfirst⟩ := coalesceLoop_confined ha hfits hlaid
  have hhdrlen := ha.hdrlen
  have hsize : a.hdrlen + a.ivLen + (if a.bswenc then a.icvLen else 0) ≤ laid.lastTxcmdsz := by
    unfold rtwCalculateWlanPktSizeByAttribue micLen at hlast
    omega
  have hmax : rtwCalculateWlanPktSizeByAttribue a
      ≤ max wlanhdrOffset (rtwCalculateWlanPktSizeByAttribue a) := Nat.le_max_right _ _
  have hhandedAt : ∀ lo ≤ bufAddr + txdescOffset + a.hdrlen, Confined laid.mem r.handed lo
      (bufAddr + txdescOffset + max wlanhdrOffset (rtwCalculateWlanPktSizeByAttribue a)) :=
    fun lo hlo => xmitframeAddmic_confined hc (by exact hnr) hword (by exact hlo)
      (by exact hsize)
      (by change bufAddr + txdescOffset + laid.lastTxcmdsz + micLen a ≤ _; omega) hmic
  have hbuilt : r.attrib.Built pkt := by
    rw [hattr]
    exact ⟨⟨ha.hdrlen, ha.pktlen, ha.ivLen, ha.ivFull, ha.icvLen⟩, ha.kind, ha.icvRc4, ha.icvAes⟩
  have hlastA : r.attrib.lastTxcmdsz = rtwCalculateWlanPktSizeByAttribue a := by
    rw [hattr]
    exact hlast
  -- the first byte still is the subtype when encryption starts
  have hbyte : r.handed (bufAddr + txdescOffset) = UInt8.ofNat r.attrib.subtype := by
    have hmade : m₁ (bufAddr + txdescOffset) = UInt8.ofNat a.subtype := by
      rw [← @wlanhdrLeft_first env m _ a hhdrlen]
      rcases rtwMakeWlanhdr_mem hhdr with rfl | ⟨v, rfl⟩
      · rfl
      · exact setLe16_of_lt (by omega)
    rw [(hhandedAt (bufAddr + txdescOffset + 1) (by omega)) _ (.inl (Nat.lt_succ_self _)), hfirst,
      hmade, hattr]
  have hmade := rtwMakeWlanhdr_confined hhdrlen
    (Nat.add_le_add_left (Nat.le_max_left _ (rtwCalculateWlanPktSizeByAttribue a))
      (bufAddr + txdescOffset)) hhdr
  have hsealed : Confined r.handed r.mem (bufAddr + txdescOffset)
      (bufAddr + txdescOffset + max wlanhdrOffset (rtwCalculateWlanPktSizeByAttribue a)) := by
    rw [hmem]
    refine xmitframeSwencrypt_confined hc hbuilt (by rw [hattr]; exact hnr)
      (three_addr_of_first hbuilt hbyte) ?_ (by omega)
    rw [hattr]
    exact Nat.le_add_right_of_le hsize
  exact ((hmade.trans (hloop.mono (Nat.le_refl _) (by omega))).trans
    (hhandedAt _ (Nat.le_add_right _ _))).trans hsealed

/-- What a failed call leaves in the buffer. -/
def coalesceFailed (t : StaTable) (env : TxEnv) (stas : StaId → TxSta) (fragLen bufAddr : Nat)
    (m : Mem) (pkt : List UInt8) (a : PktAttrib) : Mem :=
  if bufAddr = 0 then m
  else
    let memStart := bufAddr + txdescOffset
    match rtwMakeWlanhdr t env stas m memStart a with
    | none => wlanhdrLeft env m memStart a
    | some (m, a, _) =>
      let pktfile := pkt.drop a.pktHdrlen
      -- `xmitframe_addmic` fails before it writes
      ((coalesceLoop a fragLen bufAddr (pktfile.length + 1) m memStart 0 pktfile).map
        Laid.mem).getD m

/-- A failed call keeps to the same bytes. -/
theorem coalesceFailed_confined (ha : a.Built pkt) (hfits : a.FitsOne fragLen) :
    Confined m (coalesceFailed t env stas fragLen bufAddr m pkt a) (bufAddr + txdescOffset)
      (bufAddr + txdescOffset + max wlanhdrOffset (rtwCalculateWlanPktSizeByAttribue a)) := by
  have h64 := Nat.add_le_add_left
    (Nat.le_max_left wlanhdrOffset (rtwCalculateWlanPktSizeByAttribue a)) (bufAddr + txdescOffset)
  unfold coalesceFailed
  split
  · exact .refl m _ _
  · dsimp only
    split
    · exact wlanhdrLeft_confined ha.hdrlen h64
    · rename_i m₁ a₁ stas₁ hhdr
      have hmade := rtwMakeWlanhdr_confined ha.hdrlen h64 hhdr
      rw [rtwMakeWlanhdr_attrib hhdr, coalesceLoop_seqnum]
      dsimp only
      cases hlaid : coalesceLoop a fragLen bufAddr ((pkt.drop a.pktHdrlen).length + 1) m₁
          (bufAddr + txdescOffset) 0 (pkt.drop a.pktHdrlen) with
      | none => exact hmade
      | some laid =>
        obtain ⟨_, hlast, hloop, _⟩ := coalesceLoop_confined ha hfits hlaid
        exact hmade.trans (hloop.mono (Nat.le_refl _) (by omega))

end Function

end Rtl8723bs
