/-
# WEP and TKIP from one driver to another

What `rtw_wep_encrypt` or `rtw_tkip_encrypt` leaves in the transmit buffer goes over the air and
into `rtw_wep_decrypt` or `rtw_tkip_decrypt` of a receiver with the same key.  The sender takes the
length of the body from `last_txcmdsz`, the receiver from `len`; the RC4 key comes from the IV
on both sides.  The body comes out again, with its ICV behind it (`sw_round_trip`).
-/
import Mathlib.Data.Nat.Digits.Defs
import Rtl8723bs.Rx.DecryptAuth
import Rtl8723bs.Tx.TxPn

namespace Rtl8723bs

/-! ## 1. The air -/

/-- The ciphers of the driver; the block function of AES and Michael play no part here. -/
def driverCrypto (aes : List UInt8 → Ccm.Block → Ccm.Block)
    (michael : List UInt8 → List UInt8 → List UInt8) : SwCrypto where
  aes := aes
  arcfour := rc4
  crc32 := icvBytes
  tkipMix := tkipRc4Key
  michael := michael

/-- The only fragment of a packet in a transmit buffer: `n` bytes of body under the packet's
cipher, as `rtw_xmitframe_coalesce` hands it to encryption. -/
structure OneFragment (a : PktAttrib) (n : Nat) : Prop where
  nrFrags : a.nrFrags = 1
  ivLen : a.ivLen = (setIceIvLen a.encrypt).1
  icvLen : a.icvLen = 4
  size : a.lastTxcmdsz = a.hdrlen + a.ivLen + n + a.icvLen

/-- `f` is what arrives of the `last_txcmdsz` bytes at `pframe`. -/
structure OnAir (m : Mem) (pframe : Nat) (a : PktAttrib) (f : RecvFrame) : Prop where
  len : f.len = a.lastTxcmdsz
  mem : ∀ i < a.lastTxcmdsz, f.mem i = m (pframe + i)
  inBuf : f.rxData ≤ f.rxTail ∧ f.rxTail ≤ f.buf.length
  encrypt : f.attrib.encrypt = a.encrypt
  hdrlen : f.attrib.hdrlen = a.hdrlen
  ivLen : f.attrib.ivLen = a.ivLen
  ta : f.attrib.ta = a.ta

/-- The body is back in its place, with its ICV behind it. -/
def Restored (f : RecvFrame) (buf body : List UInt8) : Prop :=
  readBytes ({ f with buf := buf } : RecvFrame).mem f.payload body.length = body ∧
    icvAt ({ f with buf := buf } : RecvFrame).mem f.payload (body.length + 4) = icvOf body

section Frames

variable {a : PktAttrib} {f : RecvFrame} {m : Mem} {n fragLen bufAddr : Nat}

/-- The encryptors visit the one fragment with its body. -/
theorem OneFragment.visits (h : OneFragment a n) :
    encryptVisits a fragLen bufAddr = [(bufAddr + txdescOffset, n)] := by
  have hlen : a.lastTxcmdsz - a.hdrlen - a.ivLen - a.icvLen = n := by
    rw [h.size]
    omega
  unfold encryptVisits
  rw [h.nrFrags, fragVisits, if_pos h.nrFrags.symm, hlen, fragVisits]

/-- **RC4 undoes itself**, over body and ICV: what the receiver's RC4 leaves of an encrypted
fragment. -/
theorem arcfour_received {aes : List UInt8 → Ccm.Block → Ccm.Block}
    {michael : List UInt8 → List UInt8 → List UInt8} {key : List UInt8} (h : OneFragment a n)
    (hair : OnAir (arcfourFragment (driverCrypto aes michael) key a m (bufAddr + txdescOffset, n))
      (bufAddr + txdescOffset) a f) :
    let body := readBytes m (bufAddr + txdescOffset + a.ivLen + a.hdrlen) n
    f.cryptLength = n + 4 ∧ (∀ i < f.payload, f.mem i = m (bufAddr + txdescOffset + i)) ∧
      arcfourFrame key f = overwrite f.mem f.payload (body ++ icvBytes body) := by
  intro body
  have hsize := h.size
  have hicv := h.icvLen
  have hpayload : f.payload = a.hdrlen + a.ivLen := by
    unfold RecvFrame.payload
    rw [hair.hdrlen, hair.ivLen]
  have hlength : f.cryptLength = n + 4 := by
    unfold RecvFrame.cryptLength
    rw [hair.len, hair.hdrlen, hair.ivLen]
    omega
  have hsealed : (rc4 key (body ++ icvBytes body)).length = n + 4 := by
    rw [length_rc4, List.length_append, length_readBytes, length_icvBytes]
  have hwritten : arcfourFragment (driverCrypto aes michael) key a m (bufAddr + txdescOffset, n)
      = overwrite m (bufAddr + txdescOffset + a.ivLen + a.hdrlen)
          (rc4 key (body ++ icvBytes body)) := rfl
  have hmem := hair.mem
  rw [hwritten] at hmem
  refine ⟨hlength, fun i hi => ?_, ?_⟩
  · rw [hmem i (by omega), overwrite_of_lt (by omega)]
  · have hbytes : f.cryptBytes = rc4 key (body ++ icvBytes body) := by
      have hread := readBytes_overwrite m (bufAddr + txdescOffset + a.ivLen + a.hdrlen)
        (rc4 key (body ++ icvBytes body))
      rw [hsealed] at hread
      unfold RecvFrame.cryptBytes
      rw [hlength]
      refine Eq.trans (readBytes_shift (bufAddr + txdescOffset)
        (fun x hx hxn => hmem x (by omega)) (by omega)) hread
    unfold arcfourFrame
    rw [hbytes, rc4_rc4]

/-- Such a frame is restored, once it is stored. -/
theorem restored_of_overwrite {key body : List UInt8} {i : Nat}
    (hbuf : f.rxData ≤ f.rxTail ∧ f.rxTail ≤ f.buf.length) (hlength : f.cryptLength = i + 4)
    (hbody : body.length = i)
    (hleft : arcfourFrame key f = overwrite f.mem f.payload (body ++ icvBytes body)) :
    Restored f (f.store (arcfourFrame key f)) body := by
  have hlen := cryptLength_eq f (by omega)
  have hmem : ∀ x < f.len, ({ f with buf := f.store (arcfourFrame key f) } : RecvFrame).mem x
      = overwrite f.mem f.payload (body ++ icvBytes body) x := by
    intro x hx
    rw [f.mem_store _ (by unfold RecvFrame.len at hx; omega), hleft]
  obtain ⟨hread, hicv⟩ := readBytes_overwrite_append f.mem f.payload body (icvBytes body)
  have hat : f.payload + (body.length + 4) - 4 = f.payload + body.length := by omega
  rw [length_icvBytes] at hicv
  constructor
  · rw [readBytes_congr (fun x _ hx => hmem x (by omega)), hread]
  · unfold icvAt
    rw [hat, readBytes_congr (fun x _ hx => hmem x (by omega)), hicv, icvBytes_eq]

/-- **`GET_TKIP_PN` reads the counter that `TKIP_IV` wrote.** -/
theorem getTkipPn_tkipIv {m : Mem} {off pn keyidx : Nat} {iv : Mem} (hpn : pn < 2 ^ 48)
    (hiv : ∀ i < 8, m (off + i) = (tkipIv iv pn keyidx).1 i) :
    Nat.ofDigits 256 ((getTkipPn m off).map UInt8.toNat) = pn := by
  have h0 : m off = tsc pn 1 := hiv 0 (by decide)
  have h2 : m (off + 2) = tsc pn 0 := hiv 2 (by decide)
  have h4 : m (off + 4) = tsc pn 2 := hiv 4 (by decide)
  have h5 : m (off + 5) = tsc pn 3 := hiv 5 (by decide)
  have h6 : m (off + 6) = tsc pn 4 := hiv 6 (by decide)
  have h7 : m (off + 7) = tsc pn 5 := hiv 7 (by decide)
  unfold getTkipPn
  rw [h0, h2, h4, h5, h6, h7]
  simp only [List.map_cons, List.map_nil, Nat.ofDigits_cons, Nat.ofDigits_nil, toNat_tsc]
  omega

theorem tkip_round_trip {aes : List UInt8 → Ccm.Block → Ccm.Block}
    {michael : List UInt8 → List UInt8 → List UInt8} {sec : SecurityPriv} {k : RxCrypto}
    (h : OneFragment a n) (htkip : a.encrypt = encTkip)
    (hair : OnAir (rtwTkipEncrypt (driverCrypto aes michael) sec a fragLen bufAddr m)
      (bufAddr + txdescOffset) a f)
    (hkey : k.prwskey f.attrib = some (prwskey sec a)) :
    (∀ i < 8, f.mem (a.hdrlen + i) = m (bufAddr + txdescOffset + a.hdrlen + i)) ∧
      ∃ buf, rtwTkipDecrypt k f = some (.success, buf) ∧
        Restored f buf (readBytes m (bufAddr + txdescOffset + a.ivLen + a.hdrlen) n) := by
  have hivLen : a.ivLen = 8 := by
    rw [h.ivLen, htkip]
    rfl
  have hsent : rtwTkipEncrypt (driverCrypto aes michael) sec a fragLen bufAddr m
      = arcfourFragment (driverCrypto aes michael) (tkipRc4Key (prwskey sec a) a.ta
          (getTkipPn m (bufAddr + txdescOffset + a.hdrlen))) a m (bufAddr + txdescOffset, n) := by
    unfold rtwTkipEncrypt
    rw [if_pos htkip, h.visits]
    rfl
  rw [hsent] at hair
  obtain ⟨hlength, hlow, hleft⟩ := arcfour_received h hair
  have hpayload : f.payload = a.hdrlen + 8 := by
    unfold RecvFrame.payload
    rw [hair.hdrlen, hair.ivLen, hivLen]
  have hiv : ∀ i < 8, f.mem (a.hdrlen + i) = m (bufAddr + txdescOffset + a.hdrlen + i) :=
    fun i hi => by rw [hlow _ (by omega), ← Nat.add_assoc]
  -- the receiver mixes the same RC4 key
  have hrc4 : tkipRxKey (prwskey sec a) f = tkipRc4Key (prwskey sec a) a.ta
      (getTkipPn m (bufAddr + txdescOffset + a.hdrlen)) := by
    have h0 : f.mem a.hdrlen = m (bufAddr + txdescOffset + a.hdrlen) := hiv 0 (by decide)
    unfold tkipRxKey getTkipPn
    rw [hair.ta, hair.hdrlen, h0, hiv 2 (by decide), hiv 4 (by decide), hiv 5 (by decide),
      hiv 6 (by decide), hiv 7 (by decide)]
  rw [← hrc4] at hleft
  have hrestored := restored_of_overwrite hair.inBuf hlength
    (length_readBytes m (bufAddr + txdescOffset + a.ivLen + a.hdrlen) n) hleft
  refine ⟨hiv, _, ?_, hrestored⟩
  unfold rtwTkipDecrypt
  rw [if_pos (hair.encrypt.trans htkip), hkey]
  dsimp only
  rw [if_neg (by omega)]
  have hcompare : icvBytes (readBytes (arcfourFrame (tkipRxKey (prwskey sec a) f) f) f.payload
      (f.cryptLength.toNat - 4)) = icvAt (arcfourFrame (tkipRxKey (prwskey sec a) f) f) f.payload
        f.cryptLength.toNat := by
    have hn : f.cryptLength.toNat = n + 4 := by omega
    have hat : f.payload + (n + 4) - 4 = f.payload + n := by omega
    obtain ⟨hread, hicv⟩ := readBytes_overwrite_append f.mem f.payload
      (readBytes m (bufAddr + txdescOffset + a.ivLen + a.hdrlen) n)
      (icvBytes (readBytes m (bufAddr + txdescOffset + a.ivLen + a.hdrlen) n))
    rw [length_readBytes] at hread hicv
    rw [length_icvBytes] at hicv
    unfold icvAt
    rw [hn, hat, hleft, Nat.add_sub_cancel, hread, hicv]
  rw [if_pos hcompare]

theorem wep_round_trip {aes : List UInt8 → Ccm.Block → Ccm.Block}
    {michael : List UInt8 → List UInt8 → List UInt8} {sec : SecurityPriv} {k : RxCrypto}
    (h : OneFragment a n) (hwep : a.encrypt = encWep40 ∨ a.encrypt = encWep104)
    (hair : OnAir (rtwWepEncrypt (driverCrypto aes michael) sec a fragLen bufAddr m)
      (bufAddr + txdescOffset) a f)
    (hkey : k.dot11DefKey f.attrib.keyIndex = sec.dot11DefKey) :
    (∀ i < 4, f.mem (a.hdrlen + i) = m (bufAddr + txdescOffset + a.hdrlen + i)) ∧
      ∃ buf, rtwWepDecryptFrame k f = some buf ∧
        Restored f buf (readBytes m (bufAddr + txdescOffset + a.ivLen + a.hdrlen) n) := by
  have hivLen : a.ivLen = 4 := by
    rw [h.ivLen, setIceIvLen, if_pos hwep]
  have hsent : rtwWepEncrypt (driverCrypto aes michael) sec a fragLen bufAddr m
      = arcfourFragment (driverCrypto aes michael) (readBytes m (bufAddr + txdescOffset + a.hdrlen) 3
          ++ sec.dot11DefKey) a m (bufAddr + txdescOffset, n) := by
    unfold rtwWepEncrypt
    rw [if_pos hwep, h.visits]
    rfl
  rw [hsent] at hair
  obtain ⟨hlength, hlow, hleft⟩ := arcfour_received h hair
  have hpayload : f.payload = a.hdrlen + 4 := by
    unfold RecvFrame.payload
    rw [hair.hdrlen, hair.ivLen, hivLen]
  have hwepkey : k.wepkey f = readBytes m (bufAddr + txdescOffset + a.hdrlen) 3
      ++ sec.dot11DefKey := by
    unfold RxCrypto.wepkey
    rw [hkey, hair.hdrlen, readBytes_shift (bufAddr + txdescOffset)
      (fun x hx hxn => hlow x (by omega)) rfl]
  rw [← hwepkey] at hleft
  refine ⟨fun i hi => by rw [hlow _ (by omega), ← Nat.add_assoc], _, ?_,
    restored_of_overwrite hair.inBuf hlength
      (length_readBytes m (bufAddr + txdescOffset + a.ivLen + a.hdrlen) n) hleft⟩
  have hwepF : f.attrib.encrypt = encWep40 ∨ f.attrib.encrypt = encWep104 := by
    rw [hair.encrypt]
    exact hwep
  unfold rtwWepDecryptFrame
  rw [if_pos hwepF, if_neg (by omega)]

/-- **The round trip.**  For every key, transmitter address, packet number, header length and body:
a frame with the IV of `TKIP_IV` or `WEP_IV` that the sender encrypted as one fragment is
accepted by a receiver with its key, which reads the packet number back and has the body, with
the ICV of it behind. -/
theorem sw_round_trip {aes : List UInt8 → Ccm.Block → Ccm.Block}
    {michael : List UInt8 → List UInt8 → List UInt8} {sec : SecurityPriv} {k : RxCrypto} {iv : Mem}
    {pn keyidx : Nat} (h : OneFragment a n) :
    (a.encrypt = encTkip → pn < 2 ^ 48 →
      (∀ i < 8, m (bufAddr + txdescOffset + a.hdrlen + i) = (tkipIv iv pn keyidx).1 i) →
      OnAir (rtwTkipEncrypt (driverCrypto aes michael) sec a fragLen bufAddr m)
        (bufAddr + txdescOffset) a f →
      k.prwskey f.attrib = some (prwskey sec a) →
      Nat.ofDigits 256 ((getTkipPn f.mem a.hdrlen).map UInt8.toNat) = pn ∧
        ∃ buf, rtwTkipDecrypt k f = some (.success, buf) ∧
          Restored f buf (readBytes m (bufAddr + txdescOffset + a.ivLen + a.hdrlen) n)) ∧
    (a.encrypt = encWep40 ∨ a.encrypt = encWep104 →
      (∀ i < 4, m (bufAddr + txdescOffset + a.hdrlen + i) = (wepIv iv pn keyidx).1 i) →
      OnAir (rtwWepEncrypt (driverCrypto aes michael) sec a fragLen bufAddr m)
        (bufAddr + txdescOffset) a f →
      k.dot11DefKey f.attrib.keyIndex = sec.dot11DefKey →
      (∀ i < 4, f.mem (a.hdrlen + i) = (wepIv iv pn keyidx).1 i) ∧
        ∃ buf, rtwWepDecryptFrame k f = some buf ∧
          Restored f buf (readBytes m (bufAddr + txdescOffset + a.ivLen + a.hdrlen) n)) := by
  constructor
  · intro htkip hpn hiv hair hkey
    obtain ⟨hsame, hrestored⟩ := tkip_round_trip h htkip hair hkey
    exact ⟨getTkipPn_tkipIv hpn fun i hi => (hsame i hi).trans (hiv i hi), hrestored⟩
  · intro hwep hiv hair hkey
    obtain ⟨hsame, hrestored⟩ := wep_round_trip h hwep hair hkey
    exact ⟨fun i hi => (hsame i hi).trans (hiv i hi), hrestored⟩

end Frames

/-! ## 2. Two frames -/

/-- What arrives of a buffer, in a frame of its own. -/
def airFrame (m : Mem) (pframe : Nat) (a : PktAttrib) : RecvFrame where
  id := 0
  attrib := { queryRxDescStatus ⟨0, 0, 0, true, 0, false, false, 0, 0⟩ with
    hdrlen := a.hdrlen, privacy := 1, encrypt := a.encrypt, ivLen := a.ivLen, icvLen := a.icvLen
    ra := a.ra, ta := a.ta }
  buf := readBytes m pframe a.lastTxcmdsz
  rxData := 0
  rxTail := a.lastTxcmdsz

theorem airFrame_onAir (m : Mem) (pframe : Nat) (a : PktAttrib) :
    OnAir m pframe a (airFrame m pframe a) := by
  refine ⟨rfl, fun i hi => ?_, ⟨Nat.zero_le _, ?_⟩, rfl, rfl, rfl, rfl⟩
  · unfold RecvFrame.mem airFrame
    dsimp only
    rw [Nat.zero_add, getD_readBytes _ hi]
  · exact (length_readBytes m pframe a.lastTxcmdsz).ge

/-- A packet of three bytes in one fragment. -/
def threeBytes (encrypt : Nat) : PktAttrib :=
  { initAttrib with
    ta := ⟨0x10, 1, 2, 3, 4, 5⟩, ra := ⟨2, 0, 0, 0, 0, 1⟩, hdrlen := 24, encrypt := encrypt
    bswenc := true, ivLen := (setIceIvLen encrypt).1, icvLen := 4
    dot118021xUncstKey := List.replicate 16 7, nrFrags := 1
    lastTxcmdsz := 24 + (setIceIvLen encrypt).1 + 3 + 4 }

/-- The sender has the receiver's WEP key. -/
def wepSecurity : SecurityPriv where
  dot11AuthAlgrthm := .open_
  dot11PrivacyAlgrthm := encWep40
  dot11PrivacyKeyIndex := 0
  dot11DefKey := [1, 2, 3, 4, 5]
  dot118021XGrpPrivacy := 0
  dot118021XGrpKeyid := 0
  dot118021XGrpKey := []
  dot118021XGrptxmickey := []
  busetkipkey := false
  swEncrypt := true
  hwDecrypted := false
  staPkGkConflict := false

/-- A buffer at address 1000 with the given IV behind a header of zeros, and `0xaa` behind it. -/
def bufferWith (iv : List UInt8) : Mem :=
  overwrite (fun _ => 0xaa) 1040 (List.replicate 24 0 ++ iv)

theorem sw_round_trip_both :
    (∃ f buf, Nat.ofDigits 256 ((getTkipPn f.mem 24).map UInt8.toNat) = 0x123456789abc ∧
      rtwTkipDecrypt pairwiseCrypto f = some (.success, buf) ∧ Restored f buf [0xaa, 0xaa, 0xaa]) ∧
    ∃ f buf, rtwWepDecryptFrame pairwiseCrypto f = some buf ∧ Restored f buf [0xaa, 0xaa, 0xaa] := by
  constructor
  · have h : OneFragment (threeBytes encTkip) 3 := ⟨rfl, rfl, rfl, rfl⟩
    have hall := (@sw_round_trip (threeBytes encTkip) _ (bufferWith (readBytes (tkipIv (fun _ => 0)
      0x123456789abc 1).1 0 8)) 3 2346 1000 (fun _ b => b) (fun _ _ => []) wepSecurity
      pairwiseCrypto (fun _ => 0) 0x123456789abc 1 h).1 rfl (by decide) (by decide)
      (airFrame_onAir _ _ _) (by decide)
    obtain ⟨hpn, buf, hrun, hrestored⟩ := hall
    exact ⟨_, buf, hpn, hrun, hrestored⟩
  · have h : OneFragment (threeBytes encWep40) 3 := ⟨rfl, rfl, rfl, rfl⟩
    have hall := (@sw_round_trip (threeBytes encWep40) _ (bufferWith (readBytes (wepIv (fun _ => 0)
      0x123456 0).1 0 4)) 3 2346 1000 (fun _ b => b) (fun _ _ => []) wepSecurity
      pairwiseCrypto (fun _ => 0) 0x123456 0 h).2 (.inl rfl) (by decide)
      (airFrame_onAir _ _ _) rfl
    obtain ⟨-, buf, hrun, hrestored⟩ := hall
    exact ⟨_, buf, hrun, hrestored⟩

end Rtl8723bs
