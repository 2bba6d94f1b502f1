/-
# What software decryption lets through

`decryptor` returns a frame when its cipher's function did not answer `_FAIL`.  `rtw_wep_decrypt`
answers nothing.  `rtw_tkip_decrypt` compares the four bytes at the end of the frame, even when
payload and ICV are shorter than that.  `rtw_aes_decrypt` compares a MIC that is the standard's
only for some header forms, and only when the frame fits the `message` buffer.

Whether a frame can pass without the check value of the body it leaves is decided by its header,
its length and the keys (`decryptor_authentic_iff`).
-/
import Rtl8723bs.Rx.CcmpMic

namespace Rtl8723bs

open Ccm

/-! ## 1. `decryptor` and the check values -/

/-- The frame with the key index that `decryptor` reads from the IV. -/
def RecvFrame.withKeyIndex (f : RecvFrame) : RecvFrame :=
  { f with attrib := { f.attrib with
      keyIndex := (f.mem (f.attrib.hdrlen + 3)).toNat / 64 % 4 } }

/-- What `decryptor` does with a frame that is not decrypted yet: its answer and the bytes that
are left, or `none` where a loop does not come back. -/
def swDecrypt (k : RxCrypto) (f : RecvFrame) : Option (RxStatus × List UInt8) :=
  let f := f.withKeyIndex
  if f.attrib.encrypt = encWep40 ∨ f.attrib.encrypt = encWep104 then
    (rtwWepDecryptFrame k f).map fun buf => (.success, buf)
  else if f.attrib.encrypt = encTkip then rtwTkipDecrypt k f
  else if f.attrib.encrypt = encAes then rtwAesDecrypt k f
  else some (.success, f.buf)

/-- The ICV of a body: its CRC-32, least significant byte first. -/
def icvOf (body : List UInt8) : List UInt8 :=
  (List.range 4).map (u32Byte (Crc32.crc32 body))

theorem icvBytes_eq (body : List UInt8) : icvBytes body = icvOf body := by
  unfold icvBytes icvOf
  rw [getcrc32_eq]
  rfl

/-- The frame `f` carries the check value of the body that is left of it in `buf`: for WEP and TKIP
the ICV behind the body, for CCMP the MIC of IEEE 802.11 under the key of the frame. -/
def Authentic (k : RxCrypto) (f : RecvFrame) (buf : List UInt8) : Prop :=
  let left := ({ f with buf := buf } : RecvFrame).mem
  let length := f.cryptLength.toNat
  if f.attrib.encrypt = encAes then
    8 ≤ length ∧ ∃ key, k.prwskey f.withKeyIndex.attrib = some key ∧
      readBytes f.mem (f.payload + (length - 8)) 8
        = tag ccmpParams (k.aes key) (ieeeNonce f.mem f.attrib.hdrlen) (ieeeHtcAad f.mem)
            (readBytes left f.payload (length - 8))
  else 4 ≤ length ∧ icvAt left f.payload length = icvOf (readBytes left f.payload (length - 4))

/-- Whatever stands behind the header of `p`, whatever the block function and the scratch
buffer, what `decryptor` returns is authentic. -/
def AlwaysAuthentic (k : RxCrypto) (p : RecvFrame) : Prop :=
  ∀ (aes : List UInt8 → Block → Block) (message : Mem) (f : RecvFrame), SameHeader p f → ∀ buf,
    swDecrypt { k with aes := aes, message := message } f = some (.success, buf) →
      Authentic { k with aes := aes } f buf

/-- No key index of the IV finds a key for the frame. -/
def NoKey (k : RxCrypto) (p : RecvFrame) : Prop :=
  ∀ i < 4, k.prwskey { p.attrib with keyIndex := i } = none

/-- The condition: no frame passes at all, or the check that is made is the right one. -/
def Guarded (k : RxCrypto) (p : RecvFrame) : Prop :=
  if p.attrib.encrypt = encTkip then p.cryptLength < 0 ∨ NoKey k p ∨ 4 ≤ p.cryptLength
  else if p.attrib.encrypt = encAes then
    p.cryptLength < 8 ∨ NoKey k p ∨
      (getOrder p.mem = false ∧ getFragNum p.mem = 0 ∧ getFrameSubType p.mem &&& 0x40 = 0 ∧
        p.len ≤ maxMsgSize)
  else p.cryptLength < 0

/-- **`decryptor` is `swDecrypt`** on a frame with one of the ciphers, when that comes back. -/
theorem decryptor_swDecrypt {env : RecvEnv} {k : RxCrypto} {f : RecvFrame} {r : RxStatus}
    {buf : List UInt8} (henc : f.attrib.encrypt ∈ [encWep40, encWep104, encTkip, encAes])
    (hdec : f.attrib.bdecrypted = 0) (h : swDecrypt k f = some (r, buf)) :
    ((decryptor (env.withCrypto k) f).1 = .fail ↔ r = .fail) ∧
      (decryptor (env.withCrypto k) f).2.buf = buf := by
  have hpos : f.attrib.encrypt ≠ 0 := by
    rintro hzero
    rw [hzero] at henc
    simp [encWep40, encWep104, encTkip, encAes] at henc
  have hframe : swDecryptFrame (env.withCrypto k) f.withKeyIndex
      = (r, { f.withKeyIndex with buf := buf }) := by
    unfold swDecrypt at h
    unfold swDecryptFrame RecvEnv.withCrypto
    dsimp only at h ⊢
    split at h
    · rename_i hwep
      rw [if_pos hwep]
      obtain ⟨b, hb, heq⟩ := Option.map_eq_some_iff.mp h
      obtain ⟨rfl, rfl⟩ := Prod.mk.inj heq
      rw [hb]
      rfl
    · rename_i hwep
      rw [if_neg hwep]
      split at h
      · rename_i htkip
        rw [if_pos htkip, h]
        rfl
      · rename_i htkip
        rw [if_neg htkip]
        split at h
        · rename_i haes
          rw [if_pos haes, h]
          rfl
        · rename_i haes
          rw [if_neg haes]
          obtain ⟨rfl, rfl⟩ := Prod.mk.inj (Option.some.inj h)
          rfl
  rw [decryptor_of_swDecryptFrame hpos hdec hframe]
  cases r <;> exact ⟨by simp, rfl⟩

/-! ## 2. Frames of the attacker's choice -/

/-- Two lists that were written one behind the other. -/
theorem readBytes_overwrite_append (m : Mem) (off : Nat) (a b : List UInt8) :
    readBytes (overwrite m off (a ++ b)) off a.length = a ∧
      readBytes (overwrite m off (a ++ b)) (off + a.length) b.length = b := by
  constructor
  · refine Eq.trans (readBytes_congr fun i hi hin => ?_) (readBytes_overwrite m off a)
    unfold overwrite
    rw [if_pos ⟨hi, by rw [List.length_append]; omega⟩, if_pos ⟨hi, hin⟩,
      List.getD_append _ _ _ _ (by omega)]
  · refine Eq.trans (readBytes_congr fun i hi hin => ?_)
      (readBytes_overwrite m (off + a.length) b)
    unfold overwrite
    rw [if_pos ⟨by omega, by rw [List.length_append]; omega⟩, if_pos ⟨hi, hin⟩,
      List.getD_append_right _ _ _ _ (by omega), Nat.sub_sub]

/-- The frame with other bytes from `off` on. -/
def RecvFrame.patch (p : RecvFrame) (off : Nat) (l : List UInt8) : RecvFrame :=
  { p with buf := p.store (overwrite p.mem off l) }

section Frames

variable {k : RxCrypto} {p f : RecvFrame}

theorem SameHeader.trans {g : RecvFrame} (hf : SameHeader p f) (hg : SameHeader f g) :
    SameHeader p g := by
  refine ⟨hg.attrib.trans hf.attrib, ⟨hg.place.1.trans hf.place.1, hg.place.2.1.trans hf.place.2.1,
    hg.place.2.2.trans hf.place.2.2⟩, fun i hi => ?_⟩
  rw [hg.header i (by rw [hf.attrib]; exact hi), hf.header i hi]

theorem DataAdmitted.mem_patch (h : DataAdmitted p) {off : Nat} (l : List UInt8) {i : Nat}
    (hi : i < p.len) : (p.patch off l).mem i = overwrite p.mem off l i :=
  p.mem_store _ (h.lt_buf hi)

theorem DataAdmitted.patch (h : DataAdmitted p) {off : Nat} (l : List UInt8)
    (hoff : p.attrib.hdrlen ≤ off) (hlen : p.attrib.hdrlen ≤ p.len) :
    SameHeader p (p.patch off l) :=
  ⟨rfl, ⟨rfl, rfl, p.length_store _⟩, fun i hi => by
    rw [h.mem_patch l (by omega), overwrite_of_lt (by omega)]⟩

theorem cryptLength_eq (f : RecvFrame) (h : 0 ≤ f.cryptLength) :
    f.len = f.payload + f.cryptLength.toNat := by
  unfold RecvFrame.payload
  unfold RecvFrame.cryptLength at h ⊢
  omega

theorem SameHeader.cryptLength (hf : SameHeader p f) :
    f.cryptLength = p.cryptLength ∧ f.payload = p.payload := by
  unfold RecvFrame.cryptLength RecvFrame.payload
  rw [hf.len, hf.attrib]
  exact ⟨rfl, rfl⟩

/-- Every key index stands in the IV of some frame. -/
theorem DataAdmitted.exists_keyIndex (h : DataAdmitted p) (hlen : p.attrib.hdrlen + 3 < p.len)
    {i : Nat} (hi : i < 4) :
    ∃ q, SameHeader p q ∧ q.withKeyIndex.attrib = { p.attrib with keyIndex := i } := by
  refine ⟨p.patch (p.attrib.hdrlen + 3) [UInt8.ofNat (64 * i)], h.patch _ (by omega) (by omega), ?_⟩
  have hbyte : (p.patch (p.attrib.hdrlen + 3) [UInt8.ofNat (64 * i)]).mem (p.attrib.hdrlen + 3)
      = UInt8.ofNat (64 * i) := by
    rw [h.mem_patch _ hlen]
    simp [overwrite]
  unfold RecvFrame.withKeyIndex
  dsimp only [RecvFrame.patch] at hbyte ⊢
  rw [hbyte, UInt8.toNat_ofNat']
  have hindex : 64 * i % 2 ^ 8 / 64 % 4 = i := by omega
  rw [hindex]

/-! ## 3. RC4 ciphers -/

/-- The RC4 decryption of a frame whose payload was encrypted under the same key. -/
theorem arcfourFrame_patch (h : DataAdmitted p) {key data : List UInt8}
    (hcrypt : 0 ≤ p.cryptLength) (hdata : data.length = p.cryptLength.toNat) {i : Nat}
    (hi : i < p.len) :
    arcfourFrame key (p.patch p.payload (rc4 key data)) i = overwrite p.mem p.payload data i := by
  have hlen := cryptLength_eq p hcrypt
  have hbytes : (p.patch p.payload (rc4 key data)).cryptBytes = rc4 key data := by
    change readBytes (p.patch p.payload (rc4 key data)).mem p.payload p.cryptLength.toNat = _
    rw [readBytes_congr (fun x _ hx => h.mem_patch (rc4 key data) (by omega)), ← hdata,
      ← length_rc4 key data, readBytes_overwrite]
  change overwrite (p.patch p.payload (rc4 key data)).mem p.payload
    (rc4 key (p.patch p.payload (rc4 key data)).cryptBytes) i = _
  rw [hbytes, rc4_rc4]
  unfold overwrite
  split
  · rfl
  · rename_i hout
    rw [h.mem_patch _ hi]
    unfold overwrite
    rw [length_rc4, if_neg hout]

/-- What was decrypted is what is left. -/
theorem DataAdmitted.mem_stored (h : DataAdmitted f) (m : Mem) {i : Nat} (hi : i < f.len) :
    ({ f with buf := f.store m } : RecvFrame).mem i = m i :=
  f.mem_store m (h.lt_buf hi)

/-- `rtw_wep_decrypt` looks at nothing, so a wrong ICV passes. -/
theorem wep_not_authentic (h : DataAdmitted p)
    (hwep : p.attrib.encrypt = encWep40 ∨ p.attrib.encrypt = encWep104)
    (hcrypt : 0 ≤ p.cryptLength) : ¬ AlwaysAuthentic k p := by
  intro hall
  have hlen := cryptLength_eq p hcrypt
  have hpayload : p.payload = p.attrib.hdrlen + 4 := by
    unfold RecvFrame.payload
    rw [h.ivLen, setIceIvLen, if_pos hwep]
  have hnaes : ¬ p.attrib.encrypt = encAes := by
    rcases hwep with hw | hw <;> rw [hw] <;> decide
  -- nothing but WEP's own test stands in the way of a frame
  have hpass : ∀ f, SameHeader p f → swDecrypt k f
      = some (.success, f.store (arcfourFrame (k.wepkey f.withKeyIndex) f)) := by
    intro f hf
    have hwepF : f.withKeyIndex.attrib.encrypt = encWep40 ∨
        f.withKeyIndex.attrib.encrypt = encWep104 := by
      change f.attrib.encrypt = encWep40 ∨ f.attrib.encrypt = encWep104
      rw [hf.attrib]
      exact hwep
    have hcryptF : ¬ f.withKeyIndex.cryptLength < 0 := by
      change ¬ f.cryptLength < 0
      rw [hf.cryptLength.1]
      omega
    unfold swDecrypt
    dsimp only
    rw [if_pos hwepF, rtwWepDecryptFrame, if_pos hwepF, if_neg hcryptF]
    rfl
  by_cases hicv : 4 ≤ p.cryptLength.toNat
  · let body : List UInt8 := List.replicate (p.cryptLength.toNat - 4) 0
    let icv : List UInt8 := (icvOf body).map (· ^^^ 1)
    have hlenBody : body.length = p.cryptLength.toNat - 4 := List.length_replicate
    have hlenIcv : icv.length = 4 := rfl
    have hdata : (body ++ icv).length = p.cryptLength.toNat := by
      rw [List.length_append, hlenBody, hlenIcv]
      omega
    let key := k.wepkey p.withKeyIndex
    have hsame : SameHeader p (p.patch p.payload (rc4 key (body ++ icv))) :=
      h.patch _ (by omega) (by omega)
    have hlow : ∀ i < p.payload, (p.patch p.payload (rc4 key (body ++ icv))).mem i = p.mem i :=
      fun i hi => by rw [h.mem_patch _ (by omega), overwrite_of_lt hi]
    have hleft := fun i hi => @arcfourFrame_patch p h key _ hcrypt hdata i hi
    generalize hf : p.patch p.payload (rc4 key (body ++ icv)) = f at hsame hlow hleft
    have hkey : k.wepkey f.withKeyIndex = key := by
      have hindex : f.withKeyIndex.attrib = p.withKeyIndex.attrib := by
        unfold RecvFrame.withKeyIndex
        rw [hsame.attrib, hlow _ (by omega)]
      have hiv : readBytes f.mem p.attrib.hdrlen 3 = readBytes p.mem p.attrib.hdrlen 3 :=
        readBytes_congr fun i _ hi => hlow i (by omega)
      unfold RxCrypto.wepkey
      rw [hindex]
      exact congrArg (· ++ _) hiv
    have hauth := hall k.aes k.message f hsame _ (hpass f hsame)
    rw [hkey] at hauth
    have hnaesF : ¬ f.attrib.encrypt = encAes := by
      rw [hsame.attrib]
      exact hnaes
    unfold Authentic at hauth
    rw [if_neg hnaesF, hsame.cryptLength.1, hsame.cryptLength.2] at hauth
    have hmem : ∀ i, p.payload ≤ i → i < p.payload + p.cryptLength.toNat →
        ({ f with buf := f.store (arcfourFrame key f) } : RecvFrame).mem i
          = overwrite p.mem p.payload (body ++ icv) i := by
      intro i _ hi
      rw [(hsame.form h).1.mem_stored _ (by rw [hsame.len]; omega), hleft i (by omega)]
    obtain ⟨hbody, htail⟩ := readBytes_overwrite_append p.mem p.payload body icv
    rw [hlenBody] at hbody htail
    rw [hlenIcv] at htail
    have hat : p.payload + p.cryptLength.toNat - 4 = p.payload + (p.cryptLength.toNat - 4) := by
      omega
    obtain ⟨-, hcarried⟩ := hauth
    unfold icvAt at hcarried
    rw [hat, readBytes_congr (fun i hi hin => hmem i (by omega) (by omega)), htail,
      readBytes_congr (fun i hi hin => hmem i (by omega) (by omega)), hbody] at hcarried
    have hfirst : u32Byte (Crc32.crc32 body) 0 ^^^ 1 = u32Byte (Crc32.crc32 body) 0 :=
      (List.cons.inj hcarried).1
    have hone : (1 : UInt8) = 0 := by
      have hx := congrArg (u32Byte (Crc32.crc32 body) 0 ^^^ ·) hfirst
      simpa only [← UInt8.xor_assoc, UInt8.xor_self, UInt8.zero_xor] using hx
    exact absurd hone (by decide)
  · have hsame : SameHeader p p := ⟨rfl, ⟨rfl, rfl, rfl⟩, fun _ _ => rfl⟩
    have hauth := hall k.aes k.message p hsame _ (hpass p hsame)
    unfold Authentic at hauth
    rw [if_neg hnaes] at hauth
    exact hicv hauth.1

/-- What `rtw_tkip_decrypt` answers, behind the key. -/
theorem swDecrypt_tkip (htkip : f.attrib.encrypt = encTkip) :
    swDecrypt k f = match k.prwskey f.withKeyIndex.attrib with
      | none => some (.fail, f.buf)
      | some prwskey =>
        if f.cryptLength < 0 then none
        else
          let m := arcfourFrame (tkipRxKey prwskey f) f
          some (if icvBytes (readBytes m f.payload (f.cryptLength.toNat - 4))
            = icvAt m f.payload f.cryptLength.toNat then .success else .fail, f.store m) := by
  have hnot : ¬ (f.withKeyIndex.attrib.encrypt = encWep40 ∨
      f.withKeyIndex.attrib.encrypt = encWep104) := by
    change ¬ (f.attrib.encrypt = encWep40 ∨ f.attrib.encrypt = encWep104)
    rw [htkip]
    decide
  have htkipF : f.withKeyIndex.attrib.encrypt = encTkip := htkip
  unfold swDecrypt
  dsimp only
  rw [if_neg hnot, if_pos htkipF, rtwTkipDecrypt, if_pos htkipF]
  rfl

/-- **TKIP**: with four bytes for the ICV, it is compared. -/
theorem tkip_authentic (h : DataAdmitted p) (htkip : p.attrib.encrypt = encTkip)
    (hicv : 4 ≤ p.cryptLength) : AlwaysAuthentic k p := by
  intro aes message f hf buf hrun
  rw [swDecrypt_tkip (by rw [hf.attrib]; exact htkip)] at hrun
  obtain ⟨hcrypt, hpayload⟩ := hf.cryptLength
  have hlen := cryptLength_eq f (by omega)
  split at hrun
  · cases hrun
  · rename_i prwskey hkey
    split at hrun
    · cases hrun
    · obtain ⟨hstatus, rfl⟩ := Prod.mk.inj (Option.some.inj hrun)
      split at hstatus
      case isFalse => cases hstatus
      rename_i hcompare
      have hmem := fun i hi => (hf.form h).1.mem_stored
        (arcfourFrame (tkipRxKey prwskey f) f) (i := i) hi
      have hnaes : ¬ f.attrib.encrypt = encAes := by
        rw [hf.attrib, htkip]
        decide
      unfold Authentic
      rw [if_neg hnaes]
      refine ⟨by omega, ?_⟩
      unfold icvAt at hcompare ⊢
      rw [readBytes_congr (fun i _ hi => hmem i (by omega)),
        readBytes_congr (fun i _ hi => hmem i (by omega)), ← hcompare, icvBytes_eq]

/-- Payload and ICV of less than four bytes are compared with the end of the IV, which can be made
zero with them. -/
theorem tkip_short_not_authentic (h : DataAdmitted p) (htkip : p.attrib.encrypt = encTkip)
    (hcrypt : 0 ≤ p.cryptLength) (hshort : p.cryptLength < 4) (hkey : ¬ NoKey k p) :
    ¬ AlwaysAuthentic k p := by
  intro hall
  have hlen := cryptLength_eq p hcrypt
  have hpayload : p.payload = p.attrib.hdrlen + 8 := by
    unfold RecvFrame.payload
    rw [h.ivLen, htkip]
    rfl
  unfold NoKey at hkey
  push Not at hkey
  obtain ⟨i, hi, hkey⟩ := hkey
  obtain ⟨prwskey, hkey⟩ := Option.ne_none_iff_exists'.mp hkey
  obtain ⟨q, hq, hqi⟩ := h.exists_keyIndex (by omega) hi
  -- the upper TSC bytes zero, and the payload what decrypts to zero
  have hadm := (hq.form h).1
  have hz : SameHeader q (q.patch (q.attrib.hdrlen + 4) (List.replicate 4 0)) :=
    hadm.patch _ (by omega) (by rw [hq.attrib, hq.len]; omega)
  have hzmem : ∀ x < p.len, (q.patch (q.attrib.hdrlen + 4) (List.replicate 4 0)).mem x
      = overwrite q.mem (p.attrib.hdrlen + 4) (List.replicate 4 0) x := by
    intro x hx
    rw [hadm.mem_patch _ (by rw [hq.len]; exact hx), hq.attrib]
  generalize q.patch (q.attrib.hdrlen + 4) (List.replicate 4 0) = z at hz hzmem
  have hpz : SameHeader p z := hq.trans hz
  have hadmZ := (hpz.form h).1
  obtain ⟨hcryptZ, hpayZ⟩ := hpz.cryptLength
  let key := tkipRxKey prwskey z
  have hsame : SameHeader z (z.patch z.payload (rc4 key (List.replicate p.cryptLength.toNat 0))) :=
    hadmZ.patch _ (by rw [hpayZ, hpz.attrib]; omega) (by rw [hpz.attrib, hpz.len]; omega)
  have hlow : ∀ x < p.payload, (z.patch z.payload (rc4 key
      (List.replicate p.cryptLength.toNat 0))).mem x = z.mem x := fun x hx => by
    rw [hadmZ.mem_patch _ (by rw [hpz.len]; omega), overwrite_of_lt (by omega)]
  have hleft : ∀ x < p.len, arcfourFrame key (z.patch z.payload (rc4 key
      (List.replicate p.cryptLength.toNat 0))) x
        = overwrite z.mem p.payload (List.replicate p.cryptLength.toNat 0) x := by
    intro x hx
    rw [arcfourFrame_patch hadmZ (by omega) (by rw [List.length_replicate, hcryptZ])
      (by rw [hpz.len]; exact hx), hpayZ]
  generalize z.patch z.payload (rc4 key (List.replicate p.cryptLength.toNat 0)) = f
    at hsame hlow hleft
  have hpf : SameHeader p f := hpz.trans hsame
  have hindex : f.withKeyIndex.attrib = { p.attrib with keyIndex := i } := by
    rw [← hqi]
    unfold RecvFrame.withKeyIndex
    rw [hpf.attrib, hq.attrib, hlow _ (by omega), hzmem _ (by omega), overwrite_of_lt (by omega)]
  have hkeyF : tkipRxKey prwskey f = key := by
    have htsc : getTkipPn f.mem p.attrib.hdrlen = getTkipPn z.mem p.attrib.hdrlen := by
      unfold getTkipPn
      rw [hlow _ (by omega), hlow _ (by omega), hlow _ (by omega), hlow _ (by omega),
        hlow _ (by omega), hlow _ (by omega)]
    have hta : f.attrib = z.attrib := hsame.attrib
    simp only [key, tkipRxKey, hta, hpz.attrib, htsc]
  have hzero : ∀ x, p.payload + p.cryptLength.toNat - 4 ≤ x → x < p.payload + p.cryptLength.toNat →
      arcfourFrame key f x = 0 := by
    intro x hx hxn
    rw [hleft x (by omega)]
    unfold overwrite
    split
    · rw [List.getD_replicate _ (by omega)]
    · rename_i hout
      rw [List.length_replicate] at hout
      rw [hzmem x (by omega)]
      unfold overwrite
      rw [if_pos ⟨by omega, by rw [List.length_replicate]; omega⟩,
        List.getD_replicate _ (by omega)]
  have hrun : swDecrypt k f = some (.success, f.store (arcfourFrame key f)) := by
    rw [swDecrypt_tkip (by rw [hpf.attrib]; exact htkip), hindex, hkey]
    dsimp only
    rw [hpf.cryptLength.1, hpf.cryptLength.2, if_neg (by omega), hkeyF]
    have hnone : p.cryptLength.toNat - 4 = 0 := by omega
    have hicv : icvAt (arcfourFrame key f) p.payload p.cryptLength.toNat = List.replicate 4 0 := by
      have hread : ∀ o n, (∀ x, o ≤ x → x < o + n → arcfourFrame key f x = 0) →
          readBytes (arcfourFrame key f) o n = List.replicate n 0 := by
        intro o n
        induction n generalizing o with
        | zero => exact fun _ => rfl
        | succ n ih =>
          intro hall
          rw [readBytes, List.replicate_succ, hall o (Nat.le_refl o) (by omega),
            ih (o + 1) (fun x hx hxn => hall x (by omega) (by omega))]
      exact hread _ _ fun x hx hxn => hzero x hx (by omega)
    have hempty : icvBytes [] = List.replicate 4 0 := by decide +kernel
    rw [hnone, hicv, readBytes, if_pos hempty]
  have hauth := hall k.aes k.message f hpf _ hrun
  have hnaes : ¬ f.attrib.encrypt = encAes := by
    rw [hpf.attrib, htkip]
    decide
  unfold Authentic at hauth
  rw [if_neg hnaes, hpf.cryptLength.1] at hauth
  omega

/-! ## 4. CCMP -/

/-- What it takes to pass `rtw_aes_decrypt`. -/
theorem swDecrypt_aes_iff {key : List UInt8} {n : Nat} {buf : List UInt8}
    (haes : f.attrib.encrypt = encAes) (hkey : k.prwskey f.withKeyIndex.attrib = some key)
    (hcrypt : f.cryptLength = n + 8) :
    swDecrypt k f = some (.success, buf) ↔
      (aesDecipher (k.aes key) f.attrib.hdrlen f.mem (n + 8) k.message).1 = true ∧
        buf = f.store (aesDecipher (k.aes key) f.attrib.hdrlen f.mem (n + 8) k.message).2 := by
  have hnot : ¬ (f.withKeyIndex.attrib.encrypt = encWep40 ∨
      f.withKeyIndex.attrib.encrypt = encWep104) := by
    change ¬ (f.attrib.encrypt = encWep40 ∨ f.attrib.encrypt = encWep104)
    rw [haes]
    decide
  have hntkip : ¬ f.withKeyIndex.attrib.encrypt = encTkip := by
    change ¬ f.attrib.encrypt = encTkip
    rw [haes]
    decide
  have haesF : f.withKeyIndex.attrib.encrypt = encAes := haes
  have hcryptF : f.withKeyIndex.cryptLength = ((n + 8 : Nat) : Int) := by
    change f.cryptLength = _
    rw [hcrypt]
    rfl
  have hrun : swDecrypt k f = some (if (aesDecipher (k.aes key) f.attrib.hdrlen f.mem (n + 8)
      k.message).1 = true then .success else .fail,
        f.store (aesDecipher (k.aes key) f.attrib.hdrlen f.mem (n + 8) k.message).2) := by
    unfold swDecrypt
    dsimp only
    rw [if_neg hnot, if_neg hntkip, if_pos haesF, rtwAesDecrypt, if_pos haesF, hkey]
    dsimp only
    rw [hcryptF, if_neg (by omega)]
    rfl
  rw [hrun]
  constructor
  · intro heq
    obtain ⟨hstatus, rfl⟩ := Prod.mk.inj (Option.some.inj heq)
    refine ⟨by_contra fun hfail => ?_, rfl⟩
    rw [if_neg hfail] at hstatus
    cases hstatus
  · rintro ⟨hok, rfl⟩
    rw [if_pos hok]

/-- **A frame that passed is authentic** when its MIC is the standard's. -/
theorem authentic_aes_iff (h : DataAdmitted f) {key : List UInt8} {n : Nat} (message : Mem)
    (haes : f.attrib.encrypt = encAes) (hkey : k.prwskey f.withKeyIndex.attrib = some key)
    (hcrypt : f.cryptLength = n + 8) :
    Authentic k f (f.store (aesDecipher (k.aes key) f.attrib.hdrlen f.mem (n + 8) message).2) ↔
      MicHolds (k.aes key) f.attrib.hdrlen f.mem message n := by
  have hlen := cryptLength_eq f (by omega)
  have hpayload : f.payload = f.attrib.hdrlen + 8 := by
    unfold RecvFrame.payload
    rw [h.ivLen, haes]
    rfl
  have hn : f.cryptLength.toNat - 8 = n := by omega
  have hleft : readBytes ({ f with buf := f.store (aesDecipher (k.aes key) f.attrib.hdrlen f.mem
      (n + 8) message).2 } : RecvFrame).mem (f.attrib.hdrlen + 8) n
        = readBytes (aesDecipher (k.aes key) f.attrib.hdrlen f.mem (n + 8) message).2
            (f.attrib.hdrlen + 8) n :=
    readBytes_congr fun i _ hi => h.mem_stored _ (by omega)
  unfold Authentic MicHolds
  dsimp only
  rw [if_pos haes, hn, hpayload, hleft]
  constructor
  · rintro ⟨-, key', hkey', hmic⟩
    rw [hkey] at hkey'
    obtain rfl := Option.some.inj hkey'
    exact hmic
  · exact fun hmic => ⟨by omega, key, hkey, hmic⟩

/-- The base frame, with the MIC that `aes_decipher` computes for it. -/
def micPatch (E : Block → Block) (q : RecvFrame) (stale : Mem) (n : Nat) : RecvFrame :=
  q.patch (q.attrib.hdrlen + 8 + n)
    (List.ofFn fun j : Fin 8 => decipherMic E q.attrib.hdrlen q.mem stale n j)

/-- **Such a frame is accepted**, where the payload is looked for behind the header. -/
theorem micPatch_accepted {q : RecvFrame} {n : Nat} (h : DataAdmitted q) (E : Block → Block)
    (stale : Mem) (hlen : q.len = q.attrib.hdrlen + n + 16)
    (hq : qosHdrlen q.attrib.hdrlen q.mem = q.attrib.hdrlen) :
    SameHeader q (micPatch E q stale n) ∧
      (∀ i < q.attrib.hdrlen + 8 + n, (micPatch E q stale n).mem i = q.mem i) ∧
      (∀ j < 8, (micPatch E q stale n).mem (q.attrib.hdrlen + 8 + n + j)
        = decipherMic E q.attrib.hdrlen q.mem stale n j) ∧
      (aesDecipher E q.attrib.hdrlen (micPatch E q stale n).mem (n + 8) stale).1 = true := by
  have hhdr := h.le_hdrlen
  have hlow : ∀ i < q.attrib.hdrlen + 8 + n, (micPatch E q stale n).mem i = q.mem i := fun i hi =>
    (h.mem_patch _ (by omega)).trans (overwrite_of_lt hi)
  have hmic : ∀ j < 8, (micPatch E q stale n).mem (q.attrib.hdrlen + 8 + n + j)
      = decipherMic E q.attrib.hdrlen q.mem stale n j := by
    intro j hj
    refine (h.mem_patch _ (by omega)).trans ?_
    have hat : q.attrib.hdrlen + 8 + n + j - (q.attrib.hdrlen + 8 + n) = j := by omega
    unfold overwrite
    rw [List.length_ofFn, if_pos ⟨by omega, by omega⟩, hat, List.getD_eq_getElem _ _ (by simpa),
      List.getElem_ofFn]
  have hqF : qosHdrlen q.attrib.hdrlen (micPatch E q stale n).mem = q.attrib.hdrlen := by
    rw [qosHdrlen_congr _ (hlow 0 (by omega)), hq]
  refine ⟨h.patch _ (by omega) (by omega), hlow, hmic, ?_⟩
  rw [aesDecipher_accepts_iff E hhdr]
  intro j hj
  rw [hqF, hmic j hj]
  exact (decipherMic_congr E hhdr stale (fun i hi => hlow i (by omega)) hj).symm

/-- The MIC under the function that gives zero, on either side. -/
theorem chain_zero (b : Block) (bs : List Block) :
    chain (fun _ => zeroBlock) zeroBlock (b :: bs) = zeroBlock := by
  unfold chain
  rw [List.foldl_cons]
  exact List.foldlRecOn (motive := fun x => x = zeroBlock) bs _ rfl fun _ _ _ _ => rfl

theorem decipherMic_zero {hdrlen : Nat} (hhdr : 24 ≤ hdrlen) (m stale : Mem) (n : Nat) {j : Nat}
    (hj : j < 8) : decipherMic (fun _ => zeroBlock) hdrlen m stale n j = 0 := by
  have hle := le_qosHdrlen hdrlen m
  unfold decipherMic
  dsimp only
  rw [micAndEncrypt_mic _ (by omega) _ _ _ _ _ hj, chain_zero]
  exact UInt8.xor_self

theorem tag_zero (m : Mem) (hdrlen : Nat) (body : List UInt8) :
    (tag ccmpParams (fun _ => zeroBlock) (ieeeNonce m hdrlen) (ieeeHtcAad m) body).getD 0 0 = 0 := by
  unfold ieeeNonce ieeeHtcAad
  rw [getD_tag_ccmp _ _ _ _ (by decide)]
  unfold mac
  rw [blocks_aadOf _ _ _ _ (by split <;> simp), List.cons_append, chain_zero]
  exact UInt8.xor_self

/-- **A QoS header with HT Control**: the first two bytes of the MIC are compared with nothing. -/
theorem aes_qos_not_authentic {q : RecvFrame} {n : Nat} (h : DataAdmitted q)
    (hlen : q.len = q.attrib.hdrlen + n + 16)
    (hq : qosHdrlen q.attrib.hdrlen q.mem = q.attrib.hdrlen + 2) :
    ∃ f, SameHeader q f ∧ (∀ i < q.attrib.hdrlen + 8 + n, f.mem i = q.mem i) ∧
      (aesDecipher (fun _ => zeroBlock) q.attrib.hdrlen f.mem (n + 8) (fun _ => 0)).1 = true ∧
      ¬ MicHolds (fun _ => zeroBlock) q.attrib.hdrlen f.mem (fun _ => 0) n := by
  have hhdr := h.le_hdrlen
  let mic : List UInt8 := [1, 0, 0, 0, 0, 0, 0, 0, 0, 0]
  have hlow : ∀ i < q.attrib.hdrlen + 8 + n,
      (q.patch (q.attrib.hdrlen + 8 + n) mic).mem i = q.mem i := fun i hi =>
    (h.mem_patch _ (by omega)).trans (overwrite_of_lt hi)
  have hfirst : (q.patch (q.attrib.hdrlen + 8 + n) mic).mem (q.attrib.hdrlen + 8 + n) = 1 := by
    rw [h.mem_patch _ (by omega)]
    simp [overwrite, mic]
  -- behind the first byte there is zero, or no buffer any more
  have hzero : ∀ j < 8, (q.patch (q.attrib.hdrlen + 8 + n) mic).mem
      (q.attrib.hdrlen + 8 + n + (2 + j)) = 0 := by
    intro j hj
    have hover : overwrite q.mem (q.attrib.hdrlen + 8 + n) mic
        (q.attrib.hdrlen + 8 + n + (2 + j)) = 0 := by
      have hat : q.attrib.hdrlen + 8 + n + (2 + j) - (q.attrib.hdrlen + 8 + n) = 2 + j := by omega
      have hmic : ∀ j < 8, mic.getD (2 + j) 0 = 0 := by decide
      have hlenMic : mic.length = 10 := rfl
      unfold overwrite
      rw [if_pos ⟨by omega, by omega⟩, hat, hmic j hj]
    rcases Nat.lt_or_ge (q.rxData + (q.attrib.hdrlen + 8 + n + (2 + j))) q.buf.length with hin | hout
    · exact (q.mem_store _ hin).trans hover
    · unfold RecvFrame.mem RecvFrame.patch
      exact List.getD_eq_default _ _ (by rw [q.length_store]; exact hout)
  refine ⟨q.patch (q.attrib.hdrlen + 8 + n) mic, h.patch _ (by omega) (by omega), hlow, ?_, ?_⟩
  · have hqF : qosHdrlen q.attrib.hdrlen (q.patch (q.attrib.hdrlen + 8 + n) mic).mem
        = q.attrib.hdrlen + 2 := by
      rw [qosHdrlen_congr _ (hlow 0 (by omega)), hq]
    rw [aesDecipher_accepts_iff _ hhdr]
    intro j hj
    have hat : q.attrib.hdrlen + 2 + 8 + n + j = q.attrib.hdrlen + 8 + n + (2 + j) := by omega
    rw [hqF, decipherMic_zero hhdr _ _ _ hj, hat, hzero j hj]
  · intro hholds
    have hbyte := congrArg (fun l => l.getD 0 0) hholds
    rw [getD_readBytes _ (by decide), tag_zero] at hbyte
    have hone := hfirst.symm.trans hbyte
    exact absurd hone (by decide)

/-- Whatever stands behind header and payload of `q`, a MIC that is accepted is the standard's. -/
def AlwaysMicHolds (q : RecvFrame) (n : Nat) : Prop :=
  ∀ (E : Block → Block) (message : Mem) (f : RecvFrame), SameHeader q f →
    (∀ x < q.attrib.hdrlen + 8 + n, f.mem x = q.mem x) →
      (aesDecipher E q.attrib.hdrlen f.mem (n + 8) message).1 = true →
        MicHolds E q.attrib.hdrlen f.mem message n

section Mic

variable {q : RecvFrame} {n : Nat}

theorem AlwaysMicHolds.unshifted (hall : AlwaysMicHolds q n) (h : DataAdmitted q)
    (hlen : q.len = q.attrib.hdrlen + n + 16) :
    qosHdrlen q.attrib.hdrlen q.mem = q.attrib.hdrlen := by
  by_contra hne
  have hshift : qosHdrlen q.attrib.hdrlen q.mem = q.attrib.hdrlen + 2 := by
    unfold qosHdrlen at hne ⊢
    split at hne
    · rename_i hc
      exact if_pos hc
    · exact absurd rfl hne
  obtain ⟨f, hf, hlow, hok, hnot⟩ := aes_qos_not_authentic h hlen hshift
  exact hnot (hall _ _ f hf hlow hok)

/-- The MIC of the driver is that of the standard over the body that is left. -/
theorem AlwaysMicHolds.mic (hall : AlwaysMicHolds q n) (h : DataAdmitted q)
    (hlen : q.len = q.attrib.hdrlen + n + 16) (message : Mem) :
    decipherMic id q.attrib.hdrlen q.mem message n 2
      = (tag ccmpParams id (ieeeNonce q.mem q.attrib.hdrlen) (ieeeHtcAad q.mem)
          (readBytes (aesDecipher id q.attrib.hdrlen q.mem (n + 8) message).2
            (q.attrib.hdrlen + 8) n)).getD 2 0 := by
  have hhdr := h.le_hdrlen
  have hq := hall.unshifted h hlen
  obtain ⟨hf, hlow, hbytes, hok⟩ := micPatch_accepted h id message hlen hq
  have hholds := hall id message _ hf hlow hok
  obtain ⟨hnonce, haad⟩ := ieee_congr hhdr (fun x hx => hlow x (by omega))
  have hbody : readBytes (aesDecipher id q.attrib.hdrlen (micPatch id q message n).mem (n + 8)
      message).2 (q.attrib.hdrlen + 8) n
        = readBytes (aesDecipher id q.attrib.hdrlen q.mem (n + 8) message).2
            (q.attrib.hdrlen + 8) n :=
    readBytes_congr fun x _ hx => aesDecipher_snd_congr id hhdr message message
      (fun y hy => hlow y (by omega)) (by omega)
  unfold MicHolds at hholds
  rw [hnonce, haad, hbody] at hholds
  rw [← hbytes 2 (by decide), ← hholds, getD_readBytes _ (by decide)]

/-- One body has one MIC of the standard, whatever the scratch buffer holds. -/
theorem AlwaysMicHolds.fits (hall : AlwaysMicHolds q n) (h : DataAdmitted q)
    (hlen : q.len = q.attrib.hdrlen + n + 16) : q.attrib.hdrlen + n + 16 ≤ maxMsgSize := by
  by_contra hlong
  refine decipherMic_stale h.le_hdrlen q.mem (Nat.lt_of_not_le hlong) ?_
  rw [hall.mic h hlen, hall.mic h hlen]
  exact congrArg (fun body => (tag ccmpParams id (ieeeNonce q.mem q.attrib.hdrlen)
    (ieeeHtcAad q.mem) body).getD 2 0) (readBytes_congr fun _ _ _ => rfl)

/-- **Where every accepted MIC is the standard's**, the header is one that both authenticate
alike. -/
theorem AlwaysMicHolds.clear (hall : AlwaysMicHolds q n) (h : DataAdmitted q)
    (hlen : q.len = q.attrib.hdrlen + n + 16) :
    getOrder q.mem = false ∧ getFragNum q.mem = 0 ∧ getFrameSubType q.mem &&& 0x40 = 0 := by
  have hq := hall.unshifted h hlen
  have hfits := hall.fits h hlen
  obtain ⟨hf, hlow, -, hok⟩ := micPatch_accepted h id (fun _ => 0) hlen hq
  have hholds := hall id (fun _ => 0) _ hf hlow hok
  obtain ⟨hadm, horderF, hqcF, hfragF, hsubF⟩ := hf.form h
  have hhdrF : (micPatch id q (fun _ => 0) n).attrib.hdrlen = q.attrib.hdrlen := rfl
  generalize micPatch id q (fun _ => 0) n = f at *
  rw [← hhdrF] at hfits hok hholds
  have horder : getOrder q.mem = false := by
    cases horder : getOrder q.mem with
    | false => rfl
    | true =>
      cases hqc : qcExists q.mem with
      | true =>
        -- a QoS header with HT Control has 30 bytes
        have hlen30 := h.hdrlen
        rw [horder, isQosSubtype_of_qc h.data hqc] at hlen30
        unfold qosHdrlen at hq
        rw [if_pos ⟨hqc, by rw [hlen30]; decide⟩] at hq
        omega
      | false =>
        exact absurd hholds
          (not_micHolds_a4 hadm hfits (horderF.trans horder) (hqcF.trans hqc) hok)
  obtain ⟨hfrag, hbit⟩ := micHolds_fields hadm hfits (horderF.trans horder) hok hholds
  rw [hfragF] at hfrag
  rw [hsubF] at hbit
  exact ⟨horder, hfrag, hbit⟩

end Mic

/-- Without a key no frame passes. -/
theorem NoKey.refused (hnone : NoKey k p) (hf : SameHeader p f)
    (henc : p.attrib.encrypt = encTkip ∨ p.attrib.encrypt = encAes) (buf : List UInt8) :
    swDecrypt k f ≠ some (.success, buf) := by
  have hkey : k.prwskey f.withKeyIndex.attrib = none := by
    have hindex := hnone ((f.mem (p.attrib.hdrlen + 3)).toNat / 64 % 4) (Nat.mod_lt _ (by decide))
    unfold RecvFrame.withKeyIndex
    rw [hf.attrib]
    exact hindex
  have hencF : f.withKeyIndex.attrib.encrypt = p.attrib.encrypt := by
    rw [← hf.attrib]
    rfl
  unfold swDecrypt rtwTkipDecrypt rtwAesDecrypt
  dsimp only
  rw [hencF, hkey]
  rcases henc with henc | henc <;> rw [henc] <;> simp [encWep40, encWep104, encTkip, encAes]

/-- **CCMP**: what passes is authentic exactly for the headers and lengths that are received. -/
theorem aes_authentic_iff (h : DataAdmitted p) (haes : p.attrib.encrypt = encAes) :
    AlwaysAuthentic k p ↔ p.cryptLength < 8 ∨ NoKey k p ∨
      (getOrder p.mem = false ∧ getFragNum p.mem = 0 ∧ getFrameSubType p.mem &&& 0x40 = 0 ∧
        p.len ≤ maxMsgSize) := by
  have hhdr := h.le_hdrlen
  have hivLen : p.attrib.ivLen = 8 := by
    rw [h.ivLen, haes]
    rfl
  rcases lt_or_ge p.cryptLength 8 with hshort | hcrypt
  · refine iff_of_true (fun aes message f hf buf hrun => ?_) (.inl hshort)
    have hnot : ¬ (f.withKeyIndex.attrib.encrypt = encWep40 ∨
        f.withKeyIndex.attrib.encrypt = encWep104) := by
      change ¬ (f.attrib.encrypt = encWep40 ∨ f.attrib.encrypt = encWep104)
      rw [hf.attrib, haes]
      decide
    have henc : f.withKeyIndex.attrib.encrypt = encAes := by
      rw [← haes, ← hf.attrib]
      rfl
    have hshortF : f.withKeyIndex.cryptLength < 8 := by
      change f.cryptLength < 8
      rw [hf.cryptLength.1]
      exact hshort
    unfold swDecrypt rtwAesDecrypt at hrun
    dsimp only at hrun
    rw [if_neg hnot, if_neg (by rw [henc]; decide), if_pos henc, if_pos henc] at hrun
    split at hrun
    · cases hrun
    · rw [if_pos hshortF] at hrun
      cases hrun
  obtain ⟨n, hn⟩ : ∃ n : Nat, p.cryptLength = n + 8 := ⟨p.cryptLength.toNat - 8, by omega⟩
  have hlen : p.len = p.attrib.hdrlen + n + 16 := by
    have hall := cryptLength_eq p (by omega)
    unfold RecvFrame.payload at hall
    omega
  by_cases hnone : NoKey k p
  · refine iff_of_true (fun aes message f hf buf hrun => ?_) (.inr (.inl hnone))
    exact absurd hrun (NoKey.refused (k := { k with aes := aes, message := message }) hnone hf
      (.inr haes) buf)
  have hkeyed := hnone
  unfold NoKey at hkeyed
  push Not at hkeyed
  obtain ⟨i, hi, hkey⟩ := hkeyed
  obtain ⟨key, hkey⟩ := Option.ne_none_iff_exists'.mp hkey
  have henc : ∀ {f}, SameHeader p f → f.attrib.encrypt = encAes := fun hf => by
    rw [hf.attrib, haes]
  have hcryptF : ∀ {f}, SameHeader p f → f.cryptLength = n + 8 := fun hf => by
    rw [hf.cryptLength.1, hn]
  constructor
  · intro hall
    obtain ⟨q, hq, hqi⟩ := h.exists_keyIndex (by omega) hi
    obtain ⟨hadm, horderQ, hqcQ, hfragQ, hsubQ⟩ := hq.form h
    have hhdrQ : q.attrib.hdrlen = p.attrib.hdrlen := by rw [hq.attrib]
    have hlenQ : q.len = q.attrib.hdrlen + n + 16 := by rw [hq.len, hhdrQ, hlen]
    have hmic : AlwaysMicHolds q n := by
      intro E message f hf hlow hok
      have hpf := hq.trans hf
      have hkeyF : k.prwskey f.withKeyIndex.attrib = some key := by
        have hindex : f.withKeyIndex.attrib = q.withKeyIndex.attrib := by
          unfold RecvFrame.withKeyIndex
          rw [hf.attrib, hlow _ (by omega)]
        rw [hindex, hqi, hkey]
      have hauth := hall (fun _ => E) message f hpf _ ((swDecrypt_aes_iff
        (k := { k with aes := fun _ => E, message := message }) (henc hpf) hkeyF
          (hcryptF hpf)).mpr ⟨by rw [hf.attrib]; exact hok, rfl⟩)
      have hholds := (authentic_aes_iff (k := { k with aes := fun _ => E }) (hpf.form h).1 message
        (henc hpf) hkeyF (hcryptF hpf)).mp hauth
      rwa [hf.attrib] at hholds
    have hfits := hmic.fits hadm hlenQ
    obtain ⟨horder, hfrag, hbit⟩ := hmic.clear hadm hlenQ
    rw [hsubQ] at hbit
    rw [hhdrQ, ← hlen] at hfits
    exact .inr (.inr ⟨horderQ.symm.trans horder, hfragQ.symm.trans hfrag, hbit, hfits⟩)
  · rintro (hshort | hnone' | ⟨horder, hfrag, hbit, hfits⟩)
    · omega
    · exact absurd hnone' hnone
    intro aes message f hf buf hrun
    obtain ⟨hadm, horderF, -, hfragF, hsubF⟩ := hf.form h
    have hfitsF : f.attrib.hdrlen + n + 16 ≤ maxMsgSize := by
      rw [hf.attrib, ← hlen]
      exact hfits
    cases hkeyF : k.prwskey f.withKeyIndex.attrib with
    | none =>
      have hnot : ¬ (f.withKeyIndex.attrib.encrypt = encWep40 ∨
          f.withKeyIndex.attrib.encrypt = encWep104) := by
        change ¬ (f.attrib.encrypt = encWep40 ∨ f.attrib.encrypt = encWep104)
        rw [henc hf]
        decide
      have haesF : f.attrib.encrypt = encAes := henc hf
      change f.withKeyIndex.attrib.encrypt = encAes at haesF
      have hkeyF' : RxCrypto.prwskey { k with aes := aes, message := message }
          f.withKeyIndex.attrib = none := hkeyF
      unfold swDecrypt rtwAesDecrypt at hrun
      dsimp only at hrun
      rw [if_neg hnot, if_neg (by rw [haesF]; decide), if_pos haesF, if_pos haesF, hkeyF'] at hrun
      cases hrun
    | some key' =>
      obtain ⟨hok, rfl⟩ := (swDecrypt_aes_iff (k := { k with aes := aes, message := message })
        (henc hf) hkeyF (hcryptF hf)).mp hrun
      refine (authentic_aes_iff (k := { k with aes := aes }) hadm message (henc hf) hkeyF
        (hcryptF hf)).mpr ?_
      have hbit' : getFrameSubType f.mem &&& 0x40 = 0 := by
        rw [hsubF]
        exact hbit
      obtain ⟨hnonce, haad⟩ := driver_eq_ieeeHtc hadm (horderF.trans horder) (hfragF.trans hfrag)
        hbit'
      have htag := (aesDecipher_threeAddr (aes key') hadm hfitsF (horderF.trans horder)).2.mp hok
      unfold MicHolds
      rwa [hnonce, haad] at htag

/-- **What software decryption lets through.**  Over all contents behind the header of an
admitted frame, block functions and states of the scratch buffer, every frame that `decryptor`
returns is authentic exactly when the header, the length and the keys are `Guarded`. -/
theorem decryptor_authentic_iff {k : RxCrypto} {p : RecvFrame} (h : DataAdmitted p)
    (henc : p.attrib.encrypt ∈ [encWep40, encWep104, encTkip, encAes]) :
    AlwaysAuthentic k p ↔ Guarded k p := by
  unfold Guarded
  split
  · rename_i htkip
    rcases lt_or_ge p.cryptLength 0 with hneg | hcrypt
    · refine iff_of_true (fun aes message f hf buf hrun => ?_) (.inl hneg)
      rw [swDecrypt_tkip (by rw [hf.attrib]; exact htkip), hf.cryptLength.1] at hrun
      split at hrun
      · cases hrun
      · rw [if_pos hneg] at hrun
        cases hrun
    · by_cases hnone : NoKey k p
      · exact iff_of_true (fun aes message f hf buf hrun => absurd hrun (NoKey.refused
          (k := { k with aes := aes, message := message }) hnone hf (.inl htkip) buf))
          (.inr (.inl hnone))
      · rcases lt_or_ge p.cryptLength 4 with hshort | hicv
        · refine iff_of_false (tkip_short_not_authentic h htkip hcrypt hshort hnone) ?_
          rintro (hlt | hno | hge)
          · omega
          · exact hnone hno
          · omega
        · exact iff_of_true (tkip_authentic h htkip hicv) (.inr (.inr hicv))
  · rename_i hntkip
    split
    · rename_i haes
      exact aes_authentic_iff h haes
    · rename_i hnaes
      have hwep : p.attrib.encrypt = encWep40 ∨ p.attrib.encrypt = encWep104 := by
        simp only [List.mem_cons, List.not_mem_nil, or_false] at henc
        tauto
      rcases lt_or_ge p.cryptLength 0 with hneg | hcrypt
      · refine iff_of_true (fun aes message f hf buf hrun => ?_) hneg
        have hwepF : f.withKeyIndex.attrib.encrypt = encWep40 ∨
            f.withKeyIndex.attrib.encrypt = encWep104 := by
          change f.attrib.encrypt = encWep40 ∨ f.attrib.encrypt = encWep104
          rw [hf.attrib]
          exact hwep
        have hnegF : f.withKeyIndex.cryptLength < 0 := by
          change f.cryptLength < 0
          rw [hf.cryptLength.1]
          exact hneg
        unfold swDecrypt rtwWepDecryptFrame at hrun
        dsimp only at hrun
        rw [if_pos hwepF, if_pos hwepF, if_pos hnegF] at hrun
        cases hrun
      · exact iff_of_false (wep_not_authentic h hwep hcrypt) (by omega)

end Frames

/-! ## 5. Two frames -/

/-- One station with a pairwise key, and a WEP key of five bytes. -/
def pairwiseCrypto : RxCrypto where
  aes := fun _ b => b
  message := fun _ => 0
  stas := ⟨[(⟨0x10, 1, 2, 3, 4, 5⟩, 1)], List.nodup_singleton 1⟩
  uncstKey := fun _ => List.replicate 16 7
  dot11DefKey := fun _ => [1, 2, 3, 4, 5]
  binstallGrpkey := false
  dot118021XGrpKeyid := 0
  dot118021XGrpKey := fun _ => []

/-- A data frame of a station to its access point under the given cipher: 24 bytes of header, an
IV of zeros, and four bytes of body and ICV of which one is not zero. -/
def protectedFrame (encrypt : Nat) : RecvFrame where
  id := 0
  attrib := { queryRxDescStatus ⟨0, 0, 0, true, 0, false, false, 0, 0⟩ with
    hdrlen := 24, toFrDs := 2, privacy := 1, encrypt := encrypt
    ivLen := (setIceIvLen encrypt).1, icvLen := (setIceIvLen encrypt).2
    ra := ⟨2, 0, 0, 0, 0, 1⟩, ta := ⟨0x10, 1, 2, 3, 4, 5⟩ }
  buf := [0x08, 0x41, 0, 0, 2, 0, 0, 0, 0, 1, 0x10, 1, 2, 3, 4, 5, 2, 0, 0, 0, 0, 9, 0, 0] ++
    List.replicate (setIceIvLen encrypt).1 0 ++ [0xaa, 0, 0, 0, 0, 0, 0, 0]
  rxData := 0
  rxTail := 32 + (setIceIvLen encrypt).1

/-- Under TKIP only a frame with the right ICV passes. -/
theorem decryptor_authentic_tkip :
    DataAdmitted (protectedFrame encTkip) ∧
      (protectedFrame encTkip).attrib.encrypt ∈ [encWep40, encWep104, encTkip, encAes] ∧
      AlwaysAuthentic pairwiseCrypto (protectedFrame encTkip) := by
  have hadm : DataAdmitted (protectedFrame encTkip) :=
    ⟨by decide, by decide, by decide, rfl, rfl, by decide⟩
  have henc : (protectedFrame encTkip).attrib.encrypt ∈ [encWep40, encWep104, encTkip, encAes] := by
    decide
  exact ⟨hadm, henc, (decryptor_authentic_iff hadm henc).mpr (.inr (.inr (by decide)))⟩

/-- Under WEP the same bytes pass, and their ICV is not that of the body that is left. -/
theorem decryptor_wep_wrong_icv :
    DataAdmitted (protectedFrame encWep40) ∧
      ∃ buf, swDecrypt pairwiseCrypto (protectedFrame encWep40) = some (.success, buf) ∧
        ¬ Authentic pairwiseCrypto (protectedFrame encWep40) buf := by
  have hkey : pairwiseCrypto.wepkey (protectedFrame encWep40).withKeyIndex
      = [0, 0, 0, 1, 2, 3, 4, 5] := by decide
  have hstream : rc4 [0, 0, 0, 1, 2, 3, 4, 5] (protectedFrame encWep40).withKeyIndex.cryptBytes
      = [165, 23, 192, 80, 189, 1, 127, 74] := by
    rw [rc4, arcfourInit_packed]
    decide +kernel
  refine ⟨⟨by decide, by decide, by decide, rfl, rfl, by decide⟩,
    (protectedFrame encWep40).withKeyIndex.store
      (arcfourFrame (pairwiseCrypto.wepkey (protectedFrame encWep40).withKeyIndex)
        (protectedFrame encWep40).withKeyIndex), rfl, ?_⟩
  rw [arcfourFrame, hkey, hstream]
  unfold Authentic
  rw [if_neg (by decide)]
  decide +kernel

end Rtl8723bs
