/-
# CCMP on reception, for every header form

`validate_recv_data_frame` makes the header 24 or 26 bytes long, and four longer when the Order
bit is set.  What IEEE 802.11 makes of a frame comes out of `rtw_aes_decrypt` again exactly when
the Order bit is clear, the fragment number is 0, bit 6 of the frame control field is clear and the
frame fits the `message` buffer (`ccmp_received_iff`).  A MIC of the standard that is accepted is
one that both compute, and `Rx/CcmpMic` says when there is such a one.
-/
import Rtl8723bs.Rx.CcmpMic

namespace Rtl8723bs

open Ccm

/-! ## 1. Frames as IEEE 802.11 makes them -/

/-- A protected data frame as validation leaves it, under CCMP. -/
structure CcmpAdmitted (f : RecvFrame) : Prop extends DataAdmitted f where
  encrypt : f.attrib.encrypt = encAes

theorem CcmpAdmitted.ivLen_eq {f : RecvFrame} (h : CcmpAdmitted f) : f.attrib.ivLen = 8 := by
  rw [h.ivLen, h.encrypt]
  rfl

/-- `f` is the MPDU of the plaintext frame `p` with `n` bytes of body: header and IV are the same,
and ciphertext and MIC stand behind them. -/
structure CcmpMpdu (aes : Block → Block) (p : RecvFrame) (n : Nat) (f : RecvFrame) : Prop where
  attrib : f.attrib = p.attrib
  place : f.rxData = p.rxData ∧ f.rxTail = p.rxTail ∧ f.buf.length = p.buf.length
  header : ∀ i < p.attrib.hdrlen + 8, f.mem i = p.mem i
  sealed : (readBytes f.mem (p.attrib.hdrlen + 8) n, readBytes f.mem (p.attrib.hdrlen + 8 + n) 8)
    = ieeeSeal aes p.mem p.attrib.hdrlen (readBytes p.mem (p.attrib.hdrlen + 8) n)

/-- `rtw_aes_decrypt` returns `_SUCCESS` and leaves the body of `p`. -/
def Received (k : RxCrypto) (p : RecvFrame) (n : Nat) (f : RecvFrame) : Prop :=
  ∃ buf, rtwAesDecrypt k f = some (.success, buf) ∧
    readBytes ({ f with buf := buf } : RecvFrame).mem (p.attrib.hdrlen + 8) n
      = readBytes p.mem (p.attrib.hdrlen + 8) n

/-- The MPDU of a frame. -/
def sealFrame (aes : Block → Block) (p : RecvFrame) (n : Nat) : RecvFrame :=
  let body := readBytes p.mem (p.attrib.hdrlen + 8) n
  let sealed := ieeeSeal aes p.mem p.attrib.hdrlen body
  { p with buf := p.store (overwrite (overwrite p.mem (p.attrib.hdrlen + 8) sealed.1)
      (p.attrib.hdrlen + 8 + n) sealed.2) }

section Frames

variable {k : RxCrypto} {p f : RecvFrame} {key : List UInt8} {n : Nat} {aes : Block → Block}

theorem length_ieeeSeal (m : Mem) (hdrlen : Nat) (body : List UInt8) :
    (ieeeSeal aes m hdrlen body).1.length = body.length ∧
      (ieeeSeal aes m hdrlen body).2.length = 8 :=
  ⟨length_ctrXor _ _ _ _, length_tag_ccmp _ _ _ _⟩

/-- There is an MPDU of every frame. -/
theorem sealFrame_mpdu (h : CcmpAdmitted p) (hlen : p.len = p.attrib.hdrlen + n + 16) :
    CcmpMpdu aes p n (sealFrame aes p n) := by
  obtain ⟨hc, ht⟩ := @length_ieeeSeal aes p.mem p.attrib.hdrlen
    (readBytes p.mem (p.attrib.hdrlen + 8) n)
  rw [length_readBytes] at hc
  have hmem : ∀ i < p.len, (sealFrame aes p n).mem i = _ := fun i hi =>
    p.mem_store _ (h.lt_buf hi)
  refine ⟨rfl, ⟨rfl, rfl, p.length_store _⟩, fun i hi => ?_, Prod.ext ?_ ?_⟩
  · rw [hmem i (by omega), overwrite_of_lt (by omega), overwrite_of_lt hi]
  · change readBytes (sealFrame aes p n).mem (p.attrib.hdrlen + 8) n = _
    rw [readBytes_congr (fun i _ hi => hmem i (by omega)),
      readBytes_congr (fun i _ hi => overwrite_of_lt hi)]
    have hback := readBytes_overwrite p.mem (p.attrib.hdrlen + 8)
      (ieeeSeal aes p.mem p.attrib.hdrlen (readBytes p.mem (p.attrib.hdrlen + 8) n)).1
    rwa [hc] at hback
  · change readBytes (sealFrame aes p n).mem (p.attrib.hdrlen + 8 + n) 8 = _
    rw [readBytes_congr (fun i _ hi => hmem i (by omega))]
    have hback := readBytes_overwrite (overwrite p.mem (p.attrib.hdrlen + 8)
        (ieeeSeal aes p.mem p.attrib.hdrlen (readBytes p.mem (p.attrib.hdrlen + 8) n)).1)
      (p.attrib.hdrlen + 8 + n)
      (ieeeSeal aes p.mem p.attrib.hdrlen (readBytes p.mem (p.attrib.hdrlen + 8) n)).2
    rwa [ht] at hback

/-- The function on an MPDU is `aes_decipher` under the frame's key. -/
theorem rtwAesDecrypt_mpdu (h : CcmpAdmitted p) (hkey : k.prwskey p.attrib = some key)
    (hlen : p.len = p.attrib.hdrlen + n + 16) (hf : CcmpMpdu aes p n f) :
    rtwAesDecrypt k f
      = let r := aesDecipher (k.aes key) p.attrib.hdrlen f.mem (n + 8) k.message
        some (if r.1 then .success else .fail, f.store r.2) := by
  have hflen : f.len = p.len := by
    unfold RecvFrame.len
    rw [hf.place.1, hf.place.2.1]
  have hcrypt : f.cryptLength = n + 8 := by
    unfold RecvFrame.cryptLength
    rw [hflen, hf.attrib, h.ivLen_eq, hlen]
    omega
  unfold rtwAesDecrypt
  rw [if_pos (by rw [hf.attrib, h.encrypt]), hf.attrib, hkey]
  dsimp only
  rw [if_neg (by omega), hcrypt]
  rfl

/-- **What it takes to be received**, in terms of `aes_decipher`. -/
theorem received_iff (h : CcmpAdmitted p) (hkey : k.prwskey p.attrib = some key)
    (hlen : p.len = p.attrib.hdrlen + n + 16) (hf : CcmpMpdu aes p n f) :
    Received k p n f ↔
      (aesDecipher (k.aes key) p.attrib.hdrlen f.mem (n + 8) k.message).1 = true ∧
        ∀ i < n, (aesDecipher (k.aes key) p.attrib.hdrlen f.mem (n + 8) k.message).2
            (p.attrib.hdrlen + 8 + i) = p.mem (p.attrib.hdrlen + 8 + i) := by
  have hrun := rtwAesDecrypt_mpdu h hkey hlen hf
  generalize aesDecipher (k.aes key) p.attrib.hdrlen f.mem (n + 8) k.message = r at hrun ⊢
  have hstore : ∀ i < p.len, ({ f with buf := f.store r.2 } : RecvFrame).mem i = r.2 i := by
    intro i hi
    refine f.mem_store _ ?_
    rw [hf.place.1, hf.place.2.2]
    exact h.lt_buf hi
  constructor
  · rintro ⟨buf, hbuf, hbody⟩
    rw [hrun] at hbuf
    obtain ⟨hstatus, rfl⟩ := Prod.mk.inj (Option.some.inj hbuf)
    refine ⟨by_contra fun hfail => by simp [hfail] at hstatus, fun i hi => ?_⟩
    have hbyte := congrArg (fun l => l.getD i 0) hbody
    simp only [getD_readBytes _ hi] at hbyte
    rw [← hbyte, hstore _ (by omega)]
  · rintro ⟨hok, hbody⟩
    refine ⟨f.store r.2, by simp [hrun, hok], ?_⟩
    refine readBytes_congr fun i hi hin => ?_
    rw [hstore i (by omega)]
    have hat := hbody (i - (p.attrib.hdrlen + 8)) (by omega)
    rwa [Nat.add_sub_cancel' hi] at hat

/-- Byte `j` of the MIC of an MPDU. -/
theorem CcmpMpdu.mic (hf : CcmpMpdu aes p n f) {j : Nat} (hj : j < 8) :
    f.mem (p.attrib.hdrlen + 8 + n + j)
      = (tag ccmpParams aes (ieeeNonce p.mem p.attrib.hdrlen) (ieeeHtcAad p.mem)
          (readBytes p.mem (p.attrib.hdrlen + 8) n)).getD j 0 := by
  have hbyte := congrArg (fun l => l.getD j 0) (Prod.mk.inj hf.sealed).2
  simp only [getD_readBytes _ hj] at hbyte
  exact hbyte

/-- Byte `i` of the ciphertext. -/
theorem CcmpMpdu.body (hf : CcmpMpdu aes p n f) {i : Nat} (hi : i < n) :
    f.mem (p.attrib.hdrlen + 8 + i)
      = p.mem (p.attrib.hdrlen + 8 + i)
          ^^^ keystream ccmpParams aes (ieeeNonce p.mem p.attrib.hdrlen) i := by
  have hbyte := congrArg (fun l => l.getD i 0) (Prod.mk.inj hf.sealed).1
  simp only [getD_readBytes _ hi] at hbyte
  rw [hbyte]
  refine (getD_ctrXor _ _ _ (by rw [length_readBytes]; exact hi)).trans ?_
  rw [getD_readBytes _ hi]

/-! ## 2. A QoS frame with HT Control -/

/-- Whatever the block function and the scratch buffer, every MPDU of `p` is received. -/
def AlwaysReceived (k : RxCrypto) (p : RecvFrame) (key : List UInt8) (n : Nat) : Prop :=
  ∀ (aes : List UInt8 → Block → Block) (message : Mem) (f : RecvFrame),
    CcmpMpdu (aes key) p n f → Received { k with aes := aes, message := message } p n f

/-- What `AlwaysReceived` says of one block function. -/
theorem AlwaysReceived.accepts (hall : AlwaysReceived k p key n) (h : CcmpAdmitted p)
    (hkey : k.prwskey p.attrib = some key) (hlen : p.len = p.attrib.hdrlen + n + 16)
    (E : Block → Block) (message : Mem) :
    (aesDecipher E p.attrib.hdrlen (sealFrame E p n).mem (n + 8) message).1 = true ∧
      ∀ i < n, (aesDecipher E p.attrib.hdrlen (sealFrame E p n).mem (n + 8) message).2
          (p.attrib.hdrlen + 8 + i) = p.mem (p.attrib.hdrlen + 8 + i) :=
  (received_iff (k := { k with aes := fun _ => E, message := message }) h hkey hlen
    (sealFrame_mpdu h hlen : CcmpMpdu E p n _)).mp
      (hall (fun _ => E) message _ (sealFrame_mpdu h hlen))

/-- A block function that gives one byte, in the third place. -/
def thirdByte (g : Block → UInt8) : Block → Block := fun b i => if i.val = 2 then g b else 0

/-- Byte 2 of the MIC over no payload, under a function of one byte. -/
theorem mic_thirdByte (g : Block → UInt8) (priority fc0 fc1 sc0 : UInt8) {qos : List UInt8}
    (m : Mem) (hdrlen : Nat) (hqos : qos.length ≤ 8) :
    (tag ccmpParams (thirdByte g) (nonceOf priority m hdrlen) (aadOf fc0 fc1 sc0 qos m) []).getD 2 0
      = g (ctrBlock ccmpParams (nonceOf priority m hdrlen) 0) ^^^
        g (Ccm.xor (thirdByte g (Ccm.xor (thirdByte g (formatB0 ccmpParams
            (nonceOf priority m hdrlen) (aadOf fc0 fc1 sc0 qos m) 0))
          (u8x16 ([UInt8.ofNat ((22 + qos.length) / 256), UInt8.ofNat (22 + qos.length), fc0, fc1,
            m 4, m 5, m 6, m 7, m 8, m 9, m 10, m 11, m 12, m 13, m 14, m 15]))))
          (u8x16 ([m 16, m 17, m 18, m 19, m 20, m 21, sc0, 0] ++ qos))) := by
  rw [getD_tag_ccmp _ _ _ _ (by decide)]
  unfold mac
  rw [blocks_aadOf _ _ _ _ hqos]
  unfold chain
  rw [List.foldl_cons, xor_zeroBlock]
  rfl

/-- Some such function gives a byte that is not zero: the block of the counter and those of the
header cannot all go the same way. -/
theorem exists_thirdByte (priority fc0 fc1 sc0 : UInt8) {qos : List UInt8} (m : Mem) (hdrlen : Nat)
    (hqos : qos.length ≤ 8) :
    ∃ g : Block → UInt8, (tag ccmpParams (thirdByte g) (nonceOf priority m hdrlen)
      (aadOf fc0 fc1 sc0 qos m) []).getD 2 0 ≠ 0 := by
  classical
  by_contra hnone
  have hzero : ∀ g : Block → UInt8, (tag ccmpParams (thirdByte g) (nonceOf priority m hdrlen)
      (aadOf fc0 fc1 sc0 qos m) []).getD 2 0 = 0 := fun g => by_contra fun hg => hnone ⟨g, hg⟩
  simp only [mic_thirdByte _ _ _ _ _ m hdrlen hqos] at hzero
  have hc : ctrBlock ccmpParams (nonceOf priority m hdrlen) 0 0 = 1 := rfl
  have hb₀ : formatB0 ccmpParams (nonceOf priority m hdrlen) (aadOf fc0 fc1 sc0 qos m) 0 0
      = 0x59 := rfl
  have hh₁ : u8x16 ([UInt8.ofNat ((22 + qos.length) / 256), UInt8.ofNat (22 + qos.length), fc0,
      fc1, m 4, m 5, m 6, m 7, m 8, m 9, m 10, m 11, m 12, m 13, m 14, m 15]) 0 = 0 := by
    have hdiv : (22 + qos.length) / 256 = 0 := by omega
    rw [hdiv]
    rfl
  generalize ctrBlock ccmpParams (nonceOf priority m hdrlen) 0 = c at hc hzero
  generalize formatB0 ccmpParams (nonceOf priority m hdrlen) (aadOf fc0 fc1 sc0 qos m) 0 = b₀
    at hb₀ hzero
  generalize u8x16 ([UInt8.ofNat ((22 + qos.length) / 256), UInt8.ofNat (22 + qos.length), fc0,
    fc1, m 4, m 5, m 6, m 7, m 8, m 9, m 10, m 11, m 12, m 13, m 14, m 15]) = h₁ at hh₁ hzero
  generalize u8x16 ([m 16, m 17, m 18, m 19, m 20, m 21, sc0, 0] ++ qos) = h₂ at hzero
  -- a function that tells the counter block: the last header block is the same
  have hsame : h₂ = c := by
    have hnot : ∀ b : Block, b 0 ≠ 1 → thirdByte (fun b => if b = c then 1 else 0) b = zeroBlock := by
      intro b hb
      have hne : b ≠ c := fun heq => hb (by rw [heq, hc])
      funext i
      simp [thirdByte, hne, zeroBlock]
    have hg := hzero fun b => if b = c then 1 else 0
    rw [hnot b₀ (by rw [hb₀]; decide), xor_zeroBlock, hnot h₁ (by rw [hh₁]; decide),
      xor_zeroBlock] at hg
    by_contra hne
    simp [hne] at hg
  -- a function of byte 2, but for blocks that begin with zero
  have hg := hzero fun b => if b 0 = 0 then 1 else b 2
  have hfirst : ∀ (g : Block → UInt8) (x y : Block), Ccm.xor (thirdByte g x) y 0 = y 0 := by
    intro g x y
    simp [Ccm.xor, thirdByte]
  have hthird : ∀ (g : Block → UInt8) (x y : Block), Ccm.xor (thirdByte g x) y 2 = g x ^^^ y 2 := by
    intro g x y
    simp [Ccm.xor, thirdByte]
  simp only [hfirst, hthird, hsame, hc, hh₁] at hg
  simp only [if_true, show ¬ (1 : UInt8) = 0 by decide, if_false] at hg
  rw [UInt8.xor_comm 1, ← UInt8.xor_assoc, UInt8.xor_self] at hg
  exact absurd hg (by decide)

/-- A QoS frame with HT Control is decrypted two bytes too far on. -/
theorem not_alwaysReceived_qos (h : CcmpAdmitted p) (hkey : k.prwskey p.attrib = some key)
    (hlen : p.len = p.attrib.hdrlen + n + 16) (horder : getOrder p.mem = true) (hqc : qcExists p.mem = true) :
    ¬ AlwaysReceived k p key n := by
  intro hall
  have hhdr := h.le_hdrlen
  have hqos : isQosSubtype p.mem = true := isQosSubtype_of_qc h.data hqc
  have h30 : p.attrib.hdrlen = 30 := by
    rw [h.hdrlen, horder, hqos]
    rfl
  have hshift : ∀ {f : RecvFrame} {E : Block → Block}, CcmpMpdu E p n f →
      qosHdrlen p.attrib.hdrlen f.mem = 32 := by
    intro f E hf
    have hqcF : qcExists f.mem = true := by
      rw [qcExists_byte, hf.header 0 (by omega), ← qcExists_byte, hqc]
    simp [qosHdrlen, hqcF, h30, wlanHdrA3QosLen]
  cases n with
  | succ n =>
    -- the first byte of the body stays as it came
    have hmpdu : CcmpMpdu id p (n + 1) (sealFrame id p (n + 1)) := sealFrame_mpdu h hlen
    obtain ⟨-, hbody⟩ := hall.accepts h hkey hlen id (fun _ => 0)
    have hfirst := hbody 0 (by omega)
    rw [aesDecipher_snd_of_lt id hhdr _ _ (by rw [hshift hmpdu]; omega),
      hmpdu.body (show 0 < n + 1 by omega)] at hfirst
    have hxor : p.mem (p.attrib.hdrlen + 8 + 0) ^^^ 1 = p.mem (p.attrib.hdrlen + 8 + 0) := hfirst
    have hone := congrArg (p.mem (p.attrib.hdrlen + 8 + 0) ^^^ ·) hxor
    simp only [← UInt8.xor_assoc, UInt8.xor_self, UInt8.zero_xor] at hone
    exact absurd hone (by decide)
  | zero =>
    -- the MIC is compared with what stands two bytes on
    have hlenQos : (if isQosSubtype p.mem then [p.mem 24 &&& 0x0f, 0] else []).length ≤ 8 := by
      split <;> simp
    obtain ⟨g, hg⟩ := exists_thirdByte (if isQosSubtype p.mem then p.mem 24 &&& 0x0f else 0)
      (p.mem 0 &&& 0x8f) (p.mem 1 &&& if isQosSubtype p.mem then 0x47 else 0xc7)
      (p.mem 22 &&& 0x0f) p.mem p.attrib.hdrlen hlenQos
    have hmpdu : CcmpMpdu (thirdByte g) p 0 (sealFrame (thirdByte g) p 0) := sealFrame_mpdu h hlen
    obtain ⟨hok, -⟩ := hall.accepts h hkey hlen (thirdByte g) (fun _ => 0)
    have hmic := (aesDecipher_accepts_iff (thirdByte g) hhdr _ _ 0).mp hok 0 (by decide)
    unfold decipherMic at hmic
    dsimp only at hmic
    have hbyte := hmpdu.mic (show 2 < 8 by decide)
    rw [hshift hmpdu, micAndEncrypt_mic (thirdByte g) (by decide) _ _ _ _ _ (by decide)] at hmic
    have hat : p.attrib.hdrlen + 8 + 0 + 2 = 32 + 8 + 0 + 0 := by omega
    rw [hat] at hbyte
    refine hg (hbyte.symm.trans (hmic.trans ?_))
    simp [thirdByte, chain, readBytes, blocks]

/-! ## 3. Every header form -/

/-- An MPDU has the header of its frame. -/
theorem CcmpMpdu.sameHeader (hf : CcmpMpdu aes p n f) : SameHeader p f :=
  ⟨hf.attrib, hf.place, fun i hi => hf.header i (by omega)⟩

/-- What is received carries the standard's MIC of the body that is left. -/
theorem CcmpMpdu.micHolds (hf : CcmpMpdu aes p n f) (h : CcmpAdmitted p) {stale : Mem}
    (hbody : ∀ i < n, (aesDecipher aes p.attrib.hdrlen f.mem (n + 8) stale).2
      (p.attrib.hdrlen + 8 + i) = p.mem (p.attrib.hdrlen + 8 + i)) :
    MicHolds aes p.attrib.hdrlen f.mem stale n := by
  obtain ⟨hnonce, haad⟩ := ieee_congr h.le_hdrlen hf.header
  have hleft : readBytes (aesDecipher aes p.attrib.hdrlen f.mem (n + 8) stale).2
      (p.attrib.hdrlen + 8) n = readBytes p.mem (p.attrib.hdrlen + 8) n := by
    refine readBytes_congr fun i hi hin => ?_
    have hat := hbody (i - (p.attrib.hdrlen + 8)) (by omega)
    rwa [Nat.add_sub_cancel' hi] at hat
  unfold MicHolds
  rw [hnonce, haad, hleft]
  exact (Prod.mk.inj hf.sealed).2

/-- **CCMP reception.**  A frame that IEEE 802.11 made, of any admitted header form, is received for
every key, block function and state of the scratch buffer exactly when the Order bit is clear,
the fragment number is 0, bit 6 of the frame control field is clear and the frame fits the scratch
buffer. -/
theorem ccmp_received_iff {k : RxCrypto} {p : RecvFrame} {key : List UInt8} {n : Nat}
    (h : CcmpAdmitted p) (hkey : k.prwskey p.attrib = some key)
    (hlen : p.len = p.attrib.hdrlen + n + 16) :
    AlwaysReceived k p key n ↔
      getOrder p.mem = false ∧ getFragNum p.mem = 0 ∧ getFrameSubType p.mem &&& 0x40 = 0 ∧
        p.attrib.hdrlen + n + 16 ≤ maxMsgSize := by
  have hhdr := h.le_hdrlen
  constructor
  · intro hall
    have hmpdu : CcmpMpdu id p n (sealFrame id p n) := sealFrame_mpdu h hlen
    have haccepts := hall.accepts h hkey hlen id
    obtain ⟨hadm, horderF, hqcF, hfragF, hsubF⟩ := hmpdu.sameHeader.form h.toDataAdmitted
    have hfits : p.attrib.hdrlen + n + 16 ≤ maxMsgSize := by
      by_contra hlong
      -- the same MIC would have to come out of two scratch buffers
      have hmic := fun message =>
        (aesDecipher_accepts_iff id hhdr _ message n).mp (haccepts message).1 2 (by decide)
      exact decipherMic_stale hhdr _ (by omega) ((hmic _).symm.trans (hmic _))
    obtain ⟨hok, hbody⟩ := haccepts (fun _ => 0)
    have hholds := hmpdu.micHolds h hbody
    have hhdrF : (sealFrame id p n).attrib.hdrlen = p.attrib.hdrlen := rfl
    have horder : getOrder p.mem = false := by
      cases horder : getOrder p.mem with
      | false => rfl
      | true =>
        cases hqc : qcExists p.mem with
        | true => exact absurd hall (not_alwaysReceived_qos h hkey hlen horder hqc)
        | false =>
          exact absurd hholds (not_micHolds_a4 hadm hfits (horderF.trans horder) (hqcF.trans hqc) hok)
    obtain ⟨hfrag, hbit⟩ := micHolds_fields hadm hfits (horderF.trans horder) hok hholds
    exact ⟨horder, hfragF ▸ hfrag, hsubF ▸ hbit, hfits⟩
  · rintro ⟨horder, hfrag, hbit, hfits⟩ aes message f hf
    obtain ⟨hadm, horderF, -, hfragF, hsubF⟩ := hf.sameHeader.form h.toDataAdmitted
    obtain ⟨hnonceP, haadP⟩ := ieee_congr hhdr hf.header
    obtain ⟨hnonce, haad⟩ := driver_eq_ieeeHtc hadm (horderF.trans horder) (hfragF.trans hfrag)
      (by rw [hsubF]; exact hbit)
    obtain ⟨hleft, hok⟩ := @aesDecipher_threeAddr f n message (aes key) hadm
      (by rw [hf.attrib]; exact hfits) (horderF.trans horder)
    obtain ⟨hcipher, hmic⟩ := Prod.mk.inj hf.sealed
    rw [hf.attrib] at hleft hok hnonce haad
    rw [hnonce, hnonceP, hcipher, ctrXor_ctrXor] at hleft
    rw [hleft, hnonce, haad, hnonceP, haadP] at hok
    refine (received_iff (k := { k with aes := aes, message := message }) h hkey hlen hf).mpr
      ⟨hok.mpr hmic, fun i hi => ?_⟩
    have hbyte := congrArg (fun l => l.getD i 0) hleft
    simpa only [getD_readBytes _ hi] using hbyte

end Frames

/-! ## 4. Two frames -/

/-- One station with a pairwise key; the blocks are moved one place. -/
def oneKeyCrypto : RxCrypto where
  aes := fun _ => rotateBlock
  message := fun _ => 0
  stas := ⟨[(⟨0x10, 1, 2, 3, 4, 5⟩, 1)], by decide⟩
  uncstKey := fun _ => List.replicate 16 7
  dot11DefKey := fun _ => []
  binstallGrpkey := false
  dot118021XGrpKeyid := 0
  dot118021XGrpKey := fun _ => []

/-- A frame of a station to its access point, with the given first bytes: a header of `hdrlen`
bytes, the CCMP header, a body of four bytes and room for the MIC. -/
def plainFrame (fc0 fc1 : UInt8) (hdrlen : Nat) : RecvFrame where
  id := 0
  attrib := { queryRxDescStatus ⟨0, 0, 0, true, 0, false, false, 0, 0⟩ with
    hdrlen := hdrlen, toFrDs := 2, order := if hdrlen = 30 then 1 else 0, qos := 1
    privacy := 1, encrypt := encAes, ivLen := 8, icvLen := 8
    ra := ⟨2, 0, 0, 0, 0, 1⟩, ta := ⟨0x10, 1, 2, 3, 4, 5⟩ }
  buf := [fc0, fc1, 0, 0, 2, 0, 0, 0, 0, 1, 0x10, 1, 2, 3, 4, 5, 2, 0, 0, 0, 0, 9, 0, 0] ++
    List.replicate (hdrlen - 24) 0 ++ [1, 0, 0, 0x20, 0, 0, 0, 0] ++ [0xaa, 0xbb, 0xcc, 0xdd] ++
    List.replicate 8 0
  rxData := 0
  rxTail := hdrlen + 20

/-- A QoS frame without HT Control is received. -/
theorem ccmp_received_qos :
    CcmpAdmitted (plainFrame 0x88 0x41 26) ∧
      AlwaysReceived oneKeyCrypto (plainFrame 0x88 0x41 26) (List.replicate 16 7) 4 := by
  have hadm : CcmpAdmitted (plainFrame 0x88 0x41 26) :=
    ⟨⟨by decide, by decide, by decide, rfl, rfl, by decide⟩, rfl⟩
  exact ⟨hadm, (ccmp_received_iff hadm (by decide) (by decide)).mpr
    ⟨by decide, by decide, by decide, by decide⟩⟩

/-- With HT Control `rtw_aes_decrypt` refuses the frame. -/
theorem ccmp_htc_refused :
    CcmpAdmitted (plainFrame 0x88 0xc1 30) ∧
      CcmpMpdu rotateBlock (plainFrame 0x88 0xc1 30) 4
        (sealFrame rotateBlock (plainFrame 0x88 0xc1 30) 4) ∧
      (rtwAesDecrypt oneKeyCrypto (sealFrame rotateBlock (plainFrame 0x88 0xc1 30) 4)).map Prod.fst
        = some .fail := by
  have hadm : CcmpAdmitted (plainFrame 0x88 0xc1 30) :=
    ⟨⟨by decide, by decide, by decide, rfl, rfl, by decide⟩, rfl⟩
  exact ⟨hadm, sealFrame_mpdu hadm (by decide), by decide +kernel⟩

end Rtl8723bs
