/-
# Software CCMP against IEEE 802.11

`driverAad` and `ccmpNonce` are what the driver authenticates.  IEEE 802.11 has its own additional
data: bit 6 of the frame control field is masked with bits 4 and 5, and the sequence control field
keeps the fragment number.  The two agree on frames with fragment number 0 and bit 6 clear, and on
no other (`ccmp_is_ieee80211_iff`).

To tell two tags apart it is enough to look at one block function: under the identity the CBC-MAC
adds its blocks up, and the byte that differs can be read off the tag.
-/
import Rtl8723bs.Security.CcmpRefine

namespace Rtl8723bs

open Ccm

/-! ## 1. The standard's nonce and additional data -/

/-- The QoS bit of the subtype. -/
def isQosSubtype (m : Mem) : Bool := getFrameSubType m &&& 0x80 ≠ 0

/-- Priority (the TID of a QoS frame, else 0), A2 and PN. -/
def ieeeNonce (m : Mem) (hdrlen : Nat) : List UInt8 :=
  nonceOf (if isQosSubtype m then m 24 &&& 0x0f else 0) m hdrlen

/-- Frame control with bits 4 to 6, Retry, PwrMgt and MoreData masked, the three addresses,
sequence control with the sequence number masked, and the TID of a QoS frame. -/
def ieeeAad (m : Mem) : List UInt8 :=
  aadOf (m 0 &&& 0x8f) (m 1 &&& 0xc7) (m 22 &&& 0x0f)
    (if isQosSubtype m then [m 24 &&& 0x0f, 0] else []) m

theorem getFragNum_eq_zero_iff (m : Mem) : getFragNum m = 0 ↔ m 22 &&& 0x0f = 0 := by
  have hbyte : getFragNum m = (m 22 &&& 0x0f).toNat := by
    have hmask := Nat.and_two_pow_sub_one_eq_mod (m 22).toNat 4
    have hlt := (m 22).toNat_lt
    rw [UInt8.toNat_and]
    unfold getFragNum le16
    have h15 : (0x0f : UInt8).toNat = 2 ^ 4 - 1 := rfl
    rw [h15, hmask]
    omega
  rw [hbyte, ← UInt8.toNat_inj]
  rfl

theorem subTypeBit6_eq_zero_iff (m : Mem) :
    getFrameSubType m &&& 0x40 = 0 ↔ m 0 &&& 0x40 = 0 := by
  rw [getFrameSubType_byte, Nat.and_assoc, ← UInt8.toNat_inj, UInt8.toNat_and]
  rfl

/-- Bits 4 and 5 are masked by both, bit 6 by the standard only. -/
theorem frameControl_eq_iff (b : UInt8) : b &&& 0xcf = b &&& 0x8f ↔ b &&& 0x40 = 0 := by
  constructor
  · intro heq
    have hbit := congrArg (· &&& 0x40) heq
    simp only [UInt8.and_assoc] at hbit
    exact hbit.trans UInt8.and_zero
  · intro hzero
    have hsplit : b &&& 0xcf = (b &&& 0x8f) ||| (b &&& 0x40) :=
      UInt8.toBitVec_inj.mp (BitVec.and_or_distrib_left (x := b.toBitVec) (y := 0x8f) (z := 0x40))
    rw [hsplit, hzero, UInt8.or_zero]

/-- With bit 6 clear, the driver finds the QoS field of every QoS frame. -/
theorem qcExists_eq {m : Mem} {hdrlen : Nat} (h : ThreeAddrHdr m hdrlen)
    (hbit : getFrameSubType m &&& 0x40 = 0) : qcExists m = isQosSubtype m := by
  have hbytes : ∀ b < 256, b &&& 0x0c = 8 → (b &&& 0xfc) &&& 0x40 = 0 →
      byteQc b = decide ((b &&& 0xfc) &&& 0x80 ≠ 0) := by decide +kernel
  have hdata := h.data
  rw [getFrameSubType_byte] at hbit
  rw [getFrameType_byte] at hdata
  rw [qcExists_byte, isQosSubtype, getFrameSubType_byte]
  exact hbytes _ (m 0).toNat_lt hdata hbit

theorem ThreeAddrHdr.len_qos {m : Mem} {hdrlen : Nat} (h : ThreeAddrHdr m hdrlen) :
    hdrlen = 26 ↔ isQosSubtype m = true := by
  rw [h.len, isQosSubtype, decide_eq_true_iff]
  split
  · rename_i hq
    exact ⟨fun _ => hq, fun _ => rfl⟩
  · rename_i hq
    exact ⟨fun hlen => absurd hlen (by decide), fun hq' => absurd hq' hq⟩

/-! ## 2. Telling tags apart -/

/-- Byte `k` of the tag under the identity: the bytes of all the blocks, added up. -/
theorem getD_tag_id (priority fc0 fc1 sc0 : UInt8) {qos : List UInt8} (m : Mem) (hdrlen : Nat)
    (msg : List UInt8) (hqos : qos.length ≤ 8) {k : Nat} (hk : k < 8) :
    (tag ccmpParams id (nonceOf priority m hdrlen) (aadOf fc0 fc1 sc0 qos m) msg).getD k 0
      = ctrBlock ccmpParams (nonceOf priority m hdrlen) 0 ⟨k, by omega⟩ ^^^
        (formatB0 ccmpParams (nonceOf priority m hdrlen) (aadOf fc0 fc1 sc0 qos m) msg.length
            ⟨k, by omega⟩ ^^^
          (u8x16 ([UInt8.ofNat ((22 + qos.length) / 256), UInt8.ofNat (22 + qos.length), fc0, fc1,
              m 4, m 5, m 6, m 7, m 8, m 9, m 10, m 11, m 12, m 13, m 14, m 15]) ⟨k, by omega⟩ ^^^
            (u8x16 ([m 16, m 17, m 18, m 19, m 20, m 21, sc0, 0] ++ qos) ⟨k, by omega⟩ ^^^
              chain id zeroBlock (blocks msg) ⟨k, by omega⟩))) := by
  rw [getD_tag_ccmp _ _ _ _ hk]
  unfold mac
  rw [blocks_aadOf _ _ _ _ hqos, List.cons_append, List.cons_append, List.nil_append]
  have hcons : ∀ (x b : Block) (bs : List Block), chain id x (b :: bs) = chain id (Ccm.xor x b) bs :=
    fun _ _ _ => rfl
  rw [hcons, hcons, hcons, chain_id_apply]
  simp only [Ccm.xor, zeroBlock, id, UInt8.zero_xor, UInt8.xor_assoc]

/-- Equal tags come from equal frame control and sequence control bytes. -/
theorem fields_of_tag_eq {p₁ p₂ fc₁ fc₂ c₁ c₂ sc₁ sc₂ : UInt8} {q₁ q₂ : List UInt8} {m : Mem}
    {hdrlen : Nat} {msg : List UInt8} (hq₁ : q₁.length ≤ 8) (hq₂ : q₂.length ≤ 8)
    (h : tag ccmpParams id (nonceOf p₁ m hdrlen) (aadOf fc₁ c₁ sc₁ q₁ m) msg
      = tag ccmpParams id (nonceOf p₂ m hdrlen) (aadOf fc₂ c₂ sc₂ q₂ m) msg) :
    fc₁ = fc₂ ∧ sc₁ = sc₂ := by
  constructor
  · have hbyte := congrArg (fun l => l.getD 2 0) h
    rw [getD_tag_id _ _ _ _ _ _ _ hq₁ (by decide), getD_tag_id _ _ _ _ _ _ _ hq₂ (by decide)]
      at hbyte
    exact (UInt8.xor_left_inj _).mp
      ((UInt8.xor_right_inj (m 10)).mp ((UInt8.xor_right_inj (m 10)).mp hbyte))
  · have hbyte := congrArg (fun l => l.getD 6 0) h
    rw [getD_tag_id _ _ _ _ _ _ _ hq₁ (by decide), getD_tag_id _ _ _ _ _ _ _ hq₂ (by decide)]
      at hbyte
    exact (UInt8.xor_left_inj _).mp ((UInt8.xor_right_inj (m 6)).mp
      ((UInt8.xor_right_inj (m 14)).mp ((UInt8.xor_right_inj (m 14)).mp hbyte)))

/-! ## 3. The comparison -/

/-- On the first fragment and with bit 6 clear, the driver's nonce and additional data are the
standard's. -/
theorem driver_eq_ieee {m : Mem} {hdrlen : Nat} (h : ThreeAddrHdr m hdrlen)
    (hfrag : m 22 &&& 0x0f = 0) (hbit : getFrameSubType m &&& 0x40 = 0) :
    ccmpNonce m hdrlen = ieeeNonce m hdrlen ∧ driverAad m hdrlen = ieeeAad m := by
  have hqos := h.len_qos
  have hqc := qcExists_eq h hbit
  constructor
  · unfold ccmpNonce ieeeNonce
    rw [hqc]
    cases isQosSubtype m <;> rfl
  · unfold driverAad ieeeAad
    rw [hqc, hfrag, (frameControl_eq_iff (m 0)).mpr ((subTypeBit6_eq_zero_iff m).mp hbit)]
    cases hq : isQosSubtype m with
    | true => rw [if_pos (hqos.mpr hq)]; rfl
    | false => rw [if_neg (fun hlen => by rw [hqos.mp hlen] at hq; cases hq)]; rfl

/-- **The driver's CCMP is IEEE 802.11's, for every key, exactly on frames with fragment number 0
and bit 6 of the frame control field clear.** -/
theorem ccmp_is_ieee80211_iff {m : Mem} {hdrlen : Nat} (h : ThreeAddrHdr m hdrlen) (n : Nat) :
    (∀ aes : Block → Block,
      (readBytes (aesCipher aes hdrlen m n) (hdrlen + 8) n,
          readBytes (aesCipher aes hdrlen m n) (hdrlen + 8 + n) 8)
        = encrypt ccmpParams aes (ieeeNonce m hdrlen) (ieeeAad m)
            (readBytes m (hdrlen + 8) n)) ↔
      getFragNum m = 0 ∧ getFrameSubType m &&& 0x40 = 0 := by
  rw [getFragNum_eq_zero_iff]
  constructor
  · intro hall
    have hsame := (aesCipher_output id h n).symm.trans (hall id)
    have htag := congrArg Prod.snd hsame
    obtain ⟨hfc, hsc⟩ := fields_of_tag_eq (by split <;> simp) (by split <;> simp) htag
    exact ⟨hsc.symm, (subTypeBit6_eq_zero_iff m).mpr ((frameControl_eq_iff (m 0)).mp hfc)⟩
  · rintro ⟨hfrag, hbit⟩ aes
    obtain ⟨hnonce, haad⟩ := driver_eq_ieee h hfrag hbit
    rw [aesCipher_output aes h, hnonce, haad]

/-- The QoS frame as fragment `frag` of the MSDU with sequence number 1. -/
def fragmentOf (frag : UInt8) : Mem := fun i =>
  if i = 22 then 0x10 ||| frag else if i = 23 then 0 else ccmpQosFrame i

theorem ccmp_is_ieee80211_on_first :
    ThreeAddrHdr (fragmentOf 0) 26 ∧
      ∀ aes : Block → Block,
        (readBytes (aesCipher aes 26 (fragmentOf 0) 21) 34 21,
            readBytes (aesCipher aes 26 (fragmentOf 0) 21) 55 8)
          = encrypt ccmpParams aes (ieeeNonce (fragmentOf 0) 26) (ieeeAad (fragmentOf 0))
              (readBytes (fragmentOf 0) 34 21) := by
  have hhdr : ThreeAddrHdr (fragmentOf 0) 26 := ⟨by decide, by decide⟩
  exact ⟨hhdr, (ccmp_is_ieee80211_iff hhdr 21).mpr ⟨by decide, by decide⟩⟩

/-- The second fragment has fragment number 1, and its MIC is not the standard's. -/
theorem ccmp_not_ieee80211_on_second :
    ThreeAddrHdr (fragmentOf 1) 26 ∧
      (readBytes (aesCipher rotateBlock 26 (fragmentOf 1) 21) 34 21,
          readBytes (aesCipher rotateBlock 26 (fragmentOf 1) 21) 55 8)
        ≠ encrypt ccmpParams rotateBlock (ieeeNonce (fragmentOf 1) 26) (ieeeAad (fragmentOf 1))
            (readBytes (fragmentOf 1) 34 21) :=
  ⟨⟨by decide, by decide⟩, by decide +kernel⟩

end Rtl8723bs
