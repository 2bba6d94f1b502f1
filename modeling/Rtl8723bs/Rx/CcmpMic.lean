/-
# The MIC of `aes_decipher` and that of IEEE 802.11

`aes_decipher` encrypts what it decrypted once more and compares eight bytes.  It takes any header
length but 24 and 26 for a header with a fourth address, adds two bytes to a QoS header that is
not 26 bytes long, and works on what `message` held before when the frame is too long for it.
Three facts tell its MIC from the standard's: a stale `message` shows in the MIC
(`decipherMic_stale`), the length of a four-address header does (`not_micHolds_a4`), and so do the
bytes it masks differently (`micHolds_fields`).
-/
import Rtl8723bs.Rx.Admitted

namespace Rtl8723bs

open Ccm

/-! ## 1. The MIC the driver computes -/

/-- Counter blocks read the first 32 bytes only. -/
theorem readsBelow_ctr {hlen : Nat} (hhlen : 24 ≤ hlen) (a4 qc : Bool) (m : Mem)
    (pn : Fin 6 → UInt8) :
    ReadsBelow (hlen + 8) (fun m' c => constructCtrPreload a4 qc m' pn c) m
      (fun c => constructCtrPreload a4 qc m pn c) := by
  intro m' hsame c
  unfold constructCtrPreload nonceTid
  simp only
  rw [hsame 10 (by omega), hsame 11 (by omega), hsame 12 (by omega), hsame 13 (by omega),
    hsame 14 (by omega), hsame 15 (by omega), hsame 24 (by omega), hsame 30 (by omega)]

/-- "Calculate MIC" chains the three header blocks and the payload. -/
theorem calculateMic_chain (aes : Block → Block) (micIv h₁ h₂ : Block) (m : Mem) (P n : Nat) :
    calculateMic aes micIv h₁ h₂ m P n
      = chain aes zeroBlock (micIv :: h₁ :: h₂ :: blocks (readBytes m P n)) := by
  rw [blocks_readBytes]
  unfold calculateMic
  simp only [micLoop_eq]
  unfold chain
  rw [List.foldl_cons, xor_zeroBlock, List.foldl_cons, List.foldl_cons, List.foldl_append]
  split
  · rw [List.foldl_cons, List.foldl_nil]
    rfl
  · rfl

/-- The eight bytes of MIC that `micAndEncrypt` leaves, for any header. -/
theorem micAndEncrypt_mic (aes : Block → Block) {hlen : Nat} (hhlen : 24 ≤ hlen) (qc a4 : Bool)
    (pn : Fin 6 → UInt8) (n : Nat) (m : Mem) {j : Nat} (hj : j < 8) :
    micAndEncrypt aes hlen qc a4 pn n m (hlen + 8 + n + j)
      = aes (constructCtrPreload a4 qc m pn 0) ⟨j, by omega⟩ ^^^
        chain aes zeroBlock (constructMicIv qc a4 m n pn :: constructMicHeader1 hlen m ::
          constructMicHeader2 m a4 qc :: blocks (readBytes m (hlen + 8) n)) ⟨j, by omega⟩ := by
  have hreads := readsBelow_ctr hhlen a4 qc m pn
  have hmic : ∀ b, ∀ x < hlen + 8, writeBlock m (hlen + 8 + n) 8 b x = m x :=
    fun b x hx => writeBlock_of_lt (by omega)
  have hpayload := fun b => ctrPayload_apply aes hreads (hmic b) n
  have hkey : ∀ b, constructCtrPreload a4 qc
      (ctrPayload aes (fun m' c => constructCtrPreload a4 qc m' pn c) (hlen + 8) n
        (writeBlock m (hlen + 8 + n) 8 b)) pn 0 = constructCtrPreload a4 qc m pn 0 := by
    intro b
    refine hreads _ (fun i hi => ?_) 0
    rw [hpayload, if_neg (by omega), hmic b i hi]
  have hat : hlen + 8 + n + j - (hlen + 8 + n) = j := by omega
  unfold micAndEncrypt
  rw [encryptMic_apply aes (hkey _), dif_pos (by omega), hpayload, if_neg (by omega),
    writeBlock_apply, dif_pos (by omega), calculateMic_chain]
  simp only [hat]

/-- Under the identity the MIC adds up the blocks. -/
theorem micAndEncrypt_mic_id {hlen : Nat} (hhlen : 24 ≤ hlen) (qc a4 : Bool) (pn : Fin 6 → UInt8)
    (n : Nat) (m : Mem) {j : Nat} (hj : j < 8) :
    micAndEncrypt id hlen qc a4 pn n m (hlen + 8 + n + j)
      = constructCtrPreload a4 qc m pn 0 ⟨j, by omega⟩ ^^^
        (constructMicIv qc a4 m n pn ⟨j, by omega⟩ ^^^
          (constructMicHeader1 hlen m ⟨j, by omega⟩ ^^^
            (constructMicHeader2 m a4 qc ⟨j, by omega⟩ ^^^
              chain id zeroBlock (blocks (readBytes m (hlen + 8) n)) ⟨j, by omega⟩))) := by
  have hcons : ∀ (x b : Block) (bs : List Block), chain id x (b :: bs) = chain id (Ccm.xor x b) bs :=
    fun _ _ _ => rfl
  rw [micAndEncrypt_mic id hhlen qc a4 pn n m hj, hcons, hcons, hcons, chain_id_apply]
  simp only [Ccm.xor, zeroBlock, id, UInt8.zero_xor, UInt8.xor_assoc]

/-! ## 2. `aes_decipher`, for any header -/

/-- `message` as `aes_decipher` fills it. -/
def cipherMessage (hlen plen : Nat) (plain stale : Mem) : Mem := fun i =>
  if hlen + plen + 8 ≤ maxMsgSize ∧ i < hlen + plen + 8 then plain i else stale i

/-- The frame after `aes_decipher`. -/
theorem aesDecipher_snd (aes : Block → Block) (hdrlen : Nat) (m stale : Mem) (n : Nat) :
    (aesDecipher aes hdrlen m (n + 8) stale).2
      = ctrPayload aes (fun m' c => constructCtrPreload (a4Exists hdrlen) (qcExists m) m'
          (pnVector m hdrlen) c) (qosHdrlen hdrlen m + 8) n m := rfl

theorem le_qosHdrlen (hdrlen : Nat) (m : Mem) : hdrlen ≤ qosHdrlen hdrlen m := by
  unfold qosHdrlen
  split <;> omega

theorem qosHdrlen_congr (hdrlen : Nat) {m m' : Mem} (h0 : m' 0 = m 0) :
    qosHdrlen hdrlen m' = qosHdrlen hdrlen m := by
  unfold qosHdrlen
  rw [qcExists_byte, h0, ← qcExists_byte]

/-- Behind the payload nothing changes. -/
theorem aesDecipher_snd_of_le (aes : Block → Block) {hdrlen : Nat} (hhdr : 24 ≤ hdrlen)
    (m stale : Mem) {n x : Nat} (hx : qosHdrlen hdrlen m + 8 + n ≤ x) :
    (aesDecipher aes hdrlen m (n + 8) stale).2 x = m x := by
  have hle := le_qosHdrlen hdrlen m
  rw [aesDecipher_snd, ctrPayload_apply aes (readsBelow_ctr (by omega) _ _ _ _) (fun _ _ => rfl),
    if_neg (by omega)]

/-- In front of the payload nothing changes. -/
theorem aesDecipher_snd_of_lt (aes : Block → Block) {hdrlen : Nat} (hhdr : 24 ≤ hdrlen)
    (m stale : Mem) {n x : Nat} (hx : x < qosHdrlen hdrlen m + 8) :
    (aesDecipher aes hdrlen m (n + 8) stale).2 x = m x := by
  have hle := le_qosHdrlen hdrlen m
  rw [aesDecipher_snd, ctrPayload_apply aes (readsBelow_ctr (by omega) _ _ _ _) (fun _ _ => rfl),
    if_neg (by omega)]

/-- Byte `j` of the MIC that `aes_decipher` computes over `message`. -/
def decipherMic (aes : Block → Block) (hdrlen : Nat) (m stale : Mem) (n j : Nat) : UInt8 :=
  let plain := (aesDecipher aes hdrlen m (n + 8) stale).2
  let hlen := qosHdrlen hdrlen m
  micAndEncrypt aes hlen (qcExists m) (a4Exists hdrlen) (pnVector plain hlen) n
    (cipherMessage hlen (n + 8) plain stale) (hlen + 8 + n + j)

/-- **What `aes_decipher` accepts**: the eight bytes behind the payload are its MIC. -/
theorem aesDecipher_accepts_iff (aes : Block → Block) {hdrlen : Nat} (hhdr : 24 ≤ hdrlen)
    (m stale : Mem) (n : Nat) :
    (aesDecipher aes hdrlen m (n + 8) stale).1 = true ↔
      ∀ j < 8, m (qosHdrlen hdrlen m + 8 + n + j) = decipherMic aes hdrlen m stale n j := by
  have hbehind := fun j => aesDecipher_snd_of_le aes hhdr m stale (n := n)
    (x := qosHdrlen hdrlen m + 8 + n + j) (by omega)
  have hok : (aesDecipher aes hdrlen m (n + 8) stale).1 = decide
      (readBytes (aesDecipher aes hdrlen m (n + 8) stale).2 (qosHdrlen hdrlen m + 8 + n) 8
        = readBytes (micAndEncrypt aes (qosHdrlen hdrlen m) (qcExists m) (a4Exists hdrlen)
            (pnVector (aesDecipher aes hdrlen m (n + 8) stale).2 (qosHdrlen hdrlen m)) n
            (cipherMessage (qosHdrlen hdrlen m) (n + 8) (aesDecipher aes hdrlen m (n + 8) stale).2
              stale)) (qosHdrlen hdrlen m + 8 + n) 8) := rfl
  rw [hok, decide_eq_true_iff]
  constructor
  · intro heq j hj
    have hbyte := congrArg (fun l => l.getD j 0) heq
    simp only [getD_readBytes _ hj] at hbyte
    rw [← hbehind j]
    exact hbyte
  · intro hall
    refine readBytes_congr fun i hi hin => ?_
    have hat := hall (i - (qosHdrlen hdrlen m + 8 + n)) (by omega)
    rw [← hbehind, Nat.add_sub_cancel' hi] at hat
    rw [hat]
    unfold decipherMic
    dsimp only
    rw [Nat.add_sub_cancel' hi]

/-- The MIC of `micAndEncrypt` depends on nothing behind the payload. -/
theorem micAndEncrypt_mic_congr (aes : Block → Block) {hlen : Nat} (hhlen : 24 ≤ hlen)
    (qc a4 : Bool) (pn : Fin 6 → UInt8) (n : Nat) {m m' : Mem}
    (hsame : ∀ i < hlen + 8 + n, m' i = m i) {j : Nat} (hj : j < 8) :
    micAndEncrypt aes hlen qc a4 pn n m' (hlen + 8 + n + j)
      = micAndEncrypt aes hlen qc a4 pn n m (hlen + 8 + n + j) := by
  have hlow : ∀ i < 32, m' i = m i := fun i hi => hsame i (by omega)
  have hctr : constructCtrPreload a4 qc m' pn 0 = constructCtrPreload a4 qc m pn 0 :=
    readsBelow_ctr hhlen a4 qc m pn m' (fun i hi => hsame i (by omega)) 0
  have hiv : constructMicIv qc a4 m' n pn = constructMicIv qc a4 m n pn := by
    unfold constructMicIv nonceTid
    simp only [hlow 10 (by decide), hlow 11 (by decide), hlow 12 (by decide),
      hlow 13 (by decide), hlow 14 (by decide), hlow 15 (by decide), hlow 24 (by decide),
      hlow 30 (by decide)]
  have hheader₁ : constructMicHeader1 hlen m' = constructMicHeader1 hlen m := by
    unfold constructMicHeader1
    simp only [hlow 0 (by decide), hlow 1 (by decide), hlow 4 (by decide), hlow 5 (by decide),
      hlow 6 (by decide), hlow 7 (by decide), hlow 8 (by decide), hlow 9 (by decide),
      hlow 10 (by decide), hlow 11 (by decide), hlow 12 (by decide), hlow 13 (by decide),
      hlow 14 (by decide), hlow 15 (by decide)]
  have hheader₂ : constructMicHeader2 m' a4 qc = constructMicHeader2 m a4 qc := by
    unfold constructMicHeader2
    simp only [hlow 16 (by decide), hlow 17 (by decide), hlow 18 (by decide), hlow 19 (by decide),
      hlow 20 (by decide), hlow 21 (by decide), hlow 24 (by decide), hlow 25 (by decide),
      hlow 26 (by decide), hlow 27 (by decide), hlow 28 (by decide), hlow 29 (by decide),
      hlow 30 (by decide), hlow 31 (by decide)]
  have hpayload : readBytes m' (hlen + 8) n = readBytes m (hlen + 8) n :=
    readBytes_congr fun i _ hi => hsame i hi
  rw [micAndEncrypt_mic aes hhlen qc a4 pn n m' hj, micAndEncrypt_mic aes hhlen qc a4 pn n m hj,
    hctr, hiv, hheader₁, hheader₂, hpayload]

/-- Decryption leaves the same in front of the MIC. -/
theorem aesDecipher_snd_congr (aes : Block → Block) {hdrlen : Nat} (hhdr : 24 ≤ hdrlen)
    {m m' : Mem} (stale stale' : Mem) {n : Nat}
    (hsame : ∀ i < qosHdrlen hdrlen m + 8 + n, m' i = m i) {x : Nat}
    (hx : x < qosHdrlen hdrlen m + 8 + n) :
    (aesDecipher aes hdrlen m' (n + 8) stale').2 x
      = (aesDecipher aes hdrlen m (n + 8) stale).2 x := by
  have hle := le_qosHdrlen hdrlen m
  have hqc : qcExists m' = qcExists m := by
    rw [qcExists_byte, hsame 0 (by omega), ← qcExists_byte]
  have hpn : pnVector m' hdrlen = pnVector m hdrlen := by
    funext k
    have hk := k.isLt
    unfold pnVector
    split <;> exact hsame _ (by omega)
  have hq := qosHdrlen_congr hdrlen (hsame 0 (by omega))
  have hreads := @readsBelow_ctr (qosHdrlen hdrlen m) (by omega) (a4Exists hdrlen) (qcExists m) m
    (pnVector m hdrlen)
  rw [aesDecipher_snd, aesDecipher_snd, hqc, hpn, hq,
    ctrPayload_apply aes hreads (fun i hi => hsame i (by omega)),
    ctrPayload_apply aes hreads (fun _ _ => rfl), hsame x hx]

/-- The MIC that `aes_decipher` computes depends on nothing behind the payload. -/
theorem decipherMic_congr (aes : Block → Block) {hdrlen : Nat} (hhdr : 24 ≤ hdrlen) {m m' : Mem}
    (stale : Mem) {n : Nat} (hsame : ∀ i < qosHdrlen hdrlen m + 8 + n, m' i = m i) {j : Nat}
    (hj : j < 8) : decipherMic aes hdrlen m' stale n j = decipherMic aes hdrlen m stale n j := by
  have hle := le_qosHdrlen hdrlen m
  have hqc : qcExists m' = qcExists m := by
    rw [qcExists_byte, hsame 0 (by omega), ← qcExists_byte]
  have hq := qosHdrlen_congr hdrlen (hsame 0 (by omega))
  have hplain := fun x hx => aesDecipher_snd_congr aes hhdr stale stale hsame (x := x) hx
  have hpn : pnVector (aesDecipher aes hdrlen m' (n + 8) stale).2 (qosHdrlen hdrlen m)
      = pnVector (aesDecipher aes hdrlen m (n + 8) stale).2 (qosHdrlen hdrlen m) := by
    funext k
    have hk := k.isLt
    unfold pnVector
    split <;> exact hplain _ (by omega)
  unfold decipherMic
  dsimp only
  rw [hq, hqc, hpn]
  refine micAndEncrypt_mic_congr aes (by omega) _ _ _ _ (fun i hi => ?_) hj
  unfold cipherMessage
  rw [hplain i hi]

/-! ## 3. The standard's MIC -/

/-- The additional data: +HTC/Order is masked in a QoS frame, and HT Control left out. -/
def ieeeHtcAad (m : Mem) : List UInt8 :=
  aadOf (m 0 &&& 0x8f) (m 1 &&& if isQosSubtype m then 0x47 else 0xc7) (m 22 &&& 0x0f)
    (if isQosSubtype m then [m 24 &&& 0x0f, 0] else []) m

/-- What the standard makes of a body under the header of `m`: ciphertext and MIC. -/
def ieeeSeal (aes : Block → Block) (m : Mem) (hdrlen : Nat) (body : List UInt8) :
    List UInt8 × List UInt8 :=
  encrypt ccmpParams aes (ieeeNonce m hdrlen) (ieeeHtcAad m) body

theorem orderBit_of_not {m : Mem} (h : getOrder m = false) : m 1 &&& 0x80 = 0 := by
  have hzero : le16 m 0 &&& 2 ^ 15 = 0 := by simpa [getOrder] using h
  have htest : (le16 m 0).testBit 15 = false := by
    have hbit := congrArg (Nat.testBit · 15) hzero
    simpa only [Nat.testBit_and, Nat.testBit_two_pow_self, Bool.and_true, Nat.zero_testBit]
      using hbit
  have hlt : (m 1).toNat < 128 := by
    have h0 := (m 0).toNat_lt
    have h1 := (m 1).toNat_lt
    rw [Nat.testBit_eq_decide_div_mod_eq, decide_eq_false_iff_not] at htest
    simp only [le16, Nat.zero_add] at htest
    omega
  exact UInt8.forall_lt (P := fun b => b &&& 0x80 = 0) (by decide +kernel) (m 1) hlt

/-- **Without the Order bit** the masks of the standard come down to those of `ieeeAad`. -/
theorem ieeeHtcAad_eq {m : Mem} (horder : getOrder m = false) : ieeeHtcAad m = ieeeAad m := by
  have hmask : m 1 &&& 0x47 = m 1 &&& 0xc7 := by
    have hsplit : m 1 &&& 0xc7 = (m 1 &&& 0x47) ||| (m 1 &&& 0x80) :=
      UInt8.toBitVec_inj.mp (BitVec.and_or_distrib_left (x := (m 1).toBitVec) (y := 0x47) (z := 0x80))
    rw [hsplit, orderBit_of_not horder, UInt8.or_zero]
  unfold ieeeHtcAad ieeeAad
  cases isQosSubtype m with
  | true => rw [if_pos rfl, if_pos rfl, hmask]
  | false => rfl

/-- The standard's nonce and additional data are read from header and IV. -/
theorem ieee_congr {m m' : Mem} {hdrlen : Nat} (hhdr : 24 ≤ hdrlen)
    (hsame : ∀ i < hdrlen + 8, m' i = m i) :
    ieeeNonce m' hdrlen = ieeeNonce m hdrlen ∧ ieeeHtcAad m' = ieeeHtcAad m := by
  have hlow : ∀ i < 32, m' i = m i := fun i hi => hsame i (by omega)
  have hqos : isQosSubtype m' = isQosSubtype m := by
    rw [isQosSubtype, isQosSubtype, getFrameSubType_byte, getFrameSubType_byte,
      hlow 0 (by decide)]
  have hpn : pnVector m' hdrlen = pnVector m hdrlen := by
    funext k
    have hk := k.isLt
    unfold pnVector
    split <;> exact hsame _ (by omega)
  constructor
  · unfold ieeeNonce nonceOf
    simp only [hqos, hpn, hlow 24 (by decide), hlow 10 (by decide), hlow 11 (by decide),
      hlow 12 (by decide), hlow 13 (by decide), hlow 14 (by decide), hlow 15 (by decide)]
  · unfold ieeeHtcAad aadOf
    simp only [hqos, hlow 0 (by decide), hlow 1 (by decide), hlow 4 (by decide),
      hlow 5 (by decide), hlow 6 (by decide), hlow 7 (by decide), hlow 8 (by decide),
      hlow 9 (by decide), hlow 10 (by decide), hlow 11 (by decide), hlow 12 (by decide),
      hlow 13 (by decide), hlow 14 (by decide), hlow 15 (by decide), hlow 16 (by decide),
      hlow 17 (by decide), hlow 18 (by decide), hlow 19 (by decide), hlow 20 (by decide),
      hlow 21 (by decide), hlow 22 (by decide), hlow 24 (by decide)]

/-- The MIC carried is the one the standard computes over the body that `aes_decipher` leaves. -/
def MicHolds (aes : Block → Block) (hdrlen : Nat) (m stale : Mem) (n : Nat) : Prop :=
  readBytes m (hdrlen + 8 + n) 8 = tag ccmpParams aes (ieeeNonce m hdrlen) (ieeeHtcAad m)
    (readBytes (aesDecipher aes hdrlen m (n + 8) stale).2 (hdrlen + 8) n)

/-- Subtypes with a QoS field for the driver are QoS subtypes. -/
theorem isQosSubtype_of_qc {m : Mem} (hdata : getFrameType m = wifiDataType)
    (hqc : qcExists m = true) : isQosSubtype m = true := by
  have hbytes : ∀ b < 256, b &&& 0x0c = 8 → byteQc b = true →
      decide ((b &&& 0xfc) &&& 0x80 ≠ 0) = true := by decide +kernel
  rw [getFrameType_byte] at hdata
  rw [qcExists_byte] at hqc
  rw [isQosSubtype, getFrameSubType_byte]
  exact hbytes _ (m 0).toNat_lt hdata hqc

/-! ## 4. Telling the two apart -/

/-- **A frame too long for `message`** is checked against what is left there, so a byte of it
makes the difference. -/
theorem decipherMic_stale {hdrlen : Nat} (hhdr : 24 ≤ hdrlen) (m : Mem) {n : Nat}
    (hlong : maxMsgSize < hdrlen + n + 16) :
    decipherMic id hdrlen m (fun _ => 0) n 2
      ≠ decipherMic id hdrlen m (fun i => if i = 18 then 1 else 0) n 2 := by
  intro heq
  have hq := le_qosHdrlen hdrlen m
  have hstale : ∀ plain stale : Mem,
      cipherMessage (qosHdrlen hdrlen m) (n + 8) plain stale = stale := by
    intro plain stale
    funext i
    exact if_neg (by omega)
  have hsame : readBytes (fun i => if i = 18 then 1 else 0) (qosHdrlen hdrlen m + 8) n
      = readBytes (fun _ => 0) (qosHdrlen hdrlen m + 8) n :=
    readBytes_congr fun i hi _ => if_neg (by omega)
  unfold decipherMic at heq
  dsimp only at heq
  rw [hstale, hstale, micAndEncrypt_mic_id (by omega) _ _ _ _ _ (by decide),
    micAndEncrypt_mic_id (by omega) _ _ _ _ _ (by decide), hsame] at heq
  have h18 : (0 : UInt8) = 1 := (UInt8.xor_left_inj _).mp ((UInt8.xor_right_inj _).mp
    ((UInt8.xor_right_inj _).mp ((UInt8.xor_right_inj _).mp heq)))
  exact absurd h18 (by decide)

section Frames

variable {f : RecvFrame} {n : Nat} {stale : Mem}

/-- **A header of 28 or 30 bytes without QoS field** is authenticated as one with a fourth
address. -/
theorem not_micHolds_a4 (h : DataAdmitted f) (hfits : f.attrib.hdrlen + n + 16 ≤ maxMsgSize)
    (horder : getOrder f.mem = true) (hqc : qcExists f.mem = false)
    (hok : (aesDecipher id f.attrib.hdrlen f.mem (n + 8) stale).1 = true) :
    ¬ MicHolds id f.attrib.hdrlen f.mem stale n := by
  intro hholds
  have hhdr := h.le_hdrlen
  have hq : qosHdrlen f.attrib.hdrlen f.mem = f.attrib.hdrlen := by
    simp [qosHdrlen, hqc]
  have hmic := (aesDecipher_accepts_iff id hhdr f.mem stale n).mp hok 1 (by decide)
  have hheader := fun x hx => aesDecipher_snd_of_lt id hhdr f.mem stale (n := n) (x := x) hx
  have hcarried := congrArg (fun l => l.getD 1 0) hholds
  unfold decipherMic at hmic
  dsimp only at hmic hcarried
  rw [hq] at hmic hheader
  generalize (aesDecipher id f.attrib.hdrlen f.mem (n + 8) stale).2 = plain
    at hmic hheader hcarried
  have hmessage : ∀ i < f.attrib.hdrlen + n + 16,
      cipherMessage f.attrib.hdrlen (n + 8) plain stale i = plain i :=
    fun i hi => if_pos (by omega)
  have hblocks : readBytes (cipherMessage f.attrib.hdrlen (n + 8) plain stale)
      (f.attrib.hdrlen + 8) n = readBytes plain (f.attrib.hdrlen + 8) n :=
    readBytes_congr fun i hi hin => hmessage i (by omega)
  have h17 : cipherMessage f.attrib.hdrlen (n + 8) plain stale 17 = f.mem 17 := by
    rw [hmessage 17 (by omega), hheader 17 (by omega)]
  rw [micAndEncrypt_mic_id hhdr _ _ _ _ _ (by decide), hblocks] at hmic
  unfold ieeeNonce ieeeHtcAad at hcarried
  rw [getD_readBytes _ (by decide), getD_tag_id _ _ _ _ _ _ _ (by split <;> simp) (by decide),
    hmic] at hcarried
  -- byte 1 of the blocks: priority twice, the length of the additional data, byte 1 of A3
  have hcancel : ∀ a x : UInt8, a ^^^ (a ^^^ x) = x := fun a x => by
    rw [← UInt8.xor_assoc, UInt8.xor_self, UInt8.zero_xor]
  have hbyte := (hcancel _ _).symm.trans (hcarried.symm.trans (hcancel _ _))
  have hlens : UInt8.ofNat (22 + (if isQosSubtype f.mem then [f.mem 24 &&& 0x0f, 0]
      else []).length) = UInt8.ofNat ((f.attrib.hdrlen - 2) % 256) := by
    refine (UInt8.xor_left_inj (f.mem 17 ^^^ chain id zeroBlock
      (blocks (readBytes plain (f.attrib.hdrlen + 8) n)) ⟨1, by decide⟩)).mp ?_
    refine hbyte.trans ?_
    rw [← h17]
    rfl
  rw [h.hdrlen, horder] at hlens
  cases hqos : isQosSubtype f.mem with
  | false =>
    rw [hqos] at hlens
    exact absurd (show (22 : UInt8) = 26 from hlens) (by decide)
  | true =>
    rw [hqos] at hlens
    exact absurd (show (24 : UInt8) = 28 from hlens) (by decide)

/-- The body that `aes_decipher` leaves under a three-address header, and what it accepts. -/
theorem aesDecipher_threeAddr (aes : Block → Block) (h : DataAdmitted f)
    (hfits : f.attrib.hdrlen + n + 16 ≤ maxMsgSize) (horder : getOrder f.mem = false) :
    let body := readBytes (aesDecipher aes f.attrib.hdrlen f.mem (n + 8) stale).2
      (f.attrib.hdrlen + 8) n
    body = ctrXor ccmpParams aes (ccmpNonce f.mem f.attrib.hdrlen)
        (readBytes f.mem (f.attrib.hdrlen + 8) n) ∧
      ((aesDecipher aes f.attrib.hdrlen f.mem (n + 8) stale).1 = true ↔
        readBytes f.mem (f.attrib.hdrlen + 8 + n) 8 = tag ccmpParams aes
          (ccmpNonce f.mem f.attrib.hdrlen) (driverAad f.mem f.attrib.hdrlen) body) := by
  have hbytes := readBytes_overwrite f.mem (f.attrib.hdrlen + 8) (ctrXor ccmpParams aes
    (ccmpNonce f.mem f.attrib.hdrlen) (readBytes f.mem (f.attrib.hdrlen + 8) n))
  rw [length_ctrXor, length_readBytes] at hbytes
  rw [aesDecipher_refines aes (h.threeAddr horder) hfits stale]
  dsimp only
  rw [hbytes]
  exact ⟨rfl, decide_eq_true_iff⟩

/-- **The bytes that are masked differently.**  A MIC that both compute is that of an unfragmented
frame with bit 6 clear. -/
theorem micHolds_fields (h : DataAdmitted f) (hfits : f.attrib.hdrlen + n + 16 ≤ maxMsgSize)
    (horder : getOrder f.mem = false)
    (hok : (aesDecipher id f.attrib.hdrlen f.mem (n + 8) stale).1 = true)
    (hholds : MicHolds id f.attrib.hdrlen f.mem stale n) :
    getFragNum f.mem = 0 ∧ getFrameSubType f.mem &&& 0x40 = 0 := by
  have htag := hholds.symm.trans ((aesDecipher_threeAddr id h hfits horder).2.mp hok)
  unfold ieeeNonce ieeeHtcAad ccmpNonce driverAad at htag
  obtain ⟨hfc, hsc⟩ := fields_of_tag_eq (by split <;> simp) (by split <;> simp) htag
  exact ⟨(getFragNum_eq_zero_iff f.mem).mpr hsc, (subTypeBit6_eq_zero_iff f.mem).mpr
    ((frameControl_eq_iff (f.mem 0)).mp hfc.symm)⟩

/-- On such a frame the driver's nonce and additional data are the standard's. -/
theorem driver_eq_ieeeHtc (h : DataAdmitted f) (horder : getOrder f.mem = false)
    (hfrag : getFragNum f.mem = 0) (hbit : getFrameSubType f.mem &&& 0x40 = 0) :
    ccmpNonce f.mem f.attrib.hdrlen = ieeeNonce f.mem f.attrib.hdrlen ∧
      driverAad f.mem f.attrib.hdrlen = ieeeHtcAad f.mem := by
  rw [ieeeHtcAad_eq horder]
  exact driver_eq_ieee (h.threeAddr horder) ((getFragNum_eq_zero_iff f.mem).mp hfrag) hbit

end Frames

end Rtl8723bs
