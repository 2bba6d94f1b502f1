/-
# Software CCMP is CCM

On a three-address data frame the driver's CCMP is CCM with a tag of eight bytes and a length
field of two, under the nonce and the additional data the driver builds (`ccmpNonce`,
`driverAad`): `aesCipher_refines` for encryption, `aesDecipher_refines` for decryption.  The
round trip is then the round trip of CCM (`ccmp_round_trip`).
-/
import Rtl8723bs.Security.Ccmp

namespace Rtl8723bs

open Ccm

/-! ## 1. The header -/

/-- A three-address data frame: the header is 26 bytes long when the QoS bit of the subtype is
set, and 24 bytes otherwise. -/
structure ThreeAddrHdr (m : Mem) (hdrlen : Nat) : Prop where
  data : getFrameType m = wifiDataType
  len : hdrlen = if getFrameSubType m &&& 0x80 ≠ 0 then wlanHdrA3QosLen else wlanHdrA3Len

/-- Bits 0 to 7 of the frame control field are the first byte's. -/
theorem le16_and_byte (m : Mem) {x : Nat} (hx : x < 256) : le16 m 0 &&& x = (m 0).toNat &&& x := by
  have hlt : le16 m 0 &&& x < 2 ^ 8 := Nat.and_lt_two_pow _ hx
  have hmod := Nat.and_mod_two_pow (a := le16 m 0) (b := x) (n := 8)
  rw [Nat.mod_eq_of_lt hlt, Nat.mod_eq_of_lt (show x < 2 ^ 8 from hx)] at hmod
  have hbyte : le16 m 0 % 2 ^ 8 = (m 0).toNat := by
    have := (m 0).toNat_lt
    unfold le16
    omega
  rw [hmod, hbyte]

theorem getFrameType_byte (m : Mem) : getFrameType m = (m 0).toNat &&& 0x0c :=
  le16_and_byte m (by omega)

theorem getFrameSubType_byte (m : Mem) : getFrameSubType m = (m 0).toNat &&& 0xfc :=
  le16_and_byte m (by omega)

theorem ThreeAddrHdr.cases {m : Mem} {hdrlen : Nat} (h : ThreeAddrHdr m hdrlen) :
    hdrlen = 24 ∨ hdrlen = 26 := by
  rw [h.len]
  split
  · exact Or.inr rfl
  · exact Or.inl rfl

theorem ThreeAddrHdr.a4Exists {m : Mem} {hdrlen : Nat} (h : ThreeAddrHdr m hdrlen) :
    a4Exists hdrlen = false := by
  rcases h.cases with h | h <;> rw [h] <;> rfl

/-- `qc_exists` of a first byte. -/
def byteQc (b : Nat) : Bool :=
  let frtype := b &&& 0x0c
  let frsubtype := (b &&& 0xfc) / 16
  ((frtype ||| frsubtype) = 0x18 ∨ (frtype ||| frsubtype) = 0x28 ∨ (frtype ||| frsubtype) = 0x38) ∨
    (frtype = 8 ∧ (frsubtype = 0x08 ∨ frsubtype = 0x09 ∨ frsubtype = 0x0a ∨ frsubtype = 0x0b))

theorem qcExists_byte (m : Mem) : qcExists m = byteQc (m 0).toNat := by
  unfold qcExists
  rw [getFrameSubType_byte, getFrameType_byte]
  rfl

/-- The QoS subtypes are among those with the QoS bit. -/
theorem ThreeAddrHdr.len_of_qc {m : Mem} {hdrlen : Nat} (h : ThreeAddrHdr m hdrlen)
    (hqc : qcExists m = true) : hdrlen = 26 := by
  have hbytes : ∀ b < 256, b &&& 0x0c = 8 → byteQc b = true → (b &&& 0xfc) &&& 0x80 ≠ 0 := by
    decide +kernel
  have hdata := h.data
  rw [getFrameType_byte] at hdata
  rw [qcExists_byte] at hqc
  rw [h.len, getFrameSubType_byte, if_pos (hbytes _ (m 0).toNat_lt hdata hqc)]
  rfl

/-- The header length stays: only a QoS subtype in a 24-byte header would move it. -/
theorem ThreeAddrHdr.qosHdrlen {m : Mem} {hdrlen : Nat} (h : ThreeAddrHdr m hdrlen) :
    qosHdrlen hdrlen m = hdrlen := by
  unfold Rtl8723bs.qosHdrlen
  split
  · rename_i hqc
    exact absurd (h.len_of_qc hqc.1) hqc.2
  · rfl

/-- The header is read from its first `hdrlen + 8` bytes, CCMP header included. -/
theorem ThreeAddrHdr.congr {m m' : Mem} {hdrlen : Nat} (h : ThreeAddrHdr m hdrlen)
    (hsame : ∀ i < hdrlen + 8, m' i = m i) : ThreeAddrHdr m' hdrlen := by
  have h0 : m' 0 = m 0 := hsame 0 (by omega)
  refine ⟨?_, ?_⟩
  · rw [getFrameType_byte, h0, ← getFrameType_byte]
    exact h.data
  · rw [getFrameSubType_byte, h0, ← getFrameSubType_byte]
    exact h.len

/-! ## 2. Nonce and additional data -/

/-- Eight bytes of tag, two bytes of length. -/
def ccmpParams : Params := ⟨8, 2⟩

/-- The nonce: the priority, A2 and the packet number, most significant byte first. -/
def nonceOf (priority : UInt8) (m : Mem) (hdrlen : Nat) : List UInt8 :=
  let pn := pnVector m hdrlen
  [priority, m 10, m 11, m 12, m 13, m 14, m 15, pn 5, pn 4, pn 3, pn 2, pn 1, pn 0]

/-- Additional data with the given frame control, sequence control and QoS bytes. -/
def aadOf (fc0 fc1 sc0 : UInt8) (qos : List UInt8) (m : Mem) : List UInt8 :=
  [fc0, fc1, m 4, m 5, m 6, m 7, m 8, m 9, m 10, m 11, m 12, m 13, m 14, m 15,
    m 16, m 17, m 18, m 19, m 20, m 21, sc0, 0] ++ qos

/-- The nonce of the driver: the priority is the TID of a QoS subtype. -/
def ccmpNonce (m : Mem) (hdrlen : Nat) : List UInt8 :=
  nonceOf (nonceTid (qcExists m) false m) m hdrlen

/-- The additional data of the driver. -/
def driverAad (m : Mem) (hdrlen : Nat) : List UInt8 :=
  aadOf (m 0 &&& 0xcf) (m 1 &&& 0xc7) 0
    (if hdrlen = 26 then [nonceTid (qcExists m) false m, 0] else []) m

theorem ofNat_mod_256 (n : Nat) : UInt8.ofNat (n % 256) = UInt8.ofNat n := by
  apply UInt8.toNat_inj.mp
  simp

theorem constructCtrPreload_eq (m : Mem) (hdrlen c : Nat) :
    constructCtrPreload false (qcExists m) m (pnVector m hdrlen) c
      = ctrBlock ccmpParams (ccmpNonce m hdrlen) c := by
  unfold constructCtrPreload ctrBlock ccmpNonce nonceOf u8x16
  rw [ofNat_mod_256]
  rfl

theorem constructMicIv_eq (m : Mem) (hdrlen n : Nat) :
    constructMicIv (qcExists m) false m n (pnVector m hdrlen)
      = formatB0 ccmpParams (ccmpNonce m hdrlen) (driverAad m hdrlen) n := by
  unfold constructMicIv formatB0 ccmpNonce nonceOf u8x16
  rw [ofNat_mod_256]
  rfl

/-- The blocks of the additional data: its length in front, and A3 starts the second one. -/
theorem blocks_aadOf (fc0 fc1 sc0 : UInt8) {qos : List UInt8} (m : Mem) (hqos : qos.length ≤ 8) :
    blocks (encodeAad (aadOf fc0 fc1 sc0 qos m))
      = [u8x16 ([UInt8.ofNat ((22 + qos.length) / 256), UInt8.ofNat (22 + qos.length),
            fc0, fc1, m 4, m 5, m 6, m 7, m 8, m 9, m 10, m 11, m 12, m 13, m 14, m 15]),
          u8x16 ([m 16, m 17, m 18, m 19, m 20, m 21, sc0, 0] ++ qos)] := by
  have hlen : (aadOf fc0 fc1 sc0 qos m).length = 22 + qos.length := by
    simp only [aadOf, List.length_append, List.length_cons, List.length_nil]
  have hsplit : encodeAad (aadOf fc0 fc1 sc0 qos m)
      = [UInt8.ofNat ((22 + qos.length) / 256), UInt8.ofNat (22 + qos.length),
          fc0, fc1, m 4, m 5, m 6, m 7, m 8, m 9, m 10, m 11, m 12, m 13, m 14, m 15] ++
        ([m 16, m 17, m 18, m 19, m 20, m 21, sc0, 0] ++ qos) := by
    unfold encodeAad
    rw [if_neg (by simp [aadOf]), hlen]
    rfl
  rw [hsplit, blocks_append rfl, blocks_short (by simp) (by simp; omega)]
  rfl

/-- The two header blocks are the additional data, with its length in front. -/
theorem micHeaders_eq {m : Mem} {hdrlen : Nat} (h : ThreeAddrHdr m hdrlen) :
    blocks (encodeAad (driverAad m hdrlen))
      = [constructMicHeader1 hdrlen m, constructMicHeader2 m false (qcExists m)] := by
  unfold driverAad
  rw [blocks_aadOf _ _ _ _ (by split <;> simp), List.cons.injEq, List.cons.injEq]
  refine ⟨?_, ?_, rfl⟩
  · rcases h.cases with h | h <;> rw [h] <;> rfl
  · unfold constructMicHeader2
    cases hqc : qcExists m with
    | false =>
      split
      · exact blockAt_append_replicate _ 2 0
      · rfl
    | true =>
      rw [if_pos (h.len_of_qc hqc)]
      simp [nonceTid]

/-! ## 3. The passes -/

/-- The loop over whole blocks is the chain over them. -/
theorem micLoop_eq (aes : Block → Block) (m : Mem) : ∀ (k P : Nat) (x : Block),
    micLoop aes m P k x = chain aes x ((List.range k).map (fun i => bytes16 m (P + 16 * i)))
  | 0, _, _ => rfl
  | k + 1, P, x => by
    rw [micLoop, micLoop_eq aes m k, List.range_succ_eq_map, List.map_cons, List.map_map]
    unfold chain
    rw [List.foldl_cons]
    congr 1
    refine List.map_congr_left fun i _ => ?_
    simp only [Function.comp]
    congr 1
    omega

/-- The blocks of a payload in memory: the whole ones, and a short last one. -/
theorem blocks_readBytes (m : Mem) (P n : Nat) :
    blocks (readBytes m P n)
      = (List.range (n / 16)).map (fun i => bytes16 m (P + 16 * i)) ++
        if 0 < n % 16 then [paddedBuffer m (P + 16 * (n / 16)) (n % 16)] else [] := by
  have hwhole : ∀ i < n / 16, blockAt (readBytes m P n) i = bytes16 m (P + 16 * i) := by
    intro i hi
    funext j
    have hj := j.isLt
    simp only [blockAt, bytes16]
    rw [getD_readBytes m (by omega)]
    congr 1
    omega
  have hlast : blockAt (readBytes m P n) (n / 16)
      = paddedBuffer m (P + 16 * (n / 16)) (n % 16) := by
    funext j
    simp only [blockAt, paddedBuffer]
    split
    · rw [getD_readBytes m (by omega)]
      congr 1
      omega
    · rw [List.getD_eq_default _ _ (by rw [length_readBytes]; omega)]
  have hmap : (List.range (n / 16)).map (blockAt (readBytes m P n))
      = (List.range (n / 16)).map (fun i => bytes16 m (P + 16 * i)) :=
    List.map_congr_left fun i hi => hwhole i (List.mem_range.mp hi)
  unfold blocks
  rw [length_readBytes]
  split
  · have hcount : (n + 15) / 16 = n / 16 + 1 := by omega
    rw [hcount, List.range_succ, List.map_append, hmap, List.map_singleton, hlast]
  · have hcount : (n + 15) / 16 = n / 16 := by omega
    rw [hcount, hmap, List.append_nil]

/-- **"Calculate MIC" is the CBC-MAC of CCM.** -/
theorem calculateMic_eq (aes : Block → Block) {m : Mem} {hdrlen : Nat}
    (h : ThreeAddrHdr m hdrlen) (n : Nat) :
    calculateMic aes (constructMicIv (qcExists m) false m n (pnVector m hdrlen))
        (constructMicHeader1 hdrlen m) (constructMicHeader2 m false (qcExists m)) m (hdrlen + 8) n
      = mac ccmpParams aes (ccmpNonce m hdrlen) (driverAad m hdrlen)
          (readBytes m (hdrlen + 8) n) := by
  unfold mac
  rw [length_readBytes, ← constructMicIv_eq, micHeaders_eq h, blocks_readBytes]
  unfold calculateMic
  simp only [micLoop_eq]
  unfold chain
  rw [List.foldl_cons, xor_zeroBlock, List.foldl_append, List.foldl_cons, List.foldl_cons,
    List.foldl_nil, List.foldl_append]
  split
  · rw [List.foldl_cons, List.foldl_nil]
    rfl
  · rfl

theorem writeBlock_apply (m : Mem) (off len : Nat) (b : Block) (x : Nat) :
    writeBlock m off len b x
      = if h : off ≤ x ∧ x < off + len ∧ x - off < 16 then b ⟨x - off, h.2.2⟩ else m x := rfl

/-- Outside what is written, memory stays. -/
theorem writeBlock_of_lt {m : Mem} {off len x : Nat} {b : Block} (h : x < off) :
    writeBlock m off len b x = m x := by
  rw [writeBlock_apply, dif_neg (by omega)]

/-- A counter block maker that reads the frame below `B` only. -/
def ReadsBelow (B : Nat) (ctr : Mem → Nat → Block) (m : Mem) (K : Nat → Block) : Prop :=
  ∀ m' : Mem, (∀ i < B, m' i = m i) → ∀ c, ctr m' c = K c

/-- **The counter mode loop**, byte by byte: the `k` blocks at `P` are under the key stream. -/
theorem ctrLoop_apply (aes : Block → Block) {ctr : Mem → Nat → Block} {K : Nat → Block}
    {m₀ : Mem} {B : Nat} (hctr : ReadsBelow B ctr m₀ K) :
    ∀ (k P i : Nat) (m : Mem), B ≤ P → (∀ x < B, m x = m₀ x) → ∀ x,
      ctrLoop aes ctr P i k m x
        = if P ≤ x ∧ x < P + 16 * k then
            m x ^^^ aes (K (i + (x - P) / 16 + 1)) ⟨(x - P) % 16, Nat.mod_lt _ (by decide)⟩
          else m x
  | 0, P, i, m, _, _, x => by
    rw [if_neg (by omega)]
    rfl
  | k + 1, P, i, m, hB, hm, x => by
    have hblock := hctr m hm (i + 1)
    have ih := ctrLoop_apply aes hctr k (P + 16) (i + 1)
      (writeBlock m P 16 (bitwiseXor (aes (K (i + 1))) (bytes16 m P))) (by omega)
      (fun y hy => by rw [writeBlock_of_lt (by omega), hm y hy]) x
    simp only [ctrLoop, hblock]
    rw [ih, writeBlock_apply]
    by_cases hbefore : x < P
    · rw [if_neg (by omega), dif_neg (by omega), if_neg (by omega)]
    · by_cases hfirst : x < P + 16
      · -- a byte of the first block
        have hdiv : (x - P) / 16 = 0 := by omega
        have hmod : (x - P) % 16 = x - P := by omega
        rw [if_neg (by omega), dif_pos (by omega), if_pos (by omega)]
        simp only [bitwiseXor, bytes16, hdiv, hmod, Nat.add_zero]
        rw [UInt8.xor_comm]
        congr 2
        omega
      · have hdiv : (x - P) / 16 = (x - (P + 16)) / 16 + 1 := by omega
        have hmod : (x - P) % 16 = (x - (P + 16)) % 16 := by omega
        rw [dif_neg (by omega)]
        by_cases hin : x < P + 16 * (k + 1)
        · rw [if_pos (by omega), if_pos (by omega)]
          simp only [hdiv, hmod]
          congr 3
          omega
        · rw [if_neg (by omega), if_neg (by omega)]

/-- Counter mode over the payload, its short last block included. -/
theorem ctrPayload_apply (aes : Block → Block) {ctr : Mem → Nat → Block} {K : Nat → Block}
    {m₀ m : Mem} {P : Nat} (hctr : ReadsBelow P ctr m₀ K) (hm : ∀ x < P, m x = m₀ x)
    (n x : Nat) :
    ctrPayload aes ctr P n m x
      = if P ≤ x ∧ x < P + n then
          m x ^^^ aes (K ((x - P) / 16 + 1)) ⟨(x - P) % 16, Nat.mod_lt _ (by decide)⟩
        else m x := by
  have hwhole := ctrLoop_apply aes hctr (n / 16) P 0 m (Nat.le_refl P) hm
  have hkey : ctr (ctrLoop aes ctr P 0 (n / 16) m) (n / 16 + 1) = K (n / 16 + 1) := by
    refine hctr _ (fun i hi => ?_) _
    rw [hwhole, if_neg (by omega), hm i hi]
  unfold ctrPayload
  simp only
  split
  · rw [writeBlock_apply, hkey]
    by_cases hlast : P + 16 * (n / 16) ≤ x ∧ x < P + n
    · have hdiv : (x - P) / 16 = n / 16 := by omega
      have hmod : (x - P) % 16 = x - (P + 16 * (n / 16)) := by omega
      have hat : P + 16 * (n / 16) + (x - (P + 16 * (n / 16))) = x := by omega
      rw [dif_pos (by omega), if_pos (by omega)]
      simp only [bitwiseXor, paddedBuffer, hdiv, hmod]
      rw [if_pos (by omega), hat, hwhole, if_neg (by omega)]
      exact UInt8.xor_comm _ _
    · rw [dif_neg (by omega), hwhole]
      by_cases hin : P ≤ x ∧ x < P + 16 * (n / 16)
      · rw [if_pos hin, if_pos (by omega), Nat.zero_add]
      · rw [if_neg hin, if_neg (by omega)]
  · have hn : 16 * (n / 16) = n := by omega
    rw [hwhole, hn, Nat.zero_add]

/-- The eight bytes of MIC are put under block zero of the key stream. -/
theorem encryptMic_apply (aes : Block → Block) {ctr : Mem → Nat → Block} {m : Mem} {I : Nat}
    {b : Block} (hkey : ctr m 0 = b) (x : Nat) :
    encryptMic aes ctr I m x
      = if h : I ≤ x ∧ x < I + 8 then aes b ⟨x - I, by omega⟩ ^^^ m x else m x := by
  unfold encryptMic
  rw [writeBlock_apply, hkey]
  by_cases h : I ≤ x ∧ x < I + 8
  · have hat : I + (x - I) = x := by omega
    rw [dif_pos (by omega), dif_pos h]
    simp only [bitwiseXor, paddedBuffer]
    rw [if_pos (by omega), hat]
  · rw [dif_neg (by omega), dif_neg h]

/-! ## 4. The frame as a whole -/

/-- The driver's counter block reads the header only. -/
theorem readsBelow_header {m : Mem} {hdrlen : Nat} (h : ThreeAddrHdr m hdrlen) :
    ReadsBelow (hdrlen + 8)
      (fun m' c => constructCtrPreload false (qcExists m) m' (pnVector m hdrlen) c) m
      (ctrBlock ccmpParams (ccmpNonce m hdrlen)) := by
  have hlen := h.cases
  intro m' hsame c
  rw [← constructCtrPreload_eq]
  unfold constructCtrPreload nonceTid
  simp only
  rw [hsame 10 (by omega), hsame 11 (by omega), hsame 12 (by omega), hsame 13 (by omega),
    hsame 14 (by omega), hsame 15 (by omega), hsame 24 (by omega)]
  cases qcExists m <;> rfl

/-- Counter mode over the payload puts the key stream over it. -/
theorem ctrPayload_eq (aes : Block → Block) {m : Mem} {hdrlen : Nat}
    (h : ThreeAddrHdr m hdrlen) (n : Nat) :
    ctrPayload aes (fun m' c => constructCtrPreload false (qcExists m) m' (pnVector m hdrlen) c)
        (hdrlen + 8) n m
      = overwrite m (hdrlen + 8)
          (ctrXor ccmpParams aes (ccmpNonce m hdrlen) (readBytes m (hdrlen + 8) n)) := by
  funext x
  rw [ctrPayload_apply aes (readsBelow_header h) (fun _ _ => rfl)]
  unfold overwrite
  rw [length_ctrXor, length_readBytes]
  split
  · have hat : hdrlen + 8 + (x - (hdrlen + 8)) = x := by omega
    rw [getD_ctrXor _ _ _ (by rw [length_readBytes]; omega), getD_readBytes m (by omega), hat]
    rfl
  · rfl

@[simp] theorem length_tag_ccmp (aes : Block → Block) (nonce aad msg : List UInt8) :
    (tag ccmpParams aes nonce aad msg).length = 8 := by
  simp [tag, firstBytes, ccmpParams]

/-- Byte `k` of the tag. -/
theorem getD_tag_ccmp (aes : Block → Block) (nonce aad msg : List UInt8) {k : Nat} (hk : k < 8) :
    (tag ccmpParams aes nonce aad msg).getD k 0
      = aes (ctrBlock ccmpParams nonce 0) ⟨k, by omega⟩
          ^^^ mac ccmpParams aes nonce aad msg ⟨k, by omega⟩ := by
  have hofFn : k < (List.ofFn (Ccm.xor (aes (ctrBlock ccmpParams nonce 0))
      (mac ccmpParams aes nonce aad msg))).length := by
    rw [List.length_ofFn]
    omega
  unfold tag firstBytes
  rw [List.getD_eq_getElem _ _ (by simp [ccmpParams]; omega), List.getElem_take,
    List.getElem_ofFn]
  rfl

/-- **MIC and encryption are CCM's**: the ciphertext takes the place of the payload, and the tag
follows it. -/
theorem micAndEncrypt_eq (aes : Block → Block) {m : Mem} {hdrlen : Nat}
    (h : ThreeAddrHdr m hdrlen) (n : Nat) :
    micAndEncrypt aes hdrlen (qcExists m) false (pnVector m hdrlen) n m
      = overwrite
          (overwrite m (hdrlen + 8)
            (ctrXor ccmpParams aes (ccmpNonce m hdrlen) (readBytes m (hdrlen + 8) n)))
          (hdrlen + 8 + n)
          (tag ccmpParams aes (ccmpNonce m hdrlen) (driverAad m hdrlen)
            (readBytes m (hdrlen + 8) n)) := by
  have hreads := readsBelow_header h
  -- inserting the MIC leaves header and payload as they are
  have hmic : ∀ b, ∀ x < hdrlen + 8 + n, writeBlock m (hdrlen + 8 + n) 8 b x = m x :=
    fun b x hx => writeBlock_of_lt hx
  have hpayload := fun b => ctrPayload_apply aes hreads
    (fun x (hx : x < hdrlen + 8) => hmic b x (by omega)) n
  have hkey : ∀ b, constructCtrPreload false (qcExists m)
      (ctrPayload aes (fun m' c => constructCtrPreload false (qcExists m) m' (pnVector m hdrlen) c)
        (hdrlen + 8) n (writeBlock m (hdrlen + 8 + n) 8 b)) (pnVector m hdrlen) 0
      = ctrBlock ccmpParams (ccmpNonce m hdrlen) 0 := by
    intro b
    refine hreads _ (fun i hi => ?_) 0
    rw [hpayload, if_neg (by omega), hmic b i (by omega)]
  funext x
  unfold micAndEncrypt
  rw [encryptMic_apply aes (hkey _), hpayload, writeBlock_apply, calculateMic_eq aes h]
  by_cases hbefore : x < hdrlen + 8 + n
  · -- the header stays and the payload is encrypted
    rw [dif_neg (by omega), dif_neg (by omega), overwrite_of_lt hbefore, ← ctrPayload_eq aes h,
      ctrPayload_apply aes hreads (fun _ _ => rfl)]
  · rw [if_neg (by omega)]
    by_cases htag : x < hdrlen + 8 + n + 8
    · rw [dif_pos (by omega), dif_pos (by omega)]
      unfold overwrite
      rw [length_tag_ccmp, if_pos (by omega), getD_tag_ccmp _ _ _ _ (by omega)]
    · rw [dif_neg (by omega), dif_neg (by omega), overwrite_of_le (by simp; omega),
        overwrite_of_le (by simp [length_readBytes]; omega)]

/-- **`aes_cipher` is CCM encryption** under the driver's nonce and additional data. -/
theorem aesCipher_refines (aes : Block → Block) {m : Mem} {hdrlen : Nat}
    (h : ThreeAddrHdr m hdrlen) (n : Nat) :
    aesCipher aes hdrlen m n
      = overwrite
          (overwrite m (hdrlen + 8)
            (encrypt ccmpParams aes (ccmpNonce m hdrlen) (driverAad m hdrlen)
              (readBytes m (hdrlen + 8) n)).1)
          (hdrlen + 8 + n)
          (encrypt ccmpParams aes (ccmpNonce m hdrlen) (driverAad m hdrlen)
            (readBytes m (hdrlen + 8) n)).2 := by
  unfold aesCipher
  rw [h.qosHdrlen, h.a4Exists, micAndEncrypt_eq aes h]
  rfl

/-- What `aes_cipher` leaves behind the CCMP header: ciphertext and MIC. -/
theorem aesCipher_output (aes : Block → Block) {m : Mem} {hdrlen : Nat}
    (h : ThreeAddrHdr m hdrlen) (n : Nat) :
    (readBytes (aesCipher aes hdrlen m n) (hdrlen + 8) n,
        readBytes (aesCipher aes hdrlen m n) (hdrlen + 8 + n) 8)
      = encrypt ccmpParams aes (ccmpNonce m hdrlen) (driverAad m hdrlen)
          (readBytes m (hdrlen + 8) n) := by
  rw [aesCipher_refines aes h]
  generalize hc : (encrypt ccmpParams aes (ccmpNonce m hdrlen) (driverAad m hdrlen)
    (readBytes m (hdrlen + 8) n)).1 = c
  generalize ht : (encrypt ccmpParams aes (ccmpNonce m hdrlen) (driverAad m hdrlen)
    (readBytes m (hdrlen + 8) n)).2 = t
  have hlenC : c.length = n := by
    rw [← hc]
    exact (length_ctrXor _ _ _ _).trans (length_readBytes m _ n)
  have hlenT : t.length = 8 := by
    rw [← ht]
    exact length_tag_ccmp _ _ _ _
  refine Prod.ext ?_ ?_
  · rw [hc, readBytes_congr (fun i _ hi => overwrite_of_lt (by omega)), ← hlenC,
      readBytes_overwrite]
  · rw [ht, ← hlenT, readBytes_overwrite]

/-- Header fields that `aes_decipher` reads again after it has decrypted. -/
theorem header_congr {m m' : Mem} {hdrlen : Nat} (h : ThreeAddrHdr m hdrlen)
    (hsame : ∀ i < hdrlen + 8, m' i = m i) :
    qcExists m' = qcExists m ∧ pnVector m' hdrlen = pnVector m hdrlen ∧
      ccmpNonce m' hdrlen = ccmpNonce m hdrlen ∧ driverAad m' hdrlen = driverAad m hdrlen := by
  have hlen := h.cases
  have h0 : m' 0 = m 0 := hsame 0 (by omega)
  have hqc : qcExists m' = qcExists m := by rw [qcExists_byte, h0, ← qcExists_byte]
  have hpn : pnVector m' hdrlen = pnVector m hdrlen := by
    funext k
    have hk := k.isLt
    unfold pnVector
    split
    · exact hsame _ (by omega)
    · exact hsame _ (by omega)
  have htid : nonceTid (qcExists m') false m' = nonceTid (qcExists m) false m := by
    rw [hqc]
    cases qcExists m with
    | true => exact congrArg (· &&& 0x0f) (hsame 24 (by omega))
    | false => rfl
  refine ⟨hqc, hpn, ?_, ?_⟩
  · unfold ccmpNonce nonceOf
    rw [htid, hpn, hsame 10 (by omega), hsame 11 (by omega), hsame 12 (by omega),
      hsame 13 (by omega), hsame 14 (by omega), hsame 15 (by omega)]
  · unfold driverAad aadOf
    rw [htid, h0, hsame 1 (by omega), hsame 4 (by omega), hsame 5 (by omega), hsame 6 (by omega),
      hsame 7 (by omega), hsame 8 (by omega), hsame 9 (by omega), hsame 10 (by omega),
      hsame 11 (by omega), hsame 12 (by omega), hsame 13 (by omega), hsame 14 (by omega),
      hsame 15 (by omega), hsame 16 (by omega), hsame 17 (by omega), hsame 18 (by omega),
      hsame 19 (by omega), hsame 20 (by omega), hsame 21 (by omega)]

/-- **`aes_decipher` is CCM decryption**, for a frame that fits its `message` buffer: the payload
is decrypted in place, and it succeeds when the eight bytes behind it are the tag. -/
theorem aesDecipher_refines (aes : Block → Block) {m : Mem} {hdrlen n : Nat}
    (h : ThreeAddrHdr m hdrlen) (hfits : hdrlen + n + 16 ≤ maxMsgSize) (stale : Mem) :
    aesDecipher aes hdrlen m (n + 8) stale
      = let msg := ctrXor ccmpParams aes (ccmpNonce m hdrlen) (readBytes m (hdrlen + 8) n)
        (decide (readBytes m (hdrlen + 8 + n) 8
            = tag ccmpParams aes (ccmpNonce m hdrlen) (driverAad m hdrlen) msg),
          overwrite m (hdrlen + 8) msg) := by
  unfold aesDecipher
  simp only [h.qosHdrlen, h.a4Exists, Nat.add_sub_cancel, ctrPayload_eq aes h]
  generalize hmsg : ctrXor ccmpParams aes (ccmpNonce m hdrlen) (readBytes m (hdrlen + 8) n) = msg
  have hlenMsg : msg.length = n := by rw [← hmsg, length_ctrXor, length_readBytes]
  generalize hplain : overwrite m (hdrlen + 8) msg = plain
  have hheader : ∀ i < hdrlen + 8, plain i = m i := by
    intro i hi
    rw [← hplain, overwrite_of_lt hi]
  have hmic : readBytes plain (hdrlen + 8 + n) 8 = readBytes m (hdrlen + 8 + n) 8 := by
    refine readBytes_congr fun i hi _ => ?_
    rw [← hplain, overwrite_of_le (by omega)]
  -- the scratch buffer holds the decrypted frame
  generalize hmessage : (fun i => if hdrlen + (n + 8) + 8 ≤ maxMsgSize ∧ i < hdrlen + (n + 8) + 8
    then plain i else stale i : Mem) = message
  have hcopy : ∀ i < hdrlen + n + 16, message i = plain i := by
    intro i hi
    rw [← hmessage]
    exact if_pos (by omega)
  have hmsgCopy : readBytes message (hdrlen + 8) n = msg := by
    rw [readBytes_congr (fun i _ hi => hcopy i (by omega)), ← hplain, ← hlenMsg,
      readBytes_overwrite]
  have hsame : ∀ i < hdrlen + 8, message i = m i := by
    intro i hi
    rw [hcopy i (by omega), hheader i hi]
  obtain ⟨hqc, hpn, hnonce, haad⟩ := header_congr h hsame
  obtain ⟨-, hpnPlain, -, -⟩ := header_congr h hheader
  have hagain := micAndEncrypt_eq aes (h.congr hsame) n
  rw [hmsgCopy, hnonce, haad, hqc, hpn] at hagain
  have htag := readBytes_overwrite
    (overwrite message (hdrlen + 8) (ctrXor ccmpParams aes (ccmpNonce m hdrlen) msg))
    (hdrlen + 8 + n) (tag ccmpParams aes (ccmpNonce m hdrlen) (driverAad m hdrlen) msg)
  rw [length_tag_ccmp] at htag
  rw [hpnPlain, hagain, htag, hmic]

/-! ## 5. The round trip -/

/-- **Software CCMP round trip.**  What `aes_cipher` made of a frame, `aes_decipher` accepts, and
it gives the payload back.  Encryption touches the payload and the eight bytes behind it,
decryption the payload alone. -/
theorem ccmp_round_trip (aes : Block → Block) {m : Mem} {hdrlen n : Nat}
    (h : ThreeAddrHdr m hdrlen) (hfits : hdrlen + n + 16 ≤ maxMsgSize) (stale : Mem) :
    let sent := aesCipher aes hdrlen m n
    let res := aesDecipher aes hdrlen sent (n + 8) stale
    res.1 = true ∧
      readBytes res.2 (hdrlen + 8) n = readBytes m (hdrlen + 8) n ∧
      (∀ x, (x < hdrlen + 8 ∨ hdrlen + 8 + n + 8 ≤ x) → sent x = m x) ∧
      (∀ x, (x < hdrlen + 8 ∨ hdrlen + 8 + n ≤ x) → res.2 x = sent x) := by
  intro sent res
  have houtside : ∀ x, (x < hdrlen + 8 ∨ hdrlen + 8 + n + 8 ≤ x) → sent x = m x := by
    intro x hx
    have hsent : sent = _ := aesCipher_refines aes h n
    rw [hsent]
    rcases hx with hx | hx
    · rw [overwrite_of_lt (by omega), overwrite_of_lt hx]
    · rw [overwrite_of_le (by simp [encrypt]; omega), overwrite_of_le (by simp [encrypt]; omega)]
  obtain ⟨hcipher, htag⟩ := Prod.mk.inj (aesCipher_output aes h n)
  have hsame : ∀ i < hdrlen + 8, sent i = m i := fun i hi => houtside i (Or.inl hi)
  obtain ⟨-, -, hnonce, haad⟩ := header_congr h hsame
  have hres : res = _ := aesDecipher_refines aes (h.congr hsame) hfits stale
  rw [hcipher, htag, hnonce, haad, ctrXor_ctrXor] at hres
  rw [hres]
  refine ⟨decide_eq_true rfl, ?_, houtside, ?_⟩
  · have hback := readBytes_overwrite sent (hdrlen + 8) (readBytes m (hdrlen + 8) n)
    rwa [length_readBytes] at hback
  · intro x hx
    rcases hx with hx | hx
    · exact overwrite_of_lt hx
    · exact overwrite_of_le (by rw [length_readBytes]; exact hx)

/-- A QoS data frame; its bytes count up. -/
def ccmpQosFrame : Mem := fun i => if i = 0 then 0x88 else UInt8.ofNat i

/-- A block function that moves every byte one place. -/
def rotateBlock : Block → Block := fun b i => b (i + 1)

theorem ccmp_round_trip_of_21 :
    ThreeAddrHdr ccmpQosFrame 26 ∧ 26 + 21 + 16 ≤ maxMsgSize ∧
      (aesDecipher rotateBlock 26 (aesCipher rotateBlock 26 ccmpQosFrame 21) 29 (fun _ => 0)).1
        = true ∧
      readBytes (aesDecipher rotateBlock 26 (aesCipher rotateBlock 26 ccmpQosFrame 21) 29
        (fun _ => 0)).2 34 21 = readBytes ccmpQosFrame 34 21 := by
  have hhdr : ThreeAddrHdr ccmpQosFrame 26 := ⟨by decide, by decide⟩
  have hfits : 26 + 21 + 16 ≤ maxMsgSize := by decide
  obtain ⟨hok, hpayload, -, -⟩ := ccmp_round_trip rotateBlock hhdr hfits (fun _ => 0)
  exact ⟨hhdr, hfits, hok, hpayload⟩

end Rtl8723bs
