/-
# Lengths and indices of the crypto path

No function of the crypto path tests how long the frame is.  Each takes header, IV and check value
off `len` and goes on with what is left, as an `int`, an `unsigned int` or a `u32`.  The lists
below say which lengths a call computes and which bytes it touches, in the frame and in the 2048
bytes of `message`; a call stays inside exactly when the frame is long enough for its cipher, and
for AES short enough for `message` and without HT Control behind a QoS field
(`cryptoCall_within_iff`).
-/
import Rtl8723bs.Rx.DecryptAuth

namespace Rtl8723bs

/-! ## 1. What a call touches -/

/-- A number where the code has a `u32`. -/
def u32 (x : Int) : Nat := (x % 4294967296).toNat

/-- The lengths that are computed, and the bytes that are read or written, each run of them as its
first index and its count. -/
structure Touched where
  lengths : List Int
  frame : List (Int × Nat)
  message : List (Nat × Nat)

def Touched.append (s t : Touched) : Touched :=
  ⟨s.lengths ++ t.lengths, s.frame ++ t.frame, s.message ++ t.message⟩

/-- Every length is one, and every byte is inside. -/
structure Touched.Within (t : Touched) (len : Nat) : Prop where
  lengths : ∀ l ∈ t.lengths, 0 ≤ l
  frame : ∀ s ∈ t.frame, 0 < s.2 → 0 ≤ s.1 ∧ s.1 + s.2 ≤ len
  message : ∀ s ∈ t.message, 0 < s.2 → s.1 + s.2 ≤ maxMsgSize

/-- `rtw_wep_decrypt`: three bytes of IV, `arcfour_encrypt`, `getcrc32`. -/
def wepTouched (f : RecvFrame) : Touched where
  lengths := [f.cryptLength, f.cryptLength - 4]
  frame := [(f.attrib.hdrlen, 3), (f.payload, u32 f.cryptLength),
    (f.payload, (f.cryptLength - 4).toNat)]
  message := []

/-- `rtw_tkip_decrypt`, behind the key: `GET_TKIP_PN`, `arcfour_encrypt`, `getcrc32`, and the four
bytes that are compared. -/
def tkipTouched (f : RecvFrame) : Touched where
  lengths := [f.cryptLength, f.cryptLength - 4]
  frame := [(f.attrib.hdrlen, 1), (f.attrib.hdrlen + 2, 1), (f.attrib.hdrlen + 4, 4),
    (f.payload, u32 f.cryptLength), (f.payload, (f.cryptLength - 4).toNat),
    (f.payload + f.cryptLength - 4, 4)]
  message := []

/-- The bytes of the header that `construct_ctr_preload` and `construct_mic_iv` read: A2 and the
TID. -/
def nonceBytes (a4 qc : Bool) : List (Nat × Nat) :=
  (10, 6) :: match qc, a4 with
    | true, true => [(30, 1)]
    | true, false => [(24, 1)]
    | false, _ => []

/-- The bytes that `construct_mic_header1` and `construct_mic_header2` read. -/
def micHeaderBytes (a4 qc : Bool) : List (Nat × Nat) :=
  [(0, 2), (4, 12), (16, 6)] ++ match qc, a4 with
    | false, false => []
    | false, true => [(24, 6)]
    | true, false => [(24, 2)]
    | true, true => [(24, 8)]

/-- `aes_decipher`, with `plen` and `plen - 8` as `unsigned int`. -/
def aesTouched (f : RecvFrame) : Touched :=
  let hdrlen := f.attrib.hdrlen
  let plen := u32 f.cryptLength
  let count := u32 (f.cryptLength - 8)
  let a4 := a4Exists hdrlen
  let qc := qcExists f.mem
  let hlen := qosHdrlen hdrlen f.mem
  let copied := u32 (hlen + plen + 8)
  let micIndex := u32 (hlen + plen)
  let inFrame : Nat × Nat → Int × Nat := fun s => (s.1, s.2)
  { lengths := [f.cryptLength, f.cryptLength - 8]
    frame := List.map inFrame <|
      -- frame control, and the packet number before the header is made longer
      [(0, 2), (hdrlen, 2), (hdrlen + 4, 4)] ++
      (if 0 < count then nonceBytes a4 qc else []) ++
      -- the blocks of the payload, `memcpy`, the packet number again, and the MIC
      [(hlen + 8, count), (0, if copied ≤ maxMsgSize then copied else 0),
        (hlen, 2), (hlen + 4, 4), (micIndex, 8)]
    message :=
      [(0, if copied ≤ maxMsgSize then copied else 0)] ++ nonceBytes a4 qc ++
      micHeaderBytes a4 qc ++ [(hlen + 8, count), (hlen + 8 + count, 8), (micIndex, 8)] }

/-- `decryptor`: `iv[3]`, and the function of the cipher. -/
def decryptorTouched (k : RxCrypto) (f : RecvFrame) : Touched :=
  if f.attrib.encrypt = 0 then ⟨[], [], []⟩
  else Touched.append ⟨[], [(f.attrib.hdrlen + 3, 1)], []⟩ <|
    if f.attrib.bdecrypted ≠ 0 then ⟨[], [], []⟩
    else if f.attrib.encrypt = encWep40 ∨ f.attrib.encrypt = encWep104 then wepTouched f
    else if f.attrib.encrypt = encTkip ∧ k.prwskey f.withKeyIndex.attrib ≠ none then tkipTouched f
    else if f.attrib.encrypt = encAes ∧ k.prwskey f.withKeyIndex.attrib ≠ none then aesTouched f
    else ⟨[], [], []⟩

/-- Does `recvframe_chkmic` find a Michael key? -/
def micKeyFound (k : RxCrypto) (a : RxPktAttrib) : Bool :=
  (rtwGetStainfo k.stas a.ta).isSome && (!isMcast a.ra || k.binstallGrpkey)

/-- `datalen`, before it becomes a `u32`. -/
def RecvFrame.datalen (f : RecvFrame) : Int :=
  f.len - f.attrib.hdrlen - f.attrib.ivLen - f.attrib.icvLen - 8

/-- `recvframe_chkmic`: the addresses of the pseudo header, the data, and the MIC behind it. -/
def chkmicTouched (k : RxCrypto) (f : RecvFrame) : Touched :=
  if f.attrib.encrypt = encTkip ∧ micKeyFound k f.attrib then
    { lengths := [f.datalen]
      frame := (1, 1) ::
        (if getToDs f.mem then [(16, 6), (if getFrDs f.mem then 24 else 10, 6)]
        else [(4, 6), (if getFrDs f.mem then 16 else 10, 6)]) ++
        [((f.payload : Int), u32 f.datalen), (f.payload + u32 f.datalen, 8)]
      message := [] }
  else ⟨[], [], []⟩

/-! ## 2. When a call stays inside -/

/-- The calls of the crypto path.  `recvframe_chkmic` gets a frame of its own or one put together
from fragments, decrypted by hardware or software. -/
inductive CryptoCall where
  | decryptor (f : RecvFrame)
  | recvframeChkmic (f : RecvFrame)

def CryptoCall.frame : CryptoCall → RecvFrame
  | .decryptor f => f
  | .recvframeChkmic f => f

def CryptoCall.touched (k : RxCrypto) : CryptoCall → Touched
  | .decryptor f => decryptorTouched k f
  | .recvframeChkmic f => chkmicTouched k f

/-- No length is below zero and no byte outside. -/
def CryptoCall.Within (k : RxCrypto) (c : CryptoCall) : Prop := (c.touched k).Within c.frame.len

/-- The frame is long enough for its cipher.  AES asks for more: `message` has to hold it, and a QoS
header may not have HT Control. -/
def CryptoCall.Fits (k : RxCrypto) : CryptoCall → Prop
  | .decryptor f =>
    f.attrib.encrypt ≠ 0 →
      f.attrib.hdrlen + 4 ≤ f.len ∧
      (f.attrib.bdecrypted = 0 →
        (f.attrib.encrypt = encWep40 ∨ f.attrib.encrypt = encWep104 →
          f.attrib.hdrlen + 8 ≤ f.len) ∧
        (f.attrib.encrypt = encTkip → k.prwskey f.withKeyIndex.attrib ≠ none →
          f.attrib.hdrlen + 12 ≤ f.len) ∧
        (f.attrib.encrypt = encAes → k.prwskey f.withKeyIndex.attrib ≠ none →
          f.attrib.hdrlen + 16 ≤ f.len ∧ f.len ≤ maxMsgSize ∧
            ¬ (getOrder f.mem = true ∧ qcExists f.mem = true)))
  | .recvframeChkmic f =>
    f.attrib.encrypt = encTkip → micKeyFound k f.attrib = true → f.attrib.hdrlen + 20 ≤ f.len

theorem Touched.within_append {s t : Touched} {len : Nat} :
    (s.append t).Within len ↔ s.Within len ∧ t.Within len := by
  constructor
  · intro h
    exact ⟨⟨fun l hl => h.lengths l (List.mem_append_left _ hl),
        fun x hx => h.frame x (List.mem_append_left _ hx),
        fun x hx => h.message x (List.mem_append_left _ hx)⟩,
      ⟨fun l hl => h.lengths l (List.mem_append_right _ hl),
        fun x hx => h.frame x (List.mem_append_right _ hx),
        fun x hx => h.message x (List.mem_append_right _ hx)⟩⟩
  · rintro ⟨hs, ht⟩
    exact ⟨fun l hl => (List.mem_append.mp hl).elim (hs.lengths l) (ht.lengths l),
      fun x hx => (List.mem_append.mp hx).elim (hs.frame x) (ht.frame x),
      fun x hx => (List.mem_append.mp hx).elim (hs.message x) (ht.message x)⟩

theorem Touched.within_nil (len : Nat) : (⟨[], [], []⟩ : Touched).Within len :=
  ⟨nofun, nofun, nofun⟩

theorem u32_of_nonneg {x : Int} (h : 0 ≤ x) (hlt : x < 4294967296) : u32 x = x.toNat := by
  unfold u32
  rw [Int.emod_eq_of_lt h hlt]

section Frames

variable {k : RxCrypto} {f : RecvFrame}

theorem wepTouched_within_iff (hiv : f.attrib.ivLen = 4) (hlen : f.len < 2 ^ 31) :
    (wepTouched f).Within f.len ↔ f.attrib.hdrlen + 8 ≤ f.len := by
  have hlength : f.cryptLength = f.len - f.attrib.hdrlen - 4 := by
    unfold RecvFrame.cryptLength
    omega
  have hpayload : f.payload = f.attrib.hdrlen + 4 := by
    unfold RecvFrame.payload
    omega
  constructor
  · intro h
    have hshort := h.lengths (f.cryptLength - 4) (by simp [wepTouched])
    omega
  · intro hfits
    have hu32 := u32_of_nonneg (x := f.cryptLength) (by omega) (by omega)
    refine ⟨?_, ?_, nofun⟩
    · intro l hl
      simp only [wepTouched, List.mem_cons, List.not_mem_nil, or_false] at hl
      omega
    · rintro ⟨i, n⟩ hs hn
      simp only [wepTouched, List.mem_cons, Prod.mk.injEq, List.not_mem_nil, or_false] at hs
      simp only at hn ⊢
      omega

theorem tkipTouched_within_iff (hiv : f.attrib.ivLen = 8) (hlen : f.len < 2 ^ 31) :
    (tkipTouched f).Within f.len ↔ f.attrib.hdrlen + 12 ≤ f.len := by
  have hlength : f.cryptLength = f.len - f.attrib.hdrlen - 8 := by
    unfold RecvFrame.cryptLength
    omega
  have hpayload : f.payload = f.attrib.hdrlen + 8 := by
    unfold RecvFrame.payload
    omega
  constructor
  · intro h
    have hshort := h.lengths (f.cryptLength - 4) (by simp [tkipTouched])
    omega
  · intro hfits
    have hu32 := u32_of_nonneg (x := f.cryptLength) (by omega) (by omega)
    refine ⟨?_, ?_, nofun⟩
    · intro l hl
      simp only [tkipTouched, List.mem_cons, List.not_mem_nil, or_false] at hl
      omega
    · rintro ⟨i, n⟩ hs hn
      simp only [tkipTouched, List.mem_cons, Prod.mk.injEq, List.not_mem_nil, or_false] at hs
      simp only at hn ⊢
      omega

/-- The bytes of the header that AES reads are below byte 32. -/
theorem headerBytes_lt {a4 qc : Bool} {s : Nat × Nat}
    (hs : s ∈ nonceBytes a4 qc ∨ s ∈ micHeaderBytes a4 qc) : s.1 + s.2 ≤ 32 := by
  have hall : ∀ a4 qc, ∀ s ∈ nonceBytes a4 qc ++ micHeaderBytes a4 qc, s.1 + s.2 ≤ 32 := by
    decide
  exact hall a4 qc s (List.mem_append.mpr hs)

theorem aesTouched_within_iff (h : DataAdmitted f) (haes : f.attrib.encrypt = encAes)
    (hlen : f.len < 2 ^ 31) :
    (aesTouched f).Within f.len ↔ f.attrib.hdrlen + 16 ≤ f.len ∧ f.len ≤ maxMsgSize ∧
      ¬ (getOrder f.mem = true ∧ qcExists f.mem = true) := by
  have hhdr := h.le_hdrlen
  have hiv : f.attrib.ivLen = 8 := by
    rw [h.ivLen, haes]
    rfl
  have hlength : f.cryptLength = f.len - f.attrib.hdrlen - 8 := by
    unfold RecvFrame.cryptLength
    omega
  constructor
  · intro hin
    have hshort := hin.lengths (f.cryptLength - 8) (by simp [aesTouched])
    have hplen := u32_of_nonneg (x := f.cryptLength) (by omega) (by omega)
    have hle := le_qosHdrlen f.attrib.hdrlen f.mem
    have hq : qosHdrlen f.attrib.hdrlen f.mem ≤ f.attrib.hdrlen + 2 := by
      unfold qosHdrlen
      split <;> omega
    have hmicIndex : u32 (qosHdrlen f.attrib.hdrlen f.mem + u32 f.cryptLength)
        = qosHdrlen f.attrib.hdrlen f.mem + (f.len - f.attrib.hdrlen - 8) := by
      rw [u32_of_nonneg (by omega) (by omega)]
      omega
    have hmic := hin.frame (u32 (qosHdrlen f.attrib.hdrlen f.mem + u32 f.cryptLength), 8)
      (by simp [aesTouched]) (Nat.succ_pos 7)
    have hmessage := hin.message (u32 (qosHdrlen f.attrib.hdrlen f.mem + u32 f.cryptLength), 8)
      (by simp [aesTouched]) (Nat.succ_pos 7)
    simp only at hmic hmessage
    refine ⟨by omega, by omega, fun hboth => ?_⟩
    -- the MIC is looked for two bytes too far on
    have hlen30 := h.hdrlen
    rw [hboth.1, isQosSubtype_of_qc h.data hboth.2] at hlen30
    have hshift : qosHdrlen f.attrib.hdrlen f.mem = f.attrib.hdrlen + 2 :=
      if_pos ⟨hboth.2, by rw [hlen30]; decide⟩
    omega
  · rintro ⟨hfits, hmax, hnot⟩
    have hq : qosHdrlen f.attrib.hdrlen f.mem = f.attrib.hdrlen := by
      refine if_neg fun hc => ?_
      have horder : getOrder f.mem = false := Bool.eq_false_iff.mpr fun ho => hnot ⟨ho, hc.1⟩
      have hlen26 := h.hdrlen
      rw [horder, isQosSubtype_of_qc h.data hc.1] at hlen26
      exact hc.2 hlen26
    have hplen := u32_of_nonneg (x := f.cryptLength) (by omega) (by omega)
    have hcount := u32_of_nonneg (x := f.cryptLength - 8) (by omega) (by omega)
    have hcopied := u32_of_nonneg (x := f.attrib.hdrlen + u32 f.cryptLength + 8) (by omega)
      (by omega)
    have hmicIndex := u32_of_nonneg (x := f.attrib.hdrlen + u32 f.cryptLength) (by omega) (by omega)
    have hfit : u32 (f.attrib.hdrlen + u32 f.cryptLength + 8) ≤ maxMsgSize := by omega
    refine ⟨?_, ?_, ?_⟩
    · intro l hl
      simp only [aesTouched, List.mem_cons, List.not_mem_nil, or_false] at hl
      omega
    · intro s hs hn
      simp only [aesTouched, hq, if_pos hfit] at hs
      obtain ⟨x, hx, rfl⟩ := List.mem_map.mp hs
      simp only at hn ⊢
      rcases List.mem_append.mp hx with hx | hx
      · rcases List.mem_append.mp hx with hx | hx
        · simp only [List.mem_cons, List.not_mem_nil, or_false] at hx
          rcases hx with rfl | rfl | rfl <;> simp only <;> omega
        · split at hx
          · have hlow := headerBytes_lt (.inl hx)
            omega
          · cases hx
      · simp only [List.mem_cons, List.not_mem_nil, or_false] at hx
        rcases hx with rfl | rfl | rfl | rfl | rfl <;> simp only at hn ⊢ <;> omega
    · intro s hs hn
      simp only [aesTouched, hq, if_pos hfit, List.mem_append, List.mem_cons, List.not_mem_nil,
        or_false] at hs
      rcases hs with ((rfl | hs) | hs) | rfl | rfl | rfl
      · exact (Nat.zero_add _).trans_le hfit
      · have hlow := headerBytes_lt (.inl hs)
        omega
      · have hlow := headerBytes_lt (.inr hs)
        omega
      · simp only
        omega
      · simp only
        omega
      · simp only
        omega

theorem chkmicTouched_within_iff (h : DataAdmitted f) (hlen : f.len < 2 ^ 31) :
    (chkmicTouched k f).Within f.len ↔
      (f.attrib.encrypt = encTkip → micKeyFound k f.attrib = true →
        f.attrib.hdrlen + 20 ≤ f.len) := by
  have hhdr := h.le_hdrlen
  by_cases hcheck : f.attrib.encrypt = encTkip ∧ micKeyFound k f.attrib = true
  · have hdatalen : f.datalen = f.len - f.attrib.hdrlen - 20 := by
      have hiv : f.attrib.ivLen = 8 := by
        rw [h.ivLen, hcheck.1]
        rfl
      have hicv : f.attrib.icvLen = 4 := by
        rw [h.icvLen, hcheck.1]
        rfl
      unfold RecvFrame.datalen
      omega
    have hpayload : f.payload = f.attrib.hdrlen + 8 := by
      unfold RecvFrame.payload
      rw [h.ivLen, hcheck.1]
      rfl
    unfold chkmicTouched
    rw [if_pos hcheck]
    constructor
    · intro hin _ _
      have hshort := hin.lengths f.datalen (by simp)
      omega
    · intro hfits
      have hfits := hfits hcheck.1 hcheck.2
      have hu32 := u32_of_nonneg (x := f.datalen) (by omega) (by omega)
      refine ⟨?_, ?_, nofun⟩
      · intro l hl
        simp only [List.mem_singleton] at hl
        omega
      · rintro ⟨i, n⟩ hs hn
        simp only [List.mem_cons, List.mem_append, Prod.mk.injEq, List.not_mem_nil, or_false] at hs
        simp only at hn ⊢
        rcases hs with (⟨rfl, rfl⟩ | hs) | ⟨rfl, rfl⟩ | ⟨rfl, rfl⟩
        · omega
        · have hboth : ¬ (getToDs f.mem = true ∧ getFrDs f.mem = true) := by
            rintro ⟨hto, hfr⟩
            exact h.toFrDs (by simp [getTofrDs, hto, hfr])
          split at hs
          · rename_i hto
            rw [if_neg (fun hfr => hboth ⟨hto, hfr⟩)] at hs
            simp only [List.mem_cons, Prod.mk.injEq, List.not_mem_nil, or_false] at hs
            omega
          · simp only [List.mem_cons, Prod.mk.injEq, List.not_mem_nil, or_false] at hs
            split at hs <;> omega
        · omega
        · omega
  · unfold chkmicTouched
    rw [if_neg hcheck]
    exact iff_of_true (Touched.within_nil _) (fun htkip hkey => absurd ⟨htkip, hkey⟩ hcheck)

theorem decryptorTouched_within_iff (h : DataAdmitted f) (hlen : f.len < 2 ^ 31) :
    (decryptorTouched k f).Within f.len ↔ CryptoCall.Fits k (.decryptor f) := by
  unfold CryptoCall.Fits
  by_cases hnone : f.attrib.encrypt = 0
  · unfold decryptorTouched
    rw [if_pos hnone]
    exact iff_of_true (Touched.within_nil _) (fun hc => absurd hnone hc)
  have hiv : (⟨[], [((f.attrib.hdrlen : Int) + 3, 1)], []⟩ : Touched).Within f.len ↔
      f.attrib.hdrlen + 4 ≤ f.len := by
    constructor
    · intro hin
      have hbyte := hin.frame _ List.mem_cons_self Nat.one_pos
      simp only at hbyte
      omega
    · intro hfits
      refine ⟨nofun, ?_, nofun⟩
      rintro s hs -
      obtain rfl := List.mem_singleton.mp hs
      simp only
      omega
  unfold decryptorTouched
  rw [if_neg hnone, Touched.within_append, hiv]
  constructor
  · rintro ⟨hfour, hin⟩ -
    refine ⟨hfour, fun hdec => ?_⟩
    rw [if_neg (not_not.mpr hdec)] at hin
    refine ⟨fun hwep => ?_, fun htkip hkey => ?_, fun haes hkey => ?_⟩
    · rw [if_pos hwep] at hin
      exact (wepTouched_within_iff (by rw [h.ivLen, setIceIvLen, if_pos hwep]) hlen).mp hin
    · rw [if_neg (by rw [htkip]; decide), if_pos ⟨htkip, hkey⟩] at hin
      exact (tkipTouched_within_iff (by rw [h.ivLen, htkip]; rfl) hlen).mp hin
    · have hntkip : ¬ f.attrib.encrypt = encTkip := by
        rw [haes]
        decide
      have hnwep : ¬ (f.attrib.encrypt = encWep40 ∨ f.attrib.encrypt = encWep104) := by
        rw [haes]
        decide
      rw [if_neg hnwep, if_neg (fun hc => hntkip hc.1), if_pos ⟨haes, hkey⟩] at hin
      exact (aesTouched_within_iff h haes hlen).mp hin
  · intro hfits
    obtain ⟨hfour, hrest⟩ := hfits hnone
    refine ⟨hfour, ?_⟩
    split
    · exact Touched.within_nil _
    · rename_i hdec
      obtain ⟨hwep, htkip, haes⟩ := hrest (not_not.mp hdec)
      split
      · rename_i hc
        exact (wepTouched_within_iff (by rw [h.ivLen, setIceIvLen, if_pos hc]) hlen).mpr (hwep hc)
      · split
        · rename_i hc
          exact (tkipTouched_within_iff (by rw [h.ivLen, hc.1]; rfl) hlen).mpr (htkip hc.1 hc.2)
        · split
          · rename_i hc
            exact (aesTouched_within_iff h hc.1 hlen).mpr (haes hc.1 hc.2)
          · exact Touched.within_nil _

end Frames

/-- **Lengths and indices of the crypto path.**  A call on an admitted frame computes no length below
zero and touches no byte outside exactly when the frame fits its cipher. -/
theorem cryptoCall_within_iff {k : RxCrypto} {c : CryptoCall} (h : DataAdmitted c.frame)
    (hlen : c.frame.len < 2 ^ 31) : c.Within k ↔ c.Fits k := by
  cases c with
  | decryptor f => exact decryptorTouched_within_iff h hlen
  | recvframeChkmic f => exact chkmicTouched_within_iff h hlen

/-- A call that stays inside comes back. -/
theorem decryptor_comes_back {k : RxCrypto} {f : RecvFrame} (h : DataAdmitted f)
    (hlen : f.len < 2 ^ 31) (henc : f.attrib.encrypt ∈ [encWep40, encWep104, encTkip, encAes])
    (hdec : f.attrib.bdecrypted = 0) (hin : CryptoCall.Within k (.decryptor f)) :
    (swDecrypt k f).isSome = true := by
  have hne : f.attrib.encrypt ≠ 0 := by
    intro hzero
    rw [hzero] at henc
    exact absurd henc (by decide)
  obtain ⟨-, hfits⟩ := (decryptorTouched_within_iff h hlen).mp hin hne
  obtain ⟨hwep, htkip, haes⟩ := hfits hdec
  have hlength : f.withKeyIndex.cryptLength = f.len - f.attrib.hdrlen - f.attrib.ivLen := rfl
  have hivLen := h.ivLen
  have hencF : f.withKeyIndex.attrib.encrypt = f.attrib.encrypt := rfl
  unfold swDecrypt rtwWepDecryptFrame rtwTkipDecrypt rtwAesDecrypt
  dsimp only
  rw [hencF]
  by_cases hw : f.attrib.encrypt = encWep40 ∨ f.attrib.encrypt = encWep104
  · rw [setIceIvLen, if_pos hw] at hivLen
    have hfit := hwep hw
    rw [if_pos hw, if_pos hw, if_neg (by omega)]
    rfl
  · rw [if_neg hw]
    by_cases ht : f.attrib.encrypt = encTkip
    · rw [ht] at hivLen
      rw [if_pos ht, if_pos ht]
      cases hkey : k.prwskey f.withKeyIndex.attrib with
      | none => rfl
      | some prwskey =>
        have hfit := htkip ht (by rw [hkey]; exact Option.some_ne_none _)
        have hiv : (setIceIvLen encTkip).1 = 8 := rfl
        dsimp only
        rw [if_neg (by omega)]
        rfl
    · rw [if_neg ht]
      by_cases ha : f.attrib.encrypt = encAes
      · rw [ha] at hivLen
        rw [if_pos ha, if_pos ha]
        cases hkey : k.prwskey f.withKeyIndex.attrib with
        | none => rfl
        | some prwskey =>
          have hfit := haes ha (by rw [hkey]; exact Option.some_ne_none _)
          have hiv : (setIceIvLen encAes).1 = 8 := rfl
          dsimp only
          rw [if_neg (by omega)]
          rfl
      · rw [if_neg ha]
        rfl

/-! ## 3. Two frames -/

/-- The frame with other ends: its first `len` bytes. -/
def RecvFrame.cutTo (f : RecvFrame) (len : Nat) : RecvFrame := { f with rxTail := f.rxData + len }

/-- 40 bytes under TKIP hold header, IV, ICV and four bytes more. -/
theorem cryptoCall_within_tkip :
    DataAdmitted (protectedFrame encTkip) ∧ (protectedFrame encTkip).len = 40 ∧
      CryptoCall.Within pairwiseCrypto (.decryptor (protectedFrame encTkip)) := by
  have hadm : DataAdmitted (protectedFrame encTkip) :=
    ⟨by decide, by decide, by decide, rfl, rfl, by decide⟩
  exact ⟨hadm, rfl, (cryptoCall_within_iff (c := .decryptor (protectedFrame encTkip)) hadm
    (by decide)).mpr fun _ => ⟨by decide, fun _ => ⟨by decide, fun _ _ => by decide, by decide⟩⟩⟩

/-- With 30 bytes, as the length test admits them, the payload of a TKIP frame is -2 bytes long. -/
theorem cryptoCall_short_tkip :
    DataAdmitted ((protectedFrame encTkip).cutTo 30) ∧
      14 ≤ ((protectedFrame encTkip).cutTo 30).len ∧
      -2 ∈ ((CryptoCall.decryptor ((protectedFrame encTkip).cutTo 30)).touched
        pairwiseCrypto).lengths ∧
      ((32 : Int), 4294967294) ∈ ((CryptoCall.decryptor ((protectedFrame encTkip).cutTo 30)).touched
        pairwiseCrypto).frame :=
  ⟨⟨by decide, by decide, by decide, rfl, rfl, by decide⟩, by decide, by decide, by decide⟩

end Rtl8723bs
