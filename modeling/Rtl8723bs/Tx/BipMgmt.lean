/-
# Protecting group-addressed management frames

`rtw_mgmt_xmitframe_coalesce` puts an MME behind a group-addressed deauthentication or
disassociation frame: the key id, the packet number (IPN), and a MIC over the AAD and the body,
taken while the MIC is zero.  `rtw_BIP_verify` looks for the MME from the reason code on, as if
that were an element.  Here are the frames sent one behind the other with one key, and when a
receiver with that key accepts them.
-/
import Rtl8723bs.Ap.IeSplice
import Rtl8723bs.Rx.Bip

namespace Rtl8723bs.BipTx

/-! ## 1. The sender -/

/-- A group-addressed deauthentication or disassociation frame to be sent, which has a reason code;
the memory it lies in, and its length. -/
structure TxFrame where
  mem : Mem
  pktlen : Nat
  reason : wlanHdrA3Len + 2 ≤ pktlen
  pktlen_lt : pktlen + 18 < 2 ^ 16
  group : isMcast (getAddr1 mem) = true
  leaves : getFrameSubType mem = 0xC0 ∨ getFrameSubType mem = 0xA0

/-- The six low bytes of a number, `_rtw_memcpy(&MME[2], &mgnt_80211w_IPN, 6)`. -/
def ipnBytes (ipn : Nat) : List UInt8 := (List.range 6).map fun i => UInt8.ofNat (ipn / 256 ^ i)

/-- The 16 bytes of the array `MME` that go into the element: the low byte of the key id, the
packet number and a MIC of zeros. -/
def mme (keyid ipn : Nat) : List UInt8 :=
  [UInt8.ofNat keyid, 0] ++ ipnBytes ipn ++ List.replicate 8 0

/-- `rtw_set_ie`: the element in the frame. -/
def rtwSetIe (m : Mem) (pbuf : Nat) (index : UInt8) (source : List UInt8) : Mem :=
  overwrite m pbuf ([index, UInt8.ofNat source.length] ++ source)

/-- What a call returns, the frame and its length afterwards, `mgnt_80211w_IPN`, the size of
`BIP_AAD`, and what it touches of the frame and of `BIP_AAD`, as first byte and count. -/
structure TxOut where
  success : Bool
  mem : Mem
  pktlen : Nat
  ipn : Nat
  oriLen : Nat
  frameTouches : List (Nat × Nat)
  aadTouches : List (Nat × Nat)

/-- The frame with an MME whose MIC is zero. -/
def TxFrame.unsigned (f : TxFrame) (keyid ipn : Nat) : Mem :=
  rtwSetIe f.mem f.pktlen mmeIe (mme keyid ipn)

/-- `rtw_mgmt_xmitframe_coalesce` of such a frame, with a key installed or not.  `BIP_AAD` is
allocated before the frame grows. -/
def rtwMgmtXmitframeCoalesce (k : BipKeys) (zmalloc binstallBIPkey : Bool) (ipn : Nat)
    (f : TxFrame) : TxOut :=
  let oriLen := bipAadSize + f.pktlen
  if zmalloc = false then ⟨false, f.mem, f.pktlen, ipn, oriLen, [(0, 2)], []⟩
  else if binstallBIPkey = false then ⟨true, f.mem, f.pktlen, ipn, oriLen, [(0, 2)], []⟩
  else
    let mem := f.unsigned k.dot11wBIPKeyid ipn
    let pktlen := f.pktlen + 18
    let frameBodyLen := pktlen - wlanHdrA3Len
    let aad := overwrite (overwrite (fun _ => 0) 0 (bipAad mem)) bipAadSize
      (readBytes mem wlanHdrA3Len frameBodyLen)
    let frameTouches :=
      [(0, 2), (f.pktlen, 18), (0, 2), (4, 18), (wlanHdrA3Len, frameBodyLen)]
    let aadTouches :=
      [(0, 2), (2, 18), (bipAadSize, frameBodyLen), (0, bipAadSize + frameBodyLen)]
    match k.omac1Aes128 (k.dot11wBIPKey k.dot11wBIPKeyid)
        (readBytes aad 0 (bipAadSize + frameBodyLen)) with
    | none => ⟨false, mem, pktlen, (ipn + 1) % 2 ^ 64, oriLen, frameTouches, aadTouches⟩
    | some mic =>
      ⟨true, overwrite mem (pktlen - 8) (mic.take 8), pktlen, (ipn + 1) % 2 ^ 64, oriLen,
        (pktlen - 8, 8) :: frameTouches, aadTouches⟩

/-- Frames sent one behind the other, with the packet number in front of each. -/
def sends (k : BipKeys) : Nat → List TxFrame → List TxOut
  | _, [] => []
  | ipn, f :: fs =>
    let out := rtwMgmtXmitframeCoalesce k true true ipn f
    out :: sends k out.ipn fs

/-! ## 2. What is asked -/

/-- AES-CMAC, whatever it computes. -/
structure Cmac where
  mac : List UInt8 → List UInt8 → List UInt8
  length : ∀ key msg, (mac key msg).length = 16

/-- The key of both sides. -/
def keysOf (keyid : Nat) (key : Nat → List UInt8) (c : Cmac) : BipKeys :=
  ⟨keyid, key, fun key msg => some (c.mac key msg)⟩

/-- The packet number in a frame that was sent. -/
def TxOut.carried (out : TxOut) : Nat := le48 out.mem (out.pktlen - 14)

/-- A frame as it is received: the bytes sent, wherever they come to lie. -/
structure Delivered (out : TxOut) (g : BipFrame) : Prop where
  pktLen : g.pktLen = out.pktlen
  rxData : ∀ i < out.pktlen, g.rxData i = out.mem i
  zmalloc : g.zmalloc = true

/-- **A receiver accepts a frame** if the number it keeps is smaller: it keeps the frame's then, and
it touches nothing outside the frame and its copy. -/
structure Accepts (k : BipKeys) (out : TxOut) (g : BipFrame) (ipnRx : Nat) : Prop where
  res : (rtwBipVerify k ipnRx g).res = some .success
  kept : (rtwBipVerify k ipnRx g).ipnRx = out.carried
  frame : ∀ r ∈ (rtwBipVerify k ipnRx g).frameReads, r.1 + r.2 ≤ g.pktLen
  copy : ∀ r ∈ (rtwBipVerify k ipnRx g).copyTouches, ((r.1 + r.2 : Nat) : Int) ≤ g.oriLen

/-- **The two sides agree** on the frames sent: all are sent, every receiver accepts them, the
packet numbers grow, and the sender touches nothing outside the frames and its buffers. -/
structure Agrees (k : BipKeys) (ipn : Nat) (fs : List TxFrame) : Prop where
  sent : ∀ out ∈ sends k ipn fs, out.success = true
  accepted : ∀ out ∈ sends k ipn fs, ∀ g, Delivered out g → ∀ ipnRx < out.carried,
    Accepts k out g ipnRx
  grows : ((sends k ipn fs).map TxOut.carried).Pairwise (· < ·)
  frame : ∀ out ∈ sends k ipn fs, ∀ r ∈ out.frameTouches, r.1 + r.2 ≤ out.pktlen
  buffer : ∀ out ∈ sends k ipn fs, ∀ r ∈ out.aadTouches, r.1 + r.2 ≤ out.oriLen

/-- The frames with the packet numbers that they are sent with. -/
def numbered : Nat → List TxFrame → List (Nat × TxFrame)
  | _, [] => []
  | ipn, f :: fs => (ipn, f) :: numbered ((ipn + 1) % 2 ^ 64) fs

/-- **The MME is found at the end**: what is found from the reason code on ends where the frame
ends, is no shorter than an MME, and has the key id and the packet number of the frame. -/
def MmeFound (keyid ipn : Nat) (f : TxFrame) : Prop :=
  ∃ p len, rtwGetIe (f.unsigned keyid ipn) wlanHdrA3Len mmeIe
      ((f.pktlen + 18 - wlanHdrA3Len : Nat) : Int) = some (p, len) ∧
    p + 2 + len = f.pktlen + 18 ∧ 16 ≤ len ∧
    le16 (f.unsigned keyid ipn) (p + 2) = keyid ∧
    le48 (f.unsigned keyid ipn) (p + 4) = ipn % 2 ^ 48

/-! ## 3. The walk over the elements -/

section Walk

variable {m : Mem} {index : UInt8} {limit : Int} {n p i q len : Nat}

/-- What is found is no further in front than where the walk starts. -/
theorem getIeLoop_le (h : getIeLoop m index limit n p i = some (q, len)) : p ≤ q :=
  le_of_mem_ieHeads (getIeLoop_mem_ieHeads h)

/-- What is looked at is no further behind than what is found. -/
theorem ieHeads_le (h : getIeLoop m index limit n p i = some (q, len)) :
    ∀ x ∈ ieHeads m index limit n p i, x ≤ q := by
  induction n generalizing p i with
  | zero => exact absurd h (by simp [getIeLoop])
  | succ n ih =>
    intro x hx
    have hle := getIeLoop_le h
    unfold getIeLoop at h
    rw [ieHeads, List.mem_cons] at hx
    rcases hx with rfl | hx
    · exact hle
    · dsimp only at h hx
      split_ifs at h hx
      · exact absurd hx List.not_mem_nil
      · exact ih h x hx

/-- What `rtw_get_ie` looks at is no further behind than what it finds. -/
theorem rtwGetIe_heads_le {pbuf : Nat} (h : rtwGetIe m pbuf index limit = some (q, len)) :
    ∀ x ∈ ieHeads m index limit limit.toNat pbuf 0, x ≤ q := by
  unfold rtwGetIe at h
  split_ifs at h
  exact ieHeads_le h

/-- What is found is found in a copy that agrees up to the header of what is found. -/
theorem getIeLoop_copy (m' : Mem) (p' : Nat) (h : getIeLoop m index limit n p i = some (q, len))
    (hsame : ∀ j, p + j < q + 2 → m' (p' + j) = m (p + j)) :
    getIeLoop m' index limit n p' i = some (p' + (q - p), len) := by
  induction n generalizing p p' i with
  | zero => exact absurd h (by simp [getIeLoop])
  | succ n ih =>
    have hle := getIeLoop_le h
    have h0 := hsame 0 (by omega)
    have h1 := hsame 1 (by omega)
    rw [Nat.add_zero, Nat.add_zero] at h0
    unfold getIeLoop at h ⊢
    dsimp only at h ⊢
    rw [h0, h1]
    split_ifs at h ⊢
    · cases h
      rw [Nat.sub_self]
      rfl
    · have hle' := getIeLoop_le h
      have hnext : p' + (m (p + 1)).toNat + 2 + (q - (p + (m (p + 1)).toNat + 2))
          = p' + (q - p) := by omega
      have hrest : ∀ j, p + (m (p + 1)).toNat + 2 + j < q + 2 →
          m' (p' + (m (p + 1)).toNat + 2 + j) = m (p + (m (p + 1)).toNat + 2 + j) := by
        intro j hj
        have hj' := hsame ((m (p + 1)).toNat + 2 + j) (by omega)
        simpa only [Nat.add_assoc] using hj'
      rw [ih _ h hrest, hnext]

end Walk

/-! ## 4. The frame sent -/

theorem length_mme (keyid ipn : Nat) : (mme keyid ipn).length = 16 := rfl

/-- The six bytes are those of the number. -/
theorem ipnBytes_value (ipn : Nat) :
    ((ipnBytes ipn).getD 0 0).toNat + 256 * ((ipnBytes ipn).getD 1 0).toNat
      + 2 ^ 16 * (((ipnBytes ipn).getD 2 0).toNat + 256 * ((ipnBytes ipn).getD 3 0).toNat)
      + 2 ^ 32 * (((ipnBytes ipn).getD 4 0).toNat + 256 * ((ipnBytes ipn).getD 5 0).toNat)
      = ipn % 2 ^ 48 := by
  have hbyte : ∀ n, (UInt8.ofNat n).toNat = n % 256 := fun n => rfl
  simp only [ipnBytes, List.range, List.range.loop, List.map_cons, List.map_nil,
    List.getD_cons_zero, List.getD_cons_succ, hbyte, Nat.reducePow]
  omega

section Frame

variable (f : TxFrame) (keyid ipn : Nat)

theorem unsigned_of_lt {x : Nat} (hx : x < f.pktlen) : f.unsigned keyid ipn x = f.mem x :=
  overwrite_of_lt hx

/-- The element behind the frame. -/
theorem readBytes_unsigned : readBytes (f.unsigned keyid ipn) f.pktlen 18
    = [mmeIe, 16] ++ mme keyid ipn :=
  readBytes_overwrite f.mem f.pktlen ([mmeIe, 16] ++ mme keyid ipn)

theorem unsigned_at {i : Nat} (hi : i < 18) :
    f.unsigned keyid ipn (f.pktlen + i) = ([mmeIe, 16] ++ mme keyid ipn).getD i 0 := by
  rw [← readBytes_unsigned, getD_readBytes _ hi]

/-- The MIC is zero. -/
theorem unsigned_mic : readBytes (f.unsigned keyid ipn) (f.pktlen + 10) 8
    = List.replicate 8 0 := by
  have h := readBytes_unsigned f keyid ipn
  have hsplit : [mmeIe, 16] ++ mme keyid ipn
      = ([mmeIe, 16, UInt8.ofNat keyid, 0] ++ ipnBytes ipn) ++ List.replicate 8 0 := rfl
  rw [hsplit] at h
  exact (readBytes_append h).2

theorem unsigned_ipn : le48 (f.unsigned keyid ipn) (f.pktlen + 4) = ipn % 2 ^ 48 := by
  have hbyte : ∀ i < 6, f.unsigned keyid ipn (f.pktlen + 4 + i) = (ipnBytes ipn).getD i 0 := by
    intro i hi
    rw [Nat.add_assoc, unsigned_at f keyid ipn (by omega)]
    have hskip : ∀ (l : List UInt8), ([mmeIe, 16, UInt8.ofNat keyid, 0] ++ l).getD (4 + i) 0
        = l.getD i 0 := by
      intro l
      rw [Nat.add_comm]
      rfl
    have happend : (ipnBytes ipn ++ List.replicate 8 0).getD i 0 = (ipnBytes ipn).getD i 0 :=
      List.getD_append _ _ _ _ (by simpa [ipnBytes] using hi)
    exact (hskip (ipnBytes ipn ++ List.replicate 8 0)).trans happend
  have h0 := hbyte 0 (by omega)
  have h1 := hbyte 1 (by omega)
  have h2 := hbyte 2 (by omega)
  have h3 := hbyte 3 (by omega)
  have h4 := hbyte 4 (by omega)
  have h5 := hbyte 5 (by omega)
  rw [← ipnBytes_value ipn, ← h0, ← h1, ← h2, ← h3, ← h4, ← h5]
  rfl

/-- What the MIC is taken over: the AAD and the body with the MME, whose MIC is zero. -/
def macInput : List UInt8 :=
  bipAad (f.unsigned keyid ipn)
    ++ readBytes (f.unsigned keyid ipn) wlanHdrA3Len (f.pktlen + 18 - wlanHdrA3Len)

/-- `BIP_AAD` holds that. -/
theorem readBytes_aad (m : Mem) (n : Nat) :
    readBytes (overwrite (overwrite (fun _ => 0) 0 (bipAad m)) bipAadSize
      (readBytes m wlanHdrA3Len n)) 0 (bipAadSize + n)
      = bipAad m ++ readBytes m wlanHdrA3Len n := by
  have hlen : (bipAad m).length = bipAadSize := rfl
  have hfront : readBytes (overwrite (overwrite (fun _ => 0) 0 (bipAad m)) bipAadSize
      (readBytes m wlanHdrA3Len n)) 0 bipAadSize = bipAad m := by
    have h := readBytes_overwrite (fun _ => 0) 0 (bipAad m)
    rw [hlen] at h
    refine Eq.trans (readBytes_congr fun i _ hi => ?_) h
    exact overwrite_of_lt (by omega)
  have hback := readBytes_overwrite (overwrite (fun _ => 0) 0 (bipAad m)) bipAadSize
    (readBytes m wlanHdrA3Len n)
  rw [length_readBytes] at hback
  rw [readBytes_add, hfront, Nat.zero_add, hback]

end Frame

/-! ## 5. One frame -/

/-- The MIC that goes into the frame. -/
def Cmac.mic (c : Cmac) (key : List UInt8) (f : TxFrame) (keyid ipn : Nat) : List UInt8 :=
  (c.mac key (macInput f keyid ipn)).take 8

theorem Cmac.length_mic (c : Cmac) (key : List UInt8) (f : TxFrame) (keyid ipn : Nat) :
    (c.mic key f keyid ipn).length = 8 := by
  rw [Cmac.mic, List.length_take, c.length]
  rfl

section Sent

variable {f : TxFrame} {keyid ipn : Nat} {key : Nat → List UInt8} {c : Cmac}

/-- The frame that is sent. -/
theorem coalesce_keysOf (f : TxFrame) (keyid ipn : Nat) (key : Nat → List UInt8) (c : Cmac) :
    let out := rtwMgmtXmitframeCoalesce (keysOf keyid key c) true true ipn f
    out.success = true ∧ out.pktlen = f.pktlen + 18 ∧ out.ipn = (ipn + 1) % 2 ^ 64 ∧
      out.mem = overwrite (f.unsigned keyid ipn) (f.pktlen + 10)
        (c.mic (key keyid) f keyid ipn) := by
  have hinput : readBytes (overwrite (overwrite (fun _ => 0) 0 (bipAad (f.unsigned keyid ipn)))
      bipAadSize (readBytes (f.unsigned keyid ipn) wlanHdrA3Len
        (f.pktlen + 18 - wlanHdrA3Len))) 0 (bipAadSize + (f.pktlen + 18 - wlanHdrA3Len))
      = macInput f keyid ipn := readBytes_aad _ _
  simp only [rtwMgmtXmitframeCoalesce, keysOf, Bool.true_eq_false, if_false, hinput]
  exact ⟨trivial, trivial, trivial, rfl⟩

/-- What is touched lies in the frame and in `BIP_AAD`, although the frame grows. -/
theorem coalesce_touches (k : BipKeys) (ipn : Nat) (f : TxFrame) :
    let out := rtwMgmtXmitframeCoalesce k true true ipn f
    (∀ r ∈ out.frameTouches, r.1 + r.2 ≤ out.pktlen) ∧
      ∀ r ∈ out.aadTouches, r.1 + r.2 ≤ out.oriLen := by
  have hreason := f.reason
  unfold wlanHdrA3Len at hreason
  unfold rtwMgmtXmitframeCoalesce
  simp only [Bool.true_eq_false, if_false]
  split <;>
    simp only [List.forall_mem_cons, List.not_mem_nil, wlanHdrA3Len, bipAadSize] <;>
    refine ⟨?_, ?_⟩ <;> grind

/-- The bytes of a frame received. -/
theorem Delivered.byte {g : BipFrame}
    (h : Delivered (rtwMgmtXmitframeCoalesce (keysOf keyid key c) true true ipn f) g) {x : Nat}
    (hx : x < f.pktlen + 18) : g.rxData x
      = overwrite (f.unsigned keyid ipn) (f.pktlen + 10) (c.mic (key keyid) f keyid ipn) x := by
  obtain ⟨-, hlen, -, hmem⟩ := coalesce_keysOf f keyid ipn key c
  have hdata := h.rxData x
  rw [hlen, hmem] at hdata
  exact hdata hx

section Received

variable {g : BipFrame}
  (h : Delivered (rtwMgmtXmitframeCoalesce (keysOf keyid key c) true true ipn f) g)

include h

theorem Delivered.pktLen_eq : g.pktLen = f.pktlen + 18 := by
  rw [h.pktLen]
  exact (coalesce_keysOf f keyid ipn key c).2.1

/-- In front of the MIC it is the frame with an MME. -/
theorem Delivered.unsigned {x : Nat} (hx : x < f.pktlen + 10) :
    g.rxData x = f.unsigned keyid ipn x := by
  rw [h.byte (by omega), overwrite_of_lt hx]

theorem Delivered.mic : readBytes g.rxData (f.pktlen + 10) 8 = c.mic (key keyid) f keyid ipn := by
  have hread := readBytes_overwrite (f.unsigned keyid ipn) (f.pktlen + 10)
    (c.mic (key keyid) f keyid ipn)
  rw [c.length_mic] at hread
  refine Eq.trans (readBytes_congr fun i _ hi => ?_) hread
  exact h.byte (by omega)

/-- **Both sides take the MIC over the same bytes.** -/
theorem Delivered.protectedBytes : g.protectedBytes = macInput f keyid ipn := by
  have hreason := f.reason
  have hlen := h.pktLen_eq
  unfold wlanHdrA3Len at hreason
  have haad : bipAad g.rxData = bipAad (f.unsigned keyid ipn) := by
    unfold bipAad
    rw [h.unsigned (by omega), h.unsigned (by omega),
      readBytes_congr fun i _ hi => h.unsigned (by omega)]
  have hbody : readBytes g.rxData wlanHdrA3Len (g.pktLen - wlanHdrA3Len - 8)
      = readBytes (f.unsigned keyid ipn) wlanHdrA3Len (f.pktlen + 10 - wlanHdrA3Len) := by
    have hn : g.pktLen - wlanHdrA3Len - 8 = f.pktlen + 10 - wlanHdrA3Len := by
      unfold wlanHdrA3Len
      omega
    rw [hn]
    refine readBytes_congr fun i _ hi => h.unsigned ?_
    unfold wlanHdrA3Len at hi
    omega
  have hsplit : f.pktlen + 18 - wlanHdrA3Len = f.pktlen + 10 - wlanHdrA3Len + 8 := by
    unfold wlanHdrA3Len
    omega
  have hmic : wlanHdrA3Len + (f.pktlen + 10 - wlanHdrA3Len) = f.pktlen + 10 := by
    unfold wlanHdrA3Len
    omega
  unfold BipFrame.protectedBytes macInput
  rw [haad, hbody, hsplit, readBytes_add, hmic, unsigned_mic, List.append_assoc]

/-- The copy that the receiver works on, 4 bytes further in front. -/
theorem Delivered.copy {x : Nat} (hx : bipAadSize ≤ x) (hlt : x < f.pktlen + 6) :
    g.copy x = f.unsigned keyid ipn (4 + x) := by
  have hlen := h.pktLen_eq
  have hori : g.oriLen = ((f.pktlen + 14 : Nat) : Int) := by
    have hreason := f.reason
    unfold wlanHdrA3Len at hreason
    unfold BipFrame.oriLen BipFrame.bodyLen wlanHdrA3Len bipAadSize
    omega
  rw [BipFrame.copy_eq hx (by omega)]
  exact h.unsigned (by omega)

theorem Delivered.copy_le48 {x : Nat} (hx : bipAadSize ≤ x) (hlt : x + 6 ≤ f.pktlen + 6) :
    le48 g.copy x = le48 (f.unsigned keyid ipn) (4 + x) := by
  unfold le48 le16
  simp only [Nat.add_assoc, Nat.reduceAdd]
  rw [h.copy hx (by omega), h.copy (by omega) (by omega), h.copy (by omega) (by omega),
    h.copy (by omega) (by omega), h.copy (by omega) (by omega), h.copy (by omega) (by omega)]

theorem Delivered.copy_le16 {x : Nat} (hx : bipAadSize ≤ x) (hlt : x + 2 ≤ f.pktlen + 6) :
    le16 g.copy x = le16 (f.unsigned keyid ipn) (4 + x) := by
  unfold le16
  rw [h.copy hx (by omega), h.copy (by omega) (by omega), Nat.add_assoc]

/-- The same walk on both sides, as far as it goes in front of the MIC. -/
theorem Delivered.found_iff {p len : Nat} (hp : p + 4 ≤ f.pktlen + 8) (hx : bipAadSize ≤ p) :
    rtwGetIe g.copy bipAadSize mmeIe g.bodyLen = some (p, len) ↔
      rtwGetIe (f.unsigned keyid ipn) wlanHdrA3Len mmeIe
        ((f.pktlen + 18 - wlanHdrA3Len : Nat) : Int) = some (p + 4, len) := by
  have hreason := f.reason
  have hlen := h.pktLen_eq
  unfold wlanHdrA3Len at hreason
  unfold bipAadSize at hx
  have hbody : g.bodyLen = ((f.pktlen + 18 - wlanHdrA3Len : Nat) : Int) := by
    unfold BipFrame.bodyLen wlanHdrA3Len
    omega
  have hlimit : ¬((f.pktlen + 18 - wlanHdrA3Len : Nat) : Int) < 1 := by
    unfold wlanHdrA3Len
    omega
  rw [hbody, rtwGetIe, rtwGetIe, if_neg hlimit, if_neg hlimit]
  have hsame : ∀ j, 20 + j < p + 2 → g.copy (20 + j) = f.unsigned keyid ipn (24 + j) := by
    intro j hj
    rw [h.copy (by unfold bipAadSize; omega) (by omega), ← Nat.add_assoc]
  constructor
  · intro hfound
    have hcopy := getIeLoop_copy (f.unsigned keyid ipn) wlanHdrA3Len hfound
      fun j hj => (hsame j hj).symm
    rw [hcopy]
    simp only [wlanHdrA3Len, bipAadSize, Option.some.injEq, Prod.mk.injEq, and_true]
    omega
  · intro hfound
    have hcopy := getIeLoop_copy g.copy bipAadSize hfound fun j hj => by
      unfold wlanHdrA3Len at hj
      exact hsame j (by omega)
    rw [hcopy]
    simp only [wlanHdrA3Len, bipAadSize, Option.some.injEq, Prod.mk.injEq, and_true]
    omega

end Received

/-- The packet number is that of the sender. -/
theorem carried_eq (f : TxFrame) (keyid ipn : Nat) (key : Nat → List UInt8) (c : Cmac) :
    (rtwMgmtXmitframeCoalesce (keysOf keyid key c) true true ipn f).carried = ipn % 2 ^ 48 := by
  obtain ⟨-, hlen, -, hmem⟩ := coalesce_keysOf f keyid ipn key c
  have hoff : f.pktlen + 18 - 14 = f.pktlen + 4 := by omega
  have hlow : ∀ x, x < f.pktlen + 10 → overwrite (f.unsigned keyid ipn) (f.pktlen + 10)
      (c.mic (key keyid) f keyid ipn) x = f.unsigned keyid ipn x := fun x hx => overwrite_of_lt hx
  rw [TxOut.carried, hlen, hmem, hoff, ← unsigned_ipn f keyid ipn]
  unfold le48 le16
  rw [hlow _ (by omega), hlow _ (by omega), hlow _ (by omega), hlow _ (by omega),
    hlow _ (by omega), hlow _ (by omega)]

end Sent

/-! ## 6. What is accepted -/

/-- What is found decides. -/
theorem rtwBipVerify_found {k : BipKeys} {ipnRx p len : Nat} {g : BipFrame}
    (halloc : g.zmalloc = true) (hlen : wlanHdrA3Len ≤ g.pktLen)
    (hie : rtwGetIe g.copy bipAadSize mmeIe g.bodyLen = some (p, len)) :
    (rtwBipVerify k ipnRx g).res = (verifyMme k ipnRx g p len).res ∧
      (rtwBipVerify k ipnRx g).ipnRx = (verifyMme k ipnRx g p len).ipnRx := by
  have hbody : ¬ g.bodyLen < 0 := by
    unfold BipFrame.bodyLen
    omega
  unfold rtwBipVerify
  rw [if_neg (by rw [halloc]; decide), if_neg hbody, hie]
  exact ⟨rfl, rfl⟩

section Accepted

variable {f : TxFrame} {keyid ipn ipnRx : Nat} {key : Nat → List UInt8} {c : Cmac} {g : BipFrame}

/-- **A frame whose MME is found is accepted.** -/
theorem accepts_of_found (hfound : MmeFound keyid ipn f)
    (h : Delivered (rtwMgmtXmitframeCoalesce (keysOf keyid key c) true true ipn f) g)
    (hold : ipnRx ≤ ipn % 2 ^ 48) :
    Accepts (keysOf keyid key c)
      (rtwMgmtXmitframeCoalesce (keysOf keyid key c) true true ipn f) g ipnRx := by
  obtain ⟨q, len, hie, hend, hlen, hkey, hipn⟩ := hfound
  have hreason := f.reason
  have hpkt := h.pktLen_eq
  have hq : wlanHdrA3Len ≤ q := by
    have hwalk := rtwGetIe_found hie
    exact hwalk.2.1
  unfold wlanHdrA3Len at hreason hq
  obtain ⟨p, rfl⟩ : ∃ p, q = p + 4 := ⟨q - 4, by omega⟩
  have hp : bipAadSize ≤ p := by
    unfold bipAadSize
    omega
  have hcopy := (h.found_iff (by omega) hp).mpr hie
  have hnum : le48 g.copy (p + 4) = ipn % 2 ^ 48 := by
    rw [h.copy_le48 (by omega) (by omega), ← hipn]
    exact congrArg _ (by omega)
  have hid : le16 g.copy (p + 2) = keyid := by
    rw [h.copy_le16 (by omega) (by omega)]
    exact (congrArg _ (by omega)).trans hkey
  have hmic : p + 2 + len - 8 = bipAadSize + (g.pktLen - wlanHdrA3Len) - 8 := by
    unfold bipAadSize wlanHdrA3Len
    omega
  have hbytes := BipFrame.readBytes_aadAndBody (f := g) (by unfold wlanHdrA3Len; omega)
  rw [h.protectedBytes] at hbytes
  have hlast : (c.mac (key keyid) (macInput f keyid ipn)).take 8
      = readBytes g.rxData (g.pktLen - 8) 8 := by
    rw [hpkt, Nat.add_sub_assoc (by omega)]
    exact h.mic.symm
  have hverify : (verifyMme (keysOf keyid key c) ipnRx g p len).res = some .success ∧
      (verifyMme (keysOf keyid key c) ipnRx g p len).ipnRx = ipn % 2 ^ 48 := by
    unfold verifyMme
    simp only [hnum, hid, keysOf, hmic, hbytes, hlast, ne_eq, not_true_eq_false, if_false, if_true]
    rw [if_neg (by omega)]
    exact ⟨rfl, rfl⟩
  have hheader : wlanHdrA3Len ≤ g.pktLen := by
    unfold wlanHdrA3Len
    omega
  have hori : g.oriLen = ((f.pktlen + 14 : Nat) : Int) := by
    unfold BipFrame.oriLen BipFrame.bodyLen wlanHdrA3Len bipAadSize
    omega
  obtain ⟨hres, hkept⟩ := @rtwBipVerify_found (keysOf keyid key c) ipnRx p len g h.zmalloc hheader
    hcopy
  refine ⟨hres.trans hverify.1, (hkept.trans hverify.2).trans (carried_eq f keyid ipn key c).symm,
    ?_, ?_⟩
  · intro r hr
    rcases rtwBipVerify_reads hr with rfl | rfl | rfl | rfl
    all_goals
      simp only [wlanHdrA3Len]
      omega
  · intro r hr
    rw [hori]
    rcases rtwBipVerify_touches hheader hr with rfl | ⟨x, hx, rfl⟩ | ⟨p', len', hfound', hmem⟩
    · simp only [wlanHdrA3Len, bipAadSize]
      omega
    · have hle := rtwGetIe_heads_le hcopy x hx
      dsimp only
      omega
    · cases hcopy.symm.trans hfound'
      rcases verifyMme_touches hmem with rfl | rfl | ⟨-, -, rfl | rfl | rfl⟩
      all_goals
        simp only [wlanHdrA3Len, bipAadSize]
        omega

/-- Some receiver gets the frame. -/
theorem exists_delivered (f : TxFrame) (keyid ipn : Nat) (key : Nat → List UInt8) (c : Cmac) :
    ∃ g, Delivered (rtwMgmtXmitframeCoalesce (keysOf keyid key c) true true ipn f) g := by
  obtain ⟨-, hlen, -, hmem⟩ := coalesce_keysOf f keyid ipn key c
  have hreason := f.reason
  unfold wlanHdrA3Len at hreason
  have hhead : ∀ x, x < f.pktlen →
      (rtwMgmtXmitframeCoalesce (keysOf keyid key c) true true ipn f).mem x = f.mem x := by
    intro x hx
    rw [hmem, overwrite_of_lt (by omega)]
    exact unsigned_of_lt f keyid ipn hx
  refine ⟨⟨_, _, true, fun _ => 0, ?_, ?_, ?_⟩, rfl, fun _ _ => rfl, rfl⟩
  · exact Nat.lt_of_le_of_lt (Nat.le_of_eq hlen) f.pktlen_lt
  · have haddr : getAddr1 (rtwMgmtXmitframeCoalesce (keysOf keyid key c) true true ipn f).mem
        = getAddr1 f.mem := by
      unfold getAddr1 readAddr
      rw [hhead _ (by omega), hhead _ (by omega), hhead _ (by omega), hhead _ (by omega),
        hhead _ (by omega), hhead _ (by omega)]
    rw [haddr]
    exact f.group
  · have htype : getFrameSubType (rtwMgmtXmitframeCoalesce (keysOf keyid key c) true true ipn f).mem
        = getFrameSubType f.mem := by
      unfold getFrameSubType le16
      rw [hhead _ (by omega), hhead _ (by omega)]
    rw [htype]
    exact f.leaves

/-- A byte that is neither zero nor the high byte of the packet number. -/
def mark (ipn : Nat) : UInt8 := if UInt8.ofNat (ipn / 256 ^ 5) = 1 then 2 else 1

theorem mark_ne (ipn : Nat) : mark ipn ≠ 0 ∧ mark ipn ≠ UInt8.ofNat (ipn / 256 ^ 5) := by
  unfold mark
  split
  · rename_i h
    rw [h]
    decide
  · rename_i h
    exact ⟨by decide, fun heq => h heq.symm⟩

/-- A MAC that knows one message. -/
def marking (f : TxFrame) (keyid ipn : Nat) : Cmac where
  mac _ msg := if msg = macInput f keyid ipn then List.replicate 16 (mark ipn)
    else List.replicate 16 0
  length _ _ := by split <;> rfl

theorem mic_marking (f : TxFrame) (keyid ipn : Nat) (key : List UInt8) :
    (marking f keyid ipn).mic key f keyid ipn = List.replicate 8 (mark ipn) := by
  simp [Cmac.mic, marking]

theorem le48_high (m : Mem) (off : Nat) : le48 m off / 2 ^ 40 = (m (off + 5)).toNat := by
  have hbyte : ∀ x, (m x).toNat < 256 := fun x => (m x).toNat_lt
  have h0 := hbyte off
  have h1 := hbyte (off + 1)
  have h2 := hbyte (off + 2)
  have h3 := hbyte (off + 3)
  have h4 := hbyte (off + 4)
  simp only [le48, le16, Nat.add_assoc, Nat.reduceAdd]
  omega

/-- What a call that accepts has touched. -/
theorem success_touches {k : BipKeys} {p len : Nat} {g : BipFrame} (halloc : g.zmalloc = true)
    (hlen : wlanHdrA3Len ≤ g.pktLen)
    (hie : rtwGetIe g.copy bipAadSize mmeIe g.bodyLen = some (p, len))
    (hres : (verifyMme k ipnRx g p len).res = some .success) :
    (p + 4, 6) ∈ (rtwBipVerify k ipnRx g).copyTouches ∧
      (p + 2 + len - 8, 8) ∈ (rtwBipVerify k ipnRx g).copyTouches := by
  have hbody : ¬ g.bodyLen < 0 := by
    unfold BipFrame.bodyLen
    omega
  have hmme : (p + 4, 6) ∈ (verifyMme k ipnRx g p len).copyTouches ∧
      (p + 2 + len - 8, 8) ∈ (verifyMme k ipnRx g p len).copyTouches := by
    unfold verifyMme at hres ⊢
    dsimp only at hres ⊢
    split_ifs at hres ⊢
    · cases hres
    · cases hres
    · split at hres
      · cases hres
      · split_ifs <;> simp
  unfold rtwBipVerify
  rw [if_neg (by rw [halloc]; decide), if_neg hbody, hie]
  exact ⟨List.mem_append_right _ hmme.1, List.mem_append_right _ hmme.2⟩

/-- **Where every MAC is accepted, the MME is found.** -/
theorem found_of_accepts
    (h : Delivered
      (rtwMgmtXmitframeCoalesce (keysOf keyid key (marking f keyid ipn)) true true ipn f) g)
    (hacc : Accepts (keysOf keyid key (marking f keyid ipn))
      (rtwMgmtXmitframeCoalesce (keysOf keyid key (marking f keyid ipn)) true true ipn f) g ipnRx) :
    MmeFound keyid ipn f := by
  have hreason := f.reason
  have hpkt := h.pktLen_eq
  unfold wlanHdrA3Len at hreason
  have hheader : wlanHdrA3Len ≤ g.pktLen := by
    unfold wlanHdrA3Len
    omega
  have hori : g.oriLen = ((f.pktlen + 14 : Nat) : Int) := by
    unfold BipFrame.oriLen BipFrame.bodyLen wlanHdrA3Len bipAadSize
    omega
  -- the marked MIC at the end of the copy
  have hmark : ∀ x, f.pktlen + 6 ≤ x → x < f.pktlen + 14 → g.copy x = mark ipn := by
    intro x hx hlt
    have hmic := h.mic
    rw [mic_marking] at hmic
    have hbyte : (readBytes g.rxData (f.pktlen + 10) 8).getD (x - (f.pktlen + 6)) 0 = mark ipn := by
      rw [hmic, List.getD_replicate _ (by omega)]
    rw [getD_readBytes _ (by omega)] at hbyte
    rw [BipFrame.copy_eq (by unfold bipAadSize; omega) (by omega), ← hbyte]
    congr 1
    omega
  obtain ⟨hmark0, hmarkHigh⟩ := mark_ne ipn
  rcases @rtwBipVerify_of_copy (keysOf keyid key (marking f keyid ipn)) ipnRx g h.zmalloc
      hheader with
    ⟨p, len, hie, hres, hkept⟩ | ⟨hres, -⟩
  · have hsuccess := hres.symm.trans hacc.res
    obtain ⟨hipnTouch, hmicTouch⟩ := success_touches h.zmalloc hheader hie hsuccess
    have hinside := hacc.copy _ hipnTouch
    have hzeroed := hacc.copy _ hmicTouch
    rw [hori] at hinside hzeroed
    dsimp only at hinside hzeroed
    have hp : bipAadSize ≤ p := by
      have hwalk := rtwGetIe_found hie
      exact hwalk.2.1
    have hp20 : 20 ≤ p := hp
    rcases verifyMme_cases (keysOf keyid key (marking f keyid ipn)) ipnRx g p len with
      ⟨hfail, -⟩ | ⟨-, hnew, -, hid, mac, hmac, hlast⟩
    · cases hfail.symm.trans hsuccess
    -- the MIC is that of the bytes that the sender had
    · have hbytes : readBytes (g.aadAndBody (p + 2 + len - 8)) 0
          (bipAadSize + (g.pktLen - wlanHdrA3Len)) = macInput f keyid ipn := by
        by_contra hne
        have hother : mac = List.replicate 16 0 := by
          refine (Option.some.inj hmac).symm.trans ?_
          exact if_neg hne
        have hzero : List.replicate 8 (0 : UInt8) = List.replicate 8 (mark ipn) := by
          rw [← mic_marking f keyid ipn (key keyid), ← h.mic]
          rw [hother, hpkt, Nat.add_sub_assoc (by omega)] at hlast
          exact hlast
        exact hmark0 (List.head_eq_of_cons_eq hzero).symm
      have hend : p + 2 + len = f.pktlen + 14 := by
        by_contra hne
        have hleft : (readBytes (g.aadAndBody (p + 2 + len - 8)) 0
            (bipAadSize + (g.pktLen - wlanHdrA3Len))).getD (f.pktlen + 13) 0 = mark ipn := by
          rw [getD_readBytes _ (by unfold bipAadSize wlanHdrA3Len; omega), Nat.zero_add]
          unfold BipFrame.aadAndBody
          have haad : (bipAad g.rxData).length = 20 := rfl
          rw [overwrite_of_le (by omega), overwrite_of_le (by rw [List.length_replicate]; omega)]
          exact hmark _ (by omega) (by omega)
        have hright : (macInput f keyid ipn).getD (f.pktlen + 13) 0 = 0 := by
          have haad : (bipAad (f.unsigned keyid ipn)).length = 20 := rfl
          have hlast := unsigned_at f keyid ipn (show 17 < 18 by decide)
          unfold macInput
          rw [List.getD_append_right _ _ _ _ (by omega), haad,
            getD_readBytes _ (by unfold wlanHdrA3Len; omega)]
          refine Eq.trans ?_ hlast
          congr 1
          unfold wlanHdrA3Len
          omega
        rw [hbytes, hright] at hleft
        exact hmark0 hleft.symm
      have hnum : le48 g.copy (p + 4) = ipn % 2 ^ 48 := by
        rw [← hnew, ← hkept, hacc.kept]
        exact carried_eq f keyid ipn key _
      have hshort : p + 4 ≤ f.pktlen := by
        by_contra hne
        have hhigh := le48_high g.copy (p + 4)
        rw [hnum, hmark _ (by omega) (by omega)] at hhigh
        refine hmarkHigh (UInt8.toNat_inj.mp ?_)
        rw [← hhigh, UInt8.toNat_ofNat']
        omega
      have hkey : le16 g.copy (p + 2) = keyid := hid
      refine ⟨p + 4, len, (h.found_iff (by omega) hp).mp hie, by omega, by omega, ?_, ?_⟩
      · refine Eq.trans ?_ hkey
        rw [h.copy_le16 (by omega) (by omega)]
        exact congrArg _ (by omega)
      · rw [← hnum, h.copy_le48 (by omega) (by omega)]
        exact congrArg _ (by omega)
  · cases hres.symm.trans hacc.res

end Accepted

/-! ## 7. Frames one behind the other -/

section Run

variable {keyid : Nat} {key : Nat → List UInt8} {c : Cmac}

theorem sends_eq_map (ipn : Nat) (fs : List TxFrame) : sends (keysOf keyid key c) ipn fs
    = (numbered ipn fs).map fun p =>
        rtwMgmtXmitframeCoalesce (keysOf keyid key c) true true p.1 p.2 := by
  induction fs generalizing ipn with
  | nil => rfl
  | cons f fs ih =>
    obtain ⟨-, -, hipn, -⟩ := coalesce_keysOf f keyid ipn key c
    rw [sends, numbered, List.map_cons]
    dsimp only
    rw [hipn, ih]

theorem forall_sends {P : TxOut → Prop} {ipn : Nat} {fs : List TxFrame} :
    (∀ out ∈ sends (keysOf keyid key c) ipn fs, P out) ↔ ∀ p ∈ numbered ipn fs,
      P (rtwMgmtXmitframeCoalesce (keysOf keyid key c) true true p.1 p.2) := by
  rw [sends_eq_map]
  exact List.forall_mem_map

/-- The packet numbers count up, and start again at 0 behind the last number of 48 bits. -/
theorem carried_sends (ipn : Nat) (fs : List TxFrame) :
    (sends (keysOf keyid key c) ipn fs).map TxOut.carried
      = (List.range fs.length).map fun i => (ipn + i) % 2 ^ 48 := by
  induction fs generalizing ipn with
  | nil => rfl
  | cons f fs ih =>
    obtain ⟨-, -, hipn, -⟩ := coalesce_keysOf f keyid ipn key c
    rw [sends, List.map_cons, carried_eq, List.length_cons, List.range_succ_eq_map, List.map_cons,
      List.map_map]
    rw [hipn, ih]
    congr 1
    refine List.map_congr_left fun i _ => ?_
    simp only [Function.comp_apply, Nat.succ_eq_add_one]
    omega

/-- **They grow until there are no more.** -/
theorem grows_iff (ipn : Nat) (fs : List TxFrame) :
    ((sends (keysOf keyid key c) ipn fs).map TxOut.carried).Pairwise (· < ·) ↔
      ipn % 2 ^ 48 + fs.length ≤ 2 ^ 48 := by
  rw [carried_sends, List.pairwise_map]
  constructor
  · intro h
    by_contra hmore
    have hstep := List.pairwise_iff_getElem.mp h (2 ^ 48 - 1 - ipn % 2 ^ 48)
      (2 ^ 48 - ipn % 2 ^ 48) (by rw [List.length_range]; omega) (by rw [List.length_range]; omega)
      (by omega)
    rw [List.getElem_range, List.getElem_range] at hstep
    omega
  · intro hroom
    refine List.Pairwise.imp_of_mem (R := (· < ·)) ?_ List.pairwise_lt_range
    intro i j hi hj hlt
    have hj' := List.mem_range.mp hj
    omega

end Run

section Elements

open IesRemove BcnIes

/-- The reason code, taken for an element, the elements of a frame, and the MME. -/
theorem readBytes_elements (keyid : Nat) (ipn : Nat) {f : TxFrame} {es : List Element}
    (hhigh : f.mem (wlanHdrA3Len + 1) = 0)
    (hes : readBytes f.mem (wlanHdrA3Len + 2) (f.pktlen - (wlanHdrA3Len + 2)) = bytesOf es) :
    readBytes (f.unsigned keyid ipn) wlanHdrA3Len (f.pktlen + 18 - wlanHdrA3Len)
      = bytesOf ((⟨f.mem wlanHdrA3Len, [], by decide⟩ :: es)
          ++ [⟨mmeIe, mme keyid ipn, by rw [length_mme]; decide⟩]) := by
  have hreason := f.reason
  obtain ⟨n, hn⟩ : ∃ n, f.pktlen = wlanHdrA3Len + 2 + n := ⟨_, (Nat.add_sub_of_le hreason).symm⟩
  have hsplit : f.pktlen + 18 - wlanHdrA3Len = 2 + n + 18 := by omega
  have hcode : readBytes (f.unsigned keyid ipn) wlanHdrA3Len 2 = [f.mem wlanHdrA3Len, 0] := by
    rw [readBytes, readBytes, readBytes, unsigned_of_lt f keyid ipn (by omega),
      unsigned_of_lt f keyid ipn (by omega), hhigh]
  have hbody : readBytes (f.unsigned keyid ipn) (wlanHdrA3Len + 2) n = bytesOf es := by
    rw [← hes, hn, Nat.add_sub_cancel_left]
    exact readBytes_congr fun i _ hi => unsigned_of_lt f keyid ipn (by omega)
  have hmme := readBytes_unsigned f keyid ipn
  rw [hn] at hmme
  rw [hsplit, readBytes_add, readBytes_add, hcode, hbody, ← Nat.add_assoc, hmme, bytesOf_append,
    bytesOf_cons', bytesOf_cons', bytesOf_nil, List.append_nil]
  rfl

/-- **The MME is found behind well-formed elements** none of which is an MME, where the reason code
is below 256 and is not that of an MME. -/
theorem mmeFound_of_elements (keyid : Fin 6) (ipn : Nat) {f : TxFrame} {es : List Element}
    (hlow : f.mem wlanHdrA3Len ≠ mmeIe) (hhigh : f.mem (wlanHdrA3Len + 1) = 0)
    (hes : readBytes f.mem (wlanHdrA3Len + 2) (f.pktlen - (wlanHdrA3Len + 2)) = bytesOf es)
    (hmme : ∀ e ∈ es, e.eid ≠ mmeIe) : MmeFound keyid ipn f := by
  have hreason := f.reason
  have hbody := readBytes_elements keyid ipn hhigh hes
  have hnone : ∀ e ∈ (⟨f.mem wlanHdrA3Len, [], by decide⟩ : Element) :: es, e.eid ≠ mmeIe :=
    List.forall_mem_cons.mpr ⟨hlow, hmme⟩
  have hplace := rtwGetIe_eq_placeOf mmeIe hbody
  have hsize : wlanHdrA3Len
      + (bytesOf ((⟨f.mem wlanHdrA3Len, [], by decide⟩ : Element) :: es)).length = f.pktlen := by
    have hlen := congrArg List.length hes
    rw [length_readBytes] at hlen
    rw [bytesOf_cons', List.length_append, ← hlen]
    change wlanHdrA3Len + (2 + (f.pktlen - (wlanHdrA3Len + 2))) = f.pktlen
    omega
  rw [placeOf_append hnone, hsize, placeOf, if_pos rfl, length_mme] at hplace
  refine ⟨f.pktlen, 16, hplace, rfl, Nat.le_refl 16, ?_, unsigned_ipn f keyid ipn⟩
  have hid := unsigned_at f keyid ipn (show 2 < 18 by decide)
  have hzero := unsigned_at f keyid ipn (show 2 + 1 < 18 by decide)
  have hsmall := keyid.isLt
  have hbyte : (UInt8.ofNat keyid).toNat = keyid := by
    rw [UInt8.toNat_ofNat']
    exact Nat.mod_eq_of_lt (by omega)
  unfold le16
  rw [Nat.add_assoc, hid, hzero]
  exact hbyte

end Elements

/-- **Transmit and receive agree** on group-addressed deauthentication and disassociation frames
sent with one key, whatever the MAC computes, exactly when the packet numbers do not run out and
each MME, but for that of packet number 0, is found at the end of its frame. -/
theorem bip_tx_rx_agree_iff (keyid : Fin 6) (ipn : Nat) (fs : List TxFrame) :
    (∀ key c, Agrees (keysOf keyid key c) ipn fs) ↔
      ipn % 2 ^ 48 + fs.length ≤ 2 ^ 48 ∧
        ∀ p ∈ numbered ipn fs, p.1 % 2 ^ 48 = 0 ∨ MmeFound keyid p.1 p.2 := by
  constructor
  · intro h
    refine ⟨(grows_iff ipn fs).mp (h (fun _ => []) ⟨fun _ _ => List.replicate 16 0,
      fun _ _ => List.length_replicate⟩).grows, fun p hp => ?_⟩
    refine (Nat.eq_zero_or_pos _).imp_right fun hpos => ?_
    obtain ⟨g, hg⟩ := exists_delivered p.2 keyid p.1 (fun _ => []) (marking p.2 keyid p.1)
    have hacc := forall_sends.mp (h (fun _ => []) (marking p.2 keyid p.1)).accepted p hp g hg 0
    exact found_of_accepts hg (hacc (by rw [carried_eq]; exact hpos))
  · rintro ⟨hroom, hfound⟩ key c
    exact
      { sent := forall_sends.mpr fun p _ => (coalesce_keysOf p.2 keyid p.1 key c).1
        accepted := forall_sends.mpr fun p hp g hg ipnRx hlt => by
          rw [carried_eq] at hlt
          exact accepts_of_found ((hfound p hp).resolve_left (by omega)) hg (Nat.le_of_lt hlt)
        grows := (grows_iff ipn fs).mpr hroom
        frame := forall_sends.mpr fun p _ => (coalesce_touches _ p.1 p.2).1
        buffer := forall_sends.mpr fun p _ => (coalesce_touches _ p.1 p.2).2 }

/-- A deauthentication to all stations with reason code 76. -/
def reason76 : TxFrame where
  mem i := [0xC0, 0, 0, 0, 255, 255, 255, 255, 255, 255, 2, 0, 0, 0, 0, 1, 2, 0, 0, 0, 0, 1, 16, 0,
    76, 0].getD i 0
  pktlen := 26
  reason := by decide
  pktlen_lt := by decide
  group := by decide
  leaves := by decide

/-- The receiver takes the reason code for the MME. -/
theorem bip_reason_76 : ¬ ∀ key c, Agrees (keysOf 4 key c) 1 [reason76] := by
  intro h
  have hagree := h (fun _ => []) (marking reason76 4 1)
  obtain ⟨g, hg⟩ := exists_delivered reason76 4 1 (fun _ => []) (marking reason76 4 1)
  have hacc := hagree.accepted _ List.mem_cons_self g hg 0 (by rw [carried_eq]; decide)
  obtain ⟨p, len, hfound, hend, -⟩ := found_of_accepts hg hacc
  have hcode : rtwGetIe (reason76.unsigned 4 1) wlanHdrA3Len mmeIe
      ((reason76.pktlen + 18 - wlanHdrA3Len : Nat) : Int) = some (24, 0) := by decide
  cases hcode.symm.trans hfound
  exact absurd hend (by decide)

end Rtl8723bs.BipTx
