/-
# Protected group-addressed management frames

A group-addressed deauthentication or disassociation frame is let through where `rtw_BIP_verify`
returns `_SUCCESS`.  The frame ends in an MME: the element's two bytes, the id of the key, the
packet number (IPN) of six bytes and a MIC of eight.  The function copies the body behind room for
the AAD and has the MME looked up in the copy, anywhere in the body; what it compares the MIC with
are the last eight bytes of the frame.  A packet number is refused where it is below the last one.

`AuthenticMme` says what a protected frame is.  The results are about every run of frames: what the
code keeps where the MME found is the last thing in the body and no packet number comes twice in a
row, and a replay that is accepted.
-/
import Mathlib.Tactic.SplitIfs
import Rtl8723bs.Ie

namespace Rtl8723bs

/-! ## 1. The frame and the keys -/

/-- `omac1_aes_128` of the AAD and the body, none where it fails, and what is installed. -/
structure BipKeys where
  dot11wBIPKeyid : Nat
  dot11wBIPKey : Nat → List UInt8
  omac1Aes128 : List UInt8 → List UInt8 → Option (List UInt8)

/-- A received group-addressed deauthentication or disassociation frame: the memory it lies in, its
length, whether the copy can be allocated, and what lies in the heap where the copy comes to lie. -/
structure BipFrame where
  rxData : Mem
  pktLen : Nat
  zmalloc : Bool
  heap : Mem
  pktLen_lt : pktLen < 2 ^ 16
  group : isMcast (getAddr1 rxData) = true
  leaves : getFrameSubType rxData = 0xC0 ∨ getFrameSubType rxData = 0xA0

/-- `_MME_IE_`. -/
def mmeIe : UInt8 := 76

/-- `BIP_AAD_SIZE`. -/
def bipAadSize : Nat := 20

/-- A little-endian 48-bit load, `_rtw_memcpy(&temp_ipn, .., 6)`. -/
def le48 (m : Mem) (off : Nat) : Nat :=
  le16 m off + 2 ^ 16 * le16 m (off + 2) + 2 ^ 32 * le16 m (off + 4)

/-- The frame control field with the bits `ClearRetry`, `ClearPwrMgt` and `ClearMData` clear, and
the three addresses. -/
def bipAad (m : Mem) : List UInt8 :=
  [m 0, m 1 &&& 0xf7 &&& 0xef &&& 0xdf] ++ readBytes m 4 18

/-! ## 2. What a protected frame is -/

namespace BipFrame

variable (f : BipFrame)

/-- The packet number of a frame that ends in an MME. -/
def ipn : Nat := le48 f.rxData (f.pktLen - 14)

/-- What the MIC is taken over: the AAD and the body, with the MIC zero. -/
def protectedBytes : List UInt8 :=
  bipAad f.rxData ++ readBytes f.rxData wlanHdrA3Len (f.pktLen - wlanHdrA3Len - 8)
    ++ List.replicate 8 0

/-- **The last 18 bytes are an MME** of the installed key, with the right MIC. -/
structure AuthenticMme (k : BipKeys) : Prop where
  fits : wlanHdrA3Len + 18 ≤ f.pktLen
  element : f.rxData (f.pktLen - 18) = mmeIe ∧ f.rxData (f.pktLen - 17) = 16
  keyid : le16 f.rxData (f.pktLen - 16) = k.dot11wBIPKeyid
  mic : ∃ mac, k.omac1Aes128 (k.dot11wBIPKey k.dot11wBIPKeyid) f.protectedBytes = some mac ∧
    mac.take 8 = readBytes f.rxData (f.pktLen - 8) 8

/-! ## 3. `rtw_BIP_verify` -/

/-- `pkt_len - WLAN_HDR_A3_LEN`, of `int`. -/
def bodyLen : Int := (f.pktLen : Int) - wlanHdrA3Len

/-- `ori_len`, before it is taken for an `uint`. -/
def oriLen : Int := f.bodyLen + bipAadSize

/-- The zeroed buffer `BIP_AAD` with the body copied in; the heap goes on behind it. -/
def copy : Mem := fun i =>
  if i < bipAadSize then 0
  else if i < bipAadSize + (f.pktLen - wlanHdrA3Len) then
    f.rxData (i - bipAadSize + wlanHdrA3Len)
  else f.heap i

end BipFrame

/-- The elements that `rtw_get_ie` looks at, each for its kind and its length. -/
def ieHeads (m : Mem) (index : UInt8) (limit : Int) : Nat → Nat → Nat → List Nat
  | 0, _, _ => []
  | n + 1, p, i =>
    p :: if m p = index then [] else
      let tmp := (m (p + 1)).toNat
      if (i + tmp + 2 : Nat) ≥ limit then []
      else ieHeads m index limit n (p + tmp + 2) (i + tmp + 2)

/-- `_FAIL`, `_SUCCESS` and `RTW_RX_HANDLED`. -/
inductive BipRes
  | fail
  | success
  | handled
deriving DecidableEq

/-- What a call of `rtw_BIP_verify` returns (nothing, where it copies a size that wrapped), what it
leaves in `mgnt_80211w_IPN_rx`, the sizes it computes as signed numbers, and what it touches of the
frame and of its copy, as first byte and count. -/
structure BipOut where
  res : Option BipRes
  ipnRx : Nat
  sizes : List Int
  frameReads : List (Nat × Nat)
  copyTouches : List (Nat × Nat)

/-- The copy with the MIC of the MME zero and the AAD in front. -/
def BipFrame.aadAndBody (f : BipFrame) (mic : Nat) : Mem :=
  overwrite (overwrite f.copy mic (List.replicate 8 0)) 0 (bipAad f.rxData)

/-- What `rtw_BIP_verify` does with the MME found at `p` of the copy. -/
def verifyMme (k : BipKeys) (ipnRx : Nat) (f : BipFrame) (p len : Nat) : BipOut :=
  let body := f.pktLen - wlanHdrA3Len
  let mic := p + 2 + len - 8
  let tempIpn := le48 f.copy (p + 4)
  if tempIpn < ipnRx then ⟨some .fail, ipnRx, [], [], [(p + 4, 6)]⟩
  else if le16 f.copy (p + 2) ≠ k.dot11wBIPKeyid then
    ⟨some .fail, ipnRx, [], [], [(p + 4, 6), (p + 2, 2)]⟩
  else
    let touches := [(p + 4, 6), (p + 2, 2), (mic, 8), (0, bipAadSize), (0, bipAadSize + body)]
    match k.omac1Aes128 (k.dot11wBIPKey k.dot11wBIPKeyid)
        (readBytes (f.aadAndBody mic) 0 (bipAadSize + body)) with
    | none => ⟨some .fail, ipnRx, [], [(0, 2), (4, 18)], touches⟩
    | some mac =>
      let reads := [(0, 2), (4, 18), (f.pktLen - 8, 8)]
      if mac.take 8 = readBytes f.rxData (f.pktLen - 8) 8 then
        ⟨some .success, tempIpn, [], reads, touches⟩
      else ⟨some .fail, ipnRx, [], reads, touches⟩

/-- `rtw_BIP_verify`. -/
def rtwBipVerify (k : BipKeys) (ipnRx : Nat) (f : BipFrame) : BipOut :=
  if f.zmalloc = false then ⟨some .fail, ipnRx, [f.oriLen], [], []⟩
  else if f.bodyLen < 0 then ⟨none, ipnRx, [f.oriLen, f.bodyLen], [], []⟩
  else
    let body := f.pktLen - wlanHdrA3Len
    let heads := (ieHeads f.copy mmeIe f.bodyLen body bipAadSize 0).map fun p => (p, 2)
    let out : BipOut :=
      match rtwGetIe f.copy bipAadSize mmeIe f.bodyLen with
      | none => ⟨some .handled, ipnRx, [], [], []⟩
      | some (p, len) => verifyMme k ipnRx f p len
    { out with
      sizes := [f.oriLen, f.bodyLen]
      frameReads := (wlanHdrA3Len, body) :: out.frameReads
      copyTouches := (bipAadSize, body) :: heads ++ out.copyTouches }

/-! ## 4. Runs -/

/-- The branch of `validate_80211w_mgmt` that such a frame takes, with a key installed: is the frame
let through, and the packet number kept? -/
def validate80211wMgmt (k : BipKeys) (ipnRx : Nat) (f : BipFrame) : Bool × Nat :=
  let out := rtwBipVerify k ipnRx f
  (out.res = some .success, out.ipnRx)

/-- `mgnt_80211w_IPN_rx`, and beside it the frames that were let through, the last one first. -/
structure BipState where
  ipnRx : Nat
  accepted : List BipFrame

namespace BipState

/-- A frame is received. -/
def receive (k : BipKeys) (t : BipState) (f : BipFrame) : BipState :=
  let v := validate80211wMgmt k t.ipnRx f
  ⟨v.2, if v.1 then f :: t.accepted else t.accepted⟩

/-- The states a run comes to when `good` is true of each frame and the state it is received in. -/
inductive Run (k : BipKeys) (good : BipState → BipFrame → Prop) : BipState → Prop
  | start : Run k good ⟨0, []⟩
  | receive {t : BipState} (f : BipFrame) : Run k good t → good t f → Run k good (t.receive k f)

/-- **What is asked of one call**: a frame is let through only if it is protected and newer than all
that were let through before, one that is not leaves the packet number, no size wraps, and what is
touched lies in the frame and in its copy. -/
structure Protects (k : BipKeys) (t : BipState) (f : BipFrame) : Prop where
  accepted : (rtwBipVerify k t.ipnRx f).res = some .success →
    f.AuthenticMme k ∧ ∀ g ∈ t.accepted, g.ipn < f.ipn
  rejected : (rtwBipVerify k t.ipnRx f).res ≠ some .success →
    (rtwBipVerify k t.ipnRx f).ipnRx = t.ipnRx
  sizes : ∀ n ∈ (rtwBipVerify k t.ipnRx f).sizes, 0 ≤ n ∧ n < 2 ^ 32
  frame : ∀ r ∈ (rtwBipVerify k t.ipnRx f).frameReads, r.1 + r.2 ≤ f.pktLen
  copy : ∀ r ∈ (rtwBipVerify k t.ipnRx f).copyTouches, ((r.1 + r.2 : Nat) : Int) ≤ f.oriLen

/-- The element at `p` of the copy is an MME that the code can handle: its packet number lies in the
frame; and if that is not below the one kept and the key is the installed one, then the element is
the last thing in the frame, has the length of an MME, and its packet number is not the one of the
last frame let through. -/
structure CleanMme (k : BipKeys) (t : BipState) (f : BipFrame) (p len : Nat) : Prop where
  inside : ((p + 10 : Nat) : Int) ≤ f.oriLen
  last : t.ipnRx ≤ le48 f.copy (p + 4) → le16 f.copy (p + 2) = k.dot11wBIPKeyid →
    ((p + 18 : Nat) : Int) = f.oriLen ∧ len = 16 ∧
      (t.accepted ≠ [] → le48 f.copy (p + 4) ≠ t.ipnRx)

/-- **A frame the code gets right**: it is no shorter than its header, no element is cut off behind
its first byte where the MME is looked for, and the MME found is clean. -/
structure Clean (k : BipKeys) (t : BipState) (f : BipFrame) : Prop where
  header : wlanHdrA3Len ≤ f.pktLen
  heads : ∀ p ∈ ieHeads f.copy mmeIe f.bodyLen f.bodyLen.toNat bipAadSize 0,
    ((p + 2 : Nat) : Int) ≤ f.oriLen
  mme : ∀ p len, rtwGetIe f.copy bipAadSize mmeIe f.bodyLen = some (p, len) → CleanMme k t f p len

end BipState

/-! ## 5. The copy -/

section Heads

variable {m : Mem} {index : UInt8} {limit : Int}

/-- The walk only goes forward. -/
theorem le_of_mem_ieHeads : ∀ {n p i q : Nat}, q ∈ ieHeads m index limit n p i → p ≤ q := by
  intro n
  induction n with
  | zero => intro p i q h; exact absurd h List.not_mem_nil
  | succ n ih =>
    intro p i q h
    rw [ieHeads, List.mem_cons] at h
    rcases h with rfl | h
    · exact Nat.le_refl q
    · dsimp only at h
      split_ifs at h
      · exact absurd h List.not_mem_nil
      · exact absurd h List.not_mem_nil
      · have := ih h
        omega

/-- What is found was looked at. -/
theorem getIeLoop_mem_ieHeads : ∀ {n p i : Nat} {r : Nat × Nat},
    getIeLoop m index limit n p i = some r → r.1 ∈ ieHeads m index limit n p i := by
  intro n
  induction n with
  | zero => intro p i r h; exact absurd h (by simp [getIeLoop])
  | succ n ih =>
    intro p i r h
    rw [ieHeads]
    unfold getIeLoop at h
    dsimp only at h ⊢
    split_ifs at h ⊢ with hkind hlast
    · cases h
      exact List.mem_singleton.mpr rfl
    · exact List.mem_cons_of_mem _ (ih h)

/-- An element that `rtw_get_ie` finds: it was looked at, its kind is the one asked for and its
length is the one it gives. -/
theorem rtwGetIe_found {pbuf p len : Nat} (h : rtwGetIe m pbuf index limit = some (p, len)) :
    p ∈ ieHeads m index limit limit.toNat pbuf 0 ∧ pbuf ≤ p ∧ m p = index ∧
      len = (m (p + 1)).toNat := by
  unfold rtwGetIe at h
  split_ifs at h
  have hmem := getIeLoop_mem_ieHeads h
  exact ⟨hmem, le_of_mem_ieHeads hmem, getIeLoop_kind h⟩

end Heads

namespace BipFrame

variable {f : BipFrame} {i : Nat}

/-- The body lies 4 bytes further on in the frame than in the copy. -/
theorem copy_eq (hi : bipAadSize ≤ i) (hlt : (i : Int) < f.oriLen) :
    f.copy i = f.rxData (4 + i) := by
  unfold copy oriLen bodyLen wlanHdrA3Len bipAadSize at *
  rw [if_neg (by omega), if_pos (by omega)]
  congr 1
  omega

theorem le16_copy (hi : bipAadSize ≤ i) (hlt : ((i + 2 : Nat) : Int) ≤ f.oriLen) :
    le16 f.copy i = le16 f.rxData (4 + i) := by
  unfold le16
  rw [copy_eq hi (by omega), copy_eq (by omega) (by omega), Nat.add_assoc]

theorem le48_copy (hi : bipAadSize ≤ i) (hlt : ((i + 6 : Nat) : Int) ≤ f.oriLen) :
    le48 f.copy i = le48 f.rxData (4 + i) := by
  unfold le48
  rw [le16_copy hi (by omega), le16_copy (by omega) (by omega), le16_copy (by omega) (by omega),
    Nat.add_assoc 4 i 2, Nat.add_assoc 4 i 4]

/-- **What the MIC is taken over**, where the last eight bytes of the copy are zeroed. -/
theorem readBytes_aadAndBody (hfits : wlanHdrA3Len + 8 ≤ f.pktLen) :
    readBytes (f.aadAndBody (bipAadSize + (f.pktLen - wlanHdrA3Len) - 8)) 0
      (bipAadSize + (f.pktLen - wlanHdrA3Len)) = f.protectedBytes := by
  obtain ⟨n, hn⟩ : ∃ n, f.pktLen - wlanHdrA3Len = n + 8 := ⟨_, (Nat.sub_add_cancel (by omega)).symm⟩
  have hlen : (bipAad f.rxData).length = bipAadSize := rfl
  have hmic : bipAadSize + (n + 8) - 8 = bipAadSize + n := by omega
  have hfront := readBytes_overwrite (overwrite f.copy (bipAadSize + n) (List.replicate 8 0)) 0
    (bipAad f.rxData)
  rw [hlen] at hfront
  have hbody : readBytes (f.aadAndBody (bipAadSize + n)) bipAadSize n
      = readBytes f.rxData wlanHdrA3Len n := by
    refine readBytes_shift 4 (fun x hx hxn => ?_) rfl
    unfold aadAndBody
    rw [overwrite_of_le (by omega), overwrite_of_lt hxn]
    exact copy_eq hx (by unfold oriLen bodyLen; omega)
  have hzero : readBytes (f.aadAndBody (bipAadSize + n)) (bipAadSize + n) 8
      = List.replicate 8 0 := by
    have hback := readBytes_overwrite f.copy (bipAadSize + n) (List.replicate 8 0)
    rw [List.length_replicate] at hback
    refine Eq.trans (readBytes_congr fun x hx hxn => ?_) hback
    unfold aadAndBody
    rw [overwrite_of_le (by omega)]
  unfold protectedBytes
  rw [hn, hmic, readBytes_add, Nat.zero_add, readBytes_add, hbody, hzero, Nat.add_sub_cancel,
    ← List.append_assoc]
  exact congrArg (fun l => l ++ _ ++ _) hfront

end BipFrame

/-! ## 6. One call -/

section Call

variable {k : BipKeys} {ipnRx p len : Nat} {f : BipFrame}

/-- What is done with an MME that is found. -/
theorem verifyMme_cases (k : BipKeys) (ipnRx : Nat) (f : BipFrame) (p len : Nat) :
    let out := verifyMme k ipnRx f p len
    let mic := p + 2 + len - 8
    out.res = some .fail ∧ out.ipnRx = ipnRx ∨
      out.res = some .success ∧ out.ipnRx = le48 f.copy (p + 4) ∧
        ipnRx ≤ le48 f.copy (p + 4) ∧ le16 f.copy (p + 2) = k.dot11wBIPKeyid ∧
        ∃ mac, k.omac1Aes128 (k.dot11wBIPKey k.dot11wBIPKeyid)
          (readBytes (f.aadAndBody mic) 0 (bipAadSize + (f.pktLen - wlanHdrA3Len))) = some mac ∧
        mac.take 8 = readBytes f.rxData (f.pktLen - 8) 8 := by
  dsimp only
  unfold verifyMme
  dsimp only
  split_ifs with hold hkey
  · exact .inl ⟨rfl, rfl⟩
  · exact .inl ⟨rfl, rfl⟩
  · cases hmac : k.omac1Aes128 (k.dot11wBIPKey k.dot11wBIPKeyid)
        (readBytes (f.aadAndBody (p + 2 + len - 8)) 0
          (bipAadSize + (f.pktLen - wlanHdrA3Len))) with
    | none => exact .inl ⟨rfl, rfl⟩
    | some mac =>
      dsimp only
      split_ifs with heq
      · exact .inr ⟨rfl, rfl, Nat.le_of_not_lt hold, not_not.mp hkey, mac, rfl, heq⟩
      · exact .inl ⟨rfl, rfl⟩

/-- What of the copy is touched for an MME: more than its packet number only if that is not too old,
and more than its key id only if it is the right one. -/
theorem verifyMme_touches {r : Nat × Nat} (h : r ∈ (verifyMme k ipnRx f p len).copyTouches) :
    r = (p + 4, 6) ∨ r = (p + 2, 2) ∨ ipnRx ≤ le48 f.copy (p + 4) ∧
      le16 f.copy (p + 2) = k.dot11wBIPKeyid ∧ (r = (p + 2 + len - 8, 8) ∨ r = (0, bipAadSize) ∨
        r = (0, bipAadSize + (f.pktLen - wlanHdrA3Len))) := by
  unfold verifyMme at h
  dsimp only at h
  split_ifs at h with hold hkey
  · exact .inl (List.mem_singleton.mp h)
  · simp only [List.mem_cons, List.not_mem_nil, or_false] at h
    exact h.imp_right .inl
  · have hmem : r ∈ [(p + 4, 6), (p + 2, 2), (p + 2 + len - 8, 8), (0, bipAadSize),
        (0, bipAadSize + (f.pktLen - wlanHdrA3Len))] := by
      split at h
      · exact h
      · split_ifs at h <;> exact h
    simp only [List.mem_cons, List.not_mem_nil, or_false] at hmem
    exact hmem.imp_right (.imp_right fun hr => ⟨Nat.le_of_not_lt hold, not_not.mp hkey, hr⟩)

theorem verifyMme_reads {r : Nat × Nat} (h : r ∈ (verifyMme k ipnRx f p len).frameReads) :
    r = (0, 2) ∨ r = (4, 18) ∨ r = (f.pktLen - 8, 8) := by
  have hmem : r ∈ [(0, 2), (4, 18), (f.pktLen - 8, 8)] := by
    unfold verifyMme at h
    dsimp only at h
    split_ifs at h
    · exact absurd h List.not_mem_nil
    · exact absurd h List.not_mem_nil
    · split at h
      · exact List.mem_append_left [(f.pktLen - 8, 8)] h
      · split_ifs at h <;> exact h
  simpa only [List.mem_cons, List.not_mem_nil, or_false] using hmem

/-- A call that is not turned down at once: what it finds decides. -/
theorem rtwBipVerify_of_copy (halloc : f.zmalloc = true) (hlen : wlanHdrA3Len ≤ f.pktLen) :
    (∃ p len, rtwGetIe f.copy bipAadSize mmeIe f.bodyLen = some (p, len) ∧
      (rtwBipVerify k ipnRx f).res = (verifyMme k ipnRx f p len).res ∧
      (rtwBipVerify k ipnRx f).ipnRx = (verifyMme k ipnRx f p len).ipnRx) ∨
    (rtwBipVerify k ipnRx f).res = some .handled ∧ (rtwBipVerify k ipnRx f).ipnRx = ipnRx := by
  have hbody : ¬ f.bodyLen < 0 := by
    unfold BipFrame.bodyLen
    omega
  unfold rtwBipVerify
  rw [if_neg (by rw [halloc]; decide), if_neg hbody]
  cases hie : rtwGetIe f.copy bipAadSize mmeIe f.bodyLen with
  | none => exact .inr ⟨rfl, rfl⟩
  | some r => exact .inl ⟨r.1, r.2, rfl, rfl, rfl⟩

/-- A call that is turned down at once. -/
theorem rtwBipVerify_of_failed (halloc : f.zmalloc = false) :
    rtwBipVerify k ipnRx f = ⟨some .fail, ipnRx, [f.oriLen], [], []⟩ := by
  unfold rtwBipVerify
  rw [if_pos halloc]

/-- What a call touches. -/
theorem rtwBipVerify_touches {r : Nat × Nat} (hlen : wlanHdrA3Len ≤ f.pktLen)
    (h : r ∈ (rtwBipVerify k ipnRx f).copyTouches) :
    r = (bipAadSize, f.pktLen - wlanHdrA3Len) ∨
      (∃ p ∈ ieHeads f.copy mmeIe f.bodyLen f.bodyLen.toNat bipAadSize 0, r = (p, 2)) ∨
      ∃ p len, rtwGetIe f.copy bipAadSize mmeIe f.bodyLen = some (p, len) ∧
        r ∈ (verifyMme k ipnRx f p len).copyTouches := by
  cases halloc : f.zmalloc with
  | false => rw [rtwBipVerify_of_failed halloc] at h; exact absurd h List.not_mem_nil
  | true =>
    have hbody : f.bodyLen.toNat = f.pktLen - wlanHdrA3Len := by
      unfold BipFrame.bodyLen
      omega
    unfold rtwBipVerify at h
    rw [if_neg (by rw [halloc]; decide), if_neg (by unfold BipFrame.bodyLen; omega)] at h
    rw [hbody]
    rcases List.mem_append.mp h with h | h
    · rcases List.mem_cons.mp h with h | h
      · exact .inl h
      · obtain ⟨p, hp, rfl⟩ := List.mem_map.mp h
        exact .inr (.inl ⟨p, hp, rfl⟩)
    · cases hie : rtwGetIe f.copy bipAadSize mmeIe f.bodyLen with
      | none => rw [hie] at h; exact absurd h List.not_mem_nil
      | some q => rw [hie] at h; exact .inr (.inr ⟨q.1, q.2, rfl, h⟩)

/-- What a call reads of the frame: its own bytes, and the last eight only of one with an MME. -/
theorem rtwBipVerify_reads {r : Nat × Nat} (h : r ∈ (rtwBipVerify k ipnRx f).frameReads) :
    r = (wlanHdrA3Len, f.pktLen - wlanHdrA3Len) ∨ r = (0, 2) ∨ r = (4, 18) ∨
      r = (f.pktLen - 8, 8) := by
  unfold rtwBipVerify at h
  split_ifs at h
  · exact absurd h List.not_mem_nil
  · exact absurd h List.not_mem_nil
  · rcases List.mem_cons.mp h with h | h
    · exact .inl h
    · cases hie : rtwGetIe f.copy bipAadSize mmeIe f.bodyLen with
      | none => rw [hie] at h; exact absurd h List.not_mem_nil
      | some q => rw [hie] at h; exact .inr (verifyMme_reads h)

/-- The sizes a call computes. -/
theorem rtwBipVerify_sizes {n : Int} (h : n ∈ (rtwBipVerify k ipnRx f).sizes) :
    n = f.oriLen ∨ n = f.bodyLen := by
  unfold rtwBipVerify at h
  split_ifs at h
  · exact .inl (List.mem_singleton.mp h)
  · simpa using h
  · simpa using h

end Call

/-! ## 7. Clean frames -/

namespace BipState

variable {k : BipKeys} {t : BipState} {f : BipFrame}

/-- **A clean frame that is let through** ends in the MME that was found. -/
theorem Clean.success (hc : Clean k t f) (h : (rtwBipVerify k t.ipnRx f).res = some .success) :
    f.AuthenticMme k ∧ (rtwBipVerify k t.ipnRx f).ipnRx = f.ipn ∧ t.ipnRx ≤ f.ipn ∧
      (t.accepted ≠ [] → f.ipn ≠ t.ipnRx) := by
  have halloc : f.zmalloc = true := by
    cases hz : f.zmalloc with
    | true => rfl
    | false => rw [rtwBipVerify_of_failed hz] at h; exact absurd h (by simp)
  rcases @rtwBipVerify_of_copy k t.ipnRx f halloc hc.header with
    ⟨p, len, hfound, hres, hipn⟩ | ⟨hres, -⟩
  · rw [hres] at h
    rcases verifyMme_cases k t.ipnRx f p len with ⟨hfail, -⟩ | ⟨-, hnew, hage, hkey, mac, hmac, heq⟩
    · rw [hfail] at h
      exact absurd h (by simp)
    · obtain ⟨hend, hlen, hfresh⟩ := (hc.mme p len hfound).last hage hkey
      obtain ⟨-, hfirst, hkind, hsize⟩ := rtwGetIe_found hfound
      have hp : p + 22 = f.pktLen := by
        unfold BipFrame.oriLen BipFrame.bodyLen wlanHdrA3Len bipAadSize at hend
        omega
      have h20 : 20 ≤ p := hfirst
      have hnum : le48 f.copy (p + 4) = f.ipn := by
        rw [BipFrame.le48_copy (by unfold bipAadSize; omega) (by omega)]
        exact congrArg (le48 f.rxData) (by omega)
      have hbytes : readBytes (f.aadAndBody (p + 2 + len - 8)) 0
          (bipAadSize + (f.pktLen - wlanHdrA3Len)) = f.protectedBytes := by
        rw [← BipFrame.readBytes_aadAndBody (by unfold wlanHdrA3Len; omega)]
        congr 2
        unfold bipAadSize wlanHdrA3Len
        omega
      rw [hbytes] at hmac
      rw [hnum] at hnew hage hfresh
      refine ⟨⟨by unfold wlanHdrA3Len; omega, ⟨?_, ?_⟩, ?_, mac, hmac, heq⟩,
        hipn.trans hnew, hage, hfresh⟩
      · rw [← hkind, BipFrame.copy_eq hfirst (by omega)]
        exact congrArg f.rxData (by omega)
      · rw [hlen, BipFrame.copy_eq (by omega) (by omega)] at hsize
        rw [show f.pktLen - 17 = 4 + (p + 1) by omega]
        exact UInt8.toNat_inj.mp hsize.symm
      · rw [← hkey, BipFrame.le16_copy (by omega) (by omega)]
        exact congrArg (le16 f.rxData) (by omega)
  · rw [hres] at h
    exact absurd h (by simp)

/-- A clean frame that is not let through leaves the packet number. -/
theorem Clean.rejected (hc : Clean k t f)
    (h : (rtwBipVerify k t.ipnRx f).res ≠ some .success) :
    (rtwBipVerify k t.ipnRx f).ipnRx = t.ipnRx := by
  cases halloc : f.zmalloc with
  | false => rw [rtwBipVerify_of_failed halloc]
  | true =>
    rcases @rtwBipVerify_of_copy k t.ipnRx f halloc hc.header with
      ⟨p, len, -, hres, hipn⟩ | ⟨-, hipn⟩
    · rcases verifyMme_cases k t.ipnRx f p len with ⟨-, hsame⟩ | ⟨hsucc, -⟩
      · exact hipn.trans hsame
      · exact absurd (hres.trans hsucc) h
    · exact hipn

/-- What a clean frame makes the code touch of the copy lies in it. -/
theorem Clean.copy (hc : Clean k t f) {r : Nat × Nat}
    (h : r ∈ (rtwBipVerify k t.ipnRx f).copyTouches) : ((r.1 + r.2 : Nat) : Int) ≤ f.oriLen := by
  have hheader : 24 ≤ f.pktLen := hc.header
  have hori : f.oriLen = (20 + (f.pktLen - 24) : Nat) := by
    unfold BipFrame.oriLen BipFrame.bodyLen wlanHdrA3Len bipAadSize
    omega
  rcases rtwBipVerify_touches hc.header h with rfl | ⟨p, hp, rfl⟩ | ⟨p, len, hfound, hmem⟩
  · exact Int.le_of_eq hori.symm
  · exact hc.heads p hp
  · have hmme := hc.mme p len hfound
    have hinside := hmme.inside
    rcases verifyMme_touches hmem with rfl | rfl | ⟨hage, hkey, hr⟩
    · exact hinside
    · dsimp only
      omega
    · obtain ⟨hend, hlen, -⟩ := hmme.last hage hkey
      rcases hr with rfl | rfl | rfl
      · dsimp only
        omega
      · rw [hori]
        unfold bipAadSize
        dsimp only
        omega
      · rw [hori]
        unfold bipAadSize wlanHdrA3Len
        dsimp only
        omega

/-- **One call on a clean frame** keeps to what is asked. -/
theorem Clean.protects (hc : Clean k t f) (hold : ∀ g ∈ t.accepted, g.ipn ≤ t.ipnRx) :
    Protects k t f where
  accepted h := by
    obtain ⟨hauth, -, hage, hfresh⟩ := hc.success h
    refine ⟨hauth, fun g hg => ?_⟩
    have hne := hfresh (List.ne_nil_of_mem hg)
    have := hold g hg
    omega
  rejected := hc.rejected
  sizes n hn := by
    have hheader : 24 ≤ f.pktLen := hc.header
    have hlt := f.pktLen_lt
    rcases rtwBipVerify_sizes hn with rfl | rfl
    all_goals
      simp only [BipFrame.oriLen, BipFrame.bodyLen, wlanHdrA3Len, bipAadSize]
      omega
  frame r hr := by
    have hheader : 24 ≤ f.pktLen := hc.header
    rcases rtwBipVerify_reads hr with rfl | rfl | rfl | rfl
    all_goals
      simp only [wlanHdrA3Len]
      omega
  copy _ hr := hc.copy hr

/-- What is true of the frames let through: each is protected, each is newer than the ones before,
and none is newer than the packet number kept. -/
structure Inv (k : BipKeys) (t : BipState) : Prop where
  authentic : ∀ f ∈ t.accepted, f.AuthenticMme k
  newer : t.accepted.Pairwise fun f g => g.ipn < f.ipn
  kept : ∀ f ∈ t.accepted, f.ipn ≤ t.ipnRx

theorem Inv.receive (h : Inv k t) (hc : Clean k t f) : Inv k (t.receive k f) := by
  by_cases hres : (rtwBipVerify k t.ipnRx f).res = some .success
  · have hstep : t.receive k f = ⟨f.ipn, f :: t.accepted⟩ := by
      unfold BipState.receive validate80211wMgmt
      dsimp only
      rw [(hc.success hres).2.1, hres]
      rfl
    obtain ⟨hauth, hnewer⟩ := (hc.protects h.kept).accepted hres
    rw [hstep]
    exact
      { authentic := List.forall_mem_cons.mpr ⟨hauth, h.authentic⟩
        newer := List.pairwise_cons.mpr ⟨hnewer, h.newer⟩
        kept := List.forall_mem_cons.mpr ⟨Nat.le_refl _, fun g hg => Nat.le_of_lt (hnewer g hg)⟩ }
  · have hstep : t.receive k f = t := by
      unfold BipState.receive validate80211wMgmt
      dsimp only
      rw [hc.rejected hres, decide_eq_false hres]
      rfl
    rw [hstep]
    exact h

theorem Run.inv (h : Run k (Clean k) t) : Inv k t := by
  induction h with
  | start => exact ⟨nofun, .nil, nofun⟩
  | receive f _ hc ih => exact ih.receive hc

/-! ## 8. What the code keeps -/

/-- **Group-addressed management frames are protected** in every run of clean frames: what is let
through is protected and newer than all before it, and each call keeps to what is asked. -/
theorem bip_protects (k : BipKeys) {t : BipState} (h : Run k (Clean k) t) :
    (∀ f ∈ t.accepted, f.AuthenticMme k) ∧
    t.accepted.Pairwise (fun f g => g.ipn < f.ipn) ∧
    ∀ f, Clean k t f → Protects k t f :=
  ⟨h.inv.authentic, h.inv.newer, fun _ hc => hc.protects h.inv.kept⟩

/-- A deauthentication to all stations, reason 7, protected with key 4 and packet number 1. -/
def leaveAll : BipFrame where
  rxData i := [0xC0, 0, 0, 0, 255, 255, 255, 255, 255, 255, 2, 0, 0, 0, 0, 1, 2, 0, 0, 0, 0, 1,
    16, 0, 7, 0, 76, 16, 4, 0, 1, 0, 0, 0, 0, 0, 41, 247, 210, 166, 138, 12, 106, 102].getD i 0
  pktLen := 44
  zmalloc := true
  heap _ := 0
  pktLen_lt := by decide
  group := by decide
  leaves := by decide

/-- Key 4 is the bytes 0 to 15; the result is AES-CMAC's for the frame above. -/
def leaveKeys : BipKeys where
  dot11wBIPKeyid := 4
  dot11wBIPKey _ := [0, 1, 2, 3, 4, 5, 6, 7, 8, 9, 10, 11, 12, 13, 14, 15]
  omac1Aes128 _ _ :=
    some [41, 247, 210, 166, 138, 12, 106, 102, 213, 131, 67, 229, 144, 1, 18, 198]

theorem leaveAll_found :
    rtwGetIe leaveAll.copy bipAadSize mmeIe leaveAll.bodyLen = some (22, 16) := by
  decide

theorem leaveAll_clean : Clean leaveKeys ⟨0, []⟩ leaveAll where
  header := by decide
  heads := by decide
  mme p len h := by
    rw [leaveAll_found] at h
    cases h
    exact ⟨by decide, fun _ _ => ⟨by decide, rfl, fun hne => absurd rfl hne⟩⟩

theorem bip_protects_leaveAll :
    let t := receive leaveKeys ⟨0, []⟩ leaveAll
    t.accepted.length = 1 ∧ (∀ f ∈ t.accepted, f.AuthenticMme leaveKeys) ∧
      t.accepted.Pairwise (fun f g => g.ipn < f.ipn) ∧
      ∀ f, Clean leaveKeys t f → Protects leaveKeys t f :=
  ⟨by decide, bip_protects leaveKeys (.receive leaveAll .start leaveAll_clean)⟩

/-- Not so in every run: a frame that was let through is let through again, for its packet number is
not below the one kept. -/
theorem bip_replayed : ¬ ∀ k t, Run k (fun _ _ => True) t → ∀ f, Protects k t f := by
  intro hall
  have hrun : Run leaveKeys (fun _ _ => True) (receive leaveKeys ⟨0, []⟩ leaveAll) :=
    .receive leaveAll .start trivial
  have hagain : (rtwBipVerify leaveKeys (receive leaveKeys ⟨0, []⟩ leaveAll).ipnRx leaveAll).res
      = some .success := by decide
  have hmem : leaveAll ∈ (receive leaveKeys ⟨0, []⟩ leaveAll).accepted := by
    have hfirst : (validate80211wMgmt leaveKeys 0 leaveAll).1 = true := by decide
    unfold receive
    dsimp only
    rw [hfirst]
    exact List.mem_singleton.mpr rfl
  exact Nat.lt_irrefl _ (((hall _ _ hrun leaveAll).accepted hagain).2 leaveAll hmem)

end BipState

end Rtl8723bs
