/-
# Protected management frames

With a BIP key installed a unicast deauthentication, disassociation or action frame that has its
privacy bit set is decrypted while it is validated: `validate_80211w_mgmt` calls `decryptor`, moves
the body over the IV and shortens the frame.  `decryptor` gives a frame back that it cannot decrypt.

What is done to the frame is kept as a list, one entry each time it is looked at or written and each
time it is given back to the free pool.  `mgmt_given_back_iff` says for which frames the list is in
order and the body is the one that was sent.
-/
import Rtl8723bs.Rx.Bip
import Rtl8723bs.Rx.RecvPoolRun
import Rtl8723bs.Rx.DefragJoin

namespace Rtl8723bs

namespace MgmtProtect

/-! ## 1. Frames and what is outside -/

/-- A received management frame, with `pkt_len`. -/
structure MgmtFrame where
  frame : RecvFrame
  pktLen : Nat
  pktLen_lt : pktLen < 2 ^ 16
  mgmt : getFrameType frame.mem = wifiMgtType
  inside : frame.rxData + pktLen ≤ frame.buf.length

/-- What a call meets with.  `rtw_aes_decrypt` works in place and leaves the header as it is. -/
structure MgmtEnv where
  recv : RecvEnv
  binstallBIPkey : Bool
  /-- `rtw_zmalloc` gets so many bytes. -/
  zmalloc : Nat → Bool
  bip : BipKeys
  ipnRx : Nat
  heap : Mem
  bpairwiseKeyInstalled : StaId → Bool
  aes_length : ∀ f, (recv.aesDecrypt f).2.length = f.buf.length
  aes_header : ∀ f x, x < f.rxData + f.attrib.hdrlen →
    (recv.aesDecrypt f).2.getD x 0 = f.buf.getD x 0

/-- The frame is looked at or written, or it is given back. -/
inductive Touch
  | use
  | free
deriving DecidableEq

def wifiDisassoc : Nat := 0xA0
def wifiDeauth : Nat := 0xC0
def wifiAction : Nat := 0xD0

variable (env : MgmtEnv) (f : MgmtFrame)

namespace MgmtFrame

/-- The frame with the attributes from its header. -/
def read : RecvFrame := readFrameControl f.frame

def subtype : Nat := getFrameSubType f.frame.mem

/-- `IS_MCAST(GetAddr1Ptr(ptr))`. -/
def group : Bool := isMcast (getAddr1 f.frame.mem)

/-- `WIFI_DEAUTH` or `WIFI_DISASSOC`. -/
def leaves : Bool := f.subtype = wifiDeauth ∨ f.subtype = wifiDisassoc

/-- The attributes are set for the decryption. -/
def marked : RecvFrame :=
  { f.read with attrib := { f.read.attrib with
      bdecrypted := 0, encrypt := encAes, hdrlen := wlanHdrA3Len
      ivLen := (setIceIvLen encAes).1, icvLen := (setIceIvLen encAes).2
      ra := getAddr1 f.frame.mem, ta := getAddr2 f.frame.mem } }

/-- `data_len`, of 32 bits. -/
def dataLen : Nat :=
  (f.pktLen + 2 ^ 32 - f.marked.attrib.hdrlen - f.marked.attrib.ivLen - f.marked.attrib.icvLen) %
    2 ^ 32

end MgmtFrame

/-! ## 2. The functions -/

/-- Is the frame decrypted? -/
def decrypts : Bool :=
  env.binstallBIPkey && (f.read.attrib.privacy ≠ 0 && !f.group &&
    (f.leaves || decide (f.subtype = wifiAction)))

/-- What `validate_80211w_mgmt` leaves: whether the frame passes, the frame, `pkt_len`, and what was
done to the frame. -/
structure MgmtCheck where
  passes : Bool
  frame : RecvFrame
  pktLen : Nat
  touches : List Touch

/-- The categories of action frames that need not be protected: public, HT, unprotected WNM, self
protected and P2P. -/
def notRobust : List UInt8 := [4, 7, 11, 15, 0x7f]

/-- An unprotected unicast frame, or a group-addressed action frame: one that would have to be
protected is dropped. -/
def passesUnprotected : Bool :=
  let psta := rtwGetStainfo env.recv.rx.stas (getAddr2 f.frame.mem)
  if f.subtype = wifiAction ∧ psta.any env.bpairwiseKeyInstalled then
    f.frame.mem wlanHdrA3Len ∈ notRobust
  else !f.leaves

/-- The branch that decrypts.  `ptr` stays where it was, whether there still is a frame or not. -/
def decryptMgmt : MgmtCheck :=
  let g := f.marked
  if !env.zmalloc f.dataLen then ⟨false, g, f.pktLen, [.use]⟩
  else
    match decryptor env.recv g with
    | (res, d) =>
      let body := readBytes d.mem (d.attrib.hdrlen + d.attrib.ivLen) f.dataLen
      ⟨res ≠ .fail, d.memcpy (d.rxData + d.attrib.hdrlen) body,
        (f.pktLen + 2 ^ 16 - d.attrib.ivLen - d.attrib.icvLen) % 2 ^ 16,
        .use :: (if res = .fail then [.free, .use] else [.use])⟩

/-- `validate_80211w_mgmt`. -/
def validate80211wMgmt : MgmtCheck :=
  if !env.binstallBIPkey then ⟨true, f.read, f.pktLen, [.use]⟩
  else if decrypts env f then decryptMgmt env f
  else if h : f.group = true ∧ (f.subtype = wifiDeauth ∨ f.subtype = wifiDisassoc) then
    let bip : BipFrame :=
      { rxData := f.frame.mem, pktLen := f.pktLen
        zmalloc := env.zmalloc ((f.pktLen + 2 ^ 32 - 4) % 2 ^ 32), heap := env.heap
        pktLen_lt := f.pktLen_lt, group := h.1, leaves := h.2 }
    ⟨(Rtl8723bs.validate80211wMgmt env.bip env.ipnRx bip).1, f.read, f.pktLen, [.use]⟩
  else ⟨passesUnprotected env f, f.read, f.pktLen, [.use]⟩

/-- `validate_recv_mgnt_frame`: what `recvframe_chk_defrag` frees, and `mgt_dispatcher` on the frame
it returns.  That may be another than this one. -/
def validateRecvMgntFrame (q : StaId → List RecvFrame) (g : RecvFrame) : List Touch :=
  let r := recvframeChkDefrag env.recv.mic env.recv.rx.stas q g
  .use :: (List.replicate ((r.freed.map (·.id)).count g.id) .free ++
    if r.ret.any (·.id = g.id) then [.use] else [])

/-- `validate_recv_frame`. -/
def validateRecvFrame (q : StaId → List RecvFrame) : List Touch :=
  if frameVersion f.frame ≠ 0 then [.use]
  else
    let c := validate80211wMgmt env f
    .use :: (c.touches ++ if c.passes then validateRecvMgntFrame env q c.frame else [])

/-- `recv_func_prehandle`, outside the test mode.  The result for a management frame is always
`_FAIL`. -/
def recvFuncPrehandle (q : StaId → List RecvFrame) : List Touch :=
  validateRecvFrame env f q ++ [.free]

/-! ## 3. What is asked of them -/

/-- **What is asked for a frame**: it is given back once and not touched after that, the body of one
that was decrypted stands behind the header, without IV and MIC, and no length wraps. -/
structure GivenBack (q : StaId → List RecvFrame) : Prop where
  once : (recvFuncPrehandle env f q).count .free = 1
  untouched : (recvFuncPrehandle env f q).Pairwise fun a b => ¬(a = .free ∧ b = .use)
  body : frameVersion f.frame = 0 → decrypts env f = true →
    (validate80211wMgmt env f).passes = true →
    (validate80211wMgmt env f).pktLen + 16 = f.pktLen ∧
    readBytes (validate80211wMgmt env f).frame.mem wlanHdrA3Len
        ((validate80211wMgmt env f).pktLen - wlanHdrA3Len) =
      readBytes (decryptor env.recv f.marked).2.mem (wlanHdrA3Len + 8) (f.pktLen - 40)
  noWrap : frameVersion f.frame = 0 → decrypts env f = true → f.dataLen + 40 = f.pktLen

/-- The frame as `rtw_aes_decrypt` gets it. -/
def MgmtFrame.keyed : RecvFrame :=
  { f.marked with attrib := { f.marked.attrib with
      keyIndex := (f.frame.mem (wlanHdrA3Len + 3)).toNat / 64 % 4 } }

/-- The last fragment of a management frame. -/
def lastFragment : Bool := !getMFrag f.frame.mem && decide (getFragNum f.frame.mem ≠ 0)

/-- **The frames that are handled well.**  One that is to be decrypted has room for IV and MIC, and
is decrypted, if there is memory for it, and is no last fragment.  One that passes without is no
last fragment either, and has no bad MIC. -/
def Sound : Prop :=
  frameVersion f.frame = 0 →
    if decrypts env f then
      40 ≤ f.pktLen ∧ (env.zmalloc (f.pktLen - 40) = true →
        (env.recv.aesDecrypt f.keyed).1 ≠ .fail ∧ lastFragment f = false)
    else
      env.binstallBIPkey = false ∨ passesUnprotected env f = true →
        lastFragment f = false ∧ (getMFrag f.frame.mem = false → getPrivacy f.frame.mem = true →
          (recvframeChkmic env.recv.mic env.recv.rx.stas f.read).1 ≠ .fail)

/-! ## 4. What `recvframe_chk_defrag` frees -/

section Defrag

variable {k : MicKeys} {t : StaTable} {q : StaId → List RecvFrame} {g : RecvFrame}

/-- A last fragment, or a frame whose MIC is bad. -/
def Dropped (k : MicKeys) (t : StaTable) (g : RecvFrame) : Prop :=
  g.attrib.mfrag = 0 ∧
    (g.attrib.fragNum ≠ 0 ∨ g.attrib.privacy ≠ 0 ∧ (recvframeChkmic k t g).1 = .fail)

/-- A last fragment is among the frames that joining frees. -/
theorem mem_recvframeDefrag (l : List RecvFrame) (hg : g.attrib.fragNum ≠ 0) :
    g ∈ (recvframeDefrag (l ++ [g])).2 := by
  cases l with
  | nil => simp [recvframeDefrag, hg]
  | cons p l =>
    simp only [List.cons_append, recvframeDefrag]
    split
    · simp
    · split <;> simp

theorem mem_freed_of_last {i : StaId} (howner : defragOwner t g = some i)
    (hm : g.attrib.mfrag = 0) (hg : g.attrib.fragNum ≠ 0) :
    g ∈ (recvframeChkDefrag k t q g).freed := by
  have hqueue : g ∈ (chkDefragQueue t q g).freed := by
    simpa [chkDefragQueue, hm, hg, howner] using mem_recvframeDefrag (q i) hg
  rcases recvframeChkDefrag_eq k t q g with heq | ⟨p, p', -, -, -, heq | ⟨-, -, heq⟩⟩
  · rwa [heq]
  · rwa [heq]
  · rw [heq]
    exact List.mem_append_left _ hqueue

/-- A fragment with more to come has the fragments of its queue freed, or none. -/
theorem freed_of_more {i : StaId} (howner : defragOwner t g = some i) (hm : g.attrib.mfrag = 1) :
    ∀ p ∈ (recvframeChkDefrag k t q g).freed, p ∈ q i := by
  have hqueue : (chkDefragQueue t q g).ret = none ∧
      ∀ p ∈ (chkDefragQueue t q g).freed, p ∈ q i := by
    unfold chkDefragQueue
    rw [if_pos hm, howner]
    dsimp only
    split
    · exact ⟨rfl, fun p hp => hp⟩
    · exact ⟨rfl, nofun⟩
  rcases recvframeChkDefrag_eq k t q g with heq | ⟨p, p', hret, -⟩
  · rw [heq]
    exact hqueue.2
  · rw [hqueue.1] at hret
    cases hret

/-- A frame that is no fragment and has a bad MIC is freed. -/
theorem freed_of_badMic (hm : g.attrib.mfrag = 0) (hz : g.attrib.fragNum = 0)
    (hpriv : g.attrib.privacy ≠ 0) (hmic : (recvframeChkmic k t g).1 = .fail) :
    ∃ p ∈ (recvframeChkDefrag k t q g).freed, p.id = g.id := by
  have hqueue : chkDefragQueue t q g = ⟨some g, q, []⟩ := by simp [chkDefragQueue, hm, hz]
  refine ⟨(recvframeChkmic k t g).2, ?_, recvframeChkmic_id k t g⟩
  unfold recvframeChkDefrag
  simp only [hqueue]
  rw [if_pos hpriv]
  split
  · next g' hres => simp [hres]
  · next hne hres =>
    rw [hres] at hmic
    exact absurd hmic hne

/-- **When `validate_recv_mgnt_frame` gives a frame back.** -/
theorem free_mem_validateRecvMgntFrame (env : MgmtEnv) {i : StaId}
    (howner : defragOwner env.recv.rx.stas g = some i) (hm : g.attrib.mfrag ≤ 1)
    (hq : ∀ i, ∀ p ∈ q i, p.id ≠ g.id) :
    .free ∈ validateRecvMgntFrame env q g ↔ Dropped env.recv.mic env.recv.rx.stas g := by
  have hmem : .free ∈ validateRecvMgntFrame env q g ↔
      ∃ p ∈ (recvframeChkDefrag env.recv.mic env.recv.rx.stas q g).freed, p.id = g.id := by
    have huse : ∀ b : Bool, .free ∉ if b then [Touch.use] else [] := by
      intro b
      cases b <;> simp
    simp only [validateRecvMgntFrame, List.mem_cons, reduceCtorEq, false_or, List.mem_append,
      List.mem_replicate, and_true, huse, or_false]
    rw [← Nat.pos_iff_ne_zero, List.count_pos_iff, List.mem_map]
  rw [hmem]
  constructor
  · rintro ⟨p, hp, hid⟩
    by_cases hmore : g.attrib.mfrag = 1
    · exact absurd hid (hq i p (freed_of_more howner hmore p hp))
    · have hzero : g.attrib.mfrag = 0 := by omega
      by_contra hnot
      obtain ⟨hz, hmic⟩ : g.attrib.fragNum = 0 ∧ (g.attrib.privacy ≠ 0 →
          (recvframeChkmic env.recv.mic env.recv.rx.stas g).1 ≠ .fail) := by
        simp only [Dropped, hzero, true_and, not_or, not_not, not_and] at hnot
        exact hnot
      have hfreed := (recvframeChkDefrag_whole env.recv.mic env.recv.rx.stas q hzero hz hmic).2
      rw [hfreed] at hp
      cases hp
  · rintro ⟨hzero, hlast | ⟨hpriv, hmic⟩⟩
    · exact ⟨g, mem_freed_of_last howner hzero hlast, rfl⟩
    · by_cases hz : g.attrib.fragNum = 0
      · exact freed_of_badMic hzero hz hpriv hmic
      · exact ⟨g, mem_freed_of_last howner hzero hz, rfl⟩

end Defrag

/-! ## 5. The decrypted frame -/

variable {env f} {q : StaId → List RecvFrame}

/-- The frame after `decryptor`. -/
structure Decrypted (env : MgmtEnv) (f : MgmtFrame) (d : RecvFrame) : Prop where
  id : d.id = f.frame.id
  rxData : d.rxData = f.frame.rxData
  buf : d.buf = (env.recv.aesDecrypt f.keyed).2
  hdrlen : d.attrib.hdrlen = wlanHdrA3Len
  ivLen : d.attrib.ivLen = 8
  icvLen : d.attrib.icvLen = 8
  encrypt : d.attrib.encrypt = encAes
  mfrag : d.attrib.mfrag = (getMFrag f.frame.mem).toNat
  fragNum : d.attrib.fragNum = getFragNum f.frame.mem

theorem decryptor_marked (env : MgmtEnv) (f : MgmtFrame) :
    Decrypted env f (decryptor env.recv f.marked).2 ∧
      ((decryptor env.recv f.marked).1 = .fail ↔ (env.recv.aesDecrypt f.keyed).1 = .fail) := by
  have hsw : swDecryptFrame env.recv f.keyed =
      ((env.recv.aesDecrypt f.keyed).1,
        { f.keyed with buf := (env.recv.aesDecrypt f.keyed).2 }) := rfl
  have hcipher : f.marked.attrib.encrypt ≠ 0 := show encAes ≠ 0 by decide
  rw [decryptor_of_swDecryptFrame hcipher rfl hsw]
  cases hres : (env.recv.aesDecrypt f.keyed).1 with
  | fail => exact ⟨⟨rfl, rfl, rfl, rfl, rfl, rfl, rfl, rfl, rfl⟩, by simp⟩
  | success => exact ⟨⟨rfl, rfl, rfl, rfl, rfl, rfl, rfl, rfl, rfl⟩, by simp⟩
  | handled => exact ⟨⟨rfl, rfl, rfl, rfl, rfl, rfl, rfl, rfl, rfl⟩, by simp⟩

theorem dataLen_mod (f : MgmtFrame) : f.dataLen = (f.pktLen + 2 ^ 32 - 40) % 2 ^ 32 := by
  have h : f.dataLen = (f.pktLen + 2 ^ 32 - wlanHdrA3Len - (setIceIvLen encAes).1 -
      (setIceIvLen encAes).2) % 2 ^ 32 := rfl
  have hlens : wlanHdrA3Len + ((setIceIvLen encAes).1 + (setIceIvLen encAes).2) = 40 := by decide
  rw [h, Nat.sub_sub, Nat.sub_sub, hlens]

/-- A frame with room for IV and MIC. -/
theorem dataLen_eq (h : 40 ≤ f.pktLen) : f.dataLen = f.pktLen - 40 := by
  have hlt := f.pktLen_lt
  rw [dataLen_mod, show f.pktLen + 2 ^ 32 - 40 = (f.pktLen - 40) + 2 ^ 32 by omega,
    Nat.add_mod_right, Nat.mod_eq_of_lt (by omega)]

/-- `data_len` wraps for a shorter one. -/
theorem dataLen_wraps (h : f.pktLen < 40) : f.dataLen + 40 ≠ f.pktLen := by omega

/-- There is no memory for the copy of the body. -/
theorem decryptMgmt_noMemory (hmem : env.zmalloc f.dataLen = false) :
    decryptMgmt env f = ⟨false, f.marked, f.pktLen, [.use]⟩ := by
  simp only [decryptMgmt, hmem, Bool.not_false, if_true]

/-- The frame cannot be decrypted. -/
theorem decryptMgmt_denied (hmem : env.zmalloc f.dataLen = true)
    (hfail : (env.recv.aesDecrypt f.keyed).1 = .fail) :
    .free ∈ (decryptMgmt env f).touches ∧ (decryptMgmt env f).passes = false := by
  have hres := (decryptor_marked env f).2.mpr hfail
  simp [decryptMgmt, hmem, hres]

/-- The frame is decrypted, and the body moved. -/
theorem decryptMgmt_done (hmem : env.zmalloc f.dataLen = true)
    (hok : (env.recv.aesDecrypt f.keyed).1 ≠ .fail) :
    let d := (decryptor env.recv f.marked).2
    decryptMgmt env f = ⟨true, d.memcpy (d.rxData + wlanHdrA3Len)
      (readBytes d.mem (wlanHdrA3Len + 8) f.dataLen), (f.pktLen + 2 ^ 16 - 8 - 8) % 2 ^ 16,
      [.use, .use]⟩ := by
  obtain ⟨hd, hres⟩ := decryptor_marked env f
  have hne : (decryptor env.recv f.marked).1 ≠ .fail := fun h => hok (hres.mp h)
  simp only [decryptMgmt, hmem, Bool.not_true, Bool.false_eq_true, if_false, hd.hdrlen, hd.ivLen,
    hd.icvLen, hne, decide_not, decide_false, Bool.not_false]

/-- What the decrypted frame is after the body was moved. -/
structure Moved (env : MgmtEnv) (f : MgmtFrame) (g : RecvFrame) : Prop where
  id : g.id = f.frame.id
  type : getFrameType g.mem = wifiMgtType
  encrypt : g.attrib.encrypt = encAes
  mfrag : g.attrib.mfrag = (getMFrag f.frame.mem).toNat
  fragNum : g.attrib.fragNum = getFragNum f.frame.mem
  body : readBytes g.mem wlanHdrA3Len (f.pktLen - 40) =
    readBytes (decryptor env.recv f.marked).2.mem (wlanHdrA3Len + 8) (f.pktLen - 40)

theorem moved (env : MgmtEnv) (f : MgmtFrame) (h : 40 ≤ f.pktLen) :
    let d := (decryptor env.recv f.marked).2
    Moved env f (d.memcpy (d.rxData + wlanHdrA3Len)
      (readBytes d.mem (wlanHdrA3Len + 8) f.dataLen)) := by
  intro d
  have hd : Decrypted env f d := (decryptor_marked env f).1
  have hroom : d.rxData + wlanHdrA3Len + (readBytes d.mem (wlanHdrA3Len + 8) f.dataLen).length ≤
      d.buf.length := by
    have hin := f.inside
    have hlen : d.buf.length = f.frame.buf.length := by
      rw [hd.buf, env.aes_length]
      rfl
    rw [length_readBytes, dataLen_eq h, hlen, hd.rxData, wlanHdrA3Len]
    omega
  have hmem := @mem_memcpy d (d.rxData + wlanHdrA3Len) _ (Nat.le_add_right _ _) hroom
  rw [Nat.add_sub_cancel_left] at hmem
  have hheader : ∀ x < wlanHdrA3Len, d.mem x = f.frame.mem x := by
    intro x hx
    have hbyte := env.aes_header f.keyed (f.frame.rxData + x) (Nat.add_lt_add_left hx _)
    simp only [RecvFrame.mem, hd.buf, hd.rxData, hbyte]
    rfl
  refine ⟨hd.id, ?_, hd.encrypt, hd.mfrag, hd.fragNum, ?_⟩
  · rw [hmem, ← f.mgmt]
    simp only [getFrameType, le16, wlanHdrA3Len,
      overwrite_of_lt (m := d.mem) (show 0 < 24 by decide),
      overwrite_of_lt (m := d.mem) (show 0 + 1 < 24 by decide),
      hheader 0 (by decide), hheader (0 + 1) (by decide)]
  · have hread :=
      readBytes_overwrite d.mem wlanHdrA3Len (readBytes d.mem (wlanHdrA3Len + 8) f.dataLen)
    rw [length_readBytes] at hread
    rw [hmem, ← dataLen_eq h, hread]

/-! ## 6. When a frame is handled well -/

/-- The attributes from the header are flags. -/
theorem read_mfrag (f : MgmtFrame) : f.read.attrib.mfrag = (getMFrag f.frame.mem).toNat := rfl

theorem lastFragment_iff (f : MgmtFrame) :
    lastFragment f = true ↔ (getMFrag f.frame.mem).toNat = 0 ∧ getFragNum f.frame.mem ≠ 0 := by
  cases hm : getMFrag f.frame.mem <;> simp [lastFragment, hm]

/-- A decrypted frame is dropped when it is a last fragment: its cipher has no MIC to check here. -/
theorem dropped_moved {g : RecvFrame} (hg : Moved env f g) {k : MicKeys} {t : StaTable} :
    Dropped k t g ↔ lastFragment f = true := by
  have hmic : (recvframeChkmic k t g).1 ≠ .fail := by
    have hne : g.attrib.encrypt ≠ encTkip := by
      rw [hg.encrypt]
      decide
    simp [recvframeChkmic, hne]
  rw [lastFragment_iff, Dropped, hg.mfrag, hg.fragNum]
  simp [hmic]

theorem dropped_read {k : MicKeys} {t : StaTable} :
    Dropped k t f.read ↔ ¬(lastFragment f = false ∧
      (getMFrag f.frame.mem = false → getPrivacy f.frame.mem = true →
        (recvframeChkmic k t f.read).1 ≠ .fail)) := by
  have hfrag : f.read.attrib.fragNum = getFragNum f.frame.mem := rfl
  have hpriv : f.read.attrib.privacy = (getPrivacy f.frame.mem).toNat := rfl
  rw [Dropped, read_mfrag, hfrag, hpriv]
  cases hm : getMFrag f.frame.mem <;> cases hp : getPrivacy f.frame.mem <;>
    simp [lastFragment, hm, imp_iff_not_or]

/-- The queue of a frame whose header says it is a management frame. -/
theorem owner_of_mgmt (env : MgmtEnv) {g : RecvFrame} (hg : getFrameType g.mem = wifiMgtType) :
    ∃ i, defragOwner env.recv.rx.stas g = some i := defragOwner_mgmt env.recv hg

/-- The frame is given back by `recv_func_prehandle` alone. -/
theorem once_iff_not_mem : (recvFuncPrehandle env f q).count .free = 1 ↔
    .free ∉ validateRecvFrame env f q := by
  rw [recvFuncPrehandle, List.count_append, List.count_singleton_self, ← List.count_eq_zero]
  omega

/-- A frame that is given back at the end only is not touched after that. -/
theorem untouched_of_not_mem (h : .free ∉ validateRecvFrame env f q) :
    (recvFuncPrehandle env f q).Pairwise fun a b => ¬(a = .free ∧ b = .use) := by
  rw [recvFuncPrehandle, List.pairwise_append]
  refine ⟨?_, List.pairwise_singleton _ _, ?_⟩
  · refine List.Pairwise.imp_of_mem ?_ (List.pairwise_of_forall (R := fun _ _ => True) (by simp))
    rintro a b ha - - ⟨rfl, -⟩
    exact absurd ha h
  · rintro a ha b hb ⟨rfl, -⟩
    exact absurd ha h

theorem validate_decrypts (hyes : decrypts env f = true) :
    validate80211wMgmt env f = decryptMgmt env f := by
  have hkey : env.binstallBIPkey = true := (Bool.and_eq_true _ _ ▸ hyes).1
  simp only [validate80211wMgmt, hkey, Bool.not_true, Bool.false_eq_true, if_false, hyes, if_true]

theorem validate_unprotected (huni : f.group = false) (hno : decrypts env f = false) :
    validate80211wMgmt env f =
      ⟨!env.binstallBIPkey || passesUnprotected env f, f.read, f.pktLen, [.use]⟩ := by
  have hgroup : ¬(f.group = true ∧ (f.subtype = wifiDeauth ∨ f.subtype = wifiDisassoc)) := by
    rw [huni]
    exact fun h => Bool.false_ne_true h.1
  cases hkey : env.binstallBIPkey
  · simp only [validate80211wMgmt, hkey, Bool.not_false, if_true, Bool.true_or]
  · simp only [validate80211wMgmt, hkey, Bool.not_true, Bool.false_eq_true, if_false, hno,
      dif_neg hgroup, Bool.false_or]

/-- A frame that is not decrypted. -/
theorem free_mem_unprotected (hver : frameVersion f.frame = 0) (huni : f.group = false)
    (hno : decrypts env f = false) (hq : ∀ i, ∀ p ∈ q i, p.id ≠ f.frame.id) :
    .free ∉ validateRecvFrame env f q ↔
      (env.binstallBIPkey = false ∨ passesUnprotected env f = true →
        lastFragment f = false ∧ (getMFrag f.frame.mem = false → getPrivacy f.frame.mem = true →
          (recvframeChkmic env.recv.mic env.recv.rx.stas f.read).1 ≠ .fail)) := by
  obtain ⟨i, howner⟩ := owner_of_mgmt env (g := f.read) f.mgmt
  have hm : f.read.attrib.mfrag ≤ 1 := Bool.toNat_le _
  have hfree := free_mem_validateRecvMgntFrame env howner hm (q := q) hq
  rw [dropped_read] at hfree
  simp only [validateRecvFrame, hver, ne_eq, not_true_eq_false, if_false,
    validate_unprotected huni hno, List.mem_cons, reduceCtorEq, false_or, List.mem_append,
    List.not_mem_nil]
  cases hpass : !env.binstallBIPkey || passesUnprotected env f
  · have hnot : ¬(env.binstallBIPkey = false ∨ passesUnprotected env f = true) := by
      simpa [not_or] using hpass
    simp [hnot]
  · have hyes : env.binstallBIPkey = false ∨ passesUnprotected env f = true := by
      simpa using hpass
    rw [if_pos rfl, hfree, not_not]
    exact ⟨fun h _ => h, fun h => h hyes⟩

/-- A frame that is to be decrypted, with room for IV and MIC. -/
theorem free_mem_decrypts (hver : frameVersion f.frame = 0) (hyes : decrypts env f = true)
    (hlen : 40 ≤ f.pktLen) (hq : ∀ i, ∀ p ∈ q i, p.id ≠ f.frame.id) :
    .free ∉ validateRecvFrame env f q ↔
      (env.zmalloc (f.pktLen - 40) = true →
        (env.recv.aesDecrypt f.keyed).1 ≠ .fail ∧ lastFragment f = false) := by
  rw [← dataLen_eq hlen]
  simp only [validateRecvFrame, hver, ne_eq, not_true_eq_false, if_false, validate_decrypts hyes,
    List.mem_cons, reduceCtorEq, false_or, List.mem_append]
  cases hmem : env.zmalloc f.dataLen
  · simp [decryptMgmt_noMemory hmem]
  · by_cases hfail : (env.recv.aesDecrypt f.keyed).1 = .fail
    · have hfree := (decryptMgmt_denied hmem hfail).1
      simp [hfree, hfail]
    · have hdone := decryptMgmt_done hmem hfail
      have hg := moved env f hlen
      dsimp only at hdone hg
      obtain ⟨i, howner⟩ := owner_of_mgmt env hg.type
      have hm : _ ≤ 1 := hg.mfrag ▸ Bool.toNat_le _
      have hfree := free_mem_validateRecvMgntFrame env howner hm (q := q)
        (fun i p hp => hg.id ▸ hq i p hp)
      rw [dropped_moved hg] at hfree
      simp [hdone, hfree, hfail]

/-- **Protected management frames.**  A unicast management frame that is on no queue is given back
once, not touched after that, and decrypted as it was sent, exactly when it is one of those in
`Sound`. -/
theorem mgmt_given_back_iff (env : MgmtEnv) (f : MgmtFrame) (q : StaId → List RecvFrame)
    (huni : f.group = false) (hq : ∀ i, ∀ p ∈ q i, p.id ≠ f.frame.id) :
    GivenBack env f q ↔ Sound env f := by
  constructor
  · intro h hver
    have hfree := once_iff_not_mem.mp h.once
    split
    · next hyes =>
      have hlen : 40 ≤ f.pktLen := by
        have hwrap := h.noWrap hver hyes
        omega
      exact ⟨hlen, (free_mem_decrypts hver hyes hlen hq).mp hfree⟩
    · next hno =>
      exact (free_mem_unprotected hver huni (by simpa using hno) hq).mp hfree
  · intro h
    have hfree : .free ∉ validateRecvFrame env f q := by
      by_cases hver : frameVersion f.frame = 0
      · have hsound := h hver
        split at hsound
        · next hyes => exact (free_mem_decrypts hver hyes hsound.1 hq).mpr hsound.2
        · next hno => exact (free_mem_unprotected hver huni (by simpa using hno) hq).mpr hsound
      · simp [validateRecvFrame, hver]
    have hlen : frameVersion f.frame = 0 → decrypts env f = true → 40 ≤ f.pktLen := by
      intro hver hyes
      have hsound := h hver
      rw [if_pos hyes] at hsound
      exact hsound.1
    refine ⟨once_iff_not_mem.mpr hfree, untouched_of_not_mem hfree, ?_, ?_⟩
    · intro hver hyes hpass
      have hlong := hlen hver hyes
      have hlt := f.pktLen_lt
      rw [validate_decrypts hyes] at hpass ⊢
      cases hmem : env.zmalloc f.dataLen
      · rw [decryptMgmt_noMemory hmem] at hpass
        exact absurd hpass Bool.false_ne_true
      · by_cases hfail : (env.recv.aesDecrypt f.keyed).1 = .fail
        · rw [(decryptMgmt_denied hmem hfail).2] at hpass
          exact absurd hpass Bool.false_ne_true
        · have hdone := decryptMgmt_done hmem hfail
          have hg := moved env f hlong
          dsimp only at hdone hg
          have hshort : (f.pktLen + 2 ^ 16 - 8 - 8) % 2 ^ 16 = f.pktLen - 16 := by omega
          rw [hdone]
          dsimp only
          rw [hshort, show f.pktLen - 16 - wlanHdrA3Len = f.pktLen - 40 by
            simp only [wlanHdrA3Len]; omega]
          exact ⟨by omega, hg.body⟩
    · intro hver hyes
      rw [dataLen_eq (hlen hver hyes)]
      exact Nat.sub_add_cancel (hlen hver hyes)

/-! ## 7. A deauthentication frame -/

/-- A deauthentication of one station by its access point, reason 3, under the pairwise key of the
bytes 0 to 15 and packet number 1: the header, the CCMP header and the body. -/
def deauthHead : List UInt8 :=
  [0xC0, 0x40, 0, 0, 2, 0, 0, 0, 0, 1, 0x10, 1, 2, 3, 4, 5, 0x10, 1, 2, 3, 4, 5, 0x10, 0,
    1, 0, 0, 0x20, 0, 0, 0, 0, 11, 158]

/-- Its MIC, encrypted. -/
def deauthMic : List UInt8 := [10, 155, 67, 208, 54, 123, 54, 64]

/-- What `rtw_aes_decrypt` makes of such a frame, with this MIC or another. -/
def decryptDeauth (f : RecvFrame) : RxStatus × List UInt8 :=
  if f.rxData = 0 ∧ f.attrib.hdrlen = 24 ∧ f.buf.take 34 = deauthHead then
    (if f.buf.drop 34 = deauthMic then .success else .fail,
      f.buf.take 32 ++ [3, 0] ++ f.buf.drop 34)
  else (.fail, f.buf)

theorem length_decryptDeauth (f : RecvFrame) : (decryptDeauth f).2.length = f.buf.length := by
  unfold decryptDeauth
  split
  · next h =>
    have hlen : 34 ≤ f.buf.length := by
      have htake := congrArg List.length h.2.2
      simp only [List.length_take, deauthHead, List.length_cons, List.length_nil] at htake
      omega
    simp only [List.length_append, List.length_take, List.length_drop, List.length_cons,
      List.length_nil]
    omega
  · rfl

theorem decryptDeauth_header (f : RecvFrame) (x : Nat) (hx : x < f.rxData + f.attrib.hdrlen) :
    (decryptDeauth f).2.getD x 0 = f.buf.getD x 0 := by
  unfold decryptDeauth
  split
  · next h =>
    have hlt : x < 24 := by omega
    have hlen : 34 ≤ f.buf.length := by
      have htake := congrArg List.length h.2.2
      simp only [List.length_take, deauthHead, List.length_cons, List.length_nil] at htake
      omega
    simp only [List.getD_eq_getElem?_getD, List.append_assoc]
    rw [List.getElem?_append_left (by rw [List.length_take]; omega), List.getElem?_take,
      if_pos (by omega)]
  · rfl

/-- A station with a BIP key installed, and memory for what a frame can hold. -/
def keyedEnv : MgmtEnv where
  recv := { RecvPool.clearEnv with aesDecrypt := decryptDeauth }
  binstallBIPkey := true
  zmalloc n := n ≤ 4096
  bip := ⟨4, fun _ => [], fun _ _ => none⟩
  ipnRx := 0
  heap _ := 0
  bpairwiseKeyInstalled _ := true
  aes_length := length_decryptDeauth
  aes_header := decryptDeauth_header

/-- The frame with a MIC, and the length that the descriptor gives. -/
def deauth (mic : List UInt8) (pktLen : Nat) (hlt : pktLen < 2 ^ 16)
    (hin : pktLen ≤ 34 + mic.length) : MgmtFrame where
  frame := ⟨7, queryRxDescStatus RecvPool.clearDesc, deauthHead ++ mic, 0, pktLen⟩
  pktLen := pktLen
  pktLen_lt := hlt
  mgmt := by
    change (0xC0 + 256 * 0x40) &&& 0x000c = 0
    decide
  inside := by
    simp only [List.length_append, deauthHead, List.length_cons, List.length_nil]
    omega

/-- It is given back once, and its body is the reason code. -/
theorem deauth_given_back :
    let f := deauth deauthMic 42 (by decide) (by decide)
    GivenBack keyedEnv f (fun _ => []) ∧
      readBytes (validate80211wMgmt keyedEnv f).frame.mem wlanHdrA3Len 2 = [3, 0] := by
  refine ⟨(mgmt_given_back_iff keyedEnv _ (fun _ => []) (by decide +kernel) nofun).mpr ?_,
    by decide +kernel⟩
  intro _
  rw [if_pos (by decide +kernel)]
  exact ⟨by decide, fun _ => ⟨by decide +kernel, by decide +kernel⟩⟩

/-- **A bad MIC.**  The frame is given back, copied from and written to, and given back again.  And
`data_len` wraps for a frame that is too short for a MIC. -/
theorem bad_mic_given_back_twice :
    let f := deauth (List.replicate 8 0) 42 (by decide) (by decide)
    let short := deauth [] 26 (by decide) (by decide)
    (recvFuncPrehandle keyedEnv f (fun _ => []) = [.use, .use, .free, .use, .free] ∧
      ¬GivenBack keyedEnv f (fun _ => [])) ∧
    short.dataLen = 4294967282 ∧ ¬GivenBack keyedEnv short (fun _ => []) := by
  intro f short
  have htouches :
      recvFuncPrehandle keyedEnv f (fun _ => []) = [.use, .use, .free, .use, .free] := by
    decide +kernel
  have hlen : short.dataLen = 4294967282 := by decide +kernel
  refine ⟨⟨htouches, fun h => ?_⟩, hlen, fun h => ?_⟩
  · have honce := h.once
    rw [htouches] at honce
    exact absurd honce (by decide)
  · have hwrap := h.noWrap (by decide +kernel) (by decide +kernel)
    rw [hlen] at hwrap
    exact absurd hwrap (by decide +kernel)

end MgmtProtect

end Rtl8723bs
