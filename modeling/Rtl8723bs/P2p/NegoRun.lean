/-
# GO negotiations, tracked over a run

The frames are the P2P public action frames the device sends and receives, of whatever peer and in
whatever order; next to the driver's record stands what the record is of: the frames that were
recorded since it was last reset.  `OneHandshake` is what the record should mean when it says that
the negotiation is complete.

The record does not say which way a Response went, and what `active` says of the Request is not
looked at, so a Response that goes the way of its Request is taken, and so is a Confirmation that
goes against it.  After a Response that refuses, the token is set to zero with the state left at 1, and
a Confirmation with token zero completes the negotiation that was refused.
-/
import Rtl8723bs.Lib.Bytes
import Rtl8723bs.P2p.CheckFrames

namespace Rtl8723bs

/-! ## 1. Frames with well-formed attributes -/

/-- The lengths of the attributes that are looked into, and the range of an intent: four bits above
the tie breaker. -/
def P2pAttr.WellFormed (a : P2pAttr) : Prop :=
  (a.id = p2pAttrStatus → a.content.length = 1) ∧
  (a.id = p2pAttrGoIntent → a.content.length = 1 ∧ ∀ b ∈ a.content, b < 32) ∧
  (a.id = p2pAttrListenCh ∨ a.id = p2pAttrOperatingCh → a.content.length = 5) ∧
  (a.id = p2pAttrIntendedIfAddr → a.content.length = 6)

instance (a : P2pAttr) : Decidable a.WellFormed :=
  have : Decidable (∀ b ∈ a.content, b < 32) := List.decidableBAll _ _
  inferInstanceAs (Decidable (_ ∧ _ ∧ _ ∧ _))

/-- A P2P public action frame: subtype, token, the elements in front of the P2P element, its
attributes, and what comes behind. -/
structure P2pFrame where
  mem : Mem
  len : Nat
  subtype : UInt8
  token : UInt8
  before : List Element
  attrs : List P2pAttr
  after : List UInt8
  fits : 24 ≤ len ∧ len < 2 ^ 31
  body : readBytes mem 24 (len - 24) = rtwWlanCategoryPublic :: actPublicVendor :: (p2pOui ++
    subtype :: token :: (before.flatMap Element.bytes ++ (p2pIeBytes attrs ++ after)))
  short : (attrBytes attrs).length + 4 < 256
  wellFormed : ∀ a ∈ attrs, a.WellFormed

namespace P2pFrame

/-- The GO Intent of a frame, zero where it has none. -/
def goIntent (f : P2pFrame) : UInt8 := ((contentOf f.attrs p2pAttrGoIntent).bind List.head?).getD 0

/-- The Status of a frame. -/
def status (f : P2pFrame) : Option UInt8 := (contentOf f.attrs p2pAttrStatus).bind List.head?

/-- The P2P element starts among the bytes that `rtw_get_p2p_ie` looks at, and nothing in front is
taken for it. -/
def Found (f : P2pFrame) : Prop :=
  (∀ e ∈ f.before, e.Apart) ∧ (f.before.flatMap Element.bytes).length + 5 < maxIeSz

end P2pFrame

/-- A frame sent or received. -/
structure P2pEvent where
  tx : Bool
  frame : P2pFrame

/-- The other party. -/
def P2pEvent.peer (e : P2pEvent) : MacAddr := peerOf e.frame.mem e.tx

/-! ## 2. The run -/

/-- The driver's state, the frames recorded since the last reset with the newest first, and the role
computed at the last Confirmation. -/
structure Tracked where
  priv : WdevPriv
  recorded : List P2pEvent
  isGo : Bool

namespace Tracked

def start : Tracked := ⟨rtwWdevAlloc, [], false⟩

def info (t : Tracked) : NegoInfo := t.priv.negoInfo

/-- The frame goes into the record. -/
def records (t : Tracked) (e : P2pEvent) : Bool :=
  e.frame.subtype = p2pGoNegoReq ||
  (e.frame.subtype = p2pGoNegoResp && t.info.awaits 0 e.frame.token e.peer) ||
  (e.frame.subtype = p2pGoNegoConf && t.info.awaits 1 e.frame.token e.peer)

/-- The frame resets the record. -/
def resets (t : Tracked) (e : P2pEvent) : Bool :=
  e.frame.subtype = p2pGoNegoReq && t.info.token ≠ e.frame.token

/-- A frame is sent or received; `none` where the driver does not come back. -/
def step (t : Tracked) (e : P2pEvent) : Option Tracked :=
  (rtwP2pCheckFrames e.frame.mem e.frame.len e.tx t.priv).map fun r =>
    { priv := r.priv
      recorded :=
        if t.resets e then [e] else if t.records e then e :: t.recorded else t.recorded
      isGo := if e.frame.subtype = p2pGoNegoConf ∧ t.records e then r.isGo else t.isGo }

/-- The states that frames lead to, each of them with `C` of the state before it. -/
inductive Run (C : Tracked → P2pEvent → Prop) : Tracked → Prop
  | start : Run C start
  | step {t t' : Tracked} {e : P2pEvent} (h : Run C t) (hc : C t e) (hs : t.step e = some t') :
    Run C t'

end Tracked

/-! ## 3. What a complete record should mean -/

/-- The intent value, without the tie breaker. -/
def intentValue (b : UInt8) : Nat := b.toNat / 2 % 16

/-- Whether the requester becomes GO: its intent is the greater one, or both are the same and the tie
breaker bit of the Request is set. -/
def RequesterIsGo (req resp : UInt8) : Prop :=
  intentValue resp < intentValue req ∨
    intentValue req = intentValue resp ∧ req.toNat % 2 = 1

instance (req resp : UInt8) : Decidable (RequesterIsGo req resp) :=
  inferInstanceAs (Decidable (_ ∨ _))

/-- **One handshake**: the last three frames recorded are Request, Response and Confirmation with one
token, of one peer and in alternating direction, the intents are theirs, and the role is what the
intents say for this device. -/
def OneHandshake (t : Tracked) : Prop :=
  ∃ (req resp conf : P2pEvent) (older : List P2pEvent),
    t.recorded = conf :: resp :: req :: older ∧
    req.frame.subtype = p2pGoNegoReq ∧ resp.frame.subtype = p2pGoNegoResp ∧
    conf.frame.subtype = p2pGoNegoConf ∧
    resp.frame.token = req.frame.token ∧ conf.frame.token = req.frame.token ∧
    resp.peer = req.peer ∧ conf.peer = req.peer ∧
    resp.tx = !req.tx ∧ conf.tx = req.tx ∧
    t.info.reqIntent = req.frame.goIntent ∧ t.info.rspIntent = resp.frame.goIntent ∧
    (conf.frame.status = some 0 →
      (t.isGo = true ↔ (req.tx = true ↔ RequesterIsGo req.frame.goIntent resp.frame.goIntent)))

/-! ## 4. Attributes of a frame -/

theorem attrByte_found {m : Mem} {p n : Nat} {attrs : List P2pAttr}
    (h : readBytes m p n = p2pIeBytes attrs) (hshort : (attrBytes attrs).length + 4 < 256)
    (id : UInt8) (k : Nat) : ∃ x, attrByte m (some (p, n)) id k = some x := by
  obtain ⟨r, hr, -⟩ := content_found h id hshort
  unfold attrByte
  rw [hr]
  exact ⟨_, rfl⟩

theorem attrAddr_found {m : Mem} {p n : Nat} {attrs : List P2pAttr}
    (h : readBytes m p n = p2pIeBytes attrs) (hshort : (attrBytes attrs).length + 4 < 256)
    (id : UInt8) : ∃ x, attrAddr m (some (p, n)) id = some x := by
  obtain ⟨r, hr, -⟩ := content_found h id hshort
  unfold attrAddr
  rw [hr]
  exact ⟨_, rfl⟩

/-- The first byte of a content that is not empty. -/
theorem attrByte_head {m : Mem} {p n : Nat} {attrs : List P2pAttr}
    (h : readBytes m p n = p2pIeBytes attrs) (hshort : (attrBytes attrs).length + 4 < 256)
    {id : UInt8} (hone : ∀ a ∈ attrs, a.id = id → a.content.length = 1) :
    attrByte m (some (p, n)) id 0 = some ((contentOf attrs id).bind List.head?) := by
  obtain ⟨r, hr, hcontent⟩ := content_found h id hshort
  unfold attrByte
  rw [hr]
  cases hc : contentOf attrs id with
  | none =>
    rw [hc] at hcontent
    rw [Option.map_eq_none_iff.mp hcontent]
    rfl
  | some c =>
    rw [hc] at hcontent
    obtain ⟨x, rfl, hx⟩ := Option.map_eq_some_iff.mp hcontent
    obtain ⟨a, ha, rfl⟩ := Option.map_eq_some_iff.mp hc
    have hid : a.id = id := by simpa using List.find?_some ha
    have hlen := hone a (List.mem_of_find?_eq_some ha) hid
    have hx2 : x.2 = 1 := by rw [← hlen, ← hx, length_readBytes]
    rw [hx2] at hx
    change some (some (m x.1)) = some (a.content.head?)
    rw [← hx]
    rfl

/-- The driver finds the subtype, the token and the elements of a frame. -/
theorem P2pFrame.checked (f : P2pFrame) :
    readBytes f.mem 32 (f.len - 32)
        = f.before.flatMap Element.bytes ++ (p2pIeBytes f.attrs ++ f.after) ∧
      ∀ tx w, rtwP2pCheckFrames f.mem f.len tx w
        = (checkSubtype f.mem (rtwGetP2pIe f.mem 32 (f.len - 32 : Nat)) tx f.subtype f.token w).map
            fun r => ⟨f.subtype.toNat, r.1, r.2⟩ := by
  have hlen := congrArg List.length f.body
  have h4 : p2pOui.length = 4 := rfl
  simp only [length_readBytes, List.length_cons, List.length_append] at hlen
  have hcategory := readBytes_cons f.body
  have haction := readBytes_cons hcategory.2
  have houi := readBytes_append haction.2
  have hsubtype := readBytes_cons houi.2
  have htoken := readBytes_cons hsubtype.2
  have h30 : f.mem 30 = f.subtype := hsubtype.1
  have h31 : f.mem 31 = f.token := htoken.1
  have hrest : (f.before.flatMap Element.bytes ++ (p2pIeBytes f.attrs ++ f.after)).length
      = f.len - 32 := by
    simp only [List.length_append]
    omega
  have hint : int32 ((f.len : Int) - 24 - 8) = (f.len - 32 : Nat) := by
    have hfits := f.fits
    unfold int32
    omega
  refine ⟨by rw [← hrest]; exact htoken.2, fun tx w => ?_⟩
  unfold rtwP2pCheckFrames
  dsimp only
  rw [if_pos hcategory.1, if_pos ⟨haction.1, houi.1⟩, hint, h30, h31]
  cases checkSubtype f.mem (rtwGetP2pIe f.mem 32 (f.len - 32 : Nat)) tx f.subtype f.token w <;> rfl

/-- The P2P element of a frame is found. -/
theorem P2pFrame.Found.element {f : P2pFrame} (hf : f.Found) :
    ∃ p n, rtwGetP2pIe f.mem 32 (f.len - 32 : Nat) = some (p, n) ∧
      readBytes f.mem p n = p2pIeBytes f.attrs :=
  rtwGetP2pIe_found f.checked.1 f.short hf.1 hf.2

/-! ## 5. What each frame does to the record -/

section Frames

variable {p n : Nat} {f : P2pFrame} (h : readBytes f.mem p n = p2pIeBytes f.attrs)

include h

theorem P2pFrame.intent_found : attrByte f.mem (some (p, n)) p2pAttrGoIntent 0
    = some ((contentOf f.attrs p2pAttrGoIntent).bind List.head?) :=
  attrByte_head h f.short fun a ha hid => ((f.wellFormed a ha).2.1 hid).1

theorem P2pFrame.status_found : attrByte f.mem (some (p, n)) p2pAttrStatus 0 = some f.status :=
  attrByte_head h f.short fun a ha hid => (f.wellFormed a ha).1 hid

theorem checkGoNegoReq_spec (tx : Bool) (i : NegoInfo) :
    ∃ i', checkGoNegoReq f.mem (some (p, n)) tx f.token i = some i' ∧ i'.state = 0 ∧
      i'.token = f.token ∧ i'.peerMac = peerOf f.mem tx ∧ i'.active = (if tx then 1 else 0) ∧
      i'.reqIntent = f.goIntent := by
  obtain ⟨opCh, hop⟩ := attrByte_found h f.short p2pAttrOperatingCh 4
  obtain ⟨listenCh, hlisten⟩ := attrByte_found h f.short p2pAttrListenCh 4
  obtain ⟨iaddr, haddr⟩ := attrAddr_found h f.short p2pAttrIntendedIfAddr
  unfold checkGoNegoReq
  rw [hop, hlisten, P2pFrame.intent_found h, haddr]
  exact ⟨_, rfl, rfl, rfl, rfl, rfl, rfl⟩

theorem checkGoNegoResp_spec (tx : Bool) (i : NegoInfo) :
    ∃ i', checkGoNegoResp f.mem (some (p, n)) tx f.token i = some i' ∧
      (i.awaits 0 f.token (peerOf f.mem tx) = false → i' = i) ∧
      (i.awaits 0 f.token (peerOf f.mem tx) = true →
        i'.state = 1 ∧ i'.peerMac = i.peerMac ∧ i'.active = i.active ∧
        i'.reqIntent = i.reqIntent ∧ i'.rspIntent = f.goIntent ∧
        i'.status = f.status.getD 0xff ∧
        i'.token = if f.status ≠ some 0 then 0 else i.token) := by
  obtain ⟨opCh, hop⟩ := attrByte_found h f.short p2pAttrOperatingCh 4
  obtain ⟨iaddr, haddr⟩ := attrAddr_found h f.short p2pAttrIntendedIfAddr
  unfold checkGoNegoResp
  rw [hop, P2pFrame.intent_found h, P2pFrame.status_found h, haddr]
  cases hwait : i.awaits 0 f.token (peerOf f.mem tx) with
  | false =>
    exact ⟨i, rfl, fun _ => rfl, fun hyes => absurd hyes (by simp)⟩
  | true =>
    exact ⟨_, rfl, fun hno => absurd hno (by simp),
      fun _ => ⟨rfl, rfl, rfl, rfl, rfl, rfl, rfl⟩⟩

theorem checkGoNegoConf_spec (tx : Bool) (i : NegoInfo) :
    ∃ i' isGo, checkGoNegoConf f.mem (some (p, n)) tx f.token i = some (i', isGo) ∧
      (i.awaits 1 f.token (peerOf f.mem tx) = false → i' = i) ∧
      (i.awaits 1 f.token (peerOf f.mem tx) = true →
        i'.state = 2 ∧ i'.reqIntent = i.reqIntent ∧ i'.rspIntent = i.rspIntent ∧
        (f.status = some 0 → isGo = (rtwP2pNegoIntentCompare i.reqIntent i.rspIntent ^^ !tx))) := by
  obtain ⟨opCh, hop⟩ := attrByte_found h f.short p2pAttrOperatingCh 4
  unfold checkGoNegoConf
  rw [hop, P2pFrame.status_found h]
  cases hwait : i.awaits 1 f.token (peerOf f.mem tx) with
  | false =>
    exact ⟨i, false, rfl, fun _ => rfl, fun hyes => absurd hyes (by simp)⟩
  | true =>
    refine ⟨_, _, rfl, fun hno => absurd hno (by simp),
      fun _ => ⟨rfl, rfl, rfl, fun hstatus => ?_⟩⟩
    rw [hstatus]
    exact Bool.true_and _

end Frames

/-- On a frame with well-formed attributes the driver comes back. -/
theorem checkSubtype_comes_back {p n : Nat} {f : P2pFrame}
    (h : readBytes f.mem p n = p2pIeBytes f.attrs) (tx : Bool) (w : WdevPriv) :
    ∃ r, checkSubtype f.mem (some (p, n)) tx f.subtype f.token w = some r := by
  have hbyte := fun id k => attrByte_found h f.short id k
  have haddr := fun id => attrAddr_found h f.short id
  unfold checkSubtype
  split
  · obtain ⟨i, hi, -⟩ := checkGoNegoReq_spec h tx w.negoInfo
    rw [hi]
    exact ⟨_, rfl⟩
  split
  · obtain ⟨i, hi, -⟩ := checkGoNegoResp_spec h tx w.negoInfo
    rw [hi]
    exact ⟨_, rfl⟩
  split
  · obtain ⟨i, isGo, hi, -⟩ := checkGoNegoConf_spec h tx w.negoInfo
    rw [hi]
    exact ⟨_, rfl⟩
  split
  · obtain ⟨flags, hflags⟩ := hbyte p2pAttrInvitationFlags 0
    obtain ⟨opCh, hop⟩ := hbyte p2pAttrOperatingCh 4
    obtain ⟨gbssid, hgbssid⟩ := haddr p2pAttrGroupBssid
    unfold checkInvitReq
    rw [hflags, hop, hgbssid]
    exact ⟨_, rfl⟩
  split
  · obtain ⟨status, hstatus⟩ := hbyte p2pAttrStatus 0
    obtain ⟨opCh, hop⟩ := hbyte p2pAttrOperatingCh 4
    obtain ⟨gbssid, hgbssid⟩ := haddr p2pAttrGroupBssid
    unfold checkInvitResp
    rw [hstatus, hop, hgbssid]
    by_cases hdue : w.invitInfo.token = f.token ∧ w.invitInfo.state = 0 ∧
      w.invitInfo.peerMac = peerOf f.mem tx
    · simp [hdue]
    · simp [hdue]
  split
  · obtain ⟨r, hr, -⟩ := content_found h p2pAttrStatus f.short
    rw [hr]
    exact ⟨_, rfl⟩
  split
  · obtain ⟨r, hr, -⟩ := content_found h p2pAttrGroupId f.short
    have hissued : checkProvisionDiscReq f.mem (some (p, n)) = some r.isNone := by
      change (rtwGetP2pAttrContent f.mem (some (p, n)) p2pAttrGroupId).map Option.isNone = _
      rw [hr]
      rfl
    rw [hissued]
    exact ⟨_, rfl⟩
  · exact ⟨_, rfl⟩

/-- No other frame touches the record of the negotiation. -/
theorem checkSubtype_other {m : Mem} {ie : Option (Nat × Nat)} {tx : Bool} {subtype token : UInt8}
    {w : WdevPriv} {r : WdevPriv × Bool} (hs : checkSubtype m ie tx subtype token w = some r)
    (hreq : subtype ≠ p2pGoNegoReq) (hresp : subtype ≠ p2pGoNegoResp)
    (hconf : subtype ≠ p2pGoNegoConf) : r.1.negoInfo = w.negoInfo := by
  unfold checkSubtype at hs
  rw [if_neg hreq, if_neg hresp, if_neg hconf] at hs
  split at hs
  · obtain ⟨v, -, hv⟩ := Option.bind_eq_some_iff.mp hs
    rw [← Option.some.inj hv]
  · split at hs
    · obtain ⟨v, -, hv⟩ := Option.bind_eq_some_iff.mp hs
      rw [← Option.some.inj hv]
    · split at hs
      · obtain ⟨v, -, hv⟩ := Option.bind_eq_some_iff.mp hs
        rw [← Option.some.inj hv]
      · split at hs
        · obtain ⟨v, -, hv⟩ := Option.bind_eq_some_iff.mp hs
          rw [← Option.some.inj hv]
        · rw [← Option.some.inj hs]

/-! ## 6. What a step does -/

namespace Tracked

variable {t t' : Tracked} {e : P2pEvent}

/-- A run never ends at a frame whose P2P element is found. -/
theorem step_comes_back (t : Tracked) (hf : e.frame.Found) : ∃ t', t.step e = some t' := by
  obtain ⟨p, n, hfound, hie⟩ := hf.element
  obtain ⟨r, hr⟩ := checkSubtype_comes_back hie e.tx t.priv
  unfold step
  rw [e.frame.checked.2, hfound, hr]
  exact ⟨_, rfl⟩

/-- A Request is recorded. -/
theorem step_req (hf : e.frame.Found) (hreq : e.frame.subtype = p2pGoNegoReq)
    (hs : t.step e = some t') :
    t'.recorded = e :: (if t.resets e then [] else t.recorded) ∧ t'.info.state = 0 ∧
      t'.info.token = e.frame.token ∧ t'.info.peerMac = e.peer ∧
      t'.info.active = (if e.tx then 1 else 0) ∧ t'.info.reqIntent = e.frame.goIntent := by
  obtain ⟨p, n, hfound, hie⟩ := hf.element
  obtain ⟨i, hi, hstate, htoken, hpeer, hactive, hintent⟩ := checkGoNegoReq_spec hie e.tx t.info
  have hcall : checkSubtype e.frame.mem (some (p, n)) e.tx e.frame.subtype e.frame.token t.priv
      = some ({ t.priv with negoInfo := i }, false) := by
    unfold checkSubtype
    rw [if_pos hreq]
    exact congrArg (fun o => o >>= _) hi
  unfold step at hs
  rw [e.frame.checked.2, hfound, hcall] at hs
  obtain rfl := Option.some.inj hs
  refine ⟨?_, hstate, htoken, hpeer, hactive, hintent⟩
  have hrec : t.records e = true := by
    unfold records
    rw [decide_eq_true hreq]
    rfl
  dsimp only
  rw [if_pos hrec]
  split <;> rfl

/-- A Response is recorded where one is due, and ignored otherwise. -/
theorem step_resp (hf : e.frame.Found) (hresp : e.frame.subtype = p2pGoNegoResp)
    (hs : t.step e = some t') :
    (t.info.awaits 0 e.frame.token e.peer = false →
      t'.recorded = t.recorded ∧ t'.info = t.info ∧ t'.isGo = t.isGo) ∧
    (t.info.awaits 0 e.frame.token e.peer = true →
      t'.recorded = e :: t.recorded ∧ t'.info.state = 1 ∧ t'.info.peerMac = t.info.peerMac ∧
      t'.info.active = t.info.active ∧ t'.info.reqIntent = t.info.reqIntent ∧
      t'.info.rspIntent = e.frame.goIntent ∧ t'.info.status = e.frame.status.getD 0xff ∧
      t'.info.token = if e.frame.status ≠ some 0 then 0 else t.info.token) := by
  obtain ⟨p, n, hfound, hie⟩ := hf.element
  obtain ⟨i, hi, hno, hyes⟩ := checkGoNegoResp_spec hie e.tx t.info
  have hreq : e.frame.subtype ≠ p2pGoNegoReq := by
    rw [hresp]
    decide
  have hconf : e.frame.subtype ≠ p2pGoNegoConf := by
    rw [hresp]
    decide
  have hcall : checkSubtype e.frame.mem (some (p, n)) e.tx e.frame.subtype e.frame.token t.priv
      = some ({ t.priv with
          negoInfo := i
          provdiscReqIssued := if e.tx then t.priv.provdiscReqIssued else false }, false) := by
    unfold checkSubtype
    rw [if_neg hreq, if_pos hresp]
    exact congrArg (fun o => o >>= _) hi
  have hresets : t.resets e = false := by
    unfold resets
    rw [decide_eq_false hreq]
    rfl
  have hrec : t.records e = t.info.awaits 0 e.frame.token e.peer := by
    unfold records
    rw [decide_eq_false hreq, decide_eq_true hresp, decide_eq_false hconf]
    simp
  unfold step at hs
  rw [e.frame.checked.2, hfound, hcall, hresets, hrec] at hs
  obtain rfl := Option.some.inj hs
  constructor
  · intro hwait
    rw [hwait]
    exact ⟨rfl, hno hwait, if_neg fun hc => hconf hc.1⟩
  · intro hwait
    rw [hwait]
    exact ⟨rfl, hyes hwait⟩

/-- A Confirmation is recorded where one is due, and ignored otherwise. -/
theorem step_conf (hf : e.frame.Found) (hconf : e.frame.subtype = p2pGoNegoConf)
    (hs : t.step e = some t') :
    (t.info.awaits 1 e.frame.token e.peer = false →
      t'.recorded = t.recorded ∧ t'.info = t.info ∧ t'.isGo = t.isGo) ∧
    (t.info.awaits 1 e.frame.token e.peer = true →
      t'.recorded = e :: t.recorded ∧ t'.info.state = 2 ∧
      t'.info.reqIntent = t.info.reqIntent ∧ t'.info.rspIntent = t.info.rspIntent ∧
      (e.frame.status = some 0 →
        t'.isGo = (rtwP2pNegoIntentCompare t.info.reqIntent t.info.rspIntent ^^ !e.tx))) := by
  obtain ⟨p, n, hfound, hie⟩ := hf.element
  obtain ⟨i, isGo, hi, hno, hyes⟩ := checkGoNegoConf_spec hie e.tx t.info
  have hreq : e.frame.subtype ≠ p2pGoNegoReq := by
    rw [hconf]
    decide
  have hresp : e.frame.subtype ≠ p2pGoNegoResp := by
    rw [hconf]
    decide
  have hcall : checkSubtype e.frame.mem (some (p, n)) e.tx e.frame.subtype e.frame.token t.priv
      = some ({ t.priv with negoInfo := i }, isGo) := by
    unfold checkSubtype
    rw [if_neg hreq, if_neg hresp, if_pos hconf]
    exact congrArg (fun o => o >>= _) hi
  have hresets : t.resets e = false := by
    unfold resets
    rw [decide_eq_false hreq]
    rfl
  have hrec : t.records e = t.info.awaits 1 e.frame.token e.peer := by
    unfold records
    rw [decide_eq_false hreq, decide_eq_false hresp, decide_eq_true hconf]
    simp
  unfold step at hs
  rw [e.frame.checked.2, hfound, hcall, hresets, hrec] at hs
  obtain rfl := Option.some.inj hs
  constructor
  · intro hwait
    rw [hwait]
    exact ⟨rfl, hno hwait, if_neg fun hc => Bool.false_ne_true hc.2⟩
  · intro hwait
    rw [hwait]
    refine ⟨rfl, (hyes hwait).1, (hyes hwait).2.1, (hyes hwait).2.2.1, fun hstatus => ?_⟩
    rw [← (hyes hwait).2.2.2 hstatus]
    exact if_pos ⟨hconf, rfl⟩

/-- Another frame leaves the record as it is. -/
theorem step_other (hreq : e.frame.subtype ≠ p2pGoNegoReq) (hresp : e.frame.subtype ≠ p2pGoNegoResp)
    (hconf : e.frame.subtype ≠ p2pGoNegoConf) (hs : t.step e = some t') :
    t'.recorded = t.recorded ∧ t'.info = t.info ∧ t'.isGo = t.isGo := by
  have hresets : t.resets e = false := by
    unfold resets
    rw [decide_eq_false hreq]
    rfl
  have hrec : t.records e = false := by
    unfold records
    rw [decide_eq_false hreq, decide_eq_false hresp, decide_eq_false hconf]
    rfl
  unfold step at hs
  rw [e.frame.checked.2, hresets, hrec, Option.map_map] at hs
  obtain ⟨r, hr, rfl⟩ := Option.map_eq_some_iff.mp hs
  exact ⟨rfl, checkSubtype_other hr hreq hresp hconf, if_neg fun hc => hconf hc.1⟩

/-- The last Request recorded. -/
def request (t : Tracked) : Option P2pEvent :=
  t.recorded.find? fun e => e.frame.subtype = p2pGoNegoReq

end Tracked

/-! ## 7. Runs without reflected frames -/

/-- **Nothing is taken that the record does not tell from an answer**: the P2P element of a frame
of the negotiation is found, a Response that is due goes against the Request in `active` and a
Confirmation with it, and after a refusal no Confirmation with token zero comes, unless the Request
had that token. -/
structure Straight (t : Tracked) (e : P2pEvent) : Prop where
  found : e.frame.subtype = p2pGoNegoReq ∨ e.frame.subtype = p2pGoNegoResp ∨
    e.frame.subtype = p2pGoNegoConf → e.frame.Found
  resp : e.frame.subtype = p2pGoNegoResp → t.info.awaits 0 e.frame.token e.peer = true →
    (e.tx = true ↔ t.info.active ≠ 1)
  conf : e.frame.subtype = p2pGoNegoConf → t.info.awaits 1 e.frame.token e.peer = true →
    (e.tx = true ↔ t.info.active = 1)
  refused : e.frame.subtype = p2pGoNegoConf → t.info.awaits 1 e.frame.token e.peer = true →
    t.info.status ≠ 0 → ∀ req ∈ t.request, req.frame.token = 0

theorem P2pFrame.goIntent_lt (f : P2pFrame) : f.goIntent.toNat < 32 := by
  unfold P2pFrame.goIntent
  cases hc : contentOf f.attrs p2pAttrGoIntent with
  | none => decide
  | some c =>
    obtain ⟨a, ha, rfl⟩ := Option.map_eq_some_iff.mp hc
    have hid : a.id = p2pAttrGoIntent := by simpa using List.find?_some ha
    obtain ⟨hlen, hlt⟩ := (f.wellFormed a (List.mem_of_find?_eq_some ha)).2.1 hid
    obtain ⟨b, hb⟩ := List.length_eq_one_iff.mp hlen
    rw [hb] at hlt
    change ((a.content.head?).getD 0).toNat < 32
    rw [hb]
    exact UInt8.lt_iff_toNat_lt.mp (hlt b List.mem_cons_self)

/-- On intents of four bits the driver's comparison is the one of the standard. -/
theorem rtwP2pNegoIntentCompare_iff {req resp : UInt8} (hreq : req.toNat < 32)
    (hresp : resp.toNat < 32) :
    rtwP2pNegoIntentCompare req resp = true ↔ RequesterIsGo req resp :=
  UInt8.forall_lt (P := fun req => ∀ resp : UInt8, resp.toNat < 32 →
      (rtwP2pNegoIntentCompare req resp = true ↔ RequesterIsGo req resp))
    (fun a => UInt8.forall_lt
      (P := fun resp => rtwP2pNegoIntentCompare (UInt8.ofNat a) resp = true ↔
        RequesterIsGo (UInt8.ofNat a) resp)
      ((by decide +kernel : ∀ a b : Fin 32,
        rtwP2pNegoIntentCompare (UInt8.ofNat a) (UInt8.ofNat b) = true ↔
          RequesterIsGo (UInt8.ofNat a) (UInt8.ofNat b)) a))
    req hreq resp hresp

/-- What the record holds of a Request. -/
structure Asked (t : Tracked) (req : P2pEvent) : Prop where
  subtype : req.frame.subtype = p2pGoNegoReq
  peer : t.info.peerMac = req.peer
  active : t.info.active = if req.tx then 1 else 0
  intent : t.info.reqIntent = req.frame.goIntent

/-- What the record holds, by its state. -/
inductive TrackedInv (t : Tracked) : Prop
  | reset (state : t.info.state = 0xff)
  | asked (req : P2pEvent) (older : List P2pEvent) (state : t.info.state = 0)
    (recorded : t.recorded = req :: older) (asked : Asked t req)
    (token : t.info.token = req.frame.token)
  | answered (req resp : P2pEvent) (older : List P2pEvent) (state : t.info.state = 1)
    (recorded : t.recorded = resp :: req :: older) (asked : Asked t req)
    (subtype : resp.frame.subtype = p2pGoNegoResp) (same : resp.frame.token = req.frame.token)
    (peer : resp.peer = req.peer) (direction : resp.tx = !req.tx)
    (intent : t.info.rspIntent = resp.frame.goIntent)
    (token : t.info.token = if t.info.status = 0 then req.frame.token else 0)
  | complete (state : t.info.state = 2) (one : OneHandshake t)

section Run

variable {t t' : Tracked} {e : P2pEvent}

theorem awaits_iff {i : NegoInfo} {state token : UInt8} {peer : MacAddr} :
    i.awaits state token peer = true ↔ i.token = token ∧ i.state = state ∧ i.peerMac = peer :=
  decide_eq_true_iff

/-- A frame that is not recorded changes nothing of what the record holds. -/
theorem TrackedInv.congr (h : TrackedInv t)
    (hsame : t'.recorded = t.recorded ∧ t'.info = t.info ∧ t'.isGo = t.isGo) : TrackedInv t' := by
  obtain ⟨hrec, hinfo, hgo⟩ := hsame
  cases h with
  | reset state => exact .reset (by rw [hinfo]; exact state)
  | asked req older state recorded asked token =>
    exact .asked req older (hinfo ▸ state) (hrec.trans recorded)
      ⟨asked.subtype, hinfo ▸ asked.peer, hinfo ▸ asked.active, hinfo ▸ asked.intent⟩
      (hinfo ▸ token)
  | answered req resp older state recorded asked subtype same peer direction intent token =>
    exact .answered req resp older (hinfo ▸ state) (hrec.trans recorded)
      ⟨asked.subtype, hinfo ▸ asked.peer, hinfo ▸ asked.active, hinfo ▸ asked.intent⟩ subtype same
      peer direction (hinfo ▸ intent) (hinfo ▸ token)
  | complete state one =>
    refine .complete (hinfo ▸ state) ?_
    unfold OneHandshake
    rw [hrec, hinfo, hgo]
    exact one

/-- **One step** of a straight run keeps the record true. -/
theorem TrackedInv.step (h : TrackedInv t) (hc : Straight t e) (hs : t.step e = some t') :
    TrackedInv t' := by
  by_cases hreq : e.frame.subtype = p2pGoNegoReq
  · obtain ⟨hrec, hstate, htoken, hpeer, hactive, hintent⟩ :=
      Tracked.step_req (hc.found (.inl hreq)) hreq hs
    exact .asked e _ hstate hrec ⟨hreq, hpeer, hactive, hintent⟩ htoken
  by_cases hresp : e.frame.subtype = p2pGoNegoResp
  · have hstep := Tracked.step_resp (hc.found (.inr (.inl hresp))) hresp hs
    cases hwait : t.info.awaits 0 e.frame.token e.peer with
    | false => exact h.congr (hstep.1 hwait)
    | true =>
      obtain ⟨htoken, hstate, hpeer⟩ := awaits_iff.mp hwait
      obtain ⟨hrec, hstate', hpeer', hactive', hreq', hrsp', hstatus', htoken'⟩ := hstep.2 hwait
      cases h with
      | asked req older state recorded asked token =>
        have hdir : e.tx = !req.tx := by
          have hagainst := hc.resp hresp hwait
          rw [asked.active] at hagainst
          cases htx : req.tx <;> cases hetx : e.tx <;> simp_all
        refine .answered req e older hstate' (by rw [hrec, recorded])
          ⟨asked.subtype, hpeer'.trans asked.peer, hactive'.trans asked.active,
            hreq'.trans asked.intent⟩ hresp (htoken.symm.trans token)
          (hpeer.symm.trans asked.peer) hdir hrsp' ?_
        rw [htoken', hstatus', token]
        cases hst : e.frame.status with
        | none => rfl
        | some s => by_cases hzero : s = 0 <;> simp [hzero]
      | reset state => exact absurd (state.symm.trans hstate) (by decide)
      | answered _ _ _ state => exact absurd (state.symm.trans hstate) (by decide)
      | complete state => exact absurd (state.symm.trans hstate) (by decide)
  by_cases hconf : e.frame.subtype = p2pGoNegoConf
  · have hstep := Tracked.step_conf (hc.found (.inr (.inr hconf))) hconf hs
    cases hwait : t.info.awaits 1 e.frame.token e.peer with
    | false => exact h.congr (hstep.1 hwait)
    | true =>
      obtain ⟨htoken, hstate, hpeer⟩ := awaits_iff.mp hwait
      obtain ⟨hrec, hstate', hreq', hrsp', hrole⟩ := hstep.2 hwait
      cases h with
      | answered req resp older state recorded asked subtype same peer direction intent token =>
        have hdir : e.tx = req.tx := by
          have hwith := hc.conf hconf hwait
          rw [asked.active] at hwith
          cases htx : req.tx <;> cases hetx : e.tx <;> simp_all
        have hrequest : t.request = some req := by
          unfold Tracked.request
          rw [recorded, List.find?_cons_of_neg (by rw [subtype]; decide),
            List.find?_cons_of_pos (by rw [asked.subtype]; decide)]
        have hsame : e.frame.token = req.frame.token := by
          rw [← htoken, token]
          split
          · rfl
          · rename_i hrefused
            exact (hc.refused hconf hwait hrefused req hrequest).symm
        refine .complete hstate' ⟨req, resp, e, older, by rw [hrec, recorded], asked.subtype, subtype,
          hconf, same, hsame, peer, hpeer.symm.trans asked.peer, direction, hdir,
          hreq'.trans asked.intent, hrsp'.trans intent, fun hstatus => ?_⟩
        have hcompare := rtwP2pNegoIntentCompare_iff req.frame.goIntent_lt resp.frame.goIntent_lt
        rw [hrole hstatus, asked.intent, intent, hdir, ← hcompare]
        cases req.tx <;>
          cases rtwP2pNegoIntentCompare req.frame.goIntent resp.frame.goIntent <;> simp
      | reset state => exact absurd (state.symm.trans hstate) (by decide)
      | asked _ _ state => exact absurd (state.symm.trans hstate) (by decide)
      | complete state => exact absurd (state.symm.trans hstate) (by decide)
  exact h.congr (Tracked.step_other hreq hresp hconf hs)

theorem TrackedInv.run (h : Tracked.Run Straight t) : TrackedInv t := by
  induction h with
  | start => exact .reset rfl
  | step _ hc hs ih => exact ih.step hc hs

end Run

/-- **A complete record is of one handshake** in every run in which the frames go their way. -/
theorem nego_complete_one_handshake {t : Tracked} (h : Tracked.Run Straight t)
    (hstate : t.info.state = 2) : OneHandshake t := by
  cases TrackedInv.run h with
  | complete _ one => exact one
  | reset state => exact absurd (state.symm.trans hstate) (by decide)
  | asked _ _ state => exact absurd (state.symm.trans hstate) (by decide)
  | answered _ _ _ state => exact absurd (state.symm.trans hstate) (by decide)

/-! ## 8. Three frames -/

/-- A frame with these addresses, without elements around the P2P element. -/
def plainP2pFrame (addr1 addr2 : MacAddr) (subtype token : UInt8) (attrs : List P2pAttr)
    (short : (attrBytes attrs).length + 4 < 256) (wellFormed : ∀ a ∈ attrs, a.WellFormed) :
    P2pFrame :=
  let hdr : List UInt8 := [0xd0, 0, 0, 0] ++ addr1.toBytes ++ addr2.toBytes ++ addr2.toBytes ++ [0, 0]
  let body := rtwWlanCategoryPublic :: actPublicVendor :: (p2pOui ++ subtype :: token ::
    (([] : List Element).flatMap Element.bytes ++ (p2pIeBytes attrs ++ [])))
  { mem := overwrite (fun _ => 0) 0 (hdr ++ body)
    len := 24 + body.length
    subtype, token, attrs, short, wellFormed
    before := []
    after := []
    fits := by
      have hbody : body.length = 14 + (attrBytes attrs).length := by
        change (_ + 1 + 1) = _
        simp only [List.length_append, List.length_cons, length_p2pIeBytes, List.flatMap_nil,
          List.length_nil]
        have h4 : p2pOui.length = 4 := rfl
        omega
      omega
    body := by
      rw [Nat.add_sub_cancel_left]
      exact (readBytes_append (readBytes_overwrite _ 0 (hdr ++ body))).2 }

def thisDevice : MacAddr := ⟨0x02, 0, 0, 0, 0, 0x01⟩
def otherDevice : MacAddr := ⟨0x02, 0, 0, 0, 0, 0x02⟩

/-- The other device asks, with intent 7 and the tie breaker set. -/
def rxNegoReq : P2pEvent :=
  ⟨false, plainP2pFrame thisDevice otherDevice p2pGoNegoReq 5 [⟨p2pAttrGoIntent, [15]⟩]
    (by decide +kernel) (by decide +kernel)⟩

/-- The answer, with the same intent. -/
def negoResp (tx : Bool) : P2pEvent :=
  ⟨tx, plainP2pFrame (if tx then otherDevice else thisDevice) (if tx then thisDevice else otherDevice)
    p2pGoNegoResp 5 [⟨p2pAttrStatus, [0]⟩, ⟨p2pAttrGoIntent, [14]⟩]
    (by decide +kernel) (by decide +kernel)⟩

/-- The other device confirms. -/
def rxNegoConf : P2pEvent :=
  ⟨false, plainP2pFrame thisDevice otherDevice p2pGoNegoConf 5 [⟨p2pAttrStatus, [0]⟩]
    (by decide +kernel) (by decide +kernel)⟩

namespace Tracked

def afterReq : Tracked := (start.step rxNegoReq).get (by decide +kernel)

def afterResp (tx : Bool) : Tracked :=
  (afterReq.step (negoResp tx)).get (by cases tx <;> decide +kernel)

def afterConf (tx : Bool) : Tracked :=
  ((afterResp tx).step rxNegoConf).get (by cases tx <;> decide +kernel)

/-- The three frames are a run, if each meets the condition. -/
theorem run_afterConf {C : Tracked → P2pEvent → Prop} (tx : Bool) (h₁ : C start rxNegoReq)
    (h₂ : C afterReq (negoResp tx)) (h₃ : C (afterResp tx) rxNegoConf) : Run C (afterConf tx) :=
  .step (.step (.step .start h₁ (Option.some_get _).symm) h₂ (Option.some_get _).symm) h₃
    (Option.some_get _).symm

end Tracked

/-- A Request is answered and confirmed. -/
theorem nego_complete_answered :
    (Tracked.afterConf true).info.state = 2 ∧ OneHandshake (Tracked.afterConf true) := by
  have hstate : (Tracked.afterConf true).info.state = 2 := by decide +kernel
  have hfound : ∀ {a b s k l hs hw}, (plainP2pFrame a b s k l hs hw).Found :=
    ⟨fun e he => absurd he List.not_mem_nil, (by decide : 0 + 5 < 768)⟩
  refine ⟨hstate, nego_complete_one_handshake (Tracked.run_afterConf true ?_ ?_ ?_) hstate⟩
  · exact ⟨fun _ => hfound, by decide +kernel, by decide +kernel, by decide +kernel⟩
  · exact ⟨fun _ => hfound, by decide +kernel, by decide +kernel, by decide +kernel⟩
  · exact ⟨fun _ => hfound, by decide +kernel, by decide +kernel,
      fun _ _ hrefused => absurd (by decide +kernel) hrefused⟩

/-- A Request, a Response and a Confirmation that all come from the other device complete the
record. -/
theorem nego_complete_reflected :
    ¬ ∀ t, Tracked.Run (fun _ _ => True) t → t.info.state = 2 → OneHandshake t := by
  intro hall
  have hstate : (Tracked.afterConf false).info.state = 2 := by decide +kernel
  have hways : (Tracked.afterConf false).recorded.map P2pEvent.tx = [false, false, false] := by
    decide +kernel
  obtain ⟨req, resp, conf, older, hrec, -, -, -, -, -, -, -, hresp, -⟩ :=
    hall _ (Tracked.run_afterConf false trivial trivial trivial) hstate
  rw [hrec, List.map_cons, List.map_cons, List.map_cons] at hways
  injection hways with _ hways
  injection hways with hresp' hways
  injection hways with hreq' _
  rw [hresp', hreq'] at hresp
  exact absurd hresp (by decide)

end Rtl8723bs
