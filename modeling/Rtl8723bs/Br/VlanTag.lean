/-
# NAT2.5 and VLAN tags

A frame with a VLAN tag should be treated as the same frame without, and keep its tag.

* `restoreTag_frame` and `takeTag_withTag`: putting a tag back and cutting it out are inverse.
* `vlan_transparent_iff`: a frame that came down always keeps its tag.  A frame of a client keeps it
  unless the database is asked about it and has no rule for it: then it is let go without.
-/
import Rtl8723bs.Br.ClientTx
import Rtl8723bs.Br.Nat25Run

namespace Rtl8723bs

namespace Nat25

open HashList OverlapCopy

variable {c : Clock}

/-! ## 1. A tag cut out and put back -/

/-- The frame with a tag behind the addresses. -/
def EthFrame.withTag (f : EthFrame) (t : Skb.VlanHdr) : EthFrame :=
  { f with
    bytes := fun x =>
      if x < 12 then f.bytes x
      else if x < 16 then [0x81, 0, t.1, t.2].getD (x - 12) 0
      else f.bytes (x - 4)
    len := f.len + 4 }

def Skb.withTag (s : Skb) (t : Skb.VlanHdr) : Skb := s.setFrame (s.frame.withTag t)

variable {s s' : Skb} {f : EthFrame} {t : Skb.VlanHdr}

theorem put_apply (f : EthFrame) (off : Nat) (l : List UInt8) (x : Nat) :
    (f.put off l).bytes x =
      if off ≤ x ∧ x < off + l.length then l.getD (x - off) 0 else f.bytes x := rfl

/-- **Putting a tag back.**  What the headroom holds does not matter. -/
theorem restoreTag_frame (s : Skb) (t : Skb.VlanHdr) :
    (s.restoreTag t).frame = s.frame.withTag t := by
  have hcopy := @copyAscending_eq _ 2 0 4 (by omega) 6
    (s.push 4).frame.bytes
  refine EthFrame.ext ?_ rfl rfl
  funext x
  simp only [Skb.restoreTag, hcopy, put_apply, EthFrame.withTag, htons, List.length_cons,
    List.length_nil]
  by_cases hx : x < 12
  · rw [if_neg (by omega), if_neg (by omega), if_pos hx, copied, putWord, if_pos (by omega)]
    simp only [Skb.push]
    rw [if_neg (by omega)]
    congr 1
    omega
  · by_cases hx' : x < 16
    · obtain rfl | rfl | rfl | rfl : x = 12 ∨ x = 13 ∨ x = 14 ∨ x = 15 := by omega
      all_goals rfl
    · rw [if_neg (by omega), if_neg (by omega), if_neg hx, if_neg hx', copied, putWord,
        if_neg (by omega)]
      simp only [Skb.push]
      rw [if_neg (by omega)]

/-- **Cutting it out.** -/
theorem cutTag_withTag (hs : s.frame = f.withTag t) : s.cutTag.1.frame = f ∧ s.cutTag.2 = t := by
  have hcopy := @copyDescending_eq _ 2 4 0 (by omega) 6 s.frame.bytes
  have hlen : ¬s.frame.len < 4 := by
    rw [hs]
    simp only [EthFrame.withTag]
    omega
  constructor
  · simp only [Skb.cutTag, hcopy, Skb.pull, if_neg hlen]
    refine EthFrame.ext ?_ ?_ ?_
    · funext x
      simp only [copied, putWord, hs, EthFrame.withTag]
      by_cases hx : x < 12
      · rw [if_pos (by omega), if_pos (by omega)]
        congr 1
        omega
      · rw [if_neg (by omega), if_neg (by omega), if_neg (by omega)]
        congr 1
    · simp only [hs, EthFrame.withTag]
      omega
    · simp only [hs, EthFrame.withTag]
  · simp [Skb.cutTag, hs, EthFrame.withTag]

theorem withTag_protocol (f : EthFrame) (t : Skb.VlanHdr) :
    (f.withTag t).protocol = ethP8021q := rfl

theorem withTag_dst (f : EthFrame) (t : Skb.VlanHdr) : (f.withTag t).dst = f.dst := rfl

theorem withTag_src (f : EthFrame) (t : Skb.VlanHdr) : (f.withTag t).src = f.src := rfl

theorem takeTag_withTag (hs : s.frame = f.withTag t) :
    s.takeTag.1.frame = f ∧ s.takeTag.2 = some t := by
  have htag : s.isVlanTag = true := by
    rw [Skb.isVlanTag, hs, withTag_protocol, decide_eq_true_iff]
  obtain ⟨hframe, hhdr⟩ := cutTag_withTag hs
  simp only [Skb.takeTag, htag, if_true, hframe, hhdr, and_self]

theorem takeTag_none (hs : s.frame.protocol ≠ ethP8021q) : s.takeTag = (s, none) := by
  simp [Skb.takeTag, Skb.isVlanTag, hs]

/-- A tag that was cut out of a copy. -/
theorem cutCopy_some (s : Skb) (t : Skb.VlanHdr) :
    (cutCopy s (some t)).1.frame = s.frame ∧ (cutCopy s (some t)).2 = some t := by
  obtain ⟨hframe, hhdr⟩ := cutTag_withTag (restoreTag_frame s t)
  exact ⟨hframe, by rw [cutCopy, hhdr]⟩

/-! ## 2. What NAT2.5 has no rule for -/

variable (e : Env c) (b : Bridge c)

/-- A PADI or a PADR that cannot be given a relay tag: the one it has is too long, or goes over the
end of the frame, or there is no room behind the frame. -/
def noRelayTag (f : EthFrame) : Bool :=
  match findPppoeTag f pttRelaySid with
  | none => f.tailroom < relayHead * 256 + tagHdrLen
  | some p =>
    let old := be16 f.bytes (p + 2)
    28 < old ∨ f.len < p + (tagHdrLen + old) ∨ f.len < tagHdrLen + old ∨
      f.tailroom + (tagHdrLen + old) < (relayHead + old) * 256 + tagHdrLen

/-- `NAT25_INSERT` has no rule for a frame. -/
def insertRefused (hasIpx addPPPoETag : Bool) (f : EthFrame) : Bool :=
  match part f hasIpx with
  | .ip => malformedIp f
  | .arp => unknownArp f
  | .ipxApple =>
    match findLayer f with
    | some (.aarp ea) => badAarp f ea
    | some _ => false
    | none => true
  | .pppoe =>
    pppoeSid f = 0 ∧
      (if pppoeCode f = padiCode ∨ pppoeCode f = padrCode then addPPPoETag && noRelayTag f
      else true)
  | .plain => false
  | .ipv6 => malformedIpv6 f
  | .other => true

variable {e b} {h : Handled c}

theorem relayTag_len (g : EthFrame) {old : List UInt8} (hold : old.length ≤ 28) :
    le16 (relayTag e g old) 2 = (relayHead + old.length) * 256 := by
  have hlow : (relayHead + old.length) / 256 = 0 := by
    simp only [relayHead, magicCodeLen, rtlRelayTagLen]
    omega
  have hhigh : (relayHead + old.length) % 256 = relayHead + old.length := by
    simp only [relayHead, magicCodeLen, rtlRelayTagLen]
    omega
  simp only [le16, relayTag, overwrite, htons, MacAddr.toBytes]
  simp [hlow, hhigh, Nat.mul_comm]

/-- The relay tag of the client is taken, and then there is room or not. -/
theorem takeRelayTag_cases (f : EthFrame) :
    (takeRelayTag f = none ∧ noRelayTag f = true) ∨
    ∃ g old, takeRelayTag f = some (g, old) ∧ old.length ≤ 28 ∧
      (noRelayTag f = true ↔ g.tailroom < (relayHead + old.length) * 256 + tagHdrLen) := by
  rcases hfind : findPppoeTag f pttRelaySid with _ | p
  · refine .inr ⟨f, [], by simp only [takeRelayTag, hfind], by simp, ?_⟩
    simp only [noRelayTag, hfind, decide_eq_true_eq, List.length_nil, Nat.add_zero]
  · simp only [takeRelayTag, noRelayTag, hfind, decide_eq_true_eq]
    by_cases hlong : 40 < be16 f.bytes (p + 2) + tagHdrLen + relayHead
    · refine .inl ⟨if_pos hlong, .inl ?_⟩
      simp only [tagHdrLen, relayHead, magicCodeLen, rtlRelayTagLen] at hlong
      omega
    · have hshort : be16 f.bytes (p + 2) ≤ 28 := by
        simp only [tagHdrLen, relayHead, magicCodeLen, rtlRelayTagLen] at hlong
        omega
      rw [if_neg hlong, skbPullAndMerge]
      by_cases hend : f.len < p + (tagHdrLen + be16 f.bytes (p + 2)) ∨
          f.len < tagHdrLen + be16 f.bytes (p + 2)
      · exact .inl ⟨by rw [if_pos hend]; rfl, .inr (by tauto)⟩
      · rw [if_neg hend]
        refine .inr ⟨_, _, rfl, by rwa [length_readBytes], ?_⟩
        rw [length_readBytes]
        constructor
        · rintro (hbad | hbad | hbad | hroom)
          · omega
          · exact absurd (.inl hbad) hend
          · exact absurd (.inr hbad) hend
          · exact hroom
        · exact fun hroom => .inr (.inr (.inr hroom))

/-- A PADI or a PADR is let go without a relay tag in the cases of `noRelayTag` only. -/
theorem insertRelayTag_value (f : EthFrame) :
    (insertRelayTag e b f).value = if noRelayTag f then -1 else 0 := by
  rcases takeRelayTag_cases f with ⟨htake, hno⟩ | ⟨g, old, htake, hold, hno⟩
  · simp only [insertRelayTag, htake, hno, if_true, unchanged]
  · have hlen := relayTag_len (e := e) g hold
    simp only [insertRelayTag, htake, addPppoeTag, hlen]
    by_cases hroom : g.tailroom < (relayHead + old.length) * 256 + tagHdrLen
    · simp only [if_pos hroom, hno.mpr hroom, if_true]
    · have hyes : noRelayTag f = false := Bool.eq_false_iff.mpr fun hyes => hroom (hno.mp hyes)
      simp only [if_neg hroom, hyes, Bool.false_eq_true, if_false]

theorem insertOneClient_value (f : EthFrame) :
    (insertOneClient b f).value = -2 ∨ (insertOneClient b f).value = 0 := by
  unfold insertOneClient
  split
  · exact .inl rfl
  · exact .inr rfl

theorem insertSession_value (f : EthFrame) : (insertSession e b f).value = 0 := by
  simp only [insertSession]
  split <;> rfl

/-- **What `NAT25_INSERT` returns**: -1 for the frames it has no rule for, and -2 for no more than
the discovery of a second client. -/
theorem insert_value (hh : nat25DbHandle e b f .insert = some h) :
    if insertRefused e.hasIpx b.ethBrExtInfo.addPPPoETag f then h.value = -1
    else h.value = 0 ∨ h.value = -2 := by
  unfold nat25DbHandle at hh
  unfold insertRefused
  cases hpart : part f e.hasIpx with
  | ip =>
    simp only [hpart, Option.some.injEq] at hh ⊢
    subst hh
    simp only [handleIp]
    split
    · rfl
    · split <;> exact .inl rfl
  | arp =>
    simp only [hpart, Option.some.injEq] at hh ⊢
    subst hh
    simp only [handleArp]
    split
    · rfl
    · exact .inl rfl
  | ipxApple =>
    simp only [hpart, Option.some.injEq] at hh ⊢
    subst hh
    simp only [handleIpxApple]
    rcases findLayer f with _ | ipx | ea | ddp
    · rfl
    · have hzero : (handleIpx e b f ipx .insert).value = 0 := by
        simp only [handleIpx]
        split <;> rfl
      exact .inl hzero
    · simp only [handleAarp]
      split
      · rfl
      · exact .inl rfl
    · exact .inl rfl
  | pppoe =>
    simp only [hpart, Option.some.injEq] at hh ⊢
    subst hh
    simp only [handlePppoe]
    by_cases hsid : pppoeSid f = 0
    · by_cases hcode : pppoeCode f = padiCode ∨ pppoeCode f = padrCode
      · cases htag : b.ethBrExtInfo.addPPPoETag
        · simpa [hsid, hcode] using (insertOneClient_value f).symm
        · cases hno : noRelayTag f <;> simp [hsid, hcode, insertRelayTag_value, hno]
      · simp [hsid, hcode, unchanged]
    · simp [hsid, insertSession_value]
  | plain =>
    simp only [hpart, Option.some.injEq] at hh ⊢
    subst hh
    exact .inl rfl
  | ipv6 =>
    cases hbad : malformedIpv6 f
    · simp only [hpart, handleIpv6, hbad, Bool.false_eq_true, if_false] at hh ⊢
      split at hh
      · cases hh
        exact .inl rfl
      · obtain ⟨g, -, rfl⟩ := Option.map_eq_some_iff.mp hh
        exact .inl rfl
    · simp only [hpart, handleIpv6, hbad, if_true, Option.some.injEq] at hh ⊢
      subst hh
      rfl
  | other =>
    simp only [hpart, Option.some.injEq] at hh ⊢
    subst hh
    rfl

/-- A frame without a rule does not keep `scan_tlv` busy. -/
theorem insert_returns (hno : insertRefused e.hasIpx b.ethBrExtInfo.addPPPoETag f = true) :
    ∃ h, nat25DbHandle e b f .insert = some h := by
  unfold nat25DbHandle
  unfold insertRefused at hno
  cases hpart : part f e.hasIpx with
  | ipv6 =>
    simp only [hpart] at hno
    simp [handleIpv6, hno]
  | _ => exact ⟨_, rfl⟩

/-- `NAT25_CHECK` has a frame copied before it is changed. -/
def copiedFirst (hasIpx : Bool) (f : EthFrame) : Bool :=
  match part f hasIpx with
  | .arp => !unknownArp f
  | .ipxApple =>
    match findLayer f with
    | some (.ipx ipx) => ownNode f ipx
    | some (.aarp ea) => !badAarp f ea
    | _ => false
  | .pppoe => pppoeSid f = 0
  | .ipv6 => !malformedIpv6 f && isMcast f.dst
  | _ => false

theorem check_value (e : Env c) (b : Bridge c) (f : EthFrame) :
    ∃ h, nat25DbHandle e b f .check = some h ∧
      (h.value = 0 ↔ copiedFirst e.hasIpx f = true) := by
  unfold nat25DbHandle copiedFirst
  cases part f e.hasIpx with
  | ip => exact ⟨_, rfl, by simp [handleIp, unchanged]⟩
  | arp =>
    refine ⟨_, rfl, ?_⟩
    cases hbad : unknownArp f <;> simp [handleArp, hbad, unchanged]
  | ipxApple =>
    refine ⟨_, rfl, ?_⟩
    simp only [handleIpxApple]
    rcases findLayer f with _ | ipx | ea | ddp
    · simp [unchanged]
    · cases hown : ownNode f ipx <;> simp [handleIpx, hown, unchanged]
    · cases hbad : badAarp f ea <;> simp [handleAarp, hbad, unchanged]
    · simp [handleDdp, unchanged]
  | pppoe =>
    refine ⟨_, rfl, ?_⟩
    by_cases hsid : pppoeSid f = 0 <;> simp [handlePppoe, hsid, unchanged]
  | plain => exact ⟨_, rfl, by simp [handlePlain, unchanged]⟩
  | ipv6 =>
    simp only [handleIpv6]
    cases hbad : malformedIpv6 f
    · refine ⟨_, rfl, ?_⟩
      cases hmc : isMcast f.dst <;> simp [unchanged]
    · exact ⟨_, rfl, by simp [unchanged]⟩
  | other => exact ⟨_, rfl, by simp [unchanged]⟩

/-! ## 3. The two ways side by side -/

/-- How far a frame is, without a tag and with it: they are alike, and the one that goes on has its
tag at hand. -/
def Progress.Alike (t : Skb.VlanHdr) : Progress c → Progress c → Prop
  | .goOn b s tag, .goOn b' s' tag' =>
    b' = b ∧ s'.frame = s.frame ∧ tag = none ∧ tag' = some t
  | .done o, .done o' =>
    o'.bridge = o.bridge ∧ o'.value = o.value ∧ (o.value = 0 → o'.skb.frame = o.skb.frame)
  | _, _ => False

/-- The way through the database, with the copies that may be made. -/
theorem throughDb_eq (tag : Option Skb.VlanHdr) {checked : Handled c}
    (hcheck : nat25DbHandle e b s.frame .check = some checked) :
    ∃ s₁, s₁.frame = s.frame ∧ throughDb e b s tag =
      if checked.value = 0 ∧ e.skbCopy = false then some (.done ⟨b, s.giveTag tag, -1⟩)
      else if e.skbLinearize = false then some (.done ⟨b, s₁, -1⟩)
      else (nat25DbHandle e b s.frame .insert).map fun h =>
        if h.value = -2 then .done ⟨h.bridge, s₁.setFrame h.frame, -1⟩
        else if h.value < 0 then .done ⟨h.bridge, s₁.setFrame h.frame, 0⟩
        else .goOn h.bridge (s₁.setFrame h.frame) tag := by
  have hcut : (cutCopy s tag).1.frame = s.frame ∧ (cutCopy s tag).2 = tag := by
    cases tag with
    | none => exact ⟨rfl, rfl⟩
    | some t => exact cutCopy_some s t
  simp only [throughDb, hcheck, Option.bind_some, Bool.not_eq_true']
  by_cases hzero : checked.value = 0
  · refine ⟨(cutCopy s tag).1, hcut.1, ?_⟩
    simp only [hzero, true_and, if_true, hcut.1, hcut.2]
  · exact ⟨s, rfl, by simp only [hzero, false_and, if_false]⟩

/-- **The database does not see the tag.** -/
theorem throughDb_alike (hs : s'.frame = s.frame) :
    Option.Rel (Progress.Alike t) (throughDb e b s none) (throughDb e b s' (some t)) := by
  obtain ⟨checked, hcheck, -⟩ := check_value e b s.frame
  obtain ⟨s₁, hs₁, heq⟩ := throughDb_eq none hcheck
  obtain ⟨s₂, hs₂, heq'⟩ := throughDb_eq (s := s') (some t) (hs ▸ hcheck)
  rw [heq, heq', hs]
  split
  · exact .some ⟨rfl, rfl, by simp⟩
  · split
    · exact .some ⟨rfl, rfl, by simp⟩
    · cases nat25DbHandle e b s.frame .insert with
      | none => exact .none
      | some h =>
        refine .some ?_
        dsimp only
        split
        · exact ⟨rfl, rfl, by simp⟩
        · split
          · exact ⟨rfl, rfl, fun _ => rfl⟩
          · exact ⟨rfl, rfl, rfl, rfl⟩

/-- A frame is let go as it is when `NAT25_INSERT` has no rule for it. -/
theorem throughDb_letGo :
    (∃ o, throughDb e b s none = some (.done o) ∧ o.value = 0) ↔
      ((!copiedFirst e.hasIpx s.frame || e.skbCopy) && e.skbLinearize &&
        insertRefused e.hasIpx b.ethBrExtInfo.addPPPoETag s.frame) = true := by
  obtain ⟨checked, hcheck, hzero⟩ := check_value e b s.frame
  obtain ⟨s₁, -, heq⟩ := throughDb_eq none hcheck
  rw [heq]
  by_cases hcopy : checked.value = 0 ∧ e.skbCopy = false
  · rw [if_pos hcopy]
    simp [hzero.mp hcopy.1, hcopy.2]
  · have hcopied : (!copiedFirst e.hasIpx s.frame || e.skbCopy) = true := by
      rw [hzero] at hcopy
      revert hcopy
      cases copiedFirst e.hasIpx s.frame <;> cases e.skbCopy <;> simp
    rw [if_neg hcopy, hcopied, Bool.true_and]
    cases hlin : e.skbLinearize
    · simp
    · simp only [Bool.true_eq_false, if_false, Bool.true_and]
      constructor
      · rintro ⟨o, hdone, hvalue⟩
        obtain ⟨h, hh, hout⟩ := Option.map_eq_some_iff.mp hdone
        by_contra hrule
        have hcases := insert_value hh
        rw [if_neg hrule] at hcases
        rcases hcases with hval | hval
        · simp [hval] at hout
        · simp only [hval, if_true, Progress.done.injEq] at hout
          subst hout
          simp at hvalue
      · intro hrule
        obtain ⟨h, hh⟩ := insert_returns hrule
        have hval := insert_value hh
        rw [if_pos hrule] at hval
        exact ⟨_, by rw [hh, Option.map_some, hval]; rfl, rfl⟩

/-! ## 4. Both directions -/

/-- What a function makes of a frame with a tag, against what it makes of the frame without: the
same value and the same state, and for the values in `kept` the same frame, with the tag. -/
def Transparent (kept : Int → Prop) (t : Skb.VlanHdr) :
    Option (Passed c) → Option (Passed c) → Prop :=
  Option.Rel fun o o' => o'.value = o.value ∧ o'.bridge = o.bridge ∧
    (kept o.value → o'.skb.frame = o.skb.frame.withTag t)

/-- `rtw_br_client_tx`, for a frame that the cache does not take. -/
def TxTransparent (e : Env c) (b : Bridge c) (s : Skb) (t : Skb.VlanHdr) : Prop :=
  Transparent (· = 0) t (clientTxSlow e b s) (rtwBrClientTx e b (s.withTag t))

/-- `nat25_handle_frame`. -/
def RxTransparent (e : Env c) (b : Bridge c) (s : Skb) (t : Skb.VlanHdr) : Prop :=
  Transparent (fun v => v = 0 ∨ v = -1) t (nat25HandleFrame e b s)
    (nat25HandleFrame e b (s.withTag t))

/-- The cache knows the source of an IP frame, and the database is not asked. -/
def cached (b : Bridge c) (f : EthFrame) : Bool :=
  f.protocol = ethPIp ∧
    if b.db.scdbMac = f.src then b.db.scdbEntry.isSome
    else (scdbFindEntry b (generateIpv4NetworkAddr f.bytes (ethHlen + 12))).isSome

/-- The tag of a frame is lost: the database is asked, the copies are made, and `NAT25_INSERT` has
no rule for the frame. -/
def tagLost (e : Env c) (b : Bridge c) (f : EthFrame) : Bool :=
  !cached b f && ((!copiedFirst e.hasIpx f || e.skbCopy) && e.skbLinearize &&
    insertRefused e.hasIpx b.ethBrExtInfo.addPPPoETag f)

/-- The cache does not take a frame with a tag. -/
theorem scdbHit_withTag (e : Env c) (b : Bridge c) (s : Skb) (t : Skb.VlanHdr) :
    scdbHit e b (s.withTag t).frame = none := by
  simp [scdbHit, Skb.withTag, Skb.setFrame, withTag_protocol, ethPIp, ethP8021q]

theorem learnBrIp_info (b : Bridge c) (f : EthFrame) :
    (learnBrIp b f).ethBrExtInfo = b.ethBrExtInfo := by
  unfold learnBrIp
  split <;> rfl

theorem learnBrIp_db (b : Bridge c) (f : EthFrame) : (learnBrIp b f).db = b.db := by
  unfold learnBrIp
  split <;> rfl

theorem scdbLookup_info (e : Env c) (b : Bridge c) (f : EthFrame) :
    (scdbLookup e b f).1.ethBrExtInfo = b.ethBrExtInfo := by
  unfold scdbLookup
  split
  · rfl
  · split
    · split <;> rfl
    · split <;> rfl

theorem scdbLookup_doNat25 (e : Env c) (b : Bridge c) (f : EthFrame) :
    (scdbLookup e b f).2 = !cached b f := by
  unfold scdbLookup cached
  by_cases hip : f.protocol = ethPIp
  · by_cases hmac : b.db.scdbMac = f.src
    · cases hentry : b.db.scdbEntry <;> simp [hip, hmac, hentry]
    · cases scdbFindEntry b (generateIpv4NetworkAddr f.bytes (ethHlen + 12)) <;> simp [hip, hmac]
  · simp [hip]

/-- A frame that goes on leaves with its tag. -/
theorem checkSa_makeOwn (e : Env c) (b : Bridge c) (hs : s'.frame = s.frame) :
    (checkSa e b (makeOwn e b s' (some t))).value = (checkSa e b (makeOwn e b s none)).value ∧
      (makeOwn e b s' (some t)).frame = (makeOwn e b s none).frame.withTag t := by
  have hframe : (makeOwn e b s' (some t)).frame = (makeOwn e b s none).frame.withTag t := by
    simp only [makeOwn, Skb.giveTag, restoreTag_frame, Skb.setFrame, hs]
  exact ⟨by simp only [checkSa, hframe, withTag_src], hframe⟩

/-- The state after the cache was asked, and the way from there. -/
theorem clientTxSlow_eq {tag : Option Skb.VlanHdr} (htake : s.takeTag = (s', tag)) :
    clientTxSlow e b s =
      let b' := (scdbLookup e (learnBrIp b s'.frame) s'.frame).1
      (if !cached b s'.frame then throughDb e b' s' tag else some (.goOn b' s' tag)).map
        (Progress.finish e) := by
  have hcached : cached (learnBrIp b s'.frame) s'.frame = cached b s'.frame := by
    unfold cached scdbFindEntry
    rw [learnBrIp_db]
  simp only [clientTxSlow, htake, scdbLookup_doNat25, hcached]

/-- Where two frames stand that are alike, one is let go without its tag or both keep it. -/
theorem finish_alike {p p' : Progress c} (h : p.Alike t p')
    (hlost : ¬∃ o, p = .done o ∧ o.value = 0) :
    (p'.finish e).value = (p.finish e).value ∧ (p'.finish e).bridge = (p.finish e).bridge ∧
      ((p.finish e).value = 0 → (p'.finish e).skb.frame = (p.finish e).skb.frame.withTag t) := by
  rcases p with ⟨b, s, tag⟩ | o <;> rcases p' with ⟨b', s', tag'⟩ | o'
  · obtain ⟨rfl, hs, rfl, rfl⟩ := h
    obtain ⟨hvalue, hframe⟩ := checkSa_makeOwn (t := t) e b' hs
    exact ⟨hvalue, rfl, fun _ => hframe⟩
  · exact h.elim
  · exact h.elim
  · obtain ⟨hbridge, hvalue, -⟩ := h
    exact ⟨hvalue, hbridge, fun hzero => absurd ⟨o, rfl, hzero⟩ hlost⟩

/-- A frame of a client keeps its tag, if the database has a rule for it. -/
theorem tx_transparent (hs : s.frame.protocol ≠ ethP8021q) (hkeep : tagLost e b s.frame = false) :
    TxTransparent e b s t := by
  obtain ⟨hframe, htag⟩ := takeTag_withTag (s := s.withTag t) (f := s.frame) rfl
  have htake : (s.withTag t).takeTag = ((s.withTag t).takeTag.1, some t) := by rw [← htag]
  rw [TxTransparent, Transparent, rtwBrClientTx, scdbHit_withTag]
  simp only [clientTxSlow_eq (takeTag_none hs), clientTxSlow_eq htake, hframe]
  cases hcached : cached b s.frame
  · simp only [Bool.not_false, if_true]
    have hlost : ¬∃ o, throughDb e (scdbLookup e (learnBrIp b s.frame) s.frame).1 s none =
        some (.done o) ∧ o.value = 0 := by
      rw [throughDb_letGo, scdbLookup_info, learnBrIp_info]
      simpa [tagLost, hcached] using hkeep
    have halike := throughDb_alike (e := e) (t := t)
      (b := (scdbLookup e (learnBrIp b s.frame) s.frame).1) hframe
    revert hlost halike
    cases throughDb e (scdbLookup e (learnBrIp b s.frame) s.frame).1 s none <;>
      cases throughDb e (scdbLookup e (learnBrIp b s.frame) s.frame).1 (s.withTag t).takeTag.1
        (some t)
    · exact fun _ _ => .none
    · exact fun _ halike => nomatch halike
    · exact fun _ halike => nomatch halike
    · intro hlost halike
      cases halike with
      | some halike => exact .some (finish_alike halike (by simpa using hlost))
  · simp only [Bool.not_true, Bool.false_eq_true, if_false, Option.map_some]
    refine .some (finish_alike ⟨rfl, hframe, rfl, rfl⟩ ?_)
    rintro ⟨o, ho, -⟩
    exact nomatch ho

/-- A frame of a client that the database is asked about and has no rule for. -/
theorem tx_not_transparent (hs : s.frame.protocol ≠ ethP8021q)
    (hlost : tagLost e b s.frame = true) : ¬TxTransparent e b s t := by
  obtain ⟨hframe, htag⟩ := takeTag_withTag (s := s.withTag t) (f := s.frame) rfl
  have htake : (s.withTag t).takeTag = ((s.withTag t).takeTag.1, some t) := by rw [← htag]
  rw [tagLost, Bool.and_eq_true, Bool.not_eq_true'] at hlost
  obtain ⟨hcached, hlost⟩ := hlost
  rw [TxTransparent, Transparent, rtwBrClientTx, scdbHit_withTag]
  simp only [clientTxSlow_eq (takeTag_none hs), clientTxSlow_eq htake, hframe, hcached,
    Bool.not_false, if_true]
  have hletGo : ∃ o, throughDb e (scdbLookup e (learnBrIp b s.frame) s.frame).1 s none =
      some (.done o) ∧ o.value = 0 := by
    rw [throughDb_letGo, scdbLookup_info, learnBrIp_info]
    exact hlost
  obtain ⟨o, ho, hzero⟩ := hletGo
  have halike := throughDb_alike (e := e) (t := t)
    (b := (scdbLookup e (learnBrIp b s.frame) s.frame).1) hframe
  rw [ho] at halike
  rw [ho]
  intro htrans
  revert halike htrans
  cases throughDb e (scdbLookup e (learnBrIp b s.frame) s.frame).1 (s.withTag t).takeTag.1
    (some t) with
  | none => exact fun halike => nomatch halike
  | some p' =>
    intro halike htrans
    cases halike with
    | some halike =>
      cases htrans with
      | some htrans =>
        rcases p' with ⟨b', s', tag'⟩ | o'
        · exact halike
        · have hsame := halike.2.2 hzero
          have htagged := htrans.2.2 hzero
          -- the frame is as long as without its tag
          have hlen := congrArg EthFrame.len (hsame.symm.trans htagged)
          simp only [Progress.finish, EthFrame.withTag] at hlen
          omega

/-- A frame that came down keeps its tag. -/
theorem rx_transparent (hs : s.frame.protocol ≠ ethP8021q) : RxTransparent e b s t := by
  obtain ⟨hframe, htag⟩ := takeTag_withTag (s := s.withTag t) (f := s.frame) rfl
  have hdst : (s.withTag t).frame.dst = s.frame.dst := withTag_dst _ _
  rw [RxTransparent, Transparent, nat25HandleFrame, nat25HandleFrame, hdst]
  by_cases hmc : isMcast s.frame.dst = true
  · rw [if_pos hmc, if_pos hmc]
    exact .some ⟨rfl, rfl, fun _ => rfl⟩
  · rw [if_neg hmc, if_neg hmc]
    simp only [takeTag_none hs, hframe, htag]
    cases handleDown e b s.frame with
    | none => exact .none
    | some h => exact .some ⟨rfl, rfl, fun _ => restoreTag_frame _ _⟩

/-- **NAT2.5 and VLAN tags.**  A frame with a tag is treated as the frame without, in both
directions, exactly when it is not one that the database is asked about and has no rule for. -/
theorem vlan_transparent_iff (e : Env c) (b : Bridge c) (s : Skb) (t : Skb.VlanHdr)
    (hs : s.frame.protocol ≠ ethP8021q) :
    TxTransparent e b s t ∧ RxTransparent e b s t ↔ tagLost e b s.frame = false := by
  constructor
  · rintro ⟨htx, -⟩
    rw [Bool.eq_false_iff]
    exact fun hlost => tx_not_transparent hs hlost htx
  · exact fun hkeep => ⟨tx_transparent hs hkeep, rx_transparent hs⟩

/-- A device that is a port of a bridge. -/
def portEnv : Env clock32 where
  jiffies := 0
  hwaddr := ⟨2, 0, 0, 0, 0, 1⟩
  mem := some 7
  brPort := true
  brDev := none
  hasIpx := false
  skbCopy := true
  skbLinearize := true
  stack := fun _ => 0
  csumPartial := fun _ => 0
  csumIpv6Magic := fun _ _ _ _ _ => 0

/-- Nothing is in the database. -/
def emptyBridge : Bridge clock32 where
  db := start32.a
  pppoeConnectionInProgress := 0
  pppoeAddr := zeroAddr
  brMac := ⟨2, 0, 0, 0, 0, 2⟩
  brIp := Vector.replicate 4 0
  ethBrExtInfo := ⟨false, false, true, false⟩

/-- A frame of 60 bytes that a client sends, with the start of an ARP request behind the type. -/
def clientFrame (protocol : Nat) : Skb where
  headroom := []
  frame :=
    { bytes := fun x => ([2, 0, 0, 0, 0, 9, 2, 0, 0, 0, 0, 5] ++ htons protocol ++
        [0, 1, 8, 0, 6, 4, 0, 1, 2, 0, 0, 0, 0, 5, 10, 0, 0, 5]).getD x 0
      len := 60
      tailroom := 0 }

/-- An ARP request. -/
theorem vlan_transparent_arp :
    TxTransparent portEnv emptyBridge (clientFrame ethPArp) (0, 7) ∧
      RxTransparent portEnv emptyBridge (clientFrame ethPArp) (0, 7) :=
  (vlan_transparent_iff portEnv emptyBridge (clientFrame ethPArp) (0, 7) (by decide +kernel)).mpr
    (by decide +kernel)

/-- A magic packet of VLAN 7 (the type is 0x0842): it is let go without its tag. -/
theorem magic_packet_loses_tag :
    scdbHit portEnv emptyBridge (clientFrame 0x0842).frame = none ∧
    (∃ o, rtwBrClientTx portEnv emptyBridge ((clientFrame 0x0842).withTag (0, 7)) = some o ∧
      o.value = 0 ∧ o.skb.frame.len = 60 ∧ o.skb.frame.protocol = 0x0842) ∧
    ¬TxTransparent portEnv emptyBridge (clientFrame 0x0842) (0, 7) := by
  refine ⟨by decide +kernel, ?_, tx_not_transparent (by decide +kernel) (by decide +kernel)⟩
  obtain ⟨o, ho, hout⟩ : ∃ o,
      rtwBrClientTx portEnv emptyBridge ((clientFrame 0x0842).withTag (0, 7)) = some o ∧
      (o.value == 0 && o.skb.frame.len == 60 && o.skb.frame.protocol == 0x0842) = true :=
    (Option.any_eq_true _ _).mp (by decide +kernel)
  simp only [Bool.and_eq_true, beq_iff_eq, and_assoc] at hout
  exact ⟨o, ho, hout⟩

end Nat25

end Rtl8723bs
