/-
# Searches for attributes

Inside a WPS, P2P or WFD element lie attributes, each an identifier, a length of two bytes and its
content.  `rtw_get_wps_attr`, `rtw_get_p2p_attr` and `rtw_get_wfd_attr` walk over them to the
first with the identifier asked for.  They keep the length of a whole attribute in 16 bits: where
it wraps, the walk goes on inside the attribute, or stays where it is.  `rtw_get_wps_attr` does
not hold the attribute it finds against the end of the element.

`attr_searches_iff` says for which elements a search is right, and `attr_searches_short` that it is
where no length wraps.
-/
import Rtl8723bs.IeSearch

namespace Rtl8723bs

/-! ## 1. The loops -/

/-- How attributes look: the bytes of the header, the identifier and the length of the content, and
whether the loop turns down an attribute that passes the end. -/
structure AttrFormat where
  hdr : Nat
  idAt : Mem → Nat → Nat
  dataLen : Mem → Nat → Nat
  checked : Bool

/-- `attr_len`, of 16 bits. -/
def AttrFormat.attrLen (f : AttrFormat) (m : Mem) (p : Nat) : Nat :=
  (f.dataLen m p + f.hdr) % 2 ^ 16

/-- The length of the whole attribute. -/
def AttrFormat.wholeLen (f : AttrFormat) (m : Mem) (p : Nat) : Nat := f.dataLen m p + f.hdr

/-- The loop over the attributes of the element at `ie`. -/
def attrChain (f : AttrFormat) (m : Mem) (ie ielen id : Nat) : Chain where
  go off :=
    if f.checked then off + f.hdr ≤ ielen ∧ off + f.attrLen m (ie + off) ≤ ielen else off < ielen
  hit off := f.idAt m (ie + off) = id
  next off := off + f.attrLen m (ie + off)

/-- The attribute found: its place and `attr_len`. -/
def foundAttr (f : AttrFormat) (m : Mem) (ie : Nat) (r : Option Nat) : Option (Nat × Nat) :=
  r.map fun off => (ie + off, f.attrLen m (ie + off))

def wpsAttr : AttrFormat where
  hdr := 4
  idAt := be16
  dataLen m p := be16 m (p + 2)
  checked := false

def p2pAttr : AttrFormat where
  hdr := 3
  idAt m p := (m p).toNat
  dataLen m p := le16 m (p + 1)
  checked := true

def wfdAttr : AttrFormat where
  hdr := 3
  idAt m p := (m p).toNat
  dataLen m p := be16 m (p + 1)
  checked := true

/-- `rtw_get_wps_attr`; a search that has not ended after `wps_ielen` rounds never ends, and is
`none`. -/
def rtwGetWpsAttr (m : Mem) (wpsIe wpsIelen targetAttrId : Nat) : Option (Option (Nat × Nat)) :=
  if m wpsIe ≠ wlanEidVendorSpecific ∨ readBytes m (wpsIe + 2) 4 ≠ wpsOui then some none
  else ((attrChain wpsAttr m wpsIe wpsIelen targetAttrId).search (wpsIelen + 1) 6).map
    (foundAttr wpsAttr m wpsIe)

/-- `rtw_get_wfd_attr`. -/
def rtwGetWfdAttr (m : Mem) (wfdIe wfdIelen : Nat) (targetAttrId : UInt8) :
    Option (Option (Nat × Nat)) :=
  if wfdIelen ≤ 6 ∨ m wfdIe ≠ wlanEidVendorSpecific ∨ readBytes m (wfdIe + 2) 4 ≠ wfdOui then
    some none
  else ((attrChain wfdAttr m wfdIe wfdIelen targetAttrId.toNat).search (wfdIelen + 1) 6).map
    (foundAttr wfdAttr m wfdIe)

/-! ## 2. Calls -/

/-- A call of one of the three. -/
inductive AttrCall
  | wps (targetAttrId : Nat)
  | p2p (targetAttrId : UInt8)
  | wfd (targetAttrId : UInt8)

namespace AttrCall

/-- The call made for the element of `ielen` bytes at `ie`. -/
def run (m : Mem) (ie ielen : Nat) : AttrCall → Option (Option (Nat × Nat))
  | wps id => rtwGetWpsAttr m ie ielen id
  | p2p id => rtwGetP2pAttr m (some (ie, ielen)) id
  | wfd id => rtwGetWfdAttr m ie ielen id

def format : AttrCall → AttrFormat
  | wps _ => wpsAttr
  | p2p _ => p2pAttr
  | wfd _ => wfdAttr

def id : AttrCall → Nat
  | wps id => id
  | p2p id => id.toNat
  | wfd id => id.toNat

/-- What the function asks of the element before it searches. -/
def Entered (m : Mem) (ie ielen : Nat) : AttrCall → Prop
  | wps _ => m ie = wlanEidVendorSpecific ∧ readBytes m (ie + 2) 4 = wpsOui
  | p2p _ => 6 < ielen ∧ m ie = wlanEidVendorSpecific ∧ readBytes m (ie + 2) 4 = p2pOui
  | wfd _ => 6 < ielen ∧ m ie = wlanEidVendorSpecific ∧ readBytes m (ie + 2) 4 = wfdOui

/-- The walk of the call. -/
def chain (m : Mem) (ie ielen : Nat) (call : AttrCall) : Chain :=
  attrChain call.format m ie ielen call.id

/-- **The walk over the attributes of an element**: each lies in it as a whole, and behind it the
next. -/
def tlvWalk (m : Mem) (ie ielen : Nat) (call : AttrCall) : Chain where
  go off := off + call.format.wholeLen m (ie + off) ≤ ielen
  hit off := call.format.idAt m (ie + off) = call.id
  next off := off + call.format.wholeLen m (ie + off)

/-- **What a search is for**: it ends, and what it returns is the first attribute with the
identifier, which lies in the element with the length returned. -/
structure Right (m : Mem) (ie ielen : Nat) (call : AttrCall) : Prop where
  ends : call.run m ie ielen ≠ none
  first : ∀ q n, call.run m ie ielen = some (some (q, n)) →
    ∃ off, q = ie + off ∧ n = call.format.wholeLen m (ie + off) ∧ off + n ≤ ielen ∧
      (call.tlvWalk m ie ielen).Comes 6 off ∧ (call.tlvWalk m ie ielen).hit off = true

/-- **A place a search gets right.**  An attribute with another identifier does not make the walk
stay where it is; and one with the identifier lies in the element, its length does not wrap, and it
is where the attributes in front of it lead as wholes. -/
structure Clean (m : Mem) (ie ielen off : Nat) (call : AttrCall) : Prop where
  moves : (call.chain m ie ielen).hit off = false → call.format.attrLen m (ie + off) ≠ 0
  whole : (call.chain m ie ielen).hit off = true →
    call.format.wholeLen m (ie + off) < 2 ^ 16 ∧ off + call.format.wholeLen m (ie + off) ≤ ielen ∧
      (call.tlvWalk m ie ielen).Comes 6 off

end AttrCall

/-! ## 3. The functions follow their walks -/

section Walks

variable {m : Mem} {ie ielen n off : Nat}

/-- `rtw_get_p2p_attr` is the search for an attribute. -/
theorem getP2pAttrLoop_eq {id : UInt8} :
    getP2pAttrLoop m ie ielen id n off
      = ((attrChain p2pAttr m ie ielen id.toNat).search n off).map (foundAttr p2pAttr m ie) := by
  induction n generalizing off with
  | zero => rfl
  | succ n ih =>
    have hlen : (le16 m (ie + off + 1) + 3) % 2 ^ 16 = p2pAttr.attrLen m (ie + off) := rfl
    have hgo : (attrChain p2pAttr m ie ielen id.toNat).go off
        = decide (off + 3 ≤ ielen ∧ off + p2pAttr.attrLen m (ie + off) ≤ ielen) := rfl
    have hhit : (attrChain p2pAttr m ie ielen id.toNat).hit off
        = decide ((m (ie + off)).toNat = id.toNat) := rfl
    rw [getP2pAttrLoop, hlen]
    dsimp only
    by_cases hhead : off + 3 ≤ ielen
    · rw [if_pos hhead]
      by_cases hfits : off + p2pAttr.attrLen m (ie + off) ≤ ielen
      · have hin := hgo.trans (decide_eq_true ⟨hhead, hfits⟩)
        rw [if_neg (Nat.not_lt_of_le hfits)]
        by_cases hid : m (ie + off) = id
        · rw [if_pos hid, Chain.search_hit hin (hhit.trans (decide_eq_true (congrArg _ hid)))]
          rfl
        · have hother := hhit.trans (decide_eq_false fun h => hid (UInt8.toNat_inj.mp h))
          rw [if_neg hid, Chain.search_passes ⟨hin, hother⟩]
          exact ih
      · rw [if_pos (Nat.lt_of_not_le hfits),
          Chain.search_stop (hgo.trans (decide_eq_false fun h => hfits h.2))]
        rfl
    · rw [if_neg hhead, Chain.search_stop (hgo.trans (decide_eq_false fun h => hhead h.1))]
      rfl

end Walks

namespace AttrCall

variable {m : Mem} {ie ielen : Nat} (call : AttrCall)

/-- Without the header asked for, nothing is found. -/
theorem run_of_not_entered (h : ¬ call.Entered m ie ielen) : call.run m ie ielen = some none := by
  cases call with
  | wps id =>
    refine if_pos ?_
    by_contra hno
    exact h ⟨not_not.mp fun hv => hno (.inl hv), not_not.mp fun ho => hno (.inr ho)⟩
  | p2p id | wfd id =>
    refine if_pos ?_
    by_contra hno
    exact h ⟨Nat.lt_of_not_le fun hlen => hno (.inl hlen),
      not_not.mp fun hv => hno (.inr (.inl hv)), not_not.mp fun ho => hno (.inr (.inr ho))⟩

/-- There is nothing to look at from the end of the element on. -/
theorem go_lt {off : Nat} (h : (call.chain m ie ielen).go off = true) : off < ielen := by
  cases call with
  | wps id => exact of_decide_eq_true h
  | p2p id | wfd id =>
    have hhead : off + 3 ≤ ielen := (of_decide_eq_true h).1
    omega

/-- With it, the call gives what its walk finds in so many rounds that it would come back to a place
if there were more. -/
theorem run_of_entered (h : call.Entered m ie ielen) :
    ∃ bound, (∀ off, (call.chain m ie ielen).go off = true → off < bound) ∧
      call.run m ie ielen = ((call.chain m ie ielen).search (bound + 1) 6).map
        (foundAttr call.format m ie) := by
  cases call with
  | wps id =>
    exact ⟨ielen, fun _ => go_lt (wps id), if_neg fun hno => hno.elim (· h.1) (· h.2)⟩
  | p2p id =>
    refine ⟨ielen - 1, fun off hgo => ?_, ?_⟩
    · have hhead : off + 3 ≤ ielen := (of_decide_eq_true hgo).1
      omega
    · have h6 : 6 < ielen := h.1
      rw [show ielen - 1 + 1 = ielen by omega]
      refine Eq.trans (if_neg fun hno => ?_) getP2pAttrLoop_eq
      exact hno.elim (Nat.not_le_of_lt h6) fun hno => hno.elim (· h.2.1) (· h.2.2)
  | wfd id =>
    refine ⟨ielen, fun _ => go_lt (wfd id), if_neg fun hno => ?_⟩
    exact hno.elim (Nat.not_le_of_lt h.1) fun hno => hno.elim (· h.2.1) (· h.2.2)

/-- **The call ends exactly if its walk does**, with what that finds. -/
theorem run_eq_some_iff (h : call.Entered m ie ielen) {x : Option (Nat × Nat)} :
    call.run m ie ielen = some x ↔
      ∃ n r, (call.chain m ie ielen).search n 6 = some r ∧ foundAttr call.format m ie r = x := by
  obtain ⟨bound, hbound, hrun⟩ := call.run_of_entered h
  rw [hrun, Option.map_eq_some_iff]
  constructor
  · rintro ⟨r, hr, hx⟩
    exact ⟨bound + 1, r, hr, hx⟩
  · rintro ⟨n, r, hr, hx⟩
    obtain ⟨r', hr'⟩ := Chain.ends_of_not_again hbound fun _ => Chain.not_again_of_ends hr
    exact ⟨r', hr', Chain.search_unique hr hr' ▸ hx⟩

/-- The walk does not go back. -/
theorem chain_up (off : Nat) (_ : (call.chain m ie ielen).Passes off) :
    off ≤ (call.chain m ie ielen).next off :=
  Nat.le_add_right _ _

/-- A walk that moves on everywhere ends. -/
theorem ends_of_moves (h : call.Entered m ie ielen)
    (hmoves : ∀ off, (call.chain m ie ielen).Comes 6 off → (call.chain m ie ielen).Passes off →
      call.format.attrLen m (ie + off) ≠ 0) : call.run m ie ielen ≠ none := by
  obtain ⟨bound, hbound, hrun⟩ := call.run_of_entered h
  obtain ⟨r, hr⟩ := Chain.ends_of_not_again hbound fun off hcomes hagain => by
    obtain ⟨hpass, hself⟩ := (Chain.again_iff call.chain_up).mp hagain
    have hzero : off + call.format.attrLen m (ie + off) = off := hself
    exact hmoves off hcomes hpass (by omega)
  rw [hrun, hr]
  exact Option.some_ne_none _

/-! ## 4. When a search is right -/

/-- **A search for an attribute is right** exactly if every place it comes to is clean. -/
theorem attr_searches_iff (m : Mem) (ie ielen : Nat) (call : AttrCall) :
    call.Right m ie ielen ↔ (call.Entered m ie ielen →
      ∀ off, (call.chain m ie ielen).Comes 6 off → (call.chain m ie ielen).go off = true →
        call.Clean m ie ielen off) := by
  constructor
  · intro h hin off hcomes hgo
    obtain ⟨x, hx⟩ := Option.ne_none_iff_exists'.mp h.ends
    obtain ⟨n, r, hr, -⟩ := (call.run_eq_some_iff hin).mp hx
    refine ⟨fun hhit hzero => ?_, fun hhit => ?_⟩
    · refine Chain.not_again_of_ends hr hcomes
        ((Chain.again_iff call.chain_up).mpr ⟨⟨hgo, hhit⟩, ?_⟩)
      exact (congrArg (off + ·) hzero).trans (Nat.add_zero off)
    · obtain ⟨k, hk⟩ := hcomes.found hgo hhit
      have hrun := (call.run_eq_some_iff hin).mpr ⟨k, _, hk, rfl⟩
      obtain ⟨off', hoff, hlen, hfits, htlv, -⟩ := h.first _ _ hrun
      obtain rfl : off = off' := Nat.add_left_cancel hoff
      have hmod : call.format.attrLen m (ie + off) < 2 ^ 16 := Nat.mod_lt _ (by decide)
      exact ⟨hlen ▸ hmod, hlen ▸ hfits, htlv⟩
  · intro h
    by_cases hin : call.Entered m ie ielen
    · refine ⟨call.ends_of_moves hin fun off hcomes hpass =>
        (h hin off hcomes hpass.1).moves hpass.2, fun q n hrun => ?_⟩
      obtain ⟨k, r, hr, hx⟩ := (call.run_eq_some_iff hin).mp hrun
      cases r with
      | none => simp [foundAttr] at hx
      | some off =>
        obtain ⟨hcomes, hgo, hhit⟩ := Chain.comes_of_search hr
        obtain ⟨hlt, hfits, htlv⟩ := (h hin off hcomes hgo).whole hhit
        simp only [foundAttr, Option.map_some, Option.some.injEq, Prod.mk.injEq] at hx
        have hlen : n = call.format.wholeLen m (ie + off) := hx.2 ▸ Nat.mod_eq_of_lt hlt
        exact ⟨off, hx.1.symm, hlen, hlen ▸ hfits, htlv, hhit⟩
    · have hnone := call.run_of_not_entered hin
      exact ⟨hnone ▸ Option.some_ne_none _, fun q n hrun => by simp [hnone] at hrun⟩

/-- Where no length wraps, the walk follows the attributes. -/
theorem tlvWalk_comes (hshort : ∀ off, (call.chain m ie ielen).Comes 6 off →
      (call.chain m ie ielen).go off = true → call.format.wholeLen m (ie + off) < 2 ^ 16)
    {off : Nat} (h : (call.chain m ie ielen).Comes 6 off)
    (hgo : (call.chain m ie ielen).go off = true) : (call.tlvWalk m ie ielen).Comes 6 off := by
  induction h with
  | start => exact .start
  | @next off hcomes hpass ih =>
    have hnext : (call.chain m ie ielen).next off = (call.tlvWalk m ie ielen).next off :=
      congrArg (off + ·) (Nat.mod_eq_of_lt (hshort off hcomes hpass.1))
    rw [hnext] at hgo ⊢
    have hfits : off + call.format.wholeLen m (ie + off) < ielen := call.go_lt hgo
    exact .next (ih hpass.1) ⟨decide_eq_true (Nat.le_of_lt hfits), hpass.2⟩

/-- A search is right where no length wraps, and the attribute with the identifier lies in the
element. -/
theorem attr_searches_short (hshort : ∀ off, (call.chain m ie ielen).Comes 6 off →
      (call.chain m ie ielen).go off = true → call.format.wholeLen m (ie + off) < 2 ^ 16 ∧
        ((call.chain m ie ielen).hit off = true →
          off + call.format.wholeLen m (ie + off) ≤ ielen)) : call.Right m ie ielen := by
  rw [attr_searches_iff]
  intro _ off hcomes hgo
  obtain ⟨hlt, hfits⟩ := hshort off hcomes hgo
  refine ⟨fun _ => ?_, fun hhit => ⟨hlt, hfits hhit, ?_⟩⟩
  · rw [show call.format.attrLen m (ie + off) = _ from Nat.mod_eq_of_lt hlt]
    cases call <;> exact Nat.succ_ne_zero _
  · exact call.tlvWalk_comes (fun a ha hgoa => (hshort a ha hgoa).1) hcomes hgo

/-- A P2P element of nine bytes: one attribute, of identifier 1 and length 65533. -/
def stuckIe : Mem := fun i => [221, 7, 0x50, 0x6F, 0x9A, 0x09, 1, 0xFD, 0xFF].getD i 0

/-- Not so for every element: a search for another identifier stays at that attribute for ever. -/
theorem attr_search_stuck : ¬ ∀ m ie ielen call, Right m ie ielen call := by
  intro hall
  exact (hall stuckIe 0 9 (p2p 2)).ends (by decide)

end AttrCall

end Rtl8723bs
