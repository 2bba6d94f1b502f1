/-
# Walks over options and tags

`scan_tlv` goes over the options of a neighbour discovery message and `__nat25_find_pppoe_tag` over
the tags of a PPPoE discovery frame.  Each goes on by a length that the frame gives, and reads the
header of what it comes to without a look at how much of the frame is left.

`option_walks_iff` says of which frames they read no more than there is.  An option of length zero
is one `scan_tlv` never gets past.
-/
import Rtl8723bs.Br.Nat25Handle

namespace Rtl8723bs

namespace Nat25

/-! ## 1. The walks -/

/-- The loop of `scan_tlv`, over places from `data` on. -/
def optionChain (m : Mem) (data len : Nat) (tag len8b : UInt8) : Chain where
  go off := off < len
  hit off := m (data + off) = tag ∧ m (data + off + 1) = len8b ∧ len8b.toNat * 8 ≤ len - off
  next off := off + (m (data + off + 1)).toNat * 8

theorem scanTlv_eq (m : Mem) (data len : Nat) (tag len8b : UInt8) :
    scanTlv m data len tag len8b =
      ((optionChain m data len tag len8b).search (len + 1) 0).map fun r => r.map (data + · + 2) :=
  rfl

/-- The options that are scanned: where they start, and which of them is looked for; none where the
message is of another kind or ends before. -/
def scanned (f : EthFrame) : Option (Nat × UInt8) :=
  (ndOptions (f.bytes icmp6)).filter fun o => o.1 ≤ f.len - icmp6

/-- `scan_tlv` over the options of the message. -/
def ndChain (f : EthFrame) (off : Nat) (tag : UInt8) : Chain :=
  optionChain f.bytes (icmp6 + off) (f.len - icmp6 - off) tag 1

/-- Where the link-layer address of the message stands, if it has one; `none` where `scan_tlv` never
ends. -/
def linkLayerAddr (f : EthFrame) : Option (Option Nat) :=
  match scanned f with
  | none => some none
  | some (off, tag) => scanTlv f.bytes (icmp6 + off) (f.len - icmp6 - off) tag 1

theorem updateNd_eq (f : EthFrame) (mac : MacAddr) :
    updateNdLinkLayerAddr f icmp6 (f.len - icmp6) mac =
      (linkLayerAddr f).map fun p => p.map fun p => f.put p mac.toBytes := by
  simp only [updateNdLinkLayerAddr, linkLayerAddr, scanned]
  cases ndOptions (f.bytes icmp6) with
  | none => rfl
  | some o =>
    by_cases hlen : o.1 ≤ f.len - icmp6
    · simp [Option.filter, hlen]
    · simp [Option.filter, hlen, Nat.lt_of_not_le hlen]

/-! ## 2. In bounds -/

/-- **`update_nd_link_layer_addr` stays in the frame**: the scan ends, reads both bytes of each header
it comes to from the frame, and finds an option that is in the frame to its end; and the address is
written into the frame. -/
structure NdInFrame (f : EthFrame) (mac : MacAddr) : Prop where
  scan : ∀ off tag, scanned f = some (off, tag) →
    (ndChain f off tag).Stays (fun i => icmp6 + off + i + 2 ≤ f.len)
      (fun i => icmp6 + off + i + 8 ≤ f.len) 0
  write : ∀ g, updateNdLinkLayerAddr f icmp6 (f.len - icmp6) mac = some (some g) →
    ∃ p, icmp6 ≤ p ∧ p + 6 ≤ f.len ∧ g = f.put p mac.toBytes

/-- **Options a scan gets through**: they end behind an option, or they come to a whole one of the
kind that is looked for; those in front have both bytes of their header, and a length. -/
inductive OptionsFit (tag : UInt8) : List UInt8 → Prop
  | nil : OptionsFit tag []
  | found {l : List UInt8} : l.getD 0 0 = tag → l.getD 1 0 = 1 → 8 ≤ l.length → OptionsFit tag l
  | past {l : List UInt8} : 2 ≤ l.length → l.getD 1 0 ≠ 0 →
      OptionsFit tag (l.drop ((l.getD 1 0).toNat * 8)) → OptionsFit tag l

/-- The options of the message are such. -/
def OptionsClean (f : EthFrame) : Prop :=
  ∀ off tag, scanned f = some (off, tag) →
    OptionsFit tag (readBytes f.bytes (icmp6 + off) (f.len - icmp6 - off))

/-- **`__nat25_find_pppoe_tag` stays in the frame**: `ph->length` is in the frame, the walk ends,
reads each header it comes to from the frame, and returns a tag that is in the frame to its end. -/
structure TagInFrame (f : EthFrame) (type : Nat) : Prop where
  length : ethHlen + 6 ≤ f.len
  walk : (tagChain f type).Stays (fun i => pppoeTags + i + tagHdrLen ≤ f.len)
    (fun i => pppoeTags + i + tagHdrLen + be16 f.bytes (pppoeTags + i + 2) ≤ f.len) 0
  returned : ∀ p, findPppoeTag f type = some p → p + tagHdrLen + be16 f.bytes (p + 2) ≤ f.len

/-- The type of the tag that a byte string starts with, and the length of its data. -/
def tagType (l : List UInt8) : Nat := be16 (fun i => l.getD i 0) 0

def tagLen (l : List UInt8) : Nat := be16 (fun i => l.getD i 0) 2

/-- **Tags a walk gets through**, of which `left` bytes are left by `ph->length` in what is left of
the frame: they end, or they come to a whole one of the type that is looked for; those in front
have all of their header. -/
inductive TagsFit (type : Nat) : Nat → List UInt8 → Prop
  | done {l : List UInt8} : TagsFit type 0 l
  | found {left : Nat} {l : List UInt8} : tagType l = type → tagHdrLen + tagLen l ≤ l.length →
      TagsFit type left l
  | past {left : Nat} {l : List UInt8} : tagType l ≠ type → tagHdrLen ≤ l.length →
      TagsFit type (left - (tagHdrLen + tagLen l)) (l.drop (tagHdrLen + tagLen l)) →
      TagsFit type left l

/-- The header and the tags of the frame are such. -/
def TagsClean (f : EthFrame) (type : Nat) : Prop :=
  ethHlen + 6 ≤ f.len ∧
    TagsFit type (pppoeLength f) (readBytes f.bytes pppoeTags (f.len - pppoeTags))

/-! ## 3. Options -/

section Options

variable {f : EthFrame} {off i : Nat} {tag : UInt8}

/-- An option keeps the scan where it is if it has no length. -/
theorem ndChain_again_iff :
    (ndChain f off tag).Again i ↔ (ndChain f off tag).Passes i ∧
      f.bytes (icmp6 + off + i + 1) = 0 := by
  rw [Chain.again_iff fun a _ => Nat.le_add_right a _]
  simp only [ndChain, optionChain, ← UInt8.toNat_inj, UInt8.toNat_zero]
  refine and_congr_right fun _ => ?_
  omega

theorem ndChain_go_iff :
    (ndChain f off tag).go i = true ↔ icmp6 + off + i < f.len := by
  simp only [ndChain, optionChain, decide_eq_true_eq]
  omega

/-- What the scan finds is in the frame. -/
theorem ndChain_hit (hhit : (ndChain f off tag).hit i = true) : icmp6 + off + i + 8 ≤ f.len := by
  simp only [ndChain, optionChain, decide_eq_true_eq] at hhit
  have hbody := hhit.2.2
  rw [UInt8.toNat_one] at hbody
  omega

/-- What the scan asks of a place that it comes to. -/
def PlaceFits (f : EthFrame) (off : Nat) (tag : UInt8) (i : Nat) : Prop :=
  icmp6 + off + i + 2 ≤ f.len ∧
    ((ndChain f off tag).hit i = true ∨ f.bytes (icmp6 + off + i + 1) ≠ 0)

theorem scan_stays_iff :
    (ndChain f off tag).Stays (fun i => icmp6 + off + i + 2 ≤ f.len)
        (fun i => icmp6 + off + i + 8 ≤ f.len) 0 ↔
      ∀ i, (ndChain f off tag).Comes 0 i → icmp6 + off + i < f.len → PlaceFits f off tag i := by
  have hbound : ∀ i, (ndChain f off tag).go i = true → i < f.len := by
    intro i hgo
    have := (ndChain_go_iff).mp hgo
    omega
  rw [Chain.stays_iff hbound]
  refine forall_congr' fun i => imp_congr_right fun _ => ?_
  rw [ndChain_go_iff, ndChain_again_iff, PlaceFits]
  refine imp_congr_right fun hlt => and_congr_right fun _ => ?_
  have hgo : (ndChain f off tag).go i = true := (ndChain_go_iff).mpr hlt
  cases hhit : (ndChain f off tag).hit i with
  | true => simp [Chain.Passes, hhit, ndChain_hit hhit]
  | false => simp [Chain.Passes, hhit, hgo]

/-- The options from a place on. -/
abbrev optionsFrom (f : EthFrame) (off i : Nat) : List UInt8 :=
  readBytes f.bytes (icmp6 + off + i) (f.len - icmp6 - off - i)

theorem getD_optionsFrom {k : Nat} (hk : icmp6 + off + i + k < f.len) :
    (optionsFrom f off i).getD k 0 = f.bytes (icmp6 + off + i + k) :=
  getD_readBytes _ (by omega)

theorem drop_optionsFrom (k : Nat) : (optionsFrom f off i).drop k = optionsFrom f off (i + k) := by
  rw [optionsFrom, readBytes_drop, optionsFrom, Nat.add_assoc, Nat.sub_sub _ i k]

/-- The scan finds the option at a place, if it is one. -/
theorem ndChain_hit_iff (hlen : icmp6 + off + i + 1 < f.len) :
    (ndChain f off tag).hit i = true ↔ (optionsFrom f off i).getD 0 0 = tag ∧
      (optionsFrom f off i).getD 1 0 = 1 ∧ 8 ≤ (optionsFrom f off i).length := by
  rw [getD_optionsFrom (by omega), getD_optionsFrom (by omega), length_readBytes]
  simp only [ndChain, optionChain, decide_eq_true_eq, UInt8.toNat_one, Nat.one_mul, Nat.add_zero]

/-- Where the options fit, each place the scan comes to does. -/
theorem OptionsFit.places {l : List UInt8} (h : OptionsFit tag l) :
    ∀ i, l = optionsFrom f off i → ∀ j, (ndChain f off tag).Comes i j →
      icmp6 + off + j < f.len → PlaceFits f off tag j := by
  induction h with
  | nil =>
    intro i hl j hcomes hlt
    have hlen := congrArg List.length hl
    have hle := hcomes.le fun a _ => Nat.le_add_right a _
    simp only [List.length_nil, length_readBytes] at hlen
    omega
  | found htag hone hlen =>
    rintro i rfl j hcomes -
    have hin := hlen
    rw [length_readBytes] at hin
    have hhit := (ndChain_hit_iff (by omega)).mpr ⟨htag, hone, hlen⟩
    rcases hcomes.head with rfl | ⟨hpass, -⟩
    · exact ⟨by omega, .inl hhit⟩
    · rw [hpass.2] at hhit
      cases hhit
  | past hlen hne hrest ih =>
    rintro i rfl j hcomes hlt
    have hin := hlen
    rw [length_readBytes] at hin
    rw [getD_optionsFrom (by omega)] at hne ih
    rcases hcomes.head with rfl | ⟨-, hbehind⟩
    · exact ⟨by omega, .inr hne⟩
    · exact ih _ (drop_optionsFrom _) j hbehind hlt

/-- Where each place does, the options fit. -/
theorem OptionsFit.of_places (i : Nat)
    (h : ∀ j, (ndChain f off tag).Comes i j → icmp6 + off + j < f.len → PlaceFits f off tag j) :
    OptionsFit tag (optionsFrom f off i) := by
  -- the options that are left get less
  induction hn : f.len - i using Nat.strong_induction_on generalizing i with
  | _ n ih =>
    rcases Nat.lt_or_ge (icmp6 + off + i) f.len with hlt | hge
    · obtain ⟨hhead, hplace⟩ := h i .start hlt
      by_cases hhit : (ndChain f off tag).hit i = true
      · obtain ⟨htag, hone, hlen⟩ := (ndChain_hit_iff (by omega)).mp hhit
        exact .found htag hone hlen
      · have hne := hplace.resolve_left hhit
        have hpass : (ndChain f off tag).Passes i :=
          ⟨(ndChain_go_iff).mpr hlt, Bool.eq_false_iff.mpr hhit⟩
        have hpos : 0 < (f.bytes (icmp6 + off + i + 1)).toNat := by
          rw [← UInt8.toNat_inj.ne, UInt8.toNat_zero] at hne
          omega
        refine .past (by rw [length_readBytes]; omega) ?_ ?_
        · rwa [getD_optionsFrom (by omega)]
        · rw [getD_optionsFrom (by omega), drop_optionsFrom]
          exact ih _ (by omega) _ (fun j hj => h j (hj.cons hpass)) rfl
    · have hnil : optionsFrom f off i = [] := by
        rw [optionsFrom, show f.len - icmp6 - off - i = 0 by omega]
        rfl
      rw [hnil]
      exact .nil

/-- The address is written into the option that the scan found. -/
theorem linkLayerAddr_in {p : Nat} (h : linkLayerAddr f = some (some p)) :
    icmp6 + 10 ≤ p ∧ p + 6 ≤ f.len := by
  rw [linkLayerAddr] at h
  split at h
  · cases h
  · rename_i off tag hscanned
    rw [scanTlv_eq] at h
    obtain ⟨r, hsearch, hr⟩ := Option.map_eq_some_iff.mp h
    obtain ⟨i, rfl, hi⟩ := Option.map_eq_some_iff.mp hr
    obtain ⟨-, -, hhit⟩ := Chain.comes_of_search hsearch
    have hin := ndChain_hit hhit
    have height : 8 ≤ off := by
      obtain ⟨hkind, -⟩ := Option.filter_eq_some_iff.mp hscanned
      revert hkind
      simp only [ndOptions]
      repeat' split
      all_goals simp only [Option.some.injEq, Prod.mk.injEq, reduceCtorEq, false_imp_iff]
      all_goals omega
    omega

theorem nd_in_frame_iff (mac : MacAddr) : NdInFrame f mac ↔ OptionsClean f := by
  have hwrite : ∀ g, updateNdLinkLayerAddr f icmp6 (f.len - icmp6) mac = some (some g) →
      ∃ p, icmp6 ≤ p ∧ p + 6 ≤ f.len ∧ g = f.put p mac.toBytes := by
    intro g hg
    rw [updateNd_eq] at hg
    obtain ⟨r, haddr, hr⟩ := Option.map_eq_some_iff.mp hg
    obtain ⟨p, rfl, rfl⟩ := Option.map_eq_some_iff.mp hr
    obtain ⟨hlow, hhigh⟩ := linkLayerAddr_in haddr
    exact ⟨p, by omega, hhigh, rfl⟩
  constructor
  · intro h off tag hscanned
    exact .of_places 0 (scan_stays_iff.mp (h.scan off tag hscanned))
  · intro h
    refine ⟨fun off tag hscanned => ?_, hwrite⟩
    exact scan_stays_iff.mpr ((h off tag hscanned).places 0 rfl)

end Options

/-! ## 4. Tags -/

section Tags

variable {f : EthFrame} {type : Nat}

theorem tagChain_go_iff (i : Nat) : (tagChain f type).go i = true ↔ i < pppoeLength f := by
  simp only [tagChain, decide_eq_true_eq]

/-- A walk over tags goes up. -/
theorem tagChain_not_again (i : Nat) : ¬ (tagChain f type).Again i :=
  Chain.not_again fun a _ => by
    simp only [tagChain, tagHdrLen]
    omega

/-- What the walk asks of a place that it comes to. -/
def TagFits (f : EthFrame) (type i : Nat) : Prop :=
  pppoeTags + i + tagHdrLen ≤ f.len ∧ (be16 f.bytes (pppoeTags + i) = type →
    pppoeTags + i + tagHdrLen + be16 f.bytes (pppoeTags + i + 2) ≤ f.len)

theorem walk_stays_iff :
    (tagChain f type).Stays (fun i => pppoeTags + i + tagHdrLen ≤ f.len)
        (fun i => pppoeTags + i + tagHdrLen + be16 f.bytes (pppoeTags + i + 2) ≤ f.len) 0 ↔
      ∀ i, (tagChain f type).Comes 0 i → i < pppoeLength f → TagFits f type i := by
  rw [Chain.stays_iff fun i => (tagChain_go_iff i).mp]
  refine forall_congr' fun i => imp_congr_right fun _ => ?_
  simp only [tagChain_go_iff, tagChain_not_again, not_false_eq_true, and_true]
  simp only [tagChain, decide_eq_true_eq, TagFits]

/-- The frame from a tag on. -/
abbrev tagsFrom (f : EthFrame) (i : Nat) : List UInt8 :=
  readBytes f.bytes (pppoeTags + i) (f.len - pppoeTags - i)

theorem tagsFrom_header {i : Nat} (hlen : pppoeTags + i + tagHdrLen ≤ f.len) :
    tagType (tagsFrom f i) = be16 f.bytes (pppoeTags + i) ∧
      tagLen (tagsFrom f i) = be16 f.bytes (pppoeTags + i + 2) := by
  have hbyte : ∀ k < tagHdrLen, (tagsFrom f i).getD k 0 = f.bytes (pppoeTags + i + k) :=
    fun k hk => getD_readBytes _ (by omega)
  simp only [tagType, tagLen, be16, hbyte 0 (by decide), hbyte (0 + 1) (by decide),
    hbyte 2 (by decide), hbyte (2 + 1) (by decide)]
  exact ⟨rfl, trivial⟩

theorem drop_tagsFrom {i : Nat} (k : Nat) : (tagsFrom f i).drop k = tagsFrom f (i + k) := by
  rw [tagsFrom, readBytes_drop, tagsFrom, Nat.add_assoc, Nat.sub_sub _ i k]

theorem tagChain_next (i : Nat) : (tagChain f type).next i =
    i + (tagHdrLen + be16 f.bytes (pppoeTags + i + 2)) :=
  Nat.add_assoc i _ _

/-- Where the tags fit, each place the walk comes to does. -/
theorem TagsFit.places {left : Nat} {l : List UInt8} (h : TagsFit type left l) :
    ∀ i, l = tagsFrom f i → left = pppoeLength f - i → ∀ j, (tagChain f type).Comes i j →
      j < pppoeLength f → TagFits f type j := by
  induction h with
  | done =>
    intro i _ hleft j hcomes hlt
    have hle := hcomes.le fun a _ => by rw [tagChain_next]; exact Nat.le_add_right a _
    omega
  | found htype hlen =>
    rintro i rfl - j hcomes -
    have hin := hlen
    rw [length_readBytes] at hin
    obtain ⟨htype', hlen'⟩ := tagsFrom_header (f := f) (i := i) (by unfold tagHdrLen at *; omega)
    rw [htype'] at htype
    rw [hlen'] at hin
    rcases hcomes.head with rfl | ⟨hpass, -⟩
    · exact ⟨by unfold tagHdrLen at *; omega, fun _ => by unfold tagHdrLen at *; omega⟩
    · exact absurd hpass.2 (by simp [tagChain, htype])
  | past htype hlen hrest ih =>
    rintro i rfl rfl j hcomes hlt
    have hin := hlen
    rw [length_readBytes] at hin
    obtain ⟨htype', hlen'⟩ := tagsFrom_header (f := f) (i := i) (by unfold tagHdrLen at *; omega)
    rw [htype'] at htype
    rw [hlen'] at ih
    rcases hcomes.head with rfl | ⟨-, hbehind⟩
    · exact ⟨by unfold tagHdrLen at *; omega, fun h => absurd h htype⟩
    · rw [tagChain_next] at hbehind
      exact ih _ (drop_tagsFrom _) (Nat.sub_sub _ _ _) j hbehind hlt

/-- Where each place does, the tags fit. -/
theorem TagsFit.of_places (i : Nat)
    (h : ∀ j, (tagChain f type).Comes i j → j < pppoeLength f → TagFits f type j) :
    TagsFit type (pppoeLength f - i) (tagsFrom f i) := by
  -- the tags that are left get less
  induction hn : pppoeLength f - i using Nat.strong_induction_on generalizing i with
  | _ n ih =>
    rcases Nat.lt_or_ge i (pppoeLength f) with hlt | hge
    · obtain ⟨hhead, hdata⟩ := h i .start hlt
      obtain ⟨htype', hlen'⟩ := tagsFrom_header hhead
      by_cases htype : be16 f.bytes (pppoeTags + i) = type
      · have hall := hdata htype
        refine .found (htype'.trans htype) ?_
        rw [hlen', length_readBytes]
        unfold tagHdrLen at *
        omega
      · have hpass : (tagChain f type).Passes i :=
          ⟨(tagChain_go_iff i).mpr hlt, decide_eq_false htype⟩
        refine .past (htype'.trans_ne htype) (by rw [length_readBytes]; unfold tagHdrLen at *; omega) ?_
        rw [hlen', drop_tagsFrom, ← hn, Nat.sub_sub]
        refine ih _ (by unfold tagHdrLen; omega) _ (fun j hj => ?_) rfl
        exact h j (Chain.Comes.cons hpass (by rwa [tagChain_next]))
    · obtain rfl : n = 0 := by omega
      exact .done

theorem tag_in_frame_iff : TagInFrame f type ↔ TagsClean f type := by
  constructor
  · exact fun h => ⟨h.length, .of_places 0 (walk_stays_iff.mp h.walk)⟩
  · rintro ⟨hlen, hfit⟩
    have hwalk := walk_stays_iff.mpr (hfit.places 0 rfl rfl)
    refine ⟨hlen, hwalk, fun p hp => ?_⟩
    obtain ⟨i, hi, rfl⟩ := Option.map_eq_some_iff.mp hp
    exact hwalk.finds _ i (Option.join_eq_some_iff.mp hi)

end Tags

/-! ## 5. Both walks -/

/-- **The walks stay in the frame** exactly where what they come to does: every option has a header
and, if it is passed over, a length; every tag has a header, and the one that is looked for its
data. -/
theorem option_walks_iff (f : EthFrame) :
    (icmp6 + 4 < f.len → ∀ mac, NdInFrame f mac ↔ OptionsClean f) ∧
      ∀ type, TagInFrame f type ↔ TagsClean f type :=
  ⟨fun _ mac => nd_in_frame_iff mac, fun _ => tag_in_frame_iff⟩

/-- A neighbour solicitation with one option, of one kind and length. -/
def solicitation (kind len : UInt8) : EthFrame where
  bytes i := if i = icmp6 then 135 else if i = icmp6 + 24 then kind
    else if i = icmp6 + 25 then len else 0
  len := icmp6 + 32
  tailroom := 0

/-- A PADI with one relay tag, of one length in a header that counts eight bytes. -/
def relayedPadi (len : UInt8) : EthFrame where
  bytes i := ([0x11, 0x09, 0, 0, 0, 8, 0x01, 0x10, 0, len] : List UInt8).getD (i - ethHlen) 0
  len := pppoeTags + 8
  tailroom := 0

theorem solicitation_in_frame :
    NdInFrame (solicitation 1 1) zeroAddr ∧ TagInFrame (relayedPadi 4) pttRelaySid := by
  refine ⟨((option_walks_iff (solicitation 1 1)).1 (by decide) zeroAddr).mpr fun off tag h => ?_,
    ((option_walks_iff (relayedPadi 4)).2 pttRelaySid).mpr ⟨by decide, .found rfl (by decide)⟩⟩
  cases h
  exact .found rfl rfl (by decide)

/-- An option of length zero is not got past, and a tag is returned that ends behind the frame. -/
theorem option_of_no_length :
    icmp6 + 4 < (solicitation 3 0).len ∧ ¬ NdInFrame (solicitation 3 0) zeroAddr ∧
      (∀ n, (ndChain (solicitation 3 0) 24 1).search n 0 = none) ∧
      findPppoeTag (relayedPadi 0xff) pttRelaySid = some pppoeTags ∧
      ¬ TagInFrame (relayedPadi 0xff) pttRelaySid := by
  have hpass : (ndChain (solicitation 3 0) 24 1).Passes 0 := ⟨by decide, by decide⟩
  have hagain : (ndChain (solicitation 3 0) 24 1).Again 0 := ⟨hpass, .start⟩
  have hfound : findPppoeTag (relayedPadi 0xff) pttRelaySid = some pppoeTags := by decide
  refine ⟨by decide, fun h => ?_, fun n => ?_, hfound, fun h => ?_⟩
  · obtain ⟨n, r, hends⟩ := (h.scan 24 1 rfl).ends
    exact Chain.not_again_of_ends hends .start hagain
  · cases hs : (ndChain (solicitation 3 0) 24 1).search n 0 with
    | none => rfl
    | some r => exact absurd hagain (Chain.not_again_of_ends hs .start)
  · exact absurd (h.returned _ hfound) (by decide)

end Nat25

end Rtl8723bs
