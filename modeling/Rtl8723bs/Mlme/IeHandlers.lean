/-
# The handlers of elements

`HT_caps_handler`, `HT_info_handler`, `ERP_IE_handler`, `WMM_param_handler` and
`rtw_process_wfd_ie` are handed an element and are not told where its frame ends.  Some trust its
length byte, some only up to the size of what they fill, and some do not look at it.

Here is what they read of the frame, and what `HT_caps_handler` does to the record it fills.
-/
import Rtl8723bs.AttrSearch

namespace Rtl8723bs

namespace IeHandlers

/-! ## 1. Reads -/

/-- Every read, a place and a number of bytes, ends at the limit at most. -/
def Below (limit : Nat) (rs : List (Nat × Nat)) : Prop := ∀ r ∈ rs, r.1 + r.2 ≤ limit

@[simp] theorem below_nil (limit : Nat) : Below limit [] := nofun

@[simp] theorem below_cons {limit p n : Nat} {rs : List (Nat × Nat)} :
    Below limit ((p, n) :: rs) ↔ p + n ≤ limit ∧ Below limit rs := by
  simp [Below]

@[simp] theorem below_append {limit : Nat} {rs rs' : List (Nat × Nat)} :
    Below limit (rs ++ rs') ↔ Below limit rs ∧ Below limit rs' := by
  simp [Below, or_imp, forall_and]

/-- A read that is made under a condition. -/
@[simp] theorem below_ite {limit : Nat} {c : Prop} [Decidable c] {rs : List (Nat × Nat)} :
    Below limit (if c then rs else []) ↔ (c → Below limit rs) := by
  split <;> simp_all

/-- `Length` of the element at `p`. -/
def length (m : Mem) (p : Nat) : Nat := (m (p + 1)).toNat

/-! ## 2. `rtw_get_ie` -/

section GetIe

variable {m : Mem} {p limit : Nat} {index : UInt8} {n : Int}

/-- What `rtw_get_ie` reads: the header of each element it comes to. -/
def getIeReads (m : Mem) (p : Nat) (index : UInt8) (n : Int) : List (Nat × Nat) :=
  ((getIeChain m p index n).visited (n.toNat + 1) 0).map fun i => (p + i, 2)

theorem getIeChain_go {i : Nat} : (getIeChain m p index n).go i = true ↔ (i : Int) < n := by
  simp [getIeChain]

theorem getIeChain_hit {i : Nat} : (getIeChain m p index n).hit i = true ↔ m (p + i) = index := by
  simp [getIeChain]

/-- The walk ends when all places below the limit are looked at. -/
theorem getIe_ends (m : Mem) (p : Nat) (index : UInt8) (n : Int) :
    ∃ r, (getIeChain m p index n).search (n.toNat + 1) 0 = some r := by
  refine Chain.ends_of_not_again (fun a ha => ?_) fun a _ => Chain.not_again fun b _ => ?_
  · have hlt := getIeChain_go.mp ha
    omega
  · change b < b + ieSize m (p + b)
    unfold ieSize
    omega

theorem below_getIeReads : Below limit (getIeReads m p index n) ↔
    ∀ i, (getIeChain m p index n).Comes 0 i → (i : Int) < n → p + i + 2 ≤ limit := by
  obtain ⟨r, hr⟩ := getIe_ends m p index n
  constructor
  · intro h i hcomes hi
    exact h (p + i, 2) (List.mem_map.mpr ⟨i, hcomes.mem_visited hr (getIeChain_go.mpr hi), rfl⟩)
  · rintro h x hx
    obtain ⟨i, hi, rfl⟩ := List.mem_map.mp hx
    obtain ⟨hcomes, hgo⟩ := Chain.mem_visited hi
    exact h i hcomes (getIeChain_go.mp hgo)

/-- **What `rtw_get_ie` finds** is the element of the kind that its walk comes to. -/
theorem rtwGetIe_eq_some_iff {q len : Nat} : rtwGetIe m p index n = some (q, len) ↔
    ∃ i, (getIeChain m p index n).Comes 0 i ∧ (i : Int) < n ∧ m (p + i) = index ∧ q = p + i ∧
      len = length m (p + i) := by
  obtain ⟨r, hr⟩ := getIe_ends m p index n
  have hrun : rtwGetIe m p index n = r.map fun i => (p + i, length m (p + i)) := by
    rw [rtwGetIe]
    by_cases hn : n < 1
    · have hstop : (getIeChain m p index n).go 0 = false :=
        Bool.eq_false_iff.mpr fun hgo => by have := getIeChain_go.mp hgo; omega
      rw [Chain.search_stop hstop, Option.some.injEq] at hr
      rw [if_pos hn, ← hr]
      rfl
    · have hloop := @getIeLoop_eq m n.toNat p 0 index n (by omega) (by omega)
      rw [hr] at hloop
      rw [if_neg hn]
      exact hloop
  rw [hrun, Option.map_eq_some_iff]
  constructor
  · rintro ⟨i, rfl, heq⟩
    obtain ⟨hcomes, hgo, hhit⟩ := Chain.comes_of_search hr
    rw [Prod.mk.injEq] at heq
    exact ⟨i, hcomes, getIeChain_go.mp hgo, getIeChain_hit.mp hhit, heq.1.symm, heq.2.symm⟩
  · rintro ⟨i, hcomes, hi, hkind, rfl, rfl⟩
    obtain ⟨k, hk⟩ := hcomes.found (getIeChain_go.mpr hi) (getIeChain_hit.mpr hkind)
    exact ⟨i, Chain.search_unique hr hk, rfl⟩

end GetIe

/-! ## 3. `HT_caps_handler` -/

/-- The size of `HT_caps`. -/
def htCapsSize : Nat := 26

/-- `AMPDU_para`: the smaller of the lengths, and the greater of the spacings. -/
def ampduPara (old new : UInt8) : UInt8 :=
  let len := if old &&& 0x3 > new &&& 0x3 then new &&& 0x3 else old &&& 0x3
  let spacing := if old &&& 0x1c > new &&& 0x1c then old &&& 0x1c else new &&& 0x1c
  len ||| spacing

/-- One round of the loop over the `Length` bytes of the element at `p`; `HT_caps` starts at 0. -/
def htCapsRound (m : Mem) (p : Nat) (ht : Mem) (i : Nat) : Mem :=
  Function.update ht i
    (if i ≠ 2 then ht i &&& m (p + 2 + i) else ampduPara (ht 2) (m (p + 2 + 2)))

/-- A byte of `MCS_rate` is restricted. -/
def mcsAnd (mask : Nat → UInt8) (ht : Mem) (i : Nat) : Mem :=
  Function.update ht (3 + i) (ht (3 + i) &&& mask i)

/-- What `HT_caps_handler` makes of `HT_caps`, with `default_supported_mcs_set` and the mask of
`set_mcs_rate_by_mask` for the transmit paths there are. -/
def htCapsHandler (supported rateMask : Nat → UInt8) (m : Mem) (p : Nat) (ht : Mem) : Mem :=
  let ht := (List.range (length m p)).foldl (htCapsRound m p) ht
  let ht := (List.range 16).foldl (mcsAnd supported) ht
  (List.range 4).foldl (mcsAnd rateMask) ht

section HtCaps

variable {m ht : Mem} {p j : Nat}

/-- A byte behind the record is changed by the round that comes to it. -/
theorem foldl_htCapsRound (n : Nat) (hj : htCapsSize ≤ j) :
    (List.range n).foldl (htCapsRound m p) ht j =
      if j < n then ht j &&& m (p + 2 + j) else ht j := by
  have hne : j ≠ 2 := by
    unfold htCapsSize at hj
    omega
  induction n with
  | zero => simp
  | succ n ih =>
    rw [List.range_succ, List.foldl_append, List.foldl_cons, List.foldl_nil, htCapsRound]
    by_cases hjn : j = n
    · subst hjn
      rw [Function.update_self, if_pos hne, ih, if_neg (Nat.lt_irrefl j),
        if_pos (Nat.lt_succ_self j)]
    · rw [Function.update_of_ne hjn, ih]
      have hiff : j < n + 1 ↔ j < n := by omega
      simp only [hiff]

/-- The rates lie in the record. -/
theorem foldl_mcsAnd (mask : Nat → UInt8) {n : Nat} (hn : n ≤ 16) (hj : htCapsSize ≤ j) :
    (List.range n).foldl (mcsAnd mask) ht j = ht j := by
  unfold htCapsSize at hj
  induction n with
  | zero => rfl
  | succ n ih =>
    have hne : j ≠ 3 + n := by omega
    rw [List.range_succ, List.foldl_append, List.foldl_cons, List.foldl_nil, mcsAnd,
      Function.update_of_ne hne]
    exact ih (by omega)

/-- What stands behind the record. -/
theorem htCapsHandler_behind (supported rateMask : Nat → UInt8) (hj : htCapsSize ≤ j) :
    htCapsHandler supported rateMask m p ht j =
      if j < length m p then ht j &&& m (p + 2 + j) else ht j := by
  unfold htCapsHandler
  rw [foldl_mcsAnd rateMask (by decide) hj, foldl_mcsAnd supported (by decide) hj,
    foldl_htCapsRound _ hj]

theorem and_ff (b : UInt8) : b &&& 0xff = b := by
  rw [← UInt8.toNat_inj, UInt8.toNat_and]
  exact Nat.and_two_pow_sub_one_of_lt_two_pow b.toNat_lt

/-- The handler changes nothing outside the record, whatever stands there. -/
def HtCapsStays (supported rateMask : Nat → UInt8) (m : Mem) (p : Nat) : Prop :=
  ∀ ht j, htCapsSize ≤ j → htCapsHandler supported rateMask m p ht j = ht j

/-- **The handler stays in the record** exactly if the element has no byte behind it that clears a
bit. -/
theorem htCapsStays_iff (supported rateMask : Nat → UInt8) (m : Mem) (p : Nat) :
    HtCapsStays supported rateMask m p ↔
      ∀ j, htCapsSize ≤ j → j < length m p → m (p + 2 + j) = 0xff := by
  constructor
  · intro h j hj hlt
    have hall := h (fun _ => 0xff) j hj
    rw [htCapsHandler_behind _ _ hj, if_pos hlt] at hall
    rwa [UInt8.and_comm, and_ff] at hall
  · intro h ht j hj
    rw [htCapsHandler_behind _ _ hj]
    split
    · rename_i hlt
      rw [h j hj hlt, and_ff]
    · rfl

end HtCaps

/-! ## 4. What the handlers read -/

/-- What the handlers ask of the adapter: `ht_option`, `qos_option`, `WIFI_AP_STATE`, and
`WL_FUNC_MIRACAST`. -/
structure Env where
  htOption : Bool
  qosOption : Bool
  apState : Bool
  miracast : Bool

/-- `LDPC_HT_ENABLE_TX` of `ldpc_cap`, and `STBC_HT_ENABLE_TX` of `stbc_cap`. -/
structure HtFlags where
  ldpcTx : Bool
  stbcTx : Bool
deriving DecidableEq, Repr

/-- `HT_caps_handler` reads all the element says it has, and for a flag that is set the first or the
second byte. -/
def htCapsReads (e : Env) (f : HtFlags) (m : Mem) (p : Nat) : List (Nat × Nat) :=
  if e.htOption then
    (p + 2, length m p) :: (if e.apState = false ∧ f.ldpcTx then [(p + 2, 1)] else []) ++
      if f.stbcTx then [(p + 3, 1)] else []
  else []

/-- What an element for `HT_caps_handler` has to have in the frame. -/
def HtCapsFits (e : Env) (f : HtFlags) (m : Mem) (p limit : Nat) : Prop :=
  p + 2 + length m p ≤ limit ∧ (e.apState = false → f.ldpcTx → p + 3 ≤ limit) ∧
    (f.stbcTx → p + 4 ≤ limit)

theorem below_htCapsReads {e : Env} {f : HtFlags} {m : Mem} {p limit : Nat} :
    Below limit (htCapsReads e f m p) ↔ (e.htOption → HtCapsFits e f m p limit) := by
  rw [htCapsReads, below_ite, HtCapsFits]
  simp only [List.cons_append, below_cons, below_append, below_ite, below_nil, and_true, and_imp]

/-- The flags that are left. -/
def htCapsFlags (e : Env) (f : HtFlags) (m : Mem) (p : Nat) : HtFlags :=
  if e.htOption then
    { ldpcTx := if e.apState then f.ldpcTx else f.ldpcTx && m (p + 2) &&& 1 ≠ 0
      stbcTx := f.stbcTx && m (p + 3) &&& 3 ≠ 0 }
  else f

/-- `sizeof(struct HT_info_element)`. -/
def htInfoSize : Nat := 22

def htInfoReads (e : Env) (m : Mem) (p : Nat) : List (Nat × Nat) :=
  if e.htOption ∧ length m p ≤ htInfoSize then [(p + 2, length m p)] else []

def erpReads (m : Mem) (p : Nat) : List (Nat × Nat) :=
  if length m p ≤ 1 then [(p + 2, length m p)] else []

/-- `sizeof(struct WMM_para_element)`. -/
def wmmParaSize : Nat := 18

/-- `WMM_param_handler` takes what is behind the OUI, the type and the version. -/
def wmmReads (e : Env) (p : Nat) : List (Nat × Nat) :=
  if e.qosOption then [(p + 8, wmmParaSize)] else []

/-- `WFD_ATTR_DEVICE_INFO`. -/
def wfdAttrDeviceInfo : UInt8 := 0

/-- The walk over the attributes of the WFD element at `p`, of which `Length` bytes are given. -/
def wfdChain (m : Mem) (p : Nat) : Chain :=
  attrChain wfdAttr m p (length m p) wfdAttrDeviceInfo.toNat

/-- What that walk reads from `off` on: the header of each attribute it comes to. -/
def wfdWalkReads (m : Mem) (p : Nat) : Nat → Nat → List (Nat × Nat)
  | 0, _ => []
  | n + 1, off =>
    if off + wfdAttr.hdr ≤ length m p then
      (p + off, wfdAttr.hdr) :: if (wfdChain m p).go off ∧ (wfdChain m p).hit off = false then
        wfdWalkReads m p n ((wfdChain m p).next off) else []
    else []

/-- `rtw_process_wfd_ie` takes the port from the third and fourth byte of the content, if there is
one; a length in 32 bits is 0 only for the header alone. -/
def wfdPortReads : Option (Nat × Nat) → List (Nat × Nat)
  | some (q, n) => if n ≠ 0 ∧ n ≠ wfdAttr.hdr then [(q + wfdAttr.hdr + 2, 2)] else []
  | none => []

/-- What `rtw_process_wfd_ie` reads; `none` is a search that never ends. -/
def wfdReads (e : Env) (m : Mem) (p : Nat) : Option (List (Nat × Nat)) :=
  if e.miracast then
    (rtwGetWfdAttr m p (length m p) wfdAttrDeviceInfo).map fun found =>
      (if 6 < length m p then (p, 1) :: (p + 2, 4) :: wfdWalkReads m p (length m p + 1) 6 else []) ++
        wfdPortReads found
  else some []

/-! ## 5. WFD elements -/

/-- **WFD elements that go well.**  The header of every attribute the walk comes to lies below the
limit, the walk moves on, and the port of the one it looks for lies below the limit. -/
def WfdFits (m : Mem) (p limit : Nat) : Prop :=
  6 < length m p → ∀ off, (wfdChain m p).Comes 6 off → off + wfdAttr.hdr ≤ length m p →
    p + off + wfdAttr.hdr ≤ limit ∧ ((wfdChain m p).go off = true →
      if (wfdChain m p).hit off then
        wfdAttr.attrLen m (p + off) ≠ 0 → wfdAttr.attrLen m (p + off) ≠ wfdAttr.hdr →
          p + off + 7 ≤ limit
      else wfdAttr.attrLen m (p + off) ≠ 0)

section Wfd

variable {m : Mem} {p limit n off s : Nat} {e : Env}

/-- What the walk reads are the headers of the attributes it comes to. -/
theorem mem_wfdWalkReads {r : Nat × Nat} (h : r ∈ wfdWalkReads m p n s) :
    ∃ off, (wfdChain m p).Comes s off ∧ off + wfdAttr.hdr ≤ length m p ∧
      r = (p + off, wfdAttr.hdr) := by
  induction n generalizing s with
  | zero => exact absurd h List.not_mem_nil
  | succ n ih =>
    rw [wfdWalkReads] at h
    split at h
    · rename_i hhead
      rcases List.mem_cons.mp h with rfl | h
      · exact ⟨s, .start, hhead, rfl⟩
      · split at h
        · rename_i hpass
          obtain ⟨off, hcomes, hoff, hr⟩ := ih h
          exact ⟨off, hcomes.cons hpass, hoff, hr⟩
        · exact absurd h List.not_mem_nil
    · exact absurd h List.not_mem_nil

/-- A walk that ends reads all of them. -/
theorem wfdWalkReads_of_comes {r : Option Nat} (hsearch : (wfdChain m p).search n s = some r)
    (h : (wfdChain m p).Comes s off) (hoff : off + wfdAttr.hdr ≤ length m p) :
    (p + off, wfdAttr.hdr) ∈ wfdWalkReads m p n s := by
  induction n generalizing s with
  | zero => simp [Chain.search] at hsearch
  | succ n ih =>
    rw [wfdWalkReads]
    rcases h.head with rfl | ⟨hpass, hrest⟩
    · rw [if_pos hoff]
      exact List.mem_cons_self
    · have hhead : s + wfdAttr.hdr ≤ length m p := (of_decide_eq_true hpass.1).1
      have hstep : (wfdChain m p).go s = true ∧ (wfdChain m p).hit s = false := hpass
      rw [Chain.search_passes hpass] at hsearch
      rw [if_pos hhead, if_pos hstep]
      exact List.mem_cons_of_mem _ (ih hsearch hrest)

/-- The walk ends exactly if it moves on, in as many rounds as there are bytes. -/
theorem wfd_ends_iff : (∃ r, (wfdChain m p).search (length m p + 1) 6 = some r) ↔
    ∀ off, (wfdChain m p).Comes 6 off → (wfdChain m p).Passes off →
      wfdAttr.attrLen m (p + off) ≠ 0 := by
  have hbound : ∀ a, (wfdChain m p).go a = true → a < length m p := by
    intro a ha
    have hhead : a + 3 ≤ length m p := (of_decide_eq_true ha).1
    omega
  have hup : ∀ a, (wfdChain m p).Passes a → a ≤ (wfdChain m p).next a :=
    fun a _ => Nat.le_add_right a _
  constructor
  · rintro ⟨r, hr⟩ off hcomes hpass hzero
    refine Chain.not_again_of_ends hr hcomes ((Chain.again_iff hup).mpr ⟨hpass, ?_⟩)
    exact (congrArg (off + ·) hzero).trans (Nat.add_zero off)
  · intro h
    refine Chain.ends_of_not_again hbound fun off hcomes hagain => ?_
    obtain ⟨hpass, hself⟩ := (Chain.again_iff hup).mp hagain
    have hsum : off + wfdAttr.attrLen m (p + off) = off := hself
    exact h off hcomes hpass (by omega)

/-- `rtw_get_wfd_attr` on a WFD element is its walk. -/
theorem rtwGetWfdAttr_eq (hkind : m p = wlanEidVendorSpecific)
    (houi : readBytes m (p + 2) 4 = wfdOui) :
    rtwGetWfdAttr m p (length m p) wfdAttrDeviceInfo =
      if 6 < length m p then
        ((wfdChain m p).search (length m p + 1) 6).map (foundAttr wfdAttr m p)
      else some none := by
  unfold rtwGetWfdAttr
  by_cases hlong : 6 < length m p
  · have hin : ¬ (length m p ≤ 6 ∨ m p ≠ wlanEidVendorSpecific ∨
        readBytes m (p + 2) 4 ≠ wfdOui) := by
      simp only [hkind, houi, ne_eq, not_true_eq_false, or_false]
      omega
    rw [if_neg hin, if_pos hlong]
    rfl
  · rw [if_pos (.inl (Nat.not_lt.mp hlong)), if_neg hlong]

theorem below_wfdPortReads {r : Option Nat} :
    Below limit (wfdPortReads (foundAttr wfdAttr m p r)) ↔ ∀ off, r = some off →
      wfdAttr.attrLen m (p + off) ≠ 0 → wfdAttr.attrLen m (p + off) ≠ wfdAttr.hdr →
        p + off + 7 ≤ limit := by
  cases r with
  | none => simp [wfdPortReads, foundAttr]
  | some off =>
    have hend : p + off + wfdAttr.hdr + 2 + 2 = p + off + 7 := rfl
    rw [foundAttr, Option.map_some, wfdPortReads, below_ite]
    simp only [below_cons, below_nil, and_true, Option.some.injEq, forall_eq', and_imp, hend]

/-- **A WFD element is read below the limit** exactly if it goes well. -/
theorem wfdReads_iff (hkind : m p = wlanEidVendorSpecific)
    (houi : readBytes m (p + 2) 4 = wfdOui) (hfirst : p + 6 ≤ limit) :
    (∃ rs, wfdReads e m p = some rs ∧ Below limit rs) ↔ (e.miracast → WfdFits m p limit) := by
  rw [wfdReads, rtwGetWfdAttr_eq hkind houi]
  cases e.miracast with
  | false => simp
  | true =>
    by_cases hlong : 6 < length m p
    · simp only [if_true, if_pos hlong, forall_const]
      constructor
      · rintro ⟨rs, hrs, hbelow⟩ _ off hcomes hoff
        obtain ⟨x, hx, rfl⟩ := Option.map_eq_some_iff.mp hrs
        obtain ⟨r, hr, rfl⟩ := Option.map_eq_some_iff.mp hx
        simp only [below_append, below_cons, below_wfdPortReads] at hbelow
        obtain ⟨⟨-, -, hwalk⟩, hport⟩ := hbelow
        refine ⟨hwalk _ (wfdWalkReads_of_comes hr hcomes hoff), fun hgo => ?_⟩
        by_cases hhit : (wfdChain m p).hit off = true
        · obtain ⟨k, hk⟩ := hcomes.found hgo hhit
          rw [if_pos hhit]
          exact hport off (Chain.search_unique hr hk)
        · rw [if_neg hhit]
          exact wfd_ends_iff.mp ⟨r, hr⟩ off hcomes ⟨hgo, Bool.eq_false_iff.mpr hhit⟩
      · intro h
        have hfits := h hlong
        obtain ⟨r, hr⟩ := wfd_ends_iff.mpr fun off hcomes hpass => by
          have hmoves := (hfits off hcomes (of_decide_eq_true hpass.1).1).2 hpass.1
          rwa [hpass.2, if_neg Bool.false_ne_true] at hmoves
        refine ⟨_, by rw [hr, Option.map_some, Option.map_some], ?_⟩
        simp only [below_append, below_cons, below_wfdPortReads]
        refine ⟨⟨by omega, by omega, fun x hx => ?_⟩, ?_⟩
        · obtain ⟨off, hcomes, hoff, rfl⟩ := mem_wfdWalkReads hx
          exact (hfits off hcomes hoff).1
        · rintro off rfl
          obtain ⟨hcomes, hgo, hhit⟩ := Chain.comes_of_search hr
          have hport := (hfits off hcomes (of_decide_eq_true hgo).1).2 hgo
          rwa [if_pos hhit] at hport
    · simp [WfdFits, hlong, wfdPortReads]

end Wfd

end IeHandlers

end Rtl8723bs
