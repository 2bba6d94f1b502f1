/-
# Searches in a beacon template

`rtw_check_beacon_data` looks for one element after the other with `rtw_get_ie`.  For the WPA and
the WMM element it goes on behind a vendor element with another OUI, and takes off the limit only
what that element has, so that later searches may pass the end of the template.

`vendorSearch_iff` says when such a search ends and reads only what it should.
-/
import Mathlib.Logic.Relation
import Rtl8723bs.Ap.SecurityIe
import Rtl8723bs.Mlme.IeHandlers

namespace Rtl8723bs

namespace BeaconData

open IeHandlers (Below below_cons below_nil below_append below_ite getIeReads below_getIeReads
  rtwGetIe_eq_some_iff)

/-! ## 1. A search, and what is read of the element found -/

/-- What is read of the element found, its place and its length. -/
abbrev Use := Nat → Nat → List (Nat × Nat)

/-- The reads of what was found. -/
def useReads (use : Use) : Option (Nat × Nat) → List (Nat × Nat)
  | some (q, len) => use q len
  | none => []

/-- What a search for the element `kind` in the `n` bytes at `p` reads, and what its caller then
reads of the element. -/
def searchReads (m : Mem) (p : Nat) (kind : UInt8) (n : Int) (use : Use) : List (Nat × Nat) :=
  getIeReads m p kind n ++ useReads use (rtwGetIe m p kind n)

/-- **Searches that go well.**  The header of every element the search comes to lies below the
limit, and so does what is read of the one it looks for. -/
def SearchFits (m : Mem) (p : Nat) (kind : UInt8) (n : Int) (use : Use) (limit : Nat) : Prop :=
  ∀ i, (getIeChain m p kind n).Comes 0 i → (i : Int) < n →
    p + i + 2 ≤ limit ∧ (m (p + i) = kind → Below limit (use (p + i) (IeHandlers.length m (p + i))))

section Search

variable {m : Mem} {p limit q len : Nat} {kind : UInt8} {n : Int} {use : Use}

theorem below_useReads {found : Option (Nat × Nat)} : Below limit (useReads use found) ↔
    ∀ q len, found = some (q, len) → Below limit (use q len) := by
  cases found with
  | none => simp [useReads]
  | some r => simp [useReads, Prod.ext_iff]

/-- **A search reads below the limit** exactly if it goes well. -/
theorem below_searchReads :
    Below limit (searchReads m p kind n use) ↔ SearchFits m p kind n use limit := by
  rw [searchReads, below_append, below_getIeReads, below_useReads]
  constructor
  · rintro ⟨hheads, huse⟩ i hcomes hi
    refine ⟨hheads i hcomes hi, fun hkind => ?_⟩
    exact huse _ _ (rtwGetIe_eq_some_iff.mpr ⟨i, hcomes, hi, hkind, rfl, rfl⟩)
  · intro h
    refine ⟨fun i hcomes hi => (h i hcomes hi).1, fun q len hfound => ?_⟩
    obtain ⟨i, hcomes, hi, hkind, rfl, rfl⟩ := rtwGetIe_eq_some_iff.mp hfound
    exact (h i hcomes hi).2 hkind

/-- The element found stands behind the start of the search, and its header below the limit. -/
theorem SearchFits.found (h : SearchFits m p kind n use limit)
    (hfound : rtwGetIe m p kind n = some (q, len)) :
    p ≤ q ∧ q + 2 ≤ limit ∧ Below limit (use q len) := by
  obtain ⟨i, hcomes, hi, hkind, rfl, rfl⟩ := rtwGetIe_eq_some_iff.mp hfound
  obtain ⟨hhead, huse⟩ := h i hcomes hi
  exact ⟨Nat.le_add_right p i, hhead, huse hkind⟩

end Search

/-! ## 2. The loops over vendor elements -/

/-- The limit of the next search, `ieLen` being the length of the element just passed. -/
def vendorLimit (ieLength ieLen : Nat) : Int := ieLength - 12 - (ieLen + 2)

/-- What is read of a vendor element: its OUI, and with the OUI looked for what `use` says. -/
def vendorUse (m : Mem) (oui : List UInt8) (use : Use) : Use := fun q len =>
  (q + 2, oui.length) :: if readBytes m (q + 2) oui.length = oui then use q len else []

/-- `for (p = ie + _BEACON_IE_OFFSET_; ; p += (ie_len + 2))`: what is read, and the element with the
OUI; `none` is out of rounds. -/
def vendorSearch (m : Mem) (oui : List UInt8) (use : Use) (ieLength : Nat) :
    Nat → Nat → Nat → Option (List (Nat × Nat) × Option (Nat × Nat))
  | 0, _, _ => none
  | n + 1, p, ieLen =>
    let limit := vendorLimit ieLength ieLen
    let rs := searchReads m p wlanEidVendorSpecific limit (vendorUse m oui use)
    match rtwGetIe m p wlanEidVendorSpecific limit with
    | none => some (rs, none)
    | some (q, len) =>
      if readBytes m (q + 2) oui.length = oui then some (rs, some (q, len))
      else if len = 0 then some (rs, none)
      else (vendorSearch m oui use ieLength n (q + (len + 2)) len).map fun out =>
        (rs ++ out.1, out.2)

/-- One round that goes on: the place and the length. -/
def VendorRound (m : Mem) (oui : List UInt8) (ieLength : Nat) (s t : Nat × Nat) : Prop :=
  ∃ q len, rtwGetIe m s.1 wlanEidVendorSpecific (vendorLimit ieLength s.2) = some (q, len) ∧
    readBytes m (q + 2) oui.length ≠ oui ∧ len ≠ 0 ∧ t = (q + (len + 2), len)

/-- **Loops that go well.**  So does every search the loop comes to. -/
def VendorFits (m : Mem) (oui : List UInt8) (use : Use) (ieLength limit : Nat) (s : Nat × Nat) :
    Prop :=
  ∀ t, Relation.ReflTransGen (VendorRound m oui ieLength) s t →
    SearchFits m t.1 wlanEidVendorSpecific (vendorLimit ieLength t.2) (vendorUse m oui use) limit

section Vendor

variable {m : Mem} {oui : List UInt8} {use : Use} {ieLength limit n p ieLen q len : Nat}
  {out : List (Nat × Nat) × Option (Nat × Nat)}

/-- What one round does. -/
theorem vendorSearch_succ (h : vendorSearch m oui use ieLength (n + 1) p ieLen = some out) :
    (out.1 = searchReads m p wlanEidVendorSpecific (vendorLimit ieLength ieLen)
        (vendorUse m oui use) ∧ ∀ t, ¬ VendorRound m oui ieLength (p, ieLen) t) ∨
      ∃ t rest, VendorRound m oui ieLength (p, ieLen) t ∧
        vendorSearch m oui use ieLength n t.1 t.2 = some rest ∧
        out = (searchReads m p wlanEidVendorSpecific (vendorLimit ieLength ieLen)
          (vendorUse m oui use) ++ rest.1, rest.2) := by
  rw [vendorSearch] at h
  cases hfound : rtwGetIe m p wlanEidVendorSpecific (vendorLimit ieLength ieLen) with
  | none =>
    simp only [hfound, Option.some.injEq] at h
    subst h
    refine .inl ⟨rfl, ?_⟩
    rintro t ⟨q, len, hq, -⟩
    exact nomatch hfound.symm.trans hq
  | some r =>
    obtain ⟨q, len⟩ := r
    simp only [hfound] at h
    have hunique : ∀ {q' len'}, rtwGetIe m p wlanEidVendorSpecific (vendorLimit ieLength ieLen)
        = some (q', len') → q' = q ∧ len' = len := fun hq =>
      Prod.mk.inj (Option.some.inj (hq.symm.trans hfound))
    split at h
    · rename_i houi
      obtain rfl := Option.some.inj h
      refine .inl ⟨rfl, ?_⟩
      rintro t ⟨q', len', hq, hne, -⟩
      obtain ⟨rfl, rfl⟩ := hunique hq
      exact hne houi
    · rename_i hne
      split at h
      · rename_i hzero
        obtain rfl := Option.some.inj h
        refine .inl ⟨rfl, ?_⟩
        rintro t ⟨q', len', hq, -, hlen, -⟩
        obtain ⟨rfl, rfl⟩ := hunique hq
        exact hlen hzero
      · rename_i hlen
        obtain ⟨rest, hrest, rfl⟩ := Option.map_eq_some_iff.mp h
        exact .inr ⟨_, rest, ⟨q, len, hfound, hne, hlen, rfl⟩, hrest, rfl⟩

/-- A round that does not go on ends the loop. -/
theorem vendorSearch_stop (use : Use) (h : ∀ t, ¬ VendorRound m oui ieLength (p, ieLen) t) :
    ∃ found, ∀ n, vendorSearch m oui use ieLength (n + 1) p ieLen =
      some (searchReads m p wlanEidVendorSpecific (vendorLimit ieLength ieLen)
        (vendorUse m oui use), found) := by
  simp only [vendorSearch]
  cases hfound : rtwGetIe m p wlanEidVendorSpecific (vendorLimit ieLength ieLen) with
  | none => exact ⟨none, fun _ => rfl⟩
  | some r =>
    obtain ⟨q, len⟩ := r
    by_cases houi : readBytes m (q + 2) oui.length = oui
    · exact ⟨some (q, len), fun _ => if_pos houi⟩
    · by_cases hlen : len = 0
      · exact ⟨none, fun _ => (if_neg houi).trans (if_pos hlen)⟩
      · exact absurd ⟨q, len, hfound, houi, hlen, rfl⟩ (h (q + (len + 2), len))

/-- A round that goes on leaves the rest to the next. -/
theorem vendorSearch_round {t : Nat × Nat} (h : VendorRound m oui ieLength (p, ieLen) t) :
    vendorSearch m oui use ieLength (n + 1) p ieLen =
      (vendorSearch m oui use ieLength n t.1 t.2).map fun out =>
        (searchReads m p wlanEidVendorSpecific (vendorLimit ieLength ieLen)
          (vendorUse m oui use) ++ out.1, out.2) := by
  obtain ⟨q, len, hfound, houi, hlen, rfl⟩ := h
  simp only [vendorSearch, hfound, if_neg houi, if_neg hlen]

/-- More rounds find the same. -/
theorem vendorSearch_mono {n' : Nat} (h : vendorSearch m oui use ieLength n p ieLen = some out)
    (hle : n ≤ n') : vendorSearch m oui use ieLength n' p ieLen = some out := by
  induction n generalizing n' p ieLen out with
  | zero => exact absurd h (by simp [vendorSearch])
  | succ n ih =>
    obtain ⟨n', rfl⟩ := Nat.exists_eq_add_of_le' (Nat.le_trans (Nat.le_add_left 1 n) hle)
    rcases vendorSearch_succ h with ⟨-, hstop⟩ | ⟨t, rest, hround, hrest, rfl⟩
    · obtain ⟨found, hf⟩ := vendorSearch_stop use hstop
      exact (hf n').trans ((hf n).symm.trans h)
    · rw [vendorSearch_round hround, ih hrest (by omega)]
      rfl

/-- What a loop finds does not depend on the rounds. -/
theorem vendorSearch_unique {n' : Nat} {out' : List (Nat × Nat) × Option (Nat × Nat)}
    (h : vendorSearch m oui use ieLength n p ieLen = some out)
    (h' : vendorSearch m oui use ieLength n' p ieLen = some out') : out = out' :=
  Option.some.inj ((vendorSearch_mono h (Nat.le_max_left n n')).symm.trans
    (vendorSearch_mono h' (Nat.le_max_right n n')))

/-- **A loop that reads only below the limit goes well.** -/
theorem vendorFits_of_search (h : vendorSearch m oui use ieLength n p ieLen = some out)
    (hbelow : Below limit out.1) : VendorFits m oui use ieLength limit (p, ieLen) := by
  induction n generalizing p ieLen out with
  | zero => exact absurd h (by simp [vendorSearch])
  | succ n ih =>
    intro t ht
    rcases vendorSearch_succ h with ⟨hreads, hstop⟩ | ⟨s, rest, hround, hrest, rfl⟩
    · rcases ht.cases_head with rfl | ⟨s, hround, -⟩
      · exact below_searchReads.mp (hreads ▸ hbelow)
      · exact absurd hround (hstop s)
    · rw [below_append] at hbelow
      rcases ht.cases_head with rfl | ⟨s', hround', ht⟩
      · exact below_searchReads.mp hbelow.1
      · obtain ⟨q, len, hq, -, -, rfl⟩ := hround
        obtain ⟨q', len', hq', -, -, rfl⟩ := hround'
        obtain ⟨rfl, rfl⟩ := Prod.mk.inj (Option.some.inj (hq.symm.trans hq'))
        exact ih hrest hbelow.2 _ ht

/-- **A loop that goes well ends**, for each round moves on, and reads only below the limit. -/
theorem search_of_vendorFits (h : VendorFits m oui use ieLength limit (p, ieLen))
    (hn : limit < p + n) (hpos : 0 < n) :
    ∃ out, vendorSearch m oui use ieLength n p ieLen = some out ∧ Below limit out.1 := by
  induction n generalizing p ieLen with
  | zero => omega
  | succ n ih =>
    have hhere := h _ .refl
    by_cases hstop : ∀ t, ¬ VendorRound m oui ieLength (p, ieLen) t
    · obtain ⟨found, hf⟩ := vendorSearch_stop use hstop
      exact ⟨_, hf n, below_searchReads.mpr hhere⟩
    · simp only [not_forall, not_not] at hstop
      obtain ⟨t, hround⟩ := hstop
      have hround' := hround
      obtain ⟨q, len, hq, -, -, rfl⟩ := hround'
      obtain ⟨hle, hhead, -⟩ := hhere.found hq
      have hrest : VendorFits m oui use ieLength limit (q + (len + 2), len) :=
        fun t ht => h t (ht.head hround)
      dsimp only at hle
      obtain ⟨out, hout, hbelow⟩ := ih hrest (by omega) (by omega)
      refine ⟨_, by rw [vendorSearch_round hround, hout, Option.map_some], ?_⟩
      rw [below_append]
      exact ⟨below_searchReads.mpr hhere, hbelow⟩

end Vendor

end BeaconData

end Rtl8723bs
