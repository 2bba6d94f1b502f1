/-
# Searches for information elements

Five functions search a string of elements for one of them: `rtw_get_ie` and `rtw_get_ie_ex` for
one of a kind, the second with an OUI, and `rtw_get_wps_ie`, `rtw_get_p2p_ie` and `rtw_get_wfd_ie`
for a vendor element with their OUI.  Each walks from element to element by the length byte, and
each has its own test for the end.  None holds the element it finds against the limit.

`ie_searches_iff` says which strings a search stays inside of.
-/
import Rtl8723bs.Ie
import Rtl8723bs.Lib.ChainSearch
import Rtl8723bs.P2p.Attr

namespace Rtl8723bs

/-! ## 1. The loops -/

/-- What the length byte of the element at `p` says of the whole element. -/
def ieSize (m : Mem) (p : Nat) : Nat := (m (p + 1)).toNat + 2

/-- The walk of `rtw_get_ie`. -/
def getIeChain (m : Mem) (pbuf : Nat) (index : UInt8) (limit : Int) : Chain where
  go i := (i : Int) < limit
  hit i := m (pbuf + i) = index
  next i := i + ieSize m (pbuf + i)

/-- The walk of `rtw_get_ie_ex`; `cnt` is an `uint`. -/
def getIeExChain (m : Mem) (inIe inLen : Nat) (eid : UInt8) (oui : Option (List UInt8)) :
    Chain where
  go cnt := cnt < inLen
  hit cnt := m (inIe + cnt) = eid ∧
    ∀ o ∈ oui, readBytes m (inIe + (cnt + 2) % 2 ^ 32) o.length = o
  next cnt := (cnt + ieSize m (inIe + cnt)) % 2 ^ 32

/-- The walk of `rtw_get_wps_ie`, `rtw_get_p2p_ie` and `rtw_get_wfd_ie`, which differ in the OUI.
They give up at `MAX_IE_SZ`. -/
def vendorIeChain (oui : List UInt8) (m : Mem) (inIe : Nat) (inLen : Int) : Chain where
  go cnt := ((cnt + 1 + 4 : Nat) : Int) < inLen ∧ cnt + 1 + 4 < maxIeSz
  hit cnt := m (inIe + cnt) = wlanEidVendorSpecific ∧ readBytes m (inIe + cnt + 2) 4 = oui
  next cnt := cnt + ieSize m (inIe + cnt)

/-- The element found by a walk: its place and its length with the two bytes in front. -/
def foundIe (m : Mem) (inIe : Nat) (r : Option Nat) : Option (Nat × Nat) :=
  r.map fun cnt => (inIe + cnt, ieSize m (inIe + cnt))

/-- `rtw_get_ie_ex`; there are `in_len` places, and `none` is a search that never ends. -/
def rtwGetIeEx (m : Mem) (inIe inLen : Nat) (eid : UInt8) (oui : Option (List UInt8)) :
    Option (Option (Nat × Nat)) :=
  ((getIeExChain m inIe inLen eid oui).search (inLen + 1) 0).map (foundIe m inIe)

/-- `wps_oui`. -/
def wpsOui : List UInt8 := [0x00, 0x50, 0xF2, 0x04]

/-- `wfd_oui`. -/
def wfdOui : List UInt8 := [0x50, 0x6F, 0x9A, 0x0A]

/-- The three functions with their OUI; each round takes two bytes or more. -/
def getVendorIe (oui : List UInt8) (m : Mem) (inIe : Nat) (inLen : Int) : Option (Nat × Nat) :=
  ((vendorIeChain oui m inIe inLen).search (inLen.toNat + 1) 0).bind (foundIe m inIe)

/-- `rtw_get_wps_ie`. -/
def rtwGetWpsIe (m : Mem) (inIe inLen : Nat) : Option (Nat × Nat) := getVendorIe wpsOui m inIe inLen

/-- `rtw_get_wfd_ie`. -/
def rtwGetWfdIe (m : Mem) (inIe : Nat) (inLen : Int) : Option (Nat × Nat) :=
  if inLen ≤ 0 then none else getVendorIe wfdOui m inIe inLen

/-! ## 2. Calls -/

/-- A call of one of the five; `out` is whether the caller asks for the length or a copy. -/
inductive IeCall
  | getIe (index : UInt8) (limit : Int)
  | getIeEx (inLen : Nat) (eid : UInt8) (oui : Option (List UInt8)) (out : Bool)
  | getWpsIe (inLen : Nat) (out : Bool)
  | getP2pIe (inLen : Int) (out : Bool)
  | getWfdIe (inLen : Int) (out : Bool)

namespace IeCall

/-- What is read of a vendor element: its kind, the OUI of one of the vendor's kind, and the length
of one that is passed over or asked for. -/
def vendorTouches (oui : List UInt8) (m : Mem) (p cnt : Nat) (out : Bool) : List (Nat × Nat) :=
  let vendor := m (p + cnt) = wlanEidVendorSpecific
  (cnt, 1) :: (if vendor then [(cnt + 2, 4)] else []) ++
    if vendor ∧ readBytes m (p + cnt + 2) 4 = oui ∧ out = false then [] else [(cnt + 1, 1)]

/-- The call made for the elements at `p`. -/
def run (m : Mem) (p : Nat) : IeCall → Option (Option (Nat × Nat))
  | getIe index limit => some ((rtwGetIe m p index limit).map fun r => (r.1, r.2 + 2))
  | getIeEx inLen eid oui _ => rtwGetIeEx m p inLen eid oui
  | getWpsIe inLen _ => some (rtwGetWpsIe m p inLen)
  | getP2pIe inLen _ => some (rtwGetP2pIe m p inLen)
  | getWfdIe inLen _ => some (rtwGetWfdIe m p inLen)

/-- The walk of the call. -/
def chain (m : Mem) (p : Nat) : IeCall → Chain
  | getIe index limit => getIeChain m p index limit
  | getIeEx inLen eid oui _ => getIeExChain m p inLen eid oui
  | getWpsIe inLen _ => vendorIeChain wpsOui m p inLen
  | getP2pIe inLen _ => vendorIeChain p2pOui m p inLen
  | getWfdIe inLen _ => vendorIeChain wfdOui m p inLen

/-- The limit of the call. -/
def limit : IeCall → Int
  | getIe _ limit => limit
  | getIeEx inLen _ _ _ => inLen
  | getWpsIe inLen _ => inLen
  | getP2pIe inLen _ => inLen
  | getWfdIe inLen _ => inLen

/-- What is read at the place `cnt`, as first byte and count. -/
def touches (m : Mem) (p cnt : Nat) : IeCall → List (Nat × Nat)
  | getIe _ _ => [(cnt, 2)]
  | getIeEx inLen eid oui out =>
    (cnt, 1) :: (if m (p + cnt) = eid then
      oui.toList.map fun o => ((cnt + 2) % 2 ^ 32, o.length) else []) ++
      if (getIeExChain m p inLen eid oui).hit cnt = true ∧ out = false then [] else [(cnt + 1, 1)]
  | getWpsIe _ out => vendorTouches wpsOui m p cnt out
  | getP2pIe _ out => vendorTouches p2pOui m p cnt out
  | getWfdIe _ out => vendorTouches wfdOui m p cnt out

/-- The walk goes on at a place that its counter can hold: that of `rtw_get_ie` is a `sint`. -/
def Counts (m : Mem) (p cnt : Nat) : IeCall → Prop
  | getIe _ _ => cnt + ieSize m (p + cnt) < 2 ^ 31
  | _ => True

/-- **The call stays inside its limit**: it ends, what it reads and what it returns lies below the
limit, and no counter overflows. -/
structure Inside (m : Mem) (p : Nat) (call : IeCall) : Prop where
  ends : ∃ n r, (call.chain m p).search n 0 = some r
  reads : ∀ n, ∀ r ∈ ((call.chain m p).visited n 0).flatMap (call.touches m p),
    ((r.1 + r.2 : Nat) : Int) ≤ call.limit
  returned : ∀ q n, call.run m p = some (some (q, n)) → ((q + n : Nat) : Int) ≤ p + call.limit
  counts : ∀ cnt, (call.chain m p).Comes 0 cnt → (call.chain m p).Passes cnt → call.Counts m p cnt

/-- **A place a search gets right.**  `rtw_get_ie` needs both bytes of the header, `rtw_get_ie_ex`
also the OUI of an element of the kind and that the walk does not come back, and each needs all of
the element it is looking for. -/
def Clean (m : Mem) (p cnt : Nat) (call : IeCall) : Prop :=
  ((call.chain m p).hit cnt = true → ((cnt + ieSize m (p + cnt) : Nat) : Int) ≤ call.limit) ∧
    match call with
    | getIe _ limit => ((cnt + 2 : Nat) : Int) ≤ limit ∧
        ((call.chain m p).hit cnt = false → cnt + ieSize m (p + cnt) < 2 ^ 31)
    | getIeEx inLen eid oui _ => cnt + 2 ≤ inLen ∧
        (m (p + cnt) = eid → ∀ o ∈ oui, (cnt + 2) % 2 ^ 32 + o.length ≤ inLen) ∧
        ¬ (call.chain m p).Again cnt
    | _ => True

end IeCall

/-! ## 3. The functions follow their walks -/

section Walks

variable {m : Mem} {n p i : Nat}

/-- `rtw_get_ie` looks at an element before it looks at the limit. -/
theorem getIeLoop_eq {index : UInt8} {limit : Int} (hi : (i : Int) < limit)
    (hn : limit ≤ (i + n : Nat)) :
    getIeLoop m index limit n (p + i) i = ((getIeChain m p index limit).search (n + 1) i).bind
      fun r => r.map fun i => (p + i, (m (p + i + 1)).toNat) := by
  induction n generalizing i with
  | zero => omega
  | succ n ih =>
    have hgo : (getIeChain m p index limit).go i = true := decide_eq_true hi
    by_cases hhit : m (p + i) = index
    · rw [Chain.search_hit hgo (decide_eq_true hhit), getIeLoop, if_pos hhit]
      rfl
    · rw [Chain.search_passes ⟨hgo, decide_eq_false hhit⟩, getIeLoop, if_neg hhit]
      dsimp only
      by_cases hend : ((i + (m (p + i + 1)).toNat + 2 : Nat) : Int) ≥ limit
      · have hstop : (getIeChain m p index limit).go
            ((getIeChain m p index limit).next i) = false :=
          decide_eq_false (show ¬ ((i + ((m (p + i + 1)).toNat + 2) : Nat) : Int) < limit by omega)
        rw [if_pos hend, Chain.search_stop hstop]
        rfl
      · have hrest := ih (i := i + (m (p + i + 1)).toNat + 2) (by omega) (by omega)
        rw [← Nat.add_assoc, ← Nat.add_assoc] at hrest
        rw [if_neg hend]
        exact hrest

/-- `rtw_get_p2p_ie` is the search for a vendor element. -/
theorem getP2pIeLoop_eq {inLen : Nat} (hn : inLen ≤ i + n) :
    getP2pIeLoop m p inLen n i
      = ((vendorIeChain p2pOui m p inLen).search (n + 1) i).bind (foundIe m p) := by
  have hgo_iff : ∀ i, (vendorIeChain p2pOui m p inLen).go i = true ↔
      i + 1 + 4 < inLen ∧ i + 1 + 4 < maxIeSz := by
    intro i
    simp only [vendorIeChain, decide_eq_true_eq, Int.ofNat_lt]
  induction n generalizing i with
  | zero =>
    have hstop : (vendorIeChain p2pOui m p inLen).go i = false :=
      Bool.eq_false_iff.mpr fun hgo => by have := ((hgo_iff i).mp hgo).1; omega
    rw [Chain.search_stop hstop]
    rfl
  | succ n ih =>
    rw [getP2pIeLoop]
    by_cases hgo : i + 1 + 4 < inLen ∧ i + 1 + 4 < maxIeSz
    · rw [if_pos hgo.1, if_neg (Nat.not_le_of_lt hgo.2)]
      by_cases hhit : m (p + i) = wlanEidVendorSpecific ∧ readBytes m (p + i + 2) 4 = p2pOui
      · rw [Chain.search_hit ((hgo_iff i).mpr hgo) (decide_eq_true hhit), if_pos hhit]
        rfl
      · rw [Chain.search_passes ⟨(hgo_iff i).mpr hgo, decide_eq_false hhit⟩, if_neg hhit]
        exact ih (by omega)
    · rw [Chain.search_stop (Bool.eq_false_iff.mpr fun h => hgo ((hgo_iff i).mp h))]
      by_cases hfirst : i + 1 + 4 < inLen
      · rw [if_pos hfirst, if_pos (Nat.le_of_not_lt fun h => hgo ⟨hfirst, h⟩)]
        rfl
      · rw [if_neg hfirst]
        rfl

end Walks

namespace IeCall

variable {m : Mem} {p cnt : Nat} (call : IeCall)

theorem go_lt (h : (call.chain m p).go cnt = true) : (cnt : Int) < call.limit := by
  cases call with
  | getIe index limit => exact of_decide_eq_true h
  | getIeEx inLen eid oui out =>
    have hlt : cnt < inLen := of_decide_eq_true h
    exact Int.ofNat_lt.mpr hlt
  | getWpsIe inLen out | getP2pIe inLen out | getWfdIe inLen out =>
    have hlt := (of_decide_eq_true h).1
    simp only [limit]
    omega

theorem go_lt_toNat (h : (call.chain m p).go cnt = true) : cnt < call.limit.toNat := by
  have := call.go_lt h
  omega

/-- A search that ends has ended when all places below the limit are looked at. -/
theorem search_eq {n : Nat} {r : Option Nat} (h : (call.chain m p).search n 0 = some r) :
    (call.chain m p).search (call.limit.toNat + 1) 0 = some r := by
  obtain ⟨r', hr'⟩ := Chain.ends_of_not_again (fun _ => call.go_lt_toNat)
    (fun _ => Chain.not_again_of_ends h)
  rw [hr', Chain.search_unique hr' h]

/-- **The call gives what its walk finds.** -/
theorem run_eq {n : Nat} {r : Option Nat} (h : (call.chain m p).search n 0 = some r) :
    call.run m p = some (foundIe m p r) := by
  have hsearch := call.search_eq h
  cases call with
  | getIe index limit =>
    have hsize : ((r.map fun i => (p + i, (m (p + i + 1)).toNat)).map fun x => (x.1, x.2 + 2))
        = foundIe m p r := by
      rw [Option.map_map]
      rfl
    rw [← hsize, run, rtwGetIe]
    by_cases hlimit : limit < 1
    · have hstop : (chain m p (getIe index limit)).go 0 = false :=
        decide_eq_false (show ¬ ((0 : Nat) : Int) < limit by omega)
      rw [Chain.search_stop hstop] at hsearch
      cases hsearch
      rw [if_pos hlimit]
      rfl
    · have hloop := @getIeLoop_eq m limit.toNat p 0 index limit
        (show ((0 : Nat) : Int) < limit by omega) (show limit ≤ (0 + limit.toNat : Nat) by omega)
      rw [if_neg hlimit]
      refine congrArg (fun x => some (Option.map _ x)) (hloop.trans ?_)
      exact congrArg (fun x => Option.bind x _) hsearch
  | getIeEx inLen eid oui out => exact congrArg (Option.map (foundIe m p)) hsearch
  | getWpsIe inLen out => exact congrArg (fun x => some (Option.bind x (foundIe m p))) hsearch
  | getP2pIe inLen out =>
    rw [run, rtwGetP2pIe]
    by_cases hlen : inLen ≤ 0
    · have hstop : (chain m p (getP2pIe inLen out)).go 0 = false :=
        decide_eq_false fun hgo => by have := hgo.1; omega
      rw [Chain.search_stop hstop] at hsearch
      cases hsearch
      rw [if_pos hlen]
      rfl
    · obtain ⟨k, rfl⟩ : ∃ k : Nat, inLen = k := ⟨inLen.toNat, by omega⟩
      rw [if_neg hlen, Int.toNat_natCast, getP2pIeLoop_eq (by omega)]
      exact congrArg (fun x => some (Option.bind x (foundIe m p))) hsearch
  | getWfdIe inLen out =>
    rw [run, rtwGetWfdIe]
    by_cases hlen : inLen ≤ 0
    · have hstop : (chain m p (getWfdIe inLen out)).go 0 = false :=
        decide_eq_false fun hgo => by have := hgo.1; omega
      rw [Chain.search_stop hstop] at hsearch
      cases hsearch
      rw [if_pos hlen]
      rfl
    · rw [if_neg hlen]
      exact congrArg (fun x => some (Option.bind x (foundIe m p))) hsearch

/-! ## 4. Clean places -/

theorem mem_vendorTouches {oui : List UInt8} {out : Bool} {r : Nat × Nat}
    (h : r ∈ vendorTouches oui m p cnt out) : r.1 + r.2 ≤ cnt + 6 := by
  unfold vendorTouches at h
  simp only [List.cons_append, List.mem_cons, List.mem_append] at h
  rcases h with rfl | h | h
  · simp
  · split at h
    · obtain rfl := List.mem_singleton.mp h
      simp
    · exact absurd h List.not_mem_nil
  · split at h
    · exact absurd h List.not_mem_nil
    · obtain rfl := List.mem_singleton.mp h
      simp

/-- A search for a vendor element reads below its limit. -/
theorem vendor_inside {oui : List UInt8} {inLen : Int} {out : Bool}
    (hgo : (vendorIeChain oui m p inLen).go cnt = true) {r : Nat × Nat}
    (h : r ∈ vendorTouches oui m p cnt out) : ((r.1 + r.2 : Nat) : Int) ≤ inLen := by
  have hlt := (of_decide_eq_true hgo).1
  have := mem_vendorTouches h
  omega

/-- What is read at a clean place lies below the limit. -/
theorem Clean.touches {call : IeCall} (h : Clean m p cnt call)
    (hgo : (call.chain m p).go cnt = true) {r : Nat × Nat} (hr : r ∈ call.touches m p cnt) :
    ((r.1 + r.2 : Nat) : Int) ≤ call.limit := by
  cases call with
  | getIe index limit =>
    rw [List.mem_singleton.mp hr]
    exact h.2.1
  | getIeEx inLen eid oui out =>
    obtain ⟨hhead, houi, -⟩ := h.2
    simp only [IeCall.touches, List.cons_append, List.mem_cons, List.mem_append] at hr
    simp only [limit]
    rcases hr with rfl | hr | hr
    · dsimp only
      omega
    · split at hr
      · rename_i heid
        obtain ⟨o, ho, rfl⟩ := List.mem_map.mp hr
        have := houi heid o (Option.mem_toList.mp ho)
        dsimp only
        omega
      · exact absurd hr List.not_mem_nil
    · split at hr
      · exact absurd hr List.not_mem_nil
      · rw [List.mem_singleton.mp hr]
        dsimp only
        omega
  | getWpsIe inLen out | getP2pIe inLen out | getWfdIe inLen out => exact vendor_inside hgo hr

/-- Where what is read lies below the limit, the place is clean as far as it does not end the search
beyond the limit or lead it back. -/
theorem clean_of_touches (hgo : (call.chain m p).go cnt = true)
    (htouches : ∀ r ∈ call.touches m p cnt, ((r.1 + r.2 : Nat) : Int) ≤ call.limit)
    (hfound : (call.chain m p).hit cnt = true →
      ((cnt + ieSize m (p + cnt) : Nat) : Int) ≤ call.limit)
    (hcounts : (call.chain m p).Passes cnt → call.Counts m p cnt)
    (hagain : ¬ (call.chain m p).Again cnt) : Clean m p cnt call := by
  refine ⟨hfound, ?_⟩
  cases call with
  | getIe index limit =>
    exact ⟨htouches _ List.mem_cons_self, fun hhit => hcounts ⟨hgo, hhit⟩⟩
  | getIeEx inLen eid oui out =>
    simp only [IeCall.touches, limit] at htouches hfound
    refine ⟨?_, fun heid o ho => ?_, hagain⟩
    · by_cases hhit : (getIeExChain m p inLen eid oui).hit cnt = true ∧ out = false
      · have hsize := hfound hhit.1
        unfold ieSize at hsize
        omega
      · have hread := htouches (cnt + 1, 1) (by simp [hhit])
        dsimp only at hread
        omega
    · have hread := htouches ((cnt + 2) % 2 ^ 32, o.length)
        (by simp [heid, Option.mem_def.mp ho])
      dsimp only at hread
      omega
  | getWpsIe inLen out | getP2pIe inLen out | getWfdIe inLen out => exact trivial

/-- Only `rtw_get_ie_ex` can come back to a place. -/
theorem Clean.not_again {call : IeCall} (h : Clean m p cnt call) :
    ¬ (call.chain m p).Again cnt := by
  cases call with
  | getIeEx inLen eid oui out => exact h.2.2.2
  | getIe index limit =>
    exact Chain.not_again fun a _ => show a < a + ieSize m (p + a) by unfold ieSize; omega
  | getWpsIe inLen out | getP2pIe inLen out | getWfdIe inLen out =>
    exact Chain.not_again fun a _ => show a < a + ieSize m (p + a) by unfold ieSize; omega

theorem Clean.counts {call : IeCall} (h : Clean m p cnt call)
    (hpass : (call.chain m p).Passes cnt) : call.Counts m p cnt := by
  cases call with
  | getIe index limit => exact h.2.2 hpass.2
  | getIeEx inLen eid oui out | getWpsIe inLen out | getP2pIe inLen out | getWfdIe inLen out =>
    exact trivial

/-! ## 5. When a search stays inside -/

/-- A search that comes to clean places only stays inside its limit. -/
theorem inside_of_clean {call : IeCall} (h : ∀ cnt, (call.chain m p).Comes 0 cnt →
    (call.chain m p).go cnt = true → call.Clean m p cnt) : call.Inside m p := by
  have hagain : ∀ a, (call.chain m p).Comes 0 a → ¬ (call.chain m p).Again a :=
    fun a ha hback => (h a ha hback.1.1).not_again hback
  obtain ⟨r, hends⟩ := Chain.ends_of_not_again (fun _ => call.go_lt_toNat) hagain
  refine ⟨⟨_, r, hends⟩, fun n x hx => ?_, fun q n hrun => ?_, fun cnt hcomes hpass => ?_⟩
  · obtain ⟨cnt, hcnt, hx⟩ := List.mem_flatMap.mp hx
    obtain ⟨hcomes, hgo⟩ := Chain.mem_visited hcnt
    exact (h cnt hcomes hgo).touches hgo hx
  · rw [call.run_eq hends] at hrun
    cases r with
    | none => simp [foundIe] at hrun
    | some cnt =>
      obtain ⟨hcomes, hgo, hhit⟩ := Chain.comes_of_search hends
      simp only [foundIe, Option.map_some, Option.some.injEq, Prod.mk.injEq] at hrun
      have := (h cnt hcomes hgo).1 hhit
      omega
  · exact (h cnt hcomes hpass.1).counts hpass

/-- **A search for an element stays inside its limit** exactly if every place it comes to is clean.
-/
theorem ie_searches_iff (m : Mem) (p : Nat) (call : IeCall) :
    call.Inside m p ↔ ∀ cnt, (call.chain m p).Comes 0 cnt → (call.chain m p).go cnt = true →
      call.Clean m p cnt := by
  constructor
  · intro h cnt hcomes hgo
    obtain ⟨n, r, hends⟩ := h.ends
    refine call.clean_of_touches hgo (fun x hx => ?_) (fun hhit => ?_) (h.counts cnt hcomes)
      (Chain.not_again_of_ends hends hcomes)
    · obtain ⟨k, hk⟩ := hcomes.visited hgo
      exact h.reads k x (List.mem_flatMap.mpr ⟨cnt, hk, hx⟩)
    · obtain ⟨k, hk⟩ := hcomes.found hgo hhit
      have := h.returned _ _ (call.run_eq hk)
      omega
  · exact inside_of_clean

/-- Not so for every string: of an element that is cut off behind its first byte, the second is
read. -/
theorem ie_search_outside : ¬ ∀ m p call, Inside m p call := by
  intro hall
  have hread := (hall (fun _ => 0) 0 (getIe 76 1)).reads 1 (0, 2) (by decide)
  exact absurd hread (by decide)

end IeCall

end Rtl8723bs
