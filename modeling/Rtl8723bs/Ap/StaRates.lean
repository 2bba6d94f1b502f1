/-
# The rates that a station names

`rtw_ap_parse_sta_supported_rates` takes the rates of the first Supported Rates element of an
association request and those of the first Extended Supported Rates element, one behind the other,
into an array of 16 bytes on the stack, and from there into `bssrateset` of the station, which has
16 bytes too.  How many there are is counted in eight bits, and nothing compares it with 16.
-/
import Mathlib.Tactic.SplitIfs
import Rtl8723bs.Ie
import Rtl8723bs.Lib.Bytes

namespace Rtl8723bs.StaRates

/-! ## 1. The functions -/

/-- `_SUPPORTEDRATES_IE_` and `_EXT_SUPPORTEDRATES_IE_`. -/
def supportedRatesIe : UInt8 := 1
def extSupportedRatesIe : UInt8 := 50

/-- What a station has of rates; the array goes on with what lies behind it. -/
structure Sta where
  bssrateset : Mem
  bssratelen : Nat
  flags : BitVec 32

/-- `WLAN_STA_NONERP`. -/
def wlanStaNonerp : BitVec 32 := 1#32 <<< 31

/-- Is `WLAN_STA_NONERP` set? -/
def Sta.nonErp (sta : Sta) : Bool := sta.flags.getLsbD 31

/-- `rate_set` and `rate_num`, and what is written to `rate_set`, as first byte and count. -/
structure RateSet where
  rates : Mem
  num : UInt8
  writes : List (Nat × Nat)

/-- The rates of an element that was found are put behind those that are there. -/
def RateSet.add (s : RateSet) (m : Mem) : Option (Nat × Nat) → RateSet
  | none => s
  | some (ie, ieLen) =>
    ⟨overwrite s.rates s.num.toNat (readBytes m (ie + 2) ieLen), s.num + UInt8.ofNat ieLen,
      s.writes ++ [(s.num.toNat, ieLen)]⟩

/-- `rtw_ies_get_supported_rate`. -/
def rtwIesGetSupportedRate (m : Mem) (ies iesLen : Nat) (rateSet : Mem) : RateSet :=
  let s : RateSet := ⟨rateSet, 0, []⟩
  (s.add m (rtwGetIe m ies supportedRatesIe iesLen)).add m
    (rtwGetIe m ies extSupportedRatesIe iesLen)

/-- `IEEE80211_CCK_RATE_1MB`, `2MB`, `5MB` and `11MB`. -/
def isCckRate (rate : UInt8) : Bool := rate = 0x02 ∨ rate = 0x04 ∨ rate = 0x0b ∨ rate = 0x16

/-- `UpdateBrateTblForSoftAP`: the CCK rates become basic rates. -/
def updateBrateTblForSoftAP (bssrateset : Mem) (bssratelen : Nat) : Mem :=
  (List.range bssratelen).foldl (fun s i =>
    if isCckRate (s i &&& 0x7f) then overwrite s i [s i ||| 0x80] else s) bssrateset

/-- What `rtw_ap_parse_sta_supported_rates` returns, the station, and what is written to the array
on the stack and to that of the station. -/
structure ParseOut where
  status : Nat
  sta : Sta
  localWrites : List (Nat × Nat)
  staWrites : List (Nat × Nat)

/-- `rtw_ap_parse_sta_supported_rates`, of an AP or not; `rateSet` is what the array on the stack
holds before. -/
def rtwApParseStaSupportedRates (isAp : Bool) (sta : Sta) (m : Mem) (tlvIes tlvIesLen : Nat)
    (rateSet : Mem) : ParseOut :=
  let r := rtwIesGetSupportedRate m tlvIes tlvIesLen rateSet
  if r.num = 0 then ⟨statsFailure, sta, r.writes, []⟩
  else
    let n := r.num.toNat
    let copied := overwrite sta.bssrateset 0 (readBytes r.rates 0 n)
    let bssrateset := if isAp then updateBrateTblForSoftAP copied n else copied
    let flags := sta.flags ||| wlanStaNonerp
    let fast := (readBytes bssrateset 0 n).any fun rate => 22 < rate &&& 0x7f
    ⟨statsSuccessful, ⟨bssrateset, n, if fast then flags &&& ~~~wlanStaNonerp else flags⟩,
      r.writes, [(0, n)]⟩

/-! ## 2. What is asked -/

/-- The content of the first element of a kind, as much of it as there is. -/
def firstElement (kind : UInt8) : List UInt8 → Option (List UInt8)
  | [] => none
  | [x] => if x = kind then some [] else none
  | x :: l :: rest =>
    if x = kind then some (rest.take l.toNat) else firstElement kind (rest.drop l.toNat)
  termination_by s => s.length
  decreasing_by
    simp only [List.length_drop, List.length_cons]
    omega

/-- The rates that a request names. -/
def ratesOf (body : List UInt8) : List UInt8 :=
  (firstElement supportedRatesIe body).getD [] ++ (firstElement extSupportedRatesIe body).getD []

/-- The size of `rate_set` and of `bssrateset`. -/
def rateSetSize : Nat := 16

/-- A rate without the bit that says whether it is a basic one. -/
def rateOf (x : UInt8) : UInt8 := x &&& 0x7f

/-- **The rates are collected**: no more than 16 bytes are written, the call fails where the request
names no rate and leaves the station then, and otherwise the station has as many of them as fit, and
`WLAN_STA_NONERP` just where none is above 11 Mb/s. -/
structure Collects (sta : Sta) (body : List UInt8) (out : ParseOut) : Prop where
  rateSet : ∀ w ∈ out.localWrites, w.1 + w.2 ≤ rateSetSize
  bssrateset : ∀ w ∈ out.staWrites, w.1 + w.2 ≤ rateSetSize
  status : out.status ≠ statsSuccessful ↔ ratesOf body = []
  failed : out.status ≠ statsSuccessful → out.sta = sta
  count : out.status = statsSuccessful →
    out.staWrites = [(0, out.sta.bssratelen)] ∧
      out.sta.bssratelen = ((ratesOf body).take rateSetSize).length
  stored : out.status = statsSuccessful →
    (readBytes out.sta.bssrateset 0 out.sta.bssratelen).map rateOf
      = ((ratesOf body).take rateSetSize).map rateOf
  nonErp : out.status = statsSuccessful →
    (out.sta.nonErp = true ↔
      ∀ x ∈ readBytes out.sta.bssrateset 0 out.sta.bssratelen, rateOf x ≤ 22)

/-! ## 3. The search -/

section Search

variable {m : Mem} {kind : UInt8}

/-- What of an element found lies in front of the end. -/
def inside (m : Mem) (bound : Nat) (r : Nat × Nat) : List UInt8 :=
  readBytes m (r.1 + 2) (min r.2 (bound - (r.1 + 2)))

theorem readBytes_take_min (m : Mem) (off i n : Nat) :
    (readBytes m off n).take i = readBytes m off (min i n) := by
  rcases Nat.le_total i n with hle | hle
  · rw [readBytes_take m off hle, Nat.min_eq_left hle]
  · rw [List.take_of_length_le (by rw [length_readBytes]; exact hle), Nat.min_eq_right hle]

theorem getIeLoop_eq_firstElement (rounds p i n : Nat) (hi : i < n) (hr : n ≤ i + rounds) :
    (getIeLoop m kind n rounds p i).map (inside m (p + (n - i)))
      = firstElement kind (readBytes m p (n - i)) := by
  induction rounds generalizing p i with
  | zero => omega
  | succ rounds ih =>
    obtain ⟨k, hk⟩ : ∃ k, n - i = k + 1 := ⟨n - i - 1, by omega⟩
    rw [hk, readBytes]
    unfold getIeLoop
    cases k with
    | zero =>
      rw [readBytes, firstElement]
      split
      · simp [inside, readBytes]
      · dsimp only
        rw [if_pos (by omega)]
        rfl
    | succ k =>
      rw [readBytes, firstElement]
      split
      · simp only [Option.map_some, inside, readBytes_take_min]
        congr 3
        omega
      · dsimp only
        rw [readBytes_drop]
        split
        · have hnone : k - (m (p + 1)).toNat = 0 := by omega
          rw [hnone, readBytes, firstElement]
          rfl
        · have hrest := ih (p + (m (p + 1)).toNat + 2) (i + (m (p + 1)).toNat + 2) (by omega)
            (by omega)
          have hlen : n - (i + (m (p + 1)).toNat + 2) = k - (m (p + 1)).toNat := by omega
          have hbound : p + (m (p + 1)).toNat + 2 + (k - (m (p + 1)).toNat) = p + (k + 1 + 1) := by
            omega
          have hplace : p + 1 + 1 + (m (p + 1)).toNat = p + (m (p + 1)).toNat + 2 := by omega
          rw [hlen, hbound] at hrest
          rw [hplace]
          exact hrest

/-- **`rtw_get_ie` finds the first element**, and says how long it is meant to be. -/
theorem rtwGetIe_eq_firstElement (m : Mem) (kind : UInt8) (ies n : Nat) :
    (rtwGetIe m ies kind n).map (inside m (ies + n)) = firstElement kind (readBytes m ies n) := by
  unfold rtwGetIe
  split
  · have hn : n = 0 := by omega
    rw [hn, readBytes, firstElement]
    rfl
  · exact getIeLoop_eq_firstElement _ ies 0 n (by omega) (by omega)

/-- What of an element is taken. -/
def taken (m : Mem) : Option (Nat × Nat) → List UInt8
  | none => []
  | some (ie, ieLen) => readBytes m (ie + 2) ieLen

/-- An element is all there. -/
def Complete (bound : Nat) : Option (Nat × Nat) → Prop
  | none => True
  | some (ie, ieLen) => ie + 2 + ieLen ≤ bound ∨ ieLen = 0

/-- More is taken than there is, but for elements that are all there. -/
theorem firstElement_getD (m : Mem) (kind : UInt8) (ies n : Nat) :
    let r := rtwGetIe m ies kind n
    let data := (firstElement kind (readBytes m ies n)).getD []
    data.length ≤ (taken m r).length ∧ (taken m r).length < 256 ∧
      ((taken m r).length ≤ data.length ↔ Complete (ies + n) r) ∧
      (Complete (ies + n) r → taken m r = data) := by
  have hfirst := rtwGetIe_eq_firstElement m kind ies n
  cases hfound : rtwGetIe m ies kind n with
  | none =>
    rw [hfound] at hfirst
    simp [← hfirst, taken, Complete]
  | some r =>
    obtain ⟨ie, ieLen⟩ := r
    rw [hfound] at hfirst
    have hlen : ieLen < 256 := by
      unfold rtwGetIe at hfound
      split_ifs at hfound
      have hkind := (getIeLoop_kind hfound).2
      dsimp only at hkind
      rw [hkind]
      exact UInt8.toNat_lt _
    simp only [← hfirst, Option.map_some, Option.getD_some, taken, inside, Complete,
      length_readBytes]
    refine ⟨Nat.min_le_left _ _, hlen, by omega, fun hcomplete => ?_⟩
    congr 1
    omega

end Search

/-! ## 4. The rates -/

section Rates

variable {m rateSet : Mem} {ies n : Nat}

/-- **What is collected**: the contents of both elements one behind the other, counted in eight
bits; and nothing is written past the array where both fit. -/
theorem rtwIesGetSupportedRate_eq (m : Mem) (ies n : Nat) (rateSet : Mem) :
    let d₁ := taken m (rtwGetIe m ies supportedRatesIe n)
    let d₂ := taken m (rtwGetIe m ies extSupportedRatesIe n)
    let r := rtwIesGetSupportedRate m ies n rateSet
    r.rates = overwrite (overwrite rateSet 0 d₁) d₁.length d₂ ∧
      r.num = UInt8.ofNat (d₁.length + d₂.length) ∧
      ((∀ w ∈ r.writes, w.1 + w.2 ≤ rateSetSize) ↔ d₁.length + d₂.length ≤ rateSetSize) := by
  have hshort := (firstElement_getD m supportedRatesIe ies n).2.1
  unfold rtwIesGetSupportedRate
  generalize rtwGetIe m ies supportedRatesIe n = r₁ at hshort ⊢
  generalize rtwGetIe m ies extSupportedRatesIe n = r₂
  have hzero : (0 : UInt8).toNat = 0 := rfl
  cases r₁ with
  | none =>
    cases r₂ with
    | none => simp [taken, RateSet.add, overwrite_nil]
    | some r₂ => simp [taken, RateSet.add, overwrite_nil]
  | some r₁ =>
    have hlen : r₁.2 < 256 := by simpa [taken] using hshort
    have hnum : (UInt8.ofNat r₁.2).toNat = r₁.2 := by
      rw [UInt8.toNat_ofNat']
      exact Nat.mod_eq_of_lt hlen
    cases r₂ with
    | none => simp [taken, RateSet.add, overwrite_nil]
    | some r₂ =>
      simp only [taken, RateSet.add, length_readBytes, UInt8.zero_add, hnum, hzero,
        UInt8.ofNat_add, List.nil_append, List.cons_append, List.forall_mem_cons, true_and]
      constructor
      · intro h
        exact h.2.1
      · intro h
        refine ⟨by omega, h, fun w hw => absurd hw List.not_mem_nil⟩

/-- Making rates basic leaves the rates. -/
theorem rateOf_updateBrateTblForSoftAP (s : Mem) (n i : Nat) :
    rateOf (updateBrateTblForSoftAP s n i) = rateOf (s i) := by
  have hbasic : ∀ x : UInt8, rateOf (x ||| 0x80) = rateOf x :=
    UInt8.forall_byte (by decide +kernel)
  unfold updateBrateTblForSoftAP
  induction List.range n generalizing s with
  | nil => rfl
  | cons k ks ih =>
    rw [List.foldl_cons, ih]
    split
    · by_cases hi : i = k
      · subst hi
        have hat : overwrite s i [s i ||| 0x80] i = s i ||| 0x80 := by simp [overwrite]
        rw [hat, hbasic]
      · rw [overwrite]
        exact congrArg rateOf (if_neg (by simp only [List.length_singleton]; omega))
    · rfl

theorem map_readBytes (f : UInt8 → UInt8) (m : Mem) (off n : Nat) :
    (readBytes m off n).map f = readBytes (fun i => f (m i)) off n := by
  induction n generalizing off with
  | zero => rfl
  | succ n ih => rw [readBytes, readBytes, List.map_cons, ih]

/-- `WLAN_STA_NONERP` is set or cleared. -/
theorem nonErp_flags (flags : BitVec 32) (fast : Bool) :
    (if fast then (flags ||| wlanStaNonerp) &&& ~~~wlanStaNonerp
      else flags ||| wlanStaNonerp).getLsbD 31 = !fast := by
  cases fast <;> simp [wlanStaNonerp]

/-- What the call makes of rates that fit. -/
theorem parse_of_fits (isAp : Bool) (sta : Sta) (m : Mem) (ies n : Nat) (rateSet : Mem)
    {d : List UInt8}
    (hd : taken m (rtwGetIe m ies supportedRatesIe n)
      ++ taken m (rtwGetIe m ies extSupportedRatesIe n) = d) (hfit : d.length ≤ rateSetSize) :
    let out := rtwApParseStaSupportedRates isAp sta m ies n rateSet
    (d = [] → out.status = statsFailure ∧ out.sta = sta ∧ out.staWrites = []) ∧
      (d ≠ [] → out.status = statsSuccessful ∧ out.staWrites = [(0, d.length)] ∧
        out.sta.bssratelen = d.length ∧
        (readBytes out.sta.bssrateset 0 d.length).map rateOf = d.map rateOf ∧
        (out.sta.nonErp = true ↔
          ∀ x ∈ readBytes out.sta.bssrateset 0 d.length, rateOf x ≤ 22)) := by
  obtain ⟨hrates, hnum, -⟩ := rtwIesGetSupportedRate_eq m ies n rateSet
  dsimp only at hrates hnum ⊢
  unfold rateSetSize at hfit
  have hlen := congrArg List.length hd
  rw [List.length_append] at hlen
  have htoNat : (rtwIesGetSupportedRate m ies n rateSet).num.toNat = d.length := by
    rw [hnum, hlen, UInt8.toNat_ofNat']
    exact Nat.mod_eq_of_lt (by omega)
  have hcopied : readBytes (rtwIesGetSupportedRate m ies n rateSet).rates 0 d.length = d := by
    have hfirst := readBytes_overwrite rateSet 0 (taken m (rtwGetIe m ies supportedRatesIe n))
    have hsecond := readBytes_overwrite
      (overwrite rateSet 0 (taken m (rtwGetIe m ies supportedRatesIe n)))
      (taken m (rtwGetIe m ies supportedRatesIe n)).length
      (taken m (rtwGetIe m ies extSupportedRatesIe n))
    rw [hrates, ← hlen, readBytes_add, Nat.zero_add, hsecond, ← hd]
    refine congrArg (· ++ _) (Eq.trans (readBytes_congr fun i _ hi => ?_) hfirst)
    exact overwrite_of_lt (by omega)
  constructor
  · rintro rfl
    have hzero : (rtwIesGetSupportedRate m ies n rateSet).num = 0 := UInt8.toNat_inj.mp htoNat
    unfold rtwApParseStaSupportedRates
    rw [if_pos hzero]
    exact ⟨rfl, rfl, rfl⟩
  · intro hsome
    have hnonzero : (rtwIesGetSupportedRate m ies n rateSet).num ≠ 0 := by
      intro hzero
      rw [hzero] at htoNat
      exact hsome (List.length_eq_zero_iff.mp htoNat.symm)
    unfold rtwApParseStaSupportedRates
    rw [if_neg hnonzero]
    dsimp only
    rw [htoNat, hcopied]
    generalize hset : (if isAp then updateBrateTblForSoftAP (overwrite sta.bssrateset 0 d) d.length
      else overwrite sta.bssrateset 0 d) = set
    have hrate : ∀ i, rateOf (set i) = rateOf (overwrite sta.bssrateset 0 d i) := by
      intro i
      rw [← hset]
      split
      · exact rateOf_updateBrateTblForSoftAP _ _ _
      · rfl
    refine ⟨rfl, rfl, rfl, ?_, ?_⟩
    · have hstored := readBytes_overwrite sta.bssrateset 0 d
      rw [map_readBytes, readBytes_congr fun i _ _ => hrate i, ← map_readBytes, hstored]
    · rw [Sta.nonErp, nonErp_flags, Bool.not_eq_true', List.any_eq_false]
      simp only [decide_eq_true_eq, UInt8.not_lt, rateOf]

/-- **The rates are collected exactly when both elements are all there and fit together.** -/
theorem supported_rates_iff (isAp : Bool) (sta : Sta) (m : Mem) (ies n : Nat) (rateSet : Mem) :
    Collects sta (readBytes m ies n) (rtwApParseStaSupportedRates isAp sta m ies n rateSet) ↔
      let r₁ := rtwGetIe m ies supportedRatesIe n
      let r₂ := rtwGetIe m ies extSupportedRatesIe n
      Complete (ies + n) r₁ ∧ Complete (ies + n) r₂ ∧
        (taken m r₁).length + (taken m r₂).length ≤ rateSetSize := by
  obtain ⟨hle₁, -, hcomplete₁, hdata₁⟩ := firstElement_getD m supportedRatesIe ies n
  obtain ⟨hle₂, -, hcomplete₂, hdata₂⟩ := firstElement_getD m extSupportedRatesIe ies n
  obtain ⟨-, -, hwrites⟩ := rtwIesGetSupportedRate_eq m ies n rateSet
  dsimp only at hwrites ⊢
  rw [← List.length_append] at hwrites ⊢
  have hlocal : (rtwApParseStaSupportedRates isAp sta m ies n rateSet).localWrites
      = (rtwIesGetSupportedRate m ies n rateSet).writes := by
    unfold rtwApParseStaSupportedRates
    dsimp only
    split <;> rfl
  generalize hd : taken m (rtwGetIe m ies supportedRatesIe n)
    ++ taken m (rtwGetIe m ies extSupportedRatesIe n) = d at hwrites ⊢
  have hparse := parse_of_fits isAp sta m ies n rateSet hd
  constructor
  · intro h
    have hfit : d.length ≤ rateSetSize := hwrites.mp (hlocal ▸ h.rateSet)
    obtain ⟨hnone, hsome⟩ := hparse hfit
    have hlen := congrArg List.length hd
    rw [List.length_append] at hlen
    have hmore : d.length ≤ (ratesOf (readBytes m ies n)).length := by
      by_cases hd0 : d = []
      · rw [hd0]
        exact Nat.zero_le _
      · obtain ⟨hstatus, -, hcount, -⟩ := hsome hd0
        have htake := (h.count hstatus).2
        rw [hcount, List.length_take] at htake
        omega
    rw [ratesOf, List.length_append] at hmore
    exact ⟨hcomplete₁.mp (by omega), hcomplete₂.mp (by omega), hfit⟩
  · rintro ⟨hc₁, hc₂, hfit⟩
    obtain ⟨hnone, hsome⟩ := hparse hfit
    have hall : ratesOf (readBytes m ies n) = d := by
      rw [ratesOf, ← hdata₁ hc₁, ← hdata₂ hc₂]
      exact hd
    have htake : (ratesOf (readBytes m ies n)).take rateSetSize = d := by
      rw [hall]
      exact List.take_of_length_le hfit
    by_cases hd0 : d = []
    · obtain ⟨hstatus, hsta, hstaWrites⟩ := hnone hd0
      have hfails : (rtwApParseStaSupportedRates isAp sta m ies n rateSet).status
          ≠ statsSuccessful := by
        rw [hstatus]
        decide
      exact
        { rateSet := by rw [hlocal]; exact hwrites.mpr hfit
          bssrateset := by rw [hstaWrites]; exact fun w hw => absurd hw List.not_mem_nil
          status := iff_of_true hfails (hall.trans hd0)
          failed := fun _ => hsta
          count := fun h => absurd h hfails
          stored := fun h => absurd h hfails
          nonErp := fun h => absurd h hfails }
    · obtain ⟨hstatus, hstaWrites, hcount, hstored, hnonErp⟩ := hsome hd0
      exact
        { rateSet := by rw [hlocal]; exact hwrites.mpr hfit
          bssrateset := by
            rw [hstaWrites]
            intro w hw
            rw [List.mem_singleton.mp hw, Nat.zero_add]
            exact hfit
          status := iff_of_false (fun h => h hstatus) (fun h => hd0 (hall.symm.trans h))
          failed := fun h => absurd hstatus h
          count := fun _ => by rw [htake, hcount]; exact ⟨hstaWrites, rfl⟩
          stored := fun _ => by rw [htake, hcount]; exact hstored
          nonErp := fun _ => by rw [hcount]; exact hnonErp }

end Rates

/-- A request with 17 supported rates, of 1 Mb/s each. -/
def request17 : Mem := fun i => [supportedRatesIe, 17].getD i 2

/-- A byte is written past the array on the stack. -/
theorem supported_rates_17 : ¬ Collects ⟨fun _ => 0, 0, 0⟩ (readBytes request17 0 19)
    (rtwApParseStaSupportedRates true ⟨fun _ => 0, 0, 0⟩ request17 0 19 fun _ => 0) := by
  intro h
  have hwrite : (0, 17) ∈ (rtwApParseStaSupportedRates true ⟨fun _ => 0, 0, 0⟩ request17 0 19
      fun _ => 0).localWrites := by decide
  exact absurd (h.rateSet _ hwrite) (by decide)

end Rtl8723bs.StaRates
