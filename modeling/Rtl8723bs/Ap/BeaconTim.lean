/-
# The TIM element of the beacon

`update_BCNTIM` writes the stations with traffic, a bit for each association id, into the beacon:
in place of the TIM element if there is one, or behind the SSID, the rates and the channel.  The
virtual bitmap has one byte or two.  One byte is enough where only one of the two has a bit set; but
for the second the element would have to say that the first is left out, and it does not.

`bcn_tim_iff` says for which bitmaps and beacons the element is right.
-/
import Rtl8723bs.Ap.IeSplice

namespace Rtl8723bs

namespace BcnIes

open IesRemove

/-! ## 1. The function -/

/-- `_SSID_IE_`, `_SUPPORTEDRATES_IE_`, `_DSSET_IE_` and `_TIM_IE_`. -/
def ssidIe : UInt8 := 0

def supportedRatesIe : UInt8 := 1

def dssetIe : UInt8 := 3

def timIe : UInt8 := 5

/-- The bitmap has stations in its upper byte, and in its lower byte. -/
def highBits (b : UInt16) : Bool := b &&& 0xff00 ≠ 0

def lowBits (b : UInt16) : Bool := b &&& 0x00fe ≠ 0

/-- `tim_bitmap_le`, as its two bytes. -/
def lowByte (b : UInt16) : UInt8 := UInt8.ofNat b.toNat

def highByte (b : UInt16) : UInt8 := UInt8.ofNat (b.toNat / 256)

/-- The part of the bitmap that is written. -/
def pvb (b : UInt16) : List UInt8 :=
  if highBits b ∧ lowBits b then [lowByte b, highByte b]
  else if lowBits b then [lowByte b]
  else if highBits b then [highByte b]
  else [lowByte b]

/-- The DTIM count and period, the bitmap control and the bitmap. -/
def timData (b : UInt16) : List UInt8 := [0, 1, if b &&& 1 ≠ 0 then 1 else 0] ++ pvb b

/-- What is written: the kind, `tim_ielen` and the data. -/
def timBytes (b : UInt16) : List UInt8 :=
  timIe :: (if highBits b ∧ lowBits b then 5 else 4) :: timData b

/-- What an element adds to the head of the beacon, if there is one. -/
def headPart (n : Bcn) (index : UInt8) : Nat :=
  match rtwGetIe n.ies fixedIeLength index (n.ieLength - fixedIeLength) with
  | some (_, len) => len + 2
  | none => 0

/-- Where the element goes: `dst_ie`, and `tim_ielen`, what it takes the place of. -/
def timPlace (n : Bcn) : Nat × Nat :=
  let head := fixedIeLength + headPart n ssidIe + headPart n supportedRatesIe + 3
  match rtwGetIe n.ies fixedIeLength timIe (n.ieLength - fixedIeLength) with
  | some (p, len) => if 0 < len then (p, len + 2) else (head, 0)
  | none => (head, 0)

/-- `update_BCNTIM`, with `tim_bitmap`; `mem` is whether `rtw_malloc` gives memory. -/
def updateBcntim (mem : Bool) (b : UInt16) (n : Bcn) : Bcn :=
  edit mem n (timPlace n).1 (timPlace n).2 (timBytes b)

/-! ## 2. What a TIM element says -/

/-- Group traffic: the lowest bit of the bitmap control. -/
def groupTraffic (t : Element) : Bool := (t.data.getD 2 0).toNat.testBit 0

/-- The bytes of the bitmap that are left out, by the bitmap control. -/
def leftOut (t : Element) : Nat := 2 * ((t.data.getD 2 0).toNat / 2)

/-- **The station with this association id is signalled.** -/
def signalled (t : Element) (aid : Nat) : Bool :=
  decide (leftOut t ≤ aid / 8 ∧ aid / 8 - leftOut t < t.data.length - 3) &&
    (t.data.getD (3 + (aid / 8 - leftOut t)) 0).toNat.testBit (aid % 8)

/-- The element says what the bitmap does. -/
def Signals (t : Element) (b : UInt16) : Prop :=
  groupTraffic t = b.toNat.testBit 0 ∧ ∀ aid, 1 ≤ aid → signalled t aid = b.toNat.testBit aid

/-- A beacon: the fixed fields, the SSID, the rates, the channel, and other elements, of which one
at most is a TIM element. -/
structure BeaconIes where
  fixed : List UInt8
  ssid : Element
  rates : Element
  ds : Element
  rest : List Element
  length_fixed : fixed.length = fixedIeLength
  eid_ssid : ssid.eid = ssidIe
  eid_rates : rates.eid = supportedRatesIe
  eid_ds : ds.eid = dssetIe
  length_ds : ds.data.length = 1
  oneTim : (rest.filter fun e => e.eid = timIe).length ≤ 1

namespace BeaconIes

def elems (l : BeaconIes) : List Element := l.ssid :: l.rates :: l.ds :: l.rest

def bytes (l : BeaconIes) : List UInt8 := l.fixed ++ bytesOf l.elems

end BeaconIes

/-- **The TIM element encodes the bitmap.**  The beacon has exactly one, it says what the bitmap
does, all other elements are as they were, the array holds the list, and a further call gives the
same as if this one had not been. -/
def Encodes (mem : Bool) (b : UInt16) (n : Bcn) (l : BeaconIes) : Prop :=
  (∃ es t, (updateBcntim mem b n).bytes = l.fixed ++ bytesOf es ∧
    (es.filter fun e => e.eid = timIe) = [t] ∧ Signals t b ∧
    (es.filter fun e => e.eid ≠ timIe) = l.elems.filter fun e => e.eid ≠ timIe) ∧
  (updateBcntim mem b n).ieLength ≤ maxIeSz ∧
  ∀ b', (updateBcntim true b' (updateBcntim mem b n)).bytes = (updateBcntim true b' n).bytes

/-- What stands behind the element needs no copy, or there is memory for one. -/
def RestStays (mem : Bool) (n : Bcn) (new : List UInt8) : Prop :=
  let dst := (timPlace n).1
  let behind := dst + (timPlace n).2
  mem = true ∨ readBytes n.ies (dst + new.length) (n.ieLength - behind) =
    readBytes n.ies behind (n.ieLength - behind)

/-- **Bitmaps and beacons that go well.**  The bitmap has a station in the lower byte or none in the
upper; a TIM element that is there is not empty; what stands behind it stays; and there is room. -/
def TimFits (mem : Bool) (b : UInt16) (n : Bcn) (l : BeaconIes) : Prop :=
  (lowBits b = true ∨ highBits b = false) ∧ (∀ e ∈ l.rest, e.eid = timIe → e.data ≠ []) ∧
    RestStays mem n (timBytes b) ∧ n.ieLength - (timPlace n).2 + (timBytes b).length ≤ maxIeSz

/-! ## 3. The bitmap -/

section Bitmap

variable (b : UInt16)

theorem testBit_lowByte (i : Nat) :
    (lowByte b).toNat.testBit i = (decide (i < 8) && b.toNat.testBit i) := by
  rw [lowByte, UInt8.toNat_ofNat', Nat.testBit_mod_two_pow]

theorem testBit_highByte (i : Nat) :
    (highByte b).toNat.testBit i = (decide (i < 8) && b.toNat.testBit (8 + i)) := by
  rw [highByte, UInt8.toNat_ofNat', Nat.testBit_mod_two_pow]
  rw [show 256 = 2 ^ 8 from rfl, Nat.testBit_div_two_pow, Nat.add_comm]

theorem testBit_of_le {i : Nat} (h : 16 ≤ i) : b.toNat.testBit i = false :=
  Nat.testBit_lt_two_pow (Nat.lt_of_lt_of_le b.toNat_lt (Nat.pow_le_pow_right Nat.two_pos h))

/-- A word and a mask have a bit in common. -/
theorem and_ne_zero_iff {x y : Nat} : x &&& y ≠ 0 ↔ ∃ i, x.testBit i = true ∧ y.testBit i = true := by
  constructor
  · intro h
    obtain ⟨i, hi⟩ := Nat.exists_testBit_of_ne_zero h
    rw [Nat.testBit_and, Bool.and_eq_true] at hi
    exact ⟨i, hi⟩
  · rintro ⟨i, hx, hy⟩ h
    have hi := congrArg (fun n => n.testBit i) h
    simp only [Nat.testBit_and, hx, hy, Nat.zero_testBit, Bool.and_self, Bool.true_eq_false] at hi

theorem word_and_ne_zero {x y : UInt16} : x &&& y ≠ 0 ↔ x.toNat &&& y.toNat ≠ 0 := by
  rw [← UInt16.toNat_and, ← UInt16.toNat_zero, not_iff_not, UInt16.toNat_inj]

theorem highBits_iff : highBits b = true ↔ ∃ i, 8 ≤ i ∧ b.toNat.testBit i = true := by
  have hmask : ∀ i, (0xff00 : UInt16).toNat.testBit i = (decide (8 ≤ i) && decide (i < 16)) := by
    intro i
    have hshift : (0xff00 : UInt16).toNat = (2 ^ 8 - 1) * 2 ^ 8 := rfl
    rw [hshift, Nat.testBit_mul_two_pow, Nat.testBit_two_pow_sub_one]
    congr 1
    exact decide_eq_decide.mpr (by omega)
  rw [highBits, decide_eq_true_iff, word_and_ne_zero, and_ne_zero_iff]
  refine exists_congr fun i => ?_
  rw [hmask, Bool.and_eq_true, decide_eq_true_iff, decide_eq_true_iff]
  constructor
  · rintro ⟨hb, hi, -⟩
    exact ⟨hi, hb⟩
  · rintro ⟨hi, hb⟩
    refine ⟨hb, hi, Nat.lt_of_not_le fun hle => ?_⟩
    rw [testBit_of_le b hle] at hb
    cases hb

theorem lowBits_iff : lowBits b = true ↔ ∃ i, 1 ≤ i ∧ i < 8 ∧ b.toNat.testBit i = true := by
  have hmask : ∀ i, (0x00fe : UInt16).toNat.testBit i = (decide (1 ≤ i) && decide (i < 8)) := by
    intro i
    have hshift : (0x00fe : UInt16).toNat = (2 ^ 7 - 1) * 2 ^ 1 := rfl
    rw [hshift, Nat.testBit_mul_two_pow, Nat.testBit_two_pow_sub_one]
    congr 1
    exact decide_eq_decide.mpr (by omega)
  rw [lowBits, decide_eq_true_iff, word_and_ne_zero, and_ne_zero_iff]
  refine exists_congr fun i => ?_
  rw [hmask, Bool.and_eq_true, decide_eq_true_iff, decide_eq_true_iff]
  constructor
  · rintro ⟨hb, hi, hlt⟩
    exact ⟨hi, hlt, hb⟩
  · rintro ⟨hi, hlt, hb⟩
    exact ⟨hb, hi, hlt⟩

theorem groupBit_iff : b &&& 1 ≠ 0 ↔ b.toNat.testBit 0 = true := by
  rw [word_and_ne_zero, and_ne_zero_iff]
  constructor
  · rintro ⟨i, hb, hi⟩
    have hone : (1 : UInt16).toNat = 2 ^ 1 - 1 := rfl
    rw [hone, Nat.testBit_two_pow_sub_one, decide_eq_true_iff] at hi
    obtain rfl : i = 0 := by omega
    exact hb
  · exact fun hb => ⟨0, hb, rfl⟩

theorem pvb_length : (pvb b).length = if highBits b ∧ lowBits b then 2 else 1 := by
  unfold pvb
  cases highBits b <;> cases lowBits b <;> rfl

theorem timData_length : (timData b).length = if highBits b ∧ lowBits b then 5 else 4 := by
  have hthree : ([0, 1, if b &&& 1 ≠ 0 then 1 else 0] : List UInt8).length = 3 := rfl
  rw [timData, List.length_append, hthree, pvb_length]
  split <;> rfl

/-- The element that is written. -/
def timElement : Element where
  eid := timIe
  data := timData b
  short := by
    rw [timData_length]
    split <;> decide

theorem timElement_bytes : (timElement b).bytes = timBytes b := by
  have hlen : (timElement b).data.length = if highBits b ∧ lowBits b then 5 else 4 :=
    timData_length b
  rw [Element.bytes, hlen, timBytes]
  split <;> rfl

theorem timElement_control : (timElement b).data.getD 2 0 = if b &&& 1 ≠ 0 then 1 else 0 := rfl

theorem leftOut_timElement : leftOut (timElement b) = 0 := by
  rw [leftOut, timElement_control]
  split <;> rfl

theorem groupTraffic_timElement : groupTraffic (timElement b) = b.toNat.testBit 0 := by
  rw [groupTraffic, timElement_control]
  split
  · rename_i h
    rw [(groupBit_iff b).mp h]
    rfl
  · rename_i h
    rw [Bool.eq_false_iff.mpr (mt (groupBit_iff b).mpr h)]
    rfl

/-- Which stations the element signals. -/
theorem signalled_timElement (aid : Nat) :
    signalled (timElement b) aid =
      (decide (aid / 8 < (pvb b).length) && ((pvb b).getD (aid / 8) 0).toNat.testBit (aid % 8)) := by
  have hlen : (timElement b).data.length - 3 = (pvb b).length := by
    have hdata : (timElement b).data.length = 3 + (pvb b).length := List.length_append
    omega
  have hget : (timElement b).data.getD (3 + aid / 8) 0 = (pvb b).getD (aid / 8) 0 := by
    rw [Nat.add_comm]
    rfl
  rw [signalled, leftOut_timElement, Nat.sub_zero, hlen, hget]
  simp

/-- **The element says what the bitmap does** unless only the upper byte has stations. -/
theorem signals_iff : Signals (timElement b) b ↔ lowBits b = true ∨ highBits b = false := by
  have hbit : ∀ aid, signalled (timElement b) aid =
      (decide (aid / 8 < (pvb b).length) && ((pvb b).getD (aid / 8) 0).toNat.testBit (aid % 8)) :=
    signalled_timElement b
  rw [Signals, and_iff_right (groupTraffic_timElement b)]
  cases hlow : lowBits b with
  | true =>
    refine iff_of_true (fun aid _ => ?_) (.inl rfl)
    cases hhigh : highBits b with
    | true =>
      have hpvb : pvb b = [lowByte b, highByte b] := by simp [pvb, hlow, hhigh]
      rw [hbit, hpvb]
      rcases Nat.lt_or_ge aid 8 with hfirst | hsecond
      · rw [Nat.div_eq_of_lt hfirst, Nat.mod_eq_of_lt hfirst]
        simp [testBit_lowByte, hfirst]
      · rcases Nat.lt_or_ge aid 16 with hin | hout
        · have hdiv : aid / 8 = 1 := by omega
          have hmod : 8 + aid % 8 = aid := by omega
          have hlt : aid % 8 < 8 := by omega
          rw [hdiv]
          simp [testBit_highByte, hmod, hlt]
        · rw [testBit_of_le b hout]
          have hdiv : ¬ aid / 8 < 2 := by omega
          simp [hdiv]
    | false =>
      have hpvb : pvb b = [lowByte b] := by simp [pvb, hlow, hhigh]
      rw [hbit, hpvb]
      rcases Nat.lt_or_ge aid 8 with hfirst | hsecond
      · rw [Nat.div_eq_of_lt hfirst, Nat.mod_eq_of_lt hfirst]
        simp [testBit_lowByte, hfirst]
      · have hnone : b.toNat.testBit aid = false := by
          rw [← Bool.not_eq_true]
          intro hb
          rw [(highBits_iff b).mpr ⟨aid, hsecond, hb⟩] at hhigh
          cases hhigh
        have hdiv : ¬ aid / 8 < 1 := by omega
        rw [hnone]
        simp [hdiv]
  | false =>
    have hfew : ∀ i, 1 ≤ i → i < 8 → b.toNat.testBit i = false := by
      intro i hi hlt
      rw [← Bool.not_eq_true]
      intro hb
      rw [(lowBits_iff b).mpr ⟨i, hi, hlt, hb⟩] at hlow
      cases hlow
    cases hhigh : highBits b with
    | true =>
      -- a station of the upper byte is not among the eight that are signalled
      refine iff_of_false (fun h => ?_) (by simp)
      obtain ⟨i, hi, hb⟩ := (highBits_iff b).mp hhigh
      have hpvb : pvb b = [highByte b] := by simp [pvb, hlow, hhigh]
      have hsig := h i (by omega)
      have hdiv : ¬ i / 8 < 1 := by omega
      rw [hbit, hpvb, hb] at hsig
      simp [hdiv] at hsig
    | false =>
      refine iff_of_true (fun aid haid => ?_) (.inr rfl)
      have hpvb : pvb b = [lowByte b] := by simp [pvb, hlow, hhigh]
      have hnone : b.toNat.testBit aid = false := by
        rcases Nat.lt_or_ge aid 8 with hfirst | hsecond
        · exact hfew aid haid hfirst
        · rw [← Bool.not_eq_true]
          intro hb
          rw [(highBits_iff b).mpr ⟨aid, hsecond, hb⟩] at hhigh
          cases hhigh
      rw [hbit, hpvb, hnone]
      rcases Nat.lt_or_ge aid 8 with hfirst | hsecond
      · rw [Nat.div_eq_of_lt hfirst, Nat.mod_eq_of_lt hfirst]
        simp [testBit_lowByte, hnone]
      · have hdiv : ¬ aid / 8 < 1 := by omega
        simp [hdiv]

end Bitmap

/-! ## 4. Where the element goes -/

/-- A list with its parts: what stands in front of the place, what is there, and what is behind. -/
structure Located (n : Bcn) (l : BeaconIes) where
  head : List Element
  old : List Element
  back : List Element
  elems : l.elems = [l.ssid, l.rates, l.ds] ++ head ++ old ++ back
  place : timPlace n = (fixedIeLength + (bytesOf ([l.ssid, l.rates, l.ds] ++ head)).length,
    (bytesOf old).length)
  head_other : ∀ e ∈ head, e.eid ≠ timIe
  old_tim : ∀ e ∈ old, e.eid = timIe
  clean_iff : (∀ e ∈ l.rest, e.eid = timIe → e.data ≠ []) ↔ ∀ e ∈ back, e.eid ≠ timIe

section Lists

variable {n : Bcn} {l : BeaconIes} {mem : Bool} {b : UInt16}

theorem three_other (l : BeaconIes) : ∀ e ∈ [l.ssid, l.rates, l.ds], e.eid ≠ timIe := by
  intro e he
  simp only [List.mem_cons, List.not_mem_nil, or_false] at he
  rcases he with rfl | rfl | rfl
  · rw [l.eid_ssid]; decide
  · rw [l.eid_rates]; decide
  · rw [l.eid_ds]; decide

/-- The elements in memory. -/
theorem elems_at (h : n.bytes = l.bytes) : fixedIeLength ≤ n.ieLength ∧
    readBytes n.ies fixedIeLength (n.ieLength - fixedIeLength) = bytesOf l.elems := by
  obtain ⟨hle, hbehind⟩ := behind_at h
  rw [l.length_fixed, Nat.zero_add] at hbehind
  rw [l.length_fixed] at hle
  exact ⟨hle, hbehind⟩

theorem getIe_at (h : n.bytes = l.bytes) (index : UInt8) :
    rtwGetIe n.ies fixedIeLength index (n.ieLength - fixedIeLength) =
      placeOf index fixedIeLength l.elems := by
  obtain ⟨hle, hread⟩ := elems_at h
  rw [← rtwGetIe_eq_placeOf index hread, Int.ofNat_sub hle]

/-- A new element goes behind the first three. -/
theorem head_end (h : n.bytes = l.bytes) :
    fixedIeLength + headPart n ssidIe + headPart n supportedRatesIe + 3 =
      fixedIeLength + (bytesOf [l.ssid, l.rates, l.ds]).length := by
  have hssid : headPart n ssidIe = l.ssid.data.length + 2 := by
    rw [headPart, getIe_at h, BeaconIes.elems, placeOf, if_pos l.eid_ssid]
  have hrates : headPart n supportedRatesIe = l.rates.data.length + 2 := by
    have hne : ¬ l.ssid.eid = supportedRatesIe := by rw [l.eid_ssid]; decide
    rw [headPart, getIe_at h, BeaconIes.elems, placeOf, if_neg hne, placeOf, if_pos l.eid_rates]
  simp only [hssid, hrates, bytesOf_cons', bytesOf_nil, List.length_append, Element.length_bytes,
    l.length_ds, List.length_nil]
  omega

theorem oneTim_split {r₁ r₂ : List Element} {t : Element} (ht : t.eid = timIe)
    (hrest : l.rest = r₁ ++ t :: r₂) : (∀ e ∈ r₁, e.eid ≠ timIe) ∧ ∀ e ∈ r₂, e.eid ≠ timIe := by
  have hone := l.oneTim
  rw [hrest, List.filter_append, List.filter_cons_of_pos (by simpa using ht), List.length_append,
    List.length_cons] at hone
  have hempty : ∀ r : List Element, (r.filter fun e => e.eid = timIe).length = 0 →
      ∀ e ∈ r, e.eid ≠ timIe := by
    intro r hr e he heid
    have hmem : e ∈ r.filter fun e => e.eid = timIe := List.mem_filter.mpr ⟨he, by simpa using heid⟩
    rw [List.length_eq_zero_iff.mp hr] at hmem
    exact absurd hmem List.not_mem_nil
  exact ⟨hempty r₁ (by omega), hempty r₂ (by omega)⟩

theorem exists_located (h : n.bytes = l.bytes) : Nonempty (Located n l) := by
  have hhead := head_end h
  by_cases hnone : ∀ e ∈ l.rest, e.eid ≠ timIe
  · -- there is no TIM element
    have hall : ∀ e ∈ l.elems, e.eid ≠ timIe := fun e he =>
      (List.mem_append.mp (show e ∈ [l.ssid, l.rates, l.ds] ++ l.rest from he)).elim
        (three_other l e) (hnone e)
    refine ⟨⟨[], [], l.rest, rfl, ?_, by simp, by simp, ?_⟩⟩
    · rw [timPlace, getIe_at h, placeOf_eq_none hall]
      exact congrArg (·, 0) hhead
    · exact iff_of_true (fun e he heid => absurd heid (hnone e he)) hnone
  · simp only [not_forall, not_not] at hnone
    obtain ⟨t, ht, heid⟩ := hnone
    obtain ⟨r₁, r₂, hrest⟩ := List.append_of_mem ht
    obtain ⟨hfirst, hsecond⟩ := oneTim_split heid hrest
    have helems : l.elems = [l.ssid, l.rates, l.ds] ++ r₁ ++ t :: r₂ := by
      rw [BeaconIes.elems, hrest]
      rfl
    have hfront : ∀ e ∈ [l.ssid, l.rates, l.ds] ++ r₁, e.eid ≠ timIe := fun e he =>
      (List.mem_append.mp he).elim (three_other l e) (hfirst e)
    have hget : rtwGetIe n.ies fixedIeLength timIe (n.ieLength - fixedIeLength) =
        some (fixedIeLength + (bytesOf ([l.ssid, l.rates, l.ds] ++ r₁)).length, t.data.length) := by
      rw [getIe_at h, helems, placeOf_append hfront, placeOf, if_pos heid]
    by_cases hdata : t.data = []
    · -- an empty one is not looked at
      refine ⟨⟨[], [], l.rest, rfl, ?_, by simp, by simp, ?_⟩⟩
      · rw [timPlace, hget]
        simp only [hdata, List.length_nil, Nat.lt_irrefl, if_false]
        exact congrArg (·, 0) hhead
      · exact iff_of_false (fun hne => hne t ht heid hdata) fun hne => hne t ht heid
    · refine ⟨⟨r₁, [t], r₂, ?_, ?_, hfirst, by simpa using heid, ?_⟩⟩
      · rw [helems, List.append_assoc _ [t]]
        rfl
      · have hpos : 0 < t.data.length := List.length_pos_iff.mpr hdata
        rw [timPlace, hget]
        simp only [if_pos hpos]
        simp [bytesOf, Element.length_bytes]
      · refine iff_of_true (fun e he heid' => ?_) hsecond
        rw [hrest, List.mem_append, List.mem_cons] at he
        rcases he with he | rfl | he
        · exact absurd heid' (hfirst e he)
        · exact hdata
        · exact absurd heid' (hsecond e he)

/-- The elements in front of the place. -/
def Located.front (p : Located n l) : List Element := [l.ssid, l.rates, l.ds] ++ p.head

theorem Located.front_other (p : Located n l) : ∀ e ∈ p.front, e.eid ≠ timIe := fun e he =>
  (List.mem_append.mp he).elim (three_other l e) (p.head_other e)

/-- What stands behind the element that is written. -/
def Located.tail (p : Located n l) (mem : Bool) (b : UInt16) : List UInt8 :=
  behindEdit mem n ((l.fixed ++ bytesOf p.front).length + (timBytes b).length) (bytesOf p.back)

theorem Located.bytes_eq (p : Located n l) (h : n.bytes = l.bytes) :
    n.bytes = (l.fixed ++ bytesOf p.front) ++ bytesOf p.old ++ bytesOf p.back := by
  rw [h, BeaconIes.bytes, p.elems, bytesOf_append, bytesOf_append, Located.front]
  simp only [List.append_assoc]

theorem Located.place_eq (p : Located n l) :
    timPlace n = ((l.fixed ++ bytesOf p.front).length, (bytesOf p.old).length) := by
  rw [p.place, List.length_append, l.length_fixed, Located.front]

/-- **What `update_BCNTIM` leaves.** -/
theorem Located.bytes_update (p : Located n l) (h : n.bytes = l.bytes) (hlt : n.ieLength < 2 ^ 32)
    (mem : Bool) (b : UInt16) :
    (updateBcntim mem b n).bytes =
      l.fixed ++ bytesOf (p.front ++ [timElement b]) ++ p.tail mem b := by
  rw [updateBcntim, p.place_eq, bytes_edit mem (p.bytes_eq h) hlt, bytesOf_append, bytesOf_cons',
    bytesOf_nil, List.append_nil, timElement_bytes, ← List.append_assoc l.fixed, Located.tail]

theorem Located.ieLength_update (p : Located n l) (h : n.bytes = l.bytes)
    (hlt : n.ieLength < 2 ^ 32) (mem : Bool) (b : UInt16) :
    (updateBcntim mem b n).ieLength = n.ieLength - (timPlace n).2 + (timBytes b).length := by
  rw [updateBcntim, p.place_eq, ieLength_edit mem (p.bytes_eq h) hlt]

/-- The rest stays exactly if it is what stands behind the element. -/
theorem Located.restStays_iff (p : Located n l) (h : n.bytes = l.bytes) :
    RestStays mem n (timBytes b) ↔ p.tail mem b = bytesOf p.back := by
  obtain ⟨hlen, -, hback⟩ := Bcn.parts (p.bytes_eq h)
  have hrem : n.ieLength - ((l.fixed ++ bytesOf p.front).length + (bytesOf p.old).length) =
      (bytesOf p.back).length := by omega
  rw [Located.tail, behindEdit_eq_iff]
  simp only [RestStays, p.place_eq, hrem, hback]

/-! ## 5. The list afterwards -/

theorem Located.filter_other (p : Located n l) :
    (l.elems.filter fun e => e.eid ≠ timIe) =
      p.front ++ p.back.filter fun e => e.eid ≠ timIe := by
  have hold : (p.old.filter fun e => e.eid ≠ timIe) = [] := filter_other_eq_nil p.old_tim
  have hfront := filter_other_eq_self p.front_other
  rw [Located.front] at hfront
  rw [p.elems, List.filter_append, List.filter_append, hold, List.append_nil, hfront]
  rfl

/-- The list has one TIM element, that which is written, and all others exactly if the rest stays
and has none. -/
theorem Located.once_iff (p : Located n l) {t : Element} {es : List Element}
    (h : bytesOf es = bytesOf (p.front ++ [timElement b]) ++ p.tail mem b) :
    ((es.filter fun e => e.eid = timIe) = [t] ∧
      (es.filter fun e => e.eid ≠ timIe) = l.elems.filter fun e => e.eid ≠ timIe) ↔
    t = timElement b ∧ es = p.front ++ [timElement b] ++ p.back ∧
      (∀ e ∈ p.back, e.eid ≠ timIe) ∧ p.tail mem b = bytesOf p.back := by
  obtain ⟨c, rfl, hc⟩ := bytesOf_prefix h
  have hfront := p.front_other
  rw [p.filter_other]
  simp only [List.filter_append, filter_same_eq_nil hfront, filter_other_eq_self hfront,
    List.nil_append]
  have hone : ([timElement b].filter fun e => e.eid = timIe) = [timElement b] := rfl
  have hnone : ([timElement b].filter fun e => e.eid ≠ timIe) = [] := rfl
  rw [hone, hnone, List.append_nil, List.append_cancel_left_eq, List.append_cancel_left_eq]
  have hlen : (bytesOf c).length = (bytesOf p.back).length := by
    rw [hc, Located.tail, length_behindEdit]
  constructor
  · rintro ⟨hcons, hother⟩
    obtain ⟨rfl, hempty⟩ : timElement b = t ∧ (c.filter fun e => e.eid = timIe) = [] := by
      simpa using hcons
    have hcother : ∀ e ∈ c, e.eid ≠ timIe := fun e he => by
      simpa using List.filter_eq_nil_iff.mp hempty e he
    rw [filter_other_eq_self hcother] at hother
    have hsame : c = p.back := by
      rw [hother] at hlen ⊢
      exact eq_of_length_bytesOf List.filter_sublist hlen
    subst hsame
    exact ⟨rfl, rfl, hcother, hc.symm⟩
  · rintro ⟨rfl, rfl, hother, -⟩
    rw [filter_same_eq_nil hother]
    exact ⟨rfl, rfl⟩

theorem timElement_pos : 0 < (timElement b).data.length := by
  have hdata : (timElement b).data.length = _ := timData_length b
  rw [hdata]
  split <;> decide

theorem length_timBytes_le : (timBytes b).length ≤ 7 := by
  have hdata : (timElement b).data.length = _ := timData_length b
  rw [← timElement_bytes, Element.length_bytes, hdata]
  split <;> decide

/-- The list with the element that is written. -/
def Located.next (p : Located n l) (b : UInt16) (hback : ∀ e ∈ p.back, e.eid ≠ timIe) : BeaconIes :=
  { l with
    rest := p.head ++ [timElement b] ++ p.back
    oneTim := by
      rw [List.filter_append, List.filter_append, filter_same_eq_nil p.head_other,
        filter_same_eq_nil hback]
      exact Nat.le_refl 1 }

theorem Located.next_elems (p : Located n l) (hback : ∀ e ∈ p.back, e.eid ≠ timIe) :
    (p.next b hback).elems = p.front ++ [timElement b] ++ p.back := by
  simp [Located.next, BeaconIes.elems, Located.front]

theorem Located.bytes_next (p : Located n l) (h : n.bytes = l.bytes) (hlt : n.ieLength < 2 ^ 32)
    (htail : p.tail mem b = bytesOf p.back) (hback : ∀ e ∈ p.back, e.eid ≠ timIe) :
    (updateBcntim mem b n).bytes = (p.next b hback).bytes := by
  rw [p.bytes_update h hlt, htail, BeaconIes.bytes, p.next_elems, bytesOf_append _ p.back,
    List.append_assoc]
  rfl

/-- There the next call finds the element. -/
theorem Located.again (p : Located n l) (h : n.bytes = l.bytes) (hlt : n.ieLength < 2 ^ 32)
    (htail : p.tail mem b = bytesOf p.back) (hback : ∀ e ∈ p.back, e.eid ≠ timIe) :
    ∃ q : Located (updateBcntim mem b n) (p.next b hback), q.head = p.head ∧ q.back = p.back := by
  have hpos : 0 < (timElement b).data.length := timElement_pos
  have hplace : timPlace (updateBcntim mem b n) =
      (fixedIeLength + (bytesOf p.front).length, (bytesOf [timElement b]).length) := by
    have hfound : (timElement b).eid = timIe := rfl
    rw [timPlace, getIe_at (p.bytes_next h hlt htail hback), p.next_elems hback,
      List.append_assoc, placeOf_append p.front_other, List.singleton_append, placeOf,
      if_pos hfound]
    simp only [if_pos hpos, bytesOf_cons', bytesOf_nil, List.append_nil, Element.length_bytes,
      Nat.add_comm]
  have htim : ∀ e ∈ [timElement b], e.eid = timIe := by
    intro e he
    rw [List.mem_singleton.mp he]
    rfl
  refine ⟨⟨p.head, [timElement b], p.back, p.next_elems hback, hplace, p.head_other, htim,
    iff_of_true (fun e he heid => ?_) hback⟩, rfl, rfl⟩
  simp only [Located.next, List.mem_append, List.mem_singleton] at he
  rcases he with (he | rfl) | he
  · exact absurd heid (p.head_other e he)
  · exact List.length_pos_iff.mp hpos
  · exact absurd heid (hback e he)

/-- A further call puts another element in its place. -/
theorem Located.update_update (p : Located n l) (h : n.bytes = l.bytes)
    (hlt : n.ieLength + 7 < 2 ^ 32) (htail : p.tail mem b = bytesOf p.back)
    (hback : ∀ e ∈ p.back, e.eid ≠ timIe) (b' : UInt16) :
    (updateBcntim true b' (updateBcntim mem b n)).bytes = (updateBcntim true b' n).bytes := by
  have hfirst : n.ieLength < 2 ^ 32 := by omega
  have hsecond : (updateBcntim mem b n).ieLength < 2 ^ 32 := by
    have hsize := p.ieLength_update h hfirst mem b
    have hnew : (timBytes b).length ≤ 7 := length_timBytes_le
    omega
  obtain ⟨q, hhead, hsame⟩ := p.again h hfirst htail hback
  have hnext := q.bytes_update (p.bytes_next h hfirst htail hback) hsecond true b'
  rw [hnext, p.bytes_update h hfirst]
  simp only [Located.tail, behindEdit_true, Located.front, Located.next, hhead, hsame]

end Lists

section Encoding

variable {mem : Bool} {b : UInt16} {n : Bcn} {l : BeaconIes}

theorem TimFits.of_encodes (h : n.bytes = l.bytes) (hlen : n.ieLength < 2 ^ 32)
    (henc : Encodes mem b n l) : TimFits mem b n l := by
  obtain ⟨p⟩ := exists_located h
  obtain ⟨⟨es, t, hes, htim, hsignals, hother⟩, hroom, -⟩ := henc
  rw [p.bytes_update h hlen, List.append_assoc] at hes
  obtain ⟨rfl, -, hback, htail⟩ :=
    (p.once_iff (List.append_cancel_left hes).symm).mp ⟨htim, hother⟩
  rw [p.ieLength_update h hlen] at hroom
  exact ⟨(signals_iff b).mp hsignals, p.clean_iff.mpr hback, (p.restStays_iff h).mpr htail, hroom⟩

theorem TimFits.encodes (h : n.bytes = l.bytes) (hlen : n.ieLength + 7 < 2 ^ 32)
    (hfits : TimFits mem b n l) : Encodes mem b n l := by
  obtain ⟨p⟩ := exists_located h
  have hlt : n.ieLength < 2 ^ 32 := by omega
  obtain ⟨hbits, hclean, hstays, hroom⟩ := hfits
  have hback := p.clean_iff.mp hclean
  have htail := (p.restStays_iff h).mp hstays
  have hes : bytesOf (p.front ++ [timElement b] ++ p.back) =
      bytesOf (p.front ++ [timElement b]) ++ p.tail mem b := by
    rw [htail, bytesOf_append]
  obtain ⟨htim, hother⟩ := (p.once_iff hes).mpr ⟨rfl, rfl, hback, htail⟩
  refine ⟨⟨_, timElement b, ?_, htim, (signals_iff b).mpr hbits, hother⟩, ?_,
    p.update_update h hlen htail hback⟩
  · rw [p.bytes_update h hlt, hes, List.append_assoc]
  · rw [p.ieLength_update h hlt]
    exact hroom

end Encoding

/-- **The TIM element encodes the bitmap** exactly for these bitmaps and beacons. -/
theorem bcn_tim_iff (mem : Bool) (b : UInt16) (n : Bcn) (l : BeaconIes) (h : n.bytes = l.bytes)
    (hlen : n.ieLength ≤ maxIeSz) : Encodes mem b n l ↔ TimFits mem b n l := by
  have hlt : n.ieLength + 7 < 2 ^ 32 := by
    unfold maxIeSz at hlen
    omega
  exact ⟨TimFits.of_encodes h (by omega), TimFits.encodes h hlt⟩

/-- A beacon with a TIM element and an ERP element. -/
def smallIes : BeaconIes where
  fixed := List.replicate 12 0
  ssid := ⟨ssidIe, [97], by decide⟩
  rates := ⟨supportedRatesIe, [0x82], by decide⟩
  ds := ⟨dssetIe, [6], by decide⟩
  rest := [⟨timIe, [0, 1, 0, 0], by decide⟩, ⟨42, [0], by decide⟩]
  length_fixed := by decide
  eid_ssid := by decide
  eid_rates := by decide
  eid_ds := by decide
  length_ds := by decide
  oneTim := by decide

def smallBcn : Bcn where
  ies i := smallIes.bytes.getD i 0
  ieLength := smallIes.bytes.length

/-- Group traffic, a station of the lower byte and one of the upper. -/
theorem both_bytes_encoded : Encodes true 0x0203 smallBcn smallIes :=
  (bcn_tim_iff true 0x0203 smallBcn smallIes (by decide) (by decide)).mpr
    ⟨.inl (by decide), by decide, .inl rfl, by decide⟩

/-- One station, of the upper byte: it is not signalled. -/
theorem upper_byte_lost : ¬ Encodes true 0x0200 smallBcn smallIes := by
  intro henc
  have hbits := (TimFits.of_encodes (by decide) (by decide) henc).1
  revert hbits
  decide

end BcnIes

end Rtl8723bs
