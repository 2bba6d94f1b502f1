/-
# When a change of the beacon is believed

A link is to be given up only if the AP has really changed: if the last `new_bcn_max` beacons that
could be read had the same keys, and these differ from the keys in use in more than the HT fields.
Keys that differ in these only are taken over, and nothing else changes the keys in use.

`beacon_change` says that this holds along every run of beacons that are not too long, and whose
keys, where they make the station give up the link, have the HT fields in use.
-/
import Rtl8723bs.Lib.Streak
import Rtl8723bs.Mlme.BeaconKeys

namespace Rtl8723bs

namespace BcnKeys

open Streak (Streak)

/-! ## 1. What a check should do -/

/-- Keys that differ in the HT fields at most. -/
def SameRest (k r : BeaconKeys) : Prop := k = r.withHt k

instance (k r : BeaconKeys) : Decidable (SameRest k r) := inferInstanceAs (Decidable (k = _))

/-- **A change is believed when it was seen often enough.**  Here `hist` are the keys of the beacons
before that could be read, latest first. -/
structure Hysteresis (l : Link) (s : State) (hist : List BeaconKeys) (e : Beacon) : Prop where
  fail : (rtwCheckBcnInfo l s e).1 = false → ∃ k, keysOf s.cur.ssid e = some k ∧
    Streak l.newBcnMax.toNat k (k :: hist) ∧ ¬ SameRest k s.cur
  restart : keysOf s.cur.ssid e = some s.cur → (rtwCheckBcnInfo l s e).2.cnts = 0
  adopt : ∀ k, keysOf s.cur.ssid e = some k → k ≠ s.cur → SameRest k s.cur →
    Streak l.newBcnMax.toNat k (k :: hist) → (rtwCheckBcnInfo l s e).1 = true ∧
      (rtwCheckBcnInfo l s e).2.cur = k ∧ (rtwCheckBcnInfo l s e).2.info = s.info.withHt k
  only : (rtwCheckBcnInfo l s e).2.cur ≠ s.cur → ∃ k, keysOf s.cur.ssid e = some k ∧
    SameRest k s.cur ∧ Streak l.newBcnMax.toNat k (k :: hist)

/-- How often keys were counted before. -/
def seenBefore (s : State) (k : BeaconKeys) : Nat := if k = s.new then s.cnts.toNat else 0

/-- **Beacons that go well.**  A beacon is not too long; keys that are believed and differ in more
than the HT fields do not differ in these; and the count is not to go beyond a byte. -/
structure StepFits (l : Link) (s : State) (e : Beacon) : Prop where
  short : e.len ≤ maxIeSz
  ht : ∀ k, keysOf s.cur.ssid e = some k → ¬ SameRest k s.cur →
    l.newBcnMax ≤ ((seenBefore s k + 1) % 256 : Nat) → s.cur.withHt k = s.cur
  wrap : ∀ k, keysOf s.cur.ssid e = some k → SameRest k s.cur → k ≠ s.cur →
    seenBefore s k = 255 → l.newBcnMax ≤ 255

/-- A beacon of the AP we are linked to. -/
def FromAp (l : Link) (e : Beacon) : Prop :=
  l.associated = true ∧ readBytes e.frame 16 6 = l.macAddress

instance (l : Link) (e : Beacon) : Decidable (FromAp l e) := inferInstanceAs (Decidable (_ ∧ _))

/-- The keys seen after a beacon. -/
def extend (hist : List BeaconKeys) : Option BeaconKeys → List BeaconKeys
  | some k => k :: hist
  | none => hist

/-- Every step of a run from `s` and `hist` has the property. -/
def Along (P : State → List BeaconKeys → Beacon → Prop) (l : Link) :
    State → List BeaconKeys → List Beacon → Prop
  | _, _, [] => True
  | s, hist, e :: es =>
    P s hist e ∧ Along P l (rtwCheckBcnInfo l s e).2 (extend hist (keysOf s.cur.ssid e)) es

/-! ## 2. One check -/

section Check

variable {l : Link} {s : State} {e : Beacon} {k : BeaconKeys} {hist : List BeaconKeys}

theorem withHt_self (k : BeaconKeys) : k.withHt k = k := rfl

theorem check_none (hap : FromAp l e) (hlen : e.len ≤ maxIeSz)
    (hk : keysOf s.cur.ssid e = none) : rtwCheckBcnInfo l s e = (true, s) := by
  simp [rtwCheckBcnInfo, hap.1, hap.2, Nat.not_lt.mpr hlen, hk]

theorem check_some (hap : FromAp l e) (hlen : e.len ≤ maxIeSz)
    (hk : keysOf s.cur.ssid e = some k) : rtwCheckBcnInfo l s e =
      if l.newBcnMax ≤ (count s k).cnts.toNat then believe (count s k) k
      else (true, count s k) := by
  simp [rtwCheckBcnInfo, hap.1, hap.2, Nat.not_lt.mpr hlen, hk]

/-- Keys that are not in use are counted. -/
theorem count_of_ne (h : k ≠ s.cur) :
    count s k = { s with new := k, cnts := UInt8.ofNat (seenBefore s k + 1) } := by
  rw [count, if_neg h, seenBefore]
  by_cases hnew : k = s.new
  · by_cases hzero : s.cnts = 0
    · rw [if_pos (Or.inl hzero), if_pos hnew, hzero]
      rfl
    · have hcond : ¬ (s.cnts = 0 ∨ k ≠ s.new) := fun h => h.elim hzero (absurd hnew)
      rw [if_neg hcond, if_pos hnew, hnew]
      congr 1
  · rw [if_pos (Or.inr hnew), if_neg hnew]
    rfl

theorem count_of_eq (h : k = s.cur) : count s k = { s with cnts := 0 } := if_pos h

/-- Keys in use restart the count, and are all that is in use after. -/
theorem check_cur (hap : FromAp l e) (hlen : e.len ≤ maxIeSz)
    (hk : keysOf s.cur.ssid e = some s.cur) :
    ∃ i, rtwCheckBcnInfo l s e = (true, { s with cnts := 0, info := i }) := by
  rw [check_some hap hlen hk, count_of_eq rfl]
  split
  · exact ⟨s.info.withHt s.cur, by rw [believe, if_pos (withHt_self s.cur).symm]⟩
  · exact ⟨s.info, rfl⟩

/-- What is left of other keys: they are counted, and believed when that is enough. -/
theorem check_new (hap : FromAp l e) (hlen : e.len ≤ maxIeSz)
    (hk : keysOf s.cur.ssid e = some k) (hne : k ≠ s.cur) :
    ∃ c : UInt8, c.toNat = (seenBefore s k + 1) % 256 ∧ rtwCheckBcnInfo l s e =
      if l.newBcnMax ≤ c.toNat then
        if SameRest k s.cur then (true, { s with cur := k, new := k, cnts := 0, info := s.info.withHt k })
        else (false, { s with cur := s.cur.withHt k, new := k, cnts := c })
      else (true, { s with new := k, cnts := c }) := by
  refine ⟨UInt8.ofNat (seenBefore s k + 1), UInt8.toNat_ofNat', ?_⟩
  rw [check_some hap hlen hk, count_of_ne hne]
  rfl

end Check

/-! ## 3. What holds between the checks -/

/-- The count says how often the new keys were seen in a row, and a streak of keys to take over is
counted in full; such a count has not reached `new_bcn_max`. -/
structure Tracks (l : Link) (s : State) (hist : List BeaconKeys) : Prop where
  seen : Streak s.cnts.toNat s.new hist
  counted : ∀ n k, SameRest k s.cur → k ≠ s.cur → Streak (n + 1) k hist →
    n + 1 ≤ seenBefore s k
  waiting : s.cnts ≠ 0 → SameRest s.new s.cur → s.new ≠ s.cur → (s.cnts.toNat : Int) < l.newBcnMax

section Step

variable {l : Link} {s : State} {e : Beacon} {k : BeaconKeys} {hist : List BeaconKeys}

/-- Where nothing is counted, nothing is claimed of the past. -/
theorem Tracks.fresh (hcnts : s.cnts = 0) : Tracks l s (s.cur :: hist) where
  seen := by
    rw [hcnts]
    exact Streak.zero _ _
  counted := fun n k _ hne hstreak => absurd (Streak.succ_iff.mp hstreak).1.symm hne
  waiting := fun hpos => absurd hcnts hpos

/-- The count with the keys of one more beacon. -/
theorem Tracks.seen_next (h : Tracks l s hist) :
    Streak ((seenBefore s k + 1) % 256) k (k :: hist) := by
  have hstreak : Streak (seenBefore s k + 1) k (k :: hist) := by
    rw [seenBefore]
    split
    · rename_i hnew
      exact Streak.succ (hnew ▸ h.seen)
    · exact Streak.one k hist
  exact Streak.mono hstreak (Nat.mod_le _ _)

/-- A streak of keys to take over is counted in full with one more. -/
theorem Tracks.counted_next (h : Tracks l s hist) (hfit : StepFits l s e)
    (hk : keysOf s.cur.ssid e = some k) (hrest : SameRest k s.cur) (hne : k ≠ s.cur) {n : Nat}
    (hstreak : Streak (n + 1) k (k :: hist)) : n + 1 ≤ (seenBefore s k + 1) % 256 := by
  have hle : n ≤ seenBefore s k := by
    cases n with
    | zero => exact Nat.zero_le _
    | succ n => exact h.counted n k hrest hne (Streak.succ_iff.mp hstreak).2
  have hbyte : seenBefore s k < 255 := by
    have hlt : seenBefore s k < 256 := by
      rw [seenBefore]
      split
      · exact s.cnts.toNat_lt
      · decide
    refine Nat.lt_of_le_of_ne (by omega) fun hfull => ?_
    -- a byte is full only if `new_bcn_max` was reached before
    have hmax := hfit.wrap k hk hrest hne hfull
    rw [seenBefore] at hfull
    split at hfull
    · rename_i hnew
      have hpos : s.cnts ≠ 0 := by
        intro hzero
        rw [hzero] at hfull
        exact absurd hfull (by decide)
      have hlt := h.waiting hpos (hnew ▸ hrest) (hnew ▸ hne)
      omega
    · omega
  rw [Nat.mod_eq_of_lt (by omega)]
  omega

/-- **One check**: it does what it should, and what holds before holds after it. -/
theorem Tracks.step (h : Tracks l s hist) (hap : FromAp l e) (hfit : StepFits l s e) :
    Hysteresis l s hist e ∧
      Tracks l (rtwCheckBcnInfo l s e).2 (extend hist (keysOf s.cur.ssid e)) := by
  cases hk : keysOf s.cur.ssid e with
  | none =>
    have hcheck := check_none hap hfit.short hk
    refine ⟨⟨?_, ?_, ?_, ?_⟩, ?_⟩
    · simp [hcheck]
    · simp [hk]
    · simp [hk]
    · simp [hcheck]
    · rw [hcheck]
      exact h
  | some k =>
    by_cases hcur : k = s.cur
    · obtain ⟨i, hcheck⟩ := check_cur hap hfit.short (hcur ▸ hk)
      refine ⟨⟨?_, ?_, ?_, ?_⟩, ?_⟩
      · simp [hcheck]
      · simp [hcheck]
      · intro k' hk' hne
        rw [hk, Option.some.injEq] at hk'
        exact absurd (hk'.symm.trans hcur) hne
      · simp [hcheck]
      · rw [hcheck, extend, hcur]
        exact Tracks.fresh rfl
    · obtain ⟨c, hc, hcheck⟩ := check_new hap hfit.short hk hcur
      have hother : keysOf s.cur.ssid e ≠ some s.cur := by
        rw [hk]
        exact fun h => hcur (Option.some.inj h)
      have hseen : Streak c.toNat k (k :: hist) := hc ▸ h.seen_next
      by_cases hmax : l.newBcnMax ≤ c.toNat
      · have hstreak : Streak l.newBcnMax.toNat k (k :: hist) := Streak.mono hseen (by omega)
        rw [if_pos hmax] at hcheck
        by_cases hrest : SameRest k s.cur
        · -- the HT fields have changed
          rw [if_pos hrest] at hcheck
          refine ⟨⟨?_, fun h => absurd h hother, ?_, fun _ => ⟨k, hk, hrest, hstreak⟩⟩, ?_⟩
          · simp [hcheck]
          · intro k' hk' _ _ _
            rw [hk, Option.some.injEq] at hk'
            subst hk'
            simp [hcheck]
          · rw [hcheck]
            exact Tracks.fresh rfl
        · -- more has changed, and the HT fields have not
          have hht : s.cur.withHt k = s.cur := hfit.ht k hk hrest (hc ▸ hmax)
          rw [if_neg hrest, hht] at hcheck
          refine ⟨⟨fun _ => ⟨k, hk, hstreak, hrest⟩, fun h => absurd h hother, ?_, ?_⟩, ?_⟩
          · intro k' hk' _ hrest'
            rw [hk, Option.some.injEq] at hk'
            exact absurd (hk' ▸ hrest') hrest
          · simp [hcheck]
          · rw [hcheck]
            refine ⟨hseen, fun n k' hrest' hne hs => ?_, fun _ hrest' => absurd hrest' hrest⟩
            have heq := (Streak.succ_iff.mp hs).1
            exact absurd (heq ▸ hrest') hrest
      · rw [if_neg hmax] at hcheck
        refine ⟨⟨?_, fun h => absurd h hother, ?_, ?_⟩, ?_⟩
        · simp [hcheck]
        · intro k' hk' hne hrest hstreak
          rw [hk, Option.some.injEq] at hk'
          subst hk'
          -- a streak as long would have been counted
          obtain ⟨n, hn⟩ : ∃ n, l.newBcnMax.toNat = n + 1 := ⟨l.newBcnMax.toNat - 1, by omega⟩
          rw [hn] at hstreak
          have hle := h.counted_next hfit hk hrest hne hstreak
          omega
        · simp [hcheck]
        · rw [hcheck]
          refine ⟨hseen, fun n k' hrest' hne hs => ?_, fun _ _ _ => Int.not_le.mp hmax⟩
          have heq := (Streak.succ_iff.mp hs).1
          subst heq
          have hle := h.counted_next hfit hk hrest' hne hs
          simpa [seenBefore, hc] using hle

end Step

/-! ## 4. Runs -/

/-- **A change of the beacon is believed when it was seen often enough**, along every run of
beacons that go well. -/
theorem beacon_change (l : Link) (s : State) (es : List Beacon) (h0 : s.cnts = 0)
    (hap : ∀ e ∈ es, FromAp l e) (hfit : Along (fun s _ e => StepFits l s e) l s [] es) :
    Along (Hysteresis l) l s [] es := by
  have hrun : ∀ s hist, Tracks l s hist → Along (fun s _ e => StepFits l s e) l s hist es →
      Along (Hysteresis l) l s hist es := by
    clear hfit h0 s
    induction es with
    | nil => exact fun _ _ _ _ => trivial
    | cons e es ih =>
      rintro s hist htracks ⟨hfit, hrest⟩
      obtain ⟨hgood, hnext⟩ := htracks.step (hap e List.mem_cons_self) hfit
      exact ⟨hgood, ih (fun e he => hap e (List.mem_cons_of_mem _ he)) _ _ hnext hrest⟩
  refine hrun s [] ⟨?_, ?_, fun hpos => absurd h0 hpos⟩ hfit
  · rw [h0]
    exact Streak.zero _ _
  · exact fun n k _ _ hstreak => absurd hstreak Streak.not_nil

/-- A step with keys that differ in the HT fields at most goes well. -/
theorem StepFits.of_sameRest {l : Link} {s : State} {e : Beacon} {k : BeaconKeys}
    (hlen : e.len ≤ maxIeSz) (hk : keysOf s.cur.ssid e = some k) (hrest : SameRest k s.cur)
    (hmax : l.newBcnMax ≤ 255) : StepFits l s e where
  short := hlen
  ht := by
    intro k' hk' hne
    rw [hk, Option.some.injEq] at hk'
    exact absurd (hk' ▸ hrest) hne
  wrap := fun _ _ _ _ _ => hmax

def upLink : Link where
  associated := true
  macAddress := [2, 2, 2, 2, 2, 2]
  newBcnMax := 3

/-- A beacon of these elements. -/
def beaconOf (ies : List UInt8) (short : ies.length < 1024) : Beacon where
  frame i := (List.replicate 16 0 ++ upLink.macAddress ++ List.replicate 14 0 ++ ies).getD i 0
  packetLen := wlanHdrA3Len + beaconIeOffset + ies.length
  curChannel := 6
  short := by
    simp only [wlanHdrA3Len, beaconIeOffset]
    omega

/-- An SSID, a channel, and HT capabilities that allow 40 MHz. -/
def wideBeacon : Beacon :=
  beaconOf ([0, 1, 97, 3, 1, 6, 45, 26, 2, 0] ++ List.replicate 24 0) (by decide)

def upState : State where
  cur := ⟨[97], 6, 0, 0, .opensys, 0, 0, 0⟩
  new := ⟨[], 0, 0, 0, .opensys, 0, 0, 0⟩
  cnts := 0
  info := ⟨0, 0⟩

/-- Seen three times, the HT capabilities are taken over. -/
theorem wide_adopted :
    Along (Hysteresis upLink) upLink upState [] [wideBeacon, wideBeacon, wideBeacon] :=
  have hkeys : ∀ k, k = (⟨[97], 6, 2, 0, .opensys, 0, 0, 0⟩ : BeaconKeys) →
      SameRest k upState.cur := by
    rintro _ rfl
    decide
  beacon_change upLink upState [wideBeacon, wideBeacon, wideBeacon] rfl
    (by decide +kernel)
    ⟨.of_sameRest (by decide) (by decide +kernel) (hkeys _ rfl) (by decide),
      .of_sameRest (by decide) (by decide +kernel) (hkeys _ rfl) (by decide),
      .of_sameRest (by decide) (by decide +kernel) (hkeys _ rfl) (by decide), trivial⟩

/-- One beacon with the keys in use, and many elements: the link is given up. -/
def longBeacon : Beacon :=
  beaconOf ([0, 1, 97, 3, 1, 6] ++ (List.replicate 3 ([221, 254] ++ List.replicate 254 0)).flatten)
    (by decide +kernel)

theorem long_beacon_fails :
    FromAp upLink longBeacon ∧ ¬ Along (Hysteresis upLink) upLink upState [] [longBeacon] := by
  refine ⟨⟨rfl, by decide +kernel⟩, fun halong => ?_⟩
  obtain ⟨k, -, hstreak, -⟩ := halong.1.fail (by decide +kernel)
  exact Streak.not_nil (Streak.succ_iff.mp hstreak).2

end BcnKeys

end Rtl8723bs
