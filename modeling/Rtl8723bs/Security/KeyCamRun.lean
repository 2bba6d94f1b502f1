/-
# Do keys keep their entries?

A key is live from the time it is written until its entry is cleared.  As long as every live
key is in the entry that has its name, and every entry in use has the name of a live key, no
two live keys share an entry and a key that is asked for again is found where it is.  The
handlers keep this, with one slip: `set_stakey_hdl` may find the entry of a group key with the
address and key ID of its own key.  It then clears all group keys of the address, that entry
among them, and writes the pairwise key to an entry that is now marked free.
-/
import Rtl8723bs.Lib.FlagCount
import Rtl8723bs.Security.KeyCam

namespace Rtl8723bs

open Placement

namespace Cam

variable {c c' : Cam} {m : CamMode} {n : KeyName} {e : Nat} {addr : MacAddr} {kid : Nat}

/-! ## 1. The invariant -/

/-- Whose key is in an entry in use. -/
def occ (c : Cam) (e : Nat) : Option KeyName :=
  if c.isUsed e then some (c.cache e).name else none

/-- Live keys and entries in use name each other, an entry that is not in use is blank, the
keys with a zero address are default keys, and where group bits are not looked at, there is no
group key beside a pairwise one. -/
structure Good (c : Cam) : Prop where
  four : 4 ≤ c.num
  placed : Placed c.home c.occ
  blank : ∀ e < c.num, c.isUsed e = false → c.cache e = SecCamEnt.zero
  default : ∀ n e, c.home n = some e → n.addr = zeroAddr → n.gk = true ∧ n.kid = e ∧ e < 4
  apart : c.chkBmc = false → ∀ addr kid, addr ≠ zeroAddr →
    c.home ⟨addr, kid, true⟩ = none ∨ c.home ⟨addr, kid, false⟩ = none
  hw : c.hw = c.cache

/-- What stays the same in any case. -/
structure SameChip (c c' : Cam) : Prop where
  num : c'.num = c.num
  chkBmc : c'.chkBmc = c.chkBmc

theorem SameChip.trans {c₁ c₂ c₃ : Cam} (h : SameChip c₁ c₂) (h' : SameChip c₂ c₃) :
    SameChip c₁ c₃ :=
  ⟨h'.num.trans h.num, h'.chkBmc.trans h.chkBmc⟩

theorem isUsed_lt (h : c.isUsed e = true) : e < c.num := by
  unfold Cam.isUsed at h
  exact of_decide_eq_true (Bool.and_eq_true_iff.mp h).1

theorem occ_some : c.occ e = some n ↔ c.isUsed e = true ∧ (c.cache e).name = n := by
  unfold occ
  split
  · rename_i hused
    exact ⟨fun h => ⟨hused, Option.some.inj h⟩, fun h => congrArg some h.2⟩
  · rename_i hfree
    exact ⟨nofun, fun h => absurd h.1 hfree⟩

theorem Good.home_used (h : c.Good) (hn : c.home n = some e) :
    c.isUsed e = true ∧ (c.cache e).name = n :=
  occ_some.mp ((h.placed n e).mp hn)

theorem good_invalidateAll (c : Cam) (hnum : 4 ≤ c.num) : c.invalidateAll.Good where
  four := hnum
  placed n e := by
    refine ⟨nofun, fun h => ?_⟩
    have hused := (occ_some.mp h).1
    unfold Cam.isUsed at hused
    exact absurd (Bool.and_eq_true_iff.mp hused).2 Bool.false_ne_true
  blank _ _ _ := rfl
  default _ _ h := nomatch h
  apart _ _ _ _ := Or.inl rfl
  hw := rfl

/-! ## 2. Clearing and filling an entry -/

/-- An entry is cleared and given up. -/
def freeEntry (c : Cam) (e : Nat) : Cam := (c.clearCamEntry e).camidFree e

theorem camidFree_clearCamEntry (c : Cam) (e : Nat) :
    (c.camidFree e).clearCamEntry e = c.freeEntry e := by
  unfold freeEntry Cam.camidFree
  show _ = if e < c.num then _ else _
  split <;> rfl

theorem freeEntry_eq (he : e < c.num) :
    c.freeEntry e =
      { c with
        used := Function.update c.used e false
        cache := Function.update c.cache e SecCamEnt.zero
        hw := Function.update c.hw e SecCamEnt.zero
        home := vacate c.home e } :=
  if_pos he

theorem sameChip_freeEntry (c : Cam) (e : Nat) : SameChip c (c.freeEntry e) := by
  unfold freeEntry Cam.camidFree
  split <;> exact ⟨rfl, rfl⟩

theorem isUsed_freeEntry (he : e < c.num) (x : Nat) :
    (c.freeEntry e).isUsed x = if x = e then false else c.isUsed x := by
  rw [freeEntry_eq he]
  show (decide (x < c.num) && Function.update c.used e false x) = _
  split
  · rename_i hx
    rw [hx, Function.update_self, Bool.and_false]
  · rename_i hx
    rw [Function.update_of_ne hx]
    rfl

theorem occ_freeEntry (he : e < c.num) :
    (c.freeEntry e).occ = Function.update c.occ e none := by
  funext x
  unfold occ
  rw [isUsed_freeEntry he]
  rcases eq_or_ne x e with rfl | hx
  · rw [if_pos rfl, Function.update_self]
    rfl
  · rw [if_neg hx, Function.update_of_ne hx, freeEntry_eq he]
    dsimp only
    rw [Function.update_of_ne hx]

theorem Good.freeEntry (h : c.Good) (he : e < c.num) : (c.freeEntry e).Good := by
  have hchip := sameChip_freeEntry c e
  have hhome : (c.freeEntry e).home = vacate c.home e := by rw [freeEntry_eq he]
  refine ⟨hchip.num ▸ h.four, ?_, ?_, ?_, ?_, ?_⟩
  · rw [occ_freeEntry he, hhome]
    exact h.placed.clear e
  · intro x hx hfree
    rw [hchip.num] at hx
    rw [isUsed_freeEntry he] at hfree
    rw [freeEntry_eq he]
    rcases eq_or_ne x e with rfl | hne
    · exact Function.update_self ..
    · rw [if_neg hne] at hfree
      exact (Function.update_of_ne hne _ _).trans (h.blank x hx hfree)
  · intro n' e' hn' hzero
    rw [hhome] at hn'
    exact h.default n' e' (vacate_some.mp hn').1 hzero
  · intro hbmc addr kid hne
    rw [hchip.chkBmc] at hbmc
    have hsub : ∀ n', c.home n' = none → (c.freeEntry e).home n' = none := by
      intro n' hnone
      rw [hhome]
      unfold vacate
      rw [hnone, if_neg nofun]
    exact (h.apart hbmc addr kid hne).imp (hsub _) (hsub _)
  · rw [freeEntry_eq he]
    dsimp only
    rw [h.hw]

/-- An entry is taken and written. -/
def fill (c : Cam) (e : Nat) (ctrl : BitVec 16) (mac : MacAddr) (key : List UInt8) : Cam :=
  { c with used := Function.update c.used e true }.writeCam e ctrl mac key

theorem sameChip_fill (c : Cam) (e : Nat) (ctrl : BitVec 16) (mac : MacAddr)
    (key : List UInt8) : SameChip c (c.fill e ctrl mac key) := ⟨rfl, rfl⟩

theorem isUsed_fill (he : e < c.num) (ctrl : BitVec 16) (mac : MacAddr) (key : List UInt8)
    (x : Nat) : (c.fill e ctrl mac key).isUsed x = if x = e then true else c.isUsed x := by
  show (decide (x < c.num) && Function.update c.used e true x) = _
  split
  · rename_i hx
    rw [hx, Function.update_self, decide_eq_true he]
    rfl
  · rename_i hx
    rw [Function.update_of_ne hx]
    rfl

theorem occ_fill (he : e < c.num) (ctrl : BitVec 16) (mac : MacAddr) (key : List UInt8) :
    (c.fill e ctrl mac key).occ =
      Function.update c.occ e (some (SecCamEnt.name ⟨ctrl, mac, key⟩)) := by
  funext x
  unfold occ
  rw [isUsed_fill he]
  rcases eq_or_ne x e with rfl | hx
  · rw [if_pos rfl, Function.update_self, if_pos rfl]
    exact congrArg (fun ent => some (SecCamEnt.name ent)) (Function.update_self ..)
  · rw [if_neg hx, Function.update_of_ne hx]
    show (if c.isUsed x then some (SecCamEnt.name (Function.update c.cache e _ x)) else none) = _
    rw [Function.update_of_ne hx]

/-- **A key is written to an entry that is free or its own**, is in no other, has a zero
address only if it is the default key of the entry, and has no namesake of the other kind. -/
theorem Good.fill (h : c.Good) (he : e < c.num) {ctrl : BitVec 16} {mac : MacAddr}
    {key : List UInt8} (hn : SecCamEnt.name ⟨ctrl, mac, key⟩ = n)
    (hplace : ∀ n', c.occ e = some n' → n' = n) (honly : ∀ e', c.home n = some e' → e' = e)
    (hdefault : n.addr = zeroAddr → n.gk = true ∧ n.kid = e ∧ e < 4)
    (hapart : c.chkBmc = false → n.addr ≠ zeroAddr → c.home { n with gk := !n.gk } = none) :
    (c.fill e ctrl mac key).Good := by
  have hhome : (c.fill e ctrl mac key).home = Function.update c.home n (some e) := hn ▸ rfl
  refine ⟨h.four, ?_, ?_, ?_, ?_, ?_⟩
  · rw [occ_fill he, hhome, hn]
    exact h.placed.put hplace honly
  · intro x hx hfree
    rw [isUsed_fill he] at hfree
    rcases eq_or_ne x e with rfl | hne
    · rw [if_pos rfl] at hfree
      cases hfree
    · rw [if_neg hne] at hfree
      exact (Function.update_of_ne hne _ _).trans (h.blank x hx hfree)
  · intro n' e' hn' hzero
    rw [hhome] at hn'
    rcases eq_or_ne n' n with rfl | hne
    · rw [Function.update_self] at hn'
      cases hn'
      exact hdefault hzero
    · rw [Function.update_of_ne hne] at hn'
      exact h.default n' e' hn' hzero
  · intro hbmc addr kid hne
    rw [hhome]
    by_cases ht : (⟨addr, kid, true⟩ : KeyName) = n
    · subst ht
      refine Or.inr ?_
      rw [Function.update_of_ne (by simp)]
      exact hapart hbmc hne
    · by_cases hf : (⟨addr, kid, false⟩ : KeyName) = n
      · subst hf
        refine Or.inl ?_
        rw [Function.update_of_ne (by simp)]
        exact hapart hbmc hne
      · rw [Function.update_of_ne ht, Function.update_of_ne hf]
        exact h.apart hbmc addr kid hne
  · show Function.update c.hw e _ = Function.update c.cache e _
    rw [h.hw]

/-! ## 3. Searching -/

/-- The entry has a key with this address, and with this key ID and kind as far as they are
asked for. -/
def Fits (n : KeyName) (addr : MacAddr) (kid : Option Nat) (gk : Option Bool) : Prop :=
  n.addr = addr ∧ (∀ k, kid = some k → k = n.kid) ∧ ∀ g, gk = some g → g = n.gk

/-- For an address that is not zero, only entries in use are found. -/
theorem Good.cacheChk_iff (h : c.Good) (he : e < c.num) (hne : addr ≠ zeroAddr)
    (kid : Option Nat) (gk : Option Bool) :
    c.cacheChk e (some addr) kid gk = true ↔ ∃ n, c.occ e = some n ∧ Fits n addr kid gk := by
  have hkid : kid.all (· = (c.cache e).kid) = true ↔ ∀ k, kid = some k → k = (c.cache e).kid := by
    cases kid <;> simp
  have hgk : gk.all (· = c.camidIsGk e) = true ↔ ∀ g, gk = some g → g = c.camidIsGk e := by
    cases gk <;> simp
  unfold Cam.cacheChk
  rw [Bool.and_eq_true_iff, Bool.and_eq_true_iff, hkid, hgk, Option.all_some, decide_eq_true_iff]
  unfold Cam.camidIsGk
  cases hused : c.isUsed e with
  | false =>
    rw [h.blank e he hused]
    refine ⟨fun hchk => absurd hchk.1.1 hne, ?_⟩
    rintro ⟨n, hn, -⟩
    rw [(occ_some.mp hn).1] at hused
    cases hused
  | true =>
    rw [Bool.true_and]
    constructor
    · rintro ⟨⟨haddr, hk⟩, hg⟩
      exact ⟨(c.cache e).name, occ_some.mpr ⟨hused, rfl⟩, haddr.symm, hk, hg⟩
    · rintro ⟨n, hn, haddr, hk, hg⟩
      obtain ⟨-, rfl⟩ := occ_some.mp hn
      exact ⟨⟨haddr.symm, hk⟩, hg⟩

/-- What a search finds. -/
theorem Good.camidSearch_some (h : c.Good) (hne : addr ≠ zeroAddr) {kid : Option Nat}
    {gk : Option Bool} (hs : c.camidSearch (some addr) kid gk = some e) :
    e < c.num ∧ ∃ n, c.home n = some e ∧ Fits n addr kid gk := by
  unfold Cam.camidSearch at hs
  have he := List.mem_range.mp (List.mem_of_find?_eq_some hs)
  have hchk := List.find?_some hs
  obtain ⟨n, hn, hfits⟩ := (h.cacheChk_iff he hne kid gk).mp hchk
  exact ⟨he, n, (h.placed n e).mpr hn, hfits⟩

/-- What a search misses is not live. -/
theorem Good.camidSearch_none (h : c.Good) (hne : addr ≠ zeroAddr) {kid : Option Nat}
    {gk : Option Bool} (hs : c.camidSearch (some addr) kid gk = none) (hfits : Fits n addr kid gk) :
    c.home n = none := by
  cases hn : c.home n with
  | none => rfl
  | some e =>
    have he := isUsed_lt (h.home_used hn).1
    have hno := List.find?_eq_none.mp hs e (List.mem_range.mpr he)
    exact absurd ((h.cacheChk_iff he hne kid gk).mpr ⟨n, (h.placed n e).mp hn, hfits⟩) hno

/-- A live key is the only one that is looked for under its name: group bits are looked at, or
there is no namesake. -/
theorem Good.only_fit (h : c.Good) {n' : KeyName} (hn : c.home n = some e) {e' : Nat}
    (hn' : c.home n' = some e') (hne : n.addr ≠ zeroAddr)
    (hfits : Fits n' n.addr (some n.kid) (if c.chkBmc then some n.gk else none)) : n' = n := by
  obtain ⟨haddr, hkid, hgk⟩ := hfits
  obtain ⟨addr, kid, gk⟩ := n
  obtain ⟨addr', kid', gk'⟩ := n'
  have hk := hkid kid rfl
  dsimp only at haddr hk hgk hne
  subst haddr hk
  cases hbmc : c.chkBmc with
  | true =>
    rw [hbmc, if_pos rfl] at hgk
    rw [hgk gk rfl]
  | false =>
    have hapart := h.apart hbmc addr' kid hne
    rw [KeyName.mk.injEq]
    refine ⟨rfl, rfl, ?_⟩
    cases gk <;> cases gk'
    · rfl
    · exact absurd hapart (by rw [hn, hn']; simp)
    · exact absurd hapart (by rw [hn, hn']; simp)
    · rfl

/-- **A live key is found where it is.** -/
theorem Good.camidSearch_home (h : c.Good) (hn : c.home n = some e) (hne : n.addr ≠ zeroAddr) :
    c.camidSearch (some n.addr) (some n.kid) (if c.chkBmc then some n.gk else none) = some e := by
  cases hs : c.camidSearch (some n.addr) (some n.kid)
      (if c.chkBmc then some n.gk else none) with
  | none =>
    have hnone := h.camidSearch_none hne hs (n := n)
      ⟨rfl, fun k hk => (Option.some.inj hk).symm, fun g hg => ?_⟩
    · rw [hn] at hnone
      cases hnone
    · split at hg
      · exact (Option.some.inj hg).symm
      · cases hg
  | some e' =>
    obtain ⟨he', n', hn', hfits⟩ := h.camidSearch_some hne hs
    cases h.only_fit hn hn' hne hfits
    rw [← hn, ← hn']

/-- The entry that is found for a key, or a free one that is taken for it. -/
theorem Good.getCamid_cases (h : c.Good) (hne : addr ≠ zeroAddr) {pairwise : Bool}
    (hget : c.getCamid pairwise addr kid = some e) :
    e < c.num ∧
      ((∃ gk, c.home ⟨addr, kid, gk⟩ = some e ∧ (c.chkBmc = true → gk = !pairwise)) ∨
        (4 ≤ e ∧ c.isUsed e = false ∧
          ∀ gk, (c.chkBmc = true → gk = !pairwise) → c.home ⟨addr, kid, gk⟩ = none)) := by
  unfold Cam.getCamid at hget
  split at hget
  · rename_i i hs
    cases hget
    obtain ⟨he, n, hn, haddr, hkid, hgk⟩ := h.camidSearch_some hne hs
    refine ⟨he, Or.inl ⟨n.gk, ?_, fun hbmc => ?_⟩⟩
    · rw [← haddr, hkid kid rfl]
      exact hn
    · rw [hbmc, if_pos rfl] at hgk
      exact (hgk _ rfl).symm
  · rename_i hs
    have he := List.mem_range.mp (List.mem_of_find?_eq_some hget)
    have hfree := List.find?_some hget
    rw [Bool.and_eq_true_iff, decide_eq_true_iff, Bool.not_eq_true'] at hfree
    refine ⟨he, Or.inr ⟨hfree.1, hfree.2, fun gk hgk => h.camidSearch_none hne hs ⟨rfl, ?_, ?_⟩⟩⟩
    · exact fun k hk => (Option.some.inj hk).symm
    · intro g hg
      split at hg
      · rename_i hbmc
        rw [hgk hbmc]
        exact (Option.some.inj hg).symm
      · cases hg

/-! ## 4. Clearing loops -/

theorem Good.clearLoop {gk : Option Bool} {k : Nat} (h : c.Good)
    (hs : Cam.clearLoop addr gk k c = some c') : c'.Good ∧ SameChip c c' := by
  induction k generalizing c with
  | zero =>
    unfold Cam.clearLoop at hs
    split at hs
    · cases hs
      exact ⟨h, rfl, rfl⟩
    · cases hs
  | succ k ih =>
    unfold Cam.clearLoop at hs
    split at hs
    · cases hs
      exact ⟨h, rfl, rfl⟩
    · rename_i id hfound
      have hid := List.mem_range.mp (List.mem_of_find?_eq_some hfound)
      obtain ⟨hgood, hchip⟩ := ih (h.freeEntry hid) hs
      exact ⟨hgood, (sameChip_freeEntry c id).trans hchip⟩

/-- A cleared entry is not found again, unless zeros are looked for. -/
theorem cacheChk_freeEntry (he : e < c.num) {gk : Option Bool}
    (hz : addr ≠ zeroAddr ∨ gk = some true) :
    (fun i => (c.freeEntry e).cacheChk i (some addr) none gk) =
      Function.update (fun i => c.cacheChk i (some addr) none gk) e false := by
  funext x
  rcases eq_or_ne x e with rfl | hx
  · rw [Function.update_self]
    unfold Cam.cacheChk Cam.camidIsGk
    rw [isUsed_freeEntry he, if_pos rfl, freeEntry_eq he]
    simp only [Function.update_self, Bool.false_and]
    rcases hz with hne | rfl
    · have hno : decide (addr = SecCamEnt.zero.mac) = false := decide_eq_false hne
      rw [Option.all_some, hno, Bool.false_and, Bool.false_and]
    · simp
  · rw [Function.update_of_ne hx]
    unfold Cam.cacheChk Cam.camidIsGk
    rw [isUsed_freeEntry he, if_neg hx, freeEntry_eq he]
    simp only [Function.update_of_ne hx]

theorem clearLoop_isSome {gk : Option Bool} (hz : addr ≠ zeroAddr ∨ gk = some true) {k : Nat}
    (hk : (List.range c.num).countP (fun i => c.cacheChk i (some addr) none gk) ≤ k) :
    (Cam.clearLoop addr gk k c).isSome := by
  induction k generalizing c with
  | zero =>
    have hnone : c.camidSearch (some addr) none gk = none := by
      refine List.find?_eq_none.mpr fun i hi => ?_
      exact List.countP_eq_zero.mp (Nat.le_zero.mp hk) i hi
    unfold Cam.clearLoop
    rw [if_pos hnone]
    rfl
  | succ k ih =>
    unfold Cam.clearLoop
    split
    · rfl
    · rename_i id hfound
      have hid := List.mem_of_find?_eq_some hfound
      have hchk := List.find?_some hfound
      refine ih ?_
      show (List.range (c.freeEntry id).num).countP _ ≤ k
      have hcount := FlagCount.countP_update List.nodup_range hid
        (fun i => c.cacheChk i (some addr) none gk) false
      rw [← cacheChk_freeEntry (List.mem_range.mp hid) hz, hchk] at hcount
      rw [(sameChip_freeEntry c id).num]
      simp only [Bool.toNat_true, Bool.toNat_false] at hcount
      show (List.range c.num).countP (fun i => (c.freeEntry id).cacheChk i (some addr) none gk) ≤ k
      omega

/-- **The loops end**: each round frees an entry that is then not found any more. -/
theorem clearKeys_isSome (c : Cam) {gk : Option Bool} (hz : addr ≠ zeroAddr ∨ gk = some true) :
    (c.clearKeys addr gk).isSome := by
  refine clearLoop_isSome hz ?_
  have hle := List.countP_le_length (p := fun i => c.cacheChk i (some addr) none gk)
    (l := List.range c.num)
  rwa [List.length_range] at hle

theorem Good.clearKeys {gk : Option Bool} (h : c.Good) (hs : c.clearKeys addr gk = some c') :
    c'.Good ∧ SameChip c c' := h.clearLoop hs

/-! ## 5. The handlers -/

/-- A group key with this address and key ID is in the entry. -/
def HasGroupKey (c : Cam) (e : Nat) (addr : MacAddr) (kid : Nat) : Prop :=
  c.isUsed e = true ∧ (c.cache e).name = ⟨addr, kid, true⟩

instance (c : Cam) (e : Nat) (addr : MacAddr) (kid : Nat) :
    Decidable (c.HasGroupKey e addr kid) := inferInstanceAs (Decidable (_ ∧ _))

/-- A pairwise key is for a station the driver knows, with a key ID for WEP only, and does not
come while the station has a group key with that ID that the search could take for it. -/
structure StakeyOk (c : Cam) (p : SetStakeyParm) (sta : Option MacAddr) : Prop where
  addr : p.addr ≠ zeroAddr
  found : ∀ addr, sta = some addr → addr = p.addr
  algorithm : p.algorithm < 16
  keyid : p.keyid < 4
  wep : isWepEnc p.algorithm = true ∨ p.keyid = 0
  apart : p.algorithm ≠ noPrivacy → c.chkBmc = false → ∀ e, ¬c.HasGroupKey e p.addr p.keyid

/-- A group key has a key ID of the default keys.  An access point does not write it over the
group key of a network it was a station of, and a station does not find it among the default
keys. -/
structure SetkeyOk (c : Cam) (m : CamMode) (p : SetkeyParm) (sta : Option MacAddr) : Prop where
  found : ∀ addr, sta = some addr → addr = m.bssid
  algorithm : p.algorithm < 16
  keyid : p.keyid < 4
  master : m.master = true → c.camidIsGk p.keyid = true → (c.cache p.keyid).mac = zeroAddr
  bssid : m.master = false → m.assocSuccess = true → m.bssid ≠ zeroAddr
  behind : m.master = false → ∀ e < 4, ¬c.HasGroupKey e m.bssid p.keyid

theorem name_stakeyCtrl {algorithm keyid : Nat} (ha : algorithm < 16) (hk : keyid < 4)
    (mac : MacAddr) (key : List UInt8) :
    SecCamEnt.name ⟨stakeyCtrl algorithm keyid, mac, key⟩ = ⟨mac, keyid, false⟩ := by
  have hkid : ∀ a < 16, ∀ k < 4, (stakeyCtrl a k &&& 0x0003).toNat = k := by decide
  have hgk : ∀ a < 16, ∀ k < 4, (stakeyCtrl a k).getLsbD 6 = false := by decide
  exact congrArg₂ (KeyName.mk mac) (hkid _ ha _ hk) (hgk _ ha _ hk)

theorem name_groupkeyCtrl {algorithm keyid : Nat} (ha : algorithm < 16) (hk : keyid < 4)
    (mac : MacAddr) (key : List UInt8) :
    SecCamEnt.name ⟨groupkeyCtrl algorithm keyid, mac, key⟩ = ⟨mac, keyid, true⟩ := by
  have hkid : ∀ a < 16, ∀ k < 4, (groupkeyCtrl a k &&& 0x0003).toNat = k := by decide
  have hgk : ∀ a < 16, ∀ k < 4, (groupkeyCtrl a k).getLsbD 6 = true := by decide
  exact congrArg₂ (KeyName.mk mac) (hkid _ ha _ hk) (hgk _ ha _ hk)

/-- Taking an entry in use leaves the bitmap as it is. -/
theorem used_taken (hused : c.isUsed e = true) : Function.update c.used e true = c.used := by
  unfold Cam.isUsed at hused
  rw [← (Bool.and_eq_true_iff.mp hused).2, Function.update_eq_self]

theorem Good.ofFlags (h : c.Good) (f : Bool) : { c with disBmcSearch := f }.Good :=
  ⟨h.four, h.placed, h.blank, h.default, h.apart, h.hw⟩

/-- The loop ends and keeps the table in order. -/
theorem Good.clearAll {gk : Option Bool} (h : c.Good) (hz : addr ≠ zeroAddr ∨ gk = some true) :
    ∃ c', c.clearKeys addr gk = some c' ∧ c'.Good ∧ SameChip c c' := by
  obtain ⟨c', hc'⟩ := Option.isSome_iff_exists.mp (clearKeys_isSome c hz)
  exact ⟨c', hc', h.clearKeys hc'⟩

theorem camidAlloc_none {sta : Option MacAddr} (hpick : c.pickCamid m sta kid = none) :
    c.camidAlloc m sta kid = (c, none, false) := by
  unfold Cam.camidAlloc
  rw [hpick]

theorem camidAlloc_some {sta : Option MacAddr} (hpick : c.pickCamid m sta kid = some e) :
    c.camidAlloc m sta kid =
      ({ c with used := Function.update c.used e true }, some e, c.isUsed e) := by
  unfold Cam.camidAlloc
  rw [hpick]

/-- The kind of the entry that is taken. -/
theorem camidIsGk_taken (he : e < c.num) :
    { c with used := Function.update c.used e true }.camidIsGk e = (c.cache e).gk := by
  unfold Cam.camidIsGk Cam.isUsed
  dsimp only
  rw [Function.update_self, decide_eq_true he]
  rfl

/-- The key is written to its entry once more. -/
theorem Good.fillOwn (h : c.Good) (hhome : c.home n = some e) {ctrl : BitVec 16} {mac : MacAddr}
    {key : List UInt8} (hn : SecCamEnt.name ⟨ctrl, mac, key⟩ = n) :
    (c.fill e ctrl mac key).Good := by
  obtain ⟨hused, hent⟩ := h.home_used hhome
  refine h.fill (isUsed_lt hused) hn ?_ ?_ (h.default n e hhome) ?_
  · intro n' hn'
    exact (occ_some.mp hn').2.symm.trans hent
  · intro e' he'
    rw [hhome] at he'
    exact (Option.some.inj he').symm
  · intro hbmc hne
    obtain ⟨addr, kid, gk⟩ := n
    have hapart := h.apart hbmc addr kid hne
    cases gk with
    | true => exact hapart.resolve_left (by rw [hhome]; exact nofun)
    | false => exact hapart.resolve_right (by rw [hhome]; exact nofun)

/-- A new key is written to a free entry. -/
theorem Good.fillFree (h : c.Good) (he : e < c.num) (hfree : c.isUsed e = false)
    {ctrl : BitVec 16} {mac : MacAddr} {key : List UInt8}
    (hn : SecCamEnt.name ⟨ctrl, mac, key⟩ = n) (hnew : c.home n = none)
    (hdefault : n.addr = zeroAddr → n.gk = true ∧ n.kid = e ∧ e < 4)
    (hapart : c.chkBmc = false → n.addr ≠ zeroAddr → c.home { n with gk := !n.gk } = none) :
    (c.fill e ctrl mac key).Good := by
  refine h.fill he hn ?_ ?_ hdefault hapart
  · intro n' hn'
    rw [(occ_some.mp hn').1] at hfree
    cases hfree
  · intro e' he'
    rw [hnew] at he'
    cases he'

/-- **A pairwise key goes to its entry or to a free one**, if it comes at the right time. -/
theorem Good.setStakey (h : c.Good) (m : CamMode) {p : SetStakeyParm} {sta : Option MacAddr}
    (hok : c.StakeyOk p sta) :
    ∃ c', c.setStakey m p sta = some c' ∧ c'.Good ∧ SameChip c c' := by
  unfold Cam.setStakey
  split
  · exact h.clearAll (Or.inl hok.addr)
  · rename_i halg
    cases sta with
    | none => exact ⟨c, rfl, h, rfl, rfl⟩
    | some addr =>
      cases hok.found addr rfl
      have hkid : (if isWepEnc p.algorithm = true then p.keyid else 0) = p.keyid := by
        split
        · rfl
        · rename_i hwep
          exact (hok.wep.resolve_left hwep).symm
      dsimp only
      rw [hkid]
      cases hget : c.getCamid true p.addr p.keyid with
      | none =>
        have hpick : c.pickCamid m (some p.addr) p.keyid = none := hget
        rw [camidAlloc_none hpick]
        exact ⟨c, rfl, h, rfl, rfl⟩
      | some e =>
        have hpick : c.pickCamid m (some p.addr) p.keyid = some e := hget
        have hname := name_stakeyCtrl hok.algorithm hok.keyid p.addr p.key
        obtain ⟨he, hcases⟩ := h.getCamid_cases hok.addr hget
        rw [camidAlloc_some hpick]
        dsimp only
        rw [camidIsGk_taken he]
        rcases hcases with ⟨gk, hhome, hgk⟩ | ⟨-, hfree, hnone⟩
        · obtain ⟨hused, hent⟩ := h.home_used hhome
          have hpair : gk = false := by
            cases gk with
            | false => rfl
            | true =>
              cases hbmc : c.chkBmc with
              | true => exact hgk hbmc
              | false => exact absurd ⟨hused, hent⟩ (hok.apart halg hbmc e)
          subst hpair
          have hkind : (c.cache e).gk = false := congrArg KeyName.gk hent
          rw [hkind, Bool.and_false, if_neg Bool.false_ne_true]
          exact ⟨_, rfl, h.fillOwn hhome hname, rfl, rfl⟩
        · rw [hfree, Bool.false_and, if_neg Bool.false_ne_true]
          have hnew : c.home ⟨p.addr, p.keyid, false⟩ = none := hnone false fun _ => rfl
          refine ⟨_, rfl, ?_, rfl, rfl⟩
          refine h.fillFree he hfree hname hnew (fun hz => absurd hz hok.addr) ?_
          intro hbmc _
          refine hnone true fun hbmc' => ?_
          rw [hbmc] at hbmc'
          cases hbmc'

/-- The entry of a group key: there is a pairwise key in it, or the group key can be written. -/
theorem Good.groupEntry (h : c.Good) {p : SetkeyParm} {sta : Option MacAddr}
    (hok : c.SetkeyOk m p sta) (hpick : c.pickCamid m none p.keyid = some e) :
    e < c.num ∧ ((c.isUsed e = true ∧ (c.cache e).gk = false) ∨
      (c.fill e (groupkeyCtrl p.algorithm p.keyid) (m.groupAddr e) p.key).Good) := by
  have hname := fun mac => name_groupkeyCtrl hok.algorithm hok.keyid mac p.key
  unfold Cam.pickCamid at hpick
  dsimp only at hpick
  cases hmaster : m.master with
  | true =>
    rw [hmaster, if_pos rfl, if_neg (Nat.not_lt.mpr (Nat.le_of_lt_succ hok.keyid))] at hpick
    cases hpick
    have he : p.keyid < c.num := Nat.lt_of_lt_of_le hok.keyid h.four
    have hzero : m.groupAddr p.keyid = zeroAddr :=
      if_pos (Nat.le_of_lt_succ hok.keyid)
    rw [hzero]
    refine ⟨he, ?_⟩
    have hdefault : ∀ e', c.home ⟨zeroAddr, p.keyid, true⟩ = some e' → e' = p.keyid :=
      fun e' he' => (h.default _ e' he' rfl).2.1.symm
    cases hgk : c.camidIsGk p.keyid with
    | true =>
      obtain ⟨hused, hbit⟩ := Bool.and_eq_true_iff.mp hgk
      have hmac := hok.master hmaster hgk
      have hocc : c.occ p.keyid = some ⟨zeroAddr, (c.cache p.keyid).kid, true⟩ := by
        refine occ_some.mpr ⟨hused, ?_⟩
        unfold SecCamEnt.name
        rw [hmac, hbit]
      have hhome := (h.placed _ _).mpr hocc
      rw [show (c.cache p.keyid).kid = p.keyid from (h.default _ _ hhome rfl).2.1] at hhome
      exact Or.inr (h.fillOwn hhome (hname _))
    | false =>
      cases hused : c.isUsed p.keyid with
      | true =>
        unfold Cam.camidIsGk at hgk
        rw [hused, Bool.true_and] at hgk
        exact Or.inl ⟨rfl, hgk⟩
      | false =>
        have hnew : c.home ⟨zeroAddr, p.keyid, true⟩ = none := by
          cases hhome : c.home ⟨zeroAddr, p.keyid, true⟩ with
          | none => rfl
          | some e' =>
            have hlive := (h.home_used hhome).1
            rw [hdefault e' hhome, hused] at hlive
            cases hlive
        exact Or.inr (h.fillFree he hused (hname _) hnew (fun _ => ⟨rfl, rfl, hok.keyid⟩)
          fun _ hne => absurd rfl hne)
  | false =>
    rw [hmaster, if_neg Bool.false_ne_true] at hpick
    cases hassoc : m.assocSuccess with
    | false =>
      rw [hassoc, if_neg Bool.false_ne_true] at hpick
      cases hpick
    | true =>
      rw [hassoc, if_pos rfl] at hpick
      have hne := hok.bssid hmaster hassoc
      have hbssid : 4 ≤ e → m.groupAddr e = m.bssid := by
        intro h4
        unfold CamMode.groupAddr
        rw [if_neg (by omega), hmaster, if_neg Bool.false_ne_true]
      obtain ⟨he, ⟨gk, hhome, -⟩ | ⟨h4, hfree, hnone⟩⟩ := h.getCamid_cases hne hpick
      · obtain ⟨hused, hent⟩ := h.home_used hhome
        refine ⟨he, ?_⟩
        cases gk with
        | false => exact Or.inl ⟨hused, congrArg KeyName.gk hent⟩
        | true =>
          have h4 : 4 ≤ e :=
            Nat.le_of_not_lt fun hlt => hok.behind hmaster e hlt ⟨hused, hent⟩
          rw [hbssid h4]
          exact Or.inr (h.fillOwn hhome (hname _))
      · rw [hbssid h4]
        refine ⟨he, Or.inr ?_⟩
        have hnew : c.home ⟨m.bssid, p.keyid, true⟩ = none := hnone true fun _ => rfl
        refine h.fillFree he hfree (hname _) hnew (fun hz => absurd hz hne) ?_
        intro hbmc _
        refine hnone false fun hbmc' => ?_
        rw [hbmc] at hbmc'
        cases hbmc'

/-- **A group key goes to its entry or to a free one**; where an entry has a pairwise key, it is
not written. -/
theorem Good.setKey (h : c.Good) {p : SetkeyParm} {sta : Option MacAddr}
    (hok : c.SetkeyOk m p sta) :
    ∃ c', c.setKey m p sta = some c' ∧ c'.Good ∧ SameChip c c' := by
  unfold Cam.setKey
  cases hpick : c.pickCamid m none p.keyid with
  | none =>
    rw [camidAlloc_none hpick]
    exact ⟨c, rfl, h, rfl, rfl⟩
  | some e =>
    obtain ⟨he, hentry⟩ := h.groupEntry hok hpick
    rw [camidAlloc_some hpick]
    dsimp only
    rw [camidIsGk_taken he]
    split
    · rename_i hpair
      have hused := (Bool.and_eq_true_iff.mp hpair).1
      rw [used_taken hused]
      obtain ⟨c', hc', hgood, hchip⟩ := (h.ofFlags true).clearAll (Or.inr rfl)
      exact ⟨c', hc', hgood, hchip.num, hchip.chkBmc⟩
    · rename_i hpair
      have hgood : (c.fill e (groupkeyCtrl p.algorithm p.keyid) (m.groupAddr e) p.key).Good := by
        refine hentry.resolve_left fun hno => hpair ?_
        rw [hno.1, hno.2]
        rfl
      split
      · rename_i hwep
        rw [Bool.and_eq_true_iff, Bool.and_eq_true_iff] at hwep
        obtain ⟨⟨hwep, hrole⟩, hbmc⟩ := hwep
        have hmaster : m.master = false := by
          unfold CamMode.master
          rw [of_decide_eq_true hrole]
          rfl
        have hassoc : m.assocSuccess = true := by
          unfold Cam.pickCamid at hpick
          rw [hmaster] at hpick
          by_contra hno
          rw [if_neg Bool.false_ne_true, if_neg hno] at hpick
          cases hpick
        have hbssid := hok.bssid hmaster hassoc
        have hsta : (c.fill e (groupkeyCtrl p.algorithm p.keyid) (m.groupAddr e) p.key).StakeyOk
            ⟨p.algorithm, p.keyid, p.key, m.bssid⟩ sta :=
          ⟨hbssid, hok.found, hok.algorithm, hok.keyid, Or.inl hwep,
            fun _ hno => nomatch hbmc.symm.trans hno⟩
        obtain ⟨c', hc', hgood', hchip⟩ := hgood.setStakey m hsta
        exact ⟨c', hc', hgood', hchip.num, hchip.chkBmc⟩
      · exact ⟨_, rfl, hgood, rfl, rfl⟩

/-! ## 6. Moving keys -/

/-- A free entry is blank already. -/
theorem Good.freeEntry_free (h : c.Good) (he : e < c.num) (hfree : c.isUsed e = false) :
    c.freeEntry e = c := by
  have hblank := h.blank e he hfree
  have hbit : c.used e = false := by
    unfold Cam.isUsed at hfree
    rwa [decide_eq_true he, Bool.true_and] at hfree
  have hhome : vacate c.home e = c.home := by
    funext n
    unfold vacate
    rw [if_neg fun hn => ?_]
    have hused := (h.home_used hn).1
    rw [hfree] at hused
    cases hused
  have hhw : Function.update c.hw e SecCamEnt.zero = c.hw := by
    rw [h.hw, ← hblank, Function.update_eq_self]
  have hcache : Function.update c.cache e SecCamEnt.zero = c.cache := by
    rw [← hblank, Function.update_eq_self]
  have hused : Function.update c.used e false = c.used := by
    rw [← hbit, Function.update_eq_self]
  rw [freeEntry_eq he, hhome, hhw, hcache, hused]

/-- **Swapping exchanges the two entries** and leaves the others as they are. -/
theorem Good.secCamSwap_eq (h : c.Good) {a b : Nat} (ha : a < c.num) (hb : b < c.num) :
    c.secCamSwap a b =
      { c with
        used := c.used ∘ Equiv.swap a b
        cache := c.cache ∘ Equiv.swap a b
        hw := c.hw ∘ Equiv.swap a b
        home := fun n => (c.home n).map (Equiv.swap a b) } := by
  by_cases hab : a = b
  · subst hab
    unfold Cam.secCamSwap
    rw [if_pos rfl]
    simp
  have hfirst : (if c.isUsed a then (c.camidFree a).clearCamEntry a else c) = c.freeEntry a := by
    split
    · exact camidFree_clearCamEntry c a
    · rename_i hfree
      exact (h.freeEntry_free ha (Bool.eq_false_of_not_eq_true hfree)).symm
  have hb' : b < (c.freeEntry a).num := (sameChip_freeEntry c a).num ▸ hb
  have hsecond : (if c.isUsed b then ((c.freeEntry a).camidFree b).clearCamEntry b
      else c.freeEntry a) = (c.freeEntry a).freeEntry b := by
    split
    · exact camidFree_clearCamEntry (c.freeEntry a) b
    · rename_i hfree
      refine ((h.freeEntry ha).freeEntry_free hb' ?_).symm
      rw [isUsed_freeEntry ha, if_neg (Ne.symm hab)]
      exact Bool.eq_false_of_not_eq_true hfree
  have hbit : ∀ e, e < c.num → c.isUsed e = c.used e := by
    intro e he
    unfold Cam.isUsed
    rw [decide_eq_true he, Bool.true_and]
  have hused := crossed c.used hab (c.isUsed a) (c.isUsed b)
    (fun hfree => (hbit a ha) ▸ hfree) (fun hfree => (hbit b hb) ▸ hfree)
  have hcache := crossed c.cache hab (c.isUsed a) (c.isUsed b) (h.blank a ha) (h.blank b hb)
  have hhw := crossed c.hw hab (c.isUsed a) (c.isUsed b)
    (fun hfree => h.hw ▸ h.blank a ha hfree) (fun hfree => h.hw ▸ h.blank b hb hfree)
  have hhome := h.placed.crossed a b
  unfold Cam.secCamSwap
  rw [if_neg hab]
  dsimp only
  rw [hfirst, hsecond, freeEntry_eq hb', freeEntry_eq ha]
  rw [← hused, ← hcache, ← hhw, ← hhome]
  unfold occ Cam.writeCam Cam.camidSet
  rw [hbit a ha, hbit b hb]
  cases hua : c.used a <;> cases hub : c.used b
  all_goals simp [ha, hb, h.hw]

theorem sameChip_secCamSwap (h : c.Good) {a b : Nat} (ha : a < c.num) (hb : b < c.num) :
    SameChip c (c.secCamSwap a b) := by
  rw [h.secCamSwap_eq ha hb]
  exact ⟨rfl, rfl⟩

theorem swap_lt {a b k : Nat} (ha : a < k) (hb : b < k) (e : Nat) :
    Equiv.swap a b e < k ↔ e < k := by
  rw [Equiv.swap_apply_def]
  split
  · rename_i hea
    exact ⟨fun _ => hea ▸ ha, fun _ => hb⟩
  · split
    · rename_i heb
      exact ⟨fun _ => heb ▸ hb, fun _ => ha⟩
    · exact Iff.rfl

theorem Good.isUsed_secCamSwap (h : c.Good) {a b : Nat} (ha : a < c.num) (hb : b < c.num)
    (e : Nat) : (c.secCamSwap a b).isUsed e = c.isUsed (Equiv.swap a b e) := by
  rw [h.secCamSwap_eq ha hb]
  unfold Cam.isUsed
  rw [decide_eq_decide.mpr (swap_lt ha hb e)]
  rfl

theorem Good.occ_secCamSwap (h : c.Good) {a b : Nat} (ha : a < c.num) (hb : b < c.num) :
    (c.secCamSwap a b).occ = c.occ ∘ Equiv.swap a b := by
  funext e
  unfold occ
  rw [h.isUsed_secCamSwap ha hb, h.secCamSwap_eq ha hb]
  rfl

/-- There is a default key in the entry. -/
def HasDefaultKey (c : Cam) (e : Nat) : Prop := c.isUsed e = true ∧ (c.cache e).mac = zeroAddr

/-- What the entries of other keys are exchanged with does not matter, as long as no default key
moves. -/
theorem Good.secCamSwap (h : c.Good) {a b : Nat} (ha : a < c.num) (hb : b < c.num)
    (hstay : a ≠ b → ¬c.HasDefaultKey a ∧ ¬c.HasDefaultKey b) : (c.secCamSwap a b).Good := by
  have hself : ∀ e, Equiv.swap a b (Equiv.swap a b e) = e := fun e => Equiv.swap_apply_self a b e
  have hhome : (c.secCamSwap a b).home = fun n => (c.home n).map (Equiv.swap a b) := by
    rw [h.secCamSwap_eq ha hb]
  have hchip := sameChip_secCamSwap h ha hb
  refine ⟨hchip.num ▸ h.four, ?_, ?_, ?_, ?_, ?_⟩
  · rw [h.occ_secCamSwap ha hb, hhome]
    exact h.placed.permute _ hself
  · intro e he hfree
    rw [hchip.num] at he
    rw [h.isUsed_secCamSwap ha hb] at hfree
    rw [h.secCamSwap_eq ha hb]
    exact h.blank _ ((swap_lt ha hb e).mpr he) hfree
  · intro n e hn hzero
    rw [hhome, Option.map_eq_some_iff] at hn
    obtain ⟨e', he', rfl⟩ := hn
    obtain ⟨hused, hent⟩ := h.home_used he'
    have hkey : c.HasDefaultKey e' := ⟨hused, (congrArg KeyName.addr hent).trans hzero⟩
    have hfix : Equiv.swap a b e' = e' := by
      by_cases hab : a = b
      · rw [hab, Equiv.swap_self]
        rfl
      · refine Equiv.swap_apply_of_ne_of_ne ?_ ?_
        · rintro rfl
          exact (hstay hab).1 hkey
        · rintro rfl
          exact (hstay hab).2 hkey
    rw [hfix]
    exact h.default n e' he' hzero
  · intro hbmc addr kid hne
    rw [hchip.chkBmc] at hbmc
    rw [hhome]
    have hmap : ∀ n, c.home n = none → (c.home n).map (Equiv.swap a b) = none := by
      intro n hn
      rw [hn]
      rfl
    exact (h.apart hbmc addr kid hne).imp (hmap _) (hmap _)
  · rw [h.secCamSwap_eq ha hb]
    dsimp only
    rw [h.hw]

theorem getEmptyCamEntry_some {s : Nat} (hs : c.getEmptyCamEntry s = some e) :
    s ≤ e ∧ e < c.num ∧ c.isUsed e = false := by
  unfold Cam.getEmptyCamEntry at hs
  have he := List.mem_range.mp (List.mem_of_find?_eq_some hs)
  have hfree := List.find?_some hs
  rw [Bool.and_eq_true_iff, decide_eq_true_iff, Bool.not_eq_true'] at hfree
  exact ⟨hfree.1, he, hfree.2⟩

/-- Behind the default keys there is nothing that must stay where it is. -/
theorem Good.cleanDk (h : c.Good) {i : Nat} (hi : i < 4) (hstay : ∀ e < 4, ¬c.HasDefaultKey e) :
    (c.cleanDk i).Good ∧ SameChip c (c.cleanDk i) ∧ ∀ e < 4, ¬(c.cleanDk i).HasDefaultKey e := by
  have hskip : c.Good ∧ SameChip c c ∧ ∀ e < 4, ¬c.HasDefaultKey e := ⟨h, ⟨rfl, rfl⟩, hstay⟩
  unfold Cam.cleanDk
  split
  · split
    · rename_i id hempty
      obtain ⟨h4, hid, hfree⟩ := getEmptyCamEntry_some hempty
      have hi' : i < c.num := Nat.lt_of_lt_of_le hi h.four
      have hno : ¬c.HasDefaultKey id := fun hkey => nomatch hfree.symm.trans hkey.1
      rw [if_pos (Nat.lt_of_lt_of_le (by decide) h4)]
      refine ⟨h.secCamSwap hi' hid fun _ => ⟨hstay i hi, hno⟩, sameChip_secCamSwap h hi' hid, ?_⟩
      rintro e he ⟨hused, hmac⟩
      rw [h.isUsed_secCamSwap hi' hid] at hused
      rw [h.secCamSwap_eq hi' hid] at hmac
      have hkey : c.HasDefaultKey (Equiv.swap i id e) := ⟨hused, hmac⟩
      rcases eq_or_ne e i with rfl | hne
      · rw [Equiv.swap_apply_left] at hkey
        exact hno hkey
      · rw [Equiv.swap_apply_of_ne_of_ne hne (by omega)] at hkey
        exact hstay e he hkey
    · exact hskip
  · exact hskip

theorem Good.cleanDkSection (h : c.Good) (hstay : ∀ e < 4, ¬c.HasDefaultKey e) :
    c.cleanDkSection.Good ∧ SameChip c c.cleanDkSection := by
  have hfold : ∀ (l : List Nat) (c : Cam), (∀ i ∈ l, i < 4) → c.Good →
      (∀ e < 4, ¬c.HasDefaultKey e) →
      (l.foldl Cam.cleanDk c).Good ∧ SameChip c (l.foldl Cam.cleanDk c) := by
    intro l
    induction l with
    | nil => exact fun c _ h _ => ⟨h, rfl, rfl⟩
    | cons i l ih =>
      intro c hl h hstay
      obtain ⟨hgood, hchip, hstay'⟩ := h.cleanDk (hl i List.mem_cons_self) hstay
      obtain ⟨hgood', hchip'⟩ :=
        ih (c.cleanDk i) (fun j hj => hl j (List.mem_cons_of_mem i hj)) hgood hstay'
      exact ⟨hgood', hchip.trans hchip'⟩
  exact hfold (List.range 4) c (fun i hi => List.mem_range.mp hi) h hstay

end Cam

/-! ## 7. Runs -/

/-- What the callers know, and the table. -/
structure CamWorld where
  mode : CamMode
  cam : Cam

/-- What the driver does with the table. -/
inductive CamEvent
  | mode (m : CamMode)
  | setStakey (p : SetStakeyParm) (sta : Option MacAddr)
  | setKey (p : SetkeyParm) (sta : Option MacAddr)
  | free (id : Nat)
  | swap (a b : Nat)
  | cleanDk
  | invalidate

/-- One event; `none` stands for a loop that does not end. -/
def CamWorld.step (w : CamWorld) : CamEvent → Option CamWorld
  | .mode m => some { w with mode := m }
  | .setStakey p sta => (w.cam.setStakey w.mode p sta).map (CamWorld.mk w.mode)
  | .setKey p sta => (w.cam.setKey w.mode p sta).map (CamWorld.mk w.mode)
  | .free id => some { w with cam := (w.cam.clearCamEntry id).camidFree id }
  | .swap a b => some { w with cam := w.cam.secCamSwap a b }
  | .cleanDk => some { w with cam := w.cam.cleanDkSection }
  | .invalidate => some { w with cam := w.cam.invalidateAll }

/-- The event comes at the right time: no pairwise key while the search could take a group key
for it, no group key over another, and the default keys stay where they are. -/
def CamWorld.InTime (w : CamWorld) : CamEvent → Prop
  | .mode _ => True
  | .setStakey p sta => w.cam.StakeyOk p sta
  | .setKey p sta => w.cam.SetkeyOk w.mode p sta
  | .free id => id < w.cam.num
  | .swap a b => a < w.cam.num ∧ b < w.cam.num ∧
      (a ≠ b → ¬w.cam.HasDefaultKey a ∧ ¬w.cam.HasDefaultKey b)
  | .cleanDk => ∀ e < 4, ¬w.cam.HasDefaultKey e
  | .invalidate => True

/-- Events one after the other, each in time. -/
inductive CamRun (w₀ : CamWorld) : CamWorld → Prop
  | start : CamRun w₀ w₀
  | step {w w' : CamWorld} (hrun : CamRun w₀ w) (ev : CamEvent) (hin : w.InTime ev)
      (hstep : w.step ev = some w') : CamRun w₀ w'

/-- The key that is asked for. -/
def CamMode.asks (m : CamMode) (sta : Option MacAddr) (kid : Nat) : Option KeyName :=
  match sta with
  | some addr => some ⟨addr, kid, false⟩
  | none =>
    if m.master then if kid > 3 then none else some ⟨zeroAddr, kid, true⟩
    else if m.assocSuccess ∧ m.bssid ≠ zeroAddr then some ⟨m.bssid, kid, true⟩ else none

/-- Live keys are kept apart. -/
structure CamWorld.KeysApart (w : CamWorld) : Prop where
  apart : ∀ n n' e, w.cam.home n = some e → w.cam.home n' = some e → n = n'
  again : ∀ sta kid n e, w.mode.asks sta kid = some n → w.cam.home n = some e →
    (w.cam.camidAlloc w.mode sta kid).2 = (some e, true)
  free : ∀ e, w.cam.isUsed e = false → ∀ n, w.cam.home n ≠ some e
  written : ∀ n e, w.cam.home n = some e → (w.cam.hw e).name = n
  swap : ∀ a b, a < w.cam.num → b < w.cam.num →
    (∀ e, (w.cam.secCamSwap a b).isUsed e = w.cam.isUsed (Equiv.swap a b e) ∧
      (w.cam.secCamSwap a b).cache e = w.cam.cache (Equiv.swap a b e) ∧
      (w.cam.secCamSwap a b).hw e = w.cam.hw (Equiv.swap a b e)) ∧
    ∀ n, ((w.cam.secCamSwap a b).home n).isSome = (w.cam.home n).isSome

namespace Cam

variable {c : Cam} {m : CamMode} {n : KeyName} {e : Nat} {kid : Nat}

/-- **Asking for a live key again gives its own entry.** -/
theorem Good.camidAlloc_home (h : c.Good) {sta : Option MacAddr}
    (hasks : m.asks sta kid = some n) (hn : c.home n = some e) :
    (c.camidAlloc m sta kid).2 = (some e, true) := by
  have hused := (h.home_used hn).1
  have hpick : c.pickCamid m sta kid = some e := by
    unfold CamMode.asks at hasks
    unfold Cam.pickCamid
    cases sta with
    | some addr =>
      cases hasks
      have hne : addr ≠ zeroAddr := fun hz => nomatch (h.default _ e hn hz).1
      unfold Cam.getCamid
      dsimp only
      rw [show c.camidSearch (some addr) (some kid) (if c.chkBmc then some !true else none) = some e
        from h.camidSearch_home hn hne]
    | none =>
      dsimp only at hasks ⊢
      split at hasks
      · rename_i hmaster
        rw [if_pos hmaster]
        split at hasks
        · cases hasks
        · rename_i hkid
          cases hasks
          rw [if_neg hkid]
          exact congrArg some (h.default _ e hn rfl).2.1
      · rename_i hmaster
        split at hasks
        · rename_i hassoc
          cases hasks
          rw [if_neg hmaster, if_pos hassoc.1]
          unfold Cam.getCamid
          rw [show c.camidSearch (some m.bssid) (some kid) (if c.chkBmc then some !false else none)
            = some e from h.camidSearch_home hn hassoc.2]
        · cases hasks
  rw [camidAlloc_some hpick, hused]

theorem Good.keysApart {w : CamWorld} (h : w.cam.Good) : w.KeysApart := by
  refine ⟨fun n n' e hn hn' => h.placed.inj hn hn', fun sta kid n e => h.camidAlloc_home, ?_, ?_,
    ?_⟩
  · intro e hfree n hn
    exact nomatch hfree.symm.trans (h.home_used hn).1
  · intro n e hn
    rw [h.hw]
    exact (h.home_used hn).2
  · intro a b ha hb
    refine ⟨fun e => ⟨h.isUsed_secCamSwap ha hb e, ?_⟩, fun n => ?_⟩
    · rw [h.secCamSwap_eq ha hb]
      exact ⟨rfl, rfl⟩
    · rw [h.secCamSwap_eq ha hb]
      exact Option.isSome_map ..

/-- An event in time keeps the table in order. -/
theorem Good.step {w : CamWorld} (h : w.cam.Good) (ev : CamEvent) (hin : w.InTime ev) :
    ∃ w', w.step ev = some w' ∧ w'.cam.Good := by
  cases ev with
  | mode m => exact ⟨_, rfl, h⟩
  | setStakey p sta =>
    obtain ⟨c', hc', hgood, -⟩ := h.setStakey w.mode hin
    exact ⟨⟨w.mode, c'⟩, congrArg (Option.map (CamWorld.mk w.mode)) hc', hgood⟩
  | setKey p sta =>
    obtain ⟨c', hc', hgood, -⟩ := h.setKey hin
    exact ⟨⟨w.mode, c'⟩, congrArg (Option.map (CamWorld.mk w.mode)) hc', hgood⟩
  | free id => exact ⟨_, rfl, h.freeEntry hin⟩
  | swap a b => exact ⟨_, rfl, h.secCamSwap hin.1 hin.2.1 hin.2.2⟩
  | cleanDk => exact ⟨_, rfl, (h.cleanDkSection hin).1⟩
  | invalidate => exact ⟨_, rfl, good_invalidateAll w.cam h.four⟩

end Cam

/-- **Live keys are kept apart, and every event ends**, as long as no pairwise key comes while
a group key of its address and key ID would be found for it, no group key is written over
another, and no default key is moved. -/
theorem live_keys_apart (c : Cam) (m : CamMode) (hnum : 4 ≤ c.num) {w : CamWorld}
    (hrun : CamRun ⟨m, c.invalidateAll⟩ w) :
    w.KeysApart ∧ ∀ ev, w.InTime ev → ∃ w', w.step ev = some w' := by
  have hgood : w.cam.Good := by
    induction hrun with
    | start => exact Cam.good_invalidateAll c hnum
    | step _ ev hin hstep ih =>
      obtain ⟨w', hw', hgood⟩ := ih.step ev hin
      rw [hstep] at hw'
      cases hw'
      exact hgood
  refine ⟨hgood.keysApart, fun ev hin => ?_⟩
  obtain ⟨w', hw', -⟩ := hgood.step ev hin
  exact ⟨w', hw'⟩

/-- The table of the chip, with nothing in it. -/
def emptyCam : Cam :=
  ⟨32, false, false, fun _ => false, fun _ => SecCamEnt.zero, fun _ => SecCamEnt.zero,
    fun _ => none⟩

/-- A station in the network of `02:00:00:00:00:01`. -/
def joined : CamMode := ⟨.station, true, ⟨2, 0, 0, 0, 0, 1⟩, ⟨2, 0, 0, 0, 0, 9⟩⟩

/-- The AES key of the access point. -/
def apKey : SetStakeyParm := ⟨encAes, 0, List.replicate 16 7, ⟨2, 0, 0, 0, 0, 1⟩⟩

/-- The pairwise key of the access point goes to the first entry behind the default keys. -/
theorem live_keys_apart_joined :
    ∃ w, CamWorld.step ⟨joined, emptyCam.invalidateAll⟩
        (.setStakey apKey (some apKey.addr)) = some w ∧
      w.cam.home ⟨apKey.addr, 0, false⟩ = some 4 ∧ w.KeysApart := by
  have hin : CamWorld.InTime ⟨joined, emptyCam.invalidateAll⟩
      (.setStakey apKey (some apKey.addr)) := by
    refine ⟨by decide, fun addr h => (Option.some.inj h).symm, by decide, by decide,
      Or.inr rfl, fun _ _ e h => ?_⟩
    have hbit := (Bool.and_eq_true_iff.mp h.1).2
    cases hbit
  exact ⟨_, rfl, by decide +kernel,
    (live_keys_apart emptyCam joined (by decide) (CamRun.start.step _ hin rfl)).1⟩

/-- A group key with key ID 0 comes before the pairwise key: the pairwise key is given its entry,
the entry is cleared, and the key of the next station is given the same entry. -/
def groupKeyFirst : List CamEvent :=
  [.setKey ⟨encAes, 0, List.replicate 16 1⟩ (some joined.bssid),
    .setStakey apKey (some apKey.addr),
    .setStakey ⟨encAes, 0, List.replicate 16 2, ⟨2, 0, 0, 0, 0, 2⟩⟩ (some ⟨2, 0, 0, 0, 0, 2⟩)]

/-- Two stations have their keys in one entry. -/
theorem keys_share_entry :
    ∃ w, groupKeyFirst.foldlM CamWorld.step ⟨joined, emptyCam.invalidateAll⟩ = some w ∧
      w.cam.home ⟨apKey.addr, 0, false⟩ = some 4 ∧
      w.cam.home ⟨⟨2, 0, 0, 0, 0, 2⟩, 0, false⟩ = some 4 ∧ ¬w.KeysApart := by
  refine ⟨_, rfl, by decide +kernel, by decide +kernel, fun h => ?_⟩
  have hsame := h.apart ⟨apKey.addr, 0, false⟩ ⟨⟨2, 0, 0, 0, 0, 2⟩, 0, false⟩ 4
    (by decide +kernel) (by decide +kernel)
  exact absurd hsame (by decide)

end Rtl8723bs
