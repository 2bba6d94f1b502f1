/-
# The table of scan results over a run

Beside the calls, a run sets and clears `fixed` flags, as joining and leaving do.  Three ways lead
out of what the table should be.  The entry that gives way when the pool is full is the oldest,
though `rtw_get_oldest_wlan_network` knows to pass over a fixed one.  With P2P on, an entry with the
address is written over by another SSID of that address, be it fixed or be there another entry of
that SSID, or is left as it is and the BSS scanned does not get into the table; with P2P off, a BSS
whose capability bits have changed gets a second entry.  And an entry that is freed while it is free
is counted once more, as `rtw_free_assoc_resources` does for an ad hoc master.
-/
import Mathlib.Data.Fintype.Card
import Rtl8723bs.Lib.Shelves
import Rtl8723bs.Mlme.ScanTable

namespace Rtl8723bs

/-! ## 1. What the table should be -/

/-- The same BSS: address and SSID. -/
structure SameBss (a b : WlanBssidEx) : Prop where
  address : a.macAddress = b.macAddress
  ssid : a.ssid = b.ssid

instance (a b : WlanBssidEx) : Decidable (SameBss a b) :=
  decidable_of_iff (a.macAddress = b.macAddress ∧ a.ssid = b.ssid)
    ⟨fun h => ⟨h.1, h.2⟩, fun h => ⟨h.1, h.2⟩⟩

namespace SameBss

variable {a b c : WlanBssidEx}

theorem refl (a : WlanBssidEx) : SameBss a a := ⟨rfl, rfl⟩

theorem symm (h : SameBss a b) : SameBss b a := ⟨h.1.symm, h.2.symm⟩

theorem trans (h : SameBss a b) (h' : SameBss b c) : SameBss a c := ⟨h.1.trans h'.1, h.2.trans h'.2⟩

end SameBss

namespace ScanTable

/-- The two lists. -/
def shelf (t : ScanTable) (scanned : Bool) : List BssSlot :=
  if scanned then t.scannedQueue else t.freeBssPool

/-- Some entry is of this BSS. -/
def Present (t : ScanTable) (target : WlanBssidEx) : Prop :=
  ∃ i ∈ t.scannedQueue, SameBss (t.slot i).network target

/-- There is an entry of this BSS, or room for one: a free slot, or an entry that is not fixed. -/
def Fits (t : ScanTable) (target : WlanBssidEx) : Prop :=
  t.Present target ∨ t.freeBssPool ≠ [] ∨ ∃ i ∈ t.scannedQueue, (t.slot i).fixed = false

/-- **The table is in order**: every slot is on exactly one of the lists, once, the counter counts the
entries, and no two entries are of one BSS. -/
structure Good (t : ScanTable) : Prop where
  kept : Shelves.Kept Set.univ t.shelf
  count : t.numOfScanned.toNat = t.scannedQueue.length
  distinct : ∀ i ∈ t.scannedQueue, ∀ j ∈ t.scannedQueue,
    SameBss (t.slot i).network (t.slot j).network → i = j

end ScanTable

/-! ## 2. Runs -/

/-- A call, or a change of a `fixed` flag. -/
inductive ScanOp
  | update (e : LinkEnv) (p2p : Bool) (now : UInt64) (target : WlanBssidEx)
  | freeNetwork (e : ScanTable.FreeEnv) (pnetwork : Option BssSlot) (isfreeall : Bool)
  | freeNetworkNolock (pnetwork : Option BssSlot)
  | freeNetworkQueue (e : ScanTable.FreeEnv) (isfreeall : Bool)
  | setFixed (i : BssSlot) (fixed : Bool)

namespace ScanTable

def step (t : ScanTable) : ScanOp → ScanTable
  | .update e p2p now target => t.updateScannedNetwork e p2p now target
  | .freeNetwork e pnetwork isfreeall => t.freeNetwork e pnetwork isfreeall
  | .freeNetworkNolock pnetwork => t.freeNetworkNolock pnetwork
  | .freeNetworkQueue e isfreeall => t.freeNetworkQueue e isfreeall
  | .setFixed i fixed => t.setSlot i { t.slot i with fixed := fixed }

/-- The states that calls lead to, each of them with `C` of the state before it. -/
inductive Run (C : ScanTable → ScanOp → Prop) : ScanTable → Prop
  | init : Run C rtwInitMlmePriv
  | step {t : ScanTable} {op : ScanOp} (h : Run C t) (hc : C t op) : Run C (t.step op)

/-- **What one call should do**: leave every fixed entry in the queue and of its BSS, and leave a
BSS that was scanned and fits the pool in the queue. -/
structure Proper (t : ScanTable) (op : ScanOp) : Prop where
  fixed : ∀ i ∈ t.scannedQueue, (t.slot i).fixed = true →
    i ∈ (t.step op).scannedQueue ∧ SameBss ((t.step op).slot i).network (t.slot i).network
  present : ∀ e p2p now target, op = .update e p2p now target → t.Fits target →
    (t.step op).Present target

/-- The slot is not one that is free already: it is in the queue, or nothing is done to it. -/
def FreeSafe (t : ScanTable) (pnetwork : Option BssSlot) : Prop :=
  ∀ i ∈ pnetwork, (t.slot i).fixed = false → i ∈ t.scannedQueue

/-- The entry that counts as one of the target is of its BSS; or it is not fixed, is written over, and
there is no other of that BSS; or it is left as it is and there is another.  Where no entry counts as
one, none is of the BSS, and a free slot is left or the oldest entry is not fixed. -/
def UpdateSafe (t : ScanTable) (p2p : Bool) (target : WlanBssidEx) : Prop :=
  match t.search p2p target t.scannedQueue none with
  | (some i, _) =>
    SameBss (t.slot i).network target ∨
      if updateIe (t.slot i).network target then
        (t.slot i).fixed = false ∧ ¬ t.Present target
      else t.Present target
  | (none, oldest) =>
    ¬ t.Present target ∧ (t.freeBssPool ≠ [] ∨ ∀ i ∈ oldest, (t.slot i).fixed = false)

/-- The call stays away from the three ways. -/
def Safe (t : ScanTable) : ScanOp → Prop
  | .update _ p2p _ target => t.UpdateSafe p2p target
  | .freeNetwork e pnetwork isfreeall =>
    (∀ i ∈ pnetwork, (!isfreeall && t.young e i) = false → t.FreeSafe pnetwork)
  | .freeNetworkNolock pnetwork => t.FreeSafe pnetwork
  | .freeNetworkQueue _ _ => True
  | .setFixed _ _ => True

/-! ## 3. Freeing -/

variable {t : ScanTable} {i j : BssSlot}

theorem Good.length_le (h : t.Good) : t.scannedQueue.length ≤ maxBssCnt := by
  have hnodup : t.scannedQueue.Nodup := h.kept.nodup true
  have hcard := hnodup.length_le_card
  rwa [Fintype.card_fin] at hcard

/-- An entry of the queue is given back. -/
theorem Good.giveBack (h : t.Good) (hi : i ∈ t.scannedQueue) : (t.giveBack i).Good where
  kept := by
    have hmove := h.kept.moveTo (Set.mem_univ i) false
    have hshelf : (t.giveBack i).shelf = fun p =>
        if p = false then (t.shelf p).filter (· ≠ i) ++ [i] else (t.shelf p).filter (· ≠ i) := by
      funext p
      cases p <;> rfl
    rwa [hshelf]
  count := by
    have hnodup : t.scannedQueue.Nodup := h.kept.nodup true
    have hlen : (t.scannedQueue.filter (· ≠ i)).length + 1 = t.scannedQueue.length := by
      have herase := List.length_erase_add_one hi
      rw [hnodup.erase_eq_filter] at herase
      have hsame : t.scannedQueue.filter (· != i) = t.scannedQueue.filter (· ≠ i) := by
        congr 1
        funext x
        rw [Bool.eq_iff_iff]
        simp
      rwa [hsame] at herase
    have hle := h.length_le
    have hcount := h.count
    have h128 : maxBssCnt = 128 := rfl
    change (t.numOfScanned - 1).toNat = (t.scannedQueue.filter (· ≠ i)).length
    have hone : (1 : UInt32) ≤ t.numOfScanned := by
      rw [UInt32.le_iff_toNat_le]
      change 1 ≤ t.numOfScanned.toNat
      omega
    rw [UInt32.toNat_sub_of_le _ _ hone]
    change t.numOfScanned.toNat - 1 = _
    omega
  distinct j hj k hk hsame :=
    h.distinct j (List.mem_of_mem_filter hj) k (List.mem_of_mem_filter hk) hsame

theorem giveBack_mem (hj : j ∈ t.scannedQueue) (hne : j ≠ i) :
    j ∈ (t.giveBack i).scannedQueue :=
  List.mem_filter.mpr ⟨hj, by simpa using hne⟩

theorem freeNetwork_slot (t : ScanTable) (e : FreeEnv) (p : Option BssSlot) (isfreeall : Bool) :
    (t.freeNetwork e p isfreeall).slot = t.slot := by
  unfold freeNetwork
  split
  · rfl
  · split
    · rfl
    · split <;> rfl

/-- An entry that is fixed, or is not the one to be freed, stays. -/
theorem freeNetwork_mem (e : FreeEnv) (isfreeall : Bool) (hj : j ∈ t.scannedQueue)
    (hne : j ≠ i ∨ (t.slot i).fixed = true) :
    j ∈ (t.freeNetwork e (some i) isfreeall).scannedQueue := by
  unfold freeNetwork
  dsimp only
  split
  · exact hj
  · rename_i hfixed
    split
    · exact hj
    · rcases hne with hne | hfix
      · exact giveBack_mem hj hne
      · exact absurd hfix hfixed

/-- A fixed entry is another one or the one to be freed is fixed. -/
theorem fixed_or_ne (hfix : (t.slot j).fixed = true) : j ≠ i ∨ (t.slot i).fixed = true := by
  by_cases hne : j = i
  · exact .inr (hne ▸ hfix)
  · exact .inl hne

theorem Good.freeNetwork (h : t.Good) (e : FreeEnv) (isfreeall : Bool) {p : Option BssSlot}
    (hsafe : ∀ i ∈ p, (!isfreeall && t.young e i) = false → t.FreeSafe p) :
    (t.freeNetwork e p isfreeall).Good := by
  unfold ScanTable.freeNetwork
  split
  · exact h
  · rename_i i
    split
    · exact h
    · rename_i hfixed
      split
      · exact h
      · rename_i hyoung
        have hfree := hsafe i rfl (Bool.eq_false_iff.mpr hyoung)
        exact h.giveBack (hfree i rfl (Bool.eq_false_iff.mpr hfixed))

/-- The walk of `_rtw_free_network_queue` over entries that are still in the queue. -/
theorem Good.freeEach (e : FreeEnv) (isfreeall : Bool) : ∀ {l : List BssSlot} {t : ScanTable},
    t.Good → l.Nodup → (∀ i ∈ l, i ∈ t.scannedQueue) →
    (l.foldl (fun t i => t.freeNetwork e (some i) isfreeall) t).Good ∧
    (l.foldl (fun t i => t.freeNetwork e (some i) isfreeall) t).slot = t.slot ∧
    ∀ j ∈ t.scannedQueue, (t.slot j).fixed = true →
      j ∈ (l.foldl (fun t i => t.freeNetwork e (some i) isfreeall) t).scannedQueue
  | [], _, h, _, _ => ⟨h, rfl, fun _ hj _ => hj⟩
  | i :: l, t, h, hnodup, hin => by
    have hi := hin i List.mem_cons_self
    have hfirst : (t.freeNetwork e (some i) isfreeall).Good :=
      h.freeNetwork e isfreeall fun _ _ _ j hj _ => Option.some.inj hj ▸ hi
    have hslot := freeNetwork_slot t e (some i) isfreeall
    have hrest : ∀ j ∈ l, j ∈ (t.freeNetwork e (some i) isfreeall).scannedQueue := by
      intro j hj
      have hne : j ≠ i := fun heq => (List.nodup_cons.mp hnodup).1 (heq ▸ hj)
      exact freeNetwork_mem e isfreeall (hin j (List.mem_cons_of_mem i hj)) (.inl hne)
    obtain ⟨hgood, hslots, hfixed⟩ := hfirst.freeEach e isfreeall (List.nodup_cons.mp hnodup).2 hrest
    refine ⟨hgood, hslots.trans hslot, fun j hj hfix => ?_⟩
    rw [List.foldl_cons]
    exact hfixed j (freeNetwork_mem e isfreeall hj (fixed_or_ne hfix)) (by rw [hslot]; exact hfix)

/-! ## 4. Updating -/

theorem older_cases (t : ScanTable) (oldest : Option BssSlot) (i : BssSlot) :
    t.older oldest i = i ∨ oldest = some (t.older oldest i) := by
  cases oldest with
  | none => exact .inl rfl
  | some o =>
    unfold older
    dsimp only
    split
    · exact .inl rfl
    · exact .inr rfl

/-- What the search finds: an entry, or none, and then `oldest` is an entry unless there is none. -/
theorem search_cases (t : ScanTable) (p2p : Bool) (target : WlanBssidEx) :
    ∀ (l : List BssSlot) (oldest : Option BssSlot),
      (∃ i o, t.search p2p target l oldest = (some i, o) ∧ i ∈ l) ∨
      ∃ o, t.search p2p target l oldest = (none, o) ∧
        (o = none → oldest = none ∧ l = []) ∧ ∀ v, o = some v → oldest = some v ∨ v ∈ l
  | [], oldest => .inr ⟨oldest, rfl, fun h => ⟨h, rfl⟩, fun _ hv => .inl hv⟩
  | i :: l, oldest => by
    unfold search
    split
    · exact .inl ⟨i, oldest, rfl, List.mem_cons_self⟩
    · rcases search_cases t p2p target l (some (t.older oldest i)) with
        ⟨k, o, hk, hmem⟩ | ⟨o, hk, hnone, hfrom⟩
      · exact .inl ⟨k, o, hk, List.mem_cons_of_mem i hmem⟩
      · refine .inr ⟨o, hk, fun h => absurd (hnone h).1 (Option.some_ne_none _), fun v hv => ?_⟩
        rcases hfrom v hv with hv | hv
        · rcases older_cases t oldest i with h | h
          · exact .inr (by rw [← Option.some.inj hv, h]; exact List.mem_cons_self)
          · exact .inl (h.trans hv)
        · exact .inr (List.mem_cons_of_mem i hv)

/-- An entry is filled with another record. -/
theorem setSlot_slot (t : ScanTable) (i : BssSlot) (n : WlanNetwork) (j : BssSlot) :
    (t.setSlot i n).slot j = if j = i then n else t.slot j := by
  unfold setSlot
  dsimp only
  rw [Function.update_apply]

/-- The lists and the counter are not touched where a slot is. -/
theorem Good.setSlot (h : t.Good) {n : WlanNetwork}
    (hdistinct : ∀ j ∈ t.scannedQueue, SameBss (t.slot j).network n.network → i ∈ t.scannedQueue →
      j = i) : (t.setSlot i n).Good where
  kept := h.kept
  count := h.count
  distinct j hj k hk hsame := by
    rw [setSlot_slot, setSlot_slot] at hsame
    by_cases hji : j = i
    · by_cases hki : k = i
      · rw [hji, hki]
      · rw [if_pos hji, if_neg hki] at hsame
        have hback : SameBss (t.slot k).network n.network := ⟨hsame.1.symm, hsame.2.symm⟩
        exact absurd (hdistinct k hk hback (hji ▸ hj)) hki
    · by_cases hki : k = i
      · rw [if_neg hji, if_pos hki] at hsame
        exact absurd (hdistinct j hj hsame (hki ▸ hk)) hji
      · rw [if_neg hji, if_neg hki] at hsame
        exact h.distinct j hj k hk hsame

@[simp] theorem rightChannel_same (b target : WlanBssidEx) :
    SameBss (rightChannel b) target ↔ SameBss b target := by
  unfold rightChannel
  split
  · exact ⟨fun h => ⟨h.1, h.2⟩, fun h => ⟨h.1, h.2⟩⟩
  · rfl

@[simp] theorem copyBssid_same (dst src target : WlanBssidEx) :
    SameBss (copyBssid dst src) target ↔ SameBss src target :=
  ⟨fun h => ⟨h.1, h.2⟩, fun h => ⟨h.1, h.2⟩⟩

/-- An update leaves the BSS of the entry or makes it the target's. -/
theorem updateNetwork_same (e : LinkEnv) (dst src target : WlanBssidEx) (ie : Bool) :
    SameBss (updateNetwork e dst src ie) target ↔ SameBss (if ie then src else dst) target := by
  unfold updateNetwork
  cases ie <;> exact ⟨fun h => ⟨h.1, h.2⟩, fun h => ⟨h.1, h.2⟩⟩

theorem Good.apart (h : t.Good) (hfree : i ∈ t.freeBssPool) : i ∉ t.scannedQueue :=
  fun hi => Bool.false_ne_true (h.kept.apart false true i hfree hi)

/-- A free slot becomes the last entry. -/
theorem Good.enter (h : t.Good) {t' : ScanTable} {rest : List BssSlot}
    (hfree : t.freeBssPool = i :: rest) (hslot : ∀ j, j ≠ i → t'.slot j = t.slot j)
    (hfree' : t'.freeBssPool = rest) (hscanned : t'.scannedQueue = t.scannedQueue ++ [i])
    (hnum : t'.numOfScanned = t.numOfScanned + 1)
    (hnew : ∀ j ∈ t.scannedQueue, ¬ SameBss (t.slot j).network (t'.slot i).network) : t'.Good := by
  have hi : i ∉ t.scannedQueue := h.apart (by rw [hfree]; exact List.mem_cons_self)
  have hne : ∀ j ∈ t.scannedQueue, j ≠ i := fun j hj heq => hi (heq ▸ hj)
  have hkept : Shelves.Kept Set.univ t'.shelf := by
    refine h.kept.rearrange [false, true] (by decide) (fun p hp => ?_) ?_
    · cases p <;> exact absurd (by decide) hp
    · change (t'.freeBssPool ++ (t'.scannedQueue ++ [])).Perm
        (t.freeBssPool ++ (t.scannedQueue ++ []))
      rw [hfree', hscanned, hfree, List.append_nil, List.append_nil, ← List.append_assoc,
        List.cons_append]
      exact List.perm_append_singleton i (rest ++ t.scannedQueue)
  refine ⟨hkept, ?_, ?_⟩
  · have hcount := h.count
    have hroom : t'.scannedQueue.length ≤ maxBssCnt := by
      have hnodup : t'.scannedQueue.Nodup := hkept.nodup true
      have hcard := hnodup.length_le_card
      rwa [Fintype.card_fin] at hcard
    have h128 : maxBssCnt = 128 := rfl
    rw [hscanned, List.length_append] at hroom ⊢
    rw [hnum, UInt32.toNat_add]
    change (t.numOfScanned.toNat + 1) % 2 ^ 32 = _
    simp only [List.length_cons, List.length_nil] at hroom ⊢
    omega
  · intro j hj k hk hsame
    rw [hscanned, List.mem_append, List.mem_singleton] at hj hk
    rcases hj with hj | rfl
    · rw [hslot j (hne j hj)] at hsame
      rcases hk with hk | rfl
      · rw [hslot k (hne k hk)] at hsame
        exact h.distinct j hj k hk hsame
      · exact absurd hsame (hnew j hj)
    · rcases hk with hk | rfl
      · rw [hslot k (hne k hk)] at hsame
        exact absurd hsame.symm (hnew k hk)
      · rfl

/-- **One scan** of a safe run leaves the table in order, and is proper. -/
theorem Good.update (h : t.Good) (e : LinkEnv) {p2p : Bool} (now : UInt64) {target : WlanBssidEx}
    (hsafe : t.UpdateSafe p2p target) :
    (t.updateScannedNetwork e p2p now target).Good ∧
    (∀ j ∈ t.scannedQueue, (t.slot j).fixed = true →
      j ∈ (t.updateScannedNetwork e p2p now target).scannedQueue ∧
      SameBss ((t.updateScannedNetwork e p2p now target).slot j).network (t.slot j).network) ∧
    (t.Fits target → (t.updateScannedNetwork e p2p now target).Present target) := by
  unfold UpdateSafe at hsafe
  unfold updateScannedNetwork
  rcases search_cases t p2p target t.scannedQueue none with
    ⟨i, o, hfound, hi⟩ | ⟨o, hnone, hlast, hfrom⟩
  · rw [hfound] at hsafe ⊢
    dsimp only at hsafe ⊢
    generalize hie : updateIe (t.slot i).network target = ie at hsafe ⊢
    -- what the entry becomes: of the target's BSS, or of its own
    have hbss : SameBss (updateNetwork e (t.slot i).network target ie)
        (if ie then target else (t.slot i).network) :=
      (updateNetwork_same e _ _ _ ie).mpr (SameBss.refl _)
    have hother : ∀ j ∈ t.scannedQueue,
        SameBss (t.slot j).network (if ie then target else (t.slot i).network) → j = i := by
      intro j hj hsame
      cases ie with
      | false => exact h.distinct j hj i hi hsame
      | true =>
        rcases hsafe with hsafe | hsafe
        · exact h.distinct j hj i hi (hsame.trans hsafe.symm)
        · exact absurd ⟨j, hj, hsame⟩ hsafe.2
    refine ⟨h.setSlot fun j hj hsame _ => hother j hj (hsame.trans hbss), fun j hj hfix => ?_,
      fun _ => ?_⟩
    · refine ⟨hj, ?_⟩
      rw [setSlot_slot]
      split
      · rename_i hji
        refine hbss.trans ?_
        cases ie with
        | false => exact hji ▸ (SameBss.refl _)
        | true =>
          rcases hsafe with hsafe | hsafe
          · exact hji ▸ hsafe.symm
          · exact absurd (hji ▸ hfix) (by rw [hsafe.1]; exact Bool.false_ne_true)
      · exact SameBss.refl _
    · have hself : SameBss (t.slot i).network target ∨ ie = true →
          (t.setSlot i { t.slot i with
            lastScanned := now
            network := updateNetwork e (t.slot i).network target ie }).Present target := by
        intro hcase
        refine ⟨i, hi, ?_⟩
        rw [setSlot_slot, if_pos rfl]
        refine hbss.trans ?_
        cases ie with
        | true => exact SameBss.refl _
        | false => exact hcase.resolve_right Bool.false_ne_true
      rcases hsafe with hsafe | hsafe
      · exact hself (.inl hsafe)
      · cases ie with
        | true => exact hself (.inr rfl)
        | false =>
          obtain ⟨j, hj, hsame⟩ := hsafe
          refine ⟨j, hj, ?_⟩
          rw [setSlot_slot]
          split
          · rename_i hji
            exact hbss.trans (hji ▸ hsame)
          · exact hsame
  · rw [hnone] at hsafe ⊢
    dsimp only at hsafe ⊢
    obtain ⟨habsent, hroom⟩ := hsafe
    split
    · rename_i hempty
      cases o with
      | none =>
        -- the pool is not empty, so both lists cannot be
        exfalso
        obtain ⟨p, hp⟩ := (h.kept.mem (0 : Fin 128)).mp (Set.mem_univ _)
        have hqueue := (hlast rfl).2
        cases p with
        | false =>
          change _ ∈ t.freeBssPool at hp
          rw [hempty] at hp
          exact absurd hp List.not_mem_nil
        | true =>
          change _ ∈ t.scannedQueue at hp
          rw [hqueue] at hp
          exact absurd hp List.not_mem_nil
      | some v =>
        have hv : v ∈ t.scannedQueue := (hfrom v rfl).resolve_left (by simp)
        have hloose := (hroom.resolve_left (fun hne => hne hempty)) v rfl
        have hbss : SameBss (rightChannel (copyBssid (t.slot v).network target)) target := by
          rw [rightChannel_same, copyBssid_same]
          exact SameBss.refl _
        refine ⟨h.setSlot fun j hj hsame _ => absurd ⟨j, hj, hsame.trans hbss⟩ habsent,
          fun j hj hfix => ⟨hj, ?_⟩, fun _ => ⟨v, hv, ?_⟩⟩
        · rw [setSlot_slot, if_neg]
          · exact SameBss.refl _
          · rintro rfl
            exact absurd hfix (by rw [hloose]; exact Bool.false_ne_true)
        · rw [setSlot_slot, if_pos rfl]
          exact hbss
    · rename_i hfree
      obtain ⟨i, rest, hpool⟩ := List.exists_cons_of_ne_nil hfree
      have hi : i ∉ t.scannedQueue := h.apart (by rw [hpool]; exact List.mem_cons_self)
      unfold allocNetwork
      rw [hpool]
      dsimp only
      generalize ht' : ScanTable.mk _ _ _ _ = t'
      have hslot : ∀ j, j ≠ i → t'.slot j = t.slot j := by
        intro j hne
        rw [← ht']
        change (ScanTable.setSlot _ i _).slot j = _
        rw [setSlot_slot, if_neg hne]
        exact Function.update_of_ne hne _ _
      have hbss : SameBss (t'.slot i).network target := by
        rw [← ht']
        change SameBss ((ScanTable.setSlot _ i _).slot i).network target
        rw [setSlot_slot, if_pos rfl, rightChannel_same, copyBssid_same]
        exact SameBss.refl _
      have hscanned : t'.scannedQueue = t.scannedQueue ++ [i] := by rw [← ht']
      refine ⟨h.enter hpool hslot (by rw [← ht']; rfl) hscanned (by rw [← ht']; rfl)
        fun j hj hsame => habsent ⟨j, hj, hsame.trans hbss⟩, fun j hj _ => ⟨?_, ?_⟩,
        fun _ => ⟨i, ?_, hbss⟩⟩
      · exact List.mem_append_left _ hj
      · have hsame : SameBss (t'.slot j).network (t.slot j).network := by
          rw [hslot j fun heq => hi (heq ▸ hj)]
          exact SameBss.refl _
        rwa [← ht'] at hsame
      · rw [hscanned]
        exact List.mem_append_right _ List.mem_cons_self

theorem good_init : rtwInitMlmePriv.Good where
  kept := by
    have hsingle : Shelves.Kept {x | x ∈ List.finRange maxBssCnt}
        (fun q => if q = false then List.finRange maxBssCnt else []) :=
      Shelves.kept_single (List.nodup_finRange maxBssCnt)
    have hshelf : rtwInitMlmePriv.shelf
        = fun q => if q = false then List.finRange maxBssCnt else [] := by
      funext q
      cases q <;> rfl
    have hall : {x | x ∈ List.finRange maxBssCnt} = Set.univ :=
      Set.eq_univ_of_forall List.mem_finRange
    rwa [hshelf, ← hall]
  count := rfl
  distinct i hi := absurd hi List.not_mem_nil

/-- **One step** of a safe run leaves the table in order, and is proper. -/
theorem Good.step (h : t.Good) {op : ScanOp} (hsafe : t.Safe op) :
    (t.step op).Good ∧ t.Proper op := by
  have hkeep : ∀ {i : BssSlot} {t' : ScanTable}, t'.slot = t.slot →
      SameBss (t'.slot i).network (t.slot i).network := by
    intro i t' hslot
    rw [hslot]
    exact SameBss.refl _
  cases op with
  | update e p2p now target =>
    obtain ⟨hgood, hfixed, hpresent⟩ := h.update e now hsafe
    refine ⟨hgood, hfixed, ?_⟩
    rintro _ _ _ _ hop hfits
    cases hop
    exact hpresent hfits
  | freeNetwork e p isfreeall =>
    refine ⟨h.freeNetwork e isfreeall hsafe, fun j hj hfix => ⟨?_, ?_⟩, nofun⟩
    · cases p with
      | none => exact hj
      | some i => exact freeNetwork_mem e isfreeall hj (fixed_or_ne hfix)
    · exact hkeep (freeNetwork_slot t e p isfreeall)
  | freeNetworkNolock p =>
    -- it does what the other function does with `isfreeall`
    let e : FreeEnv := ⟨0, fun _ => 0, false⟩
    have hsame : t.step (.freeNetworkNolock p) = t.freeNetwork e p true := by cases p <;> rfl
    refine ⟨?_, fun j hj hfix => ?_, nofun⟩
    · rw [hsame]
      exact h.freeNetwork e true fun _ _ _ => hsafe
    · rw [hsame]
      refine ⟨?_, hkeep (freeNetwork_slot t e p true)⟩
      cases p with
      | none => exact hj
      | some i => exact freeNetwork_mem e true hj (fixed_or_ne hfix)
  | freeNetworkQueue e isfreeall =>
    obtain ⟨hgood, hslot, hfixed⟩ :=
      h.freeEach e isfreeall (h.kept.nodup true) (fun _ hi => hi)
    exact ⟨hgood, fun j hj hfix => ⟨hfixed j hj hfix, hkeep hslot⟩, nofun⟩
  | setFixed i fixed =>
    have hsame : ∀ j, SameBss ((t.step (.setFixed i fixed)).slot j).network (t.slot j).network := by
      intro j
      change SameBss ((t.setSlot i _).slot j).network _
      rw [setSlot_slot]
      split
      · rename_i hji
        rw [hji]
        exact SameBss.refl _
      · exact SameBss.refl _
    refine ⟨h.setSlot fun j hj hbss hi => h.distinct j hj i hi hbss, fun j hj _ => ⟨hj, hsame j⟩,
      nofun⟩

theorem Good.run {t : ScanTable} (h : Run Safe t) : t.Good := by
  induction h with
  | init => exact good_init
  | step _ hc ih => exact (ih.step hc).1

end ScanTable

/-- **The table of scan results** is in order in every state of a safe run, and every safe call on
it is proper. -/
theorem scan_table_in_order {t : ScanTable} (h : ScanTable.Run ScanTable.Safe t) :
    t.Good ∧ ∀ op, t.Safe op → t.Proper op :=
  ⟨ScanTable.Good.run h, fun _ hsafe => ((ScanTable.Good.run h).step hsafe).2⟩

/-! ## 5. One address, two SSIDs -/

/-- The slot that is taken first. -/
def firstSlot : BssSlot := ⟨0, by decide⟩

/-- A probe response of one access point. -/
def probeRsp (ssid : List UInt8) : WlanBssidEx :=
  ⟨⟨0x02, 0, 0, 0, 0, 0x01⟩, 3, ssid, -40, 50, 60, 12, fun _ => 0⟩

/-- It is scanned. -/
def scanOf (p2p : Bool) (ssid : List UInt8) : ScanOp :=
  .update ⟨false, probeRsp ssid, 0, 0⟩ p2p 1 (probeRsp ssid)

namespace ScanTable

/-- Its SSID `a` was scanned, and the entry is fixed, as joining does. -/
def joinedOne : ScanTable := (rtwInitMlmePriv.step (scanOf false [0x61])).step (.setFixed firstSlot true)

theorem run_joinedOne {C : ScanTable → ScanOp → Prop} (h : C rtwInitMlmePriv (scanOf false [0x61]))
    (h' : C (rtwInitMlmePriv.step (scanOf false [0x61])) (.setFixed firstSlot true)) : Run C joinedOne :=
  .step (.step .init h) h'

end ScanTable

/-- A second scan of the same BSS leaves the fixed entry in its place. -/
theorem scan_table_rescanned :
    ScanTable.joinedOne.Good ∧ ScanTable.joinedOne.Proper (scanOf true [0x61]) := by
  have hempty : rtwInitMlmePriv.UpdateSafe false (probeRsp [0x61]) :=
    ⟨fun ⟨_, hi, _⟩ => absurd hi List.not_mem_nil, .inl (by decide +kernel)⟩
  obtain ⟨hgood, hproper⟩ := scan_table_in_order (ScanTable.run_joinedOne hempty trivial)
  refine ⟨hgood, hproper _ ?_⟩
  have hfound : (ScanTable.joinedOne.search true (probeRsp [0x61])
      ScanTable.joinedOne.scannedQueue none).1 = some firstSlot := by decide +kernel
  change ScanTable.joinedOne.UpdateSafe true (probeRsp [0x61])
  unfold ScanTable.UpdateSafe
  generalize ScanTable.joinedOne.search true (probeRsp [0x61]) _ none = r at hfound
  obtain ⟨_, o⟩ := r
  cases hfound
  exact .inl (by decide +kernel)

/-- With P2P on, a scan of its SSID `b` writes over the fixed entry of SSID `a`. -/
theorem scan_table_overwritten :
    ¬ ∀ t, ScanTable.Run (fun _ _ => True) t → t.Good ∧ ∀ op, t.Proper op := by
  intro hall
  have hproper := (hall _ (ScanTable.run_joinedOne trivial trivial)).2 (scanOf true [0x62])
  have hsame := (hproper.fixed firstSlot (by decide +kernel) (by decide +kernel)).2
  have hssid : ¬ SameBss ((ScanTable.joinedOne.step (scanOf true [0x62])).slot firstSlot).network
      (ScanTable.joinedOne.slot firstSlot).network := by decide +kernel
  exact hssid hsame

end Rtl8723bs
