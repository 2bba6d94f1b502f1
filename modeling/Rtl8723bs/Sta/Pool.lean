/-
# The station pool

The `NUM_STA` entries of `pstainfo_buf` are on `free_sta_queue` or on a chain of `sta_hash`.
`rtw_alloc_stainfo` takes the first free entry and chains it under its address,
`rtw_free_stainfo` brings it back and `rtw_free_all_stainfo` brings all of them back but the
broadcast entry; `asoc_sta_count` is counted along by hand.

The table that `rtw_get_stainfo` reads is what the rest of the driver sees of this; section 4
says which.
-/
import Rtl8723bs.Lib.Buckets
import Rtl8723bs.Sta
import Mathlib.Algebra.Order.Group.Int

namespace Rtl8723bs

open Buckets
open scoped List

/-! ## 1. The operations -/

/-- `wifi_mac_hash`.  The value stays below 2^18, so `u32` loses nothing. -/
def wifiMacHash (mac : MacAddr) : Nat :=
  let x := mac.b0.toNat
  let x := (x <<< 2) ^^^ mac.b1.toNat
  let x := (x <<< 2) ^^^ mac.b2.toNat
  let x := (x <<< 2) ^^^ mac.b3.toNat
  let x := (x <<< 2) ^^^ mac.b4.toNat
  let x := (x <<< 2) ^^^ mac.b5.toNat
  let x := x ^^^ (x >>> 8)
  x &&& (numSta - 1)

/-- The part of `struct sta_priv` that keeps the pool; `macAddr` is `cmn.mac_addr` of each
entry. -/
structure StaPool where
  freeStaQueue : List StaId
  staHash : Nat → List StaId
  macAddr : StaId → MacAddr
  asocStaCount : Int

/-- `_rtw_init_sta_priv`: every entry is free. -/
def StaPool.init : StaPool where
  freeStaQueue := List.range numSta
  staHash _ := []
  macAddr _ := zeroAddr
  asocStaCount := 0

/-- The entries on the chains. -/
def StaPool.hashed (p : StaPool) : List StaId := filed p.staHash numSta

/-- `rtw_alloc_stainfo`.  An entry whose bucket does not exist is lost: it is neither chained
nor put back. -/
def StaPool.allocStainfo (p : StaPool) (hwaddr : MacAddr) : StaPool × Option StaId :=
  match p.freeStaQueue with
  | [] => (p, none)
  | psta :: rest =>
    let p' := { p with
      freeStaQueue := rest
      macAddr := Function.update p.macAddr psta hwaddr }
    let index := wifiMacHash hwaddr
    if index ≥ numSta then (p', none)
    else
      ({ p' with
          staHash := insertTail p.staHash index psta
          asocStaCount := p.asocStaCount + 1 },
        some psta)

/-- `rtw_list_delete(&psta->hash_list)`. -/
def StaPool.unhash (p : StaPool) (psta : StaId) : StaPool :=
  { p with staHash := delete p.staHash psta }

/-- `rtw_free_stainfo`: off the chain, one less, to the tail of the free queue. -/
def StaPool.freeStainfo (p : StaPool) : Option StaId → StaPool
  | none => p
  | some psta =>
    { p with
      staHash := delete p.staHash psta
      asocStaCount := p.asocStaCount - 1
      freeStaQueue := p.freeStaQueue ++ [psta] }

/-- `rtw_get_stainfo`: the chain of the address, or that of the broadcast address for every
multicast one. -/
def StaPool.getStainfo (p : StaPool) (hwaddr : MacAddr) : Option StaId :=
  let addr := if isMcast hwaddr then bcAddr else hwaddr
  (p.staHash (wifiMacHash addr)).find? (fun psta => p.macAddr psta = addr)

/-- `free_sta_list` of `rtw_free_all_stainfo`: every chained entry but the broadcast one. -/
def StaPool.freeStaList (p : StaPool) : List StaId :=
  (List.range numSta).flatMap fun index =>
    (p.staHash index).filter (fun psta => p.getStainfo bcAddr ≠ some psta)

/-- `rtw_free_all_stainfo`: first all of them off their chains, then each is freed. -/
def StaPool.freeAllStainfo (p : StaPool) : StaPool :=
  if p.asocStaCount = 1 then p
  else
    let list := p.freeStaList
    list.foldl (fun q psta => q.freeStainfo (some psta)) (list.foldl StaPool.unhash p)

/-! ## 2. Runs -/

inductive PoolEv
  | alloc (hwaddr : MacAddr)
  | free (psta : Option StaId)
  | freeAll
deriving Repr

def StaPool.step (p : StaPool) : PoolEv → StaPool
  | .alloc hwaddr => (p.allocStainfo hwaddr).1
  | .free psta => p.freeStainfo psta
  | .freeAll => p.freeAllStainfo

/-- What a caller of `rtw_free_stainfo` sees to: it gives an entry it got from the table, or
`NULL`. -/
def StaPool.Given (p : StaPool) : PoolEv → Prop
  | .free (some psta) => psta ∈ p.hashed
  | _ => True

/-- The pools that callers who keep to `Given` can bring about. -/
inductive StaPool.Reachable : StaPool → Prop
  | init : Reachable StaPool.init
  | step {p : StaPool} (hp : Reachable p) (e : PoolEv) (he : p.Given e) : Reachable (p.step e)

/-! ## 3. The invariant -/

theorem wifiMacHash_lt (mac : MacAddr) : wifiMacHash mac < numSta := by
  unfold wifiMacHash
  exact Nat.lt_of_le_of_lt Nat.and_le_right (by decide)

/-- Every entry is free, chained or one of `held`, which are off their chains and not yet on
the free queue; a chained entry is under its address; and the count is of the entries that are
not free. -/
structure StaPool.Kept (p : StaPool) (held : List StaId) : Prop where
  once : p.freeStaQueue ++ (p.hashed ++ held) ~ List.range numSta
  under : ∀ b < numSta, ∀ psta ∈ p.staHash b, b = wifiMacHash (p.macAddr psta)
  count : p.asocStaCount = p.hashed.length + held.length

namespace StaPool

variable {p : StaPool} {held : List StaId} {psta : StaId}

theorem kept_init : StaPool.init.Kept [] := by
  have hnone : StaPool.init.hashed = [] := filed_empty numSta
  refine ⟨?_, fun b _ psta hmem => absurd hmem List.not_mem_nil, ?_⟩
  · rw [hnone, List.append_nil, List.append_nil]
    exact List.Perm.refl _
  · rw [hnone]
    rfl

theorem Kept.nodup (h : p.Kept held) : (p.freeStaQueue ++ (p.hashed ++ held)).Nodup :=
  h.once.nodup_iff.mpr List.nodup_range

theorem Kept.hashed_nodup (h : p.Kept held) : p.hashed.Nodup :=
  (List.nodup_append.mp (List.nodup_append.mp h.nodup).2.1).1

theorem Kept.free_disjoint (h : p.Kept held) (hfree : psta ∈ p.freeStaQueue) :
    psta ∉ p.hashed := by
  intro hmem
  exact (List.nodup_append.mp h.nodup).2.2 psta hfree psta (List.mem_append_left held hmem) rfl

theorem Kept.held_disjoint (h : p.Kept (psta :: held)) : psta ∉ p.hashed := by
  intro hmem
  have hnd := (List.nodup_append.mp h.nodup).2.1
  exact (List.nodup_append.mp hnd).2.2 psta hmem psta (List.mem_cons_self) rfl

/-- The entry a caller frees leaves its chain and is held until it is on the free queue. -/
theorem Kept.unhash (h : p.Kept held) (hmem : psta ∈ p.hashed) :
    (p.unhash psta).Kept (psta :: held) := by
  have hperm : p.hashed ~ psta :: (p.unhash psta).hashed :=
    filed_perm_delete h.hashed_nodup hmem
  refine ⟨?_, ?_, ?_⟩
  · have hmove : p.hashed ++ held ~ (p.unhash psta).hashed ++ psta :: held :=
      (hperm.append_right held).trans List.perm_middle.symm
    exact (hmove.symm.append_left p.freeStaQueue).trans h.once
  · intro b hb q hq
    exact h.under b hb q (List.mem_filter.mp hq).1
  · have hlen := hperm.length_eq
    rw [List.length_cons] at hlen
    show p.asocStaCount = _
    rw [h.count, List.length_cons, hlen]
    push_cast
    omega

/-- What `rtw_free_stainfo` does with an entry that is already off its chain. -/
theorem Kept.release (h : p.Kept (psta :: held)) : (p.freeStainfo (some psta)).Kept held := by
  have hsame : (p.freeStainfo (some psta)).hashed = p.hashed :=
    filed_delete_of_not_mem h.held_disjoint
  refine ⟨?_, ?_, ?_⟩
  · rw [hsame]
    show p.freeStaQueue ++ [psta] ++ (p.hashed ++ held) ~ _
    rw [List.append_assoc]
    have hmove : psta :: (p.hashed ++ held) ~ p.hashed ++ psta :: held :=
      List.perm_middle.symm
    exact (hmove.append_left p.freeStaQueue).trans h.once
  · intro b hb q hq
    exact h.under b hb q (List.mem_filter.mp hq).1
  · rw [hsame]
    show p.asocStaCount - 1 = _
    rw [h.count, List.length_cons]
    push_cast
    omega

/-- Freeing is taking off the chain and releasing: the second `list_del_init` finds nothing. -/
theorem freeStainfo_unhash (p : StaPool) (psta : StaId) :
    (p.unhash psta).freeStainfo (some psta) = p.freeStainfo (some psta) := by
  have htwice : delete (delete p.staHash psta) psta = delete p.staHash psta := by
    funext b
    show ((p.staHash b).filter _).filter _ = (p.staHash b).filter _
    rw [List.filter_filter]
    exact List.filter_congr fun c _ => Bool.and_self _
  show StaPool.mk _ (delete (delete p.staHash psta) psta) _ _ = _
  rw [htwice]
  rfl

theorem Kept.freeStainfo (h : p.Kept held) (hmem : psta ∈ p.hashed) :
    (p.freeStainfo (some psta)).Kept held := by
  rw [← freeStainfo_unhash]
  exact (h.unhash hmem).release

/-- Who is chained after an entry is freed. -/
theorem mem_hashed_freeStainfo (p : StaPool) (psta q : StaId) :
    q ∈ (p.freeStainfo (some psta)).hashed ↔ q ∈ p.hashed ∧ q ≠ psta := by
  show q ∈ Buckets.filed (delete p.staHash psta) numSta ↔ _
  rw [filed_delete, List.mem_filter, decide_eq_true_iff]
  rfl

/-- An allocation finds no free entry, or it chains one that was free. -/
theorem Kept.allocStainfo_cases (h : p.Kept held) (hwaddr : MacAddr) :
    p.allocStainfo hwaddr = (p, none) ∨
      ∃ psta rest, p.freeStaQueue = psta :: rest ∧ psta ∉ p.hashed ∧
        p.allocStainfo hwaddr =
          ({ p with
              freeStaQueue := rest
              macAddr := Function.update p.macAddr psta hwaddr
              staHash := insertTail p.staHash (wifiMacHash hwaddr) psta
              asocStaCount := p.asocStaCount + 1 },
            some psta) ∧
        filed (insertTail p.staHash (wifiMacHash hwaddr) psta) numSta ~ psta :: p.hashed := by
  unfold StaPool.allocStainfo
  cases hq : p.freeStaQueue with
  | nil => exact Or.inl rfl
  | cons psta rest =>
    right
    dsimp only
    rw [if_neg (Nat.not_le.mpr (wifiMacHash_lt hwaddr))]
    exact ⟨psta, rest, rfl, h.free_disjoint (hq ▸ List.mem_cons_self), rfl,
      filed_insertTail p.staHash psta (wifiMacHash_lt hwaddr)⟩

theorem Kept.allocStainfo (h : p.Kept []) (hwaddr : MacAddr) :
    (p.allocStainfo hwaddr).1.Kept [] := by
  rcases h.allocStainfo_cases hwaddr with heq | ⟨psta, rest, hq, hnot, heq, hperm⟩
  · rw [heq]
    exact h
  · rw [heq]
    refine ⟨?_, ?_, ?_⟩
    · have honce := h.once
      rw [hq, List.cons_append] at honce
      exact ((hperm.append_right []).append_left rest).trans (List.perm_middle.trans honce)
    · intro b hb q hqb
      show b = wifiMacHash (Function.update p.macAddr psta hwaddr q)
      have hcases : (q = psta ∧ b = wifiMacHash hwaddr) ∨ q ∈ p.staHash b := by
        by_cases hbe : b = wifiMacHash hwaddr
        · have hqb' : q ∈ p.staHash b ++ [psta] := by
            have : insertTail p.staHash (wifiMacHash hwaddr) psta b = p.staHash b ++ [psta] := by
              rw [hbe]
              exact Function.update_self _ _ _
            exact this ▸ hqb
          rcases List.mem_append.mp hqb' with hold | hnew
          · exact Or.inr hold
          · exact Or.inl ⟨List.mem_singleton.mp hnew, hbe⟩
        · right
          have : insertTail p.staHash (wifiMacHash hwaddr) psta b = p.staHash b :=
            Function.update_of_ne hbe _ _
          exact this ▸ hqb
      rcases hcases with ⟨rfl, hbe⟩ | hold
      · rw [Function.update_self]
        exact hbe
      · have hne : q ≠ psta := by
          rintro rfl
          exact hnot (mem_filed.mpr ⟨b, hb, hold⟩)
        rw [Function.update_of_ne hne]
        exact h.under b hb q hold
    · have hlen := hperm.length_eq
      rw [List.length_cons] at hlen
      have hcount := h.count
      show p.asocStaCount + 1 = ((filed _ numSta).length : Int) + _
      rw [hlen, hcount]
      push_cast
      omega

/-! ### `rtw_free_all_stainfo` -/

/-- The first loop: all of them off their chains. -/
theorem Kept.unhash_all {l : List StaId} (h : p.Kept held) (hnd : l.Nodup)
    (hl : ∀ psta ∈ l, psta ∈ p.hashed) :
    ∃ held', held' ~ l ++ held ∧ (l.foldl StaPool.unhash p).Kept held' := by
  induction l generalizing p held with
  | nil => exact ⟨held, List.Perm.refl _, h⟩
  | cons a l ih =>
    obtain ⟨ha, hnd'⟩ := List.nodup_cons.mp hnd
    have hrest : ∀ psta ∈ l, psta ∈ (p.unhash a).hashed := by
      intro psta hmem
      show psta ∈ Buckets.filed (delete p.staHash a) numSta
      rw [filed_delete, List.mem_filter]
      exact ⟨hl psta (List.mem_cons_of_mem a hmem), decide_eq_true fun heq => ha (heq ▸ hmem)⟩
    obtain ⟨held', hperm, hkept⟩ := ih (h.unhash (hl a List.mem_cons_self)) hnd' hrest
    exact ⟨held', hperm.trans List.perm_middle, hkept⟩

theorem Kept.perm {held' : List StaId} (h : p.Kept held) (hperm : held' ~ held) :
    p.Kept held' :=
  ⟨((hperm.append_left p.hashed).append_left p.freeStaQueue).trans h.once, h.under,
    by rw [h.count, hperm.length_eq]⟩

/-- The second loop: each of them released. -/
theorem Kept.release_all {l : List StaId} (h : p.Kept (l ++ held)) :
    (l.foldl (fun q psta => q.freeStainfo (some psta)) p).Kept held := by
  induction l generalizing p with
  | nil => exact h
  | cons a l ih => exact ih h.release

theorem Kept.freeAllStainfo (h : p.Kept []) : p.freeAllStainfo.Kept [] := by
  unfold StaPool.freeAllStainfo
  split
  · exact h
  · have hlist : p.freeStaList =
        p.hashed.filter (fun psta => p.getStainfo bcAddr ≠ some psta) :=
      List.filter_flatMap.symm
    have hnd : p.freeStaList.Nodup := hlist ▸ h.hashed_nodup.filter _
    have hl : ∀ psta ∈ p.freeStaList, psta ∈ p.hashed := by
      intro psta hmem
      rw [hlist] at hmem
      exact (List.mem_filter.mp hmem).1
    obtain ⟨held', hperm, hkept⟩ := h.unhash_all hnd hl
    exact (hkept.perm hperm.symm).release_all

theorem Kept.step (h : p.Kept []) (e : PoolEv) (he : p.Given e) : (p.step e).Kept [] := by
  cases e with
  | alloc hwaddr => exact h.allocStainfo hwaddr
  | free psta =>
    cases psta with
    | none => exact h
    | some psta => exact h.freeStainfo he
  | freeAll => exact h.freeAllStainfo

theorem Reachable.kept (h : p.Reachable) : p.Kept [] := by
  induction h with
  | init => exact kept_init
  | step _ e he ih => exact ih.step e he

/-! ## 4. What `rtw_get_stainfo` sees -/

theorem Kept.find?_hashed (h : p.Kept held) (addr : MacAddr) :
    p.hashed.find? (fun psta => p.macAddr psta = addr) =
      (p.staHash (wifiMacHash addr)).find? (fun psta => p.macAddr psta = addr) := by
  refine find?_filed (wifiMacHash_lt addr) ?_
  intro b hb psta hmem haddr
  rw [h.under b hb psta hmem, of_decide_eq_true haddr]

/-- The table of the chained entries. -/
def toTable (p : StaPool) (h : p.Kept []) : StaTable where
  entries := p.hashed.map fun psta => (p.macAddr psta, psta)
  nodup := by
    rw [List.map_map]
    exact (List.map_id p.hashed).symm ▸ h.hashed_nodup

/-- **The chains are the table.**  Looking an address up under its hash finds what a search of
all chained entries finds. -/
theorem getStainfo_eq_table (h : p.Kept []) (addr : MacAddr) :
    p.getStainfo addr = rtwGetStainfo (p.toTable h) addr := by
  unfold StaPool.getStainfo rtwGetStainfo toTable
  dsimp only
  rw [← h.find?_hashed, List.find?_map, Option.map_map]
  exact Option.map_id'.symm

theorem Kept.getStainfo_some (h : p.Kept held) {addr : MacAddr}
    (hget : p.getStainfo addr = some psta) :
    psta ∈ p.hashed ∧ p.macAddr psta = if isMcast addr then bcAddr else addr := by
  unfold StaPool.getStainfo at hget
  dsimp only at hget
  rw [← h.find?_hashed] at hget
  have haddr := List.find?_some hget
  exact ⟨List.mem_of_find?_eq_some hget, of_decide_eq_true haddr⟩

theorem Kept.getStainfo_none (h : p.Kept held) {addr : MacAddr} (hget : p.getStainfo addr = none)
    (hmem : psta ∈ p.hashed) : p.macAddr psta ≠ if isMcast addr then bcAddr else addr := by
  unfold StaPool.getStainfo at hget
  dsimp only at hget
  rw [← h.find?_hashed, List.find?_eq_none] at hget
  intro haddr
  exact hget psta hmem (decide_eq_true haddr)

/-- **The station table.**  As long as callers free only what they got from the table, every
entry is free or on the one chain of its address, the count is of the chained entries, and an
individual address or the broadcast address is found as soon as some chained entry has it;
what is found is never free and has the address, or the broadcast address if a multicast one
was asked for. -/
theorem station_table (h : p.Reachable) :
    (∀ psta < numSta,
      (p.freeStaQueue.count psta = 1 ∧ ∀ b < numSta, psta ∉ p.staHash b) ∨
        (psta ∉ p.freeStaQueue ∧
          ∀ b < numSta,
            (p.staHash b).count psta = if b = wifiMacHash (p.macAddr psta) then 1 else 0)) ∧
      p.asocStaCount = p.hashed.length ∧
      p.asocStaCount = numSta - p.freeStaQueue.length ∧
      (∀ addr, isMcast addr = false ∨ addr = bcAddr →
        (∃ psta ∈ p.hashed, p.macAddr psta = addr) → (p.getStainfo addr).isSome) ∧
      ∀ addr psta, p.getStainfo addr = some psta →
        psta ∈ p.hashed ∧ psta ∉ p.freeStaQueue ∧
          p.macAddr psta = if isMcast addr then bcAddr else addr := by
  have hk := h.kept
  have hlen := hk.once.length_eq
  simp only [List.append_nil, List.length_append, List.length_range] at hlen
  have hcount : p.asocStaCount = p.hashed.length := by
    have hheld := hk.count
    rw [List.length_nil] at hheld
    omega
  refine ⟨?_, hcount, ?_, ?_, ?_⟩
  · intro psta hlt
    have hsome : psta ∈ p.freeStaQueue ++ (p.hashed ++ []) :=
      hk.once.mem_iff.mpr (List.mem_range.mpr hlt)
    rw [List.append_nil] at hsome
    rcases List.mem_append.mp hsome with hfree | hmem
    · left
      refine ⟨List.count_eq_one_of_mem (List.nodup_append.mp hk.nodup).1 hfree, ?_⟩
      intro b hb hin
      exact hk.free_disjoint hfree (mem_filed.mpr ⟨b, hb, hin⟩)
    · right
      refine ⟨fun hfree => hk.free_disjoint hfree hmem, ?_⟩
      intro b hb
      obtain ⟨b', hb', hin⟩ := mem_filed.mp hmem
      have hb'' := hk.under b' hb' psta hin
      split
      · rename_i hbe
        have hnd : (p.staHash b).Nodup :=
          (List.nodup_flatMap.mp hk.hashed_nodup).1 b (List.mem_range.mpr hb)
        exact List.count_eq_one_of_mem hnd (by rwa [hbe, ← hb''])
      · rename_i hbe
        exact List.count_eq_zero_of_not_mem fun hin' => hbe (hk.under b hb psta hin')
  · rw [hcount]
    omega
  · intro addr haddr hex
    obtain ⟨psta, hmem, heq⟩ := hex
    cases hget : p.getStainfo addr with
    | some q => rfl
    | none =>
      refine absurd ?_ (hk.getStainfo_none hget hmem)
      rcases haddr with hind | rfl
      · rw [hind, if_neg Bool.false_ne_true, heq]
      · rw [heq, ite_self]
  · intro addr psta hget
    obtain ⟨hmem, haddr⟩ := hk.getStainfo_some hget
    exact ⟨hmem, fun hfree => hk.free_disjoint hfree hmem, haddr⟩

/-- A station with an individual address is found. -/
theorem station_table_one :
    ((StaPool.init.step (.alloc ⟨2, 0, 0, 0, 0, 1⟩)).getStainfo ⟨2, 0, 0, 0, 0, 1⟩).isSome :=
  (station_table (Reachable.init.step (.alloc ⟨2, 0, 0, 0, 0, 1⟩) trivial)).2.2.2.1
    ⟨2, 0, 0, 0, 0, 1⟩ (Or.inl (by decide)) ⟨0, by decide, by decide⟩

/-- A station allocated under a multicast address is chained but not found, for it is looked
for under the broadcast address; and freeing an entry that is already free counts it twice. -/
theorem station_table_bounds :
    (0 ∈ (StaPool.init.step (.alloc ⟨1, 0, 0x5e, 0, 0, 1⟩)).hashed ∧
      (StaPool.init.step (.alloc ⟨1, 0, 0x5e, 0, 0, 1⟩)).macAddr 0 = ⟨1, 0, 0x5e, 0, 0, 1⟩ ∧
      (StaPool.init.step (.alloc ⟨1, 0, 0x5e, 0, 0, 1⟩)).getStainfo ⟨1, 0, 0x5e, 0, 0, 1⟩ =
        none) ∧
    ([.alloc ⟨2, 0, 0, 0, 0, 1⟩, .free (some 0), .free (some 0)].foldl StaPool.step
        StaPool.init).asocStaCount = -1 ∧
    ([.alloc ⟨2, 0, 0, 0, 0, 1⟩, .free (some 0), .free (some 0)].foldl StaPool.step
        StaPool.init).hashed = [] := by
  refine ⟨⟨?_, ?_, ?_⟩, ?_, ?_⟩
  · decide
  · rfl
  · decide
  · rfl
  · decide

end StaPool

end Rtl8723bs
