/-
# The MAC access list

An AP keeps the addresses it lets in, or keeps out, in `aclnode`: sixteen nodes, those in use linked
on `acl_node_q` and marked valid, and `num` beside them.  Adding looks for the address, then for a
node that is not valid; removing walks over the list and takes out what it finds, or with the
broadcast address everything.

`acl_is_set` says that whatever is done the list is a finite set of addresses, and what each
operation does to it.
-/
import Mathlib.Data.Fintype.Card
import Rtl8723bs.Lib.ListHead
import Rtl8723bs.Wifi

namespace Rtl8723bs

namespace Acl

open ListHead

/-! ## 1. `struct wlan_acl_pool` -/

/-- `NUM_ACL`. -/
def numAcl : Nat := 16

/-- `aclnode`, each of which has links; `none` is the head, `acl_node_q.queue`. -/
abbrev AclNode := Option (Fin numAcl)

/-- `struct wlan_acl_pool`, with what the nodes hold. -/
structure WlanAclPool where
  mode : Int
  num : Int
  addr : Fin numAcl → MacAddr
  valid : Fin numAcl → Bool
  links : Links AclNode

/-- `RTW_ACL_MODE_DISABLED` and so on. -/
def rtwAclModeDisabled : Int := 0

def rtwAclModeAcceptUnlessListed : Int := 1

def rtwAclModeDenyUnlessListed : Int := 2

/-- Enough rounds to come around. -/
def rounds : Nat := numAcl + 1

/-- `rtw_macaddr_acl_init`. -/
def rtwMacaddrAclInit (a : WlanAclPool) : WlanAclPool where
  mode := rtwAclModeDisabled
  num := 0
  addr := a.addr
  valid := fun _ => false
  links := (List.finRange numAcl).foldl (fun s i => s.init (some i)) (a.links.init none)

/-- A node is taken out, if it is valid and its address is looked for. -/
def visit (hit : MacAddr → Bool) : AclNode → WlanAclPool → WlanAclPool
  | none, a => a
  | some i, a =>
    if hit (a.addr i) ∧ a.valid i then
      { a with
        valid := Function.update a.valid i false
        links := a.links.delete (some i)
        num := a.num - 1 }
    else a

/-- The walk over the list that deletes. -/
def takeOut (a : WlanAclPool) (hit : MacAddr → Bool) : Option WlanAclPool :=
  sweep WlanAclPool.links none (visit hit) rounds (a.links.next none) a

/-- The walk that looks for an address. -/
def listed (a : WlanAclPool) (addr : MacAddr) : Option Bool :=
  (a.links.find none (fun x => x.any fun i => decide (a.addr i = addr) && a.valid i) rounds
    (a.links.next none)).map Option.isSome

/-- `rtw_macaddr_acl_deinit`. -/
def rtwMacaddrAclDeinit (a : WlanAclPool) : Option WlanAclPool :=
  (takeOut a fun _ => true).map fun a => { a with mode := rtwAclModeDisabled }

/-- `rtw_set_macaddr_acl`. -/
def rtwSetMacaddrAcl (a : WlanAclPool) (mode : Int) : Option WlanAclPool :=
  let a := { a with mode := mode }
  if mode = rtwAclModeDisabled then rtwMacaddrAclDeinit a else some a

/-- A node in use. -/
def useNode (a : WlanAclPool) (i : Fin numAcl) (addr : MacAddr) : WlanAclPool :=
  { a with
    addr := Function.update a.addr i addr
    valid := Function.update a.valid i true
    links := (a.links.init (some i)).insertTail (some i) none
    num := a.num + 1 }

/-- `rtw_acl_add_sta`: the value, and what is left. -/
def rtwAclAddSta (a : WlanAclPool) (addr : MacAddr) : Option (Int × WlanAclPool) :=
  (listed a addr).map fun existed =>
    if existed then (0, a)
    else if a.num ≥ numAcl then (-1, a)
    else
      match (List.finRange numAcl).find? fun i => !a.valid i with
      | some i => (0, useNode a i addr)
      | none => (-1, a)

/-- `rtw_acl_remove_sta`. -/
def rtwAclRemoveSta (a : WlanAclPool) (addr : MacAddr) : Option WlanAclPool :=
  takeOut a fun x => decide (addr = bcAddr) || decide (x = addr)

/-- `rtw_access_ctrl`. -/
def rtwAccessCtrl (a : WlanAclPool) (macAddr : MacAddr) : Option Bool :=
  (listed a macAddr).map fun m =>
    if a.mode = rtwAclModeAcceptUnlessListed then !m
    else if a.mode = rtwAclModeDenyUnlessListed then m
    else true

/-- What is done to the list. -/
inductive AclOp
  | add (addr : MacAddr)
  | remove (addr : MacAddr)
  | setMode (mode : Int)
  | deinit

def step (a : WlanAclPool) : AclOp → Option WlanAclPool
  | .add addr => (rtwAclAddSta a addr).map Prod.snd
  | .remove addr => rtwAclRemoveSta a addr
  | .setMode mode => rtwSetMacaddrAcl a mode
  | .deinit => rtwMacaddrAclDeinit a

/-- A run; `none` is a walk that does not come around. -/
def run (a : WlanAclPool) (ops : List AclOp) : Option WlanAclPool := ops.foldlM step a

/-! ## 2. What the list is for -/

/-- A mode and a finite set of addresses. -/
structure AclSet where
  mode : Int
  members : Finset MacAddr

namespace AclSet

/-- An address is added if there is room for it. -/
def add (s : AclSet) (addr : MacAddr) : AclSet :=
  if addr ∈ s.members ∨ s.members.card < numAcl then
    { s with members := insert addr s.members }
  else s

/-- An address is removed, or all with the broadcast address. -/
def remove (s : AclSet) (addr : MacAddr) : AclSet :=
  { s with members := if addr = bcAddr then ∅ else s.members.erase addr }

def clear (_ : AclSet) : AclSet := ⟨rtwAclModeDisabled, ∅⟩

def setMode (s : AclSet) (mode : Int) : AclSet :=
  if mode = rtwAclModeDisabled then s.clear else { s with mode := mode }

def step (s : AclSet) : AclOp → AclSet
  | .add addr => s.add addr
  | .remove addr => s.remove addr
  | .setMode mode => s.setMode mode
  | .deinit => s.clear

/-- Who is let in. -/
def Admits (s : AclSet) (addr : MacAddr) : Prop :=
  (s.mode = rtwAclModeAcceptUnlessListed → addr ∉ s.members) ∧
    (s.mode = rtwAclModeDenyUnlessListed → addr ∈ s.members)

end AclSet

/-! ## 3. The list is a set -/

/-- The nodes of `l` are on the list, in this order: they are the valid ones, `num` counts them, and
no address occurs twice. -/
structure Lists (a : WlanAclPool) (l : List (Fin numAcl)) : Prop where
  circle : Circle a.links none (l.map some)
  valid : ∀ i, i ∈ l ↔ a.valid i = true
  num : a.num = l.length
  once : ∀ i ∈ l, ∀ j ∈ l, a.addr i = a.addr j → i = j

/-- The addresses of valid nodes. -/
def addrs (a : WlanAclPool) : Finset MacAddr :=
  (Finset.univ.filter fun i => a.valid i = true).image a.addr

/-- The set that the pool stands for. -/
def abs (a : WlanAclPool) : AclSet := ⟨a.mode, addrs a⟩

section Lists

variable {a : WlanAclPool} {l l₁ l₂ : List (Fin numAcl)} {addr : MacAddr} {i : Fin numAcl}

theorem mem_addrs : addr ∈ addrs a ↔ ∃ i, a.valid i = true ∧ a.addr i = addr := by
  simp [addrs]

theorem Lists.nodup (h : Lists a l) : l.Nodup := h.circle.nodup.of_map some

theorem Lists.length_le (h : Lists a l) : l.length ≤ numAcl :=
  h.nodup.length_le_card.trans (Fintype.card_fin numAcl).le

theorem Lists.addrs_eq (h : Lists a l) : addrs a = (l.map a.addr).toFinset := by
  ext x
  simp only [mem_addrs, List.mem_toFinset, List.mem_map, h.valid]

theorem Lists.card_addrs (h : Lists a l) : (addrs a).card = l.length := by
  rw [h.addrs_eq, List.toFinset_card_of_nodup, List.length_map]
  exact h.nodup.map_on h.once

/-- **A walk finds an address exactly if it is in the set.** -/
theorem Lists.listed_eq (h : Lists a l) (addr : MacAddr) :
    listed a addr = some (decide (addr ∈ addrs a)) := by
  have hlen : (l.map some).length < rounds := by
    rw [List.length_map]
    exact Nat.lt_succ_of_le h.length_le
  rw [listed, h.circle.path.find_eq h.circle.head _ hlen, Option.map_some, Option.some.injEq,
    Bool.eq_iff_iff, List.find?_isSome, decide_eq_true_iff, mem_addrs]
  constructor
  · rintro ⟨x, hx, hhit⟩
    obtain ⟨i, -, rfl⟩ := List.mem_map.mp hx
    rw [Option.any_some, Bool.and_eq_true, decide_eq_true_iff] at hhit
    exact ⟨i, hhit.2, hhit.1⟩
  · rintro ⟨i, hvalid, haddr⟩
    refine ⟨some i, List.mem_map_of_mem ((h.valid i).mpr hvalid), ?_⟩
    rw [Option.any_some, hvalid, Bool.and_true, decide_eq_true_iff]
    exact haddr

/-- A list behind `rtw_macaddr_acl_init` is empty. -/
theorem lists_init (a : WlanAclPool) : Lists (rtwMacaddrAclInit a) [] where
  circle := by
    have hall : ∀ (is : List (Fin numAcl)) (s : Links AclNode), Circle s none [] →
        Circle (is.foldl (fun s i => s.init (some i)) s) none [] := by
      intro is
      induction is with
      | nil => exact fun s h => h
      | cons i is ih =>
        exact fun s h => ih _ (h.init (Option.some_ne_none i) List.not_mem_nil)
    exact hall _ _ (circle_init a.links none)
  valid i := by simp [rtwMacaddrAclInit]
  num := rfl
  once i hi := absurd hi List.not_mem_nil

/-- A node that is not valid is taken into use. -/
theorem Lists.useNode (h : Lists a l) (hi : a.valid i = false) (hnew : addr ∉ addrs a) :
    Lists (useNode a i addr) (l ++ [i]) where
  circle := by
    have hnot : some i ∉ l.map some := by
      rw [List.mem_map_of_injective (Option.some_injective _), h.valid, hi]
      exact Bool.false_ne_true
    rw [List.map_append]
    exact (h.circle.init (Option.some_ne_none i) hnot).insertTail (Option.some_ne_none i) hnot
  valid j := by
    rw [List.mem_append, List.mem_singleton, h.valid]
    rcases eq_or_ne j i with rfl | hne
    · simp [Acl.useNode]
    · simp [Acl.useNode, hne]
  num := by
    have hnum := h.num
    simp only [Acl.useNode, List.length_append, List.length_singleton]
    omega
  once := by
    have hold : ∀ j ∈ l, (Acl.useNode a i addr).addr j = a.addr j ∧ a.addr j ≠ addr := by
      intro j hj
      have hne : j ≠ i := by
        rintro rfl
        rw [h.valid, hi] at hj
        exact Bool.false_ne_true hj
      refine ⟨Function.update_of_ne hne .., ?_⟩
      rintro rfl
      exact hnew (mem_addrs.mpr ⟨j, (h.valid j).mp hj, rfl⟩)
    have hself : (Acl.useNode a i addr).addr i = addr := Function.update_self ..
    intro j hj k hk heq
    rcases List.mem_append.mp hj with hjl | hji <;> rcases List.mem_append.mp hk with hkl | hki
    · rw [(hold j hjl).1, (hold k hkl).1] at heq
      exact h.once j hjl k hkl heq
    · rw [List.mem_singleton.mp hki, (hold j hjl).1, hself] at heq
      exact absurd heq (hold j hjl).2
    · rw [List.mem_singleton.mp hji, (hold k hkl).1, hself] at heq
      exact absurd heq.symm (hold k hkl).2
    · rw [List.mem_singleton.mp hji, List.mem_singleton.mp hki]

/-- With less than `NUM_ACL` addresses there is a node that is not valid. -/
theorem Lists.exists_free (h : Lists a l) (hroom : ¬ a.num ≥ numAcl) :
    ∃ i, ((List.finRange numAcl).find? fun i => !a.valid i) = some i ∧ a.valid i = false := by
  have hlt : l.toFinset.card < (Finset.univ : Finset (Fin numAcl)).card := by
    have hnum := h.num
    rw [List.toFinset_card_of_nodup h.nodup, Finset.card_fin]
    omega
  obtain ⟨i, -, hi⟩ := Finset.exists_mem_notMem_of_card_lt_card hlt
  rw [List.mem_toFinset, h.valid, Bool.not_eq_true] at hi
  have hsome : ((List.finRange numAcl).find? fun i => !a.valid i).isSome := by
    rw [List.find?_isSome]
    exact ⟨i, List.mem_finRange i, by rw [hi]; rfl⟩
  obtain ⟨j, hj⟩ := Option.isSome_iff_exists.mp hsome
  exact ⟨j, hj, by simpa using List.find?_some hj⟩

theorem Lists.addrs_useNode (h : Lists a l) (hi : a.valid i = false) :
    ((l ++ [i]).map (Acl.useNode a i addr).addr).toFinset = insert addr (addrs a) := by
  have hold : l.map (Acl.useNode a i addr).addr = l.map a.addr := by
    refine List.map_congr_left fun j hj => Function.update_of_ne ?_ ..
    rintro rfl
    rw [h.valid, hi] at hj
    exact Bool.false_ne_true hj
  have hself : (Acl.useNode a i addr).addr i = addr := Function.update_self ..
  rw [List.map_append, hold, h.addrs_eq, List.map_singleton, hself]
  ext x
  simp

/-- One visit of a walk that deletes. -/
theorem Lists.visit (h : Lists a (l₁ ++ i :: l₂)) (hit : MacAddr → Bool) :
    if hit (a.addr i) then Lists (visit hit (some i) a) (l₁ ++ l₂)
    else visit hit (some i) a = a := by
  have hvalid : a.valid i = true := (h.valid i).mp (List.mem_append_right l₁ List.mem_cons_self)
  by_cases hhit : hit (a.addr i) = true
  · rw [if_pos hhit, Acl.visit, if_pos ⟨hhit, hvalid⟩]
    have hapart : i ∉ l₁ ++ l₂ := (List.nodup_cons.mp (List.nodup_middle.mp h.nodup)).1
    have hmem : ∀ j, j ∈ l₁ ++ i :: l₂ ↔ j = i ∨ j ∈ l₁ ++ l₂ := by
      intro j
      simp only [List.mem_append, List.mem_cons]
      tauto
    refine ⟨?_, fun j => ?_, ?_, fun j hj k hk => ?_⟩
    · have hcircle := h.circle
      rw [List.map_append, List.map_cons] at hcircle
      rw [List.map_append]
      exact hcircle.delete
    · rcases eq_or_ne j i with rfl | hne
      · simp [hapart]
      · have hsame : Function.update a.valid i false j = a.valid j := Function.update_of_ne hne ..
        dsimp only
        rw [hsame, ← h.valid, hmem, or_iff_right hne]
    · have hnum := h.num
      simp only [List.length_append, List.length_cons] at hnum ⊢
      omega
    · exact h.once j ((hmem j).mpr (.inr hj)) k ((hmem k).mpr (.inr hk))
  · rw [if_neg hhit, Acl.visit, if_neg fun hboth => hhit hboth.1]

theorem visit_addr (hit : MacAddr → Bool) (x : AclNode) (a : WlanAclPool) :
    (Acl.visit hit x a).addr = a.addr := by
  cases x with
  | none => rfl
  | some i =>
    rw [Acl.visit]
    split <;> rfl

theorem visit_mode (hit : MacAddr → Bool) (x : AclNode) (a : WlanAclPool) :
    (Acl.visit hit x a).mode = a.mode := by
  cases x with
  | none => rfl
  | some i =>
    rw [Acl.visit]
    split <;> rfl

theorem keepsCircle_visit (hit : MacAddr → Bool) :
    KeepsCircle WlanAclPool.links none (Acl.visit hit) := by
  intro a l₁ x l₂ hc
  cases x with
  | none => exact .inr hc
  | some i =>
    rw [Acl.visit]
    split
    · exact .inl hc.delete
    · exact .inr hc

/-- All visits, of the rest of the list. -/
theorem Lists.visits (h : Lists a (l₁ ++ l₂)) (hit : MacAddr → Bool) {a' : WlanAclPool}
    (ha' : (l₂.map some).foldl (fun x y => Acl.visit hit y x) a = a') :
    Lists a' (l₁ ++ l₂.filter fun i => !hit (a.addr i)) ∧ a'.addr = a.addr ∧ a'.mode = a.mode := by
  induction l₂ generalizing a l₁ with
  | nil =>
    obtain rfl := ha'
    exact ⟨h, rfl, rfl⟩
  | cons i l₂ ih =>
    rw [List.map_cons, List.foldl_cons] at ha'
    have hvisit := h.visit hit
    by_cases hhit : hit (a.addr i) = true
    · rw [if_pos hhit] at hvisit
      obtain ⟨hl, haddr, hmode⟩ := ih hvisit ha'
      rw [visit_addr] at hl haddr
      rw [visit_mode] at hmode
      refine ⟨?_, haddr, hmode⟩
      rwa [List.filter_cons_of_neg (by simp [hhit])]
    · rw [if_neg hhit] at hvisit
      rw [hvisit] at ha'
      rw [List.append_cons] at h
      obtain ⟨hl, haddr, hmode⟩ := ih h ha'
      refine ⟨?_, haddr, hmode⟩
      rwa [List.filter_cons_of_pos (by simpa using hhit), List.append_cons]

/-- **The walk that deletes** comes around, and leaves the addresses that are not looked for. -/
theorem Lists.takeOut (h : Lists a l) (hit : MacAddr → Bool) :
    ∃ a' l', takeOut a hit = some a' ∧ Lists a' l' ∧ a'.mode = a.mode ∧
      addrs a' = (addrs a).filter fun x => hit x = false := by
  have hlen : (l.map some).length < rounds := by
    rw [List.length_map]
    exact Nat.lt_succ_of_le h.length_le
  obtain ⟨hl, haddr, hmode⟩ := @Lists.visits _ [] _ h hit _ rfl
  refine ⟨_, _, h.circle.sweep_eq (keepsCircle_visit hit) hlen, hl, hmode, ?_⟩
  rw [hl.addrs_eq, haddr, h.addrs_eq]
  ext x
  simp only [List.nil_append, List.mem_toFinset, List.mem_map, List.mem_filter, Finset.mem_filter,
    Bool.not_eq_true']
  constructor
  · rintro ⟨i, ⟨hi, hkept⟩, rfl⟩
    exact ⟨⟨i, hi, rfl⟩, hkept⟩
  · rintro ⟨⟨i, hi, rfl⟩, hkept⟩
    exact ⟨i, ⟨hi, hkept⟩, rfl⟩

end Lists

/-! ## 4. The operations -/

/-- The pool stands for a set. -/
def Good (a : WlanAclPool) : Prop := ∃ l, Lists a l

section Operations

variable {a : WlanAclPool} {addr : MacAddr}

theorem Good.deinit (h : Good a) :
    ∃ a', rtwMacaddrAclDeinit a = some a' ∧ Good a' ∧ abs a' = (abs a).clear := by
  obtain ⟨l, hl⟩ := h
  obtain ⟨a', l', htake, hl', -, haddrs⟩ := hl.takeOut fun _ => true
  refine ⟨_, by rw [rtwMacaddrAclDeinit, htake, Option.map_some], ⟨l', ?_⟩, ?_⟩
  · exact ⟨hl'.circle, hl'.valid, hl'.num, hl'.once⟩
  · have hempty : addrs a' = ∅ := by rw [haddrs]; simp
    exact congrArg (AclSet.mk rtwAclModeDisabled) hempty

theorem Good.withMode (h : Good a) (mode : Int) : Good { a with mode := mode } := by
  obtain ⟨l, hl⟩ := h
  exact ⟨l, hl.circle, hl.valid, hl.num, hl.once⟩

theorem Good.setMode (h : Good a) (mode : Int) :
    ∃ a', rtwSetMacaddrAcl a mode = some a' ∧ Good a' ∧ abs a' = (abs a).setMode mode := by
  unfold rtwSetMacaddrAcl AclSet.setMode
  by_cases hmode : mode = rtwAclModeDisabled
  · rw [if_pos hmode, if_pos hmode]
    exact (h.withMode mode).deinit
  · rw [if_neg hmode, if_neg hmode]
    exact ⟨_, rfl, h.withMode mode, rfl⟩

/-- **Removing.** -/
theorem Good.remove (h : Good a) (addr : MacAddr) :
    ∃ a', rtwAclRemoveSta a addr = some a' ∧ Good a' ∧ abs a' = (abs a).remove addr := by
  obtain ⟨l, hl⟩ := h
  obtain ⟨a', l', htake, hl', hmode, haddrs⟩ :=
    hl.takeOut fun x => decide (addr = bcAddr) || decide (x = addr)
  refine ⟨a', htake, ⟨l', hl'⟩, ?_⟩
  rw [abs, hmode, haddrs, AclSet.remove, abs, AclSet.mk.injEq]
  refine ⟨rfl, ?_⟩
  by_cases hall : addr = bcAddr
  · simp [hall]
  · ext x
    simp [hall, and_comm]

/-- **Adding.** -/
theorem Good.add (h : Good a) (addr : MacAddr) :
    ∃ r a', rtwAclAddSta a addr = some (r, a') ∧ Good a' ∧ abs a' = (abs a).add addr ∧
      (r = 0 ↔ addr ∈ addrs a') := by
  obtain ⟨l, hl⟩ := h
  rw [rtwAclAddSta, hl.listed_eq, Option.map_some]
  by_cases hmem : addr ∈ addrs a
  · have hsame : (abs a).add addr = abs a := by
      rw [AclSet.add, if_pos (.inl hmem)]
      exact congrArg (AclSet.mk a.mode) (Finset.insert_eq_self.mpr hmem)
    refine ⟨0, a, by rw [if_pos (decide_eq_true hmem)], ⟨l, hl⟩, hsame.symm, ?_⟩
    exact iff_of_true rfl hmem
  · rw [if_neg (by simpa using hmem)]
    by_cases hfull : a.num ≥ numAcl
    · have hcard : ¬ (addr ∈ (abs a).members ∨ (abs a).members.card < numAcl) := by
        rintro (hin | hlt)
        · exact hmem hin
        · have hnum := hl.num
          have hlen : (abs a).members.card = l.length := hl.card_addrs
          omega
      refine ⟨-1, a, by rw [if_pos hfull], ⟨l, hl⟩, by rw [AclSet.add, if_neg hcard], ?_⟩
      exact iff_of_false (by decide) hmem
    · rw [if_neg hfull]
      obtain ⟨i, hfind, hvalid⟩ := hl.exists_free hfull
      have haddrs : addrs (useNode a i addr) = insert addr (addrs a) := by
        rw [(hl.useNode hvalid hmem).addrs_eq, hl.addrs_useNode hvalid]
      have hroom : addr ∈ (abs a).members ∨ (abs a).members.card < numAcl := by
        have hnum := hl.num
        have hlen : (abs a).members.card = l.length := hl.card_addrs
        exact .inr (by omega)
      refine ⟨0, useNode a i addr, by rw [hfind], ⟨_, hl.useNode hvalid hmem⟩, ?_, ?_⟩
      · rw [AclSet.add, if_pos hroom, abs, haddrs]
        rfl
      · rw [haddrs]
        exact iff_of_true rfl (Finset.mem_insert_self addr _)

/-- **Admission.** -/
theorem Good.accessCtrl (h : Good a) (addr : MacAddr) :
    ∃ r, rtwAccessCtrl a addr = some r ∧ (r = true ↔ (abs a).Admits addr) := by
  obtain ⟨l, hl⟩ := h
  rw [rtwAccessCtrl, hl.listed_eq, Option.map_some]
  refine ⟨_, rfl, ?_⟩
  unfold AclSet.Admits abs
  dsimp only
  by_cases haccept : a.mode = rtwAclModeAcceptUnlessListed
  · have hdeny : a.mode ≠ rtwAclModeDenyUnlessListed := by
      rw [haccept]
      decide
    simp [haccept, rtwAclModeAcceptUnlessListed, rtwAclModeDenyUnlessListed]
  · by_cases hdeny : a.mode = rtwAclModeDenyUnlessListed
    · rw [if_neg haccept, if_pos hdeny, decide_eq_true_iff]
      exact ⟨fun h => ⟨fun hmode => absurd hmode haccept, fun _ => h⟩, fun h => h.2 hdeny⟩
    · rw [if_neg haccept, if_neg hdeny]
      exact iff_of_true rfl ⟨fun h => absurd h haccept, fun h => absurd h hdeny⟩

/-- One operation. -/
theorem Good.step (h : Good a) (op : AclOp) :
    ∃ a', Acl.step a op = some a' ∧ Good a' ∧ abs a' = (abs a).step op := by
  cases op with
  | add addr =>
    obtain ⟨r, a', hadd, hgood, habs, -⟩ := h.add addr
    exact ⟨a', by rw [Acl.step, hadd, Option.map_some], hgood, habs⟩
  | remove addr => exact h.remove addr
  | setMode mode => exact h.setMode mode
  | deinit => exact h.deinit

/-- A run. -/
theorem Good.run (h : Good a) (ops : List AclOp) :
    ∃ a', Acl.run a ops = some a' ∧ Good a' ∧ abs a' = ops.foldl AclSet.step (abs a) := by
  induction ops generalizing a with
  | nil => exact ⟨a, rfl, h, rfl⟩
  | cons op ops ih =>
    obtain ⟨a₁, hstep, hgood₁, habs₁⟩ := h.step op
    obtain ⟨a₂, hrun, hgood₂, habs₂⟩ := ih hgood₁
    refine ⟨a₂, ?_, hgood₂, ?_⟩
    · rw [Acl.run, List.foldlM_cons, hstep]
      exact hrun
    · rw [habs₂, habs₁, List.foldl_cons]

end Operations

/-- **The access list is a finite set.**  Whatever is done behind `rtw_macaddr_acl_init`, every walk
comes around, the nodes on the list are the valid ones, `num` is their number and at most
`NUM_ACL`, and no address occurs twice; the pool stands for the set the operations make, adding
returns 0 exactly if the address is in the set then, removing takes the address out of it, or with
the broadcast address all, and a station is let in exactly if the mode and the set say so. -/
theorem acl_is_set (a₀ : WlanAclPool) (ops : List AclOp) :
    ∃ a, run (rtwMacaddrAclInit a₀) ops = some a ∧
      (∃ l, Lists a l) ∧ a.num ≤ numAcl ∧ a.num = (addrs a).card ∧
      abs a = ops.foldl AclSet.step ⟨rtwAclModeDisabled, ∅⟩ ∧
      (∀ addr, ∃ r a', rtwAclAddSta a addr = some (r, a') ∧ abs a' = (abs a).add addr ∧
        (r = 0 ↔ addr ∈ addrs a')) ∧
      (∀ addr, ∃ a', rtwAclRemoveSta a addr = some a' ∧ abs a' = (abs a).remove addr) ∧
      ∀ addr, ∃ r, rtwAccessCtrl a addr = some r ∧ (r = true ↔ (abs a).Admits addr) := by
  obtain ⟨a, hrun, hgood, habs⟩ := Good.run ⟨[], lists_init a₀⟩ ops
  have hstart : abs (rtwMacaddrAclInit a₀) = ⟨rtwAclModeDisabled, ∅⟩ :=
    congrArg (AclSet.mk rtwAclModeDisabled) (lists_init a₀).addrs_eq
  obtain ⟨l, hl⟩ := hgood
  have hgood : Good a := ⟨l, hl⟩
  refine ⟨a, hrun, ⟨l, hl⟩, ?_, ?_, ?_, fun addr => ?_, fun addr => ?_, hgood.accessCtrl⟩
  · rw [hl.num]
    exact_mod_cast hl.length_le
  · rw [hl.num, hl.card_addrs]
  · rw [habs, hstart]
  · obtain ⟨r, a', hadd, -, habs', hr⟩ := hgood.add addr
    exact ⟨r, a', hadd, habs', hr⟩
  · obtain ⟨a', hremove, -, habs'⟩ := hgood.remove addr
    exact ⟨a', hremove, habs'⟩

end Acl

end Rtl8723bs
