/-
# MAC ids

`rtw_alloc_macid` gives a station the first id that is not in use; id 1 is kept for the
broadcast stations, which share it and never give it back, and the adapter's own entry has none.
`used` says which ids are in use and `sta[]` who has them.

An id is a number given out by a table, with id 1 left out.  The result is `macids_of_stations`:
as long as no station is given a second id while it has one, `used` and `sta[]` are what the
stations hold.  Without that, an id is lost (`macid_table_broken`).
-/
import Rtl8723bs.Lib.SlotTable
import Rtl8723bs.Sta

namespace Rtl8723bs

open SlotTable

/-! ## 1. The bitmaps -/

/-- `MACID_NUM_SW_LIMIT`: a `struct macid_bmp` is one word. -/
def macidNumSwLimit : Nat := 32

abbrev MacidBmp := BitVec 32

/-- `rtw_macid_is_set`. -/
def rtwMacidIsSet (map : MacidBmp) (id : Nat) : Bool :=
  if id < 32 then map &&& BitVec.twoPow 32 id ≠ 0#32 else false

/-- `rtw_macid_map_set`. -/
def rtwMacidMapSet (map : MacidBmp) (id : Nat) : MacidBmp :=
  if id < 32 then map ||| BitVec.twoPow 32 id else map

/-- `rtw_macid_map_clr`. -/
def rtwMacidMapClr (map : MacidBmp) (id : Nat) : MacidBmp :=
  if id < 32 then map &&& ~~~BitVec.twoPow 32 id else map

theorem rtwMacidIsSet_eq (map : MacidBmp) (id : Nat) : rtwMacidIsSet map id = map.getLsbD id := by
  unfold rtwMacidIsSet
  split
  · rename_i hid
    rw [BitVec.and_twoPow]
    cases hbit : map.getLsbD id with
    | false => simp
    | true =>
      have hne : BitVec.twoPow 32 id ≠ 0#32 := by
        intro hzero
        have hself := congrArg (fun m => BitVec.getLsbD m id) hzero
        simp [hid] at hself
      simp [hne]
  · rename_i hid
    exact (BitVec.getLsbD_of_ge map id (by omega)).symm

@[simp] theorem isSet_set (map : MacidBmp) (id j : Nat) :
    rtwMacidIsSet (rtwMacidMapSet map id) j
      = (rtwMacidIsSet map j || (decide (id < 32) && decide (id = j))) := by
  rw [rtwMacidIsSet_eq, rtwMacidIsSet_eq]
  unfold rtwMacidMapSet
  by_cases hid : id < 32 <;> simp [hid]

@[simp] theorem isSet_clr (map : MacidBmp) (id j : Nat) :
    rtwMacidIsSet (rtwMacidMapClr map id) j = (rtwMacidIsSet map j && decide (id ≠ j)) := by
  rw [rtwMacidIsSet_eq, rtwMacidIsSet_eq]
  unfold rtwMacidMapClr
  by_cases hj : j < 32
  · by_cases hid : id < 32
    · simp [hid, hj, eq_comm]
    · have hne : id ≠ j := by omega
      simp [hid, hne]
  · have hout := BitVec.getLsbD_of_ge map j (by omega)
    by_cases hid : id < 32 <;> simp [hid, hout]

/-- Maps with the same bits set are the same. -/
theorem macidBmp_ext {m m' : MacidBmp} (h : ∀ id, rtwMacidIsSet m id = rtwMacidIsSet m' id) :
    m = m' := by
  apply BitVec.eq_of_getLsbD_eq
  intro id _
  rw [← rtwMacidIsSet_eq, ← rtwMacidIsSet_eq]
  exact h id

/-- A bit that was clear is set and cleared again. -/
theorem clr_set {m : MacidBmp} {id : Nat} (h : rtwMacidIsSet m id = false) :
    rtwMacidMapClr (rtwMacidMapSet m id) id = m := by
  apply macidBmp_ext
  intro j
  rcases eq_or_ne id j with rfl | hne
  · simp [h]
  · simp [hne]

theorem clr_of_clear {m : MacidBmp} {id : Nat} (h : rtwMacidIsSet m id = false) :
    rtwMacidMapClr m id = m := by
  apply macidBmp_ext
  intro j
  rcases eq_or_ne id j with rfl | hne
  · simp [h]
  · simp [hne]

/-! ## 2. The two functions -/

/-- `struct macid_ctl_t`, for the one interface there is. -/
structure MacidCtl where
  num : Nat
  used : MacidBmp
  bmc : MacidBmp
  ifG : MacidBmp
  ifaceBmc : Nat
  chG : Fin 2 → MacidBmp
  sta : Nat → Option StaId

/-- The control block, and of each station its address and `cmn.mac_id`. -/
structure Macids where
  ctl : MacidCtl
  macAddr : StaId → MacAddr
  macId : StaId → Nat

/-- `INVALID_SEC_MAC_CAM_ID`. -/
def invalidSecMacCamId : Nat := 0xFF

/-- `hal_spec->macid_num`. -/
def macidNum : Nat := 128

/-- The control block after `rtw_hal_data_init` and zeroed entries. -/
def Macids.init : Macids where
  ctl :=
    { num := min macidNum macidNumSwLimit
      used := 0, bmc := 0, ifG := 0, ifaceBmc := 0, chG := fun _ => 0, sta := fun _ => none }
  macAddr := fun _ => zeroAddr
  macId := fun _ => 0

/-- The loop of `rtw_alloc_macid`: the first id not in use, 1 left out. -/
def findMacid (c : MacidCtl) : Option Nat :=
  (List.range c.num).find? (fun i => i ≠ 1 ∧ !rtwMacidIsSet c.used i)

/-- `rtw_alloc_macid`, with `CONFIG_SHARED_BMC_MACID`. -/
def rtwAllocMacid (own : MacAddr) (s : Macids) (psta : StaId) : Macids :=
  if s.macAddr psta = own then { s with macId := Function.update s.macId psta s.ctl.num }
  else if s.macAddr psta = bcAddr then
    { s with
      ctl := { s.ctl with
        used := rtwMacidMapSet s.ctl.used 1
        bmc := rtwMacidMapSet s.ctl.bmc 1
        ifG := rtwMacidMapSet s.ctl.ifG 1
        ifaceBmc := invalidSecMacCamId
        sta := Function.update s.ctl.sta 1 (some psta) }
      macId := Function.update s.macId psta 1 }
  else
    match findMacid s.ctl with
    | some i =>
      { s with
        ctl := { s.ctl with
          used := rtwMacidMapSet s.ctl.used i
          ifG := rtwMacidMapSet s.ctl.ifG i
          sta := Function.update s.ctl.sta i (some psta) }
        macId := Function.update s.macId psta i }
    | none => { s with macId := Function.update s.macId psta s.ctl.num }

/-- `rtw_release_macid`. -/
def rtwReleaseMacid (own : MacAddr) (s : Macids) (psta : StaId) : Macids :=
  if s.macAddr psta = own ∨ s.macAddr psta = bcAddr ∨ s.macId psta = 1 then s
  else
    let id := s.macId psta
    let ctl :=
      if id < s.ctl.num then
        { s.ctl with
          used := rtwMacidMapClr s.ctl.used id
          bmc := rtwMacidMapClr s.ctl.bmc id
          ifG := rtwMacidMapClr s.ctl.ifG id
          chG := fun k => rtwMacidMapClr (s.ctl.chG k) id
          sta := Function.update s.ctl.sta id none }
      else s.ctl
    { s with ctl := ctl, macId := Function.update s.macId psta s.ctl.num }

/-! ## 3. Runs -/

/-- A call; an entry is given its address before its id. -/
inductive MacidOp where
  | alloc (psta : StaId) (macAddr : MacAddr)
  | release (psta : StaId)

/-- A run so far, with its history: the stations between `rtw_alloc_macid` and
`rtw_release_macid`, those that ever were, and the broadcast station allocated last. -/
structure MacidRun where
  s : Macids
  holding : StaId → Bool
  known : StaId → Bool
  bcmc : Option StaId

namespace MacidRun

def start : MacidRun := ⟨Macids.init, fun _ => false, fun _ => false, none⟩

def setAddr (s : Macids) (psta : StaId) (macAddr : MacAddr) : Macids :=
  { s with macAddr := Function.update s.macAddr psta macAddr }

def step (own : MacAddr) (r : MacidRun) : MacidOp → MacidRun
  | .alloc psta macAddr =>
    { s := rtwAllocMacid own (setAddr r.s psta macAddr) psta
      holding := Function.update r.holding psta true
      known := Function.update r.known psta true
      bcmc := if macAddr = bcAddr ∧ macAddr ≠ own then some psta else r.bcmc }
  | .release psta =>
    { r with
      s := rtwReleaseMacid own r.s psta
      holding := Function.update r.holding psta false }

def run (own : MacAddr) (r : MacidRun) (ops : List MacidOp) : MacidRun := ops.foldl (step own) r

/-- What the callers keep to: a station is not given an id while it has one, and is not asked
to give one back before it was given any. -/
def OpOk (r : MacidRun) : MacidOp → Prop
  | .alloc psta _ => r.holding psta = false
  | .release psta => r.known psta = true

def RunOk (own : MacAddr) : MacidRun → List MacidOp → Prop
  | _, [] => True
  | r, op :: ops => r.OpOk op ∧ RunOk own (r.step own op) ops

/-- The station holds the id and is not a broadcast station. -/
def Holds (r : MacidRun) (psta : StaId) (id : Nat) : Prop :=
  r.holding psta = true ∧ r.s.macAddr psta ≠ bcAddr ∧ r.s.macId psta = id ∧ id < r.s.ctl.num

instance (r : MacidRun) (psta : StaId) (id : Nat) : Decidable (r.Holds psta id) :=
  inferInstanceAs (Decidable (_ ∧ _ ∧ _ ∧ _))

/-- **The table is what the stations hold.**  Id 1 apart, an id is in use exactly while a
station holds it, `sta[]` has that station, and no two stations hold the same.  Id 1 is in use
once a broadcast station was allocated, and `sta[1]` is the last. -/
structure Exact (r : MacidRun) : Prop where
  used : ∀ id, id ≠ 1 → (rtwMacidIsSet r.s.ctl.used id = true ↔ ∃ p, r.Holds p id)
  sta : ∀ id, id ≠ 1 → ∀ p, r.s.ctl.sta id = some p ↔ r.Holds p id
  apart : ∀ p q id, r.Holds p id → r.Holds q id → p = q
  unshared : ∀ p, ¬r.Holds p 1
  usedOne : rtwMacidIsSet r.s.ctl.used 1 = r.bcmc.isSome
  staOne : r.s.ctl.sta 1 = r.bcmc

/-! ## 4. The invariant -/

/-- `sta[]` without the shared id. -/
def slots (c : MacidCtl) (id : Nat) : Option StaId := if id = 1 then none else c.sta id

/-- The number of a station: 0 without an id of its own, else the id plus 1. -/
def idNum (r : MacidRun) (psta : StaId) : Nat :=
  if r.holding psta = true ∧ r.s.macAddr psta ≠ bcAddr ∧ r.s.macId psta < macidNumSwLimit then
    r.s.macId psta + 1
  else 0

structure Inv (own : MacAddr) (r : MacidRun) : Prop where
  num : r.s.ctl.num = macidNumSwLimit
  tight : Tight (fun p => r.holding p = true) (slots r.s.ctl) r.idNum macidNumSwLimit
  used : ∀ id, id ≠ 1 → rtwMacidIsSet r.s.ctl.used id = (r.s.ctl.sta id).isSome
  usedOne : rtwMacidIsSet r.s.ctl.used 1 = r.bcmc.isSome
  staOne : r.s.ctl.sta 1 = r.bcmc
  bmc : ∀ id, id ≠ 1 → rtwMacidIsSet r.s.ctl.bmc id = false
  ifG : r.s.ctl.ifG = r.s.ctl.used
  chG : ∀ k id, rtwMacidIsSet (r.s.ctl.chG k) id = false
  own : ∀ p, r.known p = true → r.s.macAddr p = own → r.s.macId p = macidNumSwLimit
  spent : ∀ p, r.known p = true → r.holding p = false → r.s.macAddr p ≠ bcAddr →
    r.s.macId p = macidNumSwLimit

variable {own : MacAddr} {r : MacidRun} {psta : StaId}

theorem idNum_of_free (h : r.holding psta = false) : r.idNum psta = 0 := by
  unfold idNum
  simp [h]

theorem holds_iff (hnum : r.s.ctl.num = macidNumSwLimit) (p : StaId) (id : Nat) :
    r.Holds p id ↔ r.idNum p = id + 1 := by
  unfold Holds idNum
  rw [hnum]
  split
  · rename_i hp
    constructor
    · rintro ⟨-, -, rfl, -⟩
      rfl
    · intro hid
      have hmac : r.s.macId p = id := by omega
      exact ⟨hp.1, hp.2.1, hmac, hmac ▸ hp.2.2⟩
  · rename_i hp
    constructor
    · rintro ⟨hhold, haddr, rfl, hlt⟩
      exact absurd ⟨hhold, haddr, hlt⟩ hp
    · intro hid
      omega

theorem Inv.exact (h : r.Inv own) : r.Exact := by
  have hslot : ∀ id, id ≠ 1 → ∀ p, r.s.ctl.sta id = some p ↔ r.Holds p id := by
    intro id hid p
    rw [holds_iff h.num]
    constructor
    · intro hsta
      refine (h.tight.holds id p ?_).2
      unfold slots
      rw [if_neg hid]
      exact hsta
    · intro hnum
      have hown := h.tight.own p (by omega)
      rw [hnum, Nat.add_sub_cancel] at hown
      unfold slots at hown
      rw [if_neg hid] at hown
      exact hown
  have hshared : ∀ p, ¬r.Holds p 1 := by
    intro p hp
    have hnum := (holds_iff h.num p 1).mp hp
    have hown := h.tight.own p (by omega)
    rw [hnum] at hown
    cases hown
  constructor
  · intro id hid
    rw [h.used id hid, Option.isSome_iff_exists]
    exact exists_congr (hslot id hid)
  · exact hslot
  · intro p q id hp hq
    have hid : id ≠ 1 := by
      rintro rfl
      exact hshared p hp
    have hsome := (hslot id hid p).mpr hp
    rw [(hslot id hid q).mpr hq] at hsome
    exact (Option.some.inj hsome).symm
  · exact hshared
  · exact h.usedOne
  · exact h.staOne

theorem start_inv : start.Inv own where
  num := rfl
  tight := tight_empty (fun i => by unfold slots; split <;> rfl) fun p => rfl
  used id _ := by simp [start, Macids.init, rtwMacidIsSet_eq]
  usedOne := rfl
  staOne := rfl
  bmc id _ := by simp [start, Macids.init, rtwMacidIsSet_eq]
  ifG := rfl
  chG k id := by simp [start, Macids.init, rtwMacidIsSet_eq]
  own p hp := nomatch hp
  spent p hp := nomatch hp

/-! ## 5. Allocating -/

theorem findMacid_some {c : MacidCtl} {i : Nat} (h : findMacid c = some i) :
    i < c.num ∧ i ≠ 1 ∧ rtwMacidIsSet c.used i = false := by
  have hmem := List.mem_of_find?_eq_some h
  have hprop := List.find?_some h
  simp only [decide_eq_true_eq, Bool.not_eq_true'] at hprop
  exact ⟨List.mem_range.mp hmem, hprop⟩

/-- The number of a station that was given an id. -/
theorem idNum_alloc {r' : MacidRun} {macAddr : MacAddr} {k : Nat}
    (haddr : r'.s.macAddr = Function.update r.s.macAddr psta macAddr)
    (hid : r'.s.macId = Function.update r.s.macId psta k)
    (hhold : r'.holding = Function.update r.holding psta true) :
    r'.idNum = Function.update r.idNum psta
      (if macAddr ≠ bcAddr ∧ k < macidNumSwLimit then k + 1 else 0) := by
  funext q
  unfold idNum
  rw [haddr, hid, hhold]
  rcases eq_or_ne q psta with rfl | hne
  · simp
  · simp [hne]

/-- A station that was not given an id of its own leaves the table tight. -/
theorem Inv.tight_without (h : r.Inv own) (hfree : r.holding psta = false) :
    Tight (fun p => Function.update r.holding psta true p = true) (slots r.s.ctl)
      (Function.update r.idNum psta 0) macidNumSwLimit := by
  rw [← idNum_of_free hfree, Function.update_eq_self]
  refine h.tight.mono ?_
  intro p hp hlive
  have hne : p ≠ psta := by
    rintro rfl
    exact hp (idNum_of_free hfree)
  rw [Function.update_of_ne hne]
  exact hlive

/-- A station with the adapter's address has no id, if the call gives it none. -/
theorem Inv.still_own (h : r.Inv own) {macAddr : MacAddr} {k : Nat}
    (hself : macAddr = own → k = macidNumSwLimit) {p : StaId}
    (hknown : Function.update r.known psta true p = true)
    (haddr : Function.update r.s.macAddr psta macAddr p = own) :
    Function.update r.s.macId psta k p = macidNumSwLimit := by
  rcases eq_or_ne p psta with rfl | hne
  · rw [Function.update_self] at haddr ⊢
    exact hself haddr
  · rw [Function.update_of_ne hne] at hknown haddr ⊢
    exact h.own p hknown haddr

/-- A unicast station that has given its id back has none. -/
theorem Inv.still_spent (h : r.Inv own) {macAddr : MacAddr} {k : Nat} {p : StaId}
    (hknown : Function.update r.known psta true p = true)
    (hhold : Function.update r.holding psta true p = false)
    (haddr : Function.update r.s.macAddr psta macAddr p ≠ bcAddr) :
    Function.update r.s.macId psta k p = macidNumSwLimit := by
  have hne : p ≠ psta := by
    rintro rfl
    rw [Function.update_self] at hhold
    cases hhold
  rw [Function.update_of_ne hne] at hknown hhold haddr ⊢
  exact h.spent p hknown hhold haddr

/-- A station with the adapter's address, or one that finds no free id, gets none. -/
theorem Inv.alloc_none (h : r.Inv own) (hfree : r.holding psta = false) (macAddr : MacAddr)
    (hshared : macAddr = bcAddr → macAddr = own) :
    Inv own
      { s :=
          { ctl := r.s.ctl
            macAddr := Function.update r.s.macAddr psta macAddr
            macId := Function.update r.s.macId psta r.s.ctl.num }
        holding := Function.update r.holding psta true
        known := Function.update r.known psta true
        bcmc := if macAddr = bcAddr ∧ macAddr ≠ own then some psta else r.bcmc } := by
  have hbcmc : (if macAddr = bcAddr ∧ macAddr ≠ own then some psta else r.bcmc) = r.bcmc :=
    if_neg fun hbc => hbc.2 (hshared hbc.1)
  rw [hbcmc]
  refine { num := h.num, tight := ?_, used := h.used, usedOne := h.usedOne, staOne := h.staOne
           bmc := h.bmc, ifG := h.ifG, chG := h.chG, own := ?_, spent := ?_ }
  · rw [idNum_alloc rfl rfl rfl, h.num, if_neg (fun hk => Nat.lt_irrefl _ hk.2)]
    exact h.tight_without hfree
  · intro p hknown haddr
    exact h.still_own (fun _ => h.num) hknown haddr
  · intro p hknown hhold haddr
    exact h.still_spent hknown hhold haddr

/-- A broadcast station gets id 1. -/
theorem Inv.alloc_shared (h : r.Inv own) (hfree : r.holding psta = false) (hown : bcAddr ≠ own) :
    Inv own
      { s :=
          { ctl := { r.s.ctl with
              used := rtwMacidMapSet r.s.ctl.used 1
              bmc := rtwMacidMapSet r.s.ctl.bmc 1
              ifG := rtwMacidMapSet r.s.ctl.ifG 1
              ifaceBmc := invalidSecMacCamId
              sta := Function.update r.s.ctl.sta 1 (some psta) }
            macAddr := Function.update r.s.macAddr psta bcAddr
            macId := Function.update r.s.macId psta 1 }
        holding := Function.update r.holding psta true
        known := Function.update r.known psta true
        bcmc := some psta } := by
  constructor
  · exact h.num
  · rw [idNum_alloc rfl rfl rfl, if_neg (fun hk => hk.1 rfl)]
    have hslots : slots { r.s.ctl with
        used := rtwMacidMapSet r.s.ctl.used 1
        bmc := rtwMacidMapSet r.s.ctl.bmc 1
        ifG := rtwMacidMapSet r.s.ctl.ifG 1
        ifaceBmc := invalidSecMacCamId
        sta := Function.update r.s.ctl.sta 1 (some psta) } = slots r.s.ctl := by
      funext id
      unfold slots
      split
      · rfl
      · rename_i hid
        exact Function.update_of_ne hid ..
    rw [hslots]
    exact h.tight_without hfree
  · intro id hid
    dsimp only
    rw [isSet_set, h.used id hid, Function.update_of_ne hid]
    simp [hid.symm]
  · simp
  · exact Function.update_self (1 : Nat) (some psta) r.s.ctl.sta
  · intro id hid
    dsimp only
    rw [isSet_set, h.bmc id hid]
    simp [hid.symm]
  · dsimp only
    rw [h.ifG]
  · exact h.chG
  · intro p hknown haddr
    exact h.still_own (fun heq => absurd heq hown) hknown haddr
  · intro p hknown hhold haddr
    exact h.still_spent hknown hhold haddr

/-- Any other station gets the id that was found. -/
theorem Inv.alloc_found (h : r.Inv own) (hfree : r.holding psta = false) {macAddr : MacAddr}
    (hown : macAddr ≠ own) (hbc : macAddr ≠ bcAddr) {i : Nat}
    (hi : findMacid r.s.ctl = some i) :
    Inv own
      { s :=
          { ctl := { r.s.ctl with
              used := rtwMacidMapSet r.s.ctl.used i
              ifG := rtwMacidMapSet r.s.ctl.ifG i
              sta := Function.update r.s.ctl.sta i (some psta) }
            macAddr := Function.update r.s.macAddr psta macAddr
            macId := Function.update r.s.macId psta i }
        holding := Function.update r.holding psta true
        known := Function.update r.known psta true
        bcmc := r.bcmc } := by
  obtain ⟨hlt, hone, hclear⟩ := findMacid_some hi
  rw [h.num] at hlt
  have hempty : r.s.ctl.sta i = none := by
    rw [h.used i hone] at hclear
    exact Option.isSome_eq_false_iff.mp hclear |> Option.isNone_iff_eq_none.mp
  constructor
  · exact h.num
  · rw [idNum_alloc rfl rfl rfl, if_pos ⟨hbc, hlt⟩]
    have hslots : slots { r.s.ctl with
        used := rtwMacidMapSet r.s.ctl.used i
        ifG := rtwMacidMapSet r.s.ctl.ifG i
        sta := Function.update r.s.ctl.sta i (some psta) }
        = Function.update (slots r.s.ctl) i (some psta) := by
      funext id
      unfold slots
      rcases eq_or_ne id i with rfl | hne
      · simp [hone]
      · simp [hne]
    rw [hslots]
    have hlive := h.tight_without hfree
    rw [← idNum_of_free hfree, Function.update_eq_self] at hlive
    refine hlive.take (Function.update_self ..) (idNum_of_free hfree) ?_ hlt
    unfold slots
    rw [if_neg hone]
    exact hempty
  · intro id hid
    dsimp only
    rw [isSet_set, h.used id hid]
    rcases eq_or_ne id i with rfl | hne
    · rw [Function.update_self]
      simp [show id < 32 from hlt]
    · simp [hne, hne.symm]
  · dsimp only
    rw [isSet_set, h.usedOne]
    simp [hone]
  · exact (Function.update_of_ne hone.symm ..).trans h.staOne
  · exact h.bmc
  · dsimp only
    rw [h.ifG]
  · exact h.chG
  · intro p hknown haddr
    exact h.still_own (fun heq => absurd heq hown) hknown haddr
  · intro p hknown hhold haddr
    exact h.still_spent hknown hhold haddr

theorem Inv.alloc (h : r.Inv own) (hfree : r.holding psta = false) (macAddr : MacAddr) :
    (r.step own (.alloc psta macAddr)).Inv own := by
  have hself : (setAddr r.s psta macAddr).macAddr psta = macAddr := Function.update_self ..
  simp only [step, rtwAllocMacid, hself]
  by_cases hown : macAddr = own
  · rw [if_pos hown]
    exact h.alloc_none hfree macAddr fun _ => hown
  rw [if_neg hown]
  by_cases hbc : macAddr = bcAddr
  · subst hbc
    rw [if_pos rfl, if_pos ⟨rfl, hown⟩]
    exact h.alloc_shared hfree hown
  rw [if_neg hbc]
  cases hi : findMacid (setAddr r.s psta macAddr).ctl with
  | none => exact h.alloc_none hfree macAddr fun heq => absurd heq hbc
  | some i =>
    dsimp only
    rw [if_neg fun heq => hbc heq.1]
    exact h.alloc_found hfree hown hbc hi

/-! ## 6. Releasing -/

/-- The number of a station whose id was given back. -/
theorem idNum_release {ctl : MacidCtl} {macId : StaId → Nat} {known : StaId → Bool}
    {bcmc : Option StaId} (hid : ∀ q, q ≠ psta → macId q = r.s.macId q) :
    idNum ⟨⟨ctl, r.s.macAddr, macId⟩, Function.update r.holding psta false, known, bcmc⟩
      = Function.update r.idNum psta 0 := by
  funext q
  unfold idNum
  rcases eq_or_ne q psta with rfl | hne
  · simp
  · simp [hne, hid q hne]

/-- A station with a number is in `sta[]`, and not at the shared id. -/
theorem Inv.slot_of_num (h : r.Inv own) (hnum : r.idNum psta ≠ 0) :
    r.s.macId psta ≠ 1 ∧ slots r.s.ctl (r.s.macId psta) = some psta := by
  have hown := h.tight.own psta hnum
  have hid : r.idNum psta = r.s.macId psta + 1 := by
    unfold idNum at hnum ⊢
    split
    · rfl
    · rename_i hno
      rw [if_neg hno] at hnum
      exact absurd rfl hnum
  rw [hid, Nat.add_sub_cancel] at hown
  refine ⟨?_, hown⟩
  intro hone
  rw [hone] at hown
  cases hown

/-- Only a station that holds an id of its own passes the checks of `rtw_release_macid` with an
id of the table. -/
theorem Inv.num_of_id (h : r.Inv own) (hknown : r.known psta = true)
    (hbc : r.s.macAddr psta ≠ bcAddr) (hlt : r.s.macId psta < macidNumSwLimit) :
    r.idNum psta = r.s.macId psta + 1 := by
  have hhold : r.holding psta = true := by
    cases hold : r.holding psta with
    | true => rfl
    | false =>
      have hid := h.spent psta hknown hold hbc
      omega
  exact if_pos ⟨hhold, hbc, hlt⟩

/-- The ones that keep their id had no number. -/
theorem Inv.num_of_kept (h : r.Inv own) (hknown : r.known psta = true)
    (hkeep : r.s.macAddr psta = own ∨ r.s.macAddr psta = bcAddr ∨ r.s.macId psta = 1) :
    r.idNum psta = 0 := by
  by_contra hne
  obtain ⟨hone, -⟩ := h.slot_of_num hne
  rcases hkeep with hown | hbc | hid
  · have hid := h.own psta hknown hown
    refine hne (if_neg fun hk => ?_)
    exact absurd hid (Nat.ne_of_lt hk.2.2)
  · exact hne (if_neg fun hk => hk.2.1 hbc)
  · exact hone hid

theorem Inv.release (h : r.Inv own) (hknown : r.known psta = true) :
    (r.step own (.release psta)).Inv own := by
  have hlive : ∀ p, Function.update r.idNum psta 0 p ≠ 0 → r.holding p = true →
      Function.update r.holding psta false p = true := by
    intro p hp hhold
    have hne : p ≠ psta := by
      rintro rfl
      exact hp (Function.update_self ..)
    rw [Function.update_of_ne hne]
    exact hhold
  have hdrop := (h.tight.drop psta).mono hlive
  simp only [step, rtwReleaseMacid]
  by_cases hkeep : r.s.macAddr psta = own ∨ r.s.macAddr psta = bcAddr ∨ r.s.macId psta = 1
  · have hzero := h.num_of_kept hknown hkeep
    rw [if_pos hkeep]
    rw [if_pos hzero] at hdrop
    refine { num := h.num, tight := ?_, used := h.used, usedOne := h.usedOne, staOne := h.staOne
             bmc := h.bmc, ifG := h.ifG, chG := h.chG, own := h.own, spent := ?_ }
    · rw [idNum_release (fun _ _ => rfl)]
      exact hdrop
    · intro p hk hhold haddr
      rcases eq_or_ne p psta with rfl | hne
      · rcases hkeep with hown | hbc | hone
        · exact h.own p hk hown
        · exact absurd hbc haddr
        · have hlt : r.s.macId p < macidNumSwLimit := by
            rw [hone]
            decide
          have hnum := h.num_of_id hknown haddr hlt
          omega
      · have hhold' : Function.update r.holding psta false p = false := hhold
        rw [Function.update_of_ne hne] at hhold'
        exact h.spent p hk hhold' haddr
  · obtain ⟨hown, hbc, hone⟩ : r.s.macAddr psta ≠ own ∧ r.s.macAddr psta ≠ bcAddr ∧
        r.s.macId psta ≠ 1 := by
      simpa only [not_or] using hkeep
    rw [if_neg hkeep, h.num]
    have hspent : ∀ p, r.known p = true → Function.update r.holding psta false p = false →
        r.s.macAddr p ≠ bcAddr →
        Function.update r.s.macId psta macidNumSwLimit p = macidNumSwLimit := by
      intro p hk hhold haddr
      rcases eq_or_ne p psta with rfl | hne
      · exact Function.update_self ..
      · rw [Function.update_of_ne hne] at hhold ⊢
        exact h.spent p hk hhold haddr
    have hkeepOwn : ∀ p, r.known p = true → r.s.macAddr p = own →
        Function.update r.s.macId psta macidNumSwLimit p = macidNumSwLimit := by
      intro p hk haddr
      rcases eq_or_ne p psta with rfl | hne
      · exact Function.update_self ..
      · rw [Function.update_of_ne hne]
        exact h.own p hk haddr
    have hother : ∀ q, q ≠ psta →
        Function.update r.s.macId psta macidNumSwLimit q = r.s.macId q :=
      fun q hne => Function.update_of_ne hne ..
    by_cases hlt : r.s.macId psta < macidNumSwLimit
    · have hnum := h.num_of_id hknown hbc hlt
      rw [if_pos hlt]
      rw [if_neg (by omega), hnum, Nat.add_sub_cancel] at hdrop
      constructor
      · rfl
      · rw [idNum_release hother]
        have hslots : (fun id => if id = 1 then none
            else Function.update r.s.ctl.sta (r.s.macId psta) none id)
            = Function.update (slots r.s.ctl) (r.s.macId psta) none := by
          funext id
          unfold slots
          rcases eq_or_ne id (r.s.macId psta) with rfl | hne
          · simp
          · simp [hne]
        rw [← hslots] at hdrop
        exact hdrop
      · intro id hid
        dsimp only
        rw [isSet_clr, h.used id hid]
        rcases eq_or_ne id (r.s.macId psta) with rfl | hne
        · simp
        · simp only [Function.update_of_ne hne, decide_eq_true hne.symm, Bool.and_true]
      · dsimp only
        rw [isSet_clr, h.usedOne]
        simp [hone]
      · exact (Function.update_of_ne hone.symm none r.s.ctl.sta).trans h.staOne
      · intro id hid
        dsimp only
        rw [isSet_clr, h.bmc id hid]
        rfl
      · dsimp only
        rw [h.ifG]
      · intro k id
        dsimp only
        rw [isSet_clr, h.chG k id]
        rfl
      · exact hkeepOwn
      · exact hspent
    · rw [if_neg hlt]
      have hzero : r.idNum psta = 0 := if_neg fun hk => hlt hk.2.2
      rw [if_pos hzero] at hdrop
      refine { num := h.num, tight := ?_, used := h.used, usedOne := h.usedOne, staOne := h.staOne
               bmc := h.bmc, ifG := h.ifG, chG := h.chG, own := hkeepOwn, spent := hspent }
      rw [idNum_release hother]
      exact hdrop

/-! ## 7. Every run -/

theorem Inv.run (h : r.Inv own) {ops : List MacidOp} (hok : RunOk own r ops) :
    (r.run own ops).Inv own := by
  induction ops generalizing r with
  | nil => exact h
  | cons op ops ih =>
    refine ih ?_ hok.2
    cases op with
    | alloc psta macAddr => exact h.alloc hok.1 macAddr
    | release psta => exact h.release hok.1

/-- What a unicast station took is given back, to the last bit. -/
theorem Inv.restored (h : r.Inv own) {macAddr : MacAddr}
    (haddr : macAddr = bcAddr → macAddr = own) :
    (rtwReleaseMacid own (rtwAllocMacid own (setAddr r.s psta macAddr) psta) psta).ctl
      = r.s.ctl := by
  have hself : (setAddr r.s psta macAddr).macAddr psta = macAddr := Function.update_self ..
  by_cases hown : macAddr = own
  · rw [rtwAllocMacid, if_pos (hself.trans hown), rtwReleaseMacid,
      if_pos (Or.inl (hself.trans hown))]
    rfl
  have hbc : macAddr ≠ bcAddr := fun heq => hown (haddr heq)
  have hcalls : ∀ c k, k ≠ 1 →
      (rtwReleaseMacid own ⟨c, (setAddr r.s psta macAddr).macAddr,
        Function.update r.s.macId psta k⟩ psta).ctl =
      if k < c.num then
        { c with
          used := rtwMacidMapClr c.used k
          bmc := rtwMacidMapClr c.bmc k
          ifG := rtwMacidMapClr c.ifG k
          chG := fun j => rtwMacidMapClr (c.chG j) k
          sta := Function.update c.sta k none }
      else c := by
    intro c k hk
    simp [rtwReleaseMacid, hself, hown, hbc, hk]
  rw [rtwAllocMacid, if_neg (hself.trans_ne hown), if_neg (hself.trans_ne hbc)]
  cases hi : findMacid (setAddr r.s psta macAddr).ctl with
  | none =>
    have hnum : r.s.ctl.num ≠ 1 := by
      rw [h.num]
      decide
    refine (hcalls r.s.ctl r.s.ctl.num hnum).trans ?_
    rw [if_neg (Nat.lt_irrefl _)]
  | some i =>
    obtain ⟨hlt, hone, hclear⟩ := findMacid_some hi
    have hused : rtwMacidIsSet r.s.ctl.used i = false := hclear
    have hsta : r.s.ctl.sta i = none := by
      rw [h.used i hone] at hused
      exact Option.isNone_iff_eq_none.mp (Option.isSome_eq_false_iff.mp hused)
    have hlt' : i < r.s.ctl.num := hlt
    refine (hcalls _ i hone).trans ((if_pos hlt').trans ?_)
    have hchG : (fun k => rtwMacidMapClr (r.s.ctl.chG k) i) = r.s.ctl.chG :=
      funext fun k => clr_of_clear (h.chG k i)
    have hback : Function.update (Function.update r.s.ctl.sta i (some psta)) i none
        = r.s.ctl.sta := by
      rw [Function.update_idem, ← hsta, Function.update_eq_self]
    have hifG : rtwMacidMapClr (rtwMacidMapSet r.s.ctl.ifG i) i = r.s.ctl.ifG :=
      clr_set (h.ifG ▸ hused)
    simp only [setAddr, clr_set hused, clr_of_clear (h.bmc i hone), hifG, hchG, hback]

/-- A broadcast station gives nothing back. -/
theorem release_shared {s : Macids} (h : s.macAddr psta = bcAddr) :
    rtwReleaseMacid own s psta = s := if_pos (.inr (.inl h))

theorem allocMacid_macAddr (s : Macids) (psta : StaId) :
    (rtwAllocMacid own s psta).macAddr = s.macAddr := by
  unfold rtwAllocMacid
  split
  · rfl
  · split
    · rfl
    · split <;> rfl

/-! ## 8. The result -/

/-- **MAC ids are what the stations hold.**  In every run in which a station is given an id
only while it has none, and gives one back only after it was given one, the table is exact,
and what a station would take now and give back at once leaves the control block as it is,
except that a broadcast station gives nothing back. -/
theorem macids_of_stations (own : MacAddr) (ops : List MacidOp) (hok : RunOk own start ops) :
    (start.run own ops).Exact ∧
    ∀ psta macAddr,
      let s := (start.run own ops).s
      let s' := rtwAllocMacid own (setAddr s psta macAddr) psta
      (macAddr ≠ bcAddr ∨ macAddr = own → (rtwReleaseMacid own s' psta).ctl = s.ctl) ∧
      (macAddr = bcAddr → rtwReleaseMacid own s' psta = s') := by
  have hinv := start_inv.run hok
  refine ⟨hinv.exact, ?_⟩
  intro psta macAddr
  dsimp only
  constructor
  · intro haddr
    exact hinv.restored (fun heq => haddr.resolve_left (not_not_intro heq))
  · intro hbc
    refine release_shared ?_
    rw [allocMacid_macAddr, hbc]
    exact Function.update_self ..

/-- Two stations and the broadcast station, of which one station leaves. -/
theorem macids_of_two_stations :
    let own : MacAddr := ⟨0x00, 0xe0, 0x4c, 0, 0, 1⟩
    let ops := [.alloc 0 bcAddr, .alloc 1 ⟨2, 0, 0, 0, 0, 1⟩, .alloc 2 ⟨2, 0, 0, 0, 0, 2⟩,
      .release 1]
    (start.run own ops).Exact :=
  (macids_of_stations ⟨0x00, 0xe0, 0x4c, 0, 0, 1⟩
    [.alloc 0 bcAddr, .alloc 1 ⟨2, 0, 0, 0, 0, 1⟩, .alloc 2 ⟨2, 0, 0, 0, 0, 2⟩, .release 1]
    ⟨rfl, rfl, rfl, rfl, trivial⟩).1

/-- The table without the rule.  A second id for a station leaves the first in use with no
holder; a station that was never given an id gives back id 0 of another; and a broadcast
station does not give back id 1. -/
theorem macid_table_broken :
    let own : MacAddr := ⟨0x00, 0xe0, 0x4c, 0, 0, 1⟩
    let a : MacAddr := ⟨2, 0, 0, 0, 0, 1⟩
    let twice := start.run own [.alloc 1 a, .alloc 1 a]
    let early := start.run own [.alloc 1 a, .release 2]
    let shared := start.run own [.alloc 0 bcAddr, .release 0]
    (rtwMacidIsSet twice.s.ctl.used 0 = true ∧ ¬∃ p, twice.Holds p 0) ∧
    (rtwMacidIsSet early.s.ctl.used 0 = false ∧ early.Holds 1 0) ∧
    (rtwMacidIsSet start.s.ctl.used 1 = false ∧ rtwMacidIsSet shared.s.ctl.used 1 = true ∧
      shared.s.ctl.sta 1 = some 0) := by
  refine ⟨⟨by decide, ?_⟩, by decide, by decide⟩
  rintro ⟨p, hhold, -, hid, -⟩
  rcases eq_or_ne p 1 with rfl | hne
  · revert hid
    decide
  · have hfree : Function.update (Function.update (fun _ : StaId => false) 1 true) 1 true p
        = true := hhold
    rw [Function.update_of_ne hne, Function.update_of_ne hne] at hfree
    cases hfree

end MacidRun

end Rtl8723bs
