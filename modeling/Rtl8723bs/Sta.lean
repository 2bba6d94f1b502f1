/-
# The station table, as a lookup

`rtw_get_stainfo` finds the entry of the station pool with a given address; every multicast
address stands for the one broadcast entry.
-/
import Mathlib.Data.List.Nodup
import Rtl8723bs.Wifi

namespace Rtl8723bs

/-- An entry of the station pool. -/
abbrev StaId := Nat

/-- `NUM_STA`, the entries of the station pool. -/
def numSta : Nat := 32

/-- `sta_hash`, the linked stations with their addresses.  An entry is linked once. -/
structure StaTable where
  entries : List (MacAddr × StaId)
  nodup : (entries.map Prod.snd).Nodup

/-- `rtw_get_stainfo`. -/
def rtwGetStainfo (t : StaTable) (hwaddr : MacAddr) : Option StaId :=
  let addr := if isMcast hwaddr then bcAddr else hwaddr
  (t.entries.find? (fun e => e.1 = addr)).map Prod.snd

/-- `rtw_get_bcmc_stainfo`. -/
def rtwGetBcmcStainfo (t : StaTable) : Option StaId := rtwGetStainfo t bcAddr

/-- The entry found carries the address, or the broadcast address for a multicast one. -/
theorem rtwGetStainfo_mem {t : StaTable} {addr : MacAddr} {i : StaId}
    (h : rtwGetStainfo t addr = some i) :
    ((if isMcast addr then bcAddr else addr), i) ∈ t.entries := by
  obtain ⟨e, he, rfl⟩ := Option.map_eq_some_iff.mp h
  have haddr : decide (e.1 = if isMcast addr then bcAddr else addr) = true :=
    List.find?_some
      (p := fun x : MacAddr × StaId => decide (x.1 = if isMcast addr then bcAddr else addr)) he
  rw [← of_decide_eq_true haddr]
  exact List.mem_of_find?_eq_some he

/-- The entry found for an individual address carries that address. -/
theorem rtwGetStainfo_individual {t : StaTable} {addr : MacAddr} {i : StaId}
    (h : rtwGetStainfo t addr = some i) (hind : isMcast addr = false) :
    (addr, i) ∈ t.entries := by
  have hmem := rtwGetStainfo_mem h
  rwa [hind, if_neg Bool.false_ne_true] at hmem

/-- One entry has one address. -/
theorem rtwGetStainfo_inj {t : StaTable} {addr addr' : MacAddr} {i : StaId}
    (h : rtwGetStainfo t addr = some i) (h' : rtwGetStainfo t addr' = some i)
    (hind : isMcast addr = false) (hind' : isMcast addr' = false) : addr = addr' :=
  congrArg Prod.fst (List.inj_on_of_nodup_map t.nodup (rtwGetStainfo_individual h hind)
    (rtwGetStainfo_individual h' hind') rfl)

end Rtl8723bs
