/-
# Association IDs

`sta_aid` is indexed by association ID: the station with the ID `aid` is in slot `aid - 1`, and
the bits of the TIM are counted the same way.  `OnAssocReq` takes the first free slot,
`rtw_free_stainfo` gives the slot of the station back, and both write the slot and `cmn.aid`
together.  The way out of a rejected request is the exception: it clears `cmn.aid` and leaves
the slot, which then belongs to a station that does not know it, and outlives the station.
-/
import Rtl8723bs.Ap.Lists
import Rtl8723bs.Lib.SlotTable

namespace Rtl8723bs

open SlotTable

namespace Ap

variable {st st₀ : Ap} {psta : StaId}

/-! ## 1. The table -/

/-- The association ID a station knows. -/
def aidOf (st : Ap) (psta : StaId) : Nat := (st.sta psta).aid

/-- `sta_aid` and `cmn.aid` agree, for the allocated stations and up to `max_num_sta`. -/
def AidTable (st : Ap) : Prop :=
  Tight (· ∈ st.pool.hashed) st.staAid st.aidOf st.cfg.maxNumSta

theorem Started.aidTable (h : st.Started) : st.AidTable := tight_empty h.staAid h.aid

/-! ## 2. What an act does to it -/

theorem aidOf_setSta (st : Ap) (psta : StaId) (f : StaInfo → StaInfo) :
    (st.setSta psta f).aidOf = Function.update st.aidOf psta (f (st.sta psta)).aid := by
  funext q
  rcases eq_or_ne q psta with rfl | hne
  · rw [Function.update_self]
    exact congrArg StaInfo.aid (setSta_self st q f)
  · rw [Function.update_of_ne hne]
    exact congrArg StaInfo.aid (Function.update_of_ne hne _ _)

/-- An update that keeps the association ID keeps all of them. -/
theorem aidOf_setSta_same (f : StaInfo → StaInfo)
    (h : (f (st.sta psta)).aid = (st.sta psta).aid) : (st.setSta psta f).aidOf = st.aidOf := by
  rw [aidOf_setSta, h]
  exact Function.update_eq_self psta st.aidOf

theorem aidOf_linkAsoc (st : Ap) (psta : StaId) : (st.linkAsoc psta).aidOf = st.aidOf := by
  unfold Ap.linkAsoc
  split
  · rfl
  · exact aidOf_setSta_same (fun s => { s with expireTo := st.cfg.expireTo }) rfl

/-- A new entry has no association ID, and had none. -/
theorem AidTable.alloc (h : st.AidTable) (hl : st.Lists) (hwaddr : MacAddr) :
    (st.allocStainfo hwaddr).1.AidTable := by
  unfold Ap.allocStainfo
  dsimp only
  rcases hl.kept.allocStainfo_cases hwaddr with heq | ⟨psta, rest, -, hfresh, heq, hperm⟩
  · rw [heq]
    exact h
  · rw [heq]
    have hzero : st.aidOf psta = 0 := by
      by_contra hne
      exact hfresh (h.holds _ _ (h.own psta hne)).1
    have haid : ∀ q, (Function.update st.sta psta StaInfo.init q).aid = st.aidOf q := by
      intro q
      rcases eq_or_ne q psta with rfl | hne
      · rw [Function.update_self, hzero]
        rfl
      · rw [Function.update_of_ne hne]
        rfl
    have h' := h.mono fun q _ hq => hperm.mem_iff.mpr (List.mem_cons_of_mem psta hq)
    rw [← funext haid] at h'
    exact h'

/-- `rtw_free_stainfo` gives the slot back, whose station is not allocated any more. -/
theorem tight_releaseAid {live : StaId → Prop} {bound : Nat}
    (h : Tight live st.staAid st.aidOf bound) (hhw : st.hwState = hwStateAp) (psta : StaId) :
    Tight (fun q => live q ∧ q ≠ psta) (st.releaseAid psta).staAid (st.releaseAid psta).aidOf
      bound := by
  have hgone : ∀ q, Function.update st.aidOf psta 0 q ≠ 0 → live q → live q ∧ q ≠ psta := by
    intro q hq hl
    refine ⟨hl, ?_⟩
    rintro rfl
    exact hq (Function.update_self ..)
  have hdrop := (h.drop psta).mono hgone
  unfold Ap.releaseAid
  rw [if_pos hhw]
  dsimp only
  split
  · rename_i hown
    have hpos : st.aidOf psta ≠ 0 := Nat.ne_of_gt hown.1
    rw [if_neg hpos] at hdrop
    have haid := aidOf_setSta st psta fun s => { s with aid := 0 }
    rw [← haid] at hdrop
    exact hdrop
  · rename_i hnone
    have hzero : st.aidOf psta = 0 := by
      by_contra hne
      exact hnone ⟨Nat.pos_of_ne_zero hne, h.own psta hne⟩
    rw [if_pos hzero, ← hzero, Function.update_eq_self] at hdrop
    exact hdrop

/-- What `rtw_free_stainfo` does before it gives the slot back changes no association ID. -/
theorem freeStainfo_releaseAid (st : Ap) (psta : StaId) :
    ∃ st₁ : Ap, st.freeStainfo psta = st₁.releaseAid psta ∧ st₁.aidOf = st.aidOf ∧
      st₁.staAid = st.staAid ∧ st₁.hwState = st.hwState ∧ st₁.cfg = st.cfg ∧
      st₁.pool = st.pool.freeStainfo (some psta) := by
  refine ⟨_, rfl, ?_, ?_⟩
  · have hstate : (Ap.setSta { st with pool := st.pool.freeStainfo (some psta) } psta fun s =>
        { s with state := s.state &&& ~~~fwLinked }).aidOf = st.aidOf :=
      aidOf_setSta_same (fun s => { s with state := s.state &&& ~~~fwLinked }) rfl
    rw [aidOf_setSta_same (fun s => { s with expireTo := 0 }) rfl, unlinkAuth_eq]
    exact hstate
  · rw [unlinkAuth_eq]
    exact ⟨rfl, rfl, rfl, rfl⟩

theorem releaseAid_pool (st : Ap) (psta : StaId) :
    (st.releaseAid psta).pool = st.pool ∧ (st.releaseAid psta).cfg = st.cfg := by
  obtain ⟨sta, staAid, heq⟩ := releaseAid_eq st psta
  rw [heq]
  exact ⟨rfl, rfl⟩

theorem AidTable.free (h : st.AidTable) (hhw : st.hwState = hwStateAp) (psta : StaId) :
    (st.freeStainfo psta).AidTable := by
  obtain ⟨st₁, heq, haid, hslot, hhw₁, hcfg, hpool⟩ := freeStainfo_releaseAid st psta
  obtain ⟨hpool₁, hcfg₁⟩ := releaseAid_pool st₁ psta
  unfold AidTable at h ⊢
  rw [← haid, ← hslot] at h
  have hrelease := tight_releaseAid h (hhw₁.trans hhw) psta
  rw [heq, hpool₁, hcfg₁, hpool, hcfg]
  exact hrelease.mono fun q _ hq => (StaPool.mem_hashed_freeStainfo _ _ _).mpr hq

/-- There is a free slot for a station without an association ID: the pool has no more
entries than the table has slots. -/
theorem AidTable.findAid_spec (h : st.AidTable) (hl : st.Lists) (hmem : psta ∈ st.pool.hashed)
    (hzero : st.aidOf psta = 0) :
    st.findAid ≤ numSta ∧ 0 < st.findAid ∧ st.staAid (st.findAid - 1) = none := by
  have hlen : st.pool.hashed.length ≤ numSta := by
    have honce := hl.kept.once.length_eq
    rw [List.length_append, List.length_append, List.length_range] at honce
    omega
  obtain ⟨i, hi, hnone⟩ := Tight.exists_free h hlen hmem hzero
  unfold Ap.findAid
  cases hfind : (List.range numSta).find? fun i => st.staAid i = none with
  | none =>
    have hno := List.find?_eq_none.mp hfind i (List.mem_range.mpr hi)
    exact absurd (decide_eq_true hnone) hno
  | some j =>
    have hj := List.mem_range.mp (List.mem_of_find?_eq_some hfind)
    have hdec := List.find?_some hfind
    exact ⟨hj, Nat.succ_pos j, of_decide_eq_true hdec⟩

/-- A station takes the first free slot, if it has none and the slot is not above the bound. -/
theorem AidTable.takeAid (h : st.AidTable) (hl : st.Lists) (hmem : psta ∈ st.pool.hashed) :
    (st.act (.takeAid psta)).AidTable := by
  show ((st.getAid psta).getD st).AidTable
  unfold Ap.getAid
  split
  · exact h
  rename_i hzero
  have hzero : st.aidOf psta = 0 := Nat.eq_zero_of_not_pos hzero
  obtain ⟨hle, hpos, hfree⟩ := h.findAid_spec hl hmem hzero
  dsimp only
  rw [if_neg (Nat.not_lt.mpr hle)]
  split
  · exact h
  rename_i hbound
  have htake := Tight.take h hmem hzero hfree (by omega)
  rw [Nat.sub_add_cancel hpos] at htake
  have haid := aidOf_setSta st psta fun s => { s with aid := st.findAid }
  rw [← haid] at htake
  exact htake

/-- Only the allocated stations, the table and the association IDs matter. -/
theorem AidTable.congr {st' : Ap} (h : st.AidTable) (hpool : st'.pool = st.pool)
    (hslot : st'.staAid = st.staAid) (haid : st'.aidOf = st.aidOf) (hcfg : st'.cfg = st.cfg) :
    st'.AidTable := by
  unfold AidTable
  rw [hpool, hslot, haid, hcfg]
  exact h

/-- **Every act keeps the table**, except where an association ID is cleared that is in use. -/
theorem AidTable.act (h : st.AidTable) (hl : st.Lists) (hhw : st.hwState = hwStateAp) (a : Act)
    (hguard : st.Guard a) (hclear : ∀ psta, a = .clearAid psta → (st.sta psta).aid = 0) :
    (st.act a).AidTable := by
  cases a with
  | upd psta f => exact h.congr rfl rfl (aidOf_setSta_same f hguard) rfl
  | alloc hwaddr => exact h.alloc hl hwaddr
  | unlinkAuth psta =>
    rw [Ap.act, unlinkAuth_eq]
    exact h
  | linkAuth psta =>
    show (st.linkAuth psta).AidTable
    unfold Ap.linkAuth
    split <;> exact h
  | unlinkAsoc psta =>
    rw [Ap.act, unlinkAsoc_eq]
    exact h
  | linkAsoc psta =>
    refine h.congr (linkAsoc_pool st psta) ?_ (aidOf_linkAsoc st psta) ?_
    · show (st.linkAsoc psta).staAid = st.staAid
      unfold Ap.linkAsoc
      split <;> rfl
    · show (st.linkAsoc psta).cfg = st.cfg
      unfold Ap.linkAsoc
      split <;> rfl
  | free psta => exact h.free hhw psta
  | clearAid psta =>
    exact h.congr rfl rfl (aidOf_setSta_same (fun s => { s with aid := 0 })
      (hclear psta rfl).symm) rfl
  | takeAid psta => exact h.takeAid hl hguard
  | join psta s => exact h
  | leave psta => exact h
  | coex psta f => exact h
  | scan legacySeen => exact h

/-! ## 3. The table in every run -/

/-- Runs in which no request of a station that has an association ID is rejected. -/
abbrev AidRun (st₀ st : Ap) : Prop := RunOf (fun st ev => ¬st.RejectsAid ev) st₀ st

theorem AidTable.step (h : st.AidTable) (hl : st.Lists) (hhw : st.hwState = hwStateAp)
    (ev : ApEv) (hlegal : st.Legal ev) (hrej : ¬st.RejectsAid ev) : (st.step ev).AidTable := by
  refine (hl.preserves (P := fun st₁ => st₁.AidTable ∧ st₁.hwState = hwStateAp) ⟨h, hhw⟩ ev
    hlegal ?_).2.1
  intro st₁ a hl₁ h₁ hguard hctx
  refine ⟨h₁.1.act hl₁ h₁.2 a hguard ?_, (act_cfg st₁ a).2.trans h₁.2⟩
  rintro psta rfl
  exact Nat.eq_zero_of_not_pos fun hpos => hrej (hctx hpos)

/-- A rejected request leaves the slot of the station, which has no association ID now. -/
theorem not_aidTable_of_rejects (h : st.AidTable) (hhw : st.hwState = hwStateAp) {ev : ApEv}
    (hrej : st.RejectsAid ev) : ¬(st.step ev).AidTable := by
  cases ev with
  | assocReq r =>
    obtain ⟨psta, ⟨hget, hlen, hready, hchecks⟩, hpos⟩ := hrej
    obtain ⟨old, hold⟩ := Option.isSome_iff_exists.mp hready
    have hslot := h.own psta (Nat.ne_of_gt hpos)
    have hfalse : ((st.setSta psta fun s => s.trade old wifiFwAssocState).assocRequest psta
        r).2 = false := by
      unfold Ap.assocRequest
      dsimp only
      rw [setSta_self, if_pos]
      exact hchecks
    have hstep : st.step (.assocReq r) =
        ((st.setSta psta fun s => s.trade old wifiFwAssocState).assocRequest psta r).1 := by
      show (st.onAssocReq r).1 = _
      unfold Ap.onAssocReq
      rw [if_neg (by rw [hhw]; decide), if_neg (Nat.not_lt.mpr hlen), hget]
      dsimp only
      rw [hold]
    rw [hstep, assocRequest_rejected hfalse]
    intro hbad
    have hnum := (hbad.holds _ psta hslot).2
    unfold Ap.aidOf Ap.assocFail at hnum
    rw [setSta_self] at hnum
    exact absurd hnum (Nat.succ_ne_zero _).symm
  | _ => exact hrej.elim

theorem AidRun.aidTable (h₀ : st₀.Started) (hrun : AidRun st₀ st) : st.AidTable := by
  induction hrun with
  | start => exact h₀.aidTable
  | step hrun ev hlegal hrej ih => exact ih.step (hrun.lists h₀) (hrun.cfg h₀).2 ev hlegal hrej

/-- **The association IDs in every run** in which no request of a station that has one is
rejected: a slot is free or has an allocated station that knows its number, a station with a
number is in that slot and no other, no number is above `max_num_sta`, and a free entry has no
slot.  A next event keeps this exactly if it is no such rejection. -/
theorem aid_table (h₀ : st₀.Started) (hrun : AidRun st₀ st) :
    ((∀ i, st.staAid i = none ∨ ∃ psta ∈ st.pool.hashed, st.staAid i = some psta ∧
        (st.sta psta).aid = i + 1) ∧
      (∀ psta, (st.sta psta).aid ≠ 0 → ∀ i, st.staAid i = some psta ↔ i + 1 = (st.sta psta).aid) ∧
      (∀ psta, (st.sta psta).aid ≤ st.cfg.maxNumSta) ∧
      ∀ psta ∈ st.pool.freeStaQueue, ∀ i, st.staAid i ≠ some psta) ∧
    ∀ ev, st.Legal ev → ((st.step ev).AidTable ↔ ¬st.RejectsAid ev) := by
  have h := hrun.aidTable h₀
  have hl := hrun.lists h₀
  have hhw := (hrun.cfg h₀).2
  refine ⟨⟨?_, ?_, h.le, ?_⟩, ?_⟩
  · intro i
    cases hslot : st.staAid i with
    | none => exact Or.inl rfl
    | some psta =>
      obtain ⟨hmem, hnum⟩ := h.holds i psta hslot
      exact Or.inr ⟨psta, hmem, rfl, hnum⟩
  · intro psta hne i
    constructor
    · intro hslot
      exact (h.holds i psta hslot).2.symm
    · intro hi
      have hown := h.own psta hne
      have hnum : st.aidOf psta = i + 1 := hi.symm
      rwa [hnum] at hown
  · intro psta hfree i hslot
    exact hl.kept.free_disjoint hfree (h.holds i psta hslot).1
  · intro ev hlegal
    exact ⟨fun hstep hrej => not_aidTable_of_rejects h hhw hrej hstep,
      fun hrej => h.step hl hhw ev hlegal hrej⟩

theorem authed_not_rejectsAid : ¬authed.RejectsAid (.assocReq (assocFrom false [0x61])) := by
  rintro ⟨psta, ⟨hget, -⟩, hpos⟩
  have hfound : authed.pool.getStainfo client = some 0 := by decide +kernel
  cases hfound.symm.trans hget
  exact absurd hpos (by decide +kernel)

/-- A station that has authenticated and associated has the slot of its number. -/
theorem aid_table_associated :
    associated.staAid 0 = some 0 ↔ 0 + 1 = (associated.sta 0).aid :=
  (aid_table (idle_started openConfig (by decide))
    ((RunOf.start.step (.auth (authFrom 0 [0, 0, 1, 0, 0, 0]) 30) trivial (fun h => h)).step
      (.assocReq (assocFrom false [0x61])) trivial authed_not_rejectsAid)).1.2.1 0
    (by decide +kernel) 0

/-- After a rejected reassociation and the disassociation of the station. -/
def leaked : Ap :=
  (associated.step (.assocReq (assocFrom true [0x61, 0x62]))).step
    (.disassoc ⟨client, openConfig.bssid⟩)

/-- The slot outlives the station: after a rejected reassociation `cmn.aid` is 0 and the slot
is taken, and so it stays when the station is freed. -/
theorem aid_leaked :
    (idle openConfig).Started ∧ Run (idle openConfig) leaked ∧ associated.staAid 0 = some 0 ∧
      (associated.sta 0).aid = 1 ∧ leaked.staAid 0 = some 0 ∧ (leaked.sta 0).aid = 0 ∧
      0 ∈ leaked.pool.freeStaQueue ∧ 0 ∉ leaked.pool.hashed :=
  ⟨idle_started openConfig (by decide),
    (associated_run.step (.assocReq (assocFrom true [0x61, 0x62])) trivial trivial).step
      (.disassoc ⟨client, openConfig.bssid⟩) trivial trivial, by decide +kernel⟩

end Ap

end Rtl8723bs
