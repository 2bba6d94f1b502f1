/-
# The capability counters

The seven counters of `mlme_priv` are worth something only while each is the number of
allocated stations whose flag is set.  Joins, leaves and coexistence frames move flag and
counter together.  What can part them is a station that is freed with a flag still set, since
`rtw_free_stainfo` knows nothing of the flags, and a scan, after which one counter is simply
0.  A run without these two keeps all seven.
-/
import Rtl8723bs.Ap.Lists

namespace Rtl8723bs

open FlagCount

/-! ## 1. What the BSS does with the counters of its stations -/

namespace Bss

variable {b : Bss} {S : List StaId} {psta : StaId}

/-- Every counter is the number of owners whose flag is set. -/
def Counted (b : Bss) (S : List StaId) : Prop := ∀ k, Counts S b.caps k

theorem Counted.count (h : b.Counted S) (hnd : S.Nodup) (hS : psta ∈ S) (k : CapKind)
    (on : Bool) : (b.count k psta on).1.Counted S := by
  intro k'
  rw [count_caps]
  exact (h k').write hnd hS k on

theorem Counted.countNonErp (h : b.Counted S) (hnd : S.Nodup) (hS : psta ∈ S) (on : Bool) :
    (b.countNonErp psta on).1.Counted S := by
  intro k'
  rw [countNonErp_caps]
  exact (h k').write hnd hS .nonErp on

theorem Counted.countHt (h : b.Counted S) (hnd : S.Nodup) (hS : psta ∈ S) (s : StaCapab) :
    (b.countHt psta s).Counted S := by
  unfold Bss.countHt
  split
  · have h₁ := h.count hnd hS .noHt false
    dsimp only
    have h₂ : (if s.htCapInfo &&& htCapGrnFld = 0 then
        ((b.count .noHt psta false).1.count .htNoGf psta true).1
        else (b.count .noHt psta false).1).Counted S := by
      split
      · exact h₁.count hnd hS .htNoGf true
      · exact h₁
    split
    · exact h₂.count hnd hS .ht20mhz true
    · exact h₂
  · exact h.count hnd hS .noHt true

theorem Counted.of_caps {b' : Bss} (h : b.Counted S) (hcaps : b'.caps = b.caps) :
    b'.Counted S := by
  intro k
  rw [hcaps]
  exact h k

theorem Counted.join (h : b.Counted S) (hnd : S.Nodup) (hS : psta ∈ S) (s : StaCapab) :
    (b.capUpdateOnStaJoin psta s).Counted S := by
  have h₁ := h.count hnd hS .noShortPreamble (!s.shortPreamble)
  have h₂ := h₁.countNonErp hnd hS s.nonErp
  have h₃ := h₂.count hnd hS .noShortSlotTime (!s.shortSlot)
  have h₄ := h₃.countHt hnd hS s
  have h₅ := h₄.of_caps (updateHtOperation_caps _)
  unfold Bss.capUpdateOnStaJoin
  dsimp only
  split
  · exact h₅.of_caps (updateBeacon_caps _ .any)
  · exact h₅

theorem Counted.leave (h : b.Counted S) (hnd : S.Nodup) (hS : psta ∈ S) :
    (b.capUpdateOnStaLeave psta).Counted S := by
  intro k
  rw [capUpdateOnStaLeave_caps]
  exact (((((((h k).write hnd hS _ _).write hnd hS _ _).write hnd hS _ _).write hnd hS _
    _).write hnd hS _ _).write hnd hS _ _)

/-- A coexistence frame moves at most the flag and the counter of 40 MHz intolerance. -/
theorem processBsscoex_caps (b : Bss) (psta : StaId) (f : BssCoex) :
    (b.processBsscoex psta f).caps = b.caps ∨
      (b.processBsscoex psta f).caps = b.caps.write .intol40mhz psta true := by
  have hreport : ∀ r : Bss × Bool, (if f.chlReport then
      (({ r.1 with htIntolerantChReported := true } : Bss),
        r.2 || !r.1.htIntolerantChReported) else r).1.caps = r.1.caps := by
    intro r
    split <;> rfl
  have hbeacon : ∀ r : Bss × Bool,
      (if r.2 then r.1.updateBeacon .htAddInfo else r.1).caps = r.1.caps := by
    intro r
    split
    · rw [updateBeacon_caps]
    · rfl
  unfold Bss.processBsscoex
  dsimp only
  rw [hbeacon, hreport]
  split
  · exact Or.inl rfl
  · split
    · exact Or.inr rfl
    · split <;> exact Or.inl rfl

theorem Counted.coex (h : b.Counted S) (hnd : S.Nodup) (hS : psta ∈ S) (f : BssCoex) :
    (b.processBsscoex psta f).Counted S := by
  intro k
  rcases processBsscoex_caps b psta f with hcaps | hcaps
  · rw [hcaps]
    exact h k
  · rw [hcaps]
    exact (h k).write hnd hS .intol40mhz true

end Bss

/-! ## 2. What an act does to them -/

namespace Ap

variable {st st₀ : Ap} {psta : StaId}

/-- The counters of the BSS count the allocated stations. -/
def Counted (st : Ap) : Prop := st.bss.Counted st.pool.hashed

theorem Started.counted (h : st.Started) : st.Counted := by
  intro k
  rw [h.caps]
  exact counts_empty _ k

/-- A new entry has no flag set. -/
theorem Counted.alloc (h : st.Counted) (hl : st.Lists) (hwaddr : MacAddr) :
    (st.allocStainfo hwaddr).1.Counted := by
  unfold Ap.allocStainfo
  dsimp only
  rcases hl.kept.allocStainfo_cases hwaddr with heq | ⟨psta, rest, -, hfresh, heq, hperm⟩
  · rw [heq]
    exact h
  · rw [heq]
    intro k
    have hwiped : Counts st.pool.hashed (st.bss.caps.wipe psta) k := (h k).wipe hfresh
    exact ((counts_cons (wipe_flag_self st.bss.caps k psta)).mpr hwiped).perm hperm

/-- A station without a flag is freed. -/
theorem Counted.free (h : st.Counted) (hl : st.Lists) (hmem : psta ∈ st.pool.hashed)
    (hflag : ∀ k, st.bss.caps.flag k psta = false) : (st.freeStainfo psta).Counted := by
  obtain ⟨sta, staAid, heq⟩ := freeStainfo_eq st psta
  rw [heq]
  intro k
  have hperm : (psta :: (st.pool.freeStainfo (some psta)).hashed).Perm st.pool.hashed :=
    (Buckets.filed_perm_delete hl.kept.hashed_nodup hmem).symm
  exact (counts_cons (hflag k)).mp ((h k).perm hperm)

/-- **Every act keeps the counters**, except where a station is freed with a flag, or a scan
clears a counter that is not 0. -/
theorem Counted.act (h : st.Counted) (hl : st.Lists) (a : Act) (hguard : st.Guard a)
    (hfree : ∀ psta, a = .free psta → ∀ k, st.bss.caps.flag k psta = false)
    (hscan : ∀ legacySeen, a = .scan legacySeen → st.bss.num .noHt = 0) :
    (st.act a).Counted := by
  have hnd := hl.kept.hashed_nodup
  cases a with
  | upd psta f => exact h
  | alloc hwaddr => exact h.alloc hl hwaddr
  | unlinkAuth psta =>
    rw [Ap.act, unlinkAuth_eq]
    exact h
  | linkAuth psta =>
    show (st.linkAuth psta).Counted
    unfold Ap.linkAuth
    split <;> exact h
  | unlinkAsoc psta =>
    rw [Ap.act, unlinkAsoc_eq]
    exact h
  | linkAsoc psta =>
    show (st.linkAsoc psta).Counted
    unfold Ap.linkAsoc
    split <;> exact h
  | free psta => exact h.free hl hguard.1 (hfree psta rfl)
  | clearAid psta => exact h
  | takeAid psta =>
    show ((st.getAid psta).getD st).Counted
    cases hget : st.getAid psta with
    | none => exact h
    | some st₁ =>
      obtain ⟨sta, staAid, rfl⟩ := getAid_eq hget
      exact h
  | join psta s => exact Bss.Counted.join h hnd hguard s
  | leave psta => exact Bss.Counted.leave h hnd hguard
  | coex psta f => exact Bss.Counted.coex h hnd hguard f
  | scan legacySeen =>
    have hzero : st.bss.caps.reset .noHt = st.bss.caps := reset_same (hscan legacySeen rfl)
    exact Bss.Counted.of_caps h hzero

/-! ## 3. The counters in every run -/

/-- An event after which a counter is off: a station is freed with a flag set, or a scan clears
a counter that is not 0. -/
def Drifts (st : Ap) (ev : ApEv) : Prop :=
  (∃ psta k, st.FreesFlagged ev psta k) ∨
    ∃ legacySeen, ev = .checkScan legacySeen ∧ st.bss.num .noHt ≠ 0

/-- Runs of events after which no counter is off. -/
abbrev CountedRun (st₀ st : Ap) : Prop := RunOf (fun st ev => ¬st.Drifts ev) st₀ st

theorem Counted.step (h : st.Counted) (hl : st.Lists) (ev : ApEv) (hlegal : st.Legal ev)
    (hdrift : ¬st.Drifts ev) : (st.step ev).Counted := by
  by_cases hev : ∃ legacySeen, ev = .checkScan legacySeen
  · obtain ⟨legacySeen, rfl⟩ := hev
    refine h.act hl (.scan legacySeen) trivial (fun _ heq => nomatch heq) fun _ _ => ?_
    exact Decidable.byContradiction fun hne => hdrift (Or.inr ⟨legacySeen, rfl, hne⟩)
  · refine (hl.preserves h ev hlegal ?_).2
    intro st₁ a hl₁ h₁ hguard hctx
    refine h₁.act hl₁ a hguard ?_ ?_
    · rintro psta rfl k
      by_contra hset
      exact hdrift (Or.inl ⟨psta, k, hctx k (Bool.not_eq_false _ ▸ hset)⟩)
    · rintro legacySeen rfl
      exact absurd ⟨legacySeen, hctx⟩ hev

/-- **The counters in every run** in which no station is freed with a flag set and no scan
clears a counter that is not 0: each is the number of allocated stations whose flag is set, and
so none is negative. -/
theorem cap_counts (h₀ : st₀.Started) (hrun : CountedRun st₀ st) (k : CapKind) :
    st.bss.num k = st.pool.hashed.countP (st.bss.caps.flag k) ∧ 0 ≤ st.bss.num k := by
  have h : st.Counted := by
    induction hrun with
    | start => exact h₀.counted
    | step hrun ev hlegal hdrift ih => exact ih.step (hrun.lists h₀) ev hlegal hdrift
  exact ⟨h k, (h k).nonneg⟩

/-- A station without HT has associated. -/
def associatedNoHt : Ap :=
  authed.step (.assocReq { assocFrom false [0x61] with htCap := none })

theorem cap_counts_associated :
    associatedNoHt.bss.num .noHt =
        associatedNoHt.pool.hashed.countP (associatedNoHt.bss.caps.flag .noHt) ∧
      0 ≤ associatedNoHt.bss.num .noHt := by
  refine cap_counts (idle_started openConfig (by decide))
    ((RunOf.start.step (.auth (authFrom 0 [0, 0, 1, 0, 0, 0]) 30) trivial ?_).step
      (.assocReq { assocFrom false [0x61] with htCap := none }) trivial ?_) .noHt
  · rintro (⟨psta, k, hflag, -⟩ | ⟨legacySeen, heq, -⟩)
    · cases hflag
    · cases heq
  · rintro (⟨psta, k, -, hfalse⟩ | ⟨legacySeen, heq, -⟩)
    · exact hfalse
    · cases heq

/-- A station without HT associates, the channels are scanned, the station leaves: the counter
goes from 1 to 0 with the station still there, and then below. -/
theorem no_ht_negative :
    (idle openConfig).Started ∧ Run (idle openConfig) associatedNoHt ∧
      Run (idle openConfig) ((associatedNoHt.step (.checkScan false)).step
        (.disassoc ⟨client, openConfig.bssid⟩)) ∧
      associatedNoHt.bss.num .noHt = 1 ∧
      (associatedNoHt.step (.checkScan false)).bss.num .noHt = 0 ∧
      (associatedNoHt.step (.checkScan false)).bss.caps.flag .noHt 0 = true ∧
      0 ∈ (associatedNoHt.step (.checkScan false)).pool.hashed ∧
      ((associatedNoHt.step (.checkScan false)).step
        (.disassoc ⟨client, openConfig.bssid⟩)).bss.num .noHt = -1 := by
  have hrun : Run (idle openConfig) associatedNoHt :=
    (RunOf.start.step (.auth (authFrom 0 [0, 0, 1, 0, 0, 0]) 30) trivial trivial).step
      (.assocReq { assocFrom false [0x61] with htCap := none }) trivial trivial
  refine ⟨idle_started openConfig (by decide), hrun,
    (hrun.step (.checkScan false) trivial trivial).step (.disassoc ⟨client, openConfig.bssid⟩)
      trivial trivial, ?_⟩
  decide +kernel

end Ap

end Rtl8723bs
