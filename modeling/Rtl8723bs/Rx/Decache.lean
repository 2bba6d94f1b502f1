/-
# Are duplicates dropped, and nothing else?

`recv_decache` keeps, for each station and TID, the sequence control of the frame it let pass last
and drops a frame that has the same.  It has no way to say that none has passed yet:
`rtw_alloc_stainfo` stores 0xffff.  That is the sequence control of fragment 15 of frame 4095, so
such a frame is dropped if it is the first one (`first_frame_dropped`); otherwise the filter is
right (`duplicate_filter_iff`).
-/
import Rtl8723bs.Rx.PnReplay
import Rtl8723bs.Rx.RecvPool

namespace Rtl8723bs

namespace Decache

/-! ## 1. Runs -/

/-- The frame as `recv_decache` gets to see it, with its station, if it gets there. -/
def decacheInput (env : RxEnv) (f : RecvFrame) : Option (StaId × RecvFrame) :=
  let route := dataRoute env f
  match route.ret, route.psta with
  | .success, some psta => some (psta, parseQc route.frame)
  | _, _ => none

/-- The cache after `rtw_alloc_stainfo`. -/
def freshRxcache : StainfoRxcache := ⟨fun _ => 0xffff, fun _ => 0, 0⟩

inductive RxEvent
  /-- `rtw_alloc_stainfo`. -/
  | allocStainfo (psta : StaId)
  | dataFrame (env : RxEnv) (f : RecvFrame)

/-- The replay state, and what has passed: the sequence control of the last frame `recv_decache`
let pass, for each station since it was allocated, and each TID. -/
structure Heard where
  replay : ReplayState
  last : StaId → Nat → Option Nat

/-- Nothing was received yet. -/
def Heard.start : Heard := ⟨.init, fun _ _ => none⟩

/-- Does `recv_decache` drop the frame? -/
def Heard.Drops (w : Heard) (i : StaId) (g : RecvFrame) : Prop :=
  recvDecache g (w.replay.rxcache i) = none

instance (w : Heard) (i : StaId) (g : RecvFrame) : Decidable (w.Drops i g) :=
  decidable_of_iff ((recvDecache g (w.replay.rxcache i)).isNone = true) Option.isNone_iff_eq_none

def Heard.step (w : Heard) : RxEvent → Heard
  | .allocStainfo psta =>
    { replay := { w.replay with
        rxcache := Function.update w.replay.rxcache psta freshRxcache }
      last := Function.update w.last psta fun _ => none }
  | .dataFrame env f =>
    { replay := (validateRecvDataFrame env w.replay f).replay
      last :=
        match decacheInput env f with
        | none => w.last
        | some (i, g) =>
          if w.Drops i g then w.last
          else Function.update w.last i
            (Function.update (w.last i) g.attrib.priority (some (seqCtrl g))) }

/-- **What is asked** when a frame of a station comes to the filter: it is dropped if the last one
that passed had its sequence control, and only then; the first one passes; a dropped frame fails
and changes nothing; and no frame changes the entry of another TID or station. -/
structure Heard.Filters (w : Heard) (env : RxEnv) (f : RecvFrame) (i : StaId) (g : RecvFrame) :
    Prop where
  drops : w.Drops i g ↔ w.last i g.attrib.priority = some (seqCtrl g)
  first : w.last i g.attrib.priority = none → ¬ w.Drops i g
  dropped : w.Drops i g → (validateRecvDataFrame env w.replay f).ret = .fail ∧
    (validateRecvDataFrame env w.replay f).replay = w.replay
  apart : ∀ j tid, ¬(j = i ∧ tid = g.attrib.priority) →
    ((validateRecvDataFrame env w.replay f).replay.rxcache j).tidRxseq tid
      = (w.replay.rxcache j).tidRxseq tid

/-- It is asked of every frame of a run. -/
def Heard.FiltersAll : Heard → List RxEvent → Prop
  | _, [] => True
  | w, e :: es =>
    (∀ env f, e = .dataFrame env f → ∀ i g, decacheInput env f = some (i, g) →
      w.Filters env f i g) ∧ (w.step e).FiltersAll es

/-- The first frame that passes for a TID does not look like the initial value. -/
def Heard.FirstOk : Heard → List RxEvent → Prop
  | _, [] => True
  | w, e :: es =>
    (∀ env f, e = .dataFrame env f → ∀ i g, decacheInput env f = some (i, g) →
      w.last i g.attrib.priority = none → seqCtrl g ≠ 0xffff) ∧ (w.step e).FirstOk es

/-! ## 2. What a frame does to the cache -/

theorem parseQc_priority (f : RecvFrame) : (parseQc f).attrib.priority ≤ 15 := by
  have hqc : getPriority f.mem 24 ≤ 15 := Nat.le_of_lt_succ (Nat.mod_lt _ (by decide))
  by_cases hqos : f.attrib.qos = 1 <;> by_cases horder : f.attrib.order = 0
  all_goals simp only [parseQc, hqos, horder, if_true, if_false, ne_eq, not_true, not_false_eq_true]
  all_goals first | exact hqc | exact Nat.zero_le _

theorem decacheInput_priority {env : RxEnv} {f g : RecvFrame} {i : StaId}
    (h : decacheInput env f = some (i, g)) : g.attrib.priority ≤ 15 := by
  simp only [decacheInput] at h
  split at h
  · cases h
    exact parseQc_priority _
  · cases h

/-- A frame of a TID is dropped for its sequence control only. -/
theorem recvDecache_eq {g : RecvFrame} {c : StainfoRxcache} (hg : g.attrib.priority ≤ 15) :
    recvDecache g c = if seqCtrl g = c.tidRxseq g.attrib.priority then none
      else some { c with
        tidRxseq := Function.update c.tidRxseq g.attrib.priority (seqCtrl g) } := by
  simp only [recvDecache, if_neg (Nat.not_lt_of_le hg)]

/-- The packet numbers are kept elsewhere. -/
theorem recvUcastPnDecache_rxseq {g : RecvFrame} {c c' : StainfoRxcache}
    (h : recvUcastPnDecache g c = some c') : c'.tidRxseq = c.tidRxseq := by
  simp only [recvUcastPnDecache] at h
  split at h
  · cases h
  · split at h
    · cases h
      rfl
    · split at h <;> cases h <;> rfl

/-- A dropped frame fails, and changes nothing. -/
theorem validate_dropped {env : RxEnv} {s : ReplayState} {f g : RecvFrame} {i : StaId}
    (h : decacheInput env f = some (i, g)) (hdrop : recvDecache g (s.rxcache i) = none) :
    (validateRecvDataFrame env s f).ret = .fail ∧ (validateRecvDataFrame env s f).replay = s := by
  simp only [decacheInput] at h
  split at h
  · rename_i psta hret hpsta
    cases h
    simp only [validateRecvDataFrame, hret, hpsta, hdrop, and_self]
  · cases h

/-- One that passes is remembered. -/
theorem validate_passed {env : RxEnv} {s : ReplayState} {f g : RecvFrame} {i : StaId}
    {c : StainfoRxcache} (h : decacheInput env f = some (i, g))
    (hpass : recvDecache g (s.rxcache i) = some c) (j : StaId) :
    ((validateRecvDataFrame env s f).replay.rxcache j).tidRxseq
      = if j = i then c.tidRxseq else (s.rxcache j).tidRxseq := by
  have hput : ∀ c' : StainfoRxcache, c'.tidRxseq = c.tidRxseq →
      (Function.update s.rxcache i c' j).tidRxseq
        = if j = i then c.tidRxseq else (s.rxcache j).tidRxseq := by
    intro c' hc'
    by_cases hj : j = i
    · rw [hj, Function.update_self, if_pos rfl, hc']
    · rw [Function.update_of_ne hj, if_neg hj]
  simp only [decacheInput] at h
  split at h
  · rename_i psta hret hpsta
    cases h
    simp only [validateRecvDataFrame, hret, hpsta, hpass]
    split
    · split
      · exact hput c rfl
      · rename_i c' hpn
        simp only [Function.update_idem]
        exact hput c' (recvUcastPnDecache_rxseq hpn)
    · split <;> exact hput c rfl
  · cases h

/-- A frame that does not come to the filter changes nothing. -/
theorem validate_elsewhere {env : RxEnv} {s : ReplayState} {f : RecvFrame}
    (h : decacheInput env f = none) : (validateRecvDataFrame env s f).replay = s := by
  simp only [decacheInput] at h
  simp only [validateRecvDataFrame]
  split
  · rfl
  · rfl
  · rfl
  · rename_i psta hret hpsta
    simp only [hret, hpsta, reduceCtorEq] at h

/-! ## 3. The cache and what has passed -/

/-- **The cache holds what has passed**, or the initial value. -/
def Heard.Kept (w : Heard) : Prop :=
  ∀ i tid, (w.replay.rxcache i).tidRxseq tid = (w.last i tid).getD 0xffff

variable {w : Heard}

theorem kept_start : Heard.start.Kept := fun _ _ => rfl

theorem Heard.Kept.drops_iff (h : w.Kept) {i : StaId} {g : RecvFrame}
    (hg : g.attrib.priority ≤ 15) :
    w.Drops i g ↔ seqCtrl g = (w.last i g.attrib.priority).getD 0xffff := by
  rw [← h i g.attrib.priority, Heard.Drops, recvDecache_eq hg]
  split
  · rename_i heq
    exact ⟨fun _ => heq, fun _ => rfl⟩
  · rename_i hne
    exact ⟨nofun, fun heq => absurd heq hne⟩

/-- Every event keeps it so. -/
theorem Heard.Kept.step (h : w.Kept) (e : RxEvent) : (w.step e).Kept := by
  intro j tid
  cases e with
  | allocStainfo psta =>
    simp only [Heard.step]
    by_cases hj : j = psta
    · rw [hj, Function.update_self, Function.update_self]
      rfl
    · rw [Function.update_of_ne hj, Function.update_of_ne hj]
      exact h j tid
  | dataFrame env f =>
    simp only [Heard.step]
    cases hin : decacheInput env f with
    | none =>
      rw [validate_elsewhere hin]
      exact h j tid
    | some r =>
      obtain ⟨i, g⟩ := r
      have hg := decacheInput_priority hin
      by_cases hdrop : w.Drops i g
      · rw [(validate_dropped hin hdrop).2]
        simp only [if_pos hdrop]
        exact h j tid
      · obtain ⟨c, hc⟩ := Option.ne_none_iff_exists'.mp hdrop
        have hseq : c.tidRxseq = Function.update (w.replay.rxcache i).tidRxseq g.attrib.priority
            (seqCtrl g) := by
          rw [recvDecache_eq hg] at hc
          split at hc
          · cases hc
          · cases hc
            rfl
        rw [validate_passed hin hc j, hseq]
        simp only [if_neg hdrop]
        by_cases hj : j = i
        · subst hj
          rw [if_pos rfl, Function.update_self]
          by_cases htid : tid = g.attrib.priority
          · rw [htid, Function.update_self, Function.update_self]
            rfl
          · rw [Function.update_of_ne htid, Function.update_of_ne htid]
            exact h j tid
        · rw [if_neg hj, Function.update_of_ne hj]
          exact h j tid

/-- **One frame.**  The filter is right about it unless it comes first and has the sequence control
that stands for no frame. -/
theorem Heard.Kept.filters_iff (h : w.Kept) {env : RxEnv} {f g : RecvFrame} {i : StaId}
    (hin : decacheInput env f = some (i, g)) :
    w.Filters env f i g ↔ (w.last i g.attrib.priority = none → seqCtrl g ≠ 0xffff) := by
  have hdrops := h.drops_iff (i := i) (decacheInput_priority hin)
  constructor
  · intro hfilters hnone hseq
    refine hfilters.first hnone (hdrops.mpr ?_)
    rw [hnone, hseq]
    rfl
  · intro hfirst
    have hiff : w.Drops i g ↔ w.last i g.attrib.priority = some (seqCtrl g) := by
      rw [hdrops]
      cases hlast : w.last i g.attrib.priority with
      | none => exact ⟨fun heq => absurd heq (hfirst hlast), nofun⟩
      | some sc => exact ⟨fun heq => congrArg some heq.symm, fun heq => (Option.some.inj heq).symm⟩
    refine ⟨hiff, fun hnone hdrop => ?_, validate_dropped hin, fun j tid hne => ?_⟩
    · rw [hiff, hnone] at hdrop
      cases hdrop
    · cases hc : recvDecache g (w.replay.rxcache i) with
      | none => rw [(validate_dropped hin hc).2]
      | some c =>
        rw [validate_passed hin hc j]
        split
        · rename_i hj
          subst hj
          have htid : tid ≠ g.attrib.priority := fun heq => hne ⟨rfl, heq⟩
          rw [recvDecache_eq (decacheInput_priority hin)] at hc
          split at hc
          · cases hc
          · cases hc
            exact Function.update_of_ne htid _ _
        · rfl

theorem Heard.Kept.filtersAll_iff {es : List RxEvent} :
    ∀ {w : Heard}, w.Kept → (w.FiltersAll es ↔ w.FirstOk es) := by
  induction es with
  | nil => exact fun _ => Iff.rfl
  | cons e es ih =>
    intro w h
    refine and_congr ?_ (ih (h.step e))
    refine forall₂_congr fun env f => forall_congr' fun _ => ?_
    exact forall₂_congr fun i g => forall_congr' fun hin => h.filters_iff hin

/-- A data frame from the access point with sequence control 0xffff. -/
def lastFragment : RecvFrame where
  id := 0
  attrib := default
  buf := [0x08, 0x02, 0, 0] ++ ourAddr.toBytes ++ apAddr.toBytes ++ apAddr.toBytes ++
    [0xff, 0xff] ++ List.replicate 16 0
  rxData := 0
  rxTail := 40

/-- **The duplicate filter is right** about every frame of a run exactly if no frame comes to a
station and TID first and has sequence control 0xffff. -/
theorem duplicate_filter_iff (es : List RxEvent) :
    Heard.start.FiltersAll es ↔ Heard.start.FirstOk es :=
  kept_start.filtersAll_iff

/-- It is not right about all runs: the first frame of a station is dropped. -/
theorem first_frame_dropped :
    Heard.start.Drops 1 (parseQc (dataRoute linkedStation (readFrameControl lastFragment)).frame) ∧
    ¬ ∀ es, Heard.start.FiltersAll es := by
  refine ⟨by decide +kernel, fun hall => ?_⟩
  have hfirst := kept_start.filtersAll_iff.mp
    (hall [.dataFrame linkedStation (readFrameControl lastFragment)])
  have hin : decacheInput linkedStation (readFrameControl lastFragment)
      = some (1, parseQc (dataRoute linkedStation (readFrameControl lastFragment)).frame) := by
    have hret : (dataRoute linkedStation (readFrameControl lastFragment)).ret = .success := by
      decide +kernel
    have hpsta : (dataRoute linkedStation (readFrameControl lastFragment)).psta = some 1 := by
      decide +kernel
    simp only [decacheInput, hret, hpsta]
  exact hfirst.1 _ _ rfl _ _ hin rfl (by decide +kernel)

end Decache

end Rtl8723bs
