/-
# Power save over a run

Two agreements are kept between the sleeping queues and the numbers about them: the counters
`sleepq_len` and `sleepq_ac_len`, and the TIM bitmap.  Both hold after any sequence of frames
for sleeping stations, wake-ups, U-APSD triggers and sleep transitions.  A PS-Poll is the
exception: it sends the first frame whatever its category, touches only `sleepq_len`, and
clears the TIM bit only when the queue is empty.

So `sleepq_counts_kept` asks of every PS-Poll that the frame at the head is not one of the
delivery enabled categories, and `tim_agrees_kept` that it leaves the queue empty or with a
frame that is signalled.  `sleepq_ac_len_drifts` and `tim_bit_stuck` are runs of a station
with one delivery enabled category that break the two.
-/
import Rtl8723bs.Tx.PowerSave
import Rtl8723bs.Tx.SchedRun

namespace Rtl8723bs

open LinkedQueues

/-! ## 1. What the operations on `Sched` leave alone -/

/-- Sending a frame changes the pending queues only. -/
theorem halXmitframeEnqueue_eq (st : Sched) (f : XmitFrame) :
    ∃ q, rtl8723bsHalXmitframeEnqueue st f = { st with q := q } := by
  unfold rtl8723bsHalXmitframeEnqueue rtwXmitClassifier
  split
  · exact ⟨st.q, rfl⟩
  · split
    · exact ⟨st.q, rfl⟩
    · split
      · exact ⟨st.q, rfl⟩
      · exact ⟨_, rfl⟩

/-- `st'` differs from `st` in the sleeping queue of `psta` and in what no table or AID and no
other sleeping queue shows. -/
structure Sched.OnlyAt (psta : StaId) (st st' : Sched) : Prop where
  table : st'.table = st.table
  aid : st'.aid = st.aid
  sleepQ : ∀ s, s ≠ psta → st'.sleepQ s = st.sleepQ s
  sleepqLen : ∀ s, s ≠ psta → st'.sleepqLen s = st.sleepqLen s

theorem Sched.OnlyAt.refl (psta : StaId) (st : Sched) : st.OnlyAt psta st :=
  ⟨rfl, rfl, fun _ _ => rfl, fun _ _ => rfl⟩

theorem Sched.OnlyAt.trans {psta : StaId} {st st' st'' : Sched} (h : st.OnlyAt psta st')
    (h' : st'.OnlyAt psta st'') : st.OnlyAt psta st'' :=
  ⟨h'.table.trans h.table, h'.aid.trans h.aid,
    fun s hs => (h'.sleepQ s hs).trans (h.sleepQ s hs),
    fun s hs => (h'.sleepqLen s hs).trans (h.sleepqLen s hs)⟩

/-- One frame leaves a sleeping queue, and `l` is left in it. -/
theorem sendOne_spec (st : Sched) (psta : StaId) (f : XmitFrame) (l : List XmitFrame) :
    st.OnlyAt psta (rtl8723bsHalXmitframeEnqueue (st.sleepDequeue psta l) f) ∧
      (rtl8723bsHalXmitframeEnqueue (st.sleepDequeue psta l) f).sleepQ psta = l ∧
      (rtl8723bsHalXmitframeEnqueue (st.sleepDequeue psta l) f).sleepqLen psta
        = st.sleepqLen psta - 1 ∧
      (rtl8723bsHalXmitframeEnqueue (st.sleepDequeue psta l) f).staDzBitmap
        = st.staDzBitmap := by
  obtain ⟨q, hq⟩ := halXmitframeEnqueue_eq (st.sleepDequeue psta l) f
  rw [hq]
  refine ⟨⟨rfl, rfl, ?_, ?_⟩, Function.update_self .., Function.update_self .., rfl⟩
  · exact fun s hs => Function.update_of_ne hs ..
  · exact fun s hs => Function.update_of_ne hs ..

theorem ofNat_succ_sub_one (n : Nat) : BitVec.ofNat 32 (n + 1) - 1 = BitVec.ofNat 32 n := by
  bv_omega

theorem ofNat_add_one (n : Nat) : BitVec.ofNat 32 n + 1 = BitVec.ofNat 32 (n + 1) := by
  bv_omega

theorem sub_one_sub_ofNat (x : BitVec 32) (n : Nat) :
    x - 1 - BitVec.ofNat 32 n = x - BitVec.ofNat 32 (n + 1) := by
  bv_omega

theorem releaseLoop_spec (psta : StaId) : ∀ (l : List XmitFrame) (st : Sched),
    st.sleepQ psta = l →
      st.OnlyAt psta (releaseLoop psta l st) ∧
        (releaseLoop psta l st).sleepQ psta = [] ∧
        (releaseLoop psta l st).sleepqLen psta = st.sleepqLen psta - BitVec.ofNat 32 l.length ∧
        (releaseLoop psta l st).staDzBitmap = st.staDzBitmap := by
  intro l
  induction l with
  | nil =>
    intro st hq
    exact ⟨Sched.OnlyAt.refl psta st, hq, (BitVec.sub_zero _).symm, rfl⟩
  | cons f rest ih =>
    intro st _
    obtain ⟨hat, hq, hlen, hdz⟩ := sendOne_spec st psta { f with triggered := 1 } rest
    obtain ⟨hat', hq', hlen', hdz'⟩ := ih _ hq
    refine ⟨hat.trans hat', hq', ?_, hdz'.trans hdz⟩
    refine hlen'.trans ?_
    rw [hlen, sub_one_sub_ofNat, List.length_cons]

/-! ## 2. The counters -/

/-- `sleepq_len` of every station counts its sleeping queue. -/
def PsState.LenOk (ps : PsState) : Prop :=
  ∀ s, ps.sleepqLen s = BitVec.ofNat 32 (ps.sleepQ s).length

/-- `sleepq_ac_len` of a station counts the frames whose delivery is enabled. -/
def PsState.AcOk (ps : PsState) (s : StaId) : Prop :=
  ps.sleepqAcLen s = BitVec.ofNat 32 ((ps.sleepQ s).countP (ps.delivers s))

/-- The entries of the pool as they are filled: a station has parsed its request, and the entry
for the broadcast address has not. -/
structure PsState.Bss (ps : PsState) : Prop where
  everybody : ∀ e ∈ ps.table.entries, e.1 = bcAddr → ps.wmm e.2 = zeroWmm ∧ ps.aid e.2 = 0
  station : ∀ e ∈ ps.table.entries, e.1 ≠ bcAddr →
    (∃ qosInfo, ps.wmm e.2 = rtwApParseStaWmmIe qosInfo) ∧ 0 < ps.aid e.2 ∧ ps.aid e.2 ≤ numSta
  apart : ∀ e ∈ ps.table.entries, ∀ e' ∈ ps.table.entries,
    ps.aid e.2 = ps.aid e'.2 → e.2 = e'.2

/-- `ps'` differs from `ps` in the sleeping queue of `psta` and its counters, and in what shows
neither there nor in the table. -/
structure PsState.OnlyAt (psta : StaId) (ps ps' : PsState) : Prop where
  sched : ps.toSched.OnlyAt psta ps'.toSched
  wmm : ps'.wmm = ps.wmm
  sleepqAcLen : ∀ s, s ≠ psta → ps'.sleepqAcLen s = ps.sleepqAcLen s

theorem PsState.OnlyAt.refl (psta : StaId) (ps : PsState) : ps.OnlyAt psta ps :=
  ⟨Sched.OnlyAt.refl psta ps.toSched, rfl, fun _ _ => rfl⟩

theorem PsState.OnlyAt.trans {psta : StaId} {ps ps' ps'' : PsState} (h : ps.OnlyAt psta ps')
    (h' : ps'.OnlyAt psta ps'') : ps.OnlyAt psta ps'' :=
  ⟨h.sched.trans h'.sched, h'.wmm.trans h.wmm,
    fun s hs => (h'.sleepqAcLen s hs).trans (h.sleepqAcLen s hs)⟩

theorem PsState.OnlyAt.bss {psta : StaId} {ps ps' : PsState} (h : ps.OnlyAt psta ps')
    (hb : ps.Bss) : ps'.Bss := by
  refine ⟨?_, ?_, ?_⟩
  · rw [h.sched.table, h.wmm, h.sched.aid]
    exact hb.everybody
  · rw [h.sched.table, h.wmm, h.sched.aid]
    exact hb.station
  · rw [h.sched.table, h.sched.aid]
    exact hb.apart

theorem PsState.OnlyAt.delivers {psta : StaId} {ps ps' : PsState} (h : ps.OnlyAt psta ps')
    (s : StaId) : ps'.delivers s = ps.delivers s := by
  unfold PsState.delivers
  rw [h.wmm]

/-- The lengths of all queues are right if the one that changed is. -/
theorem PsState.OnlyAt.lenOk {psta : StaId} {ps ps' : PsState} (h : ps.OnlyAt psta ps')
    (hl : ps.LenOk) (hat : ps'.sleepqLen psta = BitVec.ofNat 32 (ps'.sleepQ psta).length) :
    ps'.LenOk := by
  intro s
  by_cases hs : s = psta
  · rw [hs]
    exact hat
  · rw [h.sched.sleepQ s hs, h.sched.sleepqLen s hs]
    exact hl s

theorem PsState.OnlyAt.acOk {psta s : StaId} {ps ps' : PsState} (h : ps.OnlyAt psta ps')
    (ha : ps.AcOk s) (hat : s = psta → ps'.AcOk psta) : ps'.AcOk s := by
  by_cases hs : s = psta
  · rw [hs]
    exact hat hs
  · unfold PsState.AcOk
    rw [h.sched.sleepQ s hs, h.sleepqAcLen s hs, h.delivers]
    exact ha

/-- Delivery and trigger are enabled together. -/
theorem parse_trigger (qosInfo : Option (BitVec 8)) (ac : Ac) :
    (rtwApParseStaWmmIe qosInfo).triggerEnabled ac
      = (rtwApParseStaWmmIe qosInfo).deliveryEnabled ac := by
  unfold rtwApParseStaWmmIe StaWmm.triggerEnabled StaWmm.deliveryEnabled
  split
  · simp
  · simp only
    split
    · decide
    · simp

/-- A station that is found has its bits paired. -/
theorem PsState.Bss.trigger {ps : PsState} (hb : ps.Bss) {a : MacAddr} {psta : StaId}
    (h : rtwGetStainfo ps.table a = some psta) (ac : Ac) :
    (ps.wmm psta).triggerEnabled ac = (ps.wmm psta).deliveryEnabled ac := by
  have hmem := rtwGetStainfo_mem h
  by_cases hbc : (if isMcast a then bcAddr else a) = bcAddr
  · rw [(hb.everybody _ hmem hbc).1]
    simp [zeroWmm, StaWmm.triggerEnabled, StaWmm.deliveryEnabled]
  · obtain ⟨⟨qosInfo, hparse⟩, _⟩ := hb.station _ hmem hbc
    rw [hparse]
    exact parse_trigger qosInfo ac

/-! ## 3. What the operations keep -/

/-- The queue, the counters and the bit of a frame that was put to sleep. -/
theorem psEnqueue_cases {ps ps' : PsState} {f : XmitFrame}
    (h : ps.xmitframeEnqueueForSleepingSta f = some ps') :
    ∃ psta, rtwGetStainfo ps.table f.ra = some psta ∧ ps.OnlyAt psta ps' ∧
      ps'.sleepQ psta = ps.sleepQ psta ++ [f] ∧
      ps'.sleepqLen psta = ps.sleepqLen psta + 1 ∧
      ((isMcast f.ra = true ∧ ps'.sleepqAcLen = ps.sleepqAcLen ∧
          ps'.timBitmap = ps.timBitmap ||| bit16 0) ∨
        (isMcast f.ra = false ∧ ps.staDzBitmap.getLsbD (ps.aid psta) = true ∧
          ps'.sleepqAcLen = (if ps.delivers psta f then
            Function.update ps.sleepqAcLen psta (ps.sleepqAcLen psta + 1)
            else ps.sleepqAcLen) ∧
          ps'.timBitmap = (if (ps.wmm psta).hasLegacyAc ≠ ps.delivers psta f then
            ps.timBitmap ||| bit16 (ps.aid psta) else ps.timBitmap))) := by
  unfold PsState.xmitframeEnqueueForSleepingSta at h
  split at h
  · rename_i st psta hst hpsta
    obtain ⟨psta', hpsta', hsta, hcases⟩ := xmitframeEnqueue_cases hst
    obtain rfl : psta = psta' := Option.some.inj (hpsta.symm.trans hpsta')
    have hsched : ps.toSched.OnlyAt psta st ∧ st.sleepQ psta = ps.sleepQ psta ++ [f] ∧
        st.sleepqLen psta = ps.sleepqLen psta + 1 := by
      rcases hcases with ⟨_, rfl⟩ | ⟨_, _, rfl⟩
      · exact ⟨⟨rfl, rfl, fun s hs => Function.update_of_ne hs .., fun s hs =>
          Function.update_of_ne hs ..⟩, Function.update_self .., Function.update_self ..⟩
      · exact ⟨⟨rfl, rfl, fun s hs => Function.update_of_ne hs .., fun s hs =>
          Function.update_of_ne hs ..⟩, Function.update_self .., Function.update_self ..⟩
    obtain ⟨hat, hq, hlen⟩ := hsched
    refine ⟨psta, hsta, ?_⟩
    split at h
    · rename_i hmc
      obtain rfl := Option.some.inj h
      exact ⟨⟨hat, rfl, fun _ _ => rfl⟩, hq, hlen, Or.inl ⟨hmc, rfl, rfl⟩⟩
    · rename_i hmc
      obtain rfl := Option.some.inj h
      have hbit : ps.staDzBitmap.getLsbD (ps.aid psta) = true := by
        rcases hcases with ⟨hmc', _⟩ | ⟨_, hbit, _⟩
        · exact absurd hmc' hmc
        · exact hbit
      refine ⟨⟨hat, rfl, ?_⟩, hq, hlen, Or.inr ⟨eq_false_of_ne_true hmc, hbit, rfl, rfl⟩⟩
      intro s hs
      simp only
      split
      · exact Function.update_of_ne hs ..
      · rfl
  · cases h

/-- Another queue of transmit frames makes no difference to a sleeping one. -/
theorem PsState.onlyAt_setQ (psta : StaId) (ps : PsState) (q : TxQueues) :
    ps.OnlyAt psta { ps with q := q } :=
  ⟨⟨rfl, rfl, fun _ _ => rfl, fun _ _ => rfl⟩, rfl, fun _ _ => rfl⟩

/-- `st'` has the stations and the sleeping queues of `st`. -/
structure Sched.SameSleepers (st st' : Sched) : Prop where
  table : st'.table = st.table
  aid : st'.aid = st.aid
  sleepQ : st'.sleepQ = st.sleepQ
  sleepqLen : st'.sleepqLen = st.sleepqLen

/-- **A sleep transition** keeps what a single frame put to sleep keeps, if it depends on
nothing of the `Sched` but the sleeping queues. -/
theorem stopStaXmit_induction {P : PsState → Prop}
    (henq : ∀ {ps ps' f}, P ps → ps.xmitframeEnqueueForSleepingSta f = some ps' → P ps')
    (hsched : ∀ {ps : PsState} {st}, P ps → ps.toSched.SameSleepers st →
      P { ps with toSched := st })
    {ps ps' : PsState} {psta : StaId} (hP : P ps) (h : ps.stopStaXmit psta = some ps') :
    P ps' := by
  have hloop : ∀ (psta : StaId) (ac : Ac) (l kept : List XmitFrame) (ps : PsState), P ps →
      P (PsState.dequeueLoop psta ac kept l ps) := by
    intro psta ac l
    induction l with
    | nil => exact fun _ _ hP => hP
    | cons f rest ih =>
      intro kept ps hP
      unfold PsState.dequeueLoop
      simp only
      split
      · rename_i ps' hps'
        exact ih kept _ (hsched (henq hP hps') ⟨rfl, rfl, rfl, rfl⟩)
      · exact ih _ _ (hsched hP ⟨rfl, rfl, rfl, rfl⟩)
  have hput : ∀ (psta : StaId) (ac : Ac) (ps : PsState), P ps →
      P (PsState.putAside psta ps ac) := by
    intro psta ac ps hP
    exact hsched (hloop psta ac (ps.q.queue psta ac) [] ps hP) ⟨rfl, rfl, rfl, rfl⟩
  have hdoze : P { ps with toSched := ps.toSched.dozeOff psta } :=
    hsched hP ⟨rfl, rfl, rfl, rfl⟩
  unfold PsState.stopStaXmit at h
  split at h
  · cases h
  · rename_i pstaBmc _
    obtain rfl := Option.some.inj h
    refine hput pstaBmc .be _ ?_
    exact hput psta .bk _ (hput psta .be _ (hput psta .vi _ (hput psta .vo _ hdoze)))

/-- A frame leaves a sleeping queue. -/
theorem psSendOne_spec (ps : PsState) (psta : StaId) (f : XmitFrame) (l : List XmitFrame) :
    ps.OnlyAt psta (ps.sendOne psta f l) ∧ (ps.sendOne psta f l).sleepQ psta = l ∧
      (ps.sendOne psta f l).sleepqLen psta = ps.sleepqLen psta - 1 := by
  obtain ⟨hat, hq, hlen, _⟩ := sendOne_spec ps.toSched psta { f with triggered := 1 } l
  exact ⟨⟨hat, rfl, fun _ _ => rfl⟩, hq, hlen⟩

/-- The loop of `wakeup_sta_to_xmit` works on the `Sched` as the plain one does, and takes the
frames of triggered categories off `sleepq_ac_len`. -/
theorem psReleaseLoop_spec (psta : StaId) : ∀ (l : List XmitFrame) (ps : PsState),
    (PsState.releaseLoop psta l ps).toSched = releaseLoop psta l ps.toSched ∧
      (PsState.releaseLoop psta l ps).wmm = ps.wmm ∧
      (PsState.releaseLoop psta l ps).timBitmap = ps.timBitmap ∧
      (∀ s, s ≠ psta → (PsState.releaseLoop psta l ps).sleepqAcLen s = ps.sleepqAcLen s) ∧
      (PsState.releaseLoop psta l ps).sleepqAcLen psta = ps.sleepqAcLen psta -
        BitVec.ofNat 32 (l.countP fun f => (ps.wmm psta).triggerEnabled (acOf f.priority)) := by
  intro l
  induction l with
  | nil => exact fun ps => ⟨rfl, rfl, rfl, fun _ _ => rfl, (BitVec.sub_zero _).symm⟩
  | cons f rest ih =>
    intro ps
    obtain ⟨hsched, hwmm, htim, hother, hac⟩ := ih
      { ps with
        toSched :=
          rtl8723bsHalXmitframeEnqueue (ps.toSched.sleepDequeue psta rest)
            { f with triggered := 1 }
        sleepqAcLen :=
          if (ps.wmm psta).triggerEnabled (acOf f.priority) then
            Function.update ps.sleepqAcLen psta (ps.sleepqAcLen psta - 1)
          else ps.sleepqAcLen }
    refine ⟨hsched, hwmm, htim, ?_, ?_⟩
    · intro s hs
      refine (hother s hs).trans ?_
      simp only
      split
      · exact Function.update_of_ne hs ..
      · rfl
    · refine hac.trans ?_
      simp only [List.countP_cons]
      split
      · rw [Function.update_self, sub_one_sub_ofNat]
      · rfl

/-- Afterwards the sleeping queue is empty, and both counters show it. -/
theorem psReleaseLoop_kept {ps : PsState} {a : MacAddr} {psta : StaId} (hb : ps.Bss)
    (ha : rtwGetStainfo ps.table a = some psta) (hl : ps.LenOk) :
    ps.OnlyAt psta (PsState.releaseLoop psta (ps.sleepQ psta) ps) ∧
      (PsState.releaseLoop psta (ps.sleepQ psta) ps).sleepQ psta = [] ∧
      (PsState.releaseLoop psta (ps.sleepQ psta) ps).sleepqLen psta = 0 ∧
      (PsState.releaseLoop psta (ps.sleepQ psta) ps).timBitmap = ps.timBitmap ∧
      (ps.AcOk psta → (PsState.releaseLoop psta (ps.sleepQ psta) ps).sleepqAcLen psta = 0) := by
  obtain ⟨hsched, hwmm, htim, hother, hac⟩ := psReleaseLoop_spec psta (ps.sleepQ psta) ps
  obtain ⟨hat, hq, hlen, _⟩ := releaseLoop_spec psta (ps.sleepQ psta) ps.toSched rfl
  refine ⟨⟨hsched ▸ hat, hwmm, hother⟩, hsched ▸ hq, ?_, htim, ?_⟩
  · rw [hsched, hlen, hl psta]
    exact BitVec.sub_self _
  · intro hacOk
    have hsame : (fun f : XmitFrame => (ps.wmm psta).triggerEnabled (acOf f.priority))
        = ps.delivers psta := by
      funext f
      exact hb.trigger ha _
    rw [hac, hsame, hacOk]
    exact BitVec.sub_self _

/-- The entry for the broadcast address has no delivery enabled category. -/
theorem acOk_of_zeroWmm {ps : PsState} {s : StaId} (h : ps.wmm s = zeroWmm) :
    ps.AcOk s ↔ ps.sleepqAcLen s = 0 := by
  have hcount : (ps.sleepQ s).countP (ps.delivers s) = 0 := by
    refine List.countP_eq_zero.mpr ?_
    intro f _
    simp [PsState.delivers, h, zeroWmm, StaWmm.deliveryEnabled]
  unfold PsState.AcOk
  rw [hcount]
  rfl

theorem PsState.Bss.bmc {ps : PsState} (hb : ps.Bss) {b : StaId}
    (h : rtwGetBcmcStainfo ps.table = some b) : ps.wmm b = zeroWmm ∧ ps.aid b = 0 := by
  have hmem := rtwGetStainfo_mem h
  exact hb.everybody _ hmem (by simp)

/-- Waking up changes a bit and no queue. -/
theorem psWakeIfDone_spec {ps : PsState} {psta : StaId} (hlen : ps.sleepqLen psta = 0) :
    ps.OnlyAt psta (ps.wakeIfDone psta) ∧ (ps.wakeIfDone psta).sleepQ = ps.sleepQ ∧
      (ps.wakeIfDone psta).sleepqLen = ps.sleepqLen ∧
      (ps.wakeIfDone psta).sleepqAcLen = ps.sleepqAcLen ∧
      (ps.wakeIfDone psta).timBitmap = ps.timBitmap &&& ~~~bit16 (ps.aid psta) := by
  unfold PsState.wakeIfDone Sched.wakeIfDone
  rw [if_pos hlen, if_pos hlen]
  exact ⟨⟨⟨rfl, rfl, fun _ _ => rfl, fun _ _ => rfl⟩, rfl, fun _ _ => rfl⟩, rfl, rfl, rfl, rfl⟩

theorem psReleaseBmc_spec {ps : PsState} {b : StaId} (hl : ps.LenOk) :
    ps.OnlyAt b (ps.releaseBmc b) ∧ (ps.releaseBmc b).sleepqAcLen = ps.sleepqAcLen ∧
      (((ps.releaseBmc b).sleepQ b = ps.sleepQ b ∧
          (ps.releaseBmc b).sleepqLen b = ps.sleepqLen b ∧
          (ps.releaseBmc b).timBitmap = ps.timBitmap) ∨
        ((ps.releaseBmc b).sleepQ b = [] ∧ (ps.releaseBmc b).sleepqLen b = 0 ∧
          (ps.releaseBmc b).timBitmap = ps.timBitmap &&& ~~~bit16 0)) := by
  by_cases hdz : ps.staDzBitmap &&& 0xfffe = 0
  · obtain ⟨hat, hq, hlen, _⟩ := releaseLoop_spec b (ps.sleepQ b) ps.toSched rfl
    have hzero : (releaseLoop b (ps.sleepQ b) ps.toSched).sleepqLen b = 0 := by
      rw [hlen, hl b]
      exact BitVec.sub_self _
    have hsched : ps.toSched.releaseBmc b
        = { releaseLoop b (ps.sleepQ b) ps.toSched with
            staDzBitmap :=
              (releaseLoop b (ps.sleepQ b) ps.toSched).staDzBitmap &&& ~~~bit16 0 } := by
      unfold Sched.releaseBmc
      rw [if_pos hdz]
      exact if_pos hzero
    refine ⟨⟨?_, rfl, fun _ _ => rfl⟩, rfl, Or.inr ?_⟩
    · change ps.toSched.OnlyAt b (ps.toSched.releaseBmc b)
      rw [hsched]
      exact ⟨hat.table, hat.aid, hat.sleepQ, hat.sleepqLen⟩
    · unfold PsState.releaseBmc
      simp only [hsched]
      exact ⟨hq, hzero, if_pos ⟨hdz, hzero⟩⟩
  · have hsched : ps.toSched.releaseBmc b = ps.toSched := by
      unfold Sched.releaseBmc
      exact if_neg hdz
    have htim : (ps.releaseBmc b).timBitmap = ps.timBitmap := if_neg fun h => hdz h.1
    refine ⟨⟨?_, rfl, fun _ _ => rfl⟩, rfl, Or.inl ⟨?_, ?_, htim⟩⟩
    · change ps.toSched.OnlyAt b (ps.toSched.releaseBmc b)
      rw [hsched]
      exact Sched.OnlyAt.refl b ps.toSched
    · exact congrArg (fun st : Sched => st.sleepQ b) hsched
    · exact congrArg (fun st : Sched => st.sleepqLen b) hsched

/-- One delivered frame is counted off both counters. -/
theorem psDeliverOne_spec (ps : PsState) (psta : StaId) (f : XmitFrame) (l : List XmitFrame) :
    ps.OnlyAt psta (ps.deliverOne psta f l) ∧ (ps.deliverOne psta f l).sleepQ psta = l ∧
      (ps.deliverOne psta f l).sleepqLen psta = ps.sleepqLen psta - 1 ∧
      (ps.deliverOne psta f l).sleepqAcLen psta = ps.sleepqAcLen psta - 1 ∧
      (ps.deliverOne psta f l).timBitmap =
        if ps.sleepqAcLen psta - 1 = 0 ∧ (ps.wmm psta).hasLegacyAc = false then
          ps.timBitmap &&& ~~~bit16 (ps.aid psta)
        else ps.timBitmap := by
  obtain ⟨hat, hq, hlen⟩ := psSendOne_spec ps psta f l
  have hother : ∀ s, s ≠ psta →
      Function.update ps.sleepqAcLen psta (ps.sleepqAcLen psta - 1) s = ps.sleepqAcLen s :=
    fun s hs => Function.update_of_ne hs ..
  have haid : (ps.sendOne psta f l).aid = ps.aid := hat.sched.aid
  have hwmm : (ps.sendOne psta f l).wmm = ps.wmm := rfl
  unfold PsState.deliverOne
  simp only [Function.update_self, hwmm]
  by_cases hdone : ps.sleepqAcLen psta - 1 = 0 ∧ (ps.wmm psta).hasLegacyAc = false
  · rw [if_pos hdone, if_pos hdone]
    refine ⟨⟨?_, rfl, hother⟩, hq, hlen, Function.update_self .., ?_⟩
    · exact ⟨hat.sched.table, hat.sched.aid, hat.sched.sleepQ, hat.sched.sleepqLen⟩
    · change ps.timBitmap &&& ~~~bit16 ((ps.sendOne psta f l).aid psta) = _
      rw [haid]
  · rw [if_neg hdone, if_neg hdone]
    exact ⟨⟨hat.sched, rfl, hother⟩, hq, hlen, Function.update_self .., rfl⟩

/-- **A frame put to sleep** is counted. -/
theorem psEnqueue_counts {ps ps' : PsState} {f : XmitFrame} (hb : ps.Bss) (hl : ps.LenOk)
    (h : ps.xmitframeEnqueueForSleepingSta f = some ps') :
    ps'.Bss ∧ ps'.LenOk ∧ ∀ s, ps.AcOk s → ps'.AcOk s := by
  obtain ⟨psta, hsta, hat, hq, hlen, hcases⟩ := psEnqueue_cases h
  refine ⟨hat.bss hb, hat.lenOk hl ?_, fun s hs => hat.acOk hs ?_⟩
  · rw [hlen, hq, hl psta, List.length_append, List.length_singleton, ofNat_add_one]
  · rintro rfl
    rcases hcases with ⟨hmc, hac, _⟩ | ⟨_, _, hac, _⟩
    · have hmem := rtwGetStainfo_mem hsta
      rw [if_pos hmc] at hmem
      have hzero : ps.wmm s = zeroWmm := (hb.everybody _ hmem rfl).1
      rw [acOk_of_zeroWmm (hat.wmm ▸ hzero), hac]
      exact (acOk_of_zeroWmm hzero).mp hs
    · unfold PsState.AcOk
      rw [hat.delivers, hq, List.countP_append, List.countP_singleton, hac]
      by_cases hd : ps.delivers s f = true
      · rw [if_pos hd, if_pos hd, Function.update_self, hs, ofNat_add_one]
      · rw [if_neg hd, if_neg hd, hs, Nat.add_zero]

/-- **Waking up** counts off what it sends. -/
theorem psWakeup_counts {ps : PsState} {a : MacAddr} {psta : StaId} (hb : ps.Bss) (hl : ps.LenOk)
    (ha : rtwGetStainfo ps.table a = some psta) :
    (ps.wakeupStaToXmit psta).Bss ∧ (ps.wakeupStaToXmit psta).LenOk ∧
      ∀ s, ps.AcOk s → (ps.wakeupStaToXmit psta).AcOk s := by
  obtain ⟨hat, hq, hlen, -, hac⟩ := psReleaseLoop_kept hb ha hl
  set ps₁ := PsState.releaseLoop psta (ps.sleepQ psta) ps
  obtain ⟨hat', hq', hlen', hac', -⟩ := psWakeIfDone_spec hlen
  set ps₂ := ps₁.wakeIfDone psta
  have hat₂ : ps.OnlyAt psta ps₂ := hat.trans hat'
  have hb₂ : ps₂.Bss := hat₂.bss hb
  have hl₂ : ps₂.LenOk := hat₂.lenOk hl (by rw [hlen', hq', hlen, hq]; rfl)
  have hac₂ : ∀ s, ps.AcOk s → ps₂.AcOk s := by
    refine fun s hs => hat₂.acOk hs ?_
    rintro rfl
    unfold PsState.AcOk
    rw [hac', hq', hq, hac hs]
    rfl
  unfold PsState.wakeupStaToXmit
  split
  · exact ⟨hb₂, hl₂, hac₂⟩
  · rename_i b hbmc
    obtain ⟨hatb, hacb, hcases⟩ := psReleaseBmc_spec (b := b) hl₂
    refine ⟨hatb.bss hb₂, hatb.lenOk hl₂ ?_, fun s hs => hatb.acOk (hac₂ s hs) ?_⟩
    · rcases hcases with ⟨hqb, hlb, _⟩ | ⟨hqb, hlb, _⟩
      · rw [hqb, hlb]
        exact hl₂ b
      · rw [hqb, hlb]
        rfl
    · rintro rfl
      have hzero : ps₂.wmm s = zeroWmm := by
        rw [hat₂.wmm]
        exact (hb.bmc hbmc).1
      rw [acOk_of_zeroWmm (hatb.wmm ▸ hzero), hacb]
      exact (acOk_of_zeroWmm hzero).mp (hac₂ s hs)

theorem getLsbD_set (x : BitVec 16) (n k : Nat) :
    (x ||| bit16 n).getLsbD k = (x.getLsbD k || (decide (n < 16) && decide (n = k))) := by
  rw [BitVec.getLsbD_or, getLsbD_bit16]

/-- Bits other than the one of `psta` are as they were. -/
def PsState.SameTim (psta : StaId) (ps ps' : PsState) : Prop :=
  ∀ k, k ≠ ps.aid psta → ps'.timBitmap.getLsbD k = ps.timBitmap.getLsbD k

/-- What `xmit_delivery_enabled_frames` leaves behind. -/
theorem psDeliverLoop_spec (psta : StaId) : ∀ (rest kept : List XmitFrame) (ps : PsState),
    (∀ ac, (ps.wmm psta).triggerEnabled ac = (ps.wmm psta).deliveryEnabled ac) →
      ps.sleepQ psta = kept ++ rest → ps.LenOk →
        ps.OnlyAt psta (PsState.deliverLoop psta kept rest ps) ∧
          (PsState.deliverLoop psta kept rest ps).LenOk ∧
          (ps.AcOk psta → (PsState.deliverLoop psta kept rest ps).AcOk psta) ∧
          (PsState.deliverLoop psta kept rest ps).sleepQ psta
            = kept ++ rest.filter (fun f => !ps.delivers psta f) ∧
          ps.SameTim psta (PsState.deliverLoop psta kept rest ps) ∧
          ((ps.wmm psta).hasLegacyAc = true →
            (PsState.deliverLoop psta kept rest ps).timBitmap = ps.timBitmap) := by
  intro rest
  induction rest with
  | nil =>
    intro kept ps _ hq hl
    exact ⟨PsState.OnlyAt.refl psta ps, hl, id, hq, fun _ _ => rfl, fun _ => rfl⟩
  | cons f rest ih =>
    intro kept ps hsame hq hl
    have hd : ps.delivers psta f = (ps.wmm psta).triggerEnabled (acOf f.priority) :=
      (hsame _).symm
    unfold PsState.deliverLoop
    split
    · rename_i hkeep
      have hf : (!ps.delivers psta f) = true := by rw [hd, hkeep]; rfl
      have hcons : (f :: rest).filter (fun f => !ps.delivers psta f)
          = f :: rest.filter (fun f => !ps.delivers psta f) :=
        List.filter_cons_of_pos (p := fun f => !ps.delivers psta f) hf
      have happ := ih (kept ++ [f]) ps hsame (by simpa using hq) hl
      rw [hcons]
      simpa using happ
    · rename_i hsend
      have hdtrue : ps.delivers psta f = true := by rw [hd]; exact eq_true_of_ne_false hsend
      obtain ⟨hat, hq₁, hlen₁, hac₁, htim₁⟩ := psDeliverOne_spec ps psta f (kept ++ rest)
      set ps₁ := ps.deliverOne psta f (kept ++ rest)
      have hlq : (ps.sleepQ psta).length = (kept ++ rest).length + 1 := by
        rw [hq]
        simp only [List.length_append, List.length_cons]
        omega
      have hl₁ : ps₁.LenOk := by
        refine hat.lenOk hl ?_
        rw [hlen₁, hq₁, hl psta, hlq, ofNat_succ_sub_one]
      have hacOk₁ : ps.AcOk psta → ps₁.AcOk psta := by
        intro hac
        have hcount : (ps.sleepQ psta).countP (ps.delivers psta)
            = (kept ++ rest).countP (ps.delivers psta) + 1 := by
          rw [hq]
          simp only [List.countP_append, List.countP_cons, hdtrue, if_true]
          omega
        unfold PsState.AcOk
        rw [hac₁, hq₁, hat.delivers, hac, hcount, ofNat_succ_sub_one]
      have hsame₁ : ∀ ac, (ps₁.wmm psta).triggerEnabled ac
          = (ps₁.wmm psta).deliveryEnabled ac := by
        rw [hat.wmm]
        exact hsame
      have htimSame : ps.SameTim psta ps₁ := by
        intro k hk
        rw [htim₁]
        split
        · rw [getLsbD_clear, decide_eq_true (Ne.symm hk), Bool.and_true]
        · rfl
      obtain ⟨hat', hl', hac', hq', htim', hlegacy'⟩ := ih kept ps₁ hsame₁ hq₁ hl₁
      refine ⟨hat.trans hat', hl', fun h => hac' (hacOk₁ h), ?_, ?_, ?_⟩
      · rw [hq', hat.delivers]
        simp [hdtrue]
      · intro k hk
        have hk' : k ≠ ps₁.aid psta := by rwa [hat.sched.aid]
        rw [htim' k hk', htimSame k hk]
      · intro hlegacy
        have hlegacy₁ : (ps₁.wmm psta).hasLegacyAc = true := by rwa [hat.wmm]
        rw [hlegacy' hlegacy₁, htim₁, if_neg]
        rintro ⟨_, hno⟩
        rw [hlegacy] at hno
        cases hno

/-- **A triggered delivery** counts off what it sends. -/
theorem psDeliver_counts {ps : PsState} {a : MacAddr} {psta : StaId} (hb : ps.Bss)
    (hl : ps.LenOk) (ha : rtwGetStainfo ps.table a = some psta) :
    (ps.xmitDeliveryEnabledFrames psta).Bss ∧ (ps.xmitDeliveryEnabledFrames psta).LenOk ∧
      ∀ s, ps.AcOk s → (ps.xmitDeliveryEnabledFrames psta).AcOk s := by
  obtain ⟨hat, hl', hac, _⟩ :=
    psDeliverLoop_spec psta (ps.sleepQ psta) [] ps (hb.trigger ha) rfl hl
  refine ⟨hat.bss hb, hl', fun s hs => hat.acOk hs ?_⟩
  rintro rfl
  exact hac hs

/-- What a PS-Poll does: the first frame is taken off, or an error is repaired. -/
theorem psPoll_cases {ps : PsState} (psta : StaId) (hl : ps.LenOk) :
    ps.OnlyAt psta (ps.psPoll psta) ∧ (ps.psPoll psta).LenOk ∧
      (ps.psPoll psta).sleepqAcLen = ps.sleepqAcLen ∧
      (ps.psPoll psta).sleepQ psta = (ps.sleepQ psta).tail ∧
      (ps.psPoll psta).timBitmap =
        if ps.sleepqLen psta = 1 ∨ ps.sleepQ psta = [] then
          ps.timBitmap &&& ~~~bit16 (ps.aid psta)
        else ps.timBitmap := by
  cases hq : ps.sleepQ psta with
  | nil =>
    have hclear : ps.timBitmap.getLsbD (ps.aid psta) = false →
        ps.timBitmap &&& ~~~bit16 (ps.aid psta) = ps.timBitmap := by
      intro hbit
      refine BitVec.eq_of_getLsbD_eq ?_
      intro k _
      rw [getLsbD_clear]
      by_cases hka : ps.aid psta = k
      · rw [← hka, hbit]
        rfl
      · rw [decide_eq_true hka, Bool.and_true]
    have hzero : ps.sleepqLen psta = 0 := by
      rw [hl psta, hq]
      rfl
    have hsame : Function.update ps.sleepqLen psta 0 = ps.sleepqLen := by
      rw [← hzero, Function.update_eq_self]
    unfold PsState.psPoll
    simp only [hq]
    split
    · refine ⟨⟨⟨rfl, rfl, fun _ _ => rfl, ?_⟩, rfl, fun _ _ => rfl⟩, ?_, rfl, hq, ?_⟩
      · exact fun s hs => Function.update_of_ne hs ..
      · intro s
        change Function.update ps.sleepqLen psta 0 s = _
        rw [hsame]
        exact hl s
      · exact (if_pos (Or.inr trivial)).symm
    · rename_i hbit
      refine ⟨PsState.OnlyAt.refl psta ps, hl, rfl, hq, ?_⟩
      rw [if_pos (Or.inr trivial), hclear (eq_false_of_ne_true hbit)]
  | cons f rest =>
    obtain ⟨hat, hq', hlen⟩ := psSendOne_spec ps psta f rest
    have hlen' : (ps.sendOne psta f rest).sleepqLen psta = BitVec.ofNat 32 rest.length := by
      rw [hlen, hl psta, hq, List.length_cons, ofNat_succ_sub_one]
    have hl' : (ps.sendOne psta f rest).LenOk := hat.lenOk hl (by rw [hlen', hq'])
    have haid : (ps.sendOne psta f rest).aid psta = ps.aid psta := congrFun hat.sched.aid psta
    have hone : (ps.sendOne psta f rest).sleepqLen psta = 0 ↔ ps.sleepqLen psta = 1 := by
      rw [hlen]
      constructor
      · intro h
        bv_omega
      · intro h
        rw [h]
        rfl
    unfold PsState.psPoll
    simp only [hq]
    split
    · rename_i hlast
      refine ⟨⟨⟨hat.sched.table, hat.sched.aid, hat.sched.sleepQ, hat.sched.sleepqLen⟩, rfl,
        fun _ _ => rfl⟩, hl', rfl, hq', ?_⟩
      rw [if_pos (Or.inl (hone.mp hlast))]
      change ps.timBitmap &&& ~~~bit16 ((ps.sendOne psta f rest).aid psta) = _
      rw [haid]
    · rename_i hmore
      refine ⟨hat, hl', rfl, hq', ?_⟩
      rw [if_neg]
      · rfl
      · rintro (h | h)
        · exact hmore (hone.mpr h)
        · cases h

/-- The station that is answered was found, and the poll is not for a delivery enabled
category. -/
theorem polledBy_spec {ps : PsState} {macAddr : MacAddr} {m : Mem} {priority : Nat}
    {psta : StaId} (h : ps.polledBy macAddr m priority = some psta) :
    rtwGetStainfo ps.table (getAddr2 m) = some psta ∧
      (ps.wmm psta).deliveryEnabled (acOf priority) = false := by
  unfold PsState.polledBy at h
  split at h
  · cases h
  split at h
  · cases h
  split at h
  · cases h
  rename_i psta' hsta
  split at h
  · cases h
  split at h
  · cases h
  split at h
  · cases h
  rename_i hdel
  split at h
  · obtain rfl := Option.some.inj h
    exact ⟨hsta, eq_false_of_ne_true hdel⟩
  · cases h

/-- A PS-Poll keeps the counters if the frame that it sends is not counted in
`sleepq_ac_len`. -/
theorem psPoll_counts {ps : PsState} (psta : StaId) (hb : ps.Bss) (hl : ps.LenOk) :
    (ps.psPoll psta).Bss ∧ (ps.psPoll psta).LenOk ∧
      ∀ s, ps.AcOk s →
        (s = psta → ∀ f ∈ (ps.sleepQ psta).head?, ps.delivers psta f = false) →
          (ps.psPoll psta).AcOk s := by
  obtain ⟨hat, hl', hac, hq, _⟩ := psPoll_cases psta hl
  refine ⟨hat.bss hb, hl', fun s hs hhead => hat.acOk hs ?_⟩
  rintro rfl
  unfold PsState.AcOk
  rw [hac, hq, hat.delivers, hs]
  cases hcons : ps.sleepQ s with
  | nil => rfl
  | cons f rest =>
    have hf : ps.delivers s f = false := hhead rfl f (by rw [hcons]; rfl)
    rw [List.countP_cons_of_neg (by rw [hf]; exact Bool.false_ne_true), List.tail_cons]

/-! ## 4. The bitmap -/

/-- The frame is one that the station is told of: any frame when it has no legacy category,
otherwise one whose delivery is not enabled. -/
def PsState.signals (ps : PsState) (s : StaId) (f : XmitFrame) : Bool :=
  !(ps.wmm s).hasLegacyAc || !ps.delivers s f

/-- The bit of a station agrees with its queue.  No frame is queued for an AID without a bit,
and where there is no legacy category `sleepq_ac_len` is right. -/
structure PsState.TimEntry (ps : PsState) (s : StaId) : Prop where
  tim : ps.timBitmap.getLsbD (ps.aid s) = true ↔ ∃ f ∈ ps.sleepQ s, ps.signals s f = true
  high : 16 ≤ ps.aid s → ps.sleepQ s = []
  acOk : (ps.wmm s).hasLegacyAc = false → ps.AcOk s

theorem PsState.OnlyAt.signals {psta : StaId} {ps ps' : PsState} (h : ps.OnlyAt psta ps')
    (s : StaId) : ps'.signals s = ps.signals s := by
  funext f
  unfold PsState.signals
  rw [h.wmm, h.delivers]

/-- An operation on one station leaves the others alone. -/
theorem PsState.OnlyAt.timEntry {psta : StaId} {ps ps' : PsState} (hb : ps.Bss)
    (hat : ps.OnlyAt psta ps') (hsame : ps.SameTim psta ps') {a : MacAddr}
    (ha : rtwGetStainfo ps.table a = some psta)
    (hall : ∀ e ∈ ps.table.entries, ps.TimEntry e.2) (hpsta : ps'.TimEntry psta) :
    ∀ e ∈ ps'.table.entries, ps'.TimEntry e.2 := by
  rw [hat.sched.table]
  intro e he
  by_cases hs : e.2 = psta
  · rw [hs]
    exact hpsta
  · have haid : ps.aid e.2 ≠ ps.aid psta := fun h =>
      hs (hb.apart e he _ (rtwGetStainfo_mem ha) h)
    refine ⟨?_, ?_, ?_⟩
    · rw [hat.sched.aid, hsame _ haid, hat.sched.sleepQ _ hs, hat.signals]
      exact (hall e he).tim
    · rw [hat.sched.aid, hat.sched.sleepQ _ hs]
      exact (hall e he).high
    · rw [hat.wmm]
      intro hno
      exact hat.acOk ((hall e he).acOk hno) (fun h => absurd h hs)

theorem sameTim_clear {ps ps' : PsState} {psta : StaId}
    (h : ps'.timBitmap = ps.timBitmap &&& ~~~bit16 (ps.aid psta)) : ps.SameTim psta ps' := by
  intro k hk
  rw [h, getLsbD_clear, decide_eq_true (Ne.symm hk), Bool.and_true]

theorem sameTim_set {ps ps' : PsState} {psta : StaId}
    (h : ps'.timBitmap = ps.timBitmap ||| bit16 (ps.aid psta)) : ps.SameTim psta ps' := by
  intro k hk
  rw [h, getLsbD_set, decide_eq_false (Ne.symm hk), Bool.and_false, Bool.or_false]

/-- Without a legacy category, delivery is enabled for all of them. -/
theorem parse_delivers {qosInfo : Option (BitVec 8)}
    (h : (rtwApParseStaWmmIe qosInfo).hasLegacyAc = false) (ac : Ac) :
    (rtwApParseStaWmmIe qosInfo).deliveryEnabled ac = true := by
  cases qosInfo with
  | none => cases h
  | some info =>
    have hall : info &&& 0xf = 0xf := of_not_not (of_decide_eq_false h)
    have hbit : info.getLsbD (qosInfoBit ac) = true := by
      have hk := congrArg (fun x : BitVec 8 => x.getLsbD (qosInfoBit ac)) hall
      rw [BitVec.getLsbD_and] at hk
      cases ac with
      | _ => exact (Bool.and_eq_true _ _ ▸ hk.trans rfl).1
    have hne : info &&& 0xf ≠ 0 := by
      rw [hall]
      decide
    unfold rtwApParseStaWmmIe StaWmm.deliveryEnabled
    simp only
    rw [if_pos ⟨hne, hbit⟩]
    rfl

/-- An individual address belongs to a station, a group address to the broadcast entry. -/
theorem PsState.Bss.found {ps : PsState} (hb : ps.Bss) {a : MacAddr} {psta : StaId}
    (ha : rtwGetStainfo ps.table a = some psta) :
    (isMcast a = true ∧ ps.wmm psta = zeroWmm ∧ ps.aid psta = 0) ∨
      (isMcast a = false ∧ (∃ qosInfo, ps.wmm psta = rtwApParseStaWmmIe qosInfo) ∧
        0 < ps.aid psta) := by
  have hmem := rtwGetStainfo_mem ha
  cases hmc : isMcast a with
  | true =>
    rw [if_pos hmc] at hmem
    exact Or.inl ⟨rfl, hb.everybody _ hmem rfl⟩
  | false =>
    rw [hmc, if_neg Bool.false_ne_true] at hmem
    have hne : a ≠ bcAddr := by
      rintro rfl
      cases hmc
    obtain ⟨hparse, hpos, _⟩ := hb.station _ hmem hne
    exact Or.inr ⟨rfl, hparse, hpos⟩

theorem psEnqueue_tim {ps ps' : PsState} {f : XmitFrame} (hb : ps.Bss) (hl : ps.LenOk)
    (hall : ∀ e ∈ ps.table.entries, ps.TimEntry e.2)
    (h : ps.xmitframeEnqueueForSleepingSta f = some ps') :
    ∀ e ∈ ps'.table.entries, ps'.TimEntry e.2 := by
  obtain ⟨-, -, hac⟩ := psEnqueue_counts hb hl h
  obtain ⟨psta, hsta, hat, hq, -, hcases⟩ := psEnqueue_cases h
  have hold : ps.TimEntry psta := hall _ (rtwGetStainfo_mem hsta)
  have hacOk : (ps'.wmm psta).hasLegacyAc = false → ps'.AcOk psta := by
    rw [hat.wmm]
    exact fun hno => hac psta (hold.acOk hno)
  rcases hcases with ⟨hmc, -, htim⟩ | ⟨hmc, hdz, -, htim⟩
  · have hmem := rtwGetStainfo_mem hsta
    rw [if_pos hmc] at hmem
    obtain ⟨hzero, haid⟩ := hb.everybody _ hmem rfl
    have htim' : ps'.timBitmap = ps.timBitmap ||| bit16 (ps.aid psta) := by rw [htim, haid]
    refine hat.timEntry hb (sameTim_set htim') hsta hall ⟨?_, ?_, hacOk⟩
    · rw [hat.sched.aid, htim', getLsbD_set, haid, hq, hat.signals]
      refine iff_of_true (by simp) ⟨f, by simp, ?_⟩
      simp [PsState.signals, hzero, zeroWmm]
    · rw [hat.sched.aid, haid]
      exact fun h16 => absurd h16 (by decide)
  · have hlt : ps.aid psta < 16 := BitVec.lt_of_getLsbD hdz
    have hsame : ps.SameTim psta ps' := by
      by_cases hset : (ps.wmm psta).hasLegacyAc ≠ ps.delivers psta f
      · exact sameTim_set (by rw [htim, if_pos hset])
      · intro k _
        rw [htim, if_neg hset]
    refine hat.timEntry hb hsame hsta hall ⟨?_, ?_, hacOk⟩
    · have hbit : ps'.timBitmap.getLsbD (ps'.aid psta) = true ↔
          ps.timBitmap.getLsbD (ps.aid psta) = true ∨ ps.signals psta f = true := by
        rw [hat.sched.aid, htim]
        have hset : (ps.timBitmap ||| bit16 (ps.aid psta)).getLsbD (ps.aid psta) = true := by
          rw [getLsbD_set, decide_eq_true hlt, decide_eq_true rfl, Bool.and_true, Bool.or_true]
        cases hleg : (ps.wmm psta).hasLegacyAc <;> cases hdel : ps.delivers psta f
        · -- no legacy category, so the frame is delivered
          rcases hb.found hsta with ⟨hmc', -⟩ | ⟨-, ⟨qosInfo, hparse⟩, -⟩
          · rw [hmc] at hmc'
            cases hmc'
          · rw [hparse] at hleg
            unfold PsState.delivers at hdel
            rw [hparse, parse_delivers hleg] at hdel
            cases hdel
        · exact iff_of_true (by rwa [if_pos (by decide)]) (Or.inr (by simp [PsState.signals, hleg]))
        · exact iff_of_true (by rwa [if_pos (by decide)]) (Or.inr (by simp [PsState.signals, hdel]))
        · simp [PsState.signals, hleg, hdel]
      rw [hbit, hold.tim, hq, hat.signals]
      constructor
      · rintro (⟨g, hg, hsig⟩ | hsig)
        · exact ⟨g, List.mem_append_left _ hg, hsig⟩
        · exact ⟨f, by simp, hsig⟩
      · rintro ⟨g, hg, hsig⟩
        rcases List.mem_append.mp hg with hg | hg
        · exact Or.inl ⟨g, hg, hsig⟩
        · rw [List.mem_singleton.mp hg] at hsig
          exact Or.inr hsig
    · rw [hat.sched.aid]
      exact fun h16 => absurd hlt (Nat.not_lt.mpr h16)

/-- An empty queue with its bit cleared agrees. -/
theorem timEntry_empty {ps : PsState} {s : StaId} (hq : ps.sleepQ s = [])
    (hbit : ps.timBitmap.getLsbD (ps.aid s) = false)
    (hac : (ps.wmm s).hasLegacyAc = false → ps.AcOk s) : ps.TimEntry s := by
  refine ⟨?_, fun _ => hq, hac⟩
  rw [hbit, hq]
  simp

theorem psWakeup_tim {ps : PsState} {a : MacAddr} {psta : StaId} (hb : ps.Bss) (hl : ps.LenOk)
    (ha : rtwGetStainfo ps.table a = some psta)
    (hall : ∀ e ∈ ps.table.entries, ps.TimEntry e.2) :
    ∀ e ∈ (ps.wakeupStaToXmit psta).table.entries, (ps.wakeupStaToXmit psta).TimEntry e.2 := by
  obtain ⟨hat, hq, hlen, htim, hac⟩ := psReleaseLoop_kept hb ha hl
  set ps₁ := PsState.releaseLoop psta (ps.sleepQ psta) ps
  obtain ⟨hat', hq', hlen', hac', htim'⟩ := psWakeIfDone_spec hlen
  set ps₂ := ps₁.wakeIfDone psta
  have hat₂ : ps.OnlyAt psta ps₂ := hat.trans hat'
  have hb₂ : ps₂.Bss := hat₂.bss hb
  have hl₂ : ps₂.LenOk := hat₂.lenOk hl (by rw [hlen', hq', hlen, hq]; rfl)
  have htim₂ : ps₂.timBitmap = ps.timBitmap &&& ~~~bit16 (ps.aid psta) := by
    rw [htim', htim, hat.sched.aid]
  have hall₂ : ∀ e ∈ ps₂.table.entries, ps₂.TimEntry e.2 := by
    refine hat₂.timEntry hb (sameTim_clear htim₂) ha hall (timEntry_empty ?_ ?_ ?_)
    · rw [hq', hq]
    · rw [hat₂.sched.aid, htim₂, getLsbD_clear]
      simp
    · rw [hat₂.wmm]
      intro hno
      unfold PsState.AcOk
      rw [hac', hq', hq, hac ((hall _ (rtwGetStainfo_mem ha)).acOk hno)]
      rfl
  unfold PsState.wakeupStaToXmit
  split
  · exact hall₂
  · rename_i b hbmc
    have hbmc₂ : rtwGetStainfo ps₂.table bcAddr = some b := by
      rw [hat₂.sched.table]
      exact hbmc
    obtain ⟨hzero, haid⟩ := hb₂.bmc hbmc₂
    obtain ⟨hatb, hacb, hcases⟩ := psReleaseBmc_spec (b := b) hl₂
    have hacOk : ((ps₂.releaseBmc b).wmm b).hasLegacyAc = false → (ps₂.releaseBmc b).AcOk b := by
      intro _
      have hold := (hall₂ _ (rtwGetStainfo_mem hbmc₂)).acOk (by rw [hzero]; rfl)
      rw [acOk_of_zeroWmm (hatb.wmm ▸ hzero), hacb]
      exact (acOk_of_zeroWmm hzero).mp hold
    rcases hcases with ⟨hqb, -, htimb⟩ | ⟨hqb, -, htimb⟩
    · refine hatb.timEntry hb₂ (fun k _ => by rw [htimb]) hbmc₂ hall₂ ⟨?_, ?_, hacOk⟩
      · rw [hatb.sched.aid, htimb, hqb, hatb.signals]
        exact (hall₂ _ (rtwGetStainfo_mem hbmc₂)).tim
      · rw [hatb.sched.aid, hqb]
        exact (hall₂ _ (rtwGetStainfo_mem hbmc₂)).high
    · have htimb' : (ps₂.releaseBmc b).timBitmap
          = ps₂.timBitmap &&& ~~~bit16 (ps₂.aid b) := by rw [htimb, haid]
      refine hatb.timEntry hb₂ (sameTim_clear htimb') hbmc₂ hall₂ (timEntry_empty hqb ?_ hacOk)
      rw [hatb.sched.aid, htimb', getLsbD_clear]
      simp

/-- Nothing is sent when no category triggers. -/
theorem psDeliverLoop_none (psta : StaId) : ∀ (rest kept : List XmitFrame) (ps : PsState),
    (∀ ac, (ps.wmm psta).triggerEnabled ac = false) →
      PsState.deliverLoop psta kept rest ps = ps := by
  intro rest
  induction rest with
  | nil => exact fun _ _ _ => rfl
  | cons f rest ih =>
    intro kept ps hno
    unfold PsState.deliverLoop
    rw [if_pos (hno _)]
    exact ih _ ps hno

/-- Everything is sent when all categories trigger, and then the bit is cleared. -/
theorem psDeliverLoop_all (psta : StaId) : ∀ (rest : List XmitFrame) (ps : PsState),
    (∀ ac, (ps.wmm psta).triggerEnabled ac = true) → (ps.wmm psta).hasLegacyAc = false →
      ps.sleepqAcLen psta = BitVec.ofNat 32 rest.length →
      (rest = [] → ps.timBitmap.getLsbD (ps.aid psta) = false) →
        (PsState.deliverLoop psta [] rest ps).timBitmap.getLsbD (ps.aid psta) = false := by
  intro rest
  induction rest with
  | nil => exact fun ps _ _ _ hbit => hbit rfl
  | cons f rest ih =>
    intro ps hall hno hac _
    obtain ⟨hat, -, -, hac₁, htim₁⟩ := psDeliverOne_spec ps psta f ([] ++ rest)
    unfold PsState.deliverLoop
    rw [if_neg (by rw [hall]; decide)]
    set ps₁ := ps.deliverOne psta f ([] ++ rest)
    have hac₁' : ps₁.sleepqAcLen psta = BitVec.ofNat 32 rest.length := by
      rw [hac₁, hac, List.length_cons, ofNat_succ_sub_one]
    have hrest := ih ps₁ (by rwa [hat.wmm]) (by rwa [hat.wmm]) hac₁' ?_
    · rwa [hat.sched.aid] at hrest
    · intro hnil
      have hzero : ps.sleepqAcLen psta - 1 = 0 := by
        rw [← hac₁, hac₁', hnil]
        rfl
      rw [hat.sched.aid, htim₁, if_pos ⟨hzero, hno⟩, getLsbD_clear]
      simp

theorem psDeliver_tim {ps : PsState} {a : MacAddr} {psta : StaId} (hb : ps.Bss) (hl : ps.LenOk)
    (ha : rtwGetStainfo ps.table a = some psta)
    (hall : ∀ e ∈ ps.table.entries, ps.TimEntry e.2) :
    ∀ e ∈ (ps.xmitDeliveryEnabledFrames psta).table.entries,
      (ps.xmitDeliveryEnabledFrames psta).TimEntry e.2 := by
  have hold : ps.TimEntry psta := hall _ (rtwGetStainfo_mem ha)
  obtain ⟨hat, -, hac, hq, hsame, hlegacy⟩ :=
    psDeliverLoop_spec psta (ps.sleepQ psta) [] ps (hb.trigger ha) rfl hl
  rw [List.nil_append] at hq
  have hnone : (∀ ac, (ps.wmm psta).triggerEnabled ac = false) →
      ps.xmitDeliveryEnabledFrames psta = ps := psDeliverLoop_none psta _ [] ps
  unfold PsState.xmitDeliveryEnabledFrames at hnone ⊢
  set ps' := PsState.deliverLoop psta [] (ps.sleepQ psta) ps
  have hacOk : (ps'.wmm psta).hasLegacyAc = false → ps'.AcOk psta := by
    rw [hat.wmm]
    exact fun hno => hac (hold.acOk hno)
  have hhigh : 16 ≤ ps'.aid psta → ps'.sleepQ psta = [] := by
    rw [hat.sched.aid]
    intro h16
    rw [hq, hold.high h16]
    rfl
  refine hat.timEntry hb hsame ha hall ?_
  cases hleg : (ps.wmm psta).hasLegacyAc with
  | true =>
    refine ⟨?_, hhigh, hacOk⟩
    rw [hat.sched.aid, hlegacy hleg, hold.tim, hq, hat.signals]
    -- the frames that stay are the ones that are signalled
    simp [PsState.signals, hleg]
  | false =>
    rcases hb.found ha with ⟨-, hzero, -⟩ | ⟨-, ⟨qosInfo, hparse⟩, -⟩
    · rw [hnone (by simp [hzero, zeroWmm, StaWmm.triggerEnabled])]
      exact hold
    · have hdel : ∀ ac, (ps.wmm psta).deliveryEnabled ac = true := by
        rw [hparse] at hleg ⊢
        exact parse_delivers hleg
      have hdelivers : ∀ f, ps.delivers psta f = true := fun f => hdel _
      have hempty : ps'.sleepQ psta = [] := by
        rw [hq]
        simp [hdelivers]
      refine timEntry_empty hempty ?_ hacOk
      have hcount : ps.sleepqAcLen psta = BitVec.ofNat 32 (ps.sleepQ psta).length := by
        rw [hold.acOk hleg, List.countP_eq_length.mpr (fun f _ => hdelivers f)]
      have hbit : ps.sleepQ psta = [] → ps.timBitmap.getLsbD (ps.aid psta) = false := by
        intro hnil
        refine eq_false_of_ne_true fun hset => ?_
        obtain ⟨f, hf, _⟩ := hold.tim.mp hset
        rw [hnil] at hf
        cases hf
      rw [hat.sched.aid]
      exact psDeliverLoop_all psta _ ps (fun ac => by rw [hb.trigger ha, hdel]) hleg hcount hbit

/-- A PS-Poll keeps the bitmap if what it leaves behind is nothing, or is still signalled. -/
theorem psPoll_tim {ps : PsState} {a : MacAddr} {psta : StaId} (hb : ps.Bss) (hl : ps.LenOk)
    (ha : rtwGetStainfo ps.table a = some psta)
    (hpoll : ∃ ac, (ps.wmm psta).deliveryEnabled ac = false)
    (hall : ∀ e ∈ ps.table.entries, ps.TimEntry e.2)
    (hfits : (ps.sleepQ psta).length < 2 ^ 32)
    (hleft : (ps.sleepQ psta).tail = [] ∨ ∃ f ∈ (ps.sleepQ psta).tail, ps.signals psta f = true) :
    ∀ e ∈ (ps.psPoll psta).table.entries, (ps.psPoll psta).TimEntry e.2 := by
  have hold : ps.TimEntry psta := hall _ (rtwGetStainfo_mem ha)
  obtain ⟨hat, -, hac, hq, htim⟩ := psPoll_cases psta hl
  set ps' := ps.psPoll psta
  have hacOk : (ps'.wmm psta).hasLegacyAc = false → ps'.AcOk psta := by
    rw [hat.wmm]
    intro hno
    rcases hb.found ha with ⟨-, hzero, -⟩ | ⟨-, ⟨qosInfo, hparse⟩, -⟩
    · rw [acOk_of_zeroWmm (hat.wmm ▸ hzero), hac]
      exact (acOk_of_zeroWmm hzero).mp (hold.acOk hno)
    · obtain ⟨ac, hac'⟩ := hpoll
      rw [hparse] at hno hac'
      rw [parse_delivers hno] at hac'
      cases hac'
  have hhigh : 16 ≤ ps'.aid psta → ps'.sleepQ psta = [] := by
    rw [hat.sched.aid]
    intro h16
    rw [hq, hold.high h16]
    rfl
  by_cases hlast : ps.sleepqLen psta = 1 ∨ ps.sleepQ psta = []
  · rw [if_pos hlast] at htim
    refine hat.timEntry hb (sameTim_clear htim) ha hall (timEntry_empty ?_ ?_ hacOk)
    · rcases hlast with hone | hnil
      · rw [hl psta] at hone
        have hlen : (ps.sleepQ psta).length = 1 := by
          have htoNat := congrArg BitVec.toNat hone
          rw [BitVec.toNat_ofNat, Nat.mod_eq_of_lt hfits] at htoNat
          exact htoNat
        obtain ⟨f, hf⟩ := List.length_eq_one_iff.mp hlen
        rw [hq, hf]
        rfl
      · rw [hq, hnil]
        rfl
    · rw [hat.sched.aid, htim, getLsbD_clear]
      simp
  · rw [if_neg hlast] at htim
    refine hat.timEntry hb (fun k _ => by rw [htim]) ha hall ⟨?_, hhigh, hacOk⟩
    have hmore : (ps.sleepQ psta).tail ≠ [] := by
      intro hnil
      refine hlast ?_
      cases hcons : ps.sleepQ psta with
      | nil => exact Or.inr rfl
      | cons f rest =>
        rw [hcons, List.tail_cons] at hnil
        rw [hl psta, hcons, hnil]
        exact Or.inl rfl
    obtain ⟨f, hf, hsig⟩ := hleft.resolve_left hmore
    rw [hat.sched.aid, htim, hold.tim, hq, hat.signals]
    exact iff_of_true ⟨f, List.mem_of_mem_tail hf, hsig⟩ ⟨f, hf, hsig⟩

/-! ## 5. Runs -/

def psRun : PsState → List PsEvent → Option PsState
  | ps, [] => some ps
  | ps, e :: es => (psStep ps e).bind fun ps' => psRun ps' es

/-- Every event of the run satisfies `C` where it happens. -/
def PsRunAll (C : PsState → PsEvent → Prop) : PsState → List PsEvent → Prop
  | _, [] => True
  | ps, e :: es => C ps e ∧ ∀ ps' ∈ psStep ps e, PsRunAll C ps' es

instance decidablePsRunAll (C : PsState → PsEvent → Prop) [∀ ps e, Decidable (C ps e)] :
    (ps : PsState) → (es : List PsEvent) → Decidable (PsRunAll C ps es)
  | _, [] => isTrue trivial
  | _, _ :: es =>
    have := fun ps' => decidablePsRunAll C ps' es
    inferInstanceAs (Decidable (_ ∧ _))

/-- What every step keeps, every run keeps. -/
theorem psRun_induction {C : PsState → PsEvent → Prop} {P : PsState → Prop}
    (hstep : ∀ {ps ps' e}, P ps → C ps e → psStep ps e = some ps' → P ps') :
    ∀ (es : List PsEvent) {ps ps' : PsState}, P ps → PsRunAll C ps es →
      psRun ps es = some ps' → P ps' := by
  intro es
  induction es with
  | nil =>
    rintro ps ps' hP _ h
    exact Option.some.inj h ▸ hP
  | cons e es ih =>
    rintro ps ps' hP ⟨hC, hrest⟩ h
    obtain ⟨ps₁, hps₁, hrun⟩ := Option.bind_eq_some_iff.mp h
    exact ih (hstep hP hC hps₁) (hrest ps₁ hps₁) hrun

/-- **One step** keeps what every operation keeps on the station that it finds. -/
theorem psStep_induction {P : PsState → Prop}
    (henq : ∀ {ps ps' f}, P ps → ps.xmitframeEnqueueForSleepingSta f = some ps' → P ps')
    (hsched : ∀ {ps : PsState} {st}, P ps → ps.toSched.SameSleepers st →
      P { ps with toSched := st })
    (hwakeup : ∀ {ps : PsState} {a psta}, P ps → rtwGetStainfo ps.table a = some psta →
      P (ps.wakeupStaToXmit psta))
    (htrigger : ∀ {ps : PsState} {a psta}, P ps → rtwGetStainfo ps.table a = some psta →
      P (ps.xmitDeliveryEnabledFrames psta))
    {ps ps' : PsState} {e : PsEvent} (hP : P ps) (hstep : psStep ps e = some ps')
    (hpoll : ∀ macAddr m priority psta, e = .ctrl macAddr m priority →
      ps.polledBy macAddr m priority = some psta → P (ps.psPoll psta)) : P ps' := by
  cases e with
  | enqueue f =>
    obtain rfl := Option.some.inj hstep
    cases hf : ps.xmitframeEnqueueForSleepingSta f with
    | none => exact hP
    | some ps' => exact henq hP hf
  | stop a =>
    simp only [psStep] at hstep
    split at hstep
    · obtain rfl := Option.some.inj hstep
      exact hP
    · exact stopStaXmit_induction henq hsched hP hstep
  | wakeup a =>
    obtain rfl := Option.some.inj hstep
    cases ha : rtwGetStainfo ps.table a with
    | none => exact hP
    | some psta => exact hwakeup hP ha
  | trigger a =>
    obtain rfl := Option.some.inj hstep
    cases ha : rtwGetStainfo ps.table a with
    | none => exact hP
    | some psta => exact htrigger hP ha
  | ctrl macAddr m priority =>
    obtain rfl := Option.some.inj hstep
    unfold PsState.validateRecvCtrlFrame
    cases hp : ps.polledBy macAddr m priority with
    | none => exact hP
    | some psta => exact hpoll macAddr m priority psta rfl hp
  | other st =>
    obtain rfl := Option.some.inj hstep
    exact hsched hP ⟨rfl, rfl, rfl, rfl⟩

theorem PsState.Bss.setSched {ps : PsState} {st : Sched} (hb : ps.Bss)
    (h : ps.toSched.SameSleepers st) : PsState.Bss { ps with toSched := st } := by
  refine ⟨?_, ?_, ?_⟩
  · simpa only [h.table, h.aid] using hb.everybody
  · simpa only [h.table, h.aid] using hb.station
  · simpa only [h.table, h.aid] using hb.apart

theorem PsState.LenOk.setSched {ps : PsState} {st : Sched} (hl : ps.LenOk)
    (h : ps.toSched.SameSleepers st) : PsState.LenOk { ps with toSched := st } := by
  intro s
  change st.sleepqLen s = BitVec.ofNat 32 (st.sleepQ s).length
  rw [h.sleepQ, h.sleepqLen]
  exact hl s

theorem PsState.AcOk.setSched {ps : PsState} {st : Sched} {s : StaId} (ha : ps.AcOk s)
    (h : ps.toSched.SameSleepers st) : PsState.AcOk { ps with toSched := st } s := by
  unfold PsState.AcOk
  rw [h.sleepQ]
  exact ha

/-- A PS-Poll does not send a frame that `sleepq_ac_len` counts. -/
def PsEvent.PollsUncounted (ps : PsState) : PsEvent → Prop
  | .ctrl macAddr m priority =>
    ∀ psta ∈ ps.polledBy macAddr m priority,
      ∀ f ∈ (ps.sleepQ psta).head?, ps.delivers psta f = false
  | _ => True

instance (ps : PsState) : (e : PsEvent) → Decidable (e.PollsUncounted ps)
  | .ctrl macAddr m priority =>
    inferInstanceAs (Decidable (∀ psta ∈ ps.polledBy macAddr m priority,
      ∀ f ∈ (ps.sleepQ psta).head?, ps.delivers psta f = false))
  | .enqueue _ | .stop _ | .wakeup _ | .trigger _ | .other _ => isTrue trivial

theorem psStep_counts {ps ps' : PsState} {e : PsEvent}
    (h : ps.Bss ∧ ps.LenOk ∧ ∀ s, ps.AcOk s) (hpoll : e.PollsUncounted ps)
    (hstep : psStep ps e = some ps') : ps'.Bss ∧ ps'.LenOk ∧ ∀ s, ps'.AcOk s := by
  refine psStep_induction (P := fun ps => ps.Bss ∧ ps.LenOk ∧ ∀ s, ps.AcOk s)
    ?_ ?_ ?_ ?_ h hstep ?_
  · rintro ps ps' f ⟨hb, hl, hac⟩ henq
    obtain ⟨hb', hl', hac'⟩ := psEnqueue_counts hb hl henq
    exact ⟨hb', hl', fun s => hac' s (hac s)⟩
  · rintro ps st ⟨hb, hl, hac⟩ hsame
    refine ⟨hb.setSched hsame, hl.setSched hsame, fun s => (hac s).setSched hsame⟩
  · rintro ps a psta ⟨hb, hl, hac⟩ ha
    obtain ⟨hb', hl', hac'⟩ := psWakeup_counts hb hl ha
    exact ⟨hb', hl', fun s => hac' s (hac s)⟩
  · rintro ps a psta ⟨hb, hl, hac⟩ ha
    obtain ⟨hb', hl', hac'⟩ := psDeliver_counts hb hl ha
    exact ⟨hb', hl', fun s => hac' s (hac s)⟩
  · rintro macAddr m priority psta rfl hp
    obtain ⟨hb, hl, hac⟩ := h
    obtain ⟨hb', hl', hac'⟩ := psPoll_counts psta hb hl
    refine ⟨hb', hl', fun s => hac' s (hac s) ?_⟩
    rintro rfl
    exact hpoll s hp

/-- The counters are right, and so below zero never; a sleeping queue has at most the frames of
the transmit pool, far fewer than a counter can hold. -/
structure PsState.CountersOk (ps : PsState) : Prop where
  sleepqLen : ∀ s, (ps.sleepQ s).length < 2 ^ 32 →
    (ps.sleepqLen s).toNat = (ps.sleepQ s).length
  sleepqAcLen : ∀ s, (ps.sleepQ s).length < 2 ^ 32 →
    (ps.sleepqAcLen s).toNat = (ps.sleepQ s).countP (ps.delivers s)

/-- **The sleeping queues are counted right** in every run in which no PS-Poll is answered with
a frame of a delivery enabled category. -/
theorem sleepq_counts_kept (ps₀ : PsState) (hbss : ps₀.Bss) (es : List PsEvent) (ps : PsState)
    (hpolls : PsRunAll (fun ps e => e.PollsUncounted ps) ps₀.start es)
    (hrun : psRun ps₀.start es = some ps) : ps.CountersOk := by
  have hstart : ps₀.start.Bss ∧ ps₀.start.LenOk ∧ ∀ s, ps₀.start.AcOk s :=
    ⟨⟨hbss.everybody, hbss.station, hbss.apart⟩, fun _ => rfl, fun _ => rfl⟩
  obtain ⟨-, hl, hac⟩ := psRun_induction psStep_counts es hstart hpolls hrun
  refine ⟨?_, ?_⟩
  · intro s hs
    rw [hl s, BitVec.toNat_ofNat, Nat.mod_eq_of_lt hs]
  · intro s hs
    have hle : (ps.sleepQ s).countP (ps.delivers s) < 2 ^ 32 :=
      Nat.lt_of_le_of_lt List.countP_le_length hs
    rw [hac s, BitVec.toNat_ofNat, Nat.mod_eq_of_lt hle]

/-- Entry 0 for the broadcast address, entry 1 for a station. -/
def voiceEntries : List (MacAddr × StaId) := [(bcAddr, 0), (⟨0x02, 0, 0, 0, 0, 0x01⟩, 1)]

theorem voiceEntries_nodup : (voiceEntries.map Prod.snd).Nodup := by decide

theorem voiceEntries_inPool : ∀ e ∈ voiceEntries, e.2 < numSta := by decide

/-- A station with AID 1 that has enabled delivery for voice only; entry 0 is for the broadcast
address. -/
def voiceBss : PsState where
  q := Queues.empty
  isAp := true
  hwStateAp := true
  table := ⟨voiceEntries, voiceEntries_nodup⟩
  inPool := voiceEntries_inPool
  fwLinked _ := true
  sleeping i := i = 1
  aid i := i
  staAid a := if a = 1 then some 1 else none
  sleepQ _ := []
  sleepqLen _ := 0
  staDzBitmap := 0x2
  wifiSpec := false
  wmmParaSeq := [.vo, .vi, .be, .bk]
  wmm i := if i = 1 then rtwApParseStaWmmIe (some 0x1) else zeroWmm
  sleepqAcLen _ := 0
  timBitmap := 0

theorem voiceBss_bss : voiceBss.Bss := by
  refine ⟨?_, ?_, by decide⟩
  · intro e he hbc
    rcases List.mem_cons.mp he with rfl | he
    · exact ⟨rfl, rfl⟩
    · rw [List.mem_singleton.mp he] at hbc
      exact absurd hbc (by decide)
  · intro e he hne
    have he1 : e.2 = 1 := by
      rcases List.mem_cons.mp he with rfl | he
      · exact absurd rfl hne
      · rw [List.mem_singleton.mp he]
    rw [he1]
    exact ⟨⟨some 0x1, rfl⟩, by decide, by decide⟩

/-- The `n`th frame to that station, at a user priority. -/
def voiceFrame (n up : Nat) : XmitFrame :=
  { id := n, ra := ⟨0x02, 0, 0, 0, 0, 0x01⟩, psta := some 1, priority := up }

/-- The PS-Poll of that station: type, AID with both top bits set, BSSID and address. -/
def voicePoll : Mem :=
  overwrite (fun _ => 0) 0 [0xa4, 0x10, 0x01, 0xc0, 2, 0, 0, 0, 0, 0xff, 2, 0, 0, 0, 0, 1]

/-- The access point that it is sent to. -/
def voiceAp : MacAddr := ⟨2, 0, 0, 0, 0, 0xff⟩

/-- A best effort and a voice frame are buffered; the poll takes the first, a trigger the
second. -/
def pollRun : List PsEvent :=
  [.enqueue (voiceFrame 1 0), .enqueue (voiceFrame 2 6), .ctrl voiceAp voicePoll 0]

theorem sleepq_counts_kept_poll :
    voiceBss.Bss ∧ PsRunAll (fun ps e => e.PollsUncounted ps) voiceBss.start pollRun ∧
      ∃ ps, psRun voiceBss.start pollRun = some ps ∧
        (ps.sleepQ 1).map XmitFrame.id = [2] ∧ ps.CountersOk := by
  have hpolls : PsRunAll (fun ps e => e.PollsUncounted ps) voiceBss.start pollRun := by
    decide +kernel
  have hruns : (psRun voiceBss.start pollRun).map (fun ps => (ps.sleepQ 1).map XmitFrame.id)
      = some [2] := by decide +kernel
  obtain ⟨ps, hps, hq⟩ := Option.map_eq_some_iff.mp hruns
  exact ⟨voiceBss_bss, hpolls, ps, hps, hq,
    sleepq_counts_kept voiceBss voiceBss_bss pollRun ps hpolls hps⟩

/-- **The counter drifts.**  A voice frame is counted in `sleepq_ac_len` when it is put to
sleep, and a PS-Poll sends it without counting it off. -/
theorem sleepq_ac_len_drifts :
    ∃ ps, psRun voiceBss.start [.enqueue (voiceFrame 1 6), .ctrl voiceAp voicePoll 0]
        = some ps ∧ ps.sleepQ 1 = [] ∧ ps.sleepqAcLen 1 = 1 ∧ ¬ ps.CountersOk := by
  have hruns : (psRun voiceBss.start [.enqueue (voiceFrame 1 6), .ctrl voiceAp voicePoll 0]).map
      (fun ps => (ps.sleepQ 1, ps.sleepqAcLen 1)) = some ([], 1) := by decide +kernel
  obtain ⟨ps, hps, hq⟩ := Option.map_eq_some_iff.mp hruns
  obtain ⟨hq, hac⟩ := Prod.mk.inj hq
  refine ⟨ps, hps, hq, hac, ?_⟩
  intro hok
  have hcount := hok.sleepqAcLen 1 (by rw [hq]; decide)
  rw [hq, hac] at hcount
  cases hcount

/-- A PS-Poll leaves nothing behind, or a frame that is signalled. -/
def PsEvent.PollsSignalled (ps : PsState) : PsEvent → Prop
  | .ctrl macAddr m priority =>
    ∀ psta ∈ ps.polledBy macAddr m priority,
      (ps.sleepQ psta).length < 2 ^ 32 ∧
        ((ps.sleepQ psta).tail = [] ∨
          ∃ f ∈ (ps.sleepQ psta).tail, ps.signals psta f = true)
  | _ => True

instance (ps : PsState) : (e : PsEvent) → Decidable (e.PollsSignalled ps)
  | .ctrl macAddr m priority =>
    inferInstanceAs (Decidable (∀ psta ∈ ps.polledBy macAddr m priority,
      (ps.sleepQ psta).length < 2 ^ 32 ∧
        ((ps.sleepQ psta).tail = [] ∨
          ∃ f ∈ (ps.sleepQ psta).tail, ps.signals psta f = true)))
  | .enqueue _ | .stop _ | .wakeup _ | .trigger _ | .other _ => isTrue trivial

theorem psStep_tim {ps ps' : PsState} {e : PsEvent}
    (h : ps.Bss ∧ ps.LenOk ∧ ∀ x ∈ ps.table.entries, ps.TimEntry x.2)
    (hpolls : e.PollsSignalled ps) (hstep : psStep ps e = some ps') :
    ps'.Bss ∧ ps'.LenOk ∧ ∀ x ∈ ps'.table.entries, ps'.TimEntry x.2 := by
  refine psStep_induction
    (P := fun ps => ps.Bss ∧ ps.LenOk ∧ ∀ x ∈ ps.table.entries, ps.TimEntry x.2)
    ?_ ?_ ?_ ?_ h hstep ?_
  · rintro ps ps' f ⟨hb, hl, hall⟩ henq
    obtain ⟨hb', hl', _⟩ := psEnqueue_counts hb hl henq
    exact ⟨hb', hl', psEnqueue_tim hb hl hall henq⟩
  · rintro ps st ⟨hb, hl, hall⟩ hsame
    refine ⟨hb.setSched hsame, hl.setSched hsame, ?_⟩
    change ∀ x ∈ st.table.entries, PsState.TimEntry { ps with toSched := st } x.2
    rw [hsame.table]
    intro x hx
    obtain ⟨htim, hhigh, hac⟩ := hall x hx
    have hsig : PsState.signals { ps with toSched := st } x.2 = ps.signals x.2 := rfl
    refine ⟨?_, ?_, fun hno => (hac hno).setSched hsame⟩
    · simpa only [hsame.aid, hsame.sleepQ, hsig] using htim
    · simpa only [hsame.aid, hsame.sleepQ] using hhigh
  · rintro ps a psta ⟨hb, hl, hall⟩ ha
    obtain ⟨hb', hl', _⟩ := psWakeup_counts hb hl ha
    exact ⟨hb', hl', psWakeup_tim hb hl ha hall⟩
  · rintro ps a psta ⟨hb, hl, hall⟩ ha
    obtain ⟨hb', hl', _⟩ := psDeliver_counts hb hl ha
    exact ⟨hb', hl', psDeliver_tim hb hl ha hall⟩
  · rintro macAddr m priority psta rfl hp
    obtain ⟨hb, hl, hall⟩ := h
    obtain ⟨hb', hl', _⟩ := psPoll_counts psta hb hl
    obtain ⟨ha, hdel⟩ := polledBy_spec hp
    obtain ⟨hfits, hleft⟩ := hpolls psta hp
    exact ⟨hb', hl', psPoll_tim hb hl ha ⟨_, hdel⟩ hall hfits hleft⟩

/-- The TIM bitmap as the beacon should show it. -/
structure PsState.TimOk (ps : PsState) : Prop where
  station : ∀ e ∈ ps.table.entries, e.1 ≠ bcAddr →
    (ps.timBitmap.getLsbD (ps.aid e.2) = true ↔ ∃ f ∈ ps.sleepQ e.2, ps.signals e.2 f = true)
  everybody : ∀ e ∈ ps.table.entries, e.1 = bcAddr →
    (ps.timBitmap.getLsbD 0 = true ↔ ps.sleepQ e.2 ≠ [])
  apart : ∀ e ∈ ps.table.entries, ∀ e' ∈ ps.table.entries, e.2 ≠ e'.2 →
    bit16 (ps.aid e.2) &&& bit16 (ps.aid e'.2) = 0

/-- **The TIM bitmap agrees with what is buffered** in every run in which a PS-Poll leaves
nothing behind, or a frame that is signalled. -/
theorem tim_agrees_kept (ps₀ : PsState) (hbss : ps₀.Bss) (es : List PsEvent) (ps : PsState)
    (hpolls : PsRunAll (fun ps e => e.PollsSignalled ps) ps₀.start es)
    (hrun : psRun ps₀.start es = some ps) : ps.TimOk := by
  have hstart : ps₀.start.Bss ∧ ps₀.start.LenOk ∧
      ∀ x ∈ ps₀.start.table.entries, ps₀.start.TimEntry x.2 := by
    refine ⟨⟨hbss.everybody, hbss.station, hbss.apart⟩, fun _ => rfl, ?_⟩
    intro x _
    refine timEntry_empty rfl ?_ (fun _ => rfl)
    exact BitVec.getLsbD_zero
  obtain ⟨hb, hl, hall⟩ := psRun_induction psStep_tim es hstart hpolls hrun
  refine ⟨fun e he _ => (hall e he).tim, ?_, ?_⟩
  · intro e he hbc
    obtain ⟨hzero, haid⟩ := hb.everybody e he hbc
    have htim := (hall e he).tim
    rw [haid] at htim
    rw [htim]
    constructor
    · rintro ⟨f, hf, _⟩ hnil
      rw [hnil] at hf
      cases hf
    · intro hne
      obtain ⟨f, hf⟩ := List.exists_mem_of_ne_nil _ hne
      exact ⟨f, hf, by simp [PsState.signals, hzero, zeroWmm]⟩
  · intro e he e' he' hne
    refine BitVec.eq_of_getLsbD_eq ?_
    intro k _
    rw [BitVec.getLsbD_and, getLsbD_bit16, getLsbD_bit16]
    by_cases hk : ps.aid e.2 = k
    · have hk' : ps.aid e'.2 ≠ k := fun hk' => hne (hb.apart e he e' he' (hk.trans hk'.symm))
      simp [hk']
    · simp [hk]

theorem tim_agrees_kept_poll :
    voiceBss.Bss ∧
      PsRunAll (fun ps e => e.PollsSignalled ps) voiceBss.start
        [.enqueue (voiceFrame 1 6), .enqueue (voiceFrame 2 0), .ctrl voiceAp voicePoll 0] ∧
      ∃ ps, psRun voiceBss.start
          [.enqueue (voiceFrame 1 6), .enqueue (voiceFrame 2 0), .ctrl voiceAp voicePoll 0]
          = some ps ∧ ps.timBitmap = 0x2 ∧ ps.TimOk := by
  have hpolls : PsRunAll (fun ps e => e.PollsSignalled ps) voiceBss.start
      [.enqueue (voiceFrame 1 6), .enqueue (voiceFrame 2 0), .ctrl voiceAp voicePoll 0] := by
    decide +kernel
  have hruns : (psRun voiceBss.start
      [.enqueue (voiceFrame 1 6), .enqueue (voiceFrame 2 0), .ctrl voiceAp voicePoll 0]).map
      PsState.timBitmap = some 0x2 := by decide +kernel
  obtain ⟨ps, hps, htim⟩ := Option.map_eq_some_iff.mp hruns
  exact ⟨voiceBss_bss, hpolls, ps, hps, htim,
    tim_agrees_kept voiceBss voiceBss_bss _ ps hpolls hps⟩

/-- **The bit is stuck.**  The poll takes the only frame that is signalled; a voice frame is
left, which the station fetches by a trigger, and the bit stays set. -/
theorem tim_bit_stuck :
    ∃ ps, psRun voiceBss.start pollRun = some ps ∧ (ps.sleepQ 1).map XmitFrame.priority = [6] ∧
      ps.timBitmap = 0x2 ∧ ¬ ps.TimOk := by
  have hruns : (psRun voiceBss.start pollRun).map (fun ps => (ps.sleepQ 1, ps.timBitmap))
      = some ([voiceFrame 2 6], 0x2) := by decide +kernel
  have hstatic : (psRun voiceBss.start pollRun).map
      (fun ps => (ps.signals 1 (voiceFrame 2 6), ps.table.entries, ps.aid 1))
      = some (false, voiceBss.table.entries, 1) := by decide +kernel
  obtain ⟨ps, hps, hq⟩ := Option.map_eq_some_iff.mp hruns
  obtain ⟨hq, htim⟩ := Prod.mk.inj hq
  rw [hps] at hstatic
  obtain ⟨hsig, hstatic⟩ := Prod.mk.inj (Option.some.inj hstatic)
  obtain ⟨hentries, haid⟩ := Prod.mk.inj hstatic
  refine ⟨ps, hps, by rw [hq]; rfl, htim, ?_⟩
  intro hok
  have hst := hok.station (⟨0x02, 0, 0, 0, 0, 0x01⟩, 1) (by rw [hentries]; decide) (by decide)
  simp only [haid] at hst
  rw [htim, hq] at hst
  obtain ⟨f, hf, hfs⟩ := hst.mp (by decide)
  rw [List.mem_singleton.mp hf, hsig] at hfs
  cases hfs

/-! ## 6. What happens to the frames

The bookkeeping steers none of it: on the `Sched` the operations are the plain ones, and the
pending queues stay as consistent as they were. -/

theorem toSched_xmitframeEnqueue (ps : PsState) (f : XmitFrame) :
    (ps.xmitframeEnqueueForSleepingSta f).map PsState.toSched
      = xmitframeEnqueueForSleepingSta ps.toSched f := by
  unfold PsState.xmitframeEnqueueForSleepingSta
  cases hst : xmitframeEnqueueForSleepingSta ps.toSched f with
  | none => rfl
  | some st =>
    obtain ⟨psta, hpsta, _⟩ := xmitframeEnqueue_cases hst
    simp only [hpsta]
    split <;> rfl

theorem toSched_dequeueLoop (psta : StaId) (ac : Ac) : ∀ (l kept : List XmitFrame) (ps : PsState),
    (PsState.dequeueLoop psta ac kept l ps).toSched = dequeueLoop psta ac kept l ps.toSched := by
  intro l
  induction l with
  | nil => exact fun _ _ => rfl
  | cons f rest ih =>
    intro kept ps
    have henq := toSched_xmitframeEnqueue ps { f with triggered := 0 }
    unfold PsState.dequeueLoop dequeueLoop
    simp only
    rw [← henq]
    cases ps.xmitframeEnqueueForSleepingSta { f with triggered := 0 } with
    | none => exact ih _ _
    | some ps' => exact ih _ _

theorem toSched_putAside (psta : StaId) (ps : PsState) (ac : Ac) :
    (PsState.putAside psta ps ac).toSched = putAside psta ps.toSched ac := by
  unfold PsState.putAside putAside
  simp only
  rw [toSched_dequeueLoop]

theorem toSched_stopStaXmit (ps : PsState) (psta : StaId) :
    (ps.stopStaXmit psta).map PsState.toSched = stopStaXmit ps.toSched psta := by
  unfold PsState.stopStaXmit stopStaXmit
  cases rtwGetBcmcStainfo ps.table with
  | none => rfl
  | some pstaBmc =>
    simp only [Option.map_some, List.foldl_cons, List.foldl_nil, toSched_putAside]

theorem toSched_wakeupStaToXmit (ps : PsState) (psta : StaId) :
    (ps.wakeupStaToXmit psta).toSched = wakeupStaToXmit ps.toSched psta := by
  obtain ⟨hloop, _⟩ := psReleaseLoop_spec psta (ps.sleepQ psta) ps
  unfold PsState.wakeupStaToXmit wakeupStaToXmit
  cases rtwGetBcmcStainfo ps.table with
  | none => exact congrArg (fun st : Sched => st.wakeIfDone psta) hloop
  | some pstaBmc =>
    exact congrArg (fun st : Sched => (st.wakeIfDone psta).releaseBmc pstaBmc) hloop

theorem psSendOne_kept {ps : PsState} (hk : ps.toSched.Kept) (psta : StaId) (f : XmitFrame)
    (l : List XmitFrame) : (ps.sendOne psta f l).toSched.Kept := by
  have hdequeued : (ps.toSched.sleepDequeue psta l).Kept := hk.of_q rfl
  exact rtl8723bsHalXmitframeEnqueue_kept hdequeued _

theorem psDeliverLoop_kept (psta : StaId) : ∀ (rest kept : List XmitFrame) (ps : PsState),
    ps.toSched.Kept → (PsState.deliverLoop psta kept rest ps).toSched.Kept := by
  intro rest
  induction rest with
  | nil => exact fun _ _ hk => hk
  | cons f rest ih =>
    intro kept ps hk
    have hsent := psSendOne_kept hk psta f (kept ++ rest)
    unfold PsState.deliverLoop
    split
    · exact ih _ _ hk
    · refine ih _ _ ?_
      unfold PsState.deliverOne
      simp only
      split
      · exact hsent.of_q rfl
      · exact hsent

/-- **The pending queues stay consistent** through every power save operation, under the
condition on sleep transitions of `tx_queues_kept`. -/
theorem psStep_kept {ps ps' : PsState} {e : PsEvent} (hk : ps.toSched.Kept)
    (hstop : ∀ a psta, e = .stop a → rtwGetStainfo ps.table a = some psta →
      ps.toSched.StopComplete psta)
    (hother : ∀ st, e = .other st → st.Kept) (hstep : psStep ps e = some ps') :
    ps'.toSched.Kept := by
  cases e with
  | enqueue f =>
    obtain rfl := Option.some.inj hstep
    cases hf : ps.xmitframeEnqueueForSleepingSta f with
    | none => exact hk
    | some ps' =>
      have henq := toSched_xmitframeEnqueue ps f
      rw [hf] at henq
      obtain ⟨psta, _, _, hcases⟩ := xmitframeEnqueue_cases henq.symm
      have hq : ps'.toSched.q = ps.toSched.q := by
        rcases hcases with ⟨_, h⟩ | ⟨_, _, h⟩
        · rw [h]
          rfl
        · rw [h]
          rfl
      exact hk.of_q hq
  | stop a =>
    simp only [psStep] at hstep
    split at hstep
    · obtain rfl := Option.some.inj hstep
      exact hk
    · rename_i psta ha
      have hsched := toSched_stopStaXmit ps psta
      rw [hstep] at hsched
      exact stopStaXmit_kept hk hsched.symm (hstop a psta rfl ha)
  | wakeup a =>
    obtain rfl := Option.some.inj hstep
    cases rtwGetStainfo ps.table a with
    | none => exact hk
    | some psta =>
      change (ps.wakeupStaToXmit psta).toSched.Kept
      rw [toSched_wakeupStaToXmit]
      exact wakeupStaToXmit_kept hk psta
  | trigger a =>
    obtain rfl := Option.some.inj hstep
    cases rtwGetStainfo ps.table a with
    | none => exact hk
    | some psta => exact psDeliverLoop_kept psta _ [] ps hk
  | ctrl macAddr m priority =>
    obtain rfl := Option.some.inj hstep
    unfold PsState.validateRecvCtrlFrame
    cases ps.polledBy macAddr m priority with
    | none => exact hk
    | some psta =>
      change (ps.psPoll psta).toSched.Kept
      unfold PsState.psPoll
      split
      · rename_i f rest _
        have hsent := psSendOne_kept hk psta f rest
        simp only
        split
        · exact hsent.of_q rfl
        · exact hsent
      · split
        · exact hk.of_q rfl
        · exact hk
  | other st =>
    obtain rfl := Option.some.inj hstep
    exact (hother st rfl).of_q rfl

end Rtl8723bs
