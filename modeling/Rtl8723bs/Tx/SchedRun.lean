/-
# The transmit queues over a run

`Sched.Kept` says of the queues what the operations rely on: the library's `Good`, and that
every frame lies in the queue of its own priority.  All operations keep it, whatever the rest
of the driver does in between, but `stop_sta_xmit` only for a station all of whose frames the
sleeping queue takes: it unlinks the queues whatever they still hold.

`tx_queues_kept` is the statement over whole runs.  `tx_queue_stranded` is a run that breaks
it: an access point whose sixteenth station is told to sleep while a frame is pending, with a
bitmap of sleeping stations that ends at AID 15.
-/
import Rtl8723bs.Tx.Sched

namespace Rtl8723bs

open LinkedQueues

/-! ## 1. What is kept -/

/-- The station pool. -/
abbrev staPool : Finset StaId := Finset.range numSta

structure Sched.Kept (st : Sched) : Prop where
  good : Good staPool XmitFrame.id st.q
  filed : ∀ i ac, ∀ f ∈ st.q.queue i ac, acOf f.priority = ac

/-- As `Kept`, but the queue of `psta` may be linked or not. -/
structure Sched.KeptBut (psta : StaId) (ac : Ac) (st : Sched) : Prop where
  good : GoodBut staPool XmitFrame.id psta ac st.q
  filed : ∀ i ac, ∀ f ∈ st.q.queue i ac, acOf f.priority = ac

theorem Sched.Kept.but {st : Sched} (h : st.Kept) (psta : StaId) (ac : Ac) :
    st.KeptBut psta ac :=
  ⟨h.good.but psta ac, h.filed⟩

/-- Only the queues matter. -/
theorem Sched.Kept.of_q {st st' : Sched} (h : st.Kept) (hq : st'.q = st.q) : st'.Kept :=
  ⟨hq ▸ h.good, hq ▸ h.filed⟩

theorem Sched.KeptBut.of_q {st st' : Sched} {psta : StaId} {ac : Ac} (h : st.KeptBut psta ac)
    (hq : st'.q = st.q) : st'.KeptBut psta ac :=
  ⟨hq ▸ h.good, hq ▸ h.filed⟩

/-- A station that is found is in the pool. -/
theorem Sched.mem_pool (st : Sched) {ra : MacAddr} {psta : StaId}
    (h : rtwGetStainfo st.table ra = some psta) : psta ∈ staPool :=
  Finset.mem_range.mpr (st.inPool _ (rtwGetStainfo_mem h))

/-- A change of one queue keeps the frames filed if the new contents are. -/
theorem filed_put {queue : StaId → Ac → List XmitFrame} {psta : StaId} {ac : Ac}
    {l : List XmitFrame} (h : ∀ i g, ∀ f ∈ queue i g, acOf f.priority = g)
    (hl : ∀ f ∈ l, acOf f.priority = ac) :
    ∀ i g, ∀ f ∈ put queue psta ac l i g, acOf f.priority = g := by
  intro i g f hf
  by_cases hig : i = psta ∧ g = ac
  · obtain ⟨rfl, rfl⟩ := hig
    rw [put_same] at hf
    exact hl f hf
  · rw [put_ne hig] at hf
    exact h i g f hf

/-! ## 2. Classifying and dequeueing -/

/-- What the classifier does when it succeeds. -/
theorem rtwXmitClassifier_cases {st st' : Sched} {f : XmitFrame}
    (h : rtwXmitClassifier st f = some st') :
    ∃ psta, rtwGetStainfo st.table f.ra = some psta ∧
      st' = { st with
        q := (((st.q.link psta (acOf f.priority)).setQueue psta (acOf f.priority)
          (st.q.queue psta (acOf f.priority) ++ [f])).enter psta (acOf f.priority) f.id).count
            psta (acOf f.priority) 1 } := by
  unfold rtwXmitClassifier at h
  split at h
  · cases h
  · split at h
    · cases h
    · rename_i psta hsta
      split at h
      · cases h
      · exact ⟨psta, hsta, (Option.some.inj h).symm⟩

theorem rtwXmitClassifier_kept {st st' : Sched} {f : XmitFrame} (hk : st.Kept)
    (h : rtwXmitClassifier st f = some st') : st'.Kept := by
  obtain ⟨psta, hsta, rfl⟩ := rtwXmitClassifier_cases h
  refine ⟨hk.good.push (st.mem_pool hsta) f, ?_⟩
  change ∀ i g, ∀ x ∈ put (st.q.link psta _).queue psta _ _ i g, acOf x.priority = g
  rw [Queues.link_queue]
  refine filed_put hk.filed ?_
  intro x hx
  rcases List.mem_append.mp hx with hx | hx
  · exact hk.filed psta _ x hx
  · rw [List.mem_singleton.mp hx]

theorem rtl8723bsHalXmitframeEnqueue_kept {st : Sched} (hk : st.Kept) (f : XmitFrame) :
    (rtl8723bsHalXmitframeEnqueue st f).Kept := by
  unfold rtl8723bsHalXmitframeEnqueue
  cases h : rtwXmitClassifier st f with
  | none => exact hk
  | some st' => exact rtwXmitClassifier_kept hk h

/-- Taking the first frame of a queue keeps everything but, possibly, its link. -/
theorem Sched.KeptBut.takeFirst {st : Sched} {psta : StaId} {ac : Ac} {f : XmitFrame}
    {rest : List XmitFrame} (hk : st.KeptBut psta ac) (hq : st.q.queue psta ac = f :: rest) :
    (st.takeFirst psta ac f rest).KeptBut psta ac := by
  refine ⟨hk.good.take hq rfl, filed_put hk.filed ?_⟩
  intro x hx
  exact hk.filed psta ac x (hq ▸ List.mem_cons_of_mem f hx)

theorem Sched.KeptBut.unlink {st : Sched} {psta : StaId} {ac : Ac} (hk : st.KeptBut psta ac)
    (hq : st.q.queue psta ac = []) : (st.unlink psta ac).Kept :=
  ⟨hk.good.unlink_empty hq, hk.filed⟩

theorem dequeueStations_kept {st : Sched} {ac : Ac} (hk : st.Kept) :
    ∀ {stas : List StaId} {f : XmitFrame} {st' : Sched},
      dequeueStations st ac stas = some (f, st') → st'.Kept := by
  intro stas
  induction stas with
  | nil =>
    intro f st' h
    cases h
  | cons psta stas ih =>
    intro f st' h
    unfold dequeueStations at h
    split at h
    · exact ih h
    · rename_i x rest hq
      have htake : (st.takeFirst psta ac x rest).KeptBut psta ac :=
        (hk.but psta ac).takeFirst hq
      have hnow : (st.takeFirst psta ac x rest).q.queue psta ac = rest := put_same ..
      obtain ⟨rfl, rfl⟩ := Prod.mk.inj (Option.some.inj h)
      split
      · rename_i hrest
        exact htake.unlink (hnow.trans hrest)
      · rename_i hrest
        refine ⟨htake.good.good ?_, htake.filed⟩
        -- the queue was linked, and still holds something
        have hlinked : psta ∈ st.q.linked ac :=
          (hk.good.linkedAt psta ac).mpr (by rw [hq]; exact List.cons_ne_nil x rest)
        exact ⟨fun _ => by rw [hnow]; exact hrest, fun _ => hlinked⟩

theorem rtwDequeueXframe_kept {st st' : Sched} {f : XmitFrame} (hk : st.Kept)
    (h : rtwDequeueXframe st = some (f, st')) : st'.Kept := by
  obtain ⟨ac, _, hac⟩ := List.exists_of_findSome?_eq_some h
  exact dequeueStations_kept hk hac

/-! ## 3. `xmit_xmitframes` -/

/-- Serving a station takes frames from the front of its queue. -/
theorem serveFrames_kept (bus : SdioBus) (single : Bool) (psta : StaId) (ac : Ac) :
    ∀ (l : List XmitFrame) (r : TxRegs) (st : Sched), st.KeptBut psta ac →
      st.q.queue psta ac = l → (serveFrames bus single psta ac l r st).2.KeptBut psta ac := by
  intro l
  induction l with
  | nil =>
    intro r st hk _
    exact hk
  | cons f rest ih =>
    intro r st hk hq
    unfold serveFrames
    split
    · exact hk
    · split
      · exact hk
      · refine ih _ _ (hk.takeFirst hq) ?_
        exact put_same ..

/-- The link of a station that is being served stays where it is. -/
theorem serveFrames_linked (bus : SdioBus) (single : Bool) (psta : StaId) (ac : Ac) :
    ∀ (l : List XmitFrame) (r : TxRegs) (st : Sched),
      (serveFrames bus single psta ac l r st).2.q.linked = st.q.linked := by
  intro l
  induction l with
  | nil => exact fun _ _ => rfl
  | cons f rest ih =>
    intro r st
    unfold serveFrames
    split
    · rfl
    · split
      · rfl
      · exact ih _ _

theorem settle_kept {psta : StaId} {ac : Ac} {err : Int} {st : Sched} (hk : st.KeptBut psta ac)
    (hlinked : psta ∈ st.q.linked ac) : (settle psta ac err st).Kept := by
  unfold settle
  split
  · rename_i hq
    exact hk.unlink hq
  · rename_i hq
    split
    · exact ⟨hk.good.relink hq, hk.filed⟩
    · exact ⟨hk.good.good ⟨fun _ => hq, fun _ => hlinked⟩, hk.filed⟩

/-- Settling one station does not unlink another. -/
theorem settle_linked {psta j : StaId} {ac : Ac} {err : Int} {st : Sched} (hj : j ≠ psta)
    (hlinked : j ∈ st.q.linked ac) : j ∈ (settle psta ac err st).q.linked ac := by
  have hun : j ∈ (st.q.unlink psta ac).linked ac :=
    mem_unlink.mpr ⟨hlinked, fun h => hj h.1⟩
  unfold settle
  split
  · exact hun
  · split
    · exact mem_insertTail.mpr (Or.inl hun)
    · exact hlinked

theorem serveStations_kept (bus : SdioBus) (single : Bool) (ac : Ac) :
    ∀ (stas : List StaId) (r : TxRegs) (st : Sched), st.Kept → stas.Nodup →
      (∀ j ∈ stas, j ∈ st.q.linked ac) → (serveStations bus single ac stas r st).2.Kept := by
  intro stas
  induction stas with
  | nil =>
    intro r st hk _ _
    exact hk
  | cons psta stas ih =>
    intro r st hk hnodup hlinked
    obtain ⟨hpsta, hnodup⟩ := List.nodup_cons.mp hnodup
    have hserved := serveFrames_kept bus single psta ac (st.q.queue psta ac) r st
      (hk.but psta ac) rfl
    have hlink := serveFrames_linked bus single psta ac (st.q.queue psta ac) r st
    unfold serveStations
    set s := serveFrames bus single psta ac (st.q.queue psta ac) r st
    have hsettled : (settle psta ac s.1.err s.2).Kept := by
      refine settle_kept hserved ?_
      rw [hlink]
      exact hlinked psta List.mem_cons_self
    simp only
    split
    · exact hsettled
    · refine ih _ _ hsettled hnodup ?_
      intro j hj
      refine settle_linked (fun hjp => hpsta (hjp ▸ hj)) ?_
      rw [hlink]
      exact hlinked j (List.mem_cons_of_mem psta hj)

theorem xmitRounds_kept (bus : SdioBus) : ∀ (inx : List Ac) (r : TxRegs) (st : Sched), st.Kept →
    (xmitRounds bus inx r st).2.Kept := by
  intro inx
  induction inx with
  | nil => exact fun _ _ hk => hk
  | cons ac inx ih =>
    intro r st hk
    unfold xmitRounds
    split
    · exact hk
    · have hserved := serveStations_kept bus (st.q.linked ac).tail.isEmpty ac (st.q.linked ac)
        r st hk (hk.good.counted.nodup ac) (fun _ hj => hj)
      simp only
      split
      · exact hserved
      · exact ih _ _ hserved

/-! ## 4. Waking up and going away -/

theorem releaseLoop_kept (psta : StaId) : ∀ (l : List XmitFrame) (st : Sched), st.Kept →
    (releaseLoop psta l st).Kept := by
  intro l
  induction l with
  | nil => exact fun _ hk => hk
  | cons f rest ih =>
    intro st hk
    have hdequeued : (st.sleepDequeue psta rest).Kept := hk.of_q rfl
    exact ih _ (rtl8723bsHalXmitframeEnqueue_kept hdequeued _)

theorem Sched.Kept.wakeIfDone {st : Sched} (hk : st.Kept) (psta : StaId) :
    (st.wakeIfDone psta).Kept := by
  unfold Sched.wakeIfDone
  split
  · exact hk.of_q rfl
  · exact hk

theorem Sched.Kept.releaseBmc {st : Sched} (hk : st.Kept) (pstaBmc : StaId) :
    (st.releaseBmc pstaBmc).Kept := by
  have hreleased := releaseLoop_kept pstaBmc (st.sleepQ pstaBmc) st hk
  unfold Sched.releaseBmc
  split
  · simp only
    split
    · exact hreleased.of_q rfl
    · exact hreleased
  · exact hk

theorem wakeupStaToXmit_kept {st : Sched} (hk : st.Kept) (psta : StaId) :
    (wakeupStaToXmit st psta).Kept := by
  have hawake := (releaseLoop_kept psta (st.sleepQ psta) st hk).wakeIfDone psta
  unfold wakeupStaToXmit
  split
  · exact hawake
  · exact hawake.releaseBmc _

theorem freeServq_kept {psta : StaId} {st : Sched} (hpool : psta ∈ staPool) (hk : st.Kept)
    (ac : Ac) : (freeServq psta st ac).Kept := by
  have hcleared := (hk.good.but psta ac).clear hpool
  refine ⟨hcleared.unlink_empty (put_same ..), filed_put hk.filed ?_⟩
  intro f hf
  cases hf

theorem freeServqs_kept {psta : StaId} (hpool : psta ∈ staPool) :
    ∀ (acs : List Ac) (st : Sched), st.Kept → (acs.foldl (freeServq psta) st).Kept := by
  intro acs
  induction acs with
  | nil => exact fun _ hk => hk
  | cons ac acs ih => exact fun st hk => ih _ (freeServq_kept hpool hk ac)

theorem releaseAid_q (st : Sched) (psta : StaId) : (st.releaseAid psta).q = st.q := by
  unfold Sched.releaseAid
  split
  · split <;> rfl
  · rfl

theorem rtwFreeStainfo_kept {st : Sched} {psta : StaId} (hpool : psta ∈ staPool)
    (hk : st.Kept) : (rtwFreeStainfo st psta).Kept := by
  have hunhashed : (st.unhash psta).Kept := hk.of_q rfl
  exact (freeServqs_kept hpool _ _ hunhashed).of_q (releaseAid_q _ psta)

/-- `rtw_free_stainfo` empties the queues of the station, and no others. -/
theorem rtwFreeStainfo_queue (st : Sched) (psta i : StaId) (ac : Ac) :
    (rtwFreeStainfo st psta).q.queue i ac = if i = psta then [] else st.q.queue i ac := by
  have hone : ∀ (st' : Sched) (ac' : Ac), (freeServq psta st' ac').q.queue i ac
      = if i = psta ∧ ac = ac' then [] else st'.q.queue i ac := fun _ _ => rfl
  unfold rtwFreeStainfo
  rw [releaseAid_q]
  simp only [List.foldl_cons, List.foldl_nil, hone]
  by_cases hi : i = psta
  · cases ac <;> simp [hi]
  · simp only [hi, false_and, if_false]
    rfl

/-- The sleeping queue is emptied first, and nothing later fills one. -/
theorem rtwFreeStainfo_sleepQ (st : Sched) (psta : StaId) :
    (rtwFreeStainfo st psta).sleepQ = Function.update st.sleepQ psta [] := by
  unfold rtwFreeStainfo Sched.releaseAid
  split
  · split <;> rfl
  · rfl

/-! ## 5. Dozing off -/

/-- What `xmitframe_enqueue_for_sleeping_sta` does when it takes the frame. -/
theorem xmitframeEnqueue_cases {st st' : Sched} {f : XmitFrame}
    (h : xmitframeEnqueueForSleepingSta st f = some st') :
    ∃ psta, f.psta = some psta ∧ rtwGetStainfo st.table f.ra = some psta ∧
      ((isMcast f.ra = true ∧
          st' = { st.sleepEnqueue psta f with staDzBitmap := st.staDzBitmap ||| bit16 0 }) ∨
        (isMcast f.ra = false ∧ st.staDzBitmap.getLsbD (st.aid psta) = true ∧
          st' = st.sleepEnqueue psta f)) := by
  unfold xmitframeEnqueueForSleepingSta at h
  split at h
  · cases h
  split at h
  · cases h
  rename_i hpsta
  split at h
  · cases h
  rename_i psta hsta
  split at h
  · cases h
  split at h
  · cases h
  refine ⟨psta, (not_not.mp hpsta).trans hsta, hsta, ?_⟩
  split at h
  · rename_i hmc
    split at h
    · cases h
    · exact Or.inl ⟨hmc, (Option.some.inj h).symm⟩
  · rename_i hmc
    split at h
    · rename_i hsleep
      exact Or.inr ⟨eq_false_of_ne_true hmc, (Bool.and_eq_true _ _ ▸ hsleep).2,
        (Option.some.inj h).symm⟩
    · cases h

/-- A frame of station `s` that `xmitframe_enqueue_for_sleeping_sta` takes. -/
def Sched.Takes (st : Sched) (s : StaId) (f : XmitFrame) : Prop :=
  st.isAp = true ∧ f.psta = some s ∧ rtwGetStainfo st.table f.ra = some s ∧
    st.fwLinked s = true ∧
    if isMcast f.ra then st.staDzBitmap ≠ 0
    else st.sleeping s = true ∧ st.staDzBitmap.getLsbD (st.aid s) = true

/-- `st'` takes whatever `st` takes: only bits were added to the bitmap. -/
structure Sched.StillTakes (st st' : Sched) : Prop where
  isAp : st'.isAp = st.isAp
  table : st'.table = st.table
  fwLinked : st'.fwLinked = st.fwLinked
  sleeping : st'.sleeping = st.sleeping
  aid : st'.aid = st.aid
  bitmap : ∃ m, st'.staDzBitmap = st.staDzBitmap ||| m

theorem Sched.stillTakes_setQ (st : Sched) (q : TxQueues) : st.StillTakes { st with q := q } :=
  ⟨rfl, rfl, rfl, rfl, rfl, 0, BitVec.or_zero.symm⟩

theorem Sched.StillTakes.trans {st st' st'' : Sched} (h : st.StillTakes st')
    (h' : st'.StillTakes st'') : st.StillTakes st'' := by
  obtain ⟨m, hm⟩ := h.bitmap
  obtain ⟨m', hm'⟩ := h'.bitmap
  refine ⟨h'.isAp.trans h.isAp, h'.table.trans h.table, h'.fwLinked.trans h.fwLinked,
    h'.sleeping.trans h.sleeping, h'.aid.trans h.aid, m ||| m', ?_⟩
  rw [hm', hm, BitVec.or_assoc]

theorem Sched.StillTakes.takes {st st' : Sched} {s : StaId} {f : XmitFrame}
    (h : st.StillTakes st') (ht : st.Takes s f) : st'.Takes s f := by
  obtain ⟨hap, hpsta, hsta, hlinked, hbit⟩ := ht
  obtain ⟨m, hm⟩ := h.bitmap
  refine ⟨h.isAp.trans hap, hpsta, h.table ▸ hsta, h.fwLinked ▸ hlinked, ?_⟩
  split
  · rename_i hmc
    rw [if_pos hmc] at hbit
    rw [hm]
    intro hzero
    exact hbit (BitVec.or_eq_zero_iff.mp hzero).1
  · rename_i hmc
    rw [if_neg hmc] at hbit
    rw [h.sleeping, h.aid, hm, BitVec.getLsbD_or, hbit.2]
    exact ⟨hbit.1, rfl⟩

/-- A frame that is taken leaves the pending queues as they are. -/
theorem Sched.Takes.enqueue {st : Sched} {s : StaId} {f : XmitFrame} (h : st.Takes s f) :
    ∃ st', xmitframeEnqueueForSleepingSta st { f with triggered := 0 } = some st' ∧
      st'.q = st.q ∧ st.StillTakes st' := by
  obtain ⟨hap, hpsta, hsta, hlinked, hbit⟩ := h
  by_cases hmc : isMcast f.ra = true
  · rw [if_pos hmc] at hbit
    have hdz : ¬st.staDzBitmap = 0#16 := hbit
    refine ⟨{ st.sleepEnqueue s { f with triggered := 0 } with
      staDzBitmap := st.staDzBitmap ||| bit16 0 }, ?_, rfl, ?_⟩
    · simp [xmitframeEnqueueForSleepingSta, hap, hpsta, hsta, hlinked, hmc, hdz]
    · exact ⟨rfl, rfl, rfl, rfl, rfl, bit16 0, rfl⟩
  · rw [if_neg hmc] at hbit
    refine ⟨st.sleepEnqueue s { f with triggered := 0 }, ?_, rfl, ?_⟩
    · simp [xmitframeEnqueueForSleepingSta, hap, hpsta, hsta, hlinked, hmc, hbit]
    · exact ⟨rfl, rfl, rfl, rfl, rfl, 0, BitVec.or_zero.symm⟩

/-- **All frames are taken.**  The loop then empties the queue from the front, and nothing but
the link of this queue is left open. -/
theorem dequeueLoop_kept {psta s : StaId} {ac : Ac} : ∀ (l : List XmitFrame) (st : Sched),
    st.KeptBut psta ac → st.q.queue psta ac = l → (∀ f ∈ l, st.Takes s f) →
      (dequeueLoop psta ac [] l st).KeptBut psta ac ∧
        (dequeueLoop psta ac [] l st).q.queue = put st.q.queue psta ac [] ∧
        st.StillTakes (dequeueLoop psta ac [] l st) := by
  intro l
  induction l with
  | nil =>
    intro st hk hq _
    refine ⟨hk, ?_, st.stillTakes_setQ st.q⟩
    change st.q.queue = put st.q.queue psta ac []
    rw [← hq, put_self]
  | cons f rest ih =>
    intro st hk hq htakes
    obtain ⟨st', henq, hq', hstill⟩ := (htakes f List.mem_cons_self).enqueue
    have hk' : st'.KeptBut psta ac := hk.of_q hq'
    have hac : acOf f.priority = ac := hk.filed psta ac f (hq ▸ List.mem_cons_self)
    have hhead : st'.q.queue psta ac = f :: rest := by rw [hq', hq]
    have htook : (st'.takeFirst psta ac f rest).KeptBut psta ac := hk'.takeFirst hhead
    have hstill' : st.StillTakes (st'.takeFirst psta ac f rest) :=
      hstill.trans (st'.stillTakes_setQ _)
    obtain ⟨hkept, hqueue, hlast⟩ := ih (st'.takeFirst psta ac f rest) htook (put_same ..)
      (fun x hx => hstill'.takes (htakes x (List.mem_cons_of_mem f hx)))
    have hstep : dequeueLoop psta ac [] (f :: rest) st
        = dequeueLoop psta ac [] rest (st'.takeFirst psta ac f rest) := by
      conv_lhs => unfold dequeueLoop
      simp only [henq, hac, List.nil_append]
      rfl
    rw [hstep]
    refine ⟨hkept, ?_, hstill'.trans hlast⟩
    rw [hqueue]
    change put (put st'.q.queue psta ac rest) psta ac [] = put st.q.queue psta ac []
    rw [hq']
    funext j g
    by_cases hjg : j = psta ∧ g = ac
    · obtain ⟨rfl, rfl⟩ := hjg
      rw [put_same, put_same]
    · rw [put_ne hjg, put_ne hjg, put_ne hjg]

theorem putAside_kept {psta s : StaId} {ac : Ac} {st : Sched} (hk : st.Kept)
    (htakes : ∀ f ∈ st.q.queue psta ac, st.Takes s f) :
    (putAside psta st ac).Kept ∧ (putAside psta st ac).q.queue = put st.q.queue psta ac [] ∧
      st.StillTakes (putAside psta st ac) := by
  obtain ⟨hkept, hqueue, hstill⟩ :=
    dequeueLoop_kept (st.q.queue psta ac) st (hk.but psta ac) rfl htakes
  refine ⟨hkept.unlink ?_, hqueue, hstill.trans (Sched.stillTakes_setQ _ _)⟩
  rw [hqueue]
  exact put_same ..

/-- Station `psta` is about to doze off: a frame of `s` that its going to sleep makes the
sleeping queue take.  The bitmap gets the bit of `psta` only below AID 16. -/
def Sched.SleepTakes (st : Sched) (psta s : StaId) (f : XmitFrame) : Prop :=
  st.isAp = true ∧ f.psta = some s ∧ rtwGetStainfo st.table f.ra = some s ∧
    st.fwLinked s = true ∧
    if isMcast f.ra then st.staDzBitmap ≠ 0 ∨ st.aid psta < 16
    else (s = psta ∨ st.sleeping s = true) ∧
      (st.staDzBitmap.getLsbD (st.aid s) = true ∨ (st.aid s = st.aid psta ∧ st.aid psta < 16))

instance (st : Sched) (psta s : StaId) (f : XmitFrame) : Decidable (st.SleepTakes psta s f) :=
  inferInstanceAs (Decidable (_ ∧ _ ∧ _ ∧ _ ∧ ite _ _ _))

/-- The bitmap has no bit for AIDs from 16 on. -/
theorem bit16_eq_zero {n : Nat} : bit16 n = 0 ↔ 16 ≤ n := by
  constructor
  · intro h
    have hbit := getLsbD_bit16 n n
    rw [h, BitVec.ofNat_eq_ofNat, BitVec.getLsbD_zero] at hbit
    by_contra hn
    have hlt : n < 16 := Nat.lt_of_not_le hn
    simp [hlt] at hbit
  · intro hn
    refine BitVec.eq_of_getLsbD_eq ?_
    intro k _
    have hge : ¬n < 16 := Nat.not_lt.mpr hn
    rw [getLsbD_bit16, decide_eq_false hge]
    simp

theorem takes_dozeOff {st : Sched} {psta s : StaId} {f : XmitFrame} :
    (st.dozeOff psta).Takes s f ↔ st.SleepTakes psta s f := by
  have hzero : st.staDzBitmap ||| bit16 (st.aid psta) ≠ 0 ↔
      st.staDzBitmap ≠ 0 ∨ st.aid psta < 16 := by
    rw [Ne, BitVec.ofNat_eq_ofNat, BitVec.or_eq_zero_iff, ← BitVec.ofNat_eq_ofNat, bit16_eq_zero,
      not_and_or, Nat.not_le]
  have hbit : (st.staDzBitmap ||| bit16 (st.aid psta)).getLsbD (st.aid s) = true ↔
      st.staDzBitmap.getLsbD (st.aid s) = true ∨
        (st.aid s = st.aid psta ∧ st.aid psta < 16) := by
    rw [BitVec.getLsbD_or, getLsbD_bit16, Bool.or_eq_true, Bool.and_eq_true, decide_eq_true_eq,
      decide_eq_true_eq]
    constructor
    · rintro (h | ⟨hlt, heq⟩)
      · exact Or.inl h
      · exact Or.inr ⟨heq.symm, hlt⟩
    · rintro (h | ⟨heq, hlt⟩)
      · exact Or.inl h
      · exact Or.inr ⟨hlt, heq.symm⟩
  have hsleep : Function.update st.sleeping psta true s = true ↔
      s = psta ∨ st.sleeping s = true := by
    by_cases hs : s = psta
    · simp [hs]
    · simp [hs]
  unfold Sched.Takes Sched.SleepTakes Sched.dozeOff
  simp only [hzero, hbit, hsleep]

/-- **The sleeping queue takes everything** that `stop_sta_xmit` goes through: the four queues
of the station, and the best effort queue of the entry for the broadcast address. -/
def Sched.StopComplete (st : Sched) (psta : StaId) : Prop :=
  (∀ ac ∈ [Ac.vo, .vi, .be, .bk], ∀ f ∈ st.q.queue psta ac, st.SleepTakes psta psta f) ∧
    ∀ pstaBmc ∈ rtwGetBcmcStainfo st.table,
      ∀ f ∈ st.q.queue pstaBmc .be, st.SleepTakes psta pstaBmc f

instance (st : Sched) (psta : StaId) : Decidable (st.StopComplete psta) :=
  inferInstanceAs (Decidable (_ ∧ _))

/-- What a queue holds was there before, as long as queues are only emptied. -/
theorem mem_of_put_nil {queue : StaId → Ac → List XmitFrame} {psta i : StaId} {ac g : Ac}
    {f : XmitFrame} (hf : f ∈ put queue psta ac [] i g) : f ∈ queue i g := by
  by_cases hig : i = psta ∧ g = ac
  · obtain ⟨rfl, rfl⟩ := hig
    rw [put_same] at hf
    cases hf
  · rwa [put_ne hig] at hf

theorem putAsides_kept {psta : StaId} : ∀ (acs : List Ac) (st : Sched), st.Kept →
    (∀ ac ∈ acs, ∀ f ∈ st.q.queue psta ac, st.Takes psta f) →
      (acs.foldl (putAside psta) st).Kept ∧ st.StillTakes (acs.foldl (putAside psta) st) ∧
        ∀ i g, ∀ f ∈ (acs.foldl (putAside psta) st).q.queue i g, f ∈ st.q.queue i g := by
  intro acs
  induction acs with
  | nil =>
    intro st hk _
    exact ⟨hk, st.stillTakes_setQ st.q, fun _ _ _ hf => hf⟩
  | cons ac acs ih =>
    intro st hk htakes
    obtain ⟨hkept, hqueue, hstill⟩ := putAside_kept hk (htakes ac List.mem_cons_self)
    have hsub : ∀ i g, ∀ f ∈ (putAside psta st ac).q.queue i g, f ∈ st.q.queue i g := by
      intro i g f hf
      rw [hqueue] at hf
      exact mem_of_put_nil hf
    obtain ⟨hlast, hstill', hsub'⟩ := ih (putAside psta st ac) hkept (fun ac' hac' f hf =>
      hstill.takes (htakes ac' (List.mem_cons_of_mem ac hac') f (hsub psta ac' f hf)))
    exact ⟨hlast, hstill.trans hstill', fun i g f hf => hsub i g f (hsub' i g f hf)⟩

theorem stopStaXmit_kept {st st' : Sched} {psta : StaId} (hk : st.Kept)
    (h : stopStaXmit st psta = some st') (hcomplete : st.StopComplete psta) : st'.Kept := by
  unfold stopStaXmit at h
  split at h
  · cases h
  · rename_i pstaBmc hbmc
    cases h
    have hdozed : (st.dozeOff psta).Kept := hk.of_q rfl
    obtain ⟨hkept, hstill, hsub⟩ := putAsides_kept _ _ hdozed
      (fun ac hac f hf => takes_dozeOff.mpr (hcomplete.1 ac hac f hf))
    have htakes : ∀ f ∈ ([Ac.vo, .vi, .be, .bk].foldl (putAside psta) (st.dozeOff psta)).q.queue
        pstaBmc .be, (st.dozeOff psta).Takes pstaBmc f :=
      fun f hf => takes_dozeOff.mpr (hcomplete.2 pstaBmc hbmc f (hsub _ _ f hf))
    exact (putAside_kept hkept (fun f hf => hstill.takes (htakes f hf))).1

/-! ## 6. Runs -/

/-- What happens to the transmit queues.  `dequeue_xmitframes_to_sleeping_queue` is a static
function of `stop_sta_xmit`.  The lock is free between two categories of `xmit_xmitframes`:
`rounds` is a stretch of it, with the `err` of the categories before.  `other` is any other
part of the driver, which may change everything except the pending queues. -/
inductive SchedEvent
  | classify (f : XmitFrame)
  | dequeue
  | xmit (bus : SdioBus)
  | rounds (bus : SdioBus) (inx : List Ac) (err : Int)
  | stop (psta : StaId)
  | wakeup (psta : StaId)
  | free (psta : Fin numSta)
  | other (st : Sched)

def schedStep (st : Sched) : SchedEvent → Option Sched
  | .classify f => some ((rtwXmitClassifier st f).getD st)
  | .dequeue => some ((rtwDequeueXframe st).elim st Prod.snd)
  | .xmit bus => some (xmitXmitframes bus st).2
  | .rounds bus inx err => some (xmitRounds bus inx { err := err } st).2
  | .stop psta => stopStaXmit st psta
  | .wakeup psta => some (wakeupStaToXmit st psta)
  | .free psta => some (rtwFreeStainfo st psta)
  | .other st' => some { st' with q := st.q }

def schedRun : Sched → List SchedEvent → Option Sched
  | st, [] => some st
  | st, e :: es => (schedStep st e).bind fun st' => schedRun st' es

/-- An event is complete if it leaves no frame behind in a queue that it unlinks. -/
def SchedEvent.Complete (st : Sched) : SchedEvent → Prop
  | .stop psta => st.StopComplete psta
  | _ => True

instance (st : Sched) : (e : SchedEvent) → Decidable (e.Complete st)
  | .stop psta => inferInstanceAs (Decidable (st.StopComplete psta))
  | .classify _ | .dequeue | .xmit _ | .rounds _ _ _ | .wakeup _ | .free _ | .other _ =>
    isTrue trivial

/-- Every event of the run is complete. -/
def RunComplete : Sched → List SchedEvent → Prop
  | _, [] => True
  | st, e :: es => e.Complete st ∧ ∀ st' ∈ schedStep st e, RunComplete st' es

instance decidableRunComplete : (st : Sched) → (es : List SchedEvent) →
    Decidable (RunComplete st es)
  | _, [] => isTrue trivial
  | _, _ :: es =>
    have := fun st' => decidableRunComplete st' es
    inferInstanceAs (Decidable (_ ∧ _))

theorem schedStep_kept {st st' : Sched} {e : SchedEvent} (hk : st.Kept)
    (hcomplete : e.Complete st) (h : schedStep st e = some st') : st'.Kept := by
  cases e with
  | classify f =>
    obtain rfl := Option.some.inj h
    exact rtl8723bsHalXmitframeEnqueue_kept hk f
  | dequeue =>
    obtain rfl := Option.some.inj h
    cases hdeq : rtwDequeueXframe st with
    | none => exact hk
    | some fs =>
      obtain ⟨f, st'⟩ := fs
      exact rtwDequeueXframe_kept hk hdeq
  | xmit bus =>
    obtain rfl := Option.some.inj h
    exact xmitRounds_kept bus st.inx {} st hk
  | rounds bus inx err =>
    obtain rfl := Option.some.inj h
    exact xmitRounds_kept bus inx { err := err } st hk
  | stop psta => exact stopStaXmit_kept hk h hcomplete
  | wakeup psta =>
    obtain rfl := Option.some.inj h
    exact wakeupStaToXmit_kept hk psta
  | free psta =>
    obtain rfl := Option.some.inj h
    exact rtwFreeStainfo_kept (Finset.mem_range.mpr psta.isLt) hk
  | other o =>
    obtain rfl := Option.some.inj h
    exact hk.of_q rfl

theorem schedRun_kept : ∀ (es : List SchedEvent) {st st' : Sched}, st.Kept →
    RunComplete st es → schedRun st es = some st' → st'.Kept := by
  intro es
  induction es with
  | nil =>
    rintro st st' hk _ h
    exact Option.some.inj h ▸ hk
  | cons e es ih =>
    rintro st st' hk ⟨hcomplete, hrest⟩ h
    obtain ⟨st₁, hstep, hrun⟩ := Option.bind_eq_some_iff.mp h
    exact ih (schedStep_kept hk hcomplete hstep) (hrest st₁ hstep) hrun

/-- The adapter before the first frame. -/
def Sched.start (st : Sched) : Sched := { st with q := Queues.empty }

theorem start_kept (st : Sched) : st.start.Kept := by
  refine ⟨good_empty, ?_⟩
  intro i ac f hf
  cases hf

/-- The transmit queues as they should be.  `entered` is what was classified into a queue, in
that order, and `left` what was taken out of it: to be sent, to the sleeping queue, or freed. -/
structure TxQueuesOk (q : TxQueues) : Prop where
  qcnt : ∀ psta ac, q.cnt psta ac = (q.queue psta ac).length
  linked : ∀ psta ac, psta ∈ q.linked ac ↔ q.queue psta ac ≠ []
  accnt : ∀ ac, q.total ac = ∑ psta ∈ Finset.range numSta, q.cnt psta ac
  inOrder : ∀ psta ac,
    q.entered psta ac = q.left psta ac ++ (q.queue psta ac).map XmitFrame.id

/-- **The transmit queues stay consistent** in every run in which the sleeping queue takes all
the frames that `stop_sta_xmit` finds: `qcnt` and `accnt` count what is pending, a queue is
linked if and only if it holds a frame, and frames leave in the order of their
classification. -/
theorem tx_queues_kept (st₀ : Sched) (es : List SchedEvent) (st : Sched)
    (hcomplete : RunComplete st₀.start es) (hrun : schedRun st₀.start es = some st) :
    TxQueuesOk st.q := by
  have hk : st.Kept := schedRun_kept es (start_kept st₀) hcomplete hrun
  refine ⟨hk.good.counted.cnt_eq, hk.good.linkedAt, hk.good.counted.total_eq, ?_⟩
  exact hk.good.counted.fifo

/-! ## 7. An access point with one station -/

/-- The address of the station. -/
def sta1Addr : MacAddr := ⟨0x02, 0, 0, 0, 0, 0x01⟩

/-- The station is entry 1 and has AID `n`; entry 0 is for the broadcast address. -/
def apSched (n : Nat) : Sched where
  q := Queues.empty
  isAp := true
  hwStateAp := true
  table := ⟨[(bcAddr, 0), (sta1Addr, 1)], by decide⟩
  inPool := by decide
  fwLinked _ := true
  sleeping _ := false
  aid i := if i = 1 then n else 0
  staAid a := if a = n then some 1 else none
  sleepQ _ := []
  sleepqLen _ := 0
  staDzBitmap := 0
  wifiSpec := false
  wmmParaSeq := [.vo, .vi, .be, .bk]

/-- The `n`th frame to the station. -/
def sta1Frame (n : Nat) : XmitFrame := { id := n, ra := sta1Addr, psta := some 1, priority := 0 }

/-- A bus that takes whatever comes. -/
def openBus : SdioBus where
  congested _ := false
  maxXmitLen _ := 20480
  oqtFree := 8
  txlen _ := 140
  bufFree _ := true
  coalesce _ := some 140

/-- The station sleeps with a frame pending, and wakes up again. -/
def napRun : List SchedEvent :=
  [.classify (sta1Frame 1), .xmit openBus, .classify (sta1Frame 2), .stop 1, .wakeup 1,
    .classify (sta1Frame 3), .xmit openBus]

theorem tx_queues_kept_nap :
    RunComplete (apSched 15).start napRun ∧
      ∃ st, schedRun (apSched 15).start napRun = some st ∧
        st.q.left 1 .be = [1, 2, 2, 3] ∧ TxQueuesOk st.q := by
  have hcomplete : RunComplete (apSched 15).start napRun := by decide +kernel
  have hruns : (schedRun (apSched 15).start napRun).map (fun st => st.q.left 1 .be)
      = some [1, 2, 2, 3] := by decide +kernel
  obtain ⟨st, hst, hleft⟩ := Option.map_eq_some_iff.mp hruns
  exact ⟨hcomplete, st, hst, hleft, tx_queues_kept (apSched 15) napRun st hcomplete hst⟩

/-- **A frame is stranded.**  The station has AID 16, for which the bitmap has no bit: its
frame stays pending and counted, but its queue is linked nowhere. -/
theorem tx_queue_stranded :
    ∃ st, schedRun (apSched 16).start [.classify (sta1Frame 1), .stop 1] = some st ∧
      st.q.cnt 1 .be = 1 ∧ (st.q.queue 1 .be).map XmitFrame.id = [1] ∧ st.q.linked .be = [] ∧
      ¬ TxQueuesOk st.q := by
  have hruns : (schedRun (apSched 16).start [.classify (sta1Frame 1), .stop 1]).map
      (fun st => (st.q.cnt 1 .be, (st.q.queue 1 .be).map XmitFrame.id, st.q.linked .be))
      = some (1, [1], []) := by decide +kernel
  obtain ⟨st, hst, hq⟩ := Option.map_eq_some_iff.mp hruns
  obtain ⟨hcnt, hq⟩ := Prod.mk.inj hq
  obtain ⟨hids, hlinked⟩ := Prod.mk.inj hq
  refine ⟨st, hst, hcnt, hids, hlinked, ?_⟩
  intro hok
  have hne : st.q.queue 1 .be ≠ [] := by
    intro hnil
    rw [hnil] at hids
    cases hids
  have hin := (hok.linked 1 .be).mpr hne
  rw [hlinked] at hin
  cases hin

end Rtl8723bs
