/-
# Does every frame come back?

Whatever is done to a frame or a buffer moves it from one place to another, and the invariant of a
run is that each is in one place.  What the thread that fills buffers knows about its own buffer
goes with it: there is a first frame as soon as there are bytes (`XmitPc.Ok`), so that a buffer
is handed on with its first frame freed, or freed without any.

`frames_and_bufs_conserved` is the statement over all runs.  It needs that no frame fails to be
coalesced as the first or second one of a buffer: the first stays the buffer's `priv_data` although
it is freed, and the second is lost (`second_frame_lost`).
-/
import Rtl8723bs.Tx.SchedRun
import Rtl8723bs.Tx.XmitPath

namespace Rtl8723bs

namespace XmitPath

open Pools Shelves LinkedQueues

/-! ## 1. What holds between two steps -/

/-- What is known of a buffer with `k` frames: the first is there when there are bytes. -/
structure Filled (privData : Option FrameId) (len k : Nat) : Prop where
  empty : k = 0 → privData = none ∧ len = 0
  begun : 0 < k → privData.isSome ∧ 0 < len

/-- What the thread knows of its buffer. -/
def XmitPc.Ok (privData : BufId → Option FrameId) (len : BufId → Nat) : XmitPc → Prop
  | .idle | .allocXmitbuf _ _ | .round _ none | .freeFirst _ _ _ => True
  | .round _ (some (b, k)) | .send _ _ b k => Filled (privData b) (len b) k
  | .coalesce _ id b k =>
    (k = 0 → privData b = some id ∧ len b = 0) ∧ (0 < k → (privData b).isSome ∧ 0 < len b)
  | .freeXmitframe _ _ b k => 2 ≤ k ∧ Filled (privData b) (len b) k
  | .enqueue _ b _ | .freeXmitbuf _ b _ => privData b = none

/-- The frame of a management buffer is its `priv_data` until it is freed. -/
def MgntPc.Ok (privData : BufId → Option FrameId) : MgntPc → Prop
  | .dump id b => privData b = some id
  | .send b => privData b = none
  | _ => True

/-- Who has buffers in hand. -/
inductive Holder
  | free (l : List BufId)
  | waiting (l : List BufId)
  | mgnt (pc : MgntPc)
  | xmit (pc : XmitPc)

def World.holder (w : World) : BufPlace → Holder
  | .free tag => .free (w.bufs.free tag)
  | .pending => .waiting w.pendingXmitbufQueue
  | .tmplist => .waiting w.tmplist
  | .mgnt m => .mgnt (w.mgnts m)
  | .xmitThread => .xmit w.xmit
  | .writing => .waiting w.writing.toList

def Holder.buf : Holder → List BufId
  | .free l | .waiting l => l
  | .mgnt pc => pc.buf
  | .xmit pc => pc.buf

/-- What is known of their `priv_data`: a buffer that waits has none. -/
def Holder.Ok (privData : BufId → Option FrameId) (len : BufId → Nat) : Holder → Prop
  | .free _ => True
  | .waiting l => ∀ b ∈ l, privData b = none
  | .mgnt pc => pc.Ok privData
  | .xmit pc => pc.Ok privData len

/-- **What holds between two steps.** -/
structure Inv (w : World) : Prop where
  frames : Kept frameStock w.frameAt
  bufs : Kept bufStock w.bufAt
  framePool : w.frames.Good frameStock
  bufPool : w.bufs.Good bufStock
  known : ∀ p, (w.holder p).Ok w.privData w.len

variable {w w' : World} {b : BufId}

theorem Inv.conserved (h : Inv w) : w.Conserved where
  frame := fun _ hid => h.frames.existsUnique hid
  frameOnce := h.frames.nodup
  buf := fun _ hb => h.bufs.existsUnique hb
  bufOnce := h.bufs.nodup
  frames := h.framePool
  bufs := h.bufPool

/-! ## 2. Places that stay as they are -/

/-- The thread looks at its own buffer only. -/
theorem XmitPc.Ok.congr {pc : XmitPc} {privData privData' : BufId → Option FrameId}
    {len len' : BufId → Nat} (h : pc.Ok privData len)
    (hpriv : ∀ b ∈ pc.buf, privData' b = privData b) (hlen : ∀ b ∈ pc.buf, len' b = len b) :
    pc.Ok privData' len' := by
  cases pc with
  | idle => trivial
  | allocXmitbuf ac psta => trivial
  | freeFirst ac b next => trivial
  | round ac held =>
    cases held with
    | none => trivial
    | some r =>
      have hb : r.1 ∈ (XmitPc.round ac (some r)).buf := List.mem_singleton_self _
      simp only [XmitPc.Ok, hpriv _ hb, hlen _ hb]
      exact h
  | send ac psta b k | coalesce ac id b k | freeXmitframe ac id b k =>
    simp only [XmitPc.Ok, hpriv b (List.mem_singleton_self b), hlen b (List.mem_singleton_self b)]
    exact h
  | enqueue ac b next | freeXmitbuf ac b next =>
    exact (hpriv b (List.mem_singleton_self b)).trans h

theorem MgntPc.Ok.congr {pc : MgntPc} {privData privData' : BufId → Option FrameId}
    (h : pc.Ok privData) (hpriv : ∀ b ∈ pc.buf, privData' b = privData b) : pc.Ok privData' := by
  cases pc with
  | dump id b | send b => exact (hpriv b (List.mem_singleton_self b)).trans h
  | _ => trivial

theorem Holder.Ok.congr {x : Holder} {privData privData' : BufId → Option FrameId}
    {len len' : BufId → Nat} (h : x.Ok privData len)
    (hpriv : ∀ b ∈ x.buf, privData' b = privData b) (hlen : ∀ b ∈ x.buf, len' b = len b) :
    x.Ok privData' len' := by
  cases x with
  | free l => trivial
  | waiting l => exact fun b hb => (hpriv b hb).trans (h b hb)
  | mgnt pc => exact MgntPc.Ok.congr h hpriv
  | xmit pc => exact XmitPc.Ok.congr h hpriv hlen

theorem waiting_append {l : List BufId} {privData : BufId → Option FrameId} {len : BufId → Nat}
    (h : (Holder.waiting l).Ok privData len) (hb : privData b = none) :
    (Holder.waiting (l ++ [b])).Ok privData len := by
  intro b' hb'
  rcases List.mem_append.mp hb' with hb' | hb'
  · exact h b' hb'
  · rw [List.mem_singleton.mp hb']
    exact hb

theorem buf_holder (w : World) (p : BufPlace) : (w.holder p).buf = w.bufAt p := by
  cases p <;> rfl

/-- The `priv_data` of a buffer that has none, or is free. -/
theorem frameAt_privData_none (h : w.privData b = none) : w.frameAt (.privData b) = [] := by
  simp only [World.frameAt, h, Option.toList_none, ite_self]

theorem frameAt_privData_free (h : b ∈ w.bufs.free (w.bufs.kind b)) :
    w.frameAt (.privData b) = [] := if_pos h

theorem frameAt_privData_out (h : b ∉ w.bufs.free (w.bufs.kind b)) :
    w.frameAt (.privData b) = (w.privData b).toList := if_neg h

/-- Where the frames are does not depend on `len`, nor on the buffers that wait. -/
theorem frameAt_congr (hsched : w'.sched = w.sched) (hframes : w'.frames = w.frames)
    (hcallers : w'.callers = w.callers) (hmgnts : ∀ m, (w'.mgnts m).frame = (w.mgnts m).frame)
    (hxmit : w'.xmit.frame = w.xmit.frame)
    (hpriv : ∀ b, w'.frameAt (.privData b) = w.frameAt (.privData b)) :
    w'.frameAt = w.frameAt := by
  funext p
  cases p with
  | privData b => exact hpriv b
  | mgnt m => exact hmgnts m
  | xmitThread => exact hxmit
  | free extTag => exact congrArg (fun p => Pool.free p extTag) hframes
  | pending psta ac => exact congrArg (fun st => (st.q.queue psta ac).map (·.id)) hsched
  | sleep psta => exact congrArg (fun st => (st.sleepQ psta).map (·.id)) hsched
  | rtwXmit c => exact congrArg (fun f => (f c).frame) hcallers

/-- A buffer is in a place that is not the free one. -/
theorem Inv.not_free (h : Inv w) {p : BufPlace} (hb : b ∈ w.bufAt p) (hp : ∀ tag, p ≠ .free tag) :
    b ∉ w.bufs.free (w.bufs.kind b) :=
  fun hfree => hp _ (h.bufs.apart p (.free (w.bufs.kind b)) b hb hfree)

/-! ## 3. Senders of packets -/

/-- Frames, queues and senders; the buffers are not touched. -/
theorem Inv.frameSide (h : Inv w) {st : Sched} {p : Pool FrameId Bool} {c : Nat → CallerPc}
    (hk : Kept frameStock { w with sched := st, frames := p, callers := c }.frameAt)
    (hp : p.Good frameStock) : Inv { w with sched := st, frames := p, callers := c } :=
  ⟨hk, h.bufs, hp, h.bufPool, h.known⟩

theorem frameAt_caller_ne {c : Nat} {pc : CallerPc} {p : FramePlace} (hp : p ≠ .rtwXmit c) :
    (w.setCaller c pc).frameAt p = w.frameAt p := by
  cases p with
  | rtwXmit c' =>
    have hne : c' ≠ c := fun h => hp (congrArg FramePlace.rtwXmit h)
    simp only [World.frameAt, World.setCaller, Function.update_of_ne hne]
  | _ => rfl

theorem frameAt_caller_self (w : World) (c : Nat) (pc : CallerPc) :
    (w.setCaller c pc).frameAt (.rtwXmit c) = pc.frame := by
  simp only [World.frameAt, World.setCaller, Function.update_self]

/-- A sender that keeps its frame. -/
theorem frameAt_caller_same {c : Nat} {pc : CallerPc} (h : w.frameAt (.rtwXmit c) = pc.frame) :
    (w.setCaller c pc).frameAt = w.frameAt := by
  funext p
  by_cases hp : p = .rtwXmit c
  · rw [hp, frameAt_caller_self, h]
  · exact frameAt_caller_ne hp

/-- A frame is taken from the pool. -/
theorem frameAt_alloc {extTag : Bool} {id : FrameId} {frames : Pool FrameId Bool}
    (h : w.frames.alloc extTag = some (id, frames)) :
    w.frameAt (.free extTag) = id :: { w with frames := frames }.frameAt (.free extTag) ∧
      ∀ p, p ≠ .free extTag → { w with frames := frames }.frameAt p = w.frameAt p := by
  obtain ⟨hself, hne, -⟩ := alloc_cases h
  refine ⟨hself, fun p hp => ?_⟩
  cases p with
  | free tag => exact hne tag fun h => hp (congrArg FramePlace.free h)
  | _ => rfl

/-- A frame is given back. -/
theorem frameAt_rtwFreeXmitframe (w : World) (id : FrameId) :
    (w.rtwFreeXmitframe id).frameAt (.free (w.frames.kind id))
        = w.frameAt (.free (w.frames.kind id)) ++ [id] ∧
      ∀ p, p ≠ .free (w.frames.kind id) →
        (w.rtwFreeXmitframe id).frameAt p = w.frameAt p := by
  refine ⟨release_free_self _ _, fun p hp => ?_⟩
  cases p with
  | free tag => exact release_free_ne fun h => hp (congrArg FramePlace.free h)
  | _ => rfl

/-- **`rtw_xmit` takes a frame.** -/
theorem Inv.rtwXmit (h : Inv w) {c : Nat} (hc : w.callers c = .idle) : Inv (w.rtwXmit c) := by
  simp only [World.rtwXmit]
  split
  · exact h
  · rename_i id frames halloc
    obtain ⟨hself, hother⟩ := frameAt_alloc halloc
    refine h.frameSide (h.frames.move (p := .free false) (q := .rtwXmit c) (x := id) nofun ?_ ?_ ?_)
      (h.framePool.alloc halloc)
    · exact List.Perm.of_eq hself
    · refine List.Perm.of_eq ((frameAt_caller_self _ c (.updateAttrib id)).trans ?_)
      simp only [World.frameAt, hc, CallerPc.frame]
    · exact fun r hr hr' => (frameAt_caller_ne hr').trans (hother r hr)

/-- A frame in the hands of a sender goes to another place. -/
theorem Inv.callerMoves (h : Inv w) {c : Nat} {id : FrameId} (hc : w.frameAt (.rtwXmit c) = [id])
    {w₁ : World} {q : FramePlace} (hq : w₁.frameAt q = w.frameAt q ++ [id])
    (hqc : q ≠ .rtwXmit c) (hout : ∀ p, p ≠ q → w₁.frameAt p = w.frameAt p) :
    Kept frameStock (w₁.setCaller c .idle).frameAt := by
  refine h.frames.move (p := .rtwXmit c) (q := q) (x := id) hqc.symm ?_ ?_ fun r hr hrq => ?_
  · rw [frameAt_caller_self]
    exact List.Perm.of_eq hc
  · rw [frameAt_caller_ne hqc, hq]
    exact List.perm_append_singleton id _
  · rw [frameAt_caller_ne hr, hout r hrq]

/-- A frame in a hand is not free. -/
theorem Inv.frame_out (h : Inv w) {id : FrameId} {p : FramePlace} (hid : id ∈ w.frameAt p)
    (hp : ∀ extTag, p ≠ .free extTag) (extTag : Bool) : id ∉ w.frames.free extTag :=
  fun hfree => hp extTag (h.frames.apart p (.free extTag) id hid hfree)

theorem Inv.updateAttrib (h : Inv w) {c : Nat} {id : FrameId}
    (hc : w.callers c = .updateAttrib id) (r : Option XmitFrame) :
    Inv (w.updateAttrib c id r) := by
  have hframe : w.frameAt (.rtwXmit c) = [id] := congrArg CallerPc.frame hc
  cases r with
  | none =>
    obtain ⟨hself, hother⟩ := frameAt_rtwFreeXmitframe w id
    have hin : id ∈ w.frameAt (.rtwXmit c) := by simp [hframe]
    exact h.frameSide (h.callerMoves hframe hself nofun hother)
      (h.framePool.release (h.frame_out hin nofun _))
  | some f =>
    refine h.frameSide (?_ : Kept frameStock
      (w.setCaller c (.sleepingSta { f with id := id })).frameAt) h.framePool
    rw [frameAt_caller_same hframe]
    exact h.frames

/-! ## 4. The queues of the stations -/

/-- Where the frames are, with other queues. -/
theorem frameAt_sched {st : Sched}
    (hq : ∀ i ac, (st.q.queue i ac).map (·.id) = (w.sched.q.queue i ac).map (·.id))
    (hsleep : ∀ i, (st.sleepQ i).map (·.id) = (w.sched.sleepQ i).map (·.id)) :
    { w with sched := st }.frameAt = w.frameAt := by
  funext p
  cases p with
  | pending i ac => exact hq i ac
  | sleep i => exact hsleep i
  | _ => rfl

/-- A frame goes to the sleeping queue of its station. -/
theorem frameAt_sleepingSta {st : Sched} {f : XmitFrame}
    (h : xmitframeEnqueueForSleepingSta w.sched f = some st) :
    ∃ psta, { w with sched := st }.frameAt (.sleep psta)
        = w.frameAt (.sleep psta) ++ [f.id] ∧ st.q = w.sched.q ∧
      ∀ p, p ≠ .sleep psta → { w with sched := st }.frameAt p = w.frameAt p := by
  obtain ⟨psta, -, -, hcases⟩ := xmitframeEnqueue_cases h
  have hst : st.q = w.sched.q ∧
      st.sleepQ = Function.update w.sched.sleepQ psta (w.sched.sleepQ psta ++ [f]) := by
    rcases hcases with ⟨-, rfl⟩ | ⟨-, -, rfl⟩
    · exact ⟨rfl, rfl⟩
    · exact ⟨rfl, rfl⟩
  obtain ⟨hq, hsleep⟩ := hst
  refine ⟨psta, ?_, hq, fun p hp => ?_⟩
  · simp only [World.frameAt, hsleep, Function.update_self, List.map_append, List.map_cons,
      List.map_nil]
  · cases p with
    | pending i ac => simp only [World.frameAt, hq]
    | sleep i =>
      have hi : i ≠ psta := fun heq => hp (congrArg FramePlace.sleep heq)
      simp only [World.frameAt, hsleep, Function.update_of_ne hi]
    | _ => rfl

/-- **A frame is enqueued**, or freed. -/
theorem frameAt_halXmitframeEnqueue (w : World) (f : XmitFrame) :
    ∃ q, (w.halXmitframeEnqueue f).frameAt q = w.frameAt q ++ [f.id] ∧
      (∀ psta, q ≠ .sleep psta) ∧ (∀ c, q ≠ .rtwXmit c) ∧
      ∀ p, p ≠ q → (w.halXmitframeEnqueue f).frameAt p = w.frameAt p := by
  simp only [World.halXmitframeEnqueue]
  split
  · rename_i st hst
    obtain ⟨psta, -, rfl⟩ := rtwXmitClassifier_cases hst
    refine ⟨.pending psta (acOf f.priority), ?_, by simp, by simp, fun p hp => ?_⟩
    · simp [World.frameAt, Queues.count, Queues.enter, Queues.setQueue]
    · cases p with
      | pending i ac =>
        have hne : ¬(i = psta ∧ ac = acOf f.priority) :=
          fun heq => hp (congrArg₂ FramePlace.pending heq.1 heq.2)
        simp [World.frameAt, Queues.count, Queues.enter, Queues.setQueue, put_ne hne]
      | _ => rfl
  · obtain ⟨hself, hother⟩ := frameAt_rtwFreeXmitframe w f.id
    exact ⟨.free (w.frames.kind f.id), hself, by simp, by simp, hother⟩

theorem halXmitframeEnqueue_good {f : XmitFrame} (h : w.frames.Good frameStock)
    (hf : ∀ extTag, f.id ∉ w.frames.free extTag) :
    (w.halXmitframeEnqueue f).frames.Good frameStock := by
  simp only [World.halXmitframeEnqueue]
  split
  · exact h
  · exact h.release (hf _)

/-- What is not a frame or a queue stays. -/
theorem halXmitframeEnqueue_eq (w : World) (f : XmitFrame) :
    ∃ st p, w.halXmitframeEnqueue f = { w with sched := st, frames := p } := by
  simp only [World.halXmitframeEnqueue]
  split
  · exact ⟨_, _, rfl⟩
  · exact ⟨_, _, rfl⟩

theorem Inv.callerGo (h : Inv w) {c : Nat} (hgo : w.callerGo c = some w') : Inv w' := by
  simp only [World.callerGo] at hgo
  split at hgo
  · rename_i f hc
    cases hgo
    have hframe : w.frameAt (.rtwXmit c) = [f.id] := congrArg CallerPc.frame hc
    simp only [World.sleepingSta]
    split
    · rename_i st hst
      obtain ⟨psta, hself, -, hother⟩ := frameAt_sleepingSta hst
      exact h.frameSide (h.callerMoves hframe hself nofun hother) h.framePool
    · refine h.frameSide (?_ : Kept frameStock (w.setCaller c (.halXmit f)).frameAt) h.framePool
      rw [frameAt_caller_same hframe]
      exact h.frames
  · rename_i f hc
    cases hgo
    have hframe : w.frameAt (.rtwXmit c) = [f.id] := congrArg CallerPc.frame hc
    have hin : f.id ∈ w.frameAt (.rtwXmit c) := by simp [hframe]
    obtain ⟨q, hself, -, hqc, hother⟩ := frameAt_halXmitframeEnqueue w f
    have hkept := h.callerMoves hframe hself (hqc c) hother
    have hgood := halXmitframeEnqueue_good h.framePool (h.frame_out hin nofun)
    obtain ⟨st, p, heq⟩ := halXmitframeEnqueue_eq w f
    rw [heq] at hkept hgood ⊢
    exact h.frameSide hkept hgood
  · cases hgo

/-- A queue of `stop_sta_xmit`: each frame goes to a sleeping queue or stays. -/
theorem dequeueLoop_placed {psta : StaId} {ac : Ac} (l : List XmitFrame) :
    ∀ (kept : List XmitFrame) (st : Sched), st.q.queue psta ac = kept ++ l →
      Kept frameStock { w with sched := st }.frameAt →
      Kept frameStock { w with sched := dequeueLoop psta ac kept l st }.frameAt := by
  induction l with
  | nil => exact fun _ _ _ h => h
  | cons f rest ih =>
    intro kept st hq h
    simp only [dequeueLoop]
    split
    · rename_i st' hst
      refine ih _ _ (put_same _ _ _ _) ?_
      have hst : xmitframeEnqueueForSleepingSta { w with sched := st }.sched
        { f with triggered := 0 } = some st' := hst
      obtain ⟨s, hself, hqst, hother⟩ := frameAt_sleepingSta hst
      refine h.move (p := .pending psta ac) (q := .sleep s) (x := f.id) (by simp) ?_ ?_
        fun r hr hrs => ?_
      · simp only [World.frameAt, hq, Queues.count, Queues.leave, Queues.setQueue, put_same,
          List.map_append, List.map_cons]
        exact List.perm_middle
      · refine (List.Perm.of_eq ?_).trans (List.perm_append_singleton f.id _)
        exact hself
      · refine Eq.trans ?_ (hother r hrs)
        cases r with
        | pending i a =>
          have hne : ¬(i = psta ∧ a = ac) := fun heq =>
            hr (congrArg₂ FramePlace.pending heq.1 heq.2)
          simp only [World.frameAt, Queues.count, Queues.leave, Queues.setQueue, put_ne hne]
        | _ => rfl
    · refine ih _ _ ((put_same _ _ _ _).trans (by simp)) ?_
      have hsame : { { w with sched := st } with
          sched := { st with
            q := st.q.setQueue psta ac (kept ++ { f with triggered := 0 } :: rest) } }.frameAt
          = { w with sched := st }.frameAt := by
        refine frameAt_sched (fun i a => ?_) fun _ => rfl
        by_cases hia : i = psta ∧ a = ac
        · obtain ⟨rfl, rfl⟩ := hia
          simp only [Queues.setQueue, put_same, hq, List.map_append, List.map_cons]
        · simp only [Queues.setQueue, put_ne hia]
      exact hsame ▸ h

theorem putAside_placed {psta : StaId} {ac : Ac} {st : Sched}
    (h : Kept frameStock { w with sched := st }.frameAt) :
    Kept frameStock { w with sched := putAside psta st ac }.frameAt := by
  have hloop := @dequeueLoop_placed w psta ac _ [] st rfl h
  have hsame : { { w with sched := dequeueLoop psta ac [] (st.q.queue psta ac) st } with
      sched := putAside psta st ac }.frameAt
      = { w with sched := dequeueLoop psta ac [] (st.q.queue psta ac) st }.frameAt :=
    frameAt_sched (fun _ _ => rfl) fun _ => rfl
  exact hsame ▸ hloop

/-- **A station falls asleep.** -/
theorem Inv.stopStaXmit (h : Inv w) {psta : StaId} {st : Sched}
    (hst : stopStaXmit w.sched psta = some st) : Inv { w with sched := st } := by
  refine h.frameSide (p := w.frames) (c := w.callers) ?_ h.framePool
  simp only [Rtl8723bs.stopStaXmit] at hst
  split at hst
  · cases hst
  · cases hst
    have hdoze : Kept frameStock { w with sched := w.sched.dozeOff psta }.frameAt := by
      have hsame : { w with sched := w.sched.dozeOff psta }.frameAt = w.frameAt :=
        frameAt_sched (fun _ _ => rfl) fun _ => rfl
      exact hsame ▸ h.frames
    have hfour : ∀ (acs : List Ac) (st : Sched), Kept frameStock { w with sched := st }.frameAt →
        Kept frameStock { w with sched := acs.foldl (putAside psta) st }.frameAt := by
      intro acs
      induction acs with
      | nil => exact fun _ h => h
      | cons ac acs ih => exact fun st h => ih _ (putAside_placed h)
    exact putAside_placed (hfour _ _ hdoze)

/-- What a loop of `wakeup_sta_to_xmit` keeps, and what it does not touch. -/
theorem releaseLoop_placed {psta : StaId} (l : List XmitFrame) : ∀ w : World,
    w.sched.sleepQ psta = l → Kept frameStock w.frameAt → w.frames.Good frameStock →
    Kept frameStock (World.releaseLoop psta l w).frameAt ∧
      (World.releaseLoop psta l w).frames.Good frameStock ∧
      ∃ st p, World.releaseLoop psta l w = { w with sched := st, frames := p } := by
  induction l with
  | nil => exact fun w _ hk hg => ⟨hk, hg, w.sched, w.frames, rfl⟩
  | cons f rest ih =>
    intro w hq hk hg
    simp only [World.releaseLoop]
    have hin : f.id ∈ w.frameAt (.sleep psta) := by simp [World.frameAt, hq]
    have hout : ∀ extTag, f.id ∉ w.frames.free extTag :=
      fun extTag hfree => nomatch hk.apart (.sleep psta) (.free extTag) f.id hin hfree
    obtain ⟨q, hself, hqs, -, hother⟩ := frameAt_halXmitframeEnqueue
      { w with sched := w.sched.sleepDequeue psta rest } { f with triggered := 1 }
    have hgood := @halXmitframeEnqueue_good { w with sched := w.sched.sleepDequeue psta rest }
      { f with triggered := 1 } hg hout
    obtain ⟨st, p, heq⟩ := halXmitframeEnqueue_eq
      { w with sched := w.sched.sleepDequeue psta rest } { f with triggered := 1 }
    have hrest : ∀ r, r ≠ .sleep psta →
        { w with sched := w.sched.sleepDequeue psta rest }.frameAt r = w.frameAt r := by
      intro r hr
      cases r with
      | sleep i =>
        have hi : i ≠ psta := fun heq => hr (congrArg FramePlace.sleep heq)
        simp only [World.frameAt, Sched.sleepDequeue, Function.update_of_ne hi]
      | _ => rfl
    have hmoved : Kept frameStock ({ w with sched := w.sched.sleepDequeue psta rest
        }.halXmitframeEnqueue { f with triggered := 1 }).frameAt := by
      refine hk.move (p := .sleep psta) (q := q) (x := f.id) (hqs psta).symm ?_ ?_
        fun r hr hrq => ?_
      · rw [hother _ (hqs psta).symm]
        simp only [World.frameAt, hq, Sched.sleepDequeue, Function.update_self, List.map_cons]
        exact List.Perm.refl _
      · rw [hself, hrest q (hqs psta)]
        exact List.perm_append_singleton f.id _
      · rw [hother r hrq, hrest r hr]
    have hnext : ({ w with sched := w.sched.sleepDequeue psta rest
        }.halXmitframeEnqueue { f with triggered := 1 }).sched.sleepQ psta = rest := by
      simp only [World.halXmitframeEnqueue]
      split
      · rename_i st hst
        obtain ⟨s, -, rfl⟩ := rtwXmitClassifier_cases hst
        simp only [Sched.sleepDequeue, Function.update_self]
      · simp only [World.rtwFreeXmitframe, Sched.sleepDequeue, Function.update_self]
    obtain ⟨hkept, hgood', st', p', heq'⟩ := ih _ hnext hmoved hgood
    refine ⟨hkept, hgood', st', p', ?_⟩
    rw [heq', heq]

/-- **A station wakes up.** -/
theorem Inv.wakeupStaToXmit (h : Inv w) (psta : StaId) : Inv (w.wakeupStaToXmit psta) := by
  -- what the loop is applied to may have other tables than `w`
  have hloop : ∀ {w : World}, Inv w → ∀ i, Inv (w.releaseLoop i (w.sched.sleepQ i)) := by
    intro w h i
    obtain ⟨hkept, hgood, st, p, heq⟩ := releaseLoop_placed _ w rfl h.frames h.framePool
    rw [heq] at hkept hgood ⊢
    exact h.frameSide (c := w.callers) hkept hgood
  have hsame : ∀ {w : World} {st : Sched}, Inv w → st.q = w.sched.q →
      st.sleepQ = w.sched.sleepQ → Inv { w with sched := st } := by
    intro w st h hq hs
    refine h.frameSide (p := w.frames) (c := w.callers) ?_ h.framePool
    rw [frameAt_sched (fun i ac => by rw [hq]) fun i => by rw [hs]]
    exact h.frames
  have hawake : ∀ {w : World}, Inv w → Inv { w with sched := w.sched.wakeIfDone psta } := by
    intro w h
    refine hsame h ?_ ?_
    · simp only [Sched.wakeIfDone]
      split <;> rfl
    · simp only [Sched.wakeIfDone]
      split <;> rfl
  simp only [World.wakeupStaToXmit]
  split
  · exact hawake (hloop h psta)
  · rename_i bmc _
    simp only [World.releaseBmc]
    split
    · split
      · exact hsame (hloop (hawake (hloop h psta)) bmc) rfl rfl
      · exact hloop (hawake (hloop h psta)) bmc
    · exact hawake (hloop h psta)

/-- The places of the frames of one station. -/
def heldPlaces (psta : StaId) : List FramePlace :=
  [.sleep psta, .pending psta .vo, .pending psta .vi, .pending psta .be, .pending psta .bk]

theorem mem_heldPlaces {psta : StaId} {p : FramePlace} :
    p ∈ heldPlaces psta ↔ p = .sleep psta ∨ ∃ ac, p = .pending psta ac := by
  simp only [heldPlaces, List.mem_cons, List.not_mem_nil, or_false]
  constructor
  · rintro (rfl | rfl | rfl | rfl | rfl)
    · exact .inl rfl
    all_goals exact .inr ⟨_, rfl⟩
  · rintro (rfl | ⟨ac, rfl⟩)
    · exact .inl rfl
    · cases ac <;> simp

/-- The frames `rtw_free_stainfo` frees, in its order. -/
theorem freeStainfo_frames (w : World) (psta : StaId) : (w.freeStainfo psta).frames
    = ((heldPlaces psta).flatMap w.frameAt).foldl Pool.release w.frames := by
  have hheld : (heldPlaces psta).flatMap w.frameAt = (w.sched.sleepQ psta ++
      [Ac.vo, .vi, .be, .bk].flatMap (w.sched.q.queue psta)).map (·.id) := by
    simp [heldPlaces, World.frameAt]
  rw [hheld, List.foldl_map]
  rfl

/-- The queues of the station are empty then, and all others as before. -/
theorem frameAt_freeStainfo (w : World) (psta : StaId) :
    (∀ p ∈ heldPlaces psta, (w.freeStainfo psta).frameAt p = []) ∧
      ∀ p, p ∉ heldPlaces psta → (∀ k, p ≠ .free k) →
        (w.freeStainfo psta).frameAt p = w.frameAt p := by
  constructor
  · intro p hp
    rcases mem_heldPlaces.mp hp with rfl | ⟨ac, rfl⟩
    · simp [World.frameAt, World.freeStainfo, rtwFreeStainfo_sleepQ]
    · simp [World.frameAt, World.freeStainfo, rtwFreeStainfo_queue]
  · intro p hp hfree
    rw [mem_heldPlaces, not_or, not_exists] at hp
    cases p with
    | free k => exact absurd rfl (hfree k)
    | sleep i =>
      have hi : i ≠ psta := fun heq => hp.1 (congrArg FramePlace.sleep heq)
      simp only [World.frameAt, World.freeStainfo, rtwFreeStainfo_sleepQ,
        Function.update_of_ne hi]
    | pending i ac =>
      have hi : i ≠ psta := fun heq => hp.2 ac (congrArg (FramePlace.pending · ac) heq)
      simp only [World.frameAt, World.freeStainfo, rtwFreeStainfo_queue, if_neg hi]
    | _ => rfl

/-- **A station is freed**, with all its frames. -/
theorem Inv.freeStainfo (h : Inv w) (psta : StaId) : Inv (w.freeStainfo psta) := by
  obtain ⟨hempty, hother⟩ := frameAt_freeStainfo w psta
  have hframes := freeStainfo_frames w psta
  have hnodup : ((heldPlaces psta).flatMap w.frameAt).Nodup :=
    h.frames.nodup_flatMap (by simp [heldPlaces])
  have hout : ∀ x ∈ (heldPlaces psta).flatMap w.frameAt, ∀ k, x ∉ w.frames.free k := by
    intro x hx
    obtain ⟨p, hp, hxp⟩ := List.mem_flatMap.mp hx
    refine h.frame_out hxp fun tag heq => ?_
    rcases mem_heldPlaces.mp hp with hp | ⟨ac, hp⟩
    · cases heq.symm.trans hp
    · cases heq.symm.trans hp
  have hgood : (w.freeStainfo psta).frames.Good frameStock :=
    hframes ▸ h.framePool.foldl_release hnodup hout
  suffices hkept : Kept frameStock (w.freeStainfo psta).frameAt from
    h.frameSide (c := w.callers) hkept hgood
  have hplaces : ([.free false, .free true] ++ heldPlaces psta : List FramePlace).Nodup := by
    simp [heldPlaces]
  refine h.frames.rearrange _ hplaces (fun r hr => ?_) ?_
  · rw [List.mem_append, not_or] at hr
    exact hother r hr.2 fun k hk => hr.1 (by cases k <;> simp [hk])
  · have hfree : ∀ k, (w.freeStainfo psta).frameAt (.free k) = w.frameAt (.free k) ++
        ((heldPlaces psta).flatMap w.frameAt).filter
          (fun id => decide (w.frames.kind id = k)) := by
      intro k
      simp only [World.frameAt, hframes]
      exact (foldl_release_free k _ w.frames).2
    have hnil : (heldPlaces psta).flatMap (w.freeStainfo psta).frameAt = [] :=
      List.flatMap_eq_nil_iff.mpr hempty
    have hbool : ∀ id : FrameId, decide (w.frames.kind id = false)
        = !decide (w.frames.kind id = true) := by
      intro id
      cases w.frames.kind id <;> rfl
    -- what is freed is split by `ext_tag`
    have hsplit := List.perm_append_comm.trans (List.filter_append_perm
      (fun id => decide (w.frames.kind id = true)) ((heldPlaces psta).flatMap w.frameAt))
    rw [List.flatMap_append, List.flatMap_append, hnil]
    simp only [List.flatMap_cons, List.flatMap_nil, List.append_nil, List.append_assoc, hfree,
      hbool]
    exact ((List.perm_append_comm_assoc _ _ _).trans (hsplit.append_left _)).append_left _

/-- The rest of the driver does not touch the queues. -/
theorem Inv.other (h : Inv w) {st : Sched} (hq : st.q.queue = w.sched.q.queue)
    (hsleep : st.sleepQ = w.sched.sleepQ) : Inv { w with sched := st } := by
  refine h.frameSide (p := w.frames) (c := w.callers) ?_ h.framePool
  rw [frameAt_sched (fun i ac => by rw [hq]) fun i => by rw [hsleep]]
  exact h.frames

/-! ## 5. Buffers -/

/-- **A buffer is moved**, or what is known of it changes. -/
theorem Inv.moveBuf (h : Inv w) {p q : BufPlace} (hb : b ∈ w.bufAt p)
    (hbufs : Kept bufStock w'.bufAt) (hpool : w'.bufs.Good bufStock)
    (hframes : Kept frameStock w'.frameAt) (hframePool : w'.frames.Good frameStock)
    (hprivData : ∀ b', b' ≠ b → w'.privData b' = w.privData b')
    (hlen : ∀ b', b' ≠ b → w'.len b' = w.len b')
    (hout : ∀ r, r ≠ p → r ≠ q → w'.holder r = w.holder r)
    (hp : (w'.holder p).Ok w'.privData w'.len) (hq : (w'.holder q).Ok w'.privData w'.len) :
    Inv w' := by
  refine ⟨hframes, hbufs, hframePool, hpool, fun r => ?_⟩
  by_cases hrp : r = p
  · exact hrp ▸ hp
  by_cases hrq : r = q
  · exact hrq ▸ hq
  rw [hout r hrp hrq]
  -- a buffer in another place is another buffer
  have hother : ∀ b' ∈ (w.holder r).buf, b' ≠ b := by
    rintro b' hb' rfl
    rw [buf_holder] at hb'
    exact hrp (h.bufs.apart r p b' hb' hb)
  exact (h.known r).congr (fun b' hb' => hprivData b' (hother b' hb'))
    fun b' hb' => hlen b' (hother b' hb')

/-- Another `priv_data`. -/
theorem frameAt_setPrivData (w : World) (b : BufId) (v : Option FrameId) :
    (b ∉ w.bufs.free (w.bufs.kind b) →
        { w with privData := Function.update w.privData b v }.frameAt (.privData b) = v.toList) ∧
      ∀ p, p ≠ .privData b →
        { w with privData := Function.update w.privData b v }.frameAt p = w.frameAt p := by
  constructor
  · intro hout
    simp only [World.frameAt, if_neg hout, Function.update_self]
  · intro p hp
    cases p with
    | privData b' =>
      have hne : b' ≠ b := fun heq => hp (congrArg FramePlace.privData heq)
      simp only [World.frameAt, Function.update_of_ne hne]
    | _ => rfl

/-- A buffer is given back: its `priv_data` says nothing any more. -/
theorem frameAt_rtwFreeXmitbuf (w : World) (b : BufId) :
    (w.rtwFreeXmitbuf b).frameAt (.privData b) = [] ∧
      ∀ p, p ≠ .privData b → (w.rtwFreeXmitbuf b).frameAt p = w.frameAt p := by
  constructor
  · refine if_pos ?_
    simp only [World.rtwFreeXmitbuf, release_kind, release_free_self, List.mem_append,
      List.mem_singleton, or_true]
  · intro p hp
    cases p with
    | privData b' =>
      have hne : b' ≠ b := fun heq => hp (congrArg FramePlace.privData heq)
      simp only [World.frameAt, World.rtwFreeXmitbuf, release_kind, mem_release_ne hne]
    | _ => rfl

theorem bufAt_rtwFreeXmitbuf (w : World) (b : BufId) :
    (w.rtwFreeXmitbuf b).bufAt (.free (w.bufs.kind b))
        = w.bufAt (.free (w.bufs.kind b)) ++ [b] ∧
      ∀ p, p ≠ .free (w.bufs.kind b) → (w.rtwFreeXmitbuf b).bufAt p = w.bufAt p := by
  refine ⟨release_free_self _ _, fun p hp => ?_⟩
  cases p with
  | free tag => exact release_free_ne fun h => hp (congrArg BufPlace.free h)
  | _ => rfl

/-- A buffer is taken, without `priv_data`. -/
theorem rtwAllocXmitbuf_cases (h : Inv w) {tag : BufTag}
    (halloc : w.rtwAllocXmitbuf tag = some (b, w')) :
    ∃ bufs, w' = { w with
        bufs := bufs
        privData := Function.update w.privData b none
        len := Function.update w.len b 0 } ∧
      bufs.Good bufStock ∧ b ∈ w.bufAt (.free tag) ∧ b ∉ bufs.free (bufs.kind b) ∧
      w.bufAt (.free tag) = b :: w'.bufAt (.free tag) ∧
      (∀ p, p ≠ .free tag → w'.bufAt p = w.bufAt p) ∧ w'.frameAt = w.frameAt := by
  obtain ⟨⟨b, bufs⟩, hpool, heq⟩ := Option.map_eq_some_iff.mp halloc
  obtain ⟨rfl, rfl⟩ := Prod.mk.inj heq
  obtain ⟨hself, hne, hkind⟩ := alloc_cases hpool
  have hin : b ∈ w.bufs.free tag := by
    rw [hself]
    exact List.mem_cons_self
  have htag : w.bufs.kind b = tag := h.bufPool.home tag b hin
  have hgood := h.bufPool.alloc hpool
  have hnodup := h.bufPool.nodup tag
  rw [hself, List.nodup_cons] at hnodup
  refine ⟨bufs, rfl, hgood, hin, by rw [hkind, htag]; exact hnodup.1, hself, fun p hp => ?_, ?_⟩
  · cases p with
    | free t => exact hne t fun heq => hp (congrArg BufPlace.free heq)
    | _ => rfl
  · refine frameAt_congr rfl rfl rfl (fun _ => rfl) rfl fun b' => ?_
    by_cases hb : b' = b
    · subst hb
      rw [frameAt_privData_none (Function.update_self b' none w.privData),
        frameAt_privData_free (htag ▸ hin)]
    · simp only [World.frameAt, hkind, Function.update_of_ne hb, mem_alloc_ne hpool hb]

/-- The holders when a buffer is given back. -/
theorem holder_rtwFreeXmitbuf (w : World) (b : BufId) {p : BufPlace}
    (hp : p ≠ .free (w.bufs.kind b)) : (w.rtwFreeXmitbuf b).holder p = w.holder p := by
  cases p with
  | free tag =>
    exact congrArg Holder.free (release_free_ne fun h => hp (congrArg BufPlace.free h))
  | _ => rfl

/-- **A buffer goes from one hand to another**, with nothing else. -/
theorem Inv.handOn (h : Inv w) {p q : BufPlace} (hpq : p ≠ q) (hb : b ∈ w.bufAt p)
    (hbufs : w'.bufs = w.bufs) (hpool : w'.frames = w.frames) (hpriv : w'.privData = w.privData)
    (hlen : w'.len = w.len) (hframes : w'.frameAt = w.frameAt)
    (hfrom : (w.bufAt p).Perm (b :: w'.bufAt p)) (hto : (w'.bufAt q).Perm (b :: w.bufAt q))
    (hout : ∀ r, r ≠ p → r ≠ q → w'.holder r = w.holder r)
    (hp : (w'.holder p).Ok w'.privData w'.len) (hq : (w'.holder q).Ok w'.privData w'.len) :
    Inv w' := by
  refine h.moveBuf (p := p) (q := q) hb (h.bufs.move hpq hfrom hto fun r hr hrq => ?_)
    (hbufs ▸ h.bufPool) (hframes ▸ h.frames) (hpool ▸ h.framePool) (fun _ _ => by rw [hpriv])
    (fun _ _ => by rw [hlen]) hout hp hq
  rw [← buf_holder, ← buf_holder, hout r hr hrq]

/-- **A buffer is given back**, once its frame is freed. -/
theorem Inv.giveBack (h : Inv w) {p : BufPlace} (hb : b ∈ w.bufAt p) (hp : ∀ tag, p ≠ .free tag)
    (hnone : w.privData b = none) (hbufs : w'.bufs = w.bufs.release b)
    (hpool : w'.frames = w.frames) (hpriv : w'.privData = w.privData) (hlen : w'.len = w.len)
    (hframes : w'.frameAt = (w.rtwFreeXmitbuf b).frameAt)
    (hfrom : (w.bufAt p).Perm (b :: w'.bufAt p))
    (hout : ∀ r, r ≠ p → w'.holder r = (w.rtwFreeXmitbuf b).holder r)
    (hown : (w'.holder p).Ok w'.privData w'.len) : Inv w' := by
  obtain ⟨hself, hother⟩ := frameAt_rtwFreeXmitbuf w b
  obtain ⟨hself', hother'⟩ := bufAt_rtwFreeXmitbuf w b
  have hsame : w'.frameAt = w.frameAt := by
    funext r
    rw [hframes]
    by_cases hr : r = .privData b
    · rw [hr, hself, frameAt_privData_none hnone]
    · exact hother r hr
  have hbufAt : ∀ r, r ≠ p → w'.bufAt r = (w.rtwFreeXmitbuf b).bufAt r := fun r hr => by
    rw [← buf_holder, ← buf_holder, hout r hr]
  have hgood : w'.bufs.Good bufStock := hbufs ▸ h.bufPool.release (h.not_free hb hp)
  refine h.moveBuf (p := p) (q := .free (w.bufs.kind b)) hb ?_ hgood (hsame ▸ h.frames)
    (hpool ▸ h.framePool) (fun _ _ => by rw [hpriv]) (fun _ _ => by rw [hlen]) ?_ hown trivial
  · refine h.bufs.move (hp (w.bufs.kind b)) hfrom ?_ fun r hr hrf => ?_
    · rw [hbufAt _ (hp _).symm, hself']
      exact List.perm_append_singleton b _
    · rw [hbufAt r hr, hother' r hrf]
  · intro r hr hrf
    rw [hout r hr, holder_rtwFreeXmitbuf w b hrf]

/-! ## 6. Management frames -/

section Mgnt

variable {m : Nat} {pc : MgntPc}

theorem frameAt_setMgnt (w : World) (m : Nat) (pc : MgntPc) :
    (w.setMgnt m pc).frameAt (.mgnt m) = pc.frame ∧
      ∀ p, p ≠ .mgnt m → (w.setMgnt m pc).frameAt p = w.frameAt p := by
  constructor
  · simp only [World.frameAt, World.setMgnt, Function.update_self]
  · intro p hp
    cases p with
    | mgnt m' =>
      have hne : m' ≠ m := fun h => hp (congrArg FramePlace.mgnt h)
      simp only [World.frameAt, World.setMgnt, Function.update_of_ne hne]
    | _ => rfl

theorem bufAt_setMgnt (w : World) (m : Nat) (pc : MgntPc) :
    (w.setMgnt m pc).bufAt (.mgnt m) = pc.buf ∧
      ∀ p, p ≠ .mgnt m → (w.setMgnt m pc).bufAt p = w.bufAt p := by
  constructor
  · simp only [World.bufAt, World.setMgnt, Function.update_self]
  · intro p hp
    cases p with
    | mgnt m' =>
      have hne : m' ≠ m := fun h => hp (congrArg BufPlace.mgnt h)
      simp only [World.bufAt, World.setMgnt, Function.update_of_ne hne]
    | _ => rfl

/-- A sender that keeps its buffer, or has none. -/
theorem bufAt_setMgnt_same (h : w.bufAt (.mgnt m) = pc.buf) :
    (w.setMgnt m pc).bufAt = w.bufAt := by
  obtain ⟨hself, hother⟩ := bufAt_setMgnt w m pc
  funext p
  by_cases hp : p = .mgnt m
  · rw [hp, hself, h]
  · exact hother p hp

theorem frameAt_setMgnt_same (h : w.frameAt (.mgnt m) = pc.frame) :
    (w.setMgnt m pc).frameAt = w.frameAt := by
  obtain ⟨hself, hother⟩ := frameAt_setMgnt w m pc
  funext p
  by_cases hp : p = .mgnt m
  · rw [hp, hself, h]
  · exact hother p hp

/-- The other holders do not change. -/
theorem holder_setMgnt (w : World) (m : Nat) (pc : MgntPc) :
    (w.setMgnt m pc).holder (.mgnt m) = .mgnt pc ∧
      ∀ p, p ≠ .mgnt m → (w.setMgnt m pc).holder p = w.holder p := by
  constructor
  · simp only [World.holder, World.setMgnt, Function.update_self]
  · intro p hp
    cases p with
    | mgnt m' =>
      have hne : m' ≠ m := fun h => hp (congrArg BufPlace.mgnt h)
      simp only [World.holder, World.setMgnt, Function.update_of_ne hne]
    | _ => rfl

/-- A sender without a buffer, before and after. -/
theorem Inv.setMgnt (h : Inv w) (hbuf : w.bufAt (.mgnt m) = []) (hpc : pc.buf = [])
    (hok : ∀ privData, pc.Ok privData) {frames : Pool FrameId Bool}
    (hframes : Kept frameStock ({ w with frames := frames }.setMgnt m pc).frameAt)
    (hpool : frames.Good frameStock) : Inv ({ w with frames := frames }.setMgnt m pc) := by
  have hbufs : ({ w with frames := frames }.setMgnt m pc).bufAt = w.bufAt := by
    refine (bufAt_setMgnt_same ?_).trans ?_
    · exact hbuf.trans hpc.symm
    · funext p
      cases p <;> rfl
  obtain ⟨hself, hother⟩ := holder_setMgnt { w with frames := frames } m pc
  refine ⟨hframes, hbufs ▸ h.bufs, hpool, h.bufPool, fun p => ?_⟩
  by_cases hp : p = .mgnt m
  · rw [hp, hself]
    exact hok _
  · rw [hother p hp]
    exact h.known p

/-- **`alloc_mgtxmitframe`**: the frame. -/
theorem Inv.allocMgtxmitframe (h : Inv w) (hm : w.mgnts m = .idle) :
    Inv (w.allocMgtxmitframe m) := by
  simp only [World.allocMgtxmitframe]
  split
  · exact h
  · rename_i id frames halloc
    obtain ⟨hself, hother⟩ := frameAt_alloc halloc
    obtain ⟨hmine, hrest⟩ := frameAt_setMgnt { w with frames := frames } m (.allocXmitbuf id)
    have hframe : w.frameAt (.mgnt m) = [] := congrArg MgntPc.frame hm
    refine h.setMgnt (congrArg MgntPc.buf hm) (rfl : (MgntPc.allocXmitbuf id).buf = [])
      (fun _ => trivial) ?_
      (h.framePool.alloc halloc)
    refine h.frames.move (p := .free true) (q := .mgnt m) (x := id) nofun ?_ ?_ fun r hr hrm => ?_
    · exact List.Perm.of_eq hself
    · rw [hmine, hframe]
      exact List.Perm.refl _
    · rw [hrest r hrm, hother r hr]

/-- A frame in the hands of a sender is freed. -/
theorem Inv.freeMgntFrame (h : Inv w) {id : FrameId} (hframe : w.frameAt (.mgnt m) = [id])
    (hbuf : w.bufAt (.mgnt m) = []) : Inv ((w.rtwFreeXmitframe id).setMgnt m .idle) := by
  have hin : id ∈ w.frameAt (.mgnt m) := by simp [hframe]
  obtain ⟨hself, hother⟩ := frameAt_rtwFreeXmitframe w id
  obtain ⟨hmine, hrest⟩ := frameAt_setMgnt (w.rtwFreeXmitframe id) m .idle
  refine h.setMgnt hbuf (rfl : MgntPc.idle.buf = []) (fun _ => trivial) ?_
    (h.framePool.release (h.frame_out hin nofun _))
  refine h.frames.move (p := .mgnt m) (q := .free (w.frames.kind id)) (x := id) nofun ?_ ?_
    fun r hr hrq => ?_
  · exact List.Perm.of_eq (hframe.trans (congrArg (id :: ·) hmine).symm)
  · refine (List.Perm.of_eq ?_).trans (List.perm_append_singleton id _)
    exact (hrest (.free (w.frames.kind id)) nofun).trans hself
  · exact (hrest r hr).trans (hother r hrq)

/-- **`alloc_mgtxmitframe`**: the buffer. -/
theorem Inv.allocMgntBuf (h : Inv w) {id : FrameId} (hm : w.mgnts m = .allocXmitbuf id) :
    Inv (w.allocMgntBuf m id) := by
  have hframe : w.frameAt (.mgnt m) = [id] := congrArg MgntPc.frame hm
  have hbuf : w.bufAt (.mgnt m) = [] := congrArg MgntPc.buf hm
  simp only [World.allocMgntBuf]
  split
  · exact h.freeMgntFrame hframe hbuf
  · rename_i b w₁ halloc
    obtain ⟨bufs, hw₁, hgood, hin, hout, hself, hother, hsame⟩ := rtwAllocXmitbuf_cases h halloc
    have hpriv₁ : w₁.privData = Function.update w.privData b none := by rw [hw₁]
    obtain ⟨hgot, hstay⟩ := frameAt_setPrivData w₁ b (some id)
    obtain ⟨hmine, hrest⟩ := frameAt_setMgnt
      { w₁ with privData := Function.update w₁.privData b (some id) } m (.dump id b)
    obtain ⟨hmine', hrest'⟩ := bufAt_setMgnt
      { w₁ with privData := Function.update w₁.privData b (some id) } m (.dump id b)
    obtain ⟨hknown, hknown'⟩ := holder_setMgnt
      { w₁ with privData := Function.update w₁.privData b (some id) } m (.dump id b)
    refine h.moveBuf (p := .free .mgnt) (q := .mgnt m) hin ?_ ?_ ?_ ?_ ?_ ?_ ?_ ?_ ?_
    · refine h.bufs.move (p := .free .mgnt) (q := .mgnt m) (x := b) nofun ?_ ?_ fun r hr hrm => ?_
      · rw [hrest' (.free .mgnt) nofun, hself]
        exact List.Perm.refl _
      · rw [hmine', hbuf]
        exact List.Perm.refl _
      · exact (hrest' r hrm).trans (hother r hr)
    · rw [hw₁]
      exact hgood
    · refine h.frames.move (p := .mgnt m) (q := .privData b) (x := id) nofun ?_ ?_
        fun r hr hrb => ?_
      · rw [hmine, hframe]
        exact List.Perm.refl _
      · have hnone : w₁.privData b = none := by rw [hpriv₁, Function.update_self]
        have hout₁ : b ∉ w₁.bufs.free (w₁.bufs.kind b) := by rw [hw₁]; exact hout
        rw [hrest (.privData b) nofun, hgot hout₁, ← hsame, frameAt_privData_none hnone]
        exact List.Perm.refl _
      · rw [hrest r hr, hstay r hrb, hsame]
    · rw [hw₁]
      exact h.framePool
    · intro b' hb'
      simp only [World.setMgnt, hpriv₁, Function.update_of_ne hb']
    · intro b' hb'
      simp only [World.setMgnt, hw₁, Function.update_of_ne hb']
    · intro r hr hrm
      rw [hknown' r hrm, hw₁]
      cases r with
      | free tag =>
        have htag : tag ≠ .mgnt := fun heq => hr (congrArg BufPlace.free heq)
        have hfree := hother (.free tag) hr
        rw [hw₁] at hfree
        exact congrArg Holder.free hfree
      | _ => rfl
    · rw [hknown' (.free .mgnt) nofun]
      trivial
    · rw [hknown]
      simp only [Holder.Ok, MgntPc.Ok, World.setMgnt, Function.update_self]

/-- **`dump_mgntframe`**, when the driver is stopped: the frame is in hand once more. -/
theorem Inv.dropMgnt (h : Inv w) {id : FrameId} (hm : w.mgnts m = .dump id b) :
    Inv ((w.rtwFreeXmitbuf b).setMgnt m (.freeXmitframe id)) := by
  have hbuf : w.bufAt (.mgnt m) = [b] := congrArg MgntPc.buf hm
  have hb : b ∈ w.bufAt (.mgnt m) := by simp [hbuf]
  have hpriv : w.privData b = some id := by
    have hknown := h.known (.mgnt m)
    simp only [World.holder, hm] at hknown
    exact hknown
  have hout := h.not_free hb nofun
  obtain ⟨hself, hother⟩ := frameAt_rtwFreeXmitbuf w b
  obtain ⟨hself', hother'⟩ := bufAt_rtwFreeXmitbuf w b
  obtain ⟨hmine, hrest⟩ := frameAt_setMgnt (w.rtwFreeXmitbuf b) m (.freeXmitframe id)
  obtain ⟨hmine', hrest'⟩ := bufAt_setMgnt (w.rtwFreeXmitbuf b) m (.freeXmitframe id)
  obtain ⟨hknown, hknown'⟩ := holder_setMgnt (w.rtwFreeXmitbuf b) m (.freeXmitframe id)
  refine h.moveBuf (p := .mgnt m) (q := .free (w.bufs.kind b)) hb ?_ (h.bufPool.release hout) ?_
    h.framePool (fun _ _ => rfl) (fun _ _ => rfl) ?_ ?_ ?_
  · refine h.bufs.move (p := .mgnt m) (q := .free (w.bufs.kind b)) (x := b) nofun ?_ ?_
      fun r hr hrf => ?_
    · rw [hmine', hbuf]
      exact List.Perm.refl _
    · rw [hrest' (.free (w.bufs.kind b)) nofun, hself']
      exact List.perm_append_singleton b _
    · rw [hrest' r hr, hother' r hrf]
  · refine h.frames.move (p := .privData b) (q := .mgnt m) (x := id) nofun ?_ ?_ fun r hr hrm => ?_
    · rw [hrest (.privData b) nofun, hself, frameAt_privData_out hout, hpriv]
      exact List.Perm.refl _
    · have hnone : w.frameAt (.mgnt m) = [] := congrArg MgntPc.frame hm
      rw [hmine, hnone]
      exact List.Perm.refl _
    · rw [hrest r hrm, hother r hr]
  · intro r hr hrf
    rw [hknown' r hr, holder_rtwFreeXmitbuf w b hrf]
  · rw [hknown]
    trivial
  · rw [hknown' (.free (w.bufs.kind b)) nofun]
    trivial

/-- **`rtl8723bs_mgnt_xmit`**: the frame is freed, the buffer goes on. -/
theorem Inv.mgntXmit (h : Inv w) {id : FrameId} (hm : w.mgnts m = .dump id b) :
    Inv ({ w.rtwFreeXmitframe id with privData := Function.update w.privData b none }.setMgnt m
      (.send b)) := by
  have hbuf : w.bufAt (.mgnt m) = [b] := congrArg MgntPc.buf hm
  have hb : b ∈ w.bufAt (.mgnt m) := by simp [hbuf]
  have hpriv : w.privData b = some id := by
    have hknown := h.known (.mgnt m)
    simp only [World.holder, hm] at hknown
    exact hknown
  have hout := h.not_free hb nofun
  have hframe : w.frameAt (.privData b) = [id] := by
    rw [frameAt_privData_out hout, hpriv]
    rfl
  have hin : id ∈ w.frameAt (.privData b) := by simp [hframe]
  obtain ⟨hself, hother⟩ := frameAt_rtwFreeXmitframe w id
  obtain ⟨hgot, hstay⟩ := frameAt_setPrivData (w.rtwFreeXmitframe id) b none
  obtain ⟨hmine, hrest⟩ := frameAt_setMgnt
    { w.rtwFreeXmitframe id with privData := Function.update w.privData b none } m (.send b)
  obtain ⟨hknown, hknown'⟩ := holder_setMgnt
    { w.rtwFreeXmitframe id with privData := Function.update w.privData b none } m (.send b)
  have hbufs : ({ w.rtwFreeXmitframe id with
      privData := Function.update w.privData b none }.setMgnt m (.send b)).bufAt = w.bufAt :=
    (bufAt_setMgnt_same hbuf).trans (by funext p; cases p <;> rfl)
  refine h.moveBuf (p := .mgnt m) (q := .mgnt m) hb (hbufs ▸ h.bufs) h.bufPool ?_
    (h.framePool.release (h.frame_out hin nofun _)) (fun b' hb' => Function.update_of_ne hb' _ _)
    (fun _ _ => rfl) ?_ ?_ ?_
  · refine h.frames.move (p := .privData b) (q := .free (w.frames.kind id)) (x := id) nofun ?_ ?_
      fun r hr hrf => ?_
    · rw [hrest (.privData b) nofun, hframe]
      exact List.Perm.of_eq (congrArg (id :: ·) (hgot hout)).symm
    · rw [hrest (.free (w.frames.kind id)) nofun]
      refine (List.Perm.of_eq ?_).trans (List.perm_append_singleton id _)
      exact (hstay (.free (w.frames.kind id)) nofun).trans hself
    · have hnone : w.frameAt (.mgnt m) = [] := congrArg MgntPc.frame hm
      by_cases hrm : r = .mgnt m
      · rw [hrm, hmine, hnone]
        rfl
      · rw [hrest r hrm]
        exact (hstay r hr).trans (hother r hrf)
  · exact fun r hr _ => (hknown' r hr).trans (by cases r <;> rfl)
  · rw [hknown]
    simp only [Holder.Ok, MgntPc.Ok, World.setMgnt, Function.update_self]
  · rw [hknown]
    simp only [Holder.Ok, MgntPc.Ok, World.setMgnt, Function.update_self]

/-- A beacon is written and its buffer freed; any other buffer waits. -/
theorem Inv.sendMgnt (h : Inv w) (hm : w.mgnts m = .send b) (beacon : Bool) :
    Inv (w.sendMgnt m b beacon) := by
  have hbuf : w.bufAt (.mgnt m) = [b] := congrArg MgntPc.buf hm
  have hb : b ∈ w.bufAt (.mgnt m) := by simp [hbuf]
  have hpriv : w.privData b = none := by
    have hknown := h.known (.mgnt m)
    simp only [World.holder, hm] at hknown
    exact hknown
  have hnone : w.frameAt (.mgnt m) = (MgntPc.send b).frame := congrArg MgntPc.frame hm
  simp only [World.sendMgnt]
  split
  · obtain ⟨hmine, -⟩ := bufAt_setMgnt (w.rtwFreeXmitbuf b) m .idle
    obtain ⟨hknown, hknown'⟩ := holder_setMgnt (w.rtwFreeXmitbuf b) m .idle
    refine h.giveBack hb nofun hpriv rfl rfl rfl rfl (frameAt_setMgnt_same hnone) ?_ hknown' ?_
    · rw [hmine, hbuf]
      exact List.Perm.refl _
    · rw [hknown]
      trivial
  · obtain ⟨hmine, hrest⟩ := bufAt_setMgnt (w.enqueuePendingXmitbuf b) m .idle
    obtain ⟨hknown, hknown'⟩ := holder_setMgnt (w.enqueuePendingXmitbuf b) m .idle
    have hsame : (w.enqueuePendingXmitbuf b).frameAt = w.frameAt := by
      funext p
      cases p <;> rfl
    have hframes : ((w.enqueuePendingXmitbuf b).setMgnt m .idle).frameAt = w.frameAt :=
      (frameAt_setMgnt_same (hsame ▸ hnone)).trans hsame
    refine h.handOn (p := .mgnt m) (q := .pending) nofun hb rfl rfl rfl rfl hframes ?_ ?_ ?_ ?_ ?_
    · rw [hmine, hbuf]
      exact List.Perm.refl _
    · rw [hrest .pending nofun]
      exact List.perm_append_singleton b _
    · intro r hr hrp
      rw [hknown' r hr]
      cases r <;> first | rfl | exact absurd rfl hrp
    · rw [hknown]
      trivial
    · rw [hknown' .pending nofun]
      exact waiting_append (h.known .pending) hpriv

end Mgnt

/-! ## 7. The thread that fills buffers -/

section Xmit

variable {pc : XmitPc} {ac : Ac} {psta : StaId} {id : FrameId} {k : Nat}

theorem Inv.xmitOk (h : Inv w) (hx : w.xmit = pc) : pc.Ok w.privData w.len := by
  have hok := h.known .xmitThread
  rw [← hx]
  exact hok

theorem Inv.xmit_out (h : Inv w) (hx : w.xmit = pc) (hb : b ∈ pc.buf) :
    b ∈ w.bufAt .xmitThread ∧ b ∉ w.bufs.free (w.bufs.kind b) := by
  subst hx
  exact ⟨hb, h.not_free (p := .xmitThread) hb nofun⟩

/-- A buffer without bytes has no first frame. -/
theorem Filled.privData_none {privData : Option FrameId} {len : Nat} (h : Filled privData len k)
    (hempty : ¬(0 < len ∧ privData.isSome)) : privData = none := by
  rcases Nat.eq_zero_or_pos k with hk | hk
  · exact (h.empty hk).1
  · exact absurd (h.begun hk).symm hempty

theorem frameAt_setXmit (hframe : pc.frame = w.xmit.frame) :
    { w with xmit := pc }.frameAt = w.frameAt :=
  frameAt_congr rfl rfl rfl (fun _ => rfl) hframe fun _ => rfl

theorem bufAt_setXmit (hbuf : pc.buf = w.xmit.buf) : { w with xmit := pc }.bufAt = w.bufAt := by
  funext p
  cases p with
  | xmitThread => exact hbuf
  | _ => rfl

theorem holder_setXmit (w : World) (pc : XmitPc) {p : BufPlace} (hp : p ≠ .xmitThread) :
    { w with xmit := pc }.holder p = w.holder p := by
  cases p with
  | xmitThread => exact absurd rfl hp
  | _ => rfl

/-- **The thread goes on** with the buffer and the frame it has. -/
theorem Inv.setXmit (h : Inv w) {pc' : XmitPc} (hx : w.xmit = pc) (hframe : pc'.frame = pc.frame)
    (hbuf : pc'.buf = pc.buf) (hok : pc'.Ok w.privData w.len) : Inv { w with xmit := pc' } := by
  subst hx
  refine ⟨frameAt_setXmit hframe ▸ h.frames, bufAt_setXmit hbuf ▸ h.bufs, h.framePool,
    h.bufPool, fun p => ?_⟩
  by_cases hp : p = .xmitThread
  · exact hp ▸ hok
  · rw [holder_setXmit w pc' hp]
    exact h.known p

/-- The same when something in its buffer, or the pool, has changed. -/
theorem Inv.workXmit (h : Inv w) (hb : b ∈ w.xmit.buf) (hbufs : w'.bufs = w.bufs)
    (hbuf : w'.xmit.buf = w.xmit.buf) (hframes : Kept frameStock w'.frameAt)
    (hpool : w'.frames.Good frameStock) (hpriv : ∀ b', b' ≠ b → w'.privData b' = w.privData b')
    (hlen : ∀ b', b' ≠ b → w'.len b' = w.len b')
    (hout : ∀ r, r ≠ .xmitThread → w'.holder r = w.holder r)
    (hok : w'.xmit.Ok w'.privData w'.len) : Inv w' := by
  have hsame : w'.bufAt = w.bufAt := by
    funext r
    by_cases hr : r = .xmitThread
    · rw [hr]
      exact hbuf
    · rw [← buf_holder, ← buf_holder, hout r hr]
  exact h.moveBuf (p := .xmitThread) (q := .xmitThread) hb (hsame ▸ h.bufs) (hbufs ▸ h.bufPool)
    hframes hpool hpriv hlen (fun r hr _ => hout r hr) hok hok

/-- **The next frame of a station is looked at.** -/
theorem Inv.serve (h : Inv w) {held : Option (BufId × Nat)} (hx : w.xmit = .round ac held)
    (psta : StaId) (full single : Bool) : Inv (w.serve ac held psta full single) := by
  have hok := h.xmitOk hx
  cases held with
  | none => exact h.setXmit hx rfl rfl trivial
  | some r =>
    obtain ⟨b, k⟩ := r
    simp only [World.serve]
    split
    · split
      · exact h.setXmit hx rfl rfl trivial
      · rename_i hempty
        exact h.setXmit hx rfl rfl (Filled.privData_none hok hempty)
    · exact h.setXmit hx rfl rfl hok

/-- **The end of a category.** -/
theorem Inv.unlock (h : Inv w) {held : Option (BufId × Nat)} (hx : w.xmit = .round ac held) :
    Inv (w.unlock ac held) := by
  have hok := h.xmitOk hx
  cases held with
  | none => exact h.setXmit hx rfl rfl trivial
  | some r =>
    obtain ⟨b, k⟩ := r
    simp only [World.unlock]
    split
    · exact h.setXmit hx rfl rfl trivial
    · rename_i hempty
      exact h.setXmit hx rfl rfl (Filled.privData_none hok fun hl => hempty hl.1)

/-- **The thread takes a buffer.** -/
theorem Inv.allocDataBuf (h : Inv w) (hx : w.xmit = .allocXmitbuf ac psta) :
    Inv (w.allocDataBuf ac psta) := by
  simp only [World.allocDataBuf]
  split
  · exact h.setXmit hx rfl rfl trivial
  · rename_i b w₁ halloc
    obtain ⟨bufs, hw₁, hgood, hin, -, hself, hother, hsame⟩ := rtwAllocXmitbuf_cases h halloc
    have hframes : { w₁ with xmit := .send ac psta b 0 }.frameAt = w.frameAt := by
      refine (frameAt_setXmit ?_).trans hsame
      rw [hw₁]
      exact (congrArg XmitPc.frame hx).symm
    have hnone : w.bufAt .xmitThread = [] := congrArg XmitPc.buf hx
    refine h.moveBuf (p := .free .data) (q := .xmitThread) hin ?_ ?_ (hframes ▸ h.frames) ?_ ?_ ?_
      ?_ trivial ?_
    · refine h.bufs.move (p := .free .data) (q := .xmitThread) (x := b) nofun ?_ ?_
        fun r hr hrx => ?_
      · exact List.Perm.of_eq hself
      · rw [hnone]
        exact List.Perm.refl _
      · refine Eq.trans ?_ (hother r hr)
        cases r <;> first | rfl | exact absurd rfl hrx
    · rw [hw₁]
      exact hgood
    · rw [hw₁]
      exact h.framePool
    · intro b' hb'
      rw [hw₁]
      exact Function.update_of_ne hb' _ _
    · intro b' hb'
      rw [hw₁]
      exact Function.update_of_ne hb' _ _
    · intro r hr hrx
      rw [holder_setXmit w₁ _ hrx, hw₁]
      cases r with
      | free tag =>
        have hfree := hother (.free tag) hr
        rw [hw₁] at hfree
        exact congrArg Holder.free hfree
      | _ => rfl
    · rw [hw₁]
      exact ⟨fun _ => ⟨Function.update_self _ _ _, Function.update_self _ _ _⟩, nofun⟩

/-- What a queue is after its first frame is taken. -/
theorem takeFirst_queue {st : Sched} {f : XmitFrame} {rest : List XmitFrame} :
    (st.takeFirst psta ac f rest).q.queue psta ac = rest ∧
      ∀ i a, ¬(i = psta ∧ a = ac) →
        (st.takeFirst psta ac f rest).q.queue i a = st.q.queue i a :=
  ⟨put_same _ _ _ _, fun _ _ hne => put_ne hne⟩

/-- **A frame is taken off its queue**: the first one stays with the buffer. -/
theorem Inv.sendFrame (h : Inv w) (hx : w.xmit = .send ac psta b k)
    (hgo : w.sendFrame ac psta b k = some w') : Inv w' := by
  obtain ⟨hb, hout⟩ := h.xmit_out hx (List.mem_singleton_self b)
  have hok : Filled (w.privData b) (w.len b) k := h.xmitOk hx
  have hhand : w.xmit.frame = [] := congrArg XmitPc.frame hx
  simp only [World.sendFrame] at hgo
  split at hgo
  · cases hgo
  · rename_i f rest hqueue
    split at hgo
    · cases hgo
      exact h.setXmit hx rfl rfl hok
    · cases hgo
      obtain ⟨htaken, hqueues⟩ := @takeFirst_queue ac psta w.sched f rest
      have hfrom : w.frameAt (.pending psta ac) = f.id ::
          ((w.sched.takeFirst psta ac f rest).q.queue psta ac).map (·.id) := by
        rw [htaken]
        simp only [World.frameAt, hqueue, List.map_cons]
      have hrest : ∀ i a, FramePlace.pending i a ≠ .pending psta ac →
          ((w.sched.takeFirst psta ac f rest).q.queue i a).map (·.id)
            = w.frameAt (.pending i a) := by
        intro i a hne
        rw [hqueues i a fun heq => hne (congrArg₂ FramePlace.pending heq.1 heq.2)]
        rfl
      refine h.workXmit hb rfl (by rw [hx]; rfl) ?_ h.framePool ?_ (fun _ _ => rfl) ?_ ?_
      · rcases Nat.eq_zero_or_pos k with hk | hk
        · refine h.frames.move (p := .pending psta ac) (q := .privData b) (x := f.id) nofun ?_ ?_
            fun r hr hrb => ?_
          · exact List.Perm.of_eq hfrom
          · rw [frameAt_privData_none (hok.empty hk).1]
            simp only [World.frameAt, if_neg hout, if_pos hk, Function.update_self]
            exact List.Perm.refl _
          · cases r with
            | pending i a => exact hrest i a hr
            | privData b' =>
              have hne : b' ≠ b := fun heq => hrb (congrArg FramePlace.privData heq)
              simp only [World.frameAt, if_pos hk, Function.update_of_ne hne]
            | xmitThread => exact (if_pos hk).trans hhand.symm
            | _ => rfl
        · refine h.frames.move (p := .pending psta ac) (q := .xmitThread) (x := f.id) nofun ?_ ?_
            fun r hr hrx => ?_
          · exact List.Perm.of_eq hfrom
          · have hempty : w.frameAt .xmitThread = [] := hhand
            rw [hempty]
            simp only [World.frameAt, XmitPc.frame, if_neg hk.ne']
            exact List.Perm.refl _
          · cases r with
            | pending i a => exact hrest i a hr
            | privData b' => simp only [World.frameAt, if_neg hk.ne']
            | xmitThread => exact absurd rfl hrx
            | _ => rfl
      · intro b' hb'
        dsimp only
        split
        · exact Function.update_of_ne hb' _ _
        · rfl
      · intro r hr
        cases r with
        | xmitThread => exact absurd rfl hr
        | _ => rfl
      · refine ⟨fun hk => ⟨?_, (hok.empty hk).2⟩, fun hk => ?_⟩
        · simp only [if_pos hk, Function.update_self]
        · simp only [if_neg hk.ne']
          exact hok.begun hk

/-- **A frame is coalesced**: if it is the first one of its buffer it is not freed yet. -/
theorem Inv.coalesce (h : Inv w) (hx : w.xmit = .coalesce ac id b k) (lastTxcmdsz : Nat) :
    Inv (w.coalesce ac id b k (some lastTxcmdsz)) := by
  obtain ⟨hb, -⟩ := h.xmit_out hx (List.mem_singleton_self b)
  have hok := h.xmitOk hx
  have hfull : 0 < rnd8 (w.len b) + (txdescOffset + lastTxcmdsz) := by
    simp only [txdescOffset]
    omega
  have hsame : ∀ pc : XmitPc, pc.frame = w.xmit.frame →
      { w with
        len := Function.update w.len b (rnd8 (w.len b) + (txdescOffset + lastTxcmdsz))
        xmit := pc }.frameAt = w.frameAt :=
    fun pc hpc => frameAt_congr rfl rfl rfl (fun _ => rfl) hpc fun _ => rfl
  have hlen : ∀ b', b' ≠ b → Function.update w.len b
      (rnd8 (w.len b) + (txdescOffset + lastTxcmdsz)) b' = w.len b' :=
    fun b' hb' => Function.update_of_ne hb' _ _
  simp only [World.coalesce, Option.isSome_some, if_true]
  rcases Nat.eq_zero_or_pos k with rfl | hk
  · simp only [Nat.zero_add, ne_eq, not_true, if_false]
    refine h.workXmit hb rfl (by rw [hx]; rfl) ?_ h.framePool (fun _ _ => rfl) hlen
      (fun r hr => holder_setXmit _ _ hr) ⟨nofun, fun _ => ⟨?_, ?_⟩⟩
    · rw [hsame _ (by rw [hx]; rfl)]
      exact h.frames
    · exact Option.isSome_of_mem (hok.1 rfl).1
    · dsimp only
      rw [Function.update_self]
      exact hfull
  · have hmore : k + 1 ≠ 1 := by omega
    rw [if_pos hmore]
    refine h.workXmit hb rfl (by rw [hx]; rfl) ?_ h.framePool (fun _ _ => rfl) hlen
      (fun r hr => holder_setXmit _ _ hr) ⟨by omega, nofun, fun _ => ⟨(hok.2 hk).1, ?_⟩⟩
    · have hhand : (XmitPc.freeXmitframe ac id b (k + 1)).frame = w.xmit.frame := by
        rw [hx]
        simp only [XmitPc.frame, if_neg hk.ne', Nat.add_one_ne_zero, if_false]
      rw [hsame _ hhand]
      exact h.frames
    · dsimp only
      rw [Function.update_self]
      exact hfull

/-- A frame that could not be coalesced is freed, if it is the third one at least. -/
theorem Inv.coalesceFailed (h : Inv w) (hx : w.xmit = .coalesce ac id b k) (hk : 2 ≤ k) :
    Inv (w.coalesce ac id b k none) := by
  have hok := h.xmitOk hx
  have hne : k ≠ 1 := by omega
  simp only [World.coalesce, Option.isSome_none, Bool.false_eq_true, if_false, if_pos hne]
  exact h.setXmit hx rfl rfl ⟨hk, fun hk => by omega, fun hk => hok.2 hk⟩

/-- **A frame that is not the first one is freed** at once. -/
theorem Inv.freeXmitframe (h : Inv w) (hx : w.xmit = .freeXmitframe ac id b k) :
    Inv { w.rtwFreeXmitframe id with xmit := .round ac (some (b, k)) } := by
  obtain ⟨hb, -⟩ := h.xmit_out hx (List.mem_singleton_self b)
  obtain ⟨hk, hok⟩ := h.xmitOk hx
  have hhand : w.frameAt .xmitThread = [id] := by
    simp only [World.frameAt, hx, XmitPc.frame, if_neg (by omega : k ≠ 0)]
  have hin : id ∈ w.frameAt .xmitThread := by simp [hhand]
  obtain ⟨hself, hother⟩ := frameAt_rtwFreeXmitframe w id
  refine h.workXmit hb rfl (by rw [hx]; rfl) ?_ (h.framePool.release (h.frame_out hin nofun _))
    (fun _ _ => rfl) (fun _ _ => rfl) (fun r hr => holder_setXmit _ _ hr) hok
  refine h.frames.move (p := .xmitThread) (q := .free (w.frames.kind id)) (x := id) nofun ?_ ?_
    fun r hr hrf => ?_
  · rw [hhand]
    exact List.Perm.refl _
  · refine (List.Perm.of_eq ?_).trans (List.perm_append_singleton id _)
    exact hself
  · refine Eq.trans ?_ (hother r hrf)
    cases r <;> first | rfl | exact absurd rfl hr

/-- **The first frame of a buffer is freed** before the buffer is handed on. -/
theorem Inv.freeFirst (h : Inv w) {next : Next} (hx : w.xmit = .freeFirst ac b next) :
    Inv { w.freePrivData b with xmit := .enqueue ac b next } := by
  obtain ⟨hb, hout⟩ := h.xmit_out hx (List.mem_singleton_self b)
  have hhand : w.xmit.frame = [] := congrArg XmitPc.frame hx
  obtain ⟨hgot, -⟩ := frameAt_setPrivData w b none
  have hpriv : ∀ b', b' ≠ b → Function.update w.privData b none b' = w.privData b' :=
    fun b' hb' => Function.update_of_ne hb' _ _
  have hown : Function.update w.privData b none b = none := Function.update_self _ _ _
  cases hfirst : w.privData b with
  | none =>
    have hsame : Function.update w.privData b none = w.privData := by
      rw [← hfirst, Function.update_eq_self]
    simp only [World.freePrivData, hfirst, Option.elim_none, hsame]
    exact h.setXmit hx rfl rfl hfirst
  | some id =>
    have hframe : w.frameAt (.privData b) = [id] := by
      rw [frameAt_privData_out hout, hfirst]
      rfl
    have hin : id ∈ w.frameAt (.privData b) := by simp [hframe]
    obtain ⟨hself, hother⟩ := frameAt_rtwFreeXmitframe w id
    simp only [World.freePrivData, hfirst, Option.elim_some]
    refine h.workXmit hb rfl (by rw [hx]; rfl) ?_ (h.framePool.release (h.frame_out hin nofun _))
      hpriv (fun _ _ => rfl) (fun r hr => ?_) hown
    · refine h.frames.move (p := .privData b) (q := .free (w.frames.kind id)) (x := id) nofun ?_
        ?_ fun r hr hrf => ?_
      · rw [hframe]
        exact List.Perm.of_eq (congrArg (id :: ·) (hgot hout)).symm
      · refine (List.Perm.of_eq ?_).trans (List.perm_append_singleton id _)
        exact hself
      · refine Eq.trans ?_ (hother r hrf)
        cases r with
        | privData b' =>
          have hne : b' ≠ b := fun heq => hr (congrArg FramePlace.privData heq)
          simp only [World.frameAt, World.rtwFreeXmitframe, Function.update_of_ne hne]
          rfl
        | xmitThread => exact hhand.symm
        | _ => rfl
    · cases r with
      | xmitThread => exact absurd rfl hr
      | _ => rfl

/-- Behind it the thread has no buffer. -/
structure XmitPc.Bare (pc : XmitPc) : Prop where
  buf : pc.buf = []
  frame : pc.frame = []
  ok : ∀ privData len, pc.Ok privData len

theorem Next.bare (next : Next) (ac : Ac) : (next.pc ac).Bare := by
  cases next with
  | serve psta single => exact ⟨rfl, rfl, fun _ _ => trivial⟩
  | unlock => exact ⟨rfl, rfl, fun _ _ => trivial⟩

theorem Next.bare_enqueued (next : Next) (ac : Ac) : (next.pcEnqueued ac).Bare := by
  cases next with
  | serve psta single => cases single <;> exact ⟨rfl, rfl, fun _ _ => trivial⟩
  | unlock => exact ⟨rfl, rfl, fun _ _ => trivial⟩

/-- **A filled buffer is handed on.** -/
theorem Inv.enqueue (h : Inv w) {next : Next} (hx : w.xmit = .enqueue ac b next) :
    Inv { w.enqueuePendingXmitbuf b with xmit := next.pcEnqueued ac } := by
  obtain ⟨hb, -⟩ := h.xmit_out hx (List.mem_singleton_self b)
  have hnone : w.privData b = none := h.xmitOk hx
  obtain ⟨hbuf, hframe, hok⟩ := next.bare_enqueued ac
  have hhand : w.xmit.frame = [] := congrArg XmitPc.frame hx
  have hframes : { w.enqueuePendingXmitbuf b with xmit := next.pcEnqueued ac }.frameAt
      = w.frameAt :=
    frameAt_congr rfl rfl rfl (fun _ => rfl) (hframe.trans hhand.symm) fun _ => rfl
  have hmine : w.bufAt .xmitThread = [b] := congrArg XmitPc.buf hx
  refine h.handOn (p := .xmitThread) (q := .pending) nofun hb rfl rfl rfl rfl hframes ?_ ?_ ?_
    (hok _ _) (waiting_append (h.known .pending) hnone)
  · rw [hmine]
    exact List.Perm.of_eq (congrArg (b :: ·) hbuf).symm
  · exact List.perm_append_singleton b _
  · intro r hr hrp
    cases r <;> first | rfl | exact absurd rfl hr | exact absurd rfl hrp

/-- **An empty buffer is given back.** -/
theorem Inv.freeXmitbuf (h : Inv w) {next : Next} (hx : w.xmit = .freeXmitbuf ac b next) :
    Inv { w.rtwFreeXmitbuf b with xmit := next.pc ac } := by
  obtain ⟨hb, -⟩ := h.xmit_out hx (List.mem_singleton_self b)
  have hnone : w.privData b = none := h.xmitOk hx
  obtain ⟨hbuf, hframe, hok⟩ := next.bare ac
  have hhand : w.xmit.frame = [] := congrArg XmitPc.frame hx
  have hmine : w.bufAt .xmitThread = [b] := congrArg XmitPc.buf hx
  refine h.giveBack (p := .xmitThread) hb nofun hnone rfl rfl rfl rfl
    (frameAt_setXmit (hframe.trans hhand.symm)) ?_ (fun r hr => holder_setXmit _ _ hr) (hok _ _)
  rw [hmine]
  exact List.Perm.of_eq (congrArg (b :: ·) hbuf).symm

/-- **The thread goes on** where it has no choice. -/
theorem Inv.xmitGo (h : Inv w) (hgo : w.xmitGo = some w') : Inv w' := by
  simp only [World.xmitGo] at hgo
  split at hgo
  · rename_i ac psta hx
    cases hgo
    exact h.allocDataBuf hx
  · rename_i ac psta b k hx
    exact h.sendFrame hx hgo
  · rename_i ac id b k hx
    cases hgo
    exact h.freeXmitframe hx
  · rename_i ac b next hx
    cases hgo
    exact h.freeFirst hx
  · rename_i ac b next hx
    cases hgo
    exact h.enqueue hx
  · rename_i ac b next hx
    cases hgo
    exact h.freeXmitbuf hx
  · cases hgo

end Xmit

/-! ## 8. The thread that writes buffers, and the end -/

section Writing

theorem Inv.waiting_none (h : Inv w) {p : BufPlace} {l : List BufId}
    (hp : w.holder p = .waiting l) (hb : b ∈ l) : b ∈ w.bufAt p ∧ w.privData b = none := by
  refine ⟨?_, ?_⟩
  · rw [← buf_holder, hp]
    exact hb
  · have hknown := h.known p
    rw [hp] at hknown
    exact hknown b hb

/-- Which buffers wait says nothing about frames. -/
theorem frameAt_waiting (pending tmplist : List BufId) (writing : Option BufId) :
    { w with
      pendingXmitbufQueue := pending
      tmplist := tmplist
      writing := writing }.frameAt = w.frameAt := by
  funext p
  cases p <;> rfl

/-- **A buffer is selected.** -/
theorem Inv.selectXmitbuf (h : Inv w) (hw : w.writing = none)
    (hb : b ∈ w.pendingXmitbufQueue) : Inv (w.selectXmitbuf b) := by
  obtain ⟨hin, hnone⟩ := h.waiting_none (p := .pending) rfl hb
  refine h.handOn (p := .pending) (q := .writing) nofun hin rfl rfl rfl rfl
    (frameAt_waiting _ w.tmplist _) (List.perm_cons_erase hb) ?_ ?_ ?_ ?_
  · simp only [World.bufAt, hw]
    exact List.Perm.refl _
  · intro r hr hrw
    cases r <;> first | rfl | exact absurd rfl hr | exact absurd rfl hrw
  · exact fun b' hb' => h.known .pending b' (List.mem_of_mem_erase hb')
  · intro b' hb'
    rw [List.mem_singleton.mp hb']
    exact hnone

/-- It goes back to the head of the queue. -/
theorem Inv.requeue (h : Inv w) (hw : w.writing = some b) : Inv (w.requeue b) := by
  have hheld : w.holder .writing = .waiting [b] := by
    simp only [World.holder, hw, Option.toList_some]
  obtain ⟨hin, hnone⟩ := h.waiting_none hheld (List.mem_singleton_self b)
  refine h.handOn (p := .writing) (q := .pending) nofun hin rfl rfl rfl rfl
    (frameAt_waiting _ w.tmplist _) ?_ (List.Perm.refl _) ?_ nofun ?_
  · simp only [World.bufAt, hw]
    exact List.Perm.refl _
  · intro r hr hrp
    cases r <;> first | rfl | exact absurd rfl hr | exact absurd rfl hrp
  · exact List.forall_mem_cons.mpr ⟨hnone, h.known .pending⟩

/-- **It is written**, and given back. -/
theorem Inv.written (h : Inv w) (hw : w.writing = some b) : Inv (w.written b) := by
  have hheld : w.holder .writing = .waiting [b] := by
    simp only [World.holder, hw, Option.toList_some]
  obtain ⟨hin, hnone⟩ := h.waiting_none hheld (List.mem_singleton_self b)
  refine h.giveBack (p := .writing) hin nofun hnone rfl rfl rfl rfl ?_ ?_ ?_ nofun
  · exact frameAt_waiting _ _ _
  · simp only [World.bufAt, hw]
    exact List.Perm.refl _
  · intro r hr
    cases r <;> first | rfl | exact absurd rfl hr

/-- **The driver stops**: what waits is put on another list. -/
theorem Inv.freeXmitPriv (h : Inv w) : Inv w.freeXmitPriv := by
  refine ⟨?_, ?_, h.framePool, h.bufPool, fun p => ?_⟩
  · exact (frameAt_waiting (w := w) [] (w.tmplist ++ w.pendingXmitbufQueue) w.writing).symm ▸
      h.frames
  · refine h.bufs.rearrange [.pending, .tmplist] (by simp) (fun r hr => ?_) ?_
    · simp only [List.mem_cons, List.not_mem_nil, or_false, not_or] at hr
      cases r <;> first | rfl | exact absurd rfl hr.1 | exact absurd rfl hr.2
    · simp only [List.flatMap_cons, List.flatMap_nil, List.append_nil, World.bufAt,
        World.freeXmitPriv, List.nil_append]
      exact List.perm_append_comm
  · cases p with
    | pending => exact nofun
    | tmplist =>
      intro b hb
      exact (List.mem_append.mp hb).elim (h.known .tmplist b) (h.known .pending b)
    | free tag => exact h.known (.free tag)
    | mgnt m => exact h.known (.mgnt m)
    | xmitThread => exact h.known .xmitThread
    | writing => exact h.known .writing

/-- **A buffer of that list is given back**; its frame is freed already. -/
theorem Inv.flush (h : Inv w) (hgo : w.flush = some w') : Inv w' := by
  simp only [World.flush] at hgo
  split at hgo
  · cases hgo
  · rename_i b rest htmp
    cases hgo
    have hb : b ∈ w.tmplist := htmp ▸ List.mem_cons_self
    obtain ⟨hin, hnone⟩ := h.waiting_none (p := .tmplist) rfl hb
    have hsame : { w with tmplist := rest }.freePrivData b = { w with tmplist := rest } := by
      simp only [World.freePrivData, hnone, Option.elim_none]
      rw [← hnone, Function.update_eq_self]
    rw [hsame]
    refine h.giveBack (p := .tmplist) hin nofun hnone rfl rfl rfl rfl ?_ ?_ ?_ ?_
    · exact frameAt_waiting (w := w.rtwFreeXmitbuf b) w.pendingXmitbufQueue rest w.writing
    · simp only [World.bufAt, htmp]
      exact List.Perm.refl _
    · intro r hr
      cases r <;> first | rfl | exact absurd rfl hr
    · exact fun b' hb' => h.known .tmplist b' (htmp ▸ List.mem_cons_of_mem b hb')

end Writing

/-! ## 9. Runs -/

theorem settle_queue (psta : StaId) (ac : Ac) (err : Int) (st : Sched) :
    (settle psta ac err st).q.queue = st.q.queue ∧ (settle psta ac err st).sleepQ = st.sleepQ := by
  simp only [settle]
  split
  · exact ⟨rfl, rfl⟩
  · split <;> exact ⟨rfl, rfl⟩

/-- **A step keeps the invariant**, if no frame fails to be coalesced too early. -/
theorem Inv.step (h : Inv w) {a : Act} (hok : w.StepOk a) (hstep : w.step a = some w') :
    Inv w' := by
  cases a with
  | rtwXmit c =>
    simp only [World.step] at hstep
    split at hstep
    · rename_i hc
      cases hstep
      exact h.rtwXmit hc
    · cases hstep
  | updateAttrib c r =>
    simp only [World.step] at hstep
    split at hstep
    · rename_i id hc
      cases hstep
      exact h.updateAttrib hc r
    · cases hstep
  | callerGo c => exact h.callerGo hstep
  | stopStaXmit psta =>
    obtain ⟨st, hst, rfl⟩ := Option.map_eq_some_iff.mp hstep
    exact h.stopStaXmit hst
  | wakeupStaToXmit psta =>
    cases hstep
    exact h.wakeupStaToXmit psta
  | freeStainfo psta =>
    cases hstep
    exact h.freeStainfo psta
  | other st =>
    cases hstep
    exact h.other rfl rfl
  | allocMgtxmitframe m =>
    simp only [World.step] at hstep
    split at hstep
    · rename_i hm
      cases hstep
      exact h.allocMgtxmitframe hm
    · cases hstep
  | allocMgntBuf m =>
    simp only [World.step] at hstep
    split at hstep
    · rename_i id hm
      cases hstep
      exact h.allocMgntBuf hm
    · cases hstep
  | dumpMgntframe m cannotRun =>
    simp only [World.step] at hstep
    split at hstep
    · rename_i id b hm
      cases hstep
      simp only [World.dumpMgntframe]
      split
      · exact h.dropMgnt hm
      · exact h.mgntXmit hm
    · rename_i id hm
      cases hstep
      exact h.freeMgntFrame (congrArg MgntPc.frame hm) (congrArg MgntPc.buf hm)
    · cases hstep
  | sendMgnt m beacon =>
    simp only [World.step] at hstep
    split at hstep
    · rename_i b hm
      cases hstep
      exact h.sendMgnt hm beacon
    · cases hstep
  | lock ac =>
    simp only [World.step] at hstep
    split at hstep
    · rename_i hx
      cases hstep
      exact h.setXmit hx rfl rfl trivial
    · cases hstep
  | serve psta full single =>
    simp only [World.step] at hstep
    split at hstep
    · rename_i ac held hx
      cases hstep
      exact h.serve hx psta full single
    · cases hstep
  | settle psta err =>
    simp only [World.step] at hstep
    split at hstep
    · rename_i ac held hx
      cases hstep
      obtain ⟨hq, hsleep⟩ := settle_queue psta ac err w.sched
      exact h.other hq hsleep
    · cases hstep
  | coalesce r =>
    simp only [World.step] at hstep
    split at hstep
    · rename_i ac id b k hx
      cases hstep
      cases r with
      | none => exact h.coalesceFailed hx (hok ac id b k hx)
      | some lastTxcmdsz => exact h.coalesce hx lastTxcmdsz
    · cases hstep
  | unlock =>
    simp only [World.step] at hstep
    split at hstep
    · rename_i ac held hx
      cases hstep
      exact h.unlock hx
    · cases hstep
  | xmitGo => exact h.xmitGo hstep
  | select b =>
    simp only [World.step] at hstep
    split at hstep
    · rename_i hsel
      cases hstep
      exact h.selectXmitbuf hsel.1 hsel.2
    · cases hstep
  | requeue =>
    obtain ⟨b, hb, rfl⟩ := Option.map_eq_some_iff.mp hstep
    exact h.requeue hb
  | written =>
    obtain ⟨b, hb, rfl⟩ := Option.map_eq_some_iff.mp hstep
    exact h.written hb
  | freeXmitPriv =>
    cases hstep
    exact h.freeXmitPriv
  | flush => exact h.flush hstep

theorem Inv.run {acts : List Act} : ∀ {w w' : World}, Inv w → w.RunOk acts →
    w.run acts = some w' → Inv w' := by
  induction acts with
  | nil =>
    intro w w' h _ hrun
    cases hrun
    exact h
  | cons a acts ih =>
    intro w w' h hok hrun
    rw [World.run, List.foldlM_cons] at hrun
    obtain ⟨w₁, hstep, hrest⟩ := Option.bind_eq_some_iff.mp hrun
    exact ih (h.step hok.1 hstep) (hok.2 w₁ hstep) hrest

/-- A pool of which everything is free. -/
theorem good_fresh {α κ : Type} [DecidableEq α] {p : Pool α κ} {stock : Set α}
    (hcnt : ∀ k, p.cnt k = (p.free k).length) (hhome : ∀ k, ∀ x ∈ p.free k, p.kind x = k)
    (hnodup : ∀ k, (p.free k).Nodup) (hall : ∀ x ∈ stock, x ∈ p.free (p.kind x))
    (hallocs : ∀ x, p.allocs x = 0) (hfrees : ∀ x, p.frees x = 0) : p.Good stock where
  cnt := hcnt
  home := hhome
  nodup := hnodup
  balance := fun x hx => by rw [hallocs, hfrees, Pool.out, if_pos (hall x hx)]

theorem frames_start (st : Sched) (extTag : Bool) : (World.start st).frames.free extTag =
    if extTag then List.range' nrXmitframe nrXmitExtframe else List.range nrXmitframe := rfl

theorem mem_frames_start (st : Sched) (extTag : Bool) (id : FrameId) :
    id ∈ (World.start st).frames.free extTag ↔
      decide (nrXmitframe ≤ id) = extTag ∧ id < nrXmitframe + nrXmitExtframe := by
  rw [frames_start]
  cases extTag with
  | false =>
    simp only [Bool.false_eq_true, if_false, List.mem_range, decide_eq_false_iff_not, not_le]
    exact ⟨fun h => ⟨h, Nat.lt_add_right _ h⟩, And.left⟩
  | true => simp only [if_true, List.mem_range'_1, decide_eq_true_eq]

theorem framePool_start (st : Sched) : (World.start st).frames.Good frameStock := by
  refine good_fresh (fun k => ?_) (fun k x hx => ?_) (fun k => ?_) (fun x hx => ?_) (fun _ => rfl)
    (fun _ => rfl)
  · cases k <;> simp only [World.start, if_true, Bool.false_eq_true, if_false, List.length_range,
      List.length_range']
  · exact ((mem_frames_start st k x).mp hx).1
  · rw [frames_start]
    split
    · exact List.nodup_range'
    · exact List.nodup_range
  · exact (mem_frames_start st _ x).mpr ⟨rfl, hx⟩

theorem mem_bufs_start (st : Sched) (tag : BufTag) (b : BufId) :
    b ∈ (World.start st).bufs.free tag ↔
      (if b < nrXmitbuff then BufTag.data else BufTag.mgnt) = tag ∧
        b < nrXmitbuff + nrXmitExtbuff := by
  cases tag with
  | data =>
    have hfree : (World.start st).bufs.free .data = List.range nrXmitbuff := rfl
    rw [hfree, List.mem_range]
    split
    · rename_i hb
      exact ⟨fun h => ⟨rfl, Nat.lt_add_right _ h⟩, fun _ => hb⟩
    · rename_i hb
      exact ⟨fun h => absurd h hb, nofun⟩
  | mgnt =>
    have hfree : (World.start st).bufs.free .mgnt = List.range' nrXmitbuff nrXmitExtbuff := rfl
    rw [hfree, List.mem_range'_1]
    split
    · rename_i hb
      exact ⟨fun h => absurd hb h.1.not_gt, nofun⟩
    · rename_i hb
      exact ⟨fun h => ⟨rfl, h.2⟩, fun h => ⟨not_lt.mp hb, h.2⟩⟩

theorem bufPool_start (st : Sched) : (World.start st).bufs.Good bufStock := by
  refine good_fresh (fun k => ?_) (fun k x hx => ?_) (fun k => ?_) (fun x hx => ?_) (fun _ => rfl)
    (fun _ => rfl)
  · cases k <;> simp only [World.start, List.length_range, List.length_range']
  · exact ((mem_bufs_start st k x).mp hx).1
  · cases k with
    | data => exact List.nodup_range
    | mgnt => exact List.nodup_range'
  · exact (mem_bufs_start st _ x).mpr ⟨rfl, hx⟩

/-- When everything is free, everything is in its place. -/
theorem kept_fresh {α κ π : Type} [DecidableEq α] {p : Pool α κ} {stock : Set α} (h : p.Good stock)
    {shelf : π → List α} (free : κ → π) (hfree : ∀ k, shelf (free k) = p.free k)
    (hrest : ∀ q, (∀ k, q ≠ free k) → shelf q = [])
    (hstock : ∀ x, x ∈ stock ↔ ∃ k, x ∈ p.free k) : Kept stock shelf := by
  have hplace : ∀ q x, x ∈ shelf q → ∃ k, q = free k ∧ x ∈ p.free k := by
    intro q x hx
    by_cases hq : ∃ k, q = free k
    · obtain ⟨k, rfl⟩ := hq
      exact ⟨k, rfl, hfree k ▸ hx⟩
    · rw [hrest q (not_exists.mp hq)] at hx
      cases hx
  refine ⟨fun q => ?_, fun q r x hq hr => ?_, fun x => (hstock x).trans ⟨?_, ?_⟩⟩
  · by_cases hq : ∃ k, q = free k
    · obtain ⟨k, rfl⟩ := hq
      exact hfree k ▸ h.nodup k
    · rw [hrest q (not_exists.mp hq)]
      exact List.nodup_nil
  · obtain ⟨k, rfl, hk⟩ := hplace q x hq
    obtain ⟨j, rfl, hj⟩ := hplace r x hr
    rw [← h.home k x hk, ← h.home j x hj]
  · rintro ⟨k, hk⟩
    exact ⟨free k, (hfree k).symm ▸ hk⟩
  · rintro ⟨q, hq⟩
    obtain ⟨k, -, hk⟩ := hplace q x hq
    exact ⟨k, hk⟩

theorem inv_start (st : Sched) : Inv (World.start st) := by
  refine ⟨?_, ?_, framePool_start st, bufPool_start st, fun p => ?_⟩
  · refine kept_fresh (framePool_start st) FramePlace.free (fun _ => rfl) (fun q hq => ?_)
      fun x => ?_
    · cases q with
      | free extTag => exact absurd rfl (hq extTag)
      | privData b => exact frameAt_privData_none rfl
      | _ => rfl
    · simp only [mem_frames_start, exists_and_right, exists_eq', true_and]
      rfl
  · refine kept_fresh (bufPool_start st) BufPlace.free (fun _ => rfl) (fun q hq => ?_)
      fun x => ?_
    · cases q with
      | free tag => exact absurd rfl (hq tag)
      | _ => rfl
    · simp only [mem_bufs_start, exists_and_right, exists_eq', true_and]
      rfl
  · cases p with
    | pending => exact nofun
    | tmplist => exact nofun
    | writing => exact nofun
    | _ => trivial

/-- Where nothing fails nothing has to be checked. -/
theorem runOk_of_coalesced {acts : List Act} (h : ∀ a ∈ acts, a ≠ .coalesce none) :
    ∀ w : World, w.RunOk acts := by
  induction acts with
  | nil => exact fun _ => trivial
  | cons a acts ih =>
    intro w
    refine ⟨?_, fun w' _ => ih (fun a' ha' => h a' (List.mem_cons_of_mem a ha')) w'⟩
    cases a with
    | coalesce r =>
      cases r with
      | none => exact absurd rfl (h _ List.mem_cons_self)
      | some n => trivial
    | _ => trivial

theorem run_append (w : World) (acts acts' : List Act) :
    w.run (acts ++ acts') = (w.run acts).bind fun w' => w'.run acts' := List.foldlM_append

/-- **No frame and no buffer is lost** in a run in which no frame fails to be coalesced as the
first or second one of its buffer. -/
theorem frames_and_bufs_conserved (st : Sched) (acts : List Act)
    (hok : (World.start st).RunOk acts) {w : World} (hrun : (World.start st).run acts = some w) :
    w.Conserved :=
  ((inv_start st).run hok hrun).conserved

/-- A sender sends a packet to the station. -/
def sendTo1 : List Act :=
  [.rtwXmit 0, .updateAttrib 0 (some (sta1Frame 0)), .callerGo 0, .callerGo 0]

/-- The thread takes a buffer and writes a packet to it. -/
def fillOne : List Act :=
  [.lock .be, .serve 1 false true, .xmitGo, .xmitGo, .coalesce (some 100)]

theorem frames_and_bufs_conserved_of_two :
    ∃ w, (World.start (apSched 15)).run (sendTo1 ++ sendTo1 ++ fillOne ++
        [.serve 1 false true, .xmitGo, .coalesce (some 100), .xmitGo, .unlock, .xmitGo, .xmitGo,
          .select 0, .written]) = some w ∧
      w.frames.cnt false = 256 ∧ w.bufs.cnt .data = 16 ∧ w.Conserved := by
  have hok : (World.start (apSched 15)).RunOk (sendTo1 ++ sendTo1 ++ fillOne ++
      [.serve 1 false true, .xmitGo, .coalesce (some 100), .xmitGo, .unlock, .xmitGo, .xmitGo,
        .select 0, .written]) :=
    runOk_of_coalesced (by simp [sendTo1, fillOne]) _
  have hrun : ((World.start (apSched 15)).run (sendTo1 ++ sendTo1 ++ fillOne ++
      [.serve 1 false true, .xmitGo, .coalesce (some 100), .xmitGo, .unlock, .xmitGo, .xmitGo,
        .select 0, .written])).map (fun w => (w.frames.cnt false, w.bufs.cnt .data))
      = some (256, 16) := by decide +kernel
  obtain ⟨w, hw, hcnt⟩ := Option.map_eq_some_iff.mp hrun
  obtain ⟨hframes, hbufs⟩ := Prod.mk.inj hcnt
  exact ⟨w, hw, hframes, hbufs, frames_and_bufs_conserved (apSched 15) _ hok hw⟩

/-- **The second frame of a buffer** that cannot be coalesced is nowhere then. -/
theorem Inv.second_lost (h : Inv w) {ac : Ac} {id : FrameId}
    (hx : w.xmit = .coalesce ac id b 1) :
    id ∈ frameStock ∧ ∀ p, id ∉ (w.coalesce ac id b 1 none).frameAt p := by
  have hin : id ∈ w.frameAt .xmitThread := by simp [World.frameAt, hx, XmitPc.frame]
  refine ⟨(h.frames.mem id).mpr ⟨_, hin⟩, fun p hp => ?_⟩
  by_cases hpx : p = .xmitThread
  · rw [hpx] at hp
    cases hp
  · have hsame : (w.coalesce ac id b 1 none).frameAt p = w.frameAt p := by
      cases p with
      | xmitThread => exact absurd rfl hpx
      | _ => rfl
    exact hpx (h.frames.apart p .xmitThread id (hsame ▸ hp) hin)

/-- **The first frame of a buffer** that cannot be coalesced is freed, and still `priv_data`. -/
theorem Inv.first_twice (h : Inv w) {ac : Ac} {id : FrameId} (hx : w.xmit = .coalesce ac id b 0) :
    ∃ w', (w.coalesce ac id b 0 none).xmitGo = some w' ∧
      id ∈ w'.frameAt (.free (w.frames.kind id)) ∧ id ∈ w'.frameAt (.privData b) := by
  have hpriv := ((h.xmitOk hx).1 rfl).1
  obtain ⟨-, hout⟩ := h.xmit_out hx (List.mem_singleton_self b)
  refine ⟨_, rfl, ?_, ?_⟩
  · have hfreed := (frameAt_rtwFreeXmitframe w id).1
    have hin : id ∈ (w.rtwFreeXmitframe id).frameAt (.free (w.frames.kind id)) := by
      rw [hfreed]
      exact List.mem_append_right _ (List.mem_singleton_self id)
    exact hin
  · have hfirst : id ∈ w.frameAt (.privData b) := by
      rw [frameAt_privData_out hout, hpriv]
      exact List.mem_singleton_self id
    exact hfirst

/-- **A frame is lost.**  Two packets are sent and the second one cannot be coalesced; and a frame
is in two places, when the first one cannot. -/
theorem second_frame_lost :
    (∃ w, (World.start (apSched 15)).run (sendTo1 ++ sendTo1 ++ fillOne ++
        [.serve 1 false true, .xmitGo, .coalesce none]) = some w ∧
      1 ∈ frameStock ∧ (∀ p, 1 ∉ w.frameAt p) ∧ ¬ w.Conserved) ∧
    ∃ w, (World.start (apSched 15)).run (sendTo1 ++
        [.lock .be, .serve 1 false true, .xmitGo, .xmitGo, .coalesce none, .xmitGo]) = some w ∧
      0 ∈ w.frameAt (.free false) ∧ 0 ∈ w.frameAt (.privData 0) ∧ ¬ w.Conserved := by
  constructor
  · have hrun : ((World.start (apSched 15)).run (sendTo1 ++ sendTo1 ++ fillOne ++
        [.serve 1 false true, .xmitGo])).map (·.xmit) = some (.coalesce .be 1 0 1) := by
      decide +kernel
    obtain ⟨w, hw, hx⟩ := Option.map_eq_some_iff.mp hrun
    have hinv : Inv w := (inv_start (apSched 15)).run
      (runOk_of_coalesced (by simp [sendTo1, fillOne]) _) hw
    obtain ⟨hstock, hlost⟩ := hinv.second_lost hx
    refine ⟨w.coalesce .be 1 0 1 none, ?_, hstock, hlost, fun hgood => ?_⟩
    · have hthen := (run_append (World.start (apSched 15)) _ [.coalesce none]).trans
        (congrArg (Option.bind · _) hw)
      rw [List.append_assoc] at hthen
      refine hthen.trans ?_
      simp [World.run, World.step, hx]
    · obtain ⟨p, hp, -⟩ := hgood.frame 1 hstock
      exact hlost p hp
  · have hrun : ((World.start (apSched 15)).run (sendTo1 ++
        [.lock .be, .serve 1 false true, .xmitGo, .xmitGo])).map
          (fun w => (w.xmit, w.frames.kind 0)) = some (.coalesce .be 0 0 0, false) := by
      decide +kernel
    obtain ⟨w, hw, heq⟩ := Option.map_eq_some_iff.mp hrun
    obtain ⟨hx, hkind⟩ := Prod.mk.inj heq
    have hinv : Inv w := (inv_start (apSched 15)).run
      (runOk_of_coalesced (by simp [sendTo1]) _) hw
    obtain ⟨w', hgo, hfree, hpriv⟩ := hinv.first_twice hx
    rw [hkind] at hfree
    have hstock : 0 ∈ frameStock := by
      change 0 < nrXmitframe + nrXmitExtframe
      decide
    refine ⟨w', ?_, hfree, hpriv, fun hgood => ?_⟩
    · have hthen := (run_append (World.start (apSched 15)) _ [.coalesce none, .xmitGo]).trans
        (congrArg (Option.bind · _) hw)
      rw [List.append_assoc] at hthen
      refine hthen.trans ?_
      simp [World.run, World.step, hx, hgo]
    · exact nomatch (hgood.frame 0 hstock).unique hfree hpriv

end XmitPath

end Rtl8723bs
