/-
# Every interleaving of the waiting

`dump_mgntframe_and_wait` clears the pointer of a buffer that may be another's by then.  As long
as no step does that while the pointer is another's, no context is used after its function has
returned, a waiter told of success had its own frame written, and a waiter whose frame was
written in time is told so (`waiters_told_of_own_frame`).

The invariant says of each call alone what its two programs know of each other (`Good`); that
calls do not meet is that the frame in a buffer is the one of the call that has it.
-/
import Rtl8723bs.Tx.MgntWait

namespace Rtl8723bs

namespace MgntWait

/-! ## 1. One call -/

/-- The frame is not written yet. -/
@[simp] def TxPc.unsent : TxPc → Bool
  | .idle | .owned | .pending | .writing | .done _ _ .allocated => true
  | _ => false

/-- The buffer is not given out yet. -/
@[simp] def TxPc.early : TxPc → Bool
  | .idle | .done _ _ .allocated => true
  | _ => false

/-- The buffer is given out and not given back. -/
@[simp] def TxPc.holding : TxPc → Bool
  | .idle | .finished | .done _ _ .allocated => false
  | _ => true

/-- The buffer is taken from its free list. -/
@[simp] def TxPc.active : TxPc → Bool
  | .idle | .finished => false
  | _ => true

/-- The frame is on its way to the port. -/
@[simp] def TxPc.queued : TxPc → Bool
  | .owned | .pending | .writing => true
  | _ => false

/-- The waiter's context may be behind the pointer. -/
@[simp] def WaitPc.linked : WaitPc → Bool
  | .xmit | .wait | .clear _ => true
  | _ => false

/-- What the waiter was told. -/
@[simp] def WaitPc.told : WaitPc → Option Bool
  | .clear ret | .returned ret => some ret
  | _ => none

/-- What the programs of call `c` know of each other; `l` says that its context is behind the
pointer of its buffer. -/
@[grind cases]
structure Good (c : CallId) (x : Call) (l : Prop) : Prop where
  fresh : x.tx.unsent → x.sctx.done = 0 ∧ x.wrote = false ∧ x.inTime = false ∧ x.ret = true
  early : x.tx.early → x.wait = .build
  linkedWait : l → x.wait.linked
  linkedTx : l → x.tx.holding
  linkedDone : l → x.sctx.done = 0 ∨ ∃ status k, x.tx = .done .setNull status k
  mid : x.tx.mid → l ∧ x.sctx.done = 0
  ptr : ∀ p status k,
    x.tx = .done (.storeStatus p) status k ∨ x.tx = .done (.complete p) status k → p = c
  stored : ∀ stage status k, x.tx = .done stage status k →
    (stage = .loadDone ∨ ∃ p, stage = .complete p) → x.sctx.status = status
  completed : ∀ status k, x.tx = .done .setNull status k → x.wait.waiting → x.sctx.done ≠ 0
  written : ∀ stage k, x.tx = .done stage .doneSuccess k → x.wrote = true
  asleep : x.wait.waiting → x.sctx.done = 0 → l
  woken : x.wait.waiting → x.sctx.done ≠ 0 →
    (x.sctx.status = .doneSuccess → x.wrote = true) ∧
      (x.inTime = true → x.sctx.status = .doneSuccess)
  sure : x.wait.waiting → x.inTime = true → x.sctx.done = 0 → x.tx.sure
  told : ∀ ret, x.wait.told = some ret →
    (ret = true → x.wrote = true) ∧ (x.inTime = true → ret = true)
  timed : x.inTime = true → x.ret = true ∧ (x.wait.waiting ∨ x.wait.told.isSome)

attribute [grind =] TxPc.unsent TxPc.early TxPc.holding TxPc.mid TxPc.sure Stage.mid
  WaitPc.linked WaitPc.told WaitPc.waiting SubmitCtx.woken

theorem facts_of_queued {tx : TxPc} (h : tx.queued) :
    tx.unsent ∧ tx.early = false ∧ tx.holding ∧ tx.mid = false ∧
      ∀ stage status k, tx ≠ .done stage status k := by
  cases tx <;> simp_all [TxPc.mid]

@[grind =] theorem unsent_done (stage : Stage) (status : SctxStatus) (k : Cont) :
    (TxPc.done stage status k).unsent = (k == .allocated) := by
  cases k <;> rfl

@[grind =] theorem early_done (stage : Stage) (status : SctxStatus) (k : Cont) :
    (TxPc.done stage status k).early = (k == .allocated) := by
  cases k <;> rfl

@[grind =] theorem holding_done (stage : Stage) (status : SctxStatus) (k : Cont) :
    (TxPc.done stage status k).holding = (k != .allocated) := by
  cases k <;> rfl

@[grind =] theorem sure_done (stage : Stage) (status : SctxStatus) (k : Cont) :
    (TxPc.done stage status k).sure
      = (status == .doneSuccess && (decide (stage = .test) || stage.mid)) := by
  cases status <;> simp [TxPc.sure]

theorem told_of_waiting {v : WaitPc} (h : v.waiting) : v.told = none := by
  cases v <;> simp_all [WaitPc.waiting]

section OneCall

variable {c : CallId} {x : Call} {l : Prop} {status : SctxStatus} {k : Cont}

theorem good_idle : Good c Call.idle False := by
  constructor <;> simp [Call.idle, rtwSctxInit, WaitPc.waiting, TxPc.mid]

/-- A buffer is taken whose pointer is NULL. -/
theorem Good.alloc (h : Good c x l) (htx : x.tx = .idle) (b : BufId) (beacon : Bool) :
    Good c { x with buf := b, beacon := beacon, tx := .done .guard .doneBufAlloc .allocated }
      False := by
  constructor <;> grind -ring -linarith

/-- The frame moves between its owner, the queue and the writer. -/
theorem Good.move (h : Good c x l) (htx : x.tx.queued) {tx : TxPc} (htx' : tx.queued)
    {v : WaitPc} (hwaiting : v.waiting = x.wait.waiting) (hlinked : v.linked = x.wait.linked)
    (htold : v.told = x.wait.told) : Good c { x with tx := tx, wait := v } l := by
  have hold := facts_of_queued htx
  have hnew := facts_of_queued htx'
  constructor <;> grind -ring -linarith

/-- The buffer is given back without its frame being written. -/
theorem Good.giveBack (h : Good c x l) (htx : x.tx.queued) {v : WaitPc}
    (hwaiting : v.waiting = x.wait.waiting) (hlinked : v.linked = x.wait.linked)
    (htold : v.told = x.wait.told) :
    Good c { x with tx := .done .guard .doneBufFree .freed, wait := v } l := by
  have hold := facts_of_queued htx
  constructor <;> grind -ring -linarith

theorem Good.init (h : Good c x l) (htx : x.tx = .owned) (hwait : x.wait = .build) :
    Good c { x with wait := .init, sctx := rtwSctxInit } l := by
  have hdone : rtwSctxInit.done = 0 := rfl
  constructor <;> grind -ring -linarith

theorem Good.setSctx (h : Good c x l) (htx : x.tx = .owned) :
    Good c { x with wait := .xmit } True := by
  constructor <;> grind -ring -linarith

/-- The frame is written: in time, if its waiter is still there. -/
theorem Good.writeOk (h : Good c x l) (htx : x.tx = .writing) :
    Good c
      { x with
        wrote := true, inTime := x.inTime || x.wait.waiting
        tx := .done .test .doneSuccess .written } l := by
  have htold := fun hw => told_of_waiting (v := x.wait) hw
  constructor <;> grind -ring -linarith

/-- The frame is not written, and its context is finished with an error or not at all. -/
theorem Good.writeErr (h : Good c x l) (htx : x.tx = .writing) {stage : Stage}
    (hstage : stage = .guard ∨ stage = .test) (hstatus : status ≠ .doneSuccess)
    (hk : k ≠ .allocated) :
    Good c { x with ret := false, tx := .done stage status k } l := by
  rcases hstage with rfl | rfl <;> constructor <;> grind -ring -linarith

/-! ## 2. `rtw_sctx_done_err`, for one call -/

theorem Good.guardSome (h : Good c x l) (htx : x.tx = .done .guard status k) :
    Good c { x with tx := .done .test status k } l := by
  constructor <;> grind -ring -linarith

theorem Good.testSome (h : Good c x l) (htx : x.tx = .done .test status k) (hl : l) :
    Good c { x with tx := .done .loadStatus status k } l := by
  constructor <;> grind -ring -linarith

theorem Good.loadStatus (h : Good c x l) (htx : x.tx = .done .loadStatus status k) :
    Good c { x with tx := .done (.storeStatus c) status k } l := by
  constructor <;> grind -ring -linarith

theorem Good.storeStatus (h : Good c x l) (htx : x.tx = .done (.storeStatus c) status k) :
    Good c { x with sctx := x.sctx.store status, tx := .done .loadDone status k } l := by
  constructor <;> grind -ring -linarith [SubmitCtx.store]

theorem Good.loadDone (h : Good c x l) (htx : x.tx = .done .loadDone status k) :
    Good c { x with tx := .done (.complete c) status k } l := by
  constructor <;> grind -ring -linarith

/-- The context is completed with the status of the frame, which is success when the frame was
written in time. -/
theorem Good.complete (h : Good c x l) (htx : x.tx = .done (.complete c) status k) :
    Good c { x with sctx := x.sctx.complete, tx := .done .setNull status k } l := by
  have hstatus : x.sctx.status = status := h.stored _ status k htx (.inr ⟨c, rfl⟩)
  constructor <;> grind -ring -linarith [SubmitCtx.complete]

/-- `*sctx = NULL`, when nobody is left to wait for it. -/
theorem Good.unlink (h : Good c x l) (hmid : x.tx.mid = false)
    (hwoken : x.wait.waiting → x.sctx.done ≠ 0) : Good c x False := by
  constructor <;> grind -ring -linarith

theorem Good.resumeAllocated (h : Good c x l) {stage : Stage} (htx : x.tx = .done stage status .allocated)
    (hwoken : x.wait.waiting → x.sctx.done ≠ 0) : Good c (x.resume .allocated) False := by
  constructor <;> grind -ring -linarith [Call.resume]

theorem Good.resumeRetry (h : Good c x l) {stage : Stage} (_htx : x.tx = .done stage status .retry)
    (hwoken : x.wait.waiting → x.sctx.done ≠ 0) : Good c (x.resume .retry) False := by
  constructor <;> grind -ring -linarith [Call.resume]

theorem Good.resumeWritten (h : Good c x l) {stage : Stage} (_htx : x.tx = .done stage status .written)
    (hwoken : x.wait.waiting → x.sctx.done ≠ 0) : Good c (x.resume .written) False := by
  constructor <;> grind -ring -linarith [Call.resume]

theorem Good.resumeFreed (h : Good c x l) {stage : Stage} (htx : x.tx = .done stage status .freed)
    (hwoken : x.wait.waiting → x.sctx.done ≠ 0) : Good c (x.resume .freed) False := by
  constructor <;> grind -ring -linarith [Call.resume]

/-- The end of `rtw_sctx_done_err`: the pointer is NULL, and whoever waits is completed. -/
theorem Good.resume (h : Good c x l) {stage : Stage} (htx : x.tx = .done stage status k)
    (hwoken : x.wait.waiting → x.sctx.done ≠ 0) : Good c (x.resume k) False := by
  cases k with
  | allocated => exact h.resumeAllocated htx hwoken
  | retry => exact h.resumeRetry htx hwoken
  | written => exact h.resumeWritten htx hwoken
  | freed => exact h.resumeFreed htx hwoken

/-! ## 3. The waiter -/

theorem Good.wake (h : Good c x l) (hwait : x.wait = .wait) (hdone : x.sctx.done ≠ 0) :
    Good c { x with wait := .clear x.sctx.woken, sctx := x.sctx.take } l := by
  constructor <;> grind -ring -linarith [SubmitCtx.take]

/-- A waiter gives up whose frame is not written. -/
theorem Good.timeout (h : Good c x l) (hwait : x.wait = .wait) (hdone : x.sctx.done = 0)
    (hsure : x.tx.sure = false) : Good c { x with wait := .clear false } l := by
  have htime : x.inTime = false := by
    by_contra htime
    have hwaiting : x.wait.waiting := by rw [hwait]; rfl
    have := h.sure hwaiting (by simpa using htime) hdone
    simp [hsure] at this
  constructor <;> grind -ring -linarith

theorem Good.clear {ret : Bool} (h : Good c x l) (hwait : x.wait = .clear ret)
    (hmid : l → x.tx.mid = false) : Good c { x with wait := .returned ret } False := by
  constructor <;> grind -ring -linarith

end OneCall

/-! ## 4. The calls together -/

/-- The context of the call is behind the pointer of its buffer. -/
def World.Linked (w : World) (c : CallId) : Prop := (w.bufOf c).sctx = some c

/-- The frame in a buffer is that of the call that has it, a pointer in a buffer is to the context
of the call whose frame is in it, and each call is good. -/
structure World.Inv (w : World) : Prop where
  fault : w.fault = false
  frame : ∀ b c, (w.bufs b).frame = some c → (w.calls c).buf = b ∧ (w.calls c).tx ≠ .idle
  sctx : ∀ b c, (w.bufs b).sctx = some c → (w.bufs b).frame = some c
  active : ∀ c, (w.calls c).tx.active → (w.bufOf c).frame = some c
  good : ∀ c, Good c (w.calls c) (w.Linked c)

namespace World

variable {w w' : World} {c : CallId}

theorem start_inv (tag : BufId → BufTag) : (start tag).Inv where
  fault := rfl
  frame b c h := nomatch h
  sctx b c h := nomatch h
  active c h := by simp [start, Call.idle] at h
  good c := by
    have hlinked : (start tag).Linked c = False := by simp [Linked, bufOf, start]
    rw [hlinked]
    exact good_idle

@[simp] theorem setBuf_self (w : World) (b : BufId) (y : XmitBuf) : (w.setBuf b y).bufs b = y :=
  Function.update_self ..

theorem setBuf_of_ne (w : World) {b b' : BufId} (y : XmitBuf) (hne : b' ≠ b) :
    (w.setBuf b y).bufs b' = w.bufs b' :=
  Function.update_of_ne hne ..

@[simp] theorem setCall_self (w : World) (c : CallId) (x : Call) : (w.setCall c x).calls c = x :=
  Function.update_self ..

theorem setCall_of_ne (w : World) {c d : CallId} (x : Call) (hne : d ≠ c) :
    (w.setCall c x).calls d = w.calls d :=
  Function.update_of_ne hne ..

theorem setCall_same (w : World) (c : CallId) : w.setCall c (w.calls c) = w := by
  unfold World.setCall
  rw [Function.update_eq_self]

theorem setBuf_same (w : World) (c : CallId) : w.setBuf (w.calls c).buf (w.bufOf c) = w := by
  unfold World.setBuf bufOf
  rw [Function.update_eq_self]

/-- A step of one call: the frame in its buffer stays, and the pointer changes only between NULL
and the call's own context. -/
theorem Inv.act (h : w.Inv) {x : Call} {y : XmitBuf} (hframe : y.frame = (w.bufOf c).frame)
    (hown : y.sctx = (w.bufOf c).sctx ∨
      ((w.bufOf c).sctx = none ∨ (w.bufOf c).sctx = some c) ∧
        (y.sctx = none ∨ y.sctx = some c ∧ y.frame = some c))
    (hbuf : x.buf = (w.calls c).buf) (hidle : x.tx = .idle → (w.calls c).tx = .idle)
    (hactive : x.tx.active → (w.calls c).tx.active) (hgood : Good c x (y.sctx = some c)) :
    ((w.setBuf (w.calls c).buf y).setCall c x).Inv := by
  generalize hw' : (w.setBuf (w.calls c).buf y).setCall c x = w'
  have hself : w'.calls c = x := hw' ▸ setCall_self ..
  have hothers : ∀ {d}, d ≠ c → w'.calls d = w.calls d := fun hne => hw' ▸ setCall_of_ne _ _ hne
  have hown' : w'.bufs (w.calls c).buf = y := hw' ▸ setBuf_self ..
  have hbufs : ∀ {b}, b ≠ (w.calls c).buf → w'.bufs b = w.bufs b :=
    fun hne => hw' ▸ setBuf_of_ne _ _ hne
  have hfault : w'.fault = false := hw' ▸ h.fault
  have hframes : ∀ b, (w'.bufs b).frame = (w.bufs b).frame := by
    intro b
    rcases eq_or_ne b (w.calls c).buf with rfl | hne
    · rw [hown', hframe]
      rfl
    · rw [hbufs hne]
  have hbufOf : ∀ d, (w'.calls d).buf = (w.calls d).buf := by
    intro d
    rcases eq_or_ne d c with rfl | hne
    · rw [hself, hbuf]
    · rw [hothers hne]
  refine { fault := hfault, frame := ?_, sctx := ?_, active := ?_, good := ?_ }
  · intro b d hd
    rw [hframes] at hd
    obtain ⟨hb, htx⟩ := h.frame b d hd
    refine ⟨(hbufOf d).trans hb, ?_⟩
    rcases eq_or_ne d c with rfl | hne
    · rw [hself]
      exact fun hx => htx (hidle hx)
    · rwa [hothers hne]
  · intro b d hd
    rw [hframes]
    rcases eq_or_ne b (w.calls c).buf with rfl | hne
    · rw [hown'] at hd
      rcases hown with hv | ⟨-, hv | ⟨hv, hf⟩⟩
      · exact h.sctx _ d (hv.symm.trans hd)
      · rw [hv] at hd
        cases hd
      · rw [← hd, hv, ← hf, hframe]
        rfl
    · rw [hbufs hne] at hd
      exact h.sctx b d hd
  · intro d hd
    unfold bufOf
    rw [hframes, hbufOf]
    refine h.active d ?_
    rcases eq_or_ne d c with rfl | hne
    · rw [hself] at hd
      exact hactive hd
    · rwa [hothers hne] at hd
  · intro d
    rcases eq_or_ne d c with rfl | hne
    · have hlinked : w'.Linked d = (y.sctx = some d) := by
        unfold Linked bufOf
        rw [hbufOf, hown']
      rw [hlinked, hself]
      exact hgood
    · have hlinked : w'.Linked d ↔ w.Linked d := by
        unfold Linked bufOf
        rw [hbufOf]
        rcases eq_or_ne (w.calls d).buf (w.calls c).buf with heq | hneb
        · rw [heq, hown']
          rcases hown with hv | ⟨hold, hv⟩
          · rw [hv]
            rfl
          · change _ ↔ (w.bufOf c).sctx = some d
            have hcd : some c ≠ some d := fun hcd => hne (Option.some.inj hcd).symm
            rcases hold with hold | hold <;> rcases hv with hv | ⟨hv, -⟩ <;> simp_all
        · rw [hbufs hneb]
      rw [hlinked, hothers hne]
      exact h.good d

/-- A step of one call that leaves the buffers. -/
theorem Inv.setCall (h : w.Inv) {x : Call} (hbuf : x.buf = (w.calls c).buf)
    (hidle : x.tx = .idle → (w.calls c).tx = .idle)
    (hactive : x.tx.active → (w.calls c).tx.active) (hgood : Good c x (w.Linked c)) :
    (w.setCall c x).Inv := by
  have hact := h.act (y := w.bufOf c) rfl (.inl rfl) hbuf hidle hactive hgood
  rwa [setBuf_same] at hact

/-! ## 5. The steps of the writer -/

/-- The pointer of the buffer of a call is to its own context. -/
theorem Inv.own_ptr (h : w.Inv) (hactive : (w.calls c).tx.active) {p : CallId}
    (hp : (w.bufOf c).sctx = some p) : p = c := by
  have hframe := h.sctx _ p hp
  rw [h.active c hactive |> (show (w.bufs (w.calls c).buf).frame = some c from ·)] at hframe
  exact (Option.some.inj hframe).symm

theorem Inv.null_or_own (h : w.Inv) (hactive : (w.calls c).tx.active) :
    (w.bufOf c).sctx = none ∨ (w.bufOf c).sctx = some c := by
  cases hp : (w.bufOf c).sctx with
  | none => exact .inl rfl
  | some p => exact .inr (congrArg some (h.own_ptr hactive hp))

/-- Nobody waits uncompleted behind a NULL pointer. -/
theorem Inv.woken_of_null (h : w.Inv) (hnull : (w.bufOf c).sctx = none) :
    (w.calls c).wait.waiting → (w.calls c).sctx.done ≠ 0 := by
  intro hwaiting hdone
  have hlinked : (w.bufOf c).sctx = some c := (h.good c).asleep hwaiting hdone
  rw [hnull] at hlinked
  cases hlinked

variable {stage : Stage} {status : SctxStatus} {k : Cont}

theorem Inv.setTx_done (h : w.Inv) (htx : (w.calls c).tx = .done stage status k) {tx : TxPc}
    (hidle : tx ≠ .idle)
    (hgood : Good c { w.calls c with tx := tx } (w.Linked c)) : (w.setTx c tx).Inv :=
  h.setCall rfl (fun hx => absurd hx hidle) (fun _ => by rw [htx]; rfl) hgood

theorem Inv.resume (h : w.Inv) (htx : (w.calls c).tx = .done stage status k)
    (hnull : (w.bufOf c).sctx = none) : (w.resume c k).Inv := by
  have hgood : Good c ((w.calls c).resume k) ((w.bufOf c).sctx = some c) := by
    have hfalse : ((w.bufOf c).sctx = some c) = False := by simp [hnull]
    rw [hfalse]
    exact (h.good c).resume htx (h.woken_of_null hnull)
  have hactive : (w.calls c).tx.active := by rw [htx]; rfl
  cases k with
  | freed => exact h.act rfl (.inl rfl) rfl nofun (fun _ => hactive) hgood
  | allocated => exact h.setCall rfl nofun (fun _ => hactive) hgood
  | retry => exact h.setCall rfl nofun (fun _ => hactive) hgood
  | written => exact h.setCall rfl nofun (fun _ => hactive) hgood

/-- The pointer becomes NULL. -/
theorem Inv.setNull (h : w.Inv) (hown : (w.bufOf c).sctx = none ∨ (w.bufOf c).sctx = some c)
    {x : Call} (hbuf : x.buf = (w.calls c).buf) (htx : x.tx = (w.calls c).tx)
    (hgood : Good c x False) : ((w.setSctx c none).setCall c x).Inv :=
  h.act rfl (.inr ⟨hown, .inl rfl⟩) hbuf (fun hx => htx ▸ hx) (fun hx => htx ▸ hx)
    (by simpa using hgood)

/-- A context behind a pointer is that of a call that has not returned. -/
theorem Inv.use (h : w.Inv) (hmid : (w.calls c).tx.mid) (f : SubmitCtx → SubmitCtx) (tx : TxPc) :
    (w.useSctx c f).setTx c tx
      = w.setCall c { w.calls c with sctx := f (w.calls c).sctx, tx := tx } := by
  have hlinked := (h.good c).linkedWait ((h.good c).mid hmid).1
  have hgone : (w.calls c).wait.gone = false := by
    cases hw : (w.calls c).wait <;> simp_all [WaitPc.gone]
  simp [useSctx, World.setTx, World.setCall, hgone]

theorem Inv.doneErrStep (h : w.Inv) (htx : (w.calls c).tx = .done stage status k) :
    (w.doneErrStep c stage status k).Inv := by
  have hactive : (w.calls c).tx.active := by rw [htx]; rfl
  have hgood := h.good c
  unfold World.doneErrStep
  cases stage with
  | guard =>
    dsimp only
    split
    · exact h.setTx_done htx nofun (hgood.guardSome htx)
    · rename_i hnull
      exact h.resume htx (by simpa using hnull)
  | test =>
    dsimp only
    split
    · rename_i hsome
      obtain ⟨p, hp⟩ := Option.isSome_iff_exists.mp hsome
      have hlinked : w.Linked c := by
        rw [h.own_ptr hactive hp] at hp
        exact hp
      exact h.setTx_done htx nofun (hgood.testSome htx hlinked)
    · rename_i hnull
      exact h.resume htx (by simpa using hnull)
  | loadStatus =>
    have hlinked : (w.bufOf c).sctx = some c := (hgood.mid (by rw [htx]; rfl)).1
    dsimp only
    rw [hlinked]
    exact h.setTx_done htx nofun (hgood.loadStatus htx)
  | storeStatus p =>
    obtain rfl := hgood.ptr p status k (.inl htx)
    dsimp only
    rw [h.use (by rw [htx]; rfl)]
    exact h.setCall rfl nofun (fun _ => hactive) (hgood.storeStatus htx)
  | loadDone =>
    have hlinked : (w.bufOf c).sctx = some c := (hgood.mid (by rw [htx]; rfl)).1
    dsimp only
    rw [hlinked]
    exact h.setTx_done htx nofun (hgood.loadDone htx)
  | complete p =>
    obtain rfl := hgood.ptr p status k (.inr htx)
    dsimp only
    rw [h.use (by rw [htx]; rfl)]
    exact h.setCall rfl nofun (fun _ => hactive) (hgood.complete htx)
  | setNull =>
    have hnull : (w.setSctx c none).Inv := by
      have hclear := h.setNull (h.null_or_own hactive) rfl rfl
        (hgood.unlink (by rw [htx]; rfl) (hgood.completed status k htx))
      rwa [show w.calls c = (w.setSctx c none).calls c from rfl, setCall_same] at hclear
    refine hnull.resume htx ?_
    have hbuf : (w.setSctx c none).bufOf c = { w.bufOf c with sctx := none } := setBuf_self ..
    rw [hbuf]

theorem Inv.write (h : w.Inv) (htx : (w.calls c).tx = .writing) (res : WriteResult) :
    (w.writePort c res).Inv := by
  have hactive : (w.calls c).tx.active := by rw [htx]; rfl
  have hgood := h.good c
  cases res with
  | ok =>
    -- the bytes in the buffer are those of the call
    have hframe : (w.bufOf c).frame = some c := h.active c hactive
    have hwrite : w.writePort c .ok = w.setCall c
        { w.calls c with
          wrote := true, inTime := (w.calls c).inTime || (w.calls c).wait.waiting
          tx := .done .test .doneSuccess .written } := by
      simp [writePort, markWritten, hframe, World.setTx, World.setCall]
    rw [hwrite]
    exact h.setCall rfl nofun (fun _ => hactive) (hgood.writeOk htx)
  | err =>
    refine h.setCall rfl nofun (fun _ => hactive) (hgood.writeErr htx (.inr rfl) nofun ?_)
    split <;> simp
  | hwNotReady =>
    unfold writePort
    dsimp only
    split
    · exact h.setCall rfl nofun (fun _ => hactive) (hgood.writeErr htx (.inr rfl) nofun nofun)
    · exact h.setCall rfl nofun (fun _ => hactive) (hgood.writeErr htx (.inl rfl) nofun nofun)

/-! ## 6. Taking a buffer -/

theorem finished_of_unused {b : BufId} (hunused : w.unused b = true) {d : CallId}
    (hd : (w.bufs b).frame = some d) : (w.calls d).tx = .finished := by
  unfold unused at hunused
  rw [hd] at hunused
  simpa using hunused

/-- The pointer of a buffer that was given back is NULL. -/
theorem Inv.null_of_unused (h : w.Inv) {b : BufId} (hunused : w.unused b = true) :
    (w.bufs b).sctx = none := by
  cases hd : (w.bufs b).sctx with
  | none => rfl
  | some d =>
    have hframe := h.sctx b d hd
    have hlinked : w.Linked d := by
      unfold Linked bufOf
      rw [(h.frame b d hframe).1]
      exact hd
    have hholding := (h.good d).linkedTx hlinked
    rw [finished_of_unused hunused hframe] at hholding
    cases hholding

theorem Inv.alloc (h : w.Inv) {b : BufId} (hunused : w.unused b = true)
    (htx : (w.calls c).tx = .idle) (beacon : Bool) :
    ((w.setBuf b { w.bufs b with frame := some c, free := false }).setCall c
      { w.calls c with
        buf := b, beacon := beacon, tx := .done .guard .doneBufAlloc .allocated }).Inv := by
  have hnull := h.null_of_unused hunused
  generalize hy : { w.bufs b with frame := some c, free := false } = y
  generalize hx : { w.calls c with
    buf := b, beacon := beacon, tx := .done .guard .doneBufAlloc .allocated } = x
  generalize hw' : (w.setBuf b y).setCall c x = w'
  have hself : w'.calls c = x := hw' ▸ setCall_self ..
  have hothers : ∀ {d}, d ≠ c → w'.calls d = w.calls d := fun hne => hw' ▸ setCall_of_ne _ _ hne
  have hown : w'.bufs b = y := hw' ▸ setBuf_self ..
  have hbufs : ∀ {b'}, b' ≠ b → w'.bufs b' = w.bufs b' := fun hne => hw' ▸ setBuf_of_ne _ _ hne
  have hptr : ∀ b', (w'.bufs b').sctx = (w.bufs b').sctx := by
    intro b'
    rcases eq_or_ne b' b with rfl | hne
    · rw [hown, ← hy]
    · rw [hbufs hne]
  refine { fault := hw' ▸ h.fault, frame := ?_, sctx := ?_, active := ?_, good := ?_ }
  · intro b' d hd
    rcases eq_or_ne b' b with rfl | hne
    · rw [hown, ← hy] at hd
      obtain rfl := Option.some.inj hd
      rw [hself, ← hx]
      exact ⟨rfl, nofun⟩
    · rw [hbufs hne] at hd
      have hold := h.frame b' d hd
      rwa [hothers (show d ≠ c by rintro rfl; exact hold.2 htx)]
  · intro b' d hd
    rw [hptr] at hd
    have hne : b' ≠ b := by
      rintro rfl
      rw [hnull] at hd
      cases hd
    rw [hbufs hne]
    exact h.sctx b' d hd
  · intro d hd
    unfold bufOf
    rcases eq_or_ne d c with rfl | hne
    · rw [hself, ← hx]
      dsimp only
      rw [hown, ← hy]
    · rw [hothers hne] at hd ⊢
      have hframe : (w.bufs (w.calls d).buf).frame = some d := h.active d hd
      have hneb : (w.calls d).buf ≠ b := by
        intro heq
        rw [heq] at hframe
        rw [finished_of_unused hunused hframe] at hd
        cases hd
      rwa [hbufs hneb]
  · intro d
    unfold Linked bufOf
    rw [hptr]
    rcases eq_or_ne d c with rfl | hne
    · rw [hself, ← hx]
      dsimp only
      rw [show ((w.bufs b).sctx = some d) = False by simp [hnull]]
      exact (h.good d).alloc htx b beacon
    · rw [hothers hne]
      exact h.good d

/-! ## 7. Every run -/

theorem queued_active {tx : TxPc} (h : tx.queued) : tx.active := by
  cases tx <;> simp_all

theorem queued_ne_idle {tx : TxPc} (h : tx.queued) : tx ≠ .idle := by
  cases tx <;> simp_all

/-- The frame moves between its owner, the queue and the writer. -/
theorem Inv.move (h : w.Inv) (htx : (w.calls c).tx.queued) {tx : TxPc} (htx' : tx.queued)
    {v : WaitPc} (hwaiting : v.waiting = (w.calls c).wait.waiting)
    (hlinked : v.linked = (w.calls c).wait.linked) (htold : v.told = (w.calls c).wait.told) :
    (w.setCall c { w.calls c with tx := tx, wait := v }).Inv :=
  h.setCall rfl (fun hidle => absurd hidle (queued_ne_idle htx')) (fun _ => queued_active htx)
    ((h.good c).move htx htx' hwaiting hlinked htold)

/-- The frame is given up. -/
theorem Inv.giveBack (h : w.Inv) (htx : (w.calls c).tx.queued) {v : WaitPc}
    (hwaiting : v.waiting = (w.calls c).wait.waiting)
    (hlinked : v.linked = (w.calls c).wait.linked) (htold : v.told = (w.calls c).wait.told) :
    (w.setCall c
      { w.calls c with tx := .done .guard .doneBufFree .freed, wait := v }).Inv :=
  h.setCall rfl nofun (fun _ => queued_active htx)
    ((h.good c).giveBack htx hwaiting hlinked htold)

/-- A waiter clears a pointer that is NULL, or its own while nobody is about to use it. -/
theorem Inv.clear (h : w.Inv) {ret : Bool} (hwait : (w.calls c).wait = .clear ret)
    (hok : w.stepOk (.clear c) = true) :
    ((w.setSctx c none).setCall c { w.calls c with wait := .returned ret }).Inv := by
  have hok : (w.bufOf c).sctx = none ∨
      (w.bufOf c).sctx = some c ∧ w.midDone (w.calls c).buf = false := by
    simpa [stepOk] using hok
  refine h.setNull (hok.imp id And.left) rfl rfl ((h.good c).clear hwait ?_)
  intro hlinked
  have hptr : (w.bufOf c).sctx = some c := hlinked
  rcases hok with hnull | ⟨-, hmid⟩
  · rw [hnull] at hptr
    cases hptr
  · have hframe : (w.bufs (w.calls c).buf).frame = some c := h.sctx _ c hptr
    unfold midDone at hmid
    rwa [hframe] at hmid

theorem Inv.step (h : w.Inv) {a : Act} (hok : w.stepOk a = true) (hstep : w.step a = some w') :
    w'.Inv := by
  cases a with
  | alloc c b beacon =>
    simp only [World.step, Option.ite_none_right_eq_some, Option.some.injEq] at hstep
    obtain ⟨⟨htx, -⟩, rfl⟩ := hstep
    exact h.alloc hok htx beacon
  | discard c =>
    simp only [World.step, Option.ite_none_right_eq_some, Option.some.injEq] at hstep
    obtain ⟨⟨htx, hwait⟩, rfl⟩ := hstep
    exact h.giveBack (by rw [htx]; rfl) (by rw [hwait]; rfl) (by rw [hwait]; rfl)
      (by rw [hwait]; rfl)
  | send c =>
    simp only [World.step, Option.ite_none_right_eq_some, Option.some.injEq] at hstep
    obtain ⟨⟨htx, hwait⟩, rfl⟩ := hstep
    refine h.move (by rw [htx]; rfl) ?_ (by rw [hwait]; rfl) (by rw [hwait]; rfl)
      (by rw [hwait]; rfl)
    split <;> rfl
  | init c =>
    simp only [World.step, Option.ite_none_right_eq_some, Option.some.injEq] at hstep
    obtain ⟨⟨htx, hwait⟩, rfl⟩ := hstep
    exact h.setCall rfl id id ((h.good c).init htx hwait)
  | refuse c =>
    simp only [World.step, Option.ite_none_right_eq_some, Option.some.injEq] at hstep
    obtain ⟨⟨htx, hwait⟩, rfl⟩ := hstep
    exact h.giveBack (by rw [htx]; rfl) (by rw [hwait]; rfl) (by rw [hwait]; rfl)
      (by rw [hwait]; rfl)
  | setSctx c =>
    simp only [World.step, Option.ite_none_right_eq_some, Option.some.injEq] at hstep
    obtain ⟨⟨htx, -⟩, rfl⟩ := hstep
    have hactive : (w.calls c).tx.active := by rw [htx]; rfl
    refine h.act rfl (.inr ⟨h.null_or_own hactive, .inr ⟨rfl, h.active c hactive⟩⟩) rfl id id ?_
    rw [show ((some c : Option CallId) = some c) = True from eq_self _]
    exact (h.good c).setSctx htx
  | mgntXmit c =>
    simp only [World.step, Option.ite_none_right_eq_some, Option.some.injEq] at hstep
    obtain ⟨⟨htx, hwait⟩, rfl⟩ := hstep
    have hqueued : (w.calls c).tx.queued := by rw [htx]; rfl
    split
    · exact h.move (v := (w.calls c).wait) hqueued rfl rfl rfl rfl
    · exact h.move hqueued rfl (by rw [hwait]; rfl) (by rw [hwait]; rfl) (by rw [hwait]; rfl)
  | dequeue c =>
    simp only [World.step, Option.ite_none_right_eq_some, Option.some.injEq] at hstep
    obtain ⟨htx, rfl⟩ := hstep
    exact h.move (v := (w.calls c).wait) (by rw [htx]; rfl) rfl rfl rfl rfl
  | requeue c =>
    simp only [World.step, Option.ite_none_right_eq_some, Option.some.injEq] at hstep
    obtain ⟨⟨htx, -⟩, rfl⟩ := hstep
    exact h.move (v := (w.calls c).wait) (by rw [htx]; rfl) rfl rfl rfl rfl
  | drop c =>
    simp only [World.step, Option.ite_none_right_eq_some, Option.some.injEq] at hstep
    obtain ⟨⟨htx, -⟩, rfl⟩ := hstep
    exact h.giveBack (v := (w.calls c).wait) (by rw [htx]; rfl) rfl rfl rfl
  | write c res =>
    simp only [World.step, Option.ite_none_right_eq_some, Option.some.injEq] at hstep
    obtain ⟨htx, rfl⟩ := hstep
    exact h.write htx res
  | doneErr c =>
    simp only [World.step] at hstep
    split at hstep
    · rename_i stage status k htx
      obtain rfl := Option.some.inj hstep
      exact h.doneErrStep htx
    · cases hstep
  | wake c =>
    simp only [World.step, Option.ite_none_right_eq_some, Option.some.injEq] at hstep
    obtain ⟨⟨hwait, hdone⟩, rfl⟩ := hstep
    exact h.setCall rfl id id ((h.good c).wake hwait hdone)
  | timeout c =>
    simp only [World.step, Option.ite_none_right_eq_some, Option.some.injEq] at hstep
    obtain ⟨⟨hwait, hdone⟩, rfl⟩ := hstep
    exact h.setCall rfl id id ((h.good c).timeout hwait hdone (by simpa [stepOk] using hok))
  | clear c =>
    simp only [World.step] at hstep
    split at hstep
    · rename_i ret hwait
      obtain rfl := Option.some.inj hstep
      exact h.clear hwait hok
    · cases hstep

theorem Inv.run (h : w.Inv) {acts : List Act} (hok : w.runOk acts = true)
    (hrun : w.run acts = some w') : w'.Inv := by
  induction acts generalizing w with
  | nil =>
    obtain rfl := Option.some.inj hrun
    exact h
  | cons a acts ih =>
    cases ha : w.step a with
    | none => simp [World.run, ha] at hrun
    | some w₁ =>
      obtain ⟨hstep, hrest⟩ : w.stepOk a = true ∧ w₁.runOk acts = true := by
        simpa [runOk, ha] using hok
      refine ih (h.step hstep ha) hrest ?_
      simpa [World.run, ha] using hrun

end World

/-! ## 8. The result -/

open World

/-- **A waiter is told of its own frame.**  In every run whose steps are in order, no submit
context is used through NULL or after its function has returned, a call that returns `_SUCCESS`
had its own frame written, and a call whose frame was written in time returns `_SUCCESS`. -/
theorem waiters_told_of_own_frame (tag : BufId → BufTag) (acts : List Act) (w : World)
    (hrun : (start tag).run acts = some w) (hok : (start tag).runOk acts = true) :
    w.fault = false ∧ ∀ c ret, (w.calls c).wait = .returned ret →
      (ret = true → (w.calls c).wrote = true) ∧ ((w.calls c).inTime = true → ret = true) := by
  have hinv := (start_inv tag).run hok hrun
  refine ⟨hinv.fault, ?_⟩
  intro c ret hret
  exact (hinv.good c).told ret (by rw [hret]; rfl)

/-- `n` steps of `rtw_sctx_done_err` and what follows it. -/
def doneErrs (c : CallId) (n : Nat) : List Act := List.replicate n (.doneErr c)

/-- A frame is queued, written and waited for, from the allocation of buffer 0 on. -/
def sendAndWait (c : CallId) : List Act :=
  [.alloc c 0 false, .doneErr c, .init c, .setSctx c, .mgntXmit c, .dequeue c, .write c .ok]
    ++ doneErrs c 7 ++ [.wake c, .clear c]

/-- Two frames one after the other in the same buffer. -/
theorem waiters_told_of_two_frames :
    ∃ w, (start fun _ => .mgnt).run (sendAndWait 0 ++ sendAndWait 1) = some w ∧
      w.fault = false ∧ ∀ c ret, (w.calls c).wait = .returned ret →
        (ret = true → (w.calls c).wrote = true) ∧ ((w.calls c).inTime = true → ret = true) := by
  have hsome : ((start fun _ => .mgnt).run (sendAndWait 0 ++ sendAndWait 1)).isSome := by
    decide +kernel
  obtain ⟨w, hw⟩ := Option.isSome_iff_exists.mp hsome
  exact ⟨w, hw, waiters_told_of_own_frame (fun _ => .mgnt) _ w hw (by decide +kernel)⟩

/-- Call 0 clears the pointer late: its buffer has been given to call 1 meanwhile, which has put
its own context there. -/
def lateClear (beacon : Bool) : List Act :=
  let queue := fun c => if beacon then [] else [.dequeue c]
  [.alloc 0 0 beacon, .doneErr 0, .init 0, .setSctx 0, .mgntXmit 0] ++ queue 0 ++ [.write 0 .ok]
    ++ doneErrs 0 7
    ++ [.alloc 1 0 beacon, .doneErr 1, .init 1, .setSctx 1, .wake 0, .clear 0, .mgntXmit 1]
    ++ queue 1 ++ [.write 1 .ok] ++ doneErrs 1 2 ++ [.timeout 1, .clear 1]

/-- Call 0 gives up between the writer's two uses of its context. -/
def lateUse : List Act :=
  [.alloc 0 0 false, .doneErr 0, .init 0, .setSctx 0, .mgntXmit 0, .dequeue 0, .write 0 .ok]
    ++ doneErrs 0 2 ++ [.timeout 0, .clear 0, .doneErr 0]

/-- Call 1 was written in time and told `_FAIL`. -/
def notTold (w : World) : Bool := (w.calls 1).inTime ∧ (w.calls 1).wait = .returned false

/-- The waiting without the rule.  A frame is written long before its waiter gives up, and the
waiter is not told, with a buffer of the pool and a queued frame as with a command buffer and a
beacon; and a context is used after its function has returned. -/
theorem waiters_not_told :
    (∃ w, (start fun _ => .mgnt).run (lateClear false) = some w ∧ notTold w = true) ∧
    (∃ w, (start fun _ => .cmd).run (lateClear true) = some w ∧ notTold w = true) ∧
    ∃ w, (start fun _ => .mgnt).run lateUse = some w ∧ w.fault = true :=
  ⟨(Option.any_eq_true _ _).mp (by decide +kernel),
    (Option.any_eq_true _ _).mp (by decide +kernel),
    (Option.any_eq_true _ _).mp (by decide +kernel)⟩

end MgntWait

end Rtl8723bs
