/-
# Every run of the acknowledgement waits

The number of a report is not compared, so what keeps calls apart is when reports are handled:
as long as none on another frame gets at `ack_tx_ops` while a call uses it, a call returns
`_SUCCESS` only for a report of success on its own frame that came while it waited, and a report
that comes too late might as well not have come.
-/
import Rtl8723bs.Tx.AckWait

namespace Rtl8723bs

namespace AckWait

/-! ## 1. Whose report -/

/-- A call has the mutex. -/
def CallPc.holds : CallPc → Bool
  | .idle | .lock | .returned => false
  | _ => true

/-- The call has set the status and has not read it. -/
def CallPc.needsStatus : CallPc → Bool
  | .xmit | .wait | .readStatus => true
  | _ => false

/-- The call has cleared the completion and has not taken one. -/
def CallPc.needsDone : CallPc → Bool
  | .initStatus | .xmit | .wait => true
  | _ => false

/-- The frame is not handed over yet. -/
def CallPc.before : CallPc → Bool
  | .wait | .readStatus | .clearAckTx | .unlock | .returned => false
  | _ => true

/-- Who needs the status holds the mutex, and waits or has not sent the frame. -/
@[grind →] theorem needsStatus_cases {pc : CallPc} (h : pc.needsStatus = true) :
    pc.holds = true ∧ (pc.waiting = true ∨ pc.before = true) := by
  cases pc <;> simp_all [CallPc.needsStatus, CallPc.holds, CallPc.waiting, CallPc.before]

@[grind →] theorem needsDone_holds {pc : CallPc} (h : pc.needsDone = true) : pc.holds = true := by
  cases pc <;> simp_all [CallPc.needsDone, CallPc.holds]

/-- A report gets at the context only when it is on the frame of the call that uses it, or no
call does. -/
def stepOk (w : World) : Act → Bool
  | .handle r =>
    match w.mutex with
    | none => true
    | some c =>
      (w.rpts r).frame = c ||
        !(((w.rpts r).pc = .store && (w.calls c).pc.needsStatus) ||
          ((w.rpts r).pc = .complete && (w.calls c).pc.needsDone))
  | _ => true

/-- Every step of a run is. -/
def runOk (w : World) : List Act → Bool
  | [] => true
  | a :: acts => stepOk w a &&
    match w.step a with
    | none => true
    | some w' => runOk w' acts

attribute [grind =] CallPc.before CallPc.holds CallPc.needsStatus CallPc.needsDone CallPc.waiting CallPc.over
  SubmitCtx.store_status SubmitCtx.store_done SubmitCtx.complete_status SubmitCtx.complete_done
  SubmitCtx.take_status SubmitCtx.take_done

section Fields

variable (w : World) (c d : CallId) (r s : RptId) (x : Call) (y : Rpt)

@[grind =] theorem setCall_calls : (w.setCall c x).calls d = if d = c then x else w.calls d :=
  Function.update_apply w.calls c x d

@[grind =] theorem setRpt_rpts : (w.setRpt r y).rpts s = if s = r then y else w.rpts s :=
  Function.update_apply w.rpts r y s

@[simp, grind =] theorem setCall_rpts : (w.setCall c x).rpts r = w.rpts r := rfl

@[simp, grind =] theorem setRpt_calls : (w.setRpt r y).calls c = w.calls c := rfl

@[simp, grind =] theorem setCall_mutex : (w.setCall c x).mutex = w.mutex := rfl

@[simp, grind =] theorem setRpt_mutex : (w.setRpt r y).mutex = w.mutex := rfl

@[simp, grind =] theorem setCall_ops : (w.setCall c x).ackTxOps = w.ackTxOps := rfl

@[simp, grind =] theorem setRpt_ops : (w.setRpt r y).ackTxOps = w.ackTxOps := rfl

@[simp, grind =] theorem setCall_ackTx : (w.setCall c x).ackTx = w.ackTx := rfl

@[simp, grind =] theorem setRpt_ackTx : (w.setRpt r y).ackTx = w.ackTx := rfl

@[simp, grind =] theorem setCall_seqNo : (w.setCall c x).seqNo = w.seqNo := rfl

@[simp, grind =] theorem setRpt_seqNo : (w.setRpt r y).seqNo = w.seqNo := rfl

@[simp, grind =] theorem setCall_nextSeq : (w.setCall c x).nextSeq = w.nextSeq := rfl

@[simp, grind =] theorem setRpt_nextSeq : (w.setRpt r y).nextSeq = w.nextSeq := rfl

@[simp, grind =] theorem status_pc (y : Rpt) (pc : RptPc) :
    Rpt.status { y with pc := pc } = y.status := rfl

end Fields

/-- A handler that meets a call in the middle is on its frame. -/
theorem stepOk_handle {w : World} {r : RptId} (hok : stepOk w (.handle r) = true) {c : CallId}
    (hmutex : w.mutex = some c) :
    (w.rpts r).frame = c ∨ ((w.rpts r).pc = .store → (w.calls c).pc.needsStatus = false) ∧
      ((w.rpts r).pc = .complete → (w.calls c).pc.needsDone = false) := by
  simp only [stepOk, hmutex] at hok
  grind -ring -linarith

/-! ## 2. The invariant -/

/-- The call that holds the mutex is the only one inside; the status it may read is of success
only if such a report on its frame came while it waited; and what a call returns is so. -/
@[grind cases]
structure Inv (w : World) : Prop where
  holder : ∀ c, (w.calls c).pc.holds = decide (w.mutex = some c)
  fresh : ∀ c, (w.calls c).pc.before → (w.calls c).sent = false
  status : ∀ c, (w.calls c).pc.needsStatus → w.ackTxOps.status = .doneSuccess →
    (w.calls c).acked = true
  report : ∀ r, (w.rpts r).pc ≠ .idle → (w.calls (w.rpts r).frame).sent = true ∧
    ((w.rpts r).status = .doneSuccess → (w.calls (w.rpts r).frame).pc.waiting →
      (w.calls (w.rpts r).frame).acked = true)
  ret : ∀ c, (w.calls c).ret = success → (w.calls c).acked = true
  values : ∀ c, (w.calls c).pc ≠ .idle ∧ (w.calls c).pc ≠ .returned ∨ (w.calls c).sent = true →
    (w.calls c).ret = success ∨ (w.calls c).ret = fail

theorem inv_start : Inv World.start := by
  constructor <;> simp [World.start, Call.idle, Rpt.idle, CallPc.holds, CallPc.needsStatus, success]

section Steps

variable {w w' : World}

/-- Two calls inside are one. -/
theorem Inv.inside (h : Inv w) {c d : CallId} (hc : (w.calls c).pc.holds = true)
    (hd : (w.calls d).pc.holds = true) : d = c := by
  have hmutex : w.mutex = some c := by simpa [hc] using h.holder c
  have hmutex' : w.mutex = some d := by simpa [hd] using h.holder d
  exact Option.some.inj (hmutex'.symm.trans hmutex)

/-- What the steps of a call do to the call itself: it notes no acknowledgement, unsends nothing
and does not begin to wait for a frame that was sent before. -/
structure CallStep (x x' : Call) : Prop where
  acked : x'.acked = x.acked
  sent : x.sent = true → x'.sent = true
  waiting : x'.pc.waiting = true → x.pc.waiting = true ∨ x.sent = false
  fresh : x'.pc.before = true → x'.sent = false
  ret : x'.ret = success → x'.acked = true
  values : x'.pc ≠ .idle ∧ x'.pc ≠ .returned ∨ x'.sent = true →
    x'.ret = success ∨ x'.ret = fail

/-- **A step of one call**: what is left to show is who is inside, and the status for those who
are to read it. -/
theorem Inv.call {u : World} (h : Inv w) {c : CallId} {x : Call} (hcalls : u.calls = w.calls)
    (hrpts : u.rpts = w.rpts) (hx : CallStep (w.calls c) x)
    (hholder : x.pc.holds = decide (u.mutex = some c) ∧
      ∀ d, d ≠ c → (w.calls d).pc.holds = decide (u.mutex = some d))
    (hstatus : (x.pc.needsStatus = true → u.ackTxOps.status = .doneSuccess → x.acked = true) ∧
      ∀ d, d ≠ c → (w.calls d).pc.needsStatus = true → u.ackTxOps.status = .doneSuccess →
        (w.calls d).acked = true) :
    Inv (u.setCall c x) := by
  have hmine : (u.setCall c x).calls c = x := by rw [setCall_calls, if_pos rfl]
  have hother : ∀ d, d ≠ c → (u.setCall c x).calls d = w.calls d := by
    intro d hd
    rw [setCall_calls, if_neg hd, hcalls]
  constructor
  · intro d
    by_cases hd : d = c
    · subst hd
      rw [hmine]
      exact hholder.1
    · rw [hother d hd]
      exact hholder.2 d hd
  · intro d
    by_cases hd : d = c
    · subst hd
      rw [hmine]
      exact hx.fresh
    · rw [hother d hd]
      exact h.fresh d
  · intro d
    by_cases hd : d = c
    · subst hd
      rw [hmine]
      exact hstatus.1
    · rw [hother d hd]
      exact hstatus.2 d hd
  · intro r hr
    rw [setCall_rpts, hrpts] at hr ⊢
    obtain ⟨hsent, hacked⟩ := h.report r hr
    by_cases hd : (w.rpts r).frame = c
    · subst hd
      rw [hmine]
      refine ⟨hx.sent hsent, fun hsuccess hwaits => ?_⟩
      rw [hx.acked]
      rcases hx.waiting hwaits with hwaits | hunsent
      · exact hacked hsuccess hwaits
      · rw [hsent] at hunsent
        cases hunsent
    · rw [hother _ hd]
      exact ⟨hsent, hacked⟩
  · intro d
    by_cases hd : d = c
    · subst hd
      rw [hmine]
      exact hx.ret
    · rw [hother d hd]
      exact h.ret d
  · intro d
    by_cases hd : d = c
    · subst hd
      rw [hmine]
      exact hx.values
    · rw [hother d hd]
      exact h.values d

/-- A step of a call that stays inside, or outside; others than the holder read no status. -/
theorem Inv.callInside {u : World} (h : Inv w) {c : CallId} {x : Call} (hcalls : u.calls = w.calls)
    (hrpts : u.rpts = w.rpts) (hmutex : u.mutex = w.mutex) (hx : CallStep (w.calls c) x)
    (hholds : (w.calls c).pc.holds = true ∧ x.pc.holds = true)
    (hstatus : x.pc.needsStatus = true → u.ackTxOps.status = .doneSuccess → x.acked = true) :
    Inv (u.setCall c x) := by
  refine h.call hcalls hrpts hx ⟨?_, fun d _ => ?_⟩ ⟨hstatus, fun d hd hneeds _ => ?_⟩
  · rw [hmutex, ← h.holder c, hholds.1, hholds.2]
  · rw [hmutex, h.holder d]
  · exact absurd (h.inside hholds.1 (needsStatus_cases hneeds).1) hd

/-- The accesses of a call to the flag, the context and the mutex. -/
theorem Inv.go (h : Inv w) {c : CallId} (hgo : w.go c = some w') : Inv w' := by
  have hfresh := h.fresh c
  have hret := h.ret c
  have hvalues := h.values c
  have hstatus := h.status c
  have hholder := h.holder c
  unfold World.go at hgo
  dsimp only at hgo
  split at hgo
  case h_1 hpc =>
    obtain ⟨hmutex, rfl⟩ : w.mutex = none ∧ _ := by simpa using hgo
    have hnone : ∀ d, (w.calls d).pc.holds = false := by simpa [hmutex] using h.holder
    refine h.call rfl rfl ?_ ⟨by simp [CallPc.holds], fun d hd => ?_⟩
      ⟨by simp [CallPc.needsStatus], fun d _ hneeds => ?_⟩
    · constructor <;> simp_all [CallPc.waiting, CallPc.before]
    · rw [hnone d]
      simp [Ne.symm hd]
    · have hholds := (needsStatus_cases hneeds).1
      rw [hnone d] at hholds
      cases hholds
  case h_6 hpc =>
    obtain rfl := Option.some.inj hgo
    refine h.callInside rfl rfl rfl ?_ (by simp [hpc, CallPc.holds]) (by simp [CallPc.needsStatus])
    constructor
    case ret =>
      intro hsuccess
      refine hstatus (by simp [hpc, CallPc.needsStatus]) ?_
      by_contra hnot
      simp [SubmitCtx.woken, hnot, fail, success] at hsuccess
    case values =>
      intro _
      dsimp only
      split
      · exact .inl rfl
      · exact .inr rfl
    all_goals simp_all [CallPc.waiting, CallPc.before]
  case h_8 hpc =>
    obtain rfl := Option.some.inj hgo
    have hmutex : w.mutex = some c := by simpa [hpc, CallPc.holds] using hholder
    refine h.call rfl rfl ?_ ⟨by simp [CallPc.holds], fun d hd => ?_⟩
      ⟨by simp [CallPc.needsStatus], fun d _ => h.status d⟩
    · constructor <;> simp_all [CallPc.waiting, CallPc.before]
    · simpa [hmutex, Ne.symm hd] using h.holder d
  case h_9 => cases hgo
  all_goals
    rename_i hpc
    obtain rfl := Option.some.inj hgo
    refine h.callInside rfl rfl rfl ?_ (by simp [hpc, CallPc.holds]) ?_
    · constructor <;> simp_all [CallPc.waiting, CallPc.before]
    · simp_all [CallPc.needsStatus]

/-- A step of a call outside that does not come in, with everything else as it is. -/
theorem Inv.callOutside (h : Inv w) {c : CallId} {x : Call} (hx : CallStep (w.calls c) x)
    (hholds : (w.calls c).pc.holds = false ∧ x.pc.holds = false) : Inv (w.setCall c x) := by
  refine h.call rfl rfl hx ⟨?_, fun d _ => h.holder d⟩ ⟨fun hneeds => ?_, fun d _ => h.status d⟩
  · rw [← h.holder c, hholds.1, hholds.2]
  · have hin := (needsStatus_cases hneeds).1
    rw [hholds.2] at hin
    cases hin

theorem Inv.enter (h : Inv w) {c : CallId} (hpc : (w.calls c).pc = .idle) (timeoutMs : Nat)
    (cannotRun : Bool) : Inv (w.enter c timeoutMs cannotRun) := by
  have hfresh := h.fresh c
  unfold World.enter
  split
  all_goals
    refine h.callOutside ?_ (by simp [hpc, CallPc.holds])
    constructor <;> simp_all [CallPc.waiting, CallPc.before, success, fail]

theorem Inv.xmit (h : Inv w) {c : CallId} (hpc : (w.calls c).pc = .xmit) (ok : Bool) :
    Inv (w.xmit c ok) := by
  have hfresh := h.fresh c
  have hret := h.ret c
  have hvalues := h.values c
  have hstatus := h.status c
  unfold World.xmit
  dsimp only
  split
  all_goals
    refine h.callInside rfl rfl rfl ?_ (by simp [hpc, CallPc.holds]) ?_
    · constructor <;> simp_all [CallPc.waiting, CallPc.before]
    · simp_all [CallPc.needsStatus]

theorem Inv.wake (h : Inv w) {c : CallId} (hpc : (w.calls c).pc = .wait) : Inv (w.wake c) := by
  have hret := h.ret c
  have hvalues := h.values c
  have hstatus := h.status c
  refine h.callInside rfl rfl rfl ?_ (by simp [hpc, CallPc.holds]) ?_
  · constructor <;> simp_all [CallPc.waiting, CallPc.before]
  · simp_all [CallPc.needsStatus]

theorem Inv.timeout (h : Inv w) {c : CallId} (hpc : (w.calls c).pc = .wait) :
    Inv (w.timeout c) := by
  have hret := h.ret c
  have hvalues := h.values c
  refine h.callInside rfl rfl rfl ?_ (by simp [hpc, CallPc.holds]) (by simp [CallPc.needsStatus])
  constructor <;> simp_all [CallPc.waiting, CallPc.before]

/-- A report comes: one of success on a call that waits is noted there. -/
theorem Inv.deliver (h : Inv w) (r : RptId) {frame : CallId} (header : UInt8)
    (hsent : (w.calls frame).sent = true) :
    Inv (w.deliver r frame header) := by
  unfold World.deliver
  constructor <;> grind -ring -linarith

/-- The handler of a report on the frame of the call that uses the context. -/
theorem Inv.handle (h : Inv w) {r : RptId} (hok : stepOk w (.handle r) = true)
    (hhandle : w.handle r = some w') : Inv w' := by
  unfold World.handle at hhandle
  dsimp only at hhandle
  have hmine := fun c => @stepOk_handle w r hok c
  split at hhandle
  case h_4 => cases hhandle
  all_goals
    obtain rfl := Option.some.inj hhandle
    constructor <;> grind -ring -linarith

end Steps

/-- **One step keeps the invariant**, if no other report gets at the context. -/
theorem Inv.step {w w' : World} (h : Inv w) {a : Act} (hok : stepOk w a = true)
    (hstep : w.step a = some w') : Inv w' := by
  cases a with
  | enter c timeoutMs cannotRun =>
    simp only [World.step, Option.ite_none_right_eq_some, Option.some.injEq] at hstep
    obtain ⟨hpc, rfl⟩ := hstep
    exact h.enter hpc timeoutMs cannotRun
  | go c => exact h.go hstep
  | xmit c ok =>
    simp only [World.step, Option.ite_none_right_eq_some, Option.some.injEq] at hstep
    obtain ⟨hpc, rfl⟩ := hstep
    exact h.xmit hpc ok
  | wake c =>
    simp only [World.step, Option.ite_none_right_eq_some, Option.some.injEq] at hstep
    obtain ⟨⟨hpc, -⟩, rfl⟩ := hstep
    exact h.wake hpc
  | timeout c =>
    simp only [World.step, Option.ite_none_right_eq_some, Option.some.injEq] at hstep
    obtain ⟨⟨hpc, -⟩, rfl⟩ := hstep
    exact h.timeout hpc
  | deliver r frame header =>
    simp only [World.step, Option.ite_none_right_eq_some, Option.some.injEq] at hstep
    obtain ⟨⟨-, hsent⟩, rfl⟩ := hstep
    exact h.deliver r header hsent
  | handle r => exact h.handle hok hstep

theorem Inv.run {w w' : World} (h : Inv w) {acts : List Act} (hok : runOk w acts = true)
    (hrun : w.run acts = some w') : Inv w' := by
  induction acts generalizing w with
  | nil =>
    cases hrun
    exact h
  | cons a acts ih =>
    obtain ⟨w₁, hstep, hrun⟩ := Option.bind_eq_some_iff.mp hrun
    simp only [runOk, hstep, Bool.and_eq_true] at hok
    exact ih (h.step hok.1 hstep) hok.2 hrun

/-! ## 3. Where an acknowledgement comes from -/

/-- A report of success on the frame of a call has come. -/
def World.reported (w : World) (c : CallId) : Prop :=
  ∃ r, (w.rpts r).pc ≠ .idle ∧ (w.rpts r).frame = c ∧ (w.rpts r).status = .doneSuccess

/-- A step of a call. -/
def Act.isCall : Act → Bool
  | .deliver .. | .handle _ => false
  | _ => true

/-- A step of a call touches no report, notes no acknowledgement, and one that has stopped waiting
does not wait again. -/
theorem step_call {w w' : World} {a : Act} (ha : a.isCall = true) (hstep : w.step a = some w') :
    (∀ r, w'.rpts r = w.rpts r) ∧ ∀ c, (w'.calls c).acked = (w.calls c).acked ∧
      ((w.calls c).pc.over = true → (w'.calls c).pc.over = true) := by
  cases a with
  | deliver r frame header => cases ha
  | handle r => cases ha
  | enter c timeoutMs cannotRun =>
    simp only [World.step, Option.ite_none_right_eq_some, Option.some.injEq, World.enter] at hstep
    obtain ⟨hpc, rfl⟩ := hstep
    split <;> constructor <;> grind -ring -linarith
  | go c =>
    unfold World.step World.go at hstep
    dsimp only at hstep
    split at hstep
    case h_1 =>
      simp only [Option.ite_none_right_eq_some, Option.some.injEq] at hstep
      obtain ⟨-, rfl⟩ := hstep
      constructor <;> grind -ring -linarith
    case h_9 => cases hstep
    all_goals
      obtain rfl := Option.some.inj hstep
      constructor <;> grind -ring -linarith
  | xmit c ok =>
    simp only [World.step, Option.ite_none_right_eq_some, Option.some.injEq, World.xmit] at hstep
    obtain ⟨hpc, rfl⟩ := hstep
    split <;> constructor <;> grind -ring -linarith
  | wake c =>
    simp only [World.step, Option.ite_none_right_eq_some, Option.some.injEq, World.wake] at hstep
    obtain ⟨hpc, rfl⟩ := hstep
    constructor <;> grind -ring -linarith
  | timeout c =>
    simp only [World.step, Option.ite_none_right_eq_some, Option.some.injEq, World.timeout] at hstep
    obtain ⟨hpc, rfl⟩ := hstep
    constructor <;> grind -ring -linarith

/-- What a step does to reports, and to what is noted of them in calls. -/
theorem step_rpts {w w' : World} {a : Act} (hstep : w.step a = some w') :
    (∀ r, (w.rpts r).pc ≠ .idle → (w'.rpts r).pc ≠ .idle ∧
      (w'.rpts r).frame = (w.rpts r).frame ∧ (w'.rpts r).status = (w.rpts r).status) ∧
    ∀ c, (w'.calls c).acked = true → (w.calls c).acked = true ∨ w'.reported c := by
  by_cases ha : a.isCall = true
  · obtain ⟨hrpts, hcalls⟩ := step_call ha hstep
    refine ⟨fun r hr => by simp [hrpts, hr], fun c hc => .inl ((hcalls c).1 ▸ hc)⟩
  cases a with
  | deliver r frame header =>
    simp only [World.step, Option.ite_none_right_eq_some, Option.some.injEq] at hstep
    obtain ⟨⟨hpc, -⟩, rfl⟩ := hstep
    unfold World.deliver World.reported
    refine ⟨by grind -ring -linarith, fun c hacked => ?_⟩
    by_cases hold : (w.calls c).acked = true
    · exact .inl hold
    · refine .inr ⟨r, ?_⟩
      grind -ring -linarith
  | handle r =>
    unfold World.step World.handle at hstep
    dsimp only at hstep
    split at hstep
    case h_4 => cases hstep
    all_goals
      obtain rfl := Option.some.inj hstep
      constructor <;> grind -ring -linarith
  | _ => exact absurd rfl ha

/-- A call that was acknowledged has a report of success on its frame. -/
theorem run_reported {w w' : World} (h : ∀ c, (w.calls c).acked = true → w.reported c)
    {acts : List Act} (hrun : w.run acts = some w') :
    ∀ c, (w'.calls c).acked = true → w'.reported c := by
  induction acts generalizing w with
  | nil =>
    cases hrun
    exact h
  | cons a acts ih =>
    obtain ⟨w₁, hstep, hrun⟩ := Option.bind_eq_some_iff.mp hrun
    obtain ⟨hrpts, hacked⟩ := step_rpts hstep
    refine ih (fun c hc => ?_) hrun
    rcases hacked c hc with hold | hnew
    · obtain ⟨r, hpc, hframe, hstatus⟩ := h c hold
      obtain ⟨hpc', hframe', hstatus'⟩ := hrpts r hpc
      exact ⟨r, hpc', hframe'.trans hframe, hstatus'.trans hstatus⟩
    · exact hnew

/-! ## 4. Reports that come too late -/

/-- A step of a report that came after its call had stopped waiting. -/
def World.isLate (w : World) : Act → Bool
  | .deliver _ frame _ => (w.calls frame).pc.over
  | .handle r => (w.rpts r).late
  | _ => false

/-- A run without the reports that come too late. -/
def dropLate (w : World) : List Act → List Act
  | [] => []
  | a :: acts =>
    match w.step a with
    | none => []
    | some w' => if w.isLate a then dropLate w' acts else a :: dropLate w' acts

/-- Two worlds that differ by reports that came too late: in the reports, and in what no call
needs of the context. -/
@[grind cases]
structure Same (w v : World) : Prop where
  ackTx : v.ackTx = w.ackTx
  seqNo : v.seqNo = w.seqNo
  nextSeq : v.nextSeq = w.nextSeq
  mutex : v.mutex = w.mutex
  calls : ∀ c, v.calls c = w.calls c
  rpts : ∀ r, (w.rpts r).late = false → v.rpts r = w.rpts r
  status : ∀ c, (w.calls c).pc.needsStatus → v.ackTxOps.status = w.ackTxOps.status
  done : ∀ c, (w.calls c).pc.needsDone → v.ackTxOps.done = w.ackTxOps.done

/-- The call of a report that came too late does not wait, and one that has not come is not
late. -/
@[grind cases]
structure LateOver (w : World) : Prop where
  frame : ∀ r, (w.rpts r).late = true → (w.calls (w.rpts r).frame).pc.over = true
  idle : ∀ r, (w.rpts r).pc = .idle → (w.rpts r).late = false

theorem LateOver.step {w w' : World} (h : LateOver w) {a : Act} (hstep : w.step a = some w') :
    LateOver w' := by
  by_cases ha : a.isCall = true
  · obtain ⟨hrpts, hcalls⟩ := step_call ha hstep
    constructor <;> grind -ring -linarith
  cases a with
  | deliver r frame header =>
    simp only [World.step, Option.ite_none_right_eq_some, Option.some.injEq] at hstep
    obtain ⟨⟨hpc, -⟩, rfl⟩ := hstep
    unfold World.deliver
    constructor <;> grind -ring -linarith
  | handle r =>
    unfold World.step World.handle at hstep
    dsimp only at hstep
    split at hstep
    case h_4 => cases hstep
    all_goals
      obtain rfl := Option.some.inj hstep
      constructor <;> grind -ring -linarith
  | _ => exact absurd rfl ha

theorem over_needs {pc : CallPc} (h : pc.over = true) :
    pc.needsStatus = false ∧ pc.needsDone = false := by
  cases pc <;> simp_all [CallPc.over, CallPc.needsStatus, CallPc.needsDone]

/-- A late report moves on in one of two worlds: it may touch what no call needs. -/
theorem Same.lateRpt {w v : World} (h : Same w v) {r : RptId} (hlate : (w.rpts r).late = true)
    {ops : SubmitCtx} {x : Rpt} (hx : x.late = (w.rpts r).late)
    (hstatus : ops.status = w.ackTxOps.status ∨ ∀ c, (w.calls c).pc.needsStatus = false)
    (hdone : ops.done = w.ackTxOps.done ∨ ∀ c, (w.calls c).pc.needsDone = false) :
    Same ({ w with ackTxOps := ops }.setRpt r x) v := by
  refine ⟨h.ackTx, h.seqNo, h.nextSeq, h.mutex, h.calls, fun s hs => ?_, fun c hc => ?_,
    fun c hc => ?_⟩
  · rw [setRpt_rpts] at hs ⊢
    split at hs
    · rw [hx, hlate] at hs
      cases hs
    · rename_i hsr
      rw [if_neg hsr, h.rpts s hs]
  · rcases hstatus with hstatus | hstatus
    · exact (h.status c hc).trans hstatus.symm
    · exact absurd hc (by simp [hstatus c])
  · rcases hdone with hdone | hdone
    · exact (h.done c hc).trans hdone.symm
    · exact absurd hc (by simp [hdone c])

/-- **A report that comes too late** changes nothing that a call needs. -/
theorem Same.late {w w' v : World} (h : Same w v) (hinv : Inv w) (hlate : LateOver w) {a : Act}
    (hisLate : w.isLate a = true) (hok : stepOk w a = true) (hstep : w.step a = some w') :
    Same w' v := by
  cases a with
  | deliver r frame header =>
    simp only [World.step, Option.ite_none_right_eq_some, Option.some.injEq] at hstep
    obtain ⟨⟨hpc, -⟩, rfl⟩ := hstep
    have hover : (w.calls frame).pc.over = true := hisLate
    have hwaiting : (w.calls frame).pc.waiting = false := by
      cases hpc : (w.calls frame).pc <;> simp_all [CallPc.over, CallPc.waiting]
    unfold World.deliver
    dsimp only
    rw [hwaiting, Bool.false_and, Bool.or_false]
    change Same ((w.setRpt r _).setCall frame (w.calls frame)) v
    constructor <;> grind -ring -linarith
  | handle r =>
    have hframe := hlate.frame r hisLate
    -- who is inside is not the call of the report, which is over
    have hmine : ∀ c, (w.calls c).pc.holds = true →
        ((w.rpts r).pc = .store → (w.calls c).pc.needsStatus = false) ∧
        ((w.rpts r).pc = .complete → (w.calls c).pc.needsDone = false) := by
      intro c hholds
      rcases stepOk_handle hok (by simpa [hholds] using hinv.holder c) with hsame | hmeets
      · rw [hsame] at hframe
        exact ⟨fun _ => (over_needs hframe).1, fun _ => (over_needs hframe).2⟩
      · exact hmeets
    unfold World.step World.handle at hstep
    dsimp only at hstep
    split at hstep
    case h_4 => cases hstep
    all_goals
      rename_i hpc
      obtain rfl := Option.some.inj hstep
    · exact h.lateRpt hisLate rfl (.inl rfl) (.inl rfl)
    · refine h.lateRpt hisLate rfl (.inr fun c => ?_) (.inl rfl)
      by_contra hneeds
      have hneeds : (w.calls c).pc.needsStatus = true := by simpa using hneeds
      have hnot := (hmine c (needsStatus_cases hneeds).1).1 hpc
      rw [hneeds] at hnot
      cases hnot
    · refine h.lateRpt hisLate rfl (.inl rfl) (.inr fun c => ?_)
      by_contra hneeds
      have hneeds : (w.calls c).pc.needsDone = true := by simpa using hneeds
      have hnot := (hmine c (needsDone_holds hneeds)).2 hpc
      rw [hneeds] at hnot
      cases hnot
  | enter c timeoutMs cannotRun => cases hisLate
  | go c => cases hisLate
  | xmit c ok => cases hisLate
  | wake c => cases hisLate
  | timeout c => cases hisLate

section Step

variable {w w' v : World}

/-- A step of one call in both worlds, with the same effect on flag, numbers and mutex.  Either
the context stays as it is, or no other call is inside. -/
theorem Same.call {u t : World} (h : Same w v) {c : CallId} {x : Call}
    (hw : u.calls = w.calls ∧ u.rpts = w.rpts) (hv : t.calls = v.calls ∧ t.rpts = v.rpts)
    (hflags : t.ackTx = u.ackTx ∧ t.seqNo = u.seqNo ∧ t.nextSeq = u.nextSeq ∧ t.mutex = u.mutex)
    (hstatus : x.pc.needsStatus = true → t.ackTxOps.status = u.ackTxOps.status)
    (hdone : x.pc.needsDone = true → t.ackTxOps.done = u.ackTxOps.done)
    (hothers : (t.ackTxOps = v.ackTxOps ∧ u.ackTxOps = w.ackTxOps) ∨
      ∀ d, d ≠ c → (w.calls d).pc.holds = false) :
    Same (u.setCall c x) (t.setCall c x) := by
  have hcalls : ∀ d, (t.setCall c x).calls d = (u.setCall c x).calls d := by
    intro d
    rw [setCall_calls, setCall_calls, hw.1, hv.1, h.calls d]
  refine ⟨hflags.1, hflags.2.1, hflags.2.2.1, hflags.2.2.2, hcalls, ?_, ?_, ?_⟩
  · intro r hr
    rw [setCall_rpts, hw.2] at hr
    rw [setCall_rpts, setCall_rpts, hw.2, hv.2, h.rpts r hr]
  · intro d hneeds
    rw [setCall_calls, hw.1] at hneeds
    split at hneeds
    · exact hstatus hneeds
    · rename_i hd
      rcases hothers with ⟨ht, hu⟩ | hothers
      · rw [setCall_ops, setCall_ops, ht, hu, h.status d hneeds]
      · exact absurd (hothers d hd) (by simp [(needsStatus_cases hneeds).1])
  · intro d hneeds
    rw [setCall_calls, hw.1] at hneeds
    split at hneeds
    · exact hdone hneeds
    · rename_i hd
      rcases hothers with ⟨ht, hu⟩ | hothers
      · rw [setCall_ops, setCall_ops, ht, hu, h.done d hneeds]
      · exact absurd (hothers d hd) (by simp [needsDone_holds hneeds])

/-- The same is noted of a report in both. -/
theorem Same.setRpt (h : Same w v) {r : RptId} {x : Rpt} : Same (w.setRpt r x) (v.setRpt r x) := by
  refine ⟨h.ackTx, h.seqNo, h.nextSeq, h.mutex, h.calls, fun s hs => ?_, h.status, h.done⟩
  rw [setRpt_rpts] at hs ⊢
  rw [setRpt_rpts]
  split at hs
  · rename_i hsr
    rw [if_pos hsr, if_pos hsr]
  · rename_i hsr
    rw [if_neg hsr, if_neg hsr, h.rpts s hs]

theorem Same.go (h : Same w v) (hinv : Inv w) {c : CallId} (hgo : w.go c = some w') :
    ∃ v', v.go c = some v' ∧ Same w' v' := by
  have hc := h.calls c
  have hstatus := h.status c
  have hdone := h.done c
  have hflags := And.intro h.ackTx (And.intro h.seqNo (And.intro h.nextSeq h.mutex))
  unfold World.go at hgo ⊢
  rw [hc]
  dsimp only at hgo ⊢
  split at hgo
  case h_1 hpc =>
    obtain ⟨hmutex, rfl⟩ : w.mutex = none ∧ _ := by simpa using hgo
    rw [if_pos (h.mutex.trans hmutex)]
    refine ⟨_, rfl, h.call ⟨rfl, rfl⟩ ⟨rfl, rfl⟩ ?_ ?_ ?_ (.inl ⟨rfl, rfl⟩)⟩
    all_goals simp_all [CallPc.needsStatus, CallPc.needsDone]
  case h_6 hpc =>
    obtain rfl := Option.some.inj hgo
    have hwoken : v.ackTxOps.woken = w.ackTxOps.woken := by
      simp only [SubmitCtx.woken, hstatus (by simp [hpc, CallPc.needsStatus])]
    rw [hwoken]
    refine ⟨_, rfl, h.call ⟨rfl, rfl⟩ ⟨rfl, rfl⟩ hflags ?_ ?_ (.inl ⟨rfl, rfl⟩)⟩
    all_goals simp [CallPc.needsStatus, CallPc.needsDone]
  case h_9 => cases hgo
  all_goals
    rename_i hpc
    have hothers : ∀ d, d ≠ c → (w.calls d).pc.holds = false := fun d hd =>
      Bool.eq_false_iff.mpr fun hholds =>
        hd (hinv.inside (by simp [hpc, CallPc.holds]) hholds)
    obtain rfl := Option.some.inj hgo
    refine ⟨_, rfl, h.call ⟨rfl, rfl⟩ ⟨rfl, rfl⟩ ?_ ?_ ?_ (.inr hothers)⟩
    all_goals simp_all [CallPc.needsStatus, CallPc.needsDone]

theorem Same.handle (h : Same w v) {r : RptId} (hnot : (w.rpts r).late = false)
    (hhandle : w.handle r = some w') : ∃ v', v.handle r = some v' ∧ Same w' v' := by
  have hr := h.rpts r hnot
  unfold World.handle at hhandle ⊢
  rw [hr]
  dsimp only at hhandle ⊢
  split at hhandle
  case h_4 => cases hhandle
  all_goals
    obtain rfl := Option.some.inj hhandle
    refine ⟨_, rfl, ?_⟩
    constructor <;> grind -ring -linarith

/-- A step that is none of a late report can be taken without the late reports. -/
theorem Same.step (h : Same w v) (hinv : Inv w) (hlate : LateOver w) {a : Act}
    (hnot : w.isLate a = false) (hstep : w.step a = some w') :
    ∃ v', v.step a = some v' ∧ Same w' v' := by
  have hcalls := h.calls
  have hflags := And.intro h.ackTx (And.intro h.seqNo (And.intro h.nextSeq h.mutex))
  cases a with
  | enter c timeoutMs cannotRun =>
    simp only [World.step, Option.ite_none_right_eq_some, Option.some.injEq, World.enter] at hstep
    obtain ⟨hpc, rfl⟩ := hstep
    refine ⟨_, if_pos (by rw [hcalls, hpc]), ?_⟩
    unfold World.enter
    rw [hcalls]
    split
    all_goals
      exact h.call ⟨rfl, rfl⟩ ⟨rfl, rfl⟩ hflags (by simp [CallPc.needsStatus])
        (by simp [CallPc.needsDone]) (.inl ⟨rfl, rfl⟩)
  | go c => exact h.go hinv hstep
  | xmit c ok =>
    simp only [World.step, Option.ite_none_right_eq_some, Option.some.injEq, World.xmit] at hstep
    obtain ⟨hpc, rfl⟩ := hstep
    have hstatus := h.status c (by simp [hpc, CallPc.needsStatus])
    have hdone := h.done c (by simp [hpc, CallPc.needsDone])
    refine ⟨_, if_pos (by rw [hcalls, hpc]), ?_⟩
    unfold World.xmit
    rw [hcalls, h.seqNo]
    split
    all_goals
      exact h.call ⟨rfl, rfl⟩ ⟨rfl, rfl⟩ hflags (fun _ => hstatus)
        (fun _ => hdone) (.inl ⟨rfl, rfl⟩)
  | wake c =>
    simp only [World.step, Option.ite_none_right_eq_some, Option.some.injEq, World.wake] at hstep
    obtain ⟨⟨hpc, hdone⟩, rfl⟩ := hstep
    have hstatus := h.status c (by simp [hpc, CallPc.needsStatus])
    have hdone' := h.done c (by simp [hpc, CallPc.needsDone])
    have hothers : ∀ d, d ≠ c → (w.calls d).pc.holds = false := fun d hd =>
      Bool.eq_false_iff.mpr fun hholds =>
        hd (hinv.inside (by simp [hpc, CallPc.holds]) hholds)
    refine ⟨_, if_pos ⟨by rw [hcalls, hpc], by omega⟩, ?_⟩
    unfold World.wake
    rw [hcalls]
    exact h.call ⟨rfl, rfl⟩ ⟨rfl, rfl⟩ hflags (fun _ => by simp [hstatus])
      (by simp [CallPc.needsDone]) (.inr hothers)
  | timeout c =>
    simp only [World.step, Option.ite_none_right_eq_some, Option.some.injEq, World.timeout] at hstep
    obtain ⟨hpc, rfl⟩ := hstep
    refine ⟨_, if_pos (by rwa [hcalls]), ?_⟩
    unfold World.timeout
    rw [hcalls]
    exact h.call ⟨rfl, rfl⟩ ⟨rfl, rfl⟩ hflags (by simp [CallPc.needsStatus])
      (by simp [CallPc.needsDone]) (.inl ⟨rfl, rfl⟩)
  | deliver r frame header =>
    simp only [World.step, Option.ite_none_right_eq_some, Option.some.injEq] at hstep
    obtain ⟨⟨hpc, hsent⟩, rfl⟩ := hstep
    have hr := h.rpts r (hlate.idle r hpc)
    refine ⟨_, if_pos ⟨by rw [hr, hpc], by rw [hcalls, hsent]⟩, ?_⟩
    unfold World.deliver
    rw [hcalls]
    exact h.setRpt.call ⟨rfl, rfl⟩ ⟨rfl, rfl⟩ hflags (h.status frame) (h.done frame)
      (.inl ⟨rfl, rfl⟩)
  | handle r => exact h.handle hnot hstep

end Step

/-- **Without the late reports** a run goes the same way. -/
theorem Same.run {w w' v : World} (h : Same w v) (hinv : Inv w) (hlate : LateOver w)
    {acts : List Act} (hok : runOk w acts = true) (hrun : w.run acts = some w') :
    ∃ v', v.run (dropLate w acts) = some v' ∧ Same w' v' := by
  induction acts generalizing w v with
  | nil =>
    cases hrun
    exact ⟨v, rfl, h⟩
  | cons a acts ih =>
    obtain ⟨w₁, hstep, hrun⟩ := Option.bind_eq_some_iff.mp hrun
    simp only [runOk, hstep, Bool.and_eq_true] at hok
    have hinv₁ := hinv.step hok.1 hstep
    have hlate₁ := hlate.step hstep
    rw [dropLate, hstep]
    dsimp only
    cases hisLate : w.isLate a with
    | true => exact ih (h.late hinv hlate hisLate hok.1 hstep) hinv₁ hlate₁ hok.2 hrun
    | false =>
      obtain ⟨v₁, hstep', h₁⟩ := h.step hinv hlate hisLate hstep
      obtain ⟨v', hrun', h'⟩ := ih h₁ hinv₁ hlate₁ hok.2 hrun
      exact ⟨v', Option.bind_eq_some_iff.mpr ⟨v₁, hstep', hrun'⟩, h'⟩

/-- **An acknowledgement wait reports on its own frame.**  When no report on another frame gets at
the context a call uses: a call returns `_SUCCESS` only if a report of success on its frame came
while it waited; one whose frame has no such report returns `_FAIL`; and without the reports
that come after their calls have stopped waiting every call goes the same way. -/
theorem ack_wait_reports_own_frame {acts : List Act} {w : World}
    (hok : runOk World.start acts = true) (hrun : World.start.run acts = some w) :
    (∀ c, (w.calls c).ret = success → (w.calls c).acked = true) ∧
    (∀ c, (w.calls c).sent = true → (w.calls c).pc = .returned →
      (∀ r, (w.rpts r).pc ≠ .idle → (w.rpts r).frame = c → (w.rpts r).status ≠ .doneSuccess) →
      (w.calls c).ret = fail) ∧
    ∃ v, World.start.run (dropLate World.start acts) = some v ∧ ∀ c, v.calls c = w.calls c := by
  have hinv := inv_start.run hok hrun
  refine ⟨hinv.ret, fun c hsent _ hfail => ?_, ?_⟩
  · rcases hinv.values c (.inr hsent) with hret | hret
    · obtain ⟨r, hpc, hframe, hstatus⟩ := run_reported (by simp [World.start, Call.idle]) hrun c
        (hinv.ret c hret)
      exact absurd hstatus (hfail r hpc hframe)
    · exact hret
  · have hsame : Same World.start World.start := by
      constructor <;> simp
    have hlate : LateOver World.start := by
      constructor <;> simp [World.start, Rpt.idle]
    obtain ⟨v, hrun', hv⟩ := hsame.run inv_start hlate hok hrun
    exact ⟨v, hrun', hv.calls⟩

/-- A call from the beginning to the wait. -/
def submit (c : CallId) : List Act :=
  [.enter c 500 false, .go c, .go c, .go c, .go c, .go c, .xmit c true]

/-- A call is acknowledged, the next one times out and its report comes then, and the last one
has a report that says that the retries are over. -/
def threeFrames : List Act :=
  submit 0 ++ [.deliver 0 0 0, .handle 0, .handle 0, .handle 0, .wake 0, .go 0, .go 0, .go 0] ++
  submit 1 ++ [.timeout 1, .go 1, .go 1, .deliver 1 1 0, .handle 1] ++
  submit 2 ++ [.deliver 2 2 0x80, .handle 2, .handle 2, .handle 2, .wake 2, .go 2, .go 2, .go 2]

/-- The first returns `_SUCCESS`, the others `_FAIL`. -/
theorem three_frames_reported : ∃ w, World.start.run threeFrames = some w ∧
    (w.calls 0).ret = success ∧ (w.calls 0).acked = true ∧ (w.calls 1).ret = fail ∧
      (w.calls 2).ret = fail := by
  obtain ⟨w, hrun, hw⟩ : ∃ w, World.start.run threeFrames = some w ∧
      ((w.calls 0).ret == success && (w.calls 1).ret == fail && (w.calls 2).ret == fail) = true :=
    (Option.any_eq_true _ _).mp (by decide +kernel)
  have hown := (ack_wait_reports_own_frame (by decide +kernel) hrun).1
  simp only [Bool.and_eq_true, beq_iff_eq] at hw
  exact ⟨w, hrun, hw.1.1, hown 0 hw.1.1, hw.1.2, hw.2⟩

/-- The report of the first call comes after it timed out, while the second waits. -/
def staleReport : List Act :=
  submit 0 ++ [.timeout 0, .go 0, .go 0] ++ submit 1 ++
    [.deliver 0 0 0, .handle 0, .handle 0, .handle 0, .wake 1, .go 1, .go 1, .go 1]

/-- The second returns `_SUCCESS`, and there is no report on its frame. -/
theorem stale_report_acknowledges : ∃ w, World.start.run staleReport = some w ∧
    (w.calls 1).ret = success ∧ (w.calls 1).acked = false := by
  obtain ⟨w, hrun, hw⟩ : ∃ w, World.start.run staleReport = some w ∧
      ((w.calls 1).ret == success && !(w.calls 1).acked) = true :=
    (Option.any_eq_true _ _).mp (by decide +kernel)
  simp only [Bool.and_eq_true, beq_iff_eq, Bool.not_eq_true'] at hw
  exact ⟨w, hrun, hw⟩

end AckWait

end Rtl8723bs
