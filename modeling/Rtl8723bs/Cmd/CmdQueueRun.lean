/-
# Every run of the command queue

Where a command is decides what has become of it: of one that is not in the queue nothing was
freed unless it was refused, one in the queue is whole, one the thread has in its hand has lost
at most its `pbuf`, and one the thread is done with is freed, once.  The same for its context:
it is behind the pointer until it is completed or taken away.  The result is
`cmds_run_once_freed_once`.
-/
import Rtl8723bs.Cmd.CmdQueue

namespace Rtl8723bs

namespace CmdQueue

/-! ## 1. One command -/

/-- Where a command is: `out` before it is in the queue, or refused; `fresh`, `post`, `store`,
`complete`, `setNull` and `finish` in the thread's hand. -/
inductive Place where
  | out
  | queued
  | fresh
  | post
  | store
  | complete
  | setNull
  | finish
  | aside
deriving DecidableEq

/-- The thread is completing the context. -/
def Place.completing : Place → Bool
  | .store | .complete | .setNull => true
  | _ => false

/-- The pointer of the command may be to a context. -/
def Place.open : Place → Bool
  | .queued | .fresh | .post | .store | .complete | .setNull => true
  | _ => false

/-- Nothing was said to the caller yet. -/
def Place.early : Place → Bool
  | .out | .queued | .fresh | .post | .store => true
  | _ => false

/-- The caller has put the command into the queue. -/
def CallPc.sent : CallPc → Bool
  | .wait | .check | .returned => true
  | _ => false

/-- The caller's context is still there. -/
def CallPc.waiting : CallPc → Bool
  | .wait | .check => true
  | _ => false

/-- A command freed once, with what belongs to it. -/
def freedOnce (o : CmdObj) : Freed :=
  ⟨1, if o.parmbuf then 1 else 0, if o.hasPbuf then 1 else 0⟩

/-- Only the `pbuf` is freed. -/
def freedPbuf (o : CmdObj) : Freed := ⟨0, 0, if o.hasPbuf then 1 else 0⟩

/-- What is freed of a command. -/
def Cmd.freedAt (x : Cmd) : Place → Freed
  | .out => if x.call = .rejected then freedOnce x.obj else ⟨0, 0, 0⟩
  | .queued | .fresh => ⟨0, 0, 0⟩
  | .aside => freedOnce x.obj
  | _ => freedPbuf x.obj

/-- What has become of a command at its place. -/
@[grind cases]
structure Good (x : Cmd) (p : Place) : Prop where
  freed : x.freed = x.freedAt p
  sent : x.call.sent = decide (p ≠ .out)
  size : p ≠ .out ∨ x.call = .filtered → x.obj.cmdsz ≤ maxCmdsz
  early : p.early → x.completed = 0 ∧ x.ctx.status = .submitted
  stored : p = .complete ∨ p = .setNull → x.ctx.status ≠ .submitted
  once : x.completed ≤ 1 ∧ (p = .complete → x.completed = 0)
  waiting : x.call.waiting → x.ctx.status = .submitted ∨ p.open → x.obj.sctx = true ∧ p.open
  linked : p.open → x.obj.sctx = true → x.call.waiting
  completing : p.completing → x.obj.sctx = true

attribute [grind =] Place.completing Place.open Place.early CallPc.sent CallPc.waiting
  Cmd.freedAt

@[simp, grind =] theorem hasPbuf_res (o : CmdObj) (res : UInt8) :
    CmdObj.hasPbuf { o with res := res } = o.hasPbuf := rfl

@[simp, grind =] theorem hasPbuf_sctx (o : CmdObj) (sctx : Bool) :
    CmdObj.hasPbuf { o with sctx := sctx } = o.hasPbuf := rfl

section OneCmd

variable {x : Cmd} {p : Place}

theorem good_idle : Good Cmd.idle .out := by
  constructor <;> simp [Cmd.idle, Cmd.freedAt, CallPc.sent, Place.early, CallPc.waiting,
    Place.open, Place.completing, rtwSctxInit]

theorem free_freedPbuf (o : CmdObj) : rtwFreeCmdObj o (freedPbuf o) = freedOnce o := by
  unfold rtwFreeCmdObj freedPbuf freedOnce
  split <;> rfl

theorem freePbuf_whole (o : CmdObj) : freePbuf o ⟨0, 0, 0⟩ = freedPbuf o := by
  unfold freePbuf freedPbuf
  split <;> simp_all

/-- A refused command is freed at once. -/
theorem Good.reject (h : Good x .out) (hcall : x.call = .idle) (o : CmdObj) :
    Good { x with obj := o, call := .rejected, freed := rtwFreeCmdObj o (freePbuf o x.freed) }
      .out := by
  have hfreed : x.freed = ⟨0, 0, 0⟩ := by rw [h.freed, Cmd.freedAt, if_neg (by rw [hcall]; nofun)]
  rw [hfreed, freePbuf_whole, free_freedPbuf]
  constructor <;> grind -ring -linarith

theorem Good.accept (h : Good x .out) (hcall : x.call = .idle) {o : CmdObj}
    (hsize : o.cmdsz ≤ maxCmdsz) : Good { x with obj := o, call := .filtered } .out := by
  constructor <;> grind -ring -linarith

theorem Good.insert (h : Good x .out) (hcall : x.call = .filtered) :
    Good { x with call := if x.obj.sctx then .wait else .returned } .queued := by
  constructor <;> grind -ring -linarith

/-! ## 2. The waiter -/

/-- What is freed does not depend on the waiter. -/
theorem freedAt_waiter {x' : Cmd} (hobj : x'.obj = { x.obj with sctx := x'.obj.sctx })
    (hcall : x.call.waiting) (hcall' : x'.call.sent) (p : Place) : x'.freedAt p = x.freedAt p := by
  have hsame : freedOnce x'.obj = freedOnce x.obj ∧ freedPbuf x'.obj = freedPbuf x.obj := by
    rw [hobj]
    exact ⟨rfl, rfl⟩
  have hne : x.call ≠ .rejected := by
    intro heq
    simp [heq, CallPc.waiting] at hcall
  have hne' : x'.call ≠ .rejected := by
    intro heq
    simp [heq, CallPc.sent] at hcall'
  cases p <;> simp [Cmd.freedAt, hsame, hne, hne']

theorem Good.wake (h : Good x p) (hcall : x.call = .wait) :
    Good { x with call := .check, ctx := x.ctx.take } p := by
  constructor
  case freed => refine h.freed.trans (freedAt_waiter ?_ (by rw [hcall]; rfl) ?_ p).symm <;> rfl
  all_goals grind -ring -linarith [SubmitCtx.take_status]

theorem Good.timeout (h : Good x p) (hcall : x.call = .wait) :
    Good { x with call := .check } p := by
  constructor
  case freed => refine h.freed.trans (freedAt_waiter ?_ (by rw [hcall]; rfl) ?_ p).symm <;> rfl
  all_goals grind -ring -linarith

/-- The waiter takes its context away from a command that is not finished, so not freed. -/
theorem Good.takeAway (h : Good x p) (hcall : x.call = .check) (hstatus : x.ctx.status = .submitted)
    (hlocked : p.completing = false) :
    Good { x with call := .returned, obj := { x.obj with sctx := false } } p ∧ x.freed.obj = 0 := by
  have hopen : p.open := (h.waiting (by rw [hcall]; rfl) (.inl hstatus)).2
  have hfreed := h.freed
  constructor
  · constructor
    case freed => refine h.freed.trans (freedAt_waiter ?_ (by rw [hcall]; rfl) ?_ p).symm <;> rfl
    all_goals grind -ring -linarith
  · rw [hfreed]
    cases p <;> first | rfl | simp [Place.open] at hopen

/-- The waiter finds that its command was finished. -/
theorem Good.leave (h : Good x p) (hcall : x.call = .check) (hstatus : x.ctx.status ≠ .submitted)
    (hlocked : p.completing = false) : Good { x with call := .returned } p := by
  have hearly : p.open → p.early := by
    cases p <;> simp_all [Place.open, Place.early, Place.completing]
  constructor
  case freed => refine h.freed.trans (freedAt_waiter ?_ (by rw [hcall]; rfl) ?_ p).symm <;> rfl
  all_goals grind -ring -linarith

/-! ## 3. The thread -/

theorem Good.take (h : Good x .queued) : Good x .fresh := by
  constructor <;> grind -ring -linarith

theorem Good.enqHead (h : Good x .fresh) (res : UInt8) :
    Good { x with obj := { x.obj with res := res } } .queued := by
  constructor <;> grind -ring -linarith

/-- The command was given up or executed; its `pbuf` is freed. -/
theorem Good.toPost (h : Good x .fresh) (res : UInt8) :
    Good { x with obj := { x.obj with res := res }, freed := freePbuf x.obj x.freed } .post := by
  have hfreed : x.freed = ⟨0, 0, 0⟩ := h.freed
  rw [hfreed, freePbuf_whole]
  constructor <;> grind -ring -linarith [freedPbuf]

theorem Good.toStore (h : Good x .post) (hsctx : x.obj.sctx = true) : Good x .store := by
  constructor <;> grind -ring -linarith

theorem Good.toFinish (h : Good x .post) (hsctx : x.obj.sctx = false) : Good x .finish := by
  constructor <;> grind -ring -linarith

theorem Good.store (h : Good x .store) {status : SctxStatus} (hstatus : status ≠ .submitted) :
    Good { x with ctx := x.ctx.store status } .complete := by
  constructor <;> grind -ring -linarith [SubmitCtx.store_status]

theorem Good.complete (h : Good x .complete) :
    Good { x with ctx := x.ctx.complete, completed := x.completed + 1 } .setNull := by
  constructor <;> grind -ring -linarith [SubmitCtx.complete_status]

theorem Good.setNull (h : Good x .setNull) :
    Good { x with obj := { x.obj with sctx := false } } .finish := by
  constructor <;> grind -ring -linarith [freedPbuf]

theorem Good.finish (h : Good x .finish) :
    Good { x with freed := rtwFreeCmdObj x.obj x.freed } .aside := by
  have hfreed : x.freed = freedPbuf x.obj := h.freed
  rw [hfreed, free_freedPbuf]
  constructor <;> grind -ring -linarith

end OneCmd

/-! ## 4. The commands together -/

/-- The place of the command in the thread's hand. -/
def ThreadPc.place : ThreadPc → Place
  | .taken _ | .filter _ | .alive _ | .exec _ | .drop _ => .fresh
  | .post _ _ => .post
  | .done _ .store _ => .store
  | .done _ .complete _ => .complete
  | .done _ .setNull _ => .setNull
  | .callback _ _ => .finish
  | _ => .out

theorem place_of_hand {t : ThreadPc} {c : CmdId} (h : t.hand = some c) : t.place ≠ .out := by
  cases t with
  | done d stage last => cases stage <;> nofun
  | _ => first | (cases h; done) | simp [ThreadPc.place]

theorem completing_of_unlocked {t : ThreadPc} (h : t.locked = false) :
    t.place.completing = false := by
  cases t with
  | done d stage last => cases h
  | _ => rfl

namespace World

/-- The command is at the place. -/
inductive At (w : World) (c : CmdId) : Place → Prop where
  | out : c ∉ w.inserted → w.At c .out
  | queued : c ∈ w.queue → w.At c .queued
  | held {p : Place} : w.thread.hand = some c → p = w.thread.place → w.At c p
  | aside : c ∈ w.aside → w.At c .aside

/-- The queue with the thread as its consumer. -/
def fifo (w : World) : Fifo CmdId := ⟨w.aside, w.thread.hand, w.queue, w.executed⟩

/-- The queue is a queue, every command is as it should be at its place, and nothing is in the
queue when there is no thread. -/
structure Inv (w : World) : Prop where
  fault : w.fault = false
  order : w.inserted = w.fifo.all
  fifo : w.fifo.Good
  untouched : w.thread.place = .fresh → w.fifo.Untouched
  good : ∀ {c p}, w.At c p → Good (w.cmds c) p
  off : w.thread = .off → w.queue = []

variable {w w' : World} {c : CmdId} {x : Cmd}

theorem start_inv : start.Inv where
  fault := rfl
  order := rfl
  fifo := Fifo.good_empty
  untouched := nofun
  good {c p} hat := by
    cases hat with
    | out => exact good_idle
    | queued hc => cases hc
    | held hc => cases hc
    | aside hc => cases hc
  off _ := rfl

theorem setCmd_self (w : World) (c : CmdId) (x : Cmd) : (w.setCmd c x).cmds c = x :=
  Function.update_self ..

theorem setCmd_of_ne (w : World) {c d : CmdId} (x : Cmd) (hne : d ≠ c) :
    (w.setCmd c x).cmds d = w.cmds d :=
  Function.update_of_ne hne ..

theorem mem_inserted (h : w.Inv) {d : CmdId} :
    d ∈ w.inserted ↔ d ∈ w.aside ∨ w.thread.hand = some d ∨ d ∈ w.queue := by
  rw [h.order]
  exact Fifo.mem_all

/-- Every command is somewhere. -/
theorem Inv.exists_at (h : w.Inv) (c : CmdId) : ∃ p, w.At c p := by
  by_cases hc : c ∈ w.inserted
  · rcases (mem_inserted h).mp hc with haside | hhand | hqueue
    · exact ⟨_, .aside haside⟩
    · exact ⟨_, .held hhand rfl⟩
    · exact ⟨_, .queued hqueue⟩
  · exact ⟨_, .out hc⟩

/-- A command the thread has in its hand is nowhere else. -/
theorem Inv.at_held (h : w.Inv) (hhand : w.thread.hand = some c) {p : Place} (hat : w.At c p) :
    p = w.thread.place := by
  obtain ⟨haside, hqueue⟩ := h.fifo.hand_apart hhand
  cases hat with
  | out hc => exact absurd ((mem_inserted h).mpr (.inr (.inl hhand))) hc
  | queued hc => exact absurd hc hqueue
  | held _ hp => exact hp
  | aside hc => exact absurd hc haside

/-- A caller's step, that leaves its command as it should be wherever that is. -/
theorem Inv.caller (h : w.Inv) (hgood : ∀ p, w.At c p → Good (w.cmds c) p → Good x p) :
    (w.setCmd c x).Inv where
  fault := h.fault
  order := h.order
  fifo := h.fifo
  untouched := h.untouched
  good {d p} hat := by
    have hold : w.At d p := by
      cases hat with
      | out hd => exact .out hd
      | queued hd => exact .queued hd
      | held hd hp => exact .held hd hp
      | aside hd => exact .aside hd
    rcases eq_or_ne d c with rfl | hne
    · rw [setCmd_self]
      exact hgood p hold (h.good hold)
    · rw [setCmd_of_ne w x hne]
      exact h.good hold
  off := h.off

/-! ## 5. The thread with a command in its hand -/

/-- The thread goes on with its command. -/
theorem Inv.hold (h : w.Inv) (hhand : w.thread.hand = some c) {t : ThreadPc}
    (hpc : t.hand = some c) (hfresh : t.place = .fresh → w.thread.place = .fresh)
    (hgood : Good x t.place) : ((w.setCmd c x).setThread t).Inv := by
  have hsame : ((w.setCmd c x).setThread t).fifo = w.fifo := by
    change (⟨w.aside, t.hand, w.queue, w.executed⟩ : Fifo CmdId) = _
    rw [hpc, ← hhand]
    rfl
  refine
    { fault := h.fault, order := h.order.trans (by rw [hsame]), fifo := hsame ▸ h.fifo
      untouched := fun hp => hsame ▸ h.untouched (hfresh hp), good := ?_, off := ?_ }
  · intro d p hat
    have hheld : w.At c w.thread.place := .held hhand rfl
    rcases eq_or_ne d c with rfl | hne
    · obtain ⟨haside, hqueue⟩ := h.fifo.hand_apart hhand
      have hp : p = t.place := by
        cases hat with
        | out hd => exact absurd ((mem_inserted h).mpr (.inr (.inl hhand))) hd
        | queued hd => exact absurd hd hqueue
        | held _ hp => exact hp
        | aside hd => exact absurd hd haside
      rw [show ((w.setCmd d x).setThread t).cmds d = x from setCmd_self .., hp]
      exact hgood
    · rw [show ((w.setCmd c x).setThread t).cmds d = w.cmds d from setCmd_of_ne w x hne]
      cases hat with
      | out hd => exact h.good (.out hd)
      | queued hd => exact h.good (.queued hd)
      | held hd => exact absurd (Option.some.inj (hpc.symm.trans hd)).symm hne
      | aside hd => exact h.good (.aside hd)
  · rintro rfl
    cases hpc

theorem Inv.goto (h : w.Inv) (hhand : w.thread.hand = some c) {t : ThreadPc}
    (hpc : t.hand = some c) (hfresh : t.place = .fresh → w.thread.place = .fresh)
    (hgood : Good (w.cmds c) t.place) : (w.setThread t).Inv := by
  have hhold := h.hold hhand hpc hfresh hgood
  have hsame : w.setCmd c (w.cmds c) = w := by
    unfold setCmd
    rw [Function.update_eq_self]
  rwa [hsame] at hhold

/-- The handler runs: the command was not executed before. -/
theorem Inv.exec (h : w.Inv) (hpc : w.thread = .exec c) (ok : Bool) (ret : UInt8) :
    (w.threadStep c (.exec c) ok ret).Inv := by
  have hhand : w.thread.hand = some c := by rw [hpc]; rfl
  have hplace : w.thread.place = .fresh := by rw [hpc]; rfl
  have hgood : Good (w.cmds c) .fresh := h.good (.held hhand hplace.symm)
  have hpost := h.hold hhand (t := .post c false) rfl nofun (hgood.toPost ret)
  have hlog := h.fifo.act hhand (h.untouched hplace)
  refine
    { fault := h.fault, order := hpost.order, fifo := ?_, untouched := nofun, good := ?_
      off := nofun }
  · change Fifo.Good ⟨w.aside, some c, w.queue, w.executed ++ [c]⟩
    rwa [show w.fifo = ⟨w.aside, w.thread.hand, w.queue, w.executed⟩ from rfl, hhand] at hlog
  · intro d p hat
    refine hpost.good (c := d) ?_
    cases hat with
    | out hd => exact .out hd
    | queued hd => exact .queued hd
    | held hd hp => exact .held hd hp
    | aside hd => exact .aside hd

/-- The command goes back to the head of the queue. -/
theorem Inv.enqHead (h : w.Inv) (hhand : w.thread.hand = some c)
    (hplace : w.thread.place = .fresh) (hgood : Good x .queued) :
    Inv { w.setCmd c x with queue := c :: w.queue, thread := .top } := by
  have hback := h.fifo.putBack hhand (h.untouched hplace)
  refine
    { fault := h.fault, order := ?_, fifo := hback, untouched := nofun, good := ?_, off := nofun }
  · change w.inserted = _
    rw [h.order]
    unfold Fifo.all World.fifo
    rw [hhand]
    simp [ThreadPc.hand, setCmd]
  · intro d p hat
    rcases eq_or_ne d c with rfl | hne
    · obtain ⟨haside, hqueue⟩ := h.fifo.hand_apart hhand
      change Good ((w.setCmd d x).cmds d) p
      rw [setCmd_self]
      cases hat with
      | out hd => exact absurd ((mem_inserted h).mpr (.inr (.inl hhand))) hd
      | queued hd => exact hgood
      | held hd => cases hd
      | aside hd => exact absurd hd haside
    · change Good ((w.setCmd c x).cmds d) p
      rw [setCmd_of_ne w x hne]
      cases hat with
      | out hd => exact h.good (.out hd)
      | queued hd => exact h.good (.queued ((List.mem_cons.mp hd).resolve_left hne))
      | held hd => cases hd
      | aside hd => exact h.good (.aside hd)

/-- The thread is done with its command. -/
theorem Inv.layAside (h : w.Inv) (hhand : w.thread.hand = some c) (hgood : Good x .aside)
    {t : ThreadPc} (hpc : t.hand = none) (hplace : t.place = .out) (hoff : t ≠ .off) :
    Inv { w.setCmd c x with aside := w.aside ++ [c], thread := t } := by
  have haside := h.fifo.layAside hhand
  have hsame : World.fifo { w.setCmd c x with aside := w.aside ++ [c], thread := t }
      = { w.fifo with aside := w.fifo.aside ++ [c], hand := none } := by
    change (⟨w.aside ++ [c], t.hand, w.queue, w.executed⟩ : Fifo CmdId) = _
    rw [hpc]
    rfl
  refine
    { fault := h.fault, order := ?_, fifo := hsame ▸ haside
      untouched := fun hp => ?_, good := ?_, off := fun hp => absurd hp hoff }
  · rw [hsame]
    change w.inserted = _
    rw [h.order]
    unfold Fifo.all World.fifo
    rw [hhand]
    simp
  · change t.place = .fresh at hp
    rw [hplace] at hp
    cases hp
  · intro d p hat
    rcases eq_or_ne d c with rfl | hne
    · obtain ⟨-, hqueue⟩ := h.fifo.hand_apart hhand
      change Good ((w.setCmd d x).cmds d) p
      rw [setCmd_self]
      cases hat with
      | out hd => exact absurd ((mem_inserted h).mpr (.inr (.inl hhand))) hd
      | queued hd => exact absurd hd hqueue
      | held hd => exact absurd (hpc.symm.trans hd) nofun
      | aside hd => exact hgood
    · change Good ((w.setCmd c x).cmds d) p
      rw [setCmd_of_ne w x hne]
      cases hat with
      | out hd => exact h.good (.out hd)
      | queued hd => exact h.good (.queued hd)
      | held hd => exact absurd (hpc.symm.trans hd) nofun
      | aside hd =>
        exact h.good (.aside ((List.mem_append.mp hd).resolve_right
          fun hd => hne (List.mem_singleton.mp hd)))

/-- A command without a handler is no `_Set_Drv_Extra`. -/
theorem hasPbuf_of_no_hdl {o : CmdObj} (ho : o.cmdcode ≥ numCmds ∨ noCmdHdl o.cmdcode) :
    o.hasPbuf = false := by
  have hcode : o.cmdcode ≠ setDrvExtraCmd := by
    intro hcode
    rw [hcode] at ho
    revert ho
    decide
  simp [CmdObj.hasPbuf, hcode]

theorem callBack_eq {o : CmdObj} (ho : o.cmdcode ≠ disConnectCmd ∨ o.res = h2cSuccess) (f : Freed) :
    callBack o f = rtwFreeCmdObj o f := by
  unfold callBack
  split
  · cases hcb : rtwCmdCallback o.cmdcode with
    | none => rfl
    | some callback =>
      cases callback with
      | disassoc =>
        have hcode : o.cmdcode = disConnectCmd := by
          unfold rtwCmdCallback at hcb
          split_ifs at hcb <;> first | assumption | cases hcb
        have hres := ho.resolve_left (not_not_intro hcode)
        simp [CmdCallback.free, hres]
      | _ => rfl
  · rfl

theorem doneStatus_ne (o : CmdObj) (last : Bool) : doneStatus o last ≠ .submitted := by
  unfold doneStatus
  split
  · nofun
  · split <;> nofun

/-- A step of the thread with a command in its hand. -/
theorem Inv.threadStep (h : w.Inv) (hhand : w.thread.hand = some c) (ok : Bool) (ret : UInt8)
    (hok : w.stepOk (.thread ok ret) = true) : (w.threadStep c w.thread ok ret).Inv := by
  have hgood := h.good (.held hhand rfl)
  cases hpc : w.thread with
  | off | top | awake | next | dequeue | leaving | drain =>
    rw [hpc] at hhand
    cases hhand
  | taken d =>
    rw [hpc] at hgood
    obtain rfl : d = c := by
      rw [hpc] at hhand
      exact Option.some.inj hhand
    unfold World.threadStep
    dsimp only
    split
    · rename_i herr
      have hsize := hgood.size (.inl nofun)
      have hpbuf := hasPbuf_of_no_hdl (herr.resolve_left (Nat.not_lt.mpr hsize))
      have hpost := hgood.toPost h2cParametersError
      rw [freePbuf, if_neg (by simp [hpbuf])] at hpost
      exact h.hold hhand rfl nofun hpost
    · exact h.goto hhand rfl (fun _ => by rw [hpc]; rfl) hgood
  | filter d =>
    rw [hpc] at hgood
    obtain rfl : d = c := by
      rw [hpc] at hhand
      exact Option.some.inj hhand
    unfold World.threadStep
    dsimp only
    split
    · exact h.hold hhand rfl nofun (hgood.toPost h2cDropped)
    · exact h.goto hhand rfl (fun _ => by rw [hpc]; rfl) hgood
  | alive d =>
    rw [hpc] at hgood
    obtain rfl : d = c := by
      rw [hpc] at hhand
      exact Option.some.inj hhand
    unfold World.threadStep
    dsimp only
    split
    · exact h.goto hhand rfl (fun _ => by rw [hpc]; rfl) hgood
    · exact h.enqHead hhand (by rw [hpc]; rfl) (hgood.enqHead h2cEnqHead)
  | exec d =>
    obtain rfl : d = c := by
      rw [hpc] at hhand
      exact Option.some.inj hhand
    exact h.exec hpc ok ret
  | drop d =>
    rw [hpc] at hgood
    obtain rfl : d = c := by
      rw [hpc] at hhand
      exact Option.some.inj hhand
    exact h.hold hhand rfl nofun (hgood.toPost (w.cmds d).obj.res)
  | post d last =>
    rw [hpc] at hgood
    obtain rfl : d = c := by
      rw [hpc] at hhand
      exact Option.some.inj hhand
    unfold World.threadStep
    dsimp only
    split
    · rename_i hsctx
      exact h.goto hhand rfl nofun (hgood.toStore hsctx)
    · rename_i hsctx
      exact h.goto hhand rfl nofun (hgood.toFinish (by simpa using hsctx))
  | done d stage last =>
    rw [hpc] at hgood
    obtain rfl : d = c := by
      rw [hpc] at hhand
      exact Option.some.inj hhand
    cases stage with
    | store =>
      have hwaiting := hgood.linked rfl (hgood.completing rfl)
      have hcall : (w.cmds d).call ≠ .returned := by
        intro heq
        simp [heq, CallPc.waiting] at hwaiting
      have hhold := h.hold hhand (t := .done d .complete last) rfl nofun
        (hgood.store (doneStatus_ne (w.cmds d).obj last))
      have hstep : w.threadStep d (.done d .store last) ok ret
          = (w.setCmd d { w.cmds d with
              ctx := (w.cmds d).ctx.store (doneStatus (w.cmds d).obj last) }).setThread
              (.done d .complete last) := by
        simp [World.threadStep, setThread, setCmd, hcall]
      rwa [hstep]
    | complete =>
      have hwaiting := hgood.linked rfl (hgood.completing rfl)
      have hcall : (w.cmds d).call ≠ .returned := by
        intro heq
        simp [heq, CallPc.waiting] at hwaiting
      have hhold := h.hold hhand (t := .done d .setNull last) rfl nofun hgood.complete
      have hstep : w.threadStep d (.done d .complete last) ok ret
          = (w.setCmd d { w.cmds d with
              ctx := (w.cmds d).ctx.complete
              completed := (w.cmds d).completed + 1 }).setThread (.done d .setNull last) := by
        simp [World.threadStep, setThread, setCmd, hcall]
      rwa [hstep]
    | setNull => exact h.hold hhand rfl nofun hgood.setNull
  | callback d last =>
    rw [hpc] at hgood
    obtain rfl : d = c := by
      rw [hpc] at hhand
      exact Option.some.inj hhand
    have hfinish : Good (w.cmds d) .finish := hgood
    cases last with
    | true => exact h.layAside (t := .drain) hhand hfinish.finish rfl rfl nofun
    | false =>
      have hres : (w.cmds d).obj.cmdcode ≠ disConnectCmd ∨ (w.cmds d).obj.res = h2cSuccess := by
        simpa [stepOk, hpc] using hok
      have haside := hfinish.finish
      rw [← callBack_eq hres] at haside
      exact h.layAside (t := .next) hhand haside rfl rfl nofun

/-! ## 6. The other steps -/

/-- The flags and the semaphore do not matter. -/
theorem Inv.flags (h : w.Inv) (hw cannotRun running : Bool) (n : Nat) :
    Inv
      { w with
        hwInitCompleted := hw, cannotRun := cannotRun, cmdthdRunning := running, sema := n } where
  fault := h.fault
  order := h.order
  fifo := h.fifo
  untouched := h.untouched
  good hat := by
    cases hat with
    | out hd => exact h.good (.out hd)
    | queued hd => exact h.good (.queued hd)
    | held hd hp => exact h.good (.held hd hp)
    | aside hd => exact h.good (.aside hd)
  off := h.off

/-- The thread moves with an empty hand. -/
theorem Inv.idleMove (h : w.Inv) (hhand : w.thread.hand = none) {t : ThreadPc}
    (hpc : t.hand = none) (hplace : t.place = .out) (hoff : t = .off → w.queue = []) :
    (w.setThread t).Inv := by
  have hsame : (w.setThread t).fifo = w.fifo := by
    change (⟨w.aside, t.hand, w.queue, w.executed⟩ : Fifo CmdId) = _
    rw [hpc, ← hhand]
    rfl
  refine
    { fault := h.fault, order := h.order.trans (by rw [hsame]), fifo := hsame ▸ h.fifo
      untouched := fun hp => ?_, good := ?_, off := hoff }
  · change t.place = .fresh at hp
    rw [hplace] at hp
    cases hp
  · intro d p hat
    cases hat with
    | out hd => exact h.good (.out hd)
    | queued hd => exact h.good (.queued hd)
    | held hd => exact absurd (hpc.symm.trans hd) nofun
    | aside hd => exact h.good (.aside hd)

/-- The thread takes the head of the queue. -/
theorem Inv.take (h : w.Inv) (hhand : w.thread.hand = none) {q : List CmdId}
    (hq : w.queue = c :: q) {t : ThreadPc} (hpc : t.hand = some c) (hplace : t.place = .fresh) :
    Inv { w with queue := q, thread := t } := by
  have htake := h.fifo.take hhand hq
  have hsame : World.fifo { w with queue := q, thread := t }
      = { w.fifo with hand := some c, queue := q } := by
    change (⟨w.aside, t.hand, q, w.executed⟩ : Fifo CmdId) = _
    rw [hpc]
    rfl
  refine
    { fault := h.fault, order := ?_, fifo := hsame ▸ htake
      untouched := fun _ => hsame ▸ h.fifo.untouched hhand, good := ?_, off := ?_ }
  · rw [hsame]
    change w.inserted = _
    rw [h.order]
    unfold Fifo.all World.fifo
    rw [hhand, hq]
    simp
  · intro d p hat
    cases hat with
    | out hd => exact h.good (.out hd)
    | queued hd => exact h.good (.queued (by rw [hq]; exact List.mem_cons_of_mem c hd))
    | held hd hp =>
      obtain rfl : c = d := Option.some.inj (hpc.symm.trans hd)
      rw [hp]
      change Good (w.cmds c) t.place
      rw [hplace]
      exact (h.good (.queued (by rw [hq]; exact List.mem_cons_self))).take
    | aside hd => exact h.good (.aside hd)
  · rintro rfl
    cases hpc

/-- A command enters the queue while the thread runs. -/
theorem Inv.insert (h : w.Inv) (hcall : (w.cmds c).call = .filtered) (hoff : w.thread ≠ .off) :
    Inv
      { w.setCmd c
          { w.cmds c with call := if (w.cmds c).obj.sctx then .wait else .returned } with
        queue := w.queue ++ [c]
        inserted := w.inserted ++ [c]
        sema := w.sema + 1 } := by
  have hout : c ∉ w.inserted := by
    intro hc
    obtain ⟨p, hp, hne⟩ : ∃ p, w.At c p ∧ p ≠ .out := by
      rcases (mem_inserted h).mp hc with haside | hhand | hqueue
      · exact ⟨_, .aside haside, nofun⟩
      · exact ⟨_, .held hhand rfl, place_of_hand hhand⟩
      · exact ⟨_, .queued hqueue, nofun⟩
    have hsent := (h.good hp).sent
    rw [hcall] at hsent
    simp [CallPc.sent, hne] at hsent
  have hpush := h.fifo.push (h.order ▸ hout)
  refine
    { fault := h.fault, order := ?_, fifo := hpush, untouched := h.untouched, good := ?_
      off := fun hp => absurd hp hoff }
  · change w.inserted ++ [c] = _
    rw [h.order]
    unfold Fifo.all World.fifo
    simp [setCmd]
  · intro d p hat
    rcases eq_or_ne d c with rfl | hne
    · have hq := (h.good (.out hout)).insert hcall
      change Good ((w.setCmd d _).cmds d) p
      rw [setCmd_self]
      cases hat with
      | out hd => exact absurd (List.mem_append_right _ (List.mem_singleton.mpr rfl)) hd
      | queued => exact hq
      | held hd => exact absurd ((mem_inserted h).mpr (.inr (.inl hd))) hout
      | aside hd => exact absurd ((mem_inserted h).mpr (.inl hd)) hout
    · change Good ((w.setCmd c _).cmds d) p
      rw [setCmd_of_ne w _ hne]
      cases hat with
      | out hd => exact h.good (.out fun hin => hd (List.mem_append_left _ hin))
      | queued hd =>
        exact h.good (.queued ((List.mem_append.mp hd).resolve_right
          fun hd => hne (List.mem_singleton.mp hd)))
      | held hd hp => exact h.good (.held hd hp)
      | aside hd => exact h.good (.aside hd)

/-- A step of the thread at its loop head. -/
theorem Inv.threadIdle (h : w.Inv) (hhand : w.thread.hand = none) {ok : Bool}
    (hstep : w.threadIdle w.thread ok = some w') : w'.Inv := by
  cases hpc : w.thread with
  | taken | filter | alive | exec | drop | post | done | callback =>
    rw [hpc] at hhand
    cases hhand
  | off =>
    rw [hpc] at hstep
    cases hstep
  | top =>
    simp only [World.threadIdle, hpc] at hstep
    split at hstep
    · split at hstep
      · cases hstep
      · obtain rfl := Option.some.inj hstep
        have hflags := h.flags w.hwInitCompleted w.cannotRun w.cmdthdRunning (w.sema - 1)
        exact hflags.idleMove (t := .awake) hhand rfl rfl nofun
    · obtain rfl := Option.some.inj hstep
      exact h.idleMove hhand rfl rfl nofun
  | awake =>
    simp only [World.threadIdle, hpc] at hstep
    split at hstep
    · obtain rfl := Option.some.inj hstep
      exact h.idleMove hhand rfl rfl nofun
    · split at hstep
      · obtain rfl := Option.some.inj hstep
        exact h.idleMove hhand rfl rfl nofun
      · obtain rfl := Option.some.inj hstep
        exact h.idleMove hhand rfl rfl nofun
  | next =>
    simp only [World.threadIdle, hpc] at hstep
    obtain rfl := Option.some.inj hstep
    split
    · exact h.idleMove hhand rfl rfl nofun
    · exact h.idleMove hhand rfl rfl nofun
  | dequeue =>
    simp only [World.threadIdle, hpc] at hstep
    split at hstep
    · obtain rfl := Option.some.inj hstep
      exact h.idleMove hhand rfl rfl nofun
    · rename_i c q hq
      obtain rfl := Option.some.inj hstep
      exact h.take hhand hq rfl rfl
  | leaving =>
    simp only [World.threadIdle, hpc] at hstep
    obtain rfl := Option.some.inj hstep
    have hflags := h.flags w.hwInitCompleted w.cannotRun false w.sema
    exact hflags.idleMove (t := .drain) hhand rfl rfl nofun
  | drain =>
    simp only [World.threadIdle, hpc] at hstep
    split at hstep
    · rename_i hq
      obtain rfl := Option.some.inj hstep
      exact h.idleMove hhand rfl rfl (fun _ => hq)
    · rename_i c q hq
      obtain rfl := Option.some.inj hstep
      exact h.take hhand hq rfl rfl

/-- A caller that has not put its command into the queue has it. -/
theorem Inv.at_out (h : w.Inv) {p : Place} (hat : w.At c p) (hcall : (w.cmds c).call = .idle) :
    p = .out := by
  have hsent := (h.good hat).sent
  rw [hcall] at hsent
  by_contra hne
  simp [CallPc.sent, hne] at hsent

/-- A context that is being completed is not taken away. -/
theorem at_check {p : Place} (hat : w.At c p) (hlocked : w.thread.locked = false) :
    p.completing = false := by
  cases hat with
  | held _ hp =>
    rw [hp]
    exact completing_of_unlocked hlocked
  | _ => rfl

theorem Inv.step (h : w.Inv) {a : Act} (hok : w.stepOk a = true) (hstep : w.step a = some w') :
    w'.Inv := by
  cases a with
  | env hw cannotRun =>
    obtain rfl := Option.some.inj hstep
    exact h.flags hw cannotRun w.cmdthdRunning w.sema
  | upSema =>
    obtain rfl := Option.some.inj hstep
    exact h.flags w.hwInitCompleted w.cannotRun w.cmdthdRunning (w.sema + 1)
  | startThread =>
    simp only [World.step, Option.ite_none_right_eq_some, Option.some.injEq] at hstep
    obtain ⟨hoff, rfl⟩ := hstep
    have hflags := h.flags w.hwInitCompleted w.cannotRun true w.sema
    have hhand : w.thread.hand = none := by rw [hoff]; rfl
    exact hflags.idleMove (t := .top) hhand rfl rfl nofun
  | submit c o =>
    simp only [World.step, Option.ite_none_right_eq_some] at hstep
    obtain ⟨⟨hcall, -⟩, hstep⟩ := hstep
    split at hstep
    · obtain rfl := Option.some.inj hstep
      refine h.caller fun p hat hgood => ?_
      obtain rfl := h.at_out hat hcall
      exact hgood.reject hcall o
    · rename_i hsize
      obtain rfl := Option.some.inj hstep
      refine h.caller fun p hat hgood => ?_
      obtain rfl := h.at_out hat hcall
      exact hgood.accept hcall (Nat.not_lt.mp fun hlt => hsize (.inr hlt))
  | insert c =>
    simp only [World.step, Option.ite_none_right_eq_some, Option.some.injEq] at hstep
    obtain ⟨hcall, rfl⟩ := hstep
    exact h.insert hcall (by simpa [stepOk] using hok)
  | wake c =>
    simp only [World.step, Option.ite_none_right_eq_some, Option.some.injEq] at hstep
    obtain ⟨⟨hcall, -⟩, rfl⟩ := hstep
    exact h.caller fun p _ hgood => hgood.wake hcall
  | timeout c =>
    simp only [World.step, Option.ite_none_right_eq_some, Option.some.injEq] at hstep
    obtain ⟨⟨hcall, -⟩, rfl⟩ := hstep
    exact h.caller fun p _ hgood => hgood.timeout hcall
  | check c =>
    simp only [World.step, Option.ite_none_right_eq_some] at hstep
    obtain ⟨⟨hcall, hlocked⟩, hstep⟩ := hstep
    split at hstep
    · rename_i hstatus
      obtain rfl := Option.some.inj hstep
      obtain ⟨p, hat⟩ := h.exists_at c
      have hfreed := ((h.good hat).takeAway hcall hstatus (at_check hat hlocked)).2
      have hfault : (w.fault || decide ((w.cmds c).freed.obj ≠ 0)) = w.fault := by
        simp [hfreed]
      rw [hfault]
      exact h.caller fun p hat hgood =>
        (hgood.takeAway hcall hstatus (at_check hat hlocked)).1
    · rename_i hstatus
      obtain rfl := Option.some.inj hstep
      exact h.caller fun p hat hgood => hgood.leave hcall hstatus (at_check hat hlocked)
  | thread ok ret =>
    simp only [World.step] at hstep
    split at hstep
    · rename_i c hhand
      obtain rfl := Option.some.inj hstep
      exact h.threadStep hhand ok ret hok
    · rename_i hhand
      exact h.threadIdle hhand hstep

theorem Inv.run (h : w.Inv) {acts : List Act} (hok : w.runOk acts = true)
    (hrun : w.run acts = some w') : w'.Inv := by
  induction acts generalizing w with
  | nil =>
    obtain rfl := Option.some.inj hrun
    exact h
  | cons a acts ih =>
    cases ha : w.step a with
    | none => simp [World.run, ha] at hrun
    | some w₁ =>
      obtain ⟨hstep, hrest⟩ : w.stepOk a = true ∧ w₁.runOk acts = true := by
        simpa [runOk, ha] using hok
      refine ih (h.step hstep ha) hrest ?_
      simpa [World.run, ha] using hrun

/-! ## 7. The result -/

/-- What the queue owes a command: it is in the order of the queue if `rtw_enqueue_cmd` has
accepted it, and then waits there, or is in the thread's hand, with at most its `pbuf` freed, or
is freed once with all that belongs to it; refused, it is freed once too.  Its context is
completed at most once. -/
structure Account (w : World) (c : CmdId) : Prop where
  accepted : c ∈ w.inserted ↔ (w.cmds c).call.sent = true
  kept : c ∈ w.queue → (w.cmds c).freed = ⟨0, 0, 0⟩
  held : w.thread.hand = some c →
    (w.cmds c).freed = ⟨0, 0, 0⟩ ∨ (w.cmds c).freed = freedPbuf (w.cmds c).obj
  freed : c ∈ w.inserted → c ∉ w.queue → w.thread.hand ≠ some c →
    (w.cmds c).freed = freedOnce (w.cmds c).obj
  refused : (w.cmds c).call = .rejected →
    (w.cmds c).freed = freedOnce (w.cmds c).obj ∧ c ∉ w.executed
  once : (w.cmds c).completed ≤ 1

theorem Inv.account (h : w.Inv) (c : CmdId) : w.Account c := by
  have hsent : c ∈ w.inserted ↔ (w.cmds c).call.sent = true := by
    obtain ⟨p, hat⟩ := h.exists_at c
    rw [(h.good hat).sent]
    cases hat with
    | out hc => simp [hc]
    | queued hc => simp [(mem_inserted h).mpr (.inr (.inr hc))]
    | held hc hp => simp [(mem_inserted h).mpr (.inr (.inl hc)), hp, place_of_hand hc]
    | aside hc => simp [(mem_inserted h).mpr (.inl hc)]
  refine
    { accepted := hsent, kept := fun hc => (h.good (.queued hc)).freed, held := ?_, freed := ?_
      refused := ?_, once := ?_ }
  · intro hhand
    have hfreed := (h.good (.held hhand rfl)).freed
    cases hp : w.thread.place with
    | out => exact absurd hp (place_of_hand hhand)
    | aside =>
      exfalso
      cases hpc : w.thread with
      | done d stage last =>
        rw [hpc] at hp
        cases stage <;> cases hp
      | _ =>
        rw [hpc] at hp
        cases hp
    | queued | fresh => exact .inl (by rw [hfreed, hp]; rfl)
    | post | store | complete | setNull | finish => exact .inr (by rw [hfreed, hp]; rfl)
  · intro hc hqueue hhand
    rcases (mem_inserted h).mp hc with haside | hheld | hin
    · exact (h.good (.aside haside)).freed
    · exact absurd hheld hhand
    · exact absurd hin hqueue
  · intro hcall
    have hout : c ∉ w.inserted := by
      rw [hsent, hcall]
      nofun
    refine ⟨?_, fun hexec => hout ?_⟩
    · have hfreed := (h.good (.out hout)).freed
      rwa [Cmd.freedAt, if_pos hcall] at hfreed
    · rw [h.order]
      exact h.fifo.log_all.subset hexec
  · obtain ⟨p, hat⟩ := h.exists_at c
    exact (h.good hat).once.1

end World

open World

/-- **A command is executed at most once, in its turn, and freed once.**  In every run whose steps
are in order no context is used after its function has returned and no command after it was
freed; the commands whose handler ran did so in the order in which they were accepted, each once;
each command's account is right; and when there is no thread every accepted command is freed,
once, with its parameter and its `pbuf`. -/
theorem cmds_run_once_freed_once (acts : List Act) (w : World) (hrun : start.run acts = some w)
    (hok : start.runOk acts = true) :
    w.fault = false ∧ w.inserted.Nodup ∧ w.executed.Sublist w.inserted ∧
      (∀ c, w.Account c) ∧
      (w.thread = .off → ∀ c ∈ w.inserted, (w.cmds c).freed = freedOnce (w.cmds c).obj) := by
  have hinv := start_inv.run hok hrun
  refine ⟨hinv.fault, hinv.order ▸ hinv.fifo.nodup, hinv.order ▸ hinv.fifo.log_all,
    hinv.account, ?_⟩
  intro hoff c hc
  refine (hinv.account c).freed hc ?_ ?_
  · rw [hinv.off hoff]
    exact List.not_mem_nil
  · rw [hoff]
    nofun

/-- A command, perhaps with a `pbuf` or somebody who waits. -/
def cmdOf (cmdcode : Nat) (pbuf sctx : Bool) : CmdObj :=
  ⟨cmdcode, 16, false, true, pbuf, if pbuf then 8 else 0, sctx, h2cSuccess⟩

/-- `n` steps of the thread in which everything succeeds. -/
def steps (n : Nat) : List Act := List.replicate n (.thread true h2cSuccess)

/-- The thread starts and executes a command that somebody waits for, while a second is put back
at the head once; the driver stops and the third is dropped. -/
def threeCmds : List Act :=
  [.startThread, .env true false, .submit 0 (cmdOf setChannelPlanCmd false true), .insert 0,
    .submit 1 (cmdOf setDrvExtraCmd true false), .insert 1,
    .submit 2 (cmdOf setDrvExtraCmd true false), .insert 2]
    ++ steps 12 ++ [.wake 0, .check 0]
    ++ steps 5 ++ [.thread false h2cSuccess] ++ steps 10
    ++ [.env true true] ++ steps 7

theorem three_cmds_accounted :
    ∃ w, start.run threeCmds = some w ∧ w.fault = false ∧ w.inserted.Nodup ∧
      w.executed.Sublist w.inserted ∧ (∀ c, w.Account c) ∧
      (w.thread = .off → ∀ c ∈ w.inserted, (w.cmds c).freed = freedOnce (w.cmds c).obj) := by
  have hsome : (start.run threeCmds).isSome := by decide +kernel
  obtain ⟨w, hw⟩ := Option.isSome_iff_exists.mp hsome
  exact ⟨w, hw, cmds_run_once_freed_once threeCmds w hw (by decide +kernel)⟩

/-- A command passes the filter, then the driver stops and the thread drops what is in the queue
and leaves; the command enters the queue. -/
def lateInsert : List Act :=
  [.startThread, .env true false, .submit 0 (cmdOf setDrvExtraCmd true false), .env true true,
    .upSema] ++ steps 4 ++ [.insert 0]

/-- A `_DisConnect` is in the queue when the hardware is put to sleep, and is dropped by the
thread. -/
def droppedDisConnect : List Act :=
  [.startThread, .env true false, .submit 0 (cmdOf disConnectCmd false false), .insert 0]
    ++ steps 5 ++ [.env false false] ++ steps 3

/-- Nothing of command 0 is freed, and the thread has left or is done with it. -/
def notFreed (w : World) : Bool :=
  0 ∈ w.inserted ∧ (w.cmds 0).freed = ⟨0, 0, 0⟩ ∧ (w.thread = .off ∨ 0 ∈ w.aside)

/-- The queue without the rule: accepted commands that are never freed. -/
theorem cmds_not_freed :
    (∃ w, start.run lateInsert = some w ∧ notFreed w = true) ∧
      ∃ w, start.run droppedDisConnect = some w ∧ notFreed w = true :=
  ⟨(Option.any_eq_true _ _).mp (by decide +kernel),
    (Option.any_eq_true _ _).mp (by decide +kernel)⟩

end CmdQueue

end Rtl8723bs
