/-
# The command queue

`rtw_enqueue_cmd` refuses a command or puts it at the tail of the queue; `rtw_cmd_thread` takes
the commands from the head, runs their handlers, finishes the submit context of a caller that
waits, and frees them.  A command for which the firmware has to be woken goes back to the head,
and when the driver stops the thread drops what is left.  A caller that waits gives up after
some time and takes its context away under `sctx_mutex`.

A step is a part of one of these that no other thread can come between: what is done under a lock
is one step, except that the thread finishes a context in several steps with the mutex held.
-/
import Mathlib.Logic.Function.Basic
import Rtl8723bs.SubmitCtx
import Rtl8723bs.Lib.Fifo

namespace Rtl8723bs

namespace CmdQueue

/-! ## 1. Commands -/

abbrev CmdId := Nat

/-- `GEN_CMD_CODE(_Read_MACREG)`, … of the codes that are named here. -/
def readMacregCmd : Nat := 0
def readBbregCmd : Nat := 2
def readRfregCmd : Nat := 4
def joinBssCmd : Nat := 14
def disConnectCmd : Nat := 15
def siteSurveyCmd : Nat := 18
def setStaKeyCmd : Nat := 21
def setAssocStaCmd : Nat := 22
def setDrvExtraCmd : Nat := 57
def setChannelPlanCmd : Nat := 59

/-- `H2C_SUCCESS`, … -/
def h2cSuccess : UInt8 := 0x00
def h2cDropped : UInt8 := 0x03
def h2cParametersError : UInt8 := 0x04
def h2cEnqHead : UInt8 := 0x08

/-- `MAX_CMDSZ`. -/
def maxCmdsz : Nat := 1024

/-- `struct cmd_obj`.  `parmbuf` says that it is not NULL; `pbuf` and `size` are those of the
`struct drvextra_cmd_parm` that it then is for `_Set_Drv_Extra`.  `sctx` says that the pointer is
to the context of the caller and not NULL. -/
structure CmdObj where
  cmdcode : Nat
  cmdsz : Nat
  noIo : Bool
  parmbuf : Bool
  pbuf : Bool
  size : Nat
  sctx : Bool
  res : UInt8
deriving DecidableEq, Repr

/-- The command is a `_Set_Drv_Extra` with a `pbuf` to be freed. -/
def CmdObj.hasPbuf (o : CmdObj) : Bool := o.cmdcode = setDrvExtraCmd ∧ o.pbuf ∧ o.size > 0

/-- The codes for which `wlancmds` has no handler (`GEN_DRV_CMD_HANDLER(0, NULL)` has one,
`NULL_hdl`). -/
def noCmdHdl (cmdcode : Nat) : Bool :=
  (6 ≤ cmdcode ∧ cmdcode ≤ 13) ∨ (22 ≤ cmdcode ∧ cmdcode ≤ 44) ∨ (47 ≤ cmdcode ∧ cmdcode ≤ 54)

/-- The length of `wlancmds` and of `rtw_cmd_callback`. -/
def numCmds : Nat := 66

/-- How often the parts of a command were freed. -/
structure Freed where
  obj : Nat
  parm : Nat
  pbuf : Nat
deriving DecidableEq, Repr

/-- `rtw_free_cmd_obj`. -/
def rtwFreeCmdObj (o : CmdObj) (f : Freed) : Freed :=
  { f with parm := if o.parmbuf then f.parm + 1 else f.parm, obj := f.obj + 1 }

/-- `if (extra_parm->pbuf && extra_parm->size > 0) rtw_mfree(…)` for a `_Set_Drv_Extra`. -/
def freePbuf (o : CmdObj) (f : Freed) : Freed :=
  if o.hasPbuf then { f with pbuf := f.pbuf + 1 } else f

/-- The functions of `rtw_cmd_callback`. -/
inductive CmdCallback where
  | getmacreg
  | getbbrfreg
  | joinbss
  | disassoc
  | survey
  | setstaKey
  | setassocsta
deriving DecidableEq, Repr

/-- `rtw_cmd_callback[cmdcode].callback`. -/
def rtwCmdCallback (cmdcode : Nat) : Option CmdCallback :=
  if cmdcode = readMacregCmd then some .getmacreg
  else if cmdcode = readBbregCmd ∨ cmdcode = readRfregCmd then some .getbbrfreg
  else if cmdcode = joinBssCmd then some .joinbss
  else if cmdcode = disConnectCmd then some .disassoc
  else if cmdcode = siteSurveyCmd then some .survey
  else if cmdcode = setStaKeyCmd then some .setstaKey
  else if cmdcode = setAssocStaCmd then some .setassocsta
  else none

/-- What a callback frees.  `rtw_getbbrfreg_cmdrsp_callback` frees `parmbuf` and the object
itself; `rtw_disassoc_cmd_callback` leaves before it frees anything when the command failed. -/
def CmdCallback.free (callback : CmdCallback) (o : CmdObj) (f : Freed) : Freed :=
  match callback with
  | .disassoc => if o.res ≠ h2cSuccess then f else rtwFreeCmdObj o f
  | .getbbrfreg => { f with parm := if o.parmbuf then f.parm + 1 else f.parm, obj := f.obj + 1 }
  | _ => rtwFreeCmdObj o f

/-- The end of the loop body of `rtw_cmd_thread`. -/
def callBack (o : CmdObj) (f : Freed) : Freed :=
  if o.cmdcode < numCmds then
    match rtwCmdCallback o.cmdcode with
    | none => rtwFreeCmdObj o f
    | some callback => callback.free o f
  else rtwFreeCmdObj o f

/-! ## 2. The state -/

/-- Where the caller of `rtw_enqueue_cmd` is: `filtered` between the filter and the queue,
`rejected` and `returned` when its function has returned, `wait` and `check` on the way through
`rtw_sctx_wait` and the check of the context. -/
inductive CallPc where
  | idle
  | filtered
  | rejected
  | wait
  | check
  | returned
deriving DecidableEq, Repr

/-- Where `rtw_cmd_thread` is in `if (pcmd->sctx) rtw_sctx_done_err(&pcmd->sctx, …)`, with
`sctx_mutex` held. -/
inductive DoneStage where
  | store
  | complete
  | setNull
deriving DecidableEq, Repr

/-- Where `rtw_cmd_thread` is; `last` says that it is in the final loop. -/
inductive ThreadPc where
  | off
  | top
  | awake
  | next
  | dequeue
  | taken (c : CmdId)
  | filter (c : CmdId)
  | alive (c : CmdId)
  | exec (c : CmdId)
  | drop (c : CmdId)
  | post (c : CmdId) (last : Bool)
  | done (c : CmdId) (stage : DoneStage) (last : Bool)
  | callback (c : CmdId) (last : Bool)
  | leaving
  | drain
deriving DecidableEq, Repr

/-- A command, its caller, the context on the stack of the caller, how often it was completed and
what was freed. -/
structure Cmd where
  obj : CmdObj
  call : CallPc
  ctx : SubmitCtx
  completed : Nat
  freed : Freed
deriving DecidableEq, Repr

/-- `inserted`, `aside` and `executed` record the commands that were put at the tail of the queue,
those the thread is done with, and those whose handler ran.  `fault` records that a context was
used after its function had returned, or a command after it was freed. -/
structure World where
  hwInitCompleted : Bool
  cannotRun : Bool
  cmdthdRunning : Bool
  queue : List CmdId
  sema : Nat
  thread : ThreadPc
  cmds : CmdId → Cmd
  inserted : List CmdId
  aside : List CmdId
  executed : List CmdId
  fault : Bool

def Cmd.idle : Cmd :=
  { obj := ⟨0, 0, false, false, false, 0, false, 0⟩, call := .idle, ctx := rtwSctxInit
    completed := 0, freed := ⟨0, 0, 0⟩ }

/-- After `_rtw_init_cmd_priv`, with no thread yet. -/
def start : World :=
  { hwInitCompleted := false, cannotRun := false, cmdthdRunning := false, queue := [], sema := 0
    thread := .off, cmds := fun _ => .idle, inserted := [], aside := [], executed := []
    fault := false }

/-- The command in the thread's hand. -/
def ThreadPc.hand : ThreadPc → Option CmdId
  | .taken c | .filter c | .alive c | .exec c | .drop c => some c
  | .post c _ | .done c _ _ | .callback c _ => some c
  | _ => none

/-- The thread has `sctx_mutex`. -/
def ThreadPc.locked : ThreadPc → Bool
  | .done _ _ _ => true
  | _ => false

namespace World

def setCmd (w : World) (c : CmdId) (x : Cmd) : World :=
  { w with cmds := Function.update w.cmds c x }

def setThread (w : World) (pc : ThreadPc) : World := { w with thread := pc }

/-- `rtw_cmd_filter`, where it returns `_FAIL`. -/
def filtersOut (w : World) (o : CmdObj) : Bool :=
  let bAllow := o.cmdcode = setChannelPlanCmd ∨ o.noIo
  (w.hwInitCompleted = false ∧ ¬bAllow) ∨ w.cmdthdRunning = false

/-! ## 3. The thread -/

/-- The status for the context of a command. -/
def doneStatus (o : CmdObj) (last : Bool) : SctxStatus :=
  if last then .doneCmdDrop else if o.res = h2cSuccess then .doneSuccess else .doneCmdError

/-- A step of `rtw_cmd_thread` at its loop head or with an empty hand.  `ok` is the result of
`_rtw_down_sema`. -/
def threadIdle (w : World) (pc : ThreadPc) (ok : Bool) : Option World :=
  match pc with
  | .top =>
    if ok then
      if w.sema = 0 then none else some { w with sema := w.sema - 1, thread := .awake }
    else some (w.setThread .leaving)
  | .awake =>
    if w.cannotRun then some (w.setThread .leaving)
    else if w.queue = [] then some (w.setThread .top)
    else some (w.setThread .next)
  | .next => some (w.setThread (if w.cannotRun then .leaving else .dequeue))
  | .dequeue =>
    match w.queue with
    | [] => some (w.setThread .top)
    | c :: q => some { w with queue := q, thread := .taken c }
  | .leaving => some { w with cmdthdRunning := false, thread := .drain }
  | .drain =>
    match w.queue with
    | [] => some (w.setThread .off)
    | c :: q => some { w with queue := q, thread := .drop c }
  | _ => none

/-- A step of `rtw_cmd_thread` with command `c` in its hand.  `ok` is the result of
`rtw_register_cmd_alive`, `ret` that of the handler (`rtw_drvextra_cmd_hdl` frees `pbuf`). -/
def threadStep (w : World) (c : CmdId) (pc : ThreadPc) (ok : Bool) (ret : UInt8) : World :=
  let x := w.cmds c
  match pc with
  | .taken _ =>
    if x.obj.cmdsz > maxCmdsz ∨ x.obj.cmdcode ≥ numCmds ∨ noCmdHdl x.obj.cmdcode then
      (w.setCmd c { x with obj := { x.obj with res := h2cParametersError } }).setThread
        (.post c false)
    else w.setThread (.filter c)
  | .filter _ =>
    if w.filtersOut x.obj then
      (w.setCmd c
        { x with
          obj := { x.obj with res := h2cDropped }
          freed := freePbuf x.obj x.freed }).setThread (.post c false)
    else w.setThread (.alive c)
  | .alive _ =>
    if x.obj.noIo ∨ ok then w.setThread (.exec c)
    else
      { w.setCmd c { x with obj := { x.obj with res := h2cEnqHead } } with
        queue := c :: w.queue
        thread := .top }
  | .exec _ =>
    { w.setCmd c
        { x with obj := { x.obj with res := ret }, freed := freePbuf x.obj x.freed } with
      executed := w.executed ++ [c]
      thread := .post c false }
  | .drop _ =>
    (w.setCmd c { x with freed := freePbuf x.obj x.freed }).setThread (.post c true)
  | .post _ last =>
    w.setThread (if x.obj.sctx then .done c .store last else .callback c last)
  | .done _ .store last =>
    { w.setCmd c { x with ctx := x.ctx.store (doneStatus x.obj last) } with
      thread := .done c .complete last
      fault := w.fault || x.call = .returned }
  | .done _ .complete last =>
    { w.setCmd c { x with ctx := x.ctx.complete, completed := x.completed + 1 } with
      thread := .done c .setNull last
      fault := w.fault || x.call = .returned }
  | .done _ .setNull last =>
    (w.setCmd c { x with obj := { x.obj with sctx := false } }).setThread (.callback c last)
  | .callback _ last =>
    { w.setCmd c
        { x with
          freed := if last then rtwFreeCmdObj x.obj x.freed else callBack x.obj x.freed } with
      aside := w.aside ++ [c]
      thread := if last then .drain else .next }
  | _ => w

/-! ## 4. The steps -/

inductive Act where
  | env (hwInitCompleted cannotRun : Bool)
  | upSema
  | startThread
  | submit (c : CmdId) (o : CmdObj)
  | insert (c : CmdId)
  | wake (c : CmdId)
  | timeout (c : CmdId)
  | check (c : CmdId)
  | thread (ok : Bool) (ret : UInt8)
deriving DecidableEq, Repr

/-- One step.  `env` is everything that changes `hw_init_completed`, `bDriverStopped` and
`bSurpriseRemoved`; `upSema` is `rtw_stop_cmd_thread` or `cpwm_int_hdl`.  `submit` and `insert` are
the two halves of `rtw_enqueue_cmd`; whoever calls it with a `_Set_Drv_Extra` has given it a
`parmbuf`.  `wake`, `timeout` and `check` are the waiting of `rtw_mp_cmd` and its siblings, and
`check` needs the mutex. -/
def step (w : World) : Act → Option World
  | .env hw cannotRun => some { w with hwInitCompleted := hw, cannotRun := cannotRun }
  | .upSema => some { w with sema := w.sema + 1 }
  | .startThread =>
    if w.thread = .off then some { w with cmdthdRunning := true, thread := .top } else none
  | .submit c o =>
    let x := w.cmds c
    if x.call = .idle ∧ (o.cmdcode = setDrvExtraCmd → o.parmbuf = true) then
      if w.filtersOut o ∨ o.cmdsz > maxCmdsz then
        some (w.setCmd c
          { x with obj := o, call := .rejected, freed := rtwFreeCmdObj o (freePbuf o x.freed) })
      else some (w.setCmd c { x with obj := o, call := .filtered })
    else none
  | .insert c =>
    let x := w.cmds c
    if x.call = .filtered then
      some
        { w.setCmd c { x with call := if x.obj.sctx then .wait else .returned } with
          queue := w.queue ++ [c]
          inserted := w.inserted ++ [c]
          sema := w.sema + 1 }
    else none
  | .wake c =>
    let x := w.cmds c
    if x.call = .wait ∧ x.ctx.done ≠ 0 then
      some (w.setCmd c { x with call := .check, ctx := x.ctx.take })
    else none
  | .timeout c =>
    let x := w.cmds c
    if x.call = .wait ∧ x.ctx.done = 0 then some (w.setCmd c { x with call := .check }) else none
  | .check c =>
    let x := w.cmds c
    if x.call = .check ∧ w.thread.locked = false then
      if x.ctx.status = .submitted then
        some
          { w.setCmd c { x with call := .returned, obj := { x.obj with sctx := false } } with
            fault := w.fault || x.freed.obj ≠ 0 }
      else some (w.setCmd c { x with call := .returned })
    else none
  | .thread ok ret =>
    match w.thread.hand with
    | some c => some (w.threadStep c w.thread ok ret)
    | none => w.threadIdle w.thread ok

/-- A run of the threads: some interleaving of their steps. -/
def run (w : World) (acts : List Act) : Option World := acts.foldlM step w

/-- A step in order: nothing is put into the queue after the thread has emptied it for the last
time, and no `_DisConnect` is finished that was not successful. -/
def stepOk (w : World) : Act → Bool
  | .insert _ => w.thread ≠ .off
  | .thread _ _ =>
    match w.thread with
    | .callback c false =>
      (w.cmds c).obj.cmdcode ≠ disConnectCmd ∨ (w.cmds c).obj.res = h2cSuccess
    | _ => true
  | _ => true

/-- Every step of the run is in order. -/
def runOk (w : World) : List Act → Bool
  | [] => true
  | a :: acts =>
    w.stepOk a &&
      match w.step a with
      | some w' => w'.runOk acts
      | none => true

end World

end CmdQueue

end Rtl8723bs
