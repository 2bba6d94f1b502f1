/-
# Low power with the clock off

In LPS LCLK the firmware may stop its clock, and while it does a register is not to be read or
written.  The driver asks with an RPWM for a power state: below `PS_STATE_S2` the clock may
stop, from there on it runs.  The firmware answers with a CPWM.  Who needs the device registers
a task, and the firmware is sent to sleep when no task is left.

Each function takes the power lock once (the work item twice), so that a step is one holding of
the lock, or a read outside it.  What a step reads of the device, the coexistence code and the
other interfaces is an `Env` of its own.
-/
import Mathlib.Algebra.Group.Nat.Defs

namespace Rtl8723bs

namespace LpsLclk

/-! ## 1. States and flags -/

/-- `PS_STATE(x)`. -/
def psState (x : UInt8) : UInt8 := 0x0F &&& x

/-- `PS_STATE_S0`; `PS_STATE_S1` is the same value. -/
def psStateS0 : UInt8 := 1

def psStateS2 : UInt8 := 2

def psStateS4 : UInt8 := 12

/-- `PS_ACK`: the firmware is to answer. -/
def psAck : UInt8 := 0x40

def psToggle : UInt8 := 0x80

def xmitAlive : BitVec 32 := 0x01

def cmdAlive : BitVec 32 := 0x04

/-- `PS_MODE_ACTIVE`, the first of the modes. -/
def psModeActive : UInt8 := 0

/-- `PM_Card_Disable`, the last of them. -/
def pmCardDisable : UInt8 := 10

/-- `LPS_NORMAL`: no LCLK. -/
def lpsNormal : UInt8 := 0

/-- What the functions here use of `struct pwrctrl_priv`. -/
structure Pwrctrl where
  rpwm : UInt8
  cpwm : UInt8
  tog : UInt8
  cpwmTog : UInt8
  pwrMode : UInt8
  bFwCurrentInPSMode : Bool
  brpwmtimeout : Bool
  alives : BitVec 32
deriving DecidableEq, Repr

/-- `rtw_init_pwrctrl_priv`. -/
def rtwInitPwrctrlPriv : Pwrctrl :=
  ⟨0, psStateS4, 0x80, 0, psModeActive, false, false, 0⟩

/-- What a step reads besides `pwrctrl_priv`: the state of the adapter, the level, the CPWM
register before the write and at each poll until the time is over, what the coexistence code
says (`lpsVal` is `rtw_btcoex_LpsVal`), `opp_ps` of P2P, whether an interface that is up has a
P2P power save mode, and whether `PS_RDY_CHECK` passes for an associated station. -/
structure Env where
  surpriseRemoved : Bool
  hwInitCompleted : Bool
  drvStopped : Bool
  lpsLevel : UInt8
  cpwmOrig : UInt8
  polls : List UInt8
  btDisabled : Bool
  btControlLps : Bool
  btLpsOn : Bool
  lpsVal : UInt8
  oppPs : UInt8
  p2pPs : Bool
  psReady : Bool
deriving DecidableEq, Repr

/-- `RTW_CANNOT_RUN`. -/
def Env.cannotRun (env : Env) : Bool := env.surpriseRemoved || env.drvStopped

/-! ## 2. The RPWM -/

/-- The toggle bit of the CPWM register is not the one it was. -/
def toggled (cpwmOrig cpwmNow : UInt8) : Bool := (cpwmOrig ^^^ cpwmNow) &&& 0x80 != 0

/-- `rtw_cpwm_polling`. -/
def rtwCpwmPolling (cpwmOrig : UInt8) (p : Pwrctrl) : List UInt8 → Pwrctrl
  | [] => p
  | cpwmNow :: polls =>
    if toggled cpwmOrig cpwmNow then
      { p with cpwm := psStateS4, cpwmTog := cpwmNow &&& psToggle }
    else rtwCpwmPolling cpwmOrig p polls

/-- `rtw_set_rpwm`, with the byte it writes into the RPWM register. -/
def rtwSetRpwm (env : Env) (level : UInt8) (p : Pwrctrl) : Pwrctrl × Option UInt8 :=
  let pslv := psState level
  if !p.brpwmtimeout && (p.rpwm == pslv || (psStateS2 ≤ p.rpwm && psStateS2 ≤ pslv)
      || env.lpsLevel == lpsNormal) then
    (p, none)
  else if env.surpriseRemoved || !env.hwInitCompleted then
    ({ p with cpwm := psStateS4 }, none)
  else if env.drvStopped && pslv < psStateS2 then
    (p, none)
  else
    let byte := pslv ||| p.tog
    -- only from S0 or S1 to S2 and higher an answer is needed
    let rpwm := if p.cpwm < psStateS2 && psStateS2 ≤ pslv then byte ||| psAck else byte
    let p' := { p with rpwm := pslv, tog := p.tog + 0x80 }
    (if rpwm &&& psAck != 0 then rtwCpwmPolling env.cpwmOrig p' env.polls
      else { p' with cpwm := pslv }, some rpwm)

/-- `cpwm_int_hdl`. -/
def cpwmIntHdl (env : Env) (state : UInt8) (p : Pwrctrl) : Pwrctrl :=
  if env.cannotRun then p
  else if p.rpwm < psStateS2 then p
  else { p with cpwm := psState state, cpwmTog := state &&& psToggle }

/-- The tests of the RPWM timeout: the CPWM is there. -/
def cpwmDone (p : Pwrctrl) : Bool := p.rpwm == p.cpwm || psStateS2 ≤ p.cpwm

/-! ## 3. What there is -/

/-- How far a call that registers a task is: `unsure` has left the lock with `_FAIL` and has not
read `cpwm` again. -/
inductive CallPc where
  | unsure
  | success
  | fail
deriving DecidableEq, Repr

/-- A call that registers a task; `tag` is what was not unregistered of it since. -/
structure Call where
  tag : BitVec 32
  pc : CallPc
deriving DecidableEq, Repr

/-- The call has returned `_SUCCESS` and its tag is not unregistered. -/
def Call.live (k : Call) : Bool := k.pc = .success && k.tag != 0

/-- The driver and the firmware.  `psModes` are the modes of `rtw_set_ps_mode` calls on their way
to the lock, `reading` says that the work item of the RPWM timer is between its two holdings of
it.  `writes` are the bytes written to the RPWM register, each with the tasks registered then,
and `fwAwake` says that the firmware runs its clock. -/
structure World where
  p : Pwrctrl
  calls : List Call
  psModes : List UInt8
  reading : Bool
  writes : List (UInt8 × BitVec 32)
  fwAwake : Bool
deriving DecidableEq, Repr

/-- The driver after `rtw_init_pwrctrl_priv`, the firmware awake. -/
def World.start : World := ⟨rtwInitPwrctrlPriv, [], [], false, [], true⟩

/-- `rtw_set_rpwm` on the device: an RPWM below `PS_STATE_S2` lets the firmware sleep, and it is
awake when it answers. -/
def World.setRpwm (env : Env) (pslv : UInt8) (w : World) : World :=
  match rtwSetRpwm env pslv w.p with
  | (p, none) => { w with p := p }
  | (p, some rpwm) =>
    { w with
      p := p
      writes := w.writes ++ [(rpwm, w.p.alives)]
      fwAwake := psStateS2 ≤ psState rpwm &&
        (w.fwAwake || (rpwm &&& psAck != 0 && env.polls.any (toggled env.cpwmOrig))) }

/-! ## 4. The tasks -/

/-- The functions that register a task, under the lock. -/
def World.registerAlive (task : BitVec 32) (env : Env) (w : World) : World :=
  let pslv := psStateS2
  let w := { w with p := { w.p with alives := w.p.alives ||| task } }
  if w.p.bFwCurrentInPSMode && w.p.cpwm < pslv then
    let pc := if w.p.cpwm < psStateS2 then CallPc.unsure else .success
    let w := if w.p.rpwm < pslv then w.setRpwm env pslv else w
    { w with calls := w.calls ++ [⟨task, pc⟩] }
  else { w with calls := w.calls ++ [⟨task, .success⟩] }

/-- `rtw_register_task_alive`. -/
def World.rtwRegisterTaskAlive (task : BitVec 32) (env : Env) (w : World) : World :=
  w.registerAlive task env

/-- `rtw_register_tx_alive`. -/
def World.rtwRegisterTxAlive (env : Env) (w : World) : World := w.registerAlive xmitAlive env

/-- `rtw_register_cmd_alive`. -/
def World.rtwRegisterCmdAlive (env : Env) (w : World) : World := w.registerAlive cmdAlive env

/-- The end of these functions, outside the lock: one that has `_FAIL` reads `cpwm` again. -/
def World.recheck (i : Nat) (w : World) : World :=
  { w with calls := w.calls.modify i fun k =>
      if k.pc = .unsure then
        { k with pc := if psStateS2 ≤ w.p.cpwm then .success else .fail }
      else k }

/-- The level the firmware may go down to for the coexistence code. -/
def btPslv (env : Env) : UInt8 :=
  if !env.btDisabled && env.btControlLps && env.lpsVal &&& 0x10 != 0 then psStateS2
  else psStateS0

/-- The same, with the P2P power save of the interfaces. -/
def p2pPslv (env : Env) : UInt8 := if env.p2pPs then psStateS2 else btPslv env

/-- The functions that unregister a task. -/
def World.unregisterAlive (pslv : UInt8) (task : BitVec 32) (env : Env) (w : World) : World :=
  let w := { w with
    p := { w.p with alives := w.p.alives &&& ~~~task }
    calls := w.calls.map fun k => { k with tag := k.tag &&& ~~~task } }
  if w.p.pwrMode != psModeActive && w.p.bFwCurrentInPSMode && pslv < w.p.cpwm
      && (psStateS2 ≤ pslv || w.p.alives == 0) then
    w.setRpwm env pslv
  else w

/-- `rtw_unregister_task_alive`. -/
def World.rtwUnregisterTaskAlive (task : BitVec 32) (env : Env) (w : World) : World :=
  w.unregisterAlive (btPslv env) task env

/-- `rtw_unregister_tx_alive`. -/
def World.rtwUnregisterTxAlive (env : Env) (w : World) : World :=
  w.unregisterAlive (p2pPslv env) xmitAlive env

/-- `rtw_unregister_cmd_alive`. -/
def World.rtwUnregisterCmdAlive (env : Env) (w : World) : World :=
  w.unregisterAlive (p2pPslv env) cmdAlive env

/-! ## 5. The modes -/

/-- `rtw_set_ps_mode` before the lock: it does not go on with a mode there is not, nor leaves
when it is not in power save. -/
def World.rtwSetPsModeCheck (psMode : UInt8) (w : World) : World :=
  if pmCardDisable < psMode then w
  else if w.p.pwrMode == psMode && psMode == psModeActive then w
  else { w with psModes := psMode :: w.psModes }

/-- The condition to leave. -/
def leaveAllowed (env : Env) : Bool :=
  (!env.btControlLps && env.oppPs == 0) || (env.btControlLps && !env.btLpsOn)

/-- The condition to enter. -/
def enterAllowed (env : Env) : Bool := env.psReady || (env.btControlLps && env.btLpsOn)

/-- The level to enter at. -/
def enterPslv (env : Env) (p : Pwrctrl) : UInt8 :=
  if !env.btDisabled && env.btControlLps && env.lpsVal &&& 0x10 != 0 then psStateS2
  else if p.alives == 0 then psStateS0
  else psStateS2

/-- Leaving: the firmware is told `PS_STATE_S4` and counts as out of power save. -/
def World.leave (env : Env) (w : World) : World :=
  let w := { w with p := { w.p with pwrMode := psModeActive } }
  let w := w.setRpwm env psStateS4
  { w with p := { w.p with bFwCurrentInPSMode := false } }

/-- Entering. -/
def World.enter (psMode : UInt8) (env : Env) (w : World) : World :=
  let w := { w with p := { w.p with bFwCurrentInPSMode := true, pwrMode := psMode } }
  w.setRpwm env (enterPslv env w.p)

/-- `rtw_set_ps_mode` under the lock. -/
def World.rtwSetPsMode (psMode : UInt8) (env : Env) (w : World) : World :=
  let w := { w with psModes := w.psModes.erase psMode }
  if psMode == psModeActive then
    if leaveAllowed env then w.leave env else w
  else if enterAllowed env then w.enter psMode env
  else w

/-! ## 6. Interrupt and timeout -/

/-- `cpwm_int_hdl`. -/
def World.cpwmInt (env : Env) (state : UInt8) (w : World) : World :=
  { w with p := cpwmIntHdl env state w.p }

/-- `rpwmtimeout_workitem_callback` until it leaves the lock the first time. -/
def World.rpwmTimeoutCheck (env : Env) (w : World) : World :=
  if env.cannotRun || cpwmDone w.p then w else { w with reading := true }

/-- The rest of it: `cr` is what it reads from `REG_CR`. -/
def World.rpwmTimeout (cr : UInt8) (env : Env) (w : World) : World :=
  let w := { w with reading := false }
  if cr != 0xEA then w.cpwmInt env psStateS2
  else if cpwmDone w.p then w
  else
    let w := { w with p := { w.p with brpwmtimeout := true } }
    let w := w.setRpwm env w.p.rpwm
    { w with p := { w.p with brpwmtimeout := false } }

/-! ## 7. Runs -/

/-- What can happen next.  `fwWake` is the firmware that wakes as it was told, whether or not
the driver sees its answer. -/
inductive Act where
  | registerTask (task : BitVec 32) (env : Env)
  | registerTx (env : Env)
  | registerCmd (env : Env)
  | recheck (i : Nat)
  | unregisterTask (task : BitVec 32) (env : Env)
  | unregisterTx (env : Env)
  | unregisterCmd (env : Env)
  | setPsModeCheck (psMode : UInt8)
  | setPsMode (psMode : UInt8) (env : Env)
  | cpwmInt (state : UInt8) (env : Env)
  | rpwmTimeoutCheck (env : Env)
  | rpwmTimeout (cr : UInt8) (env : Env)
  | fwWake
deriving DecidableEq, Repr

/-- One step; `none` where it cannot be taken. -/
def World.step (w : World) : Act → Option World
  | .registerTask task env => some (w.rtwRegisterTaskAlive task env)
  | .registerTx env => some (w.rtwRegisterTxAlive env)
  | .registerCmd env => some (w.rtwRegisterCmdAlive env)
  | .recheck i => some (w.recheck i)
  | .unregisterTask task env => some (w.rtwUnregisterTaskAlive task env)
  | .unregisterTx env => some (w.rtwUnregisterTxAlive env)
  | .unregisterCmd env => some (w.rtwUnregisterCmdAlive env)
  | .setPsModeCheck psMode => some (w.rtwSetPsModeCheck psMode)
  | .setPsMode psMode env =>
    if psMode ∈ w.psModes then some (w.rtwSetPsMode psMode env) else none
  | .cpwmInt state env => some (w.cpwmInt env state)
  | .rpwmTimeoutCheck env => if w.reading then none else some (w.rpwmTimeoutCheck env)
  | .rpwmTimeout cr env => if w.reading then some (w.rpwmTimeout cr env) else none
  | .fwWake => if psStateS2 ≤ w.p.rpwm then some { w with fwAwake := true } else none

/-- A run, any number of steps in any order. -/
def World.run (w : World) (acts : List Act) : Option World := acts.foldlM World.step w

end LpsLclk

end Rtl8723bs
