/-
# Every run of LPS LCLK

The firmware is told to sleep only when no task is registered, whatever happens.  That a task
which is told it may go on finds the firmware awake needs more: `rtw_set_ps_mode` takes the
firmware for out of power save when it has told it so, answered or not.  Where each such call
finds the firmware awake, or gets its answer, every task has what it was told.
-/
import Rtl8723bs.Pwr.LpsLclk
import Rtl8723bs.Lib.Bytes

namespace Rtl8723bs

namespace LpsLclk

/-! ## 1. The bytes -/

/-- A level is a level. -/
def IsLevel (x : UInt8) : Prop := psState x = x

theorem isLevel_S2 : IsLevel psStateS2 := rfl

theorem isLevel_S4 : IsLevel psStateS4 := rfl

/-- The toggle, and no other bit. -/
def IsTog (x : UInt8) : Prop := x = 0 ∨ x = 0x80

theorem psState_idem : ∀ x : UInt8, psState (psState x) = psState x :=
  UInt8.forall_byte (by decide +kernel)

theorem psState_tog {tog : UInt8} (htog : IsTog tog) :
    ∀ x : UInt8, IsLevel x → psState (x ||| tog) = x ∧ psState (x ||| tog ||| psAck) = x := by
  unfold IsLevel
  rcases htog with rfl | rfl <;> exact UInt8.forall_byte (by decide +kernel)

theorem ack_tog {tog : UInt8} (htog : IsTog tog) :
    ∀ x : UInt8, IsLevel x → (x ||| tog) &&& psAck = 0 ∧ (x ||| tog ||| psAck) &&& psAck = psAck := by
  unfold IsLevel
  rcases htog with rfl | rfl <;> exact UInt8.forall_byte (by decide +kernel)

theorem IsTog.next {tog : UInt8} (htog : IsTog tog) : IsTog (tog + 0x80) := by
  rcases htog with rfl | rfl
  · exact .inr rfl
  · exact .inl rfl

/-! ## 2. One RPWM -/

/-- The firmware answers an RPWM in time. -/
def Env.answers (env : Env) : Bool := env.polls.any (toggled env.cpwmOrig)

theorem rtwCpwmPolling_eq (orig : UInt8) (p : Pwrctrl) (polls : List UInt8) :
    ∃ t, rtwCpwmPolling orig p polls =
      if polls.any (toggled orig) then { p with cpwm := psStateS4, cpwmTog := t } else p := by
  induction polls with
  | nil => exact ⟨0, by simp [rtwCpwmPolling]⟩
  | cons now polls ih =>
    obtain ⟨t, ht⟩ := ih
    by_cases hnow : toggled orig now = true
    · exact ⟨now &&& psToggle, by simp [rtwCpwmPolling, hnow]⟩
    · exact ⟨t, by simp [rtwCpwmPolling, hnow, ht]⟩

/-- What `rtw_set_rpwm` can do to a world: nothing; give the chip up; write an RPWM that needs no
answer; write one that does, and get it or not. -/
inductive Told (env : Env) (pslv : UInt8) (w : World) : World → Prop where
  | skip (h : w.p.brpwmtimeout = false ∧ (w.p.rpwm = pslv ∨ psStateS2 ≤ w.p.rpwm ∨
      env.lpsLevel = lpsNormal) ∨ pslv < psStateS2) : Told env pslv w w
  | gone : Told env pslv w { w with p := { w.p with cpwm := psStateS4 } }
  | plain (b : UInt8) (hb : psState b = pslv) (h : psStateS2 ≤ w.p.cpwm ∨ pslv < psStateS2) :
      Told env pslv w
        { w with
          p := { w.p with rpwm := pslv, tog := w.p.tog + 0x80, cpwm := pslv }
          writes := w.writes ++ [(b, w.p.alives)]
          fwAwake := psStateS2 ≤ pslv && w.fwAwake }
  | answered (b t : UInt8) (hb : psState b = pslv) (h : psStateS2 ≤ pslv) :
      Told env pslv w
        { w with
          p := { w.p with rpwm := pslv, tog := w.p.tog + 0x80, cpwm := psStateS4, cpwmTog := t }
          writes := w.writes ++ [(b, w.p.alives)]
          fwAwake := true }
  | unanswered (b : UInt8) (hb : psState b = pslv) (h : psStateS2 ≤ pslv)
      (hcpwm : w.p.cpwm < psStateS2) (hans : env.answers = false)
      (hrun : env.surpriseRemoved = false ∧ env.hwInitCompleted = true) :
      Told env pslv w
        { w with
          p := { w.p with rpwm := pslv, tog := w.p.tog + 0x80 }
          writes := w.writes ++ [(b, w.p.alives)] }

/-- The part of `rtw_set_rpwm` that writes. -/
theorem told_write {env : Env} {pslv : UInt8} (hpslv : IsLevel pslv) {w : World}
    (htog : IsTog w.p.tog) (hrun : env.surpriseRemoved = false ∧ env.hwInitCompleted = true)
    (hset : rtwSetRpwm env pslv w.p =
      let byte := pslv ||| w.p.tog
      let rpwm := if w.p.cpwm < psStateS2 && psStateS2 ≤ pslv then byte ||| psAck else byte
      let p' := { w.p with rpwm := pslv, tog := w.p.tog + 0x80 }
      (if rpwm &&& psAck != 0 then rtwCpwmPolling env.cpwmOrig p' env.polls
        else { p' with cpwm := pslv }, some rpwm)) :
    Told env pslv w (w.setRpwm env pslv) := by
  obtain ⟨hstate, hstateAck⟩ := psState_tog htog pslv hpslv
  obtain ⟨hack, hackAck⟩ := ack_tog htog pslv hpslv
  unfold World.setRpwm
  rw [hset]
  by_cases hneed : w.p.cpwm < psStateS2 ∧ psStateS2 ≤ pslv
  · obtain ⟨t, ht⟩ := rtwCpwmPolling_eq env.cpwmOrig
      { w.p with rpwm := pslv, tog := w.p.tog + 0x80 } env.polls
    have hne : (psAck != 0) = true := by decide
    simp only [hneed.1, hneed.2, decide_true, Bool.and_self, if_true, hackAck, hne, hstateAck, ht,
      Bool.true_and]
    cases hans : env.polls.any (toggled env.cpwmOrig) with
    | true => simpa using Told.answered _ t hstateAck hneed.2
    | false => simpa using Told.unanswered _ hstateAck hneed.2 hneed.1 hans hrun
  · have hplain : (w.p.cpwm < psStateS2 && psStateS2 ≤ pslv) = false := by
      grind -ring -linarith
    simp only [hplain, Bool.false_eq_true, if_false, hack, hstate, bne_self_eq_false,
      Bool.false_and, Bool.or_false]
    exact Told.plain _ hstate (by grind -ring -linarith)

/-- `rtw_set_rpwm` has nothing to write. -/
def skips (env : Env) (pslv : UInt8) (p : Pwrctrl) : Bool :=
  !p.brpwmtimeout && (p.rpwm == pslv || (psStateS2 ≤ p.rpwm && psStateS2 ≤ pslv)
    || env.lpsLevel == lpsNormal)

theorem setRpwm_told (env : Env) {pslv : UInt8} (hpslv : IsLevel pslv) {w : World}
    (htog : IsTog w.p.tog) : Told env pslv w (w.setRpwm env pslv) := by
  have hset := rtwSetRpwm.eq_1 env pslv w.p
  rw [show psState pslv = pslv from hpslv] at hset
  change _ = if skips env pslv w.p then _ else _ at hset
  by_cases hskip : skips env pslv w.p = true
  · rw [if_pos hskip] at hset
    rw [World.setRpwm, hset]
    exact .skip (by grind -ring -linarith [skips])
  rw [if_neg hskip] at hset
  by_cases hgone : (env.surpriseRemoved || !env.hwInitCompleted) = true
  · rw [if_pos hgone] at hset
    rw [World.setRpwm, hset]
    exact .gone
  rw [if_neg hgone] at hset
  by_cases hstop : (env.drvStopped && pslv < psStateS2) = true
  · rw [if_pos hstop] at hset
    rw [World.setRpwm, hset]
    exact .skip (by grind -ring -linarith)
  rw [if_neg hstop] at hset
  exact told_write hpslv htog (by simpa using hgone) hset

/-! ## 3. What holds of every run -/

/-- The tags of the calls are in the mask, and the firmware was told to sleep only when the mask
was empty.  After an RPWM below `PS_STATE_S2` the driver waits for no answer. -/
@[grind cases]
structure Inv (w : World) : Prop where
  level : IsLevel w.p.rpwm
  tog : IsTog w.p.tog
  sleep : w.p.rpwm < psStateS2 → w.p.cpwm = w.p.rpwm ∨ psStateS2 ≤ w.p.cpwm
  writes : ∀ e ∈ w.writes, psState e.1 < psStateS2 → e.2 = 0
  tags : ∀ k ∈ w.calls, k.tag &&& ~~~w.p.alives = 0

/-- An RPWM below `PS_STATE_S2` is sent only when no task is registered. -/
theorem Told.inv {env : Env} {pslv : UInt8} {w w' : World} (htold : Told env pslv w w')
    (hpslv : IsLevel pslv) (hlow : pslv < psStateS2 → w.p.alives = 0) (h : Inv w) : Inv w' := by
  have htog := h.tog.next
  have hS4 : psStateS2 ≤ psStateS4 := by decide
  cases htold <;> constructor <;> grind -ring -linarith

/-! ## 4. Calls that were told they may go on -/

/-- A call has returned `_SUCCESS` and its tag is registered. -/
def World.live (w : World) : Bool := w.calls.any Call.live

/-- An RPWM sent now leaves `cpwm` at `PS_STATE_S2` or higher. -/
def World.wakes (w : World) (env : Env) : Bool :=
  psStateS2 ≤ w.p.cpwm || (w.p.rpwm < psStateS2 && env.lpsLevel != lpsNormal &&
    (env.surpriseRemoved || !env.hwInitCompleted || env.answers))

/-- While the firmware counts as out of power save it is awake, and while a call may go on. -/
@[grind cases]
structure Safe (w : World) : Prop where
  active : w.p.bFwCurrentInPSMode = false → psStateS2 ≤ w.p.cpwm ∨ w.fwAwake = true
  live : w.live = true →
    psStateS2 ≤ w.p.cpwm ∨ w.p.bFwCurrentInPSMode = false ∧ w.fwAwake = true

theorem Told.safe {env : Env} {pslv : UInt8} {w w' : World} (htold : Told env pslv w w')
    (hlow : psStateS2 ≤ pslv ∨ w.p.bFwCurrentInPSMode = true ∧ w.live = false) (h : Safe w) :
    Safe w' := by
  have hS4 : psStateS2 ≤ psStateS4 := by decide
  cases htold <;> constructor <;> grind -ring -linarith [World.live]

theorem Told.awake {env : Env} {pslv : UInt8} {w w' : World} (htold : Told env pslv w w')
    (hpslv : psStateS2 ≤ pslv) (hawake : w.fwAwake = true) : w'.fwAwake = true := by
  cases htold <;> grind -ring -linarith

theorem Told.wakes {env : Env} {pslv : UInt8} {w w' : World} (htold : Told env pslv w w')
    (hpslv : psStateS2 ≤ pslv) (hwakes : w.wakes env = true) : psStateS2 ≤ w'.p.cpwm := by
  have hS4 : psStateS2 ≤ psStateS4 := by decide
  cases htold <;> grind -ring -linarith [World.wakes]

/-- Nothing else changes. -/
theorem Told.frame {env : Env} {pslv : UInt8} {w w' : World} (htold : Told env pslv w w') :
    w'.p.pwrMode = w.p.pwrMode ∧ w'.p.bFwCurrentInPSMode = w.p.bFwCurrentInPSMode ∧
      w'.p.alives = w.p.alives ∧ w'.calls = w.calls := by
  cases htold <;> exact ⟨rfl, rfl, rfl, rfl⟩

/-! ## 5. Tags -/

theorem tag_or_left {tag alives : BitVec 32} (task : BitVec 32) (h : tag &&& ~~~alives = 0) :
    tag &&& ~~~(alives ||| task) = 0 := by
  rw [BitVec.not_or, ← BitVec.and_assoc, h]
  exact BitVec.zero_and

theorem tag_or_right (alives task : BitVec 32) : task &&& ~~~(alives ||| task) = 0 := by
  rw [BitVec.not_or, BitVec.and_comm (~~~alives), ← BitVec.and_assoc, BitVec.and_not_self]
  exact BitVec.zero_and

theorem tag_and {tag alives : BitVec 32} (task : BitVec 32) (h : tag &&& ~~~alives = 0) :
    tag &&& ~~~task &&& ~~~(alives &&& ~~~task) = 0 := by
  have hother : tag &&& ~~~task &&& ~~~alives = 0 := by
    rw [BitVec.and_assoc, BitVec.and_comm (~~~task), ← BitVec.and_assoc, h]
    exact BitVec.zero_and
  have hself : tag &&& ~~~task &&& task = 0 := by
    rw [BitVec.and_assoc, BitVec.and_comm (~~~task), BitVec.and_not_self]
    exact BitVec.and_zero
  rw [BitVec.not_and, BitVec.not_not, BitVec.and_or_distrib_left, hother, hself]
  exact BitVec.or_zero

theorem tag_of_empty {tag alives : BitVec 32} (h : tag &&& ~~~alives = 0) (halives : alives = 0) :
    tag = 0 := by
  have hall : ~~~(0 : BitVec 32) = BitVec.allOnes 32 := by decide
  rwa [halives, hall, BitVec.and_allOnes] at h

/-- Where no task is registered no call is under way. -/
theorem Inv.not_live {w : World} (h : Inv w) (halives : w.p.alives = 0) : w.live = false := by
  rw [World.live, List.any_eq_false]
  intro k hk hlive
  have htag := tag_of_empty (h.tags k hk) halives
  simp [Call.live, htag] at hlive

section Steps

variable {w : World} (h : Inv w)

include h

theorem Inv.register (task : BitVec 32) :
    Inv { w with p := { w.p with alives := w.p.alives ||| task } } :=
  { level := h.level, tog := h.tog, sleep := h.sleep, writes := h.writes
    tags := fun k hk => tag_or_left task (h.tags k hk) }

theorem Inv.addCall {k : Call} (hk : k.tag &&& ~~~w.p.alives = 0) :
    Inv { w with calls := w.calls ++ [k] } := by
  refine { level := h.level, tog := h.tog, sleep := h.sleep, writes := h.writes, tags := ?_ }
  intro k' hk'
  rcases List.mem_append.mp hk' with hk' | hk'
  · exact h.tags k' hk'
  · rw [List.mem_singleton.mp hk']
    exact hk

theorem Inv.unregister (task : BitVec 32) :
    Inv { w with
      p := { w.p with alives := w.p.alives &&& ~~~task }
      calls := w.calls.map fun k => { k with tag := k.tag &&& ~~~task } } := by
  refine { level := h.level, tog := h.tog, sleep := h.sleep, writes := h.writes, tags := ?_ }
  intro k' hk'
  obtain ⟨k, hk, rfl⟩ := List.mem_map.mp hk'
  exact tag_and task (h.tags k hk)

end Steps

theorem Safe.addCall {w : World} (h : Safe w) {k : Call}
    (hk : k.live = true → psStateS2 ≤ w.p.cpwm ∨ w.p.bFwCurrentInPSMode = false) :
    Safe { w with calls := w.calls ++ [k] } := by
  constructor <;> grind -ring -linarith [World.live]

theorem Safe.unregister {w : World} (h : Safe w) (task : BitVec 32) :
    Safe { w with
      p := { w.p with alives := w.p.alives &&& ~~~task }
      calls := w.calls.map fun k => { k with tag := k.tag &&& ~~~task } } := by
  refine ⟨h.active, fun hlive => h.live ?_⟩
  obtain ⟨k', hk', hlive'⟩ := List.any_eq_true.mp hlive
  obtain ⟨k, hk, rfl⟩ := List.mem_map.mp hk'
  refine List.any_eq_true.mpr ⟨k, hk, ?_⟩
  simp only [Call.live, Bool.and_eq_true, bne_iff_ne] at hlive' ⊢
  refine ⟨hlive'.1, fun htag => hlive'.2 ?_⟩
  rw [htag]
  exact BitVec.zero_and

/-! ## 6. The steps -/

theorem Inv.setRpwm {w : World} (h : Inv w) (env : Env) {pslv : UInt8} (hpslv : IsLevel pslv)
    (hlow : pslv < psStateS2 → w.p.alives = 0) : Inv (w.setRpwm env pslv) :=
  (setRpwm_told env hpslv h.tog).inv hpslv hlow h

theorem Safe.setRpwm {w : World} (h : Safe w) (hinv : Inv w) (env : Env) {pslv : UInt8}
    (hpslv : IsLevel pslv)
    (hlow : psStateS2 ≤ pslv ∨ w.p.bFwCurrentInPSMode = true ∧ w.live = false) :
    Safe (w.setRpwm env pslv) :=
  (setRpwm_told env hpslv hinv.tog).safe hlow h

theorem isLevel_btPslv (env : Env) : IsLevel (btPslv env) := by
  unfold btPslv
  split <;> rfl

theorem isLevel_p2pPslv (env : Env) : IsLevel (p2pPslv env) := by
  unfold p2pPslv
  split
  · rfl
  · exact isLevel_btPslv env

theorem isLevel_enterPslv (env : Env) (p : Pwrctrl) : IsLevel (enterPslv env p) := by
  unfold enterPslv
  split
  · rfl
  split <;> rfl

/-- `rtw_set_ps_mode` lets the firmware sleep when no task is registered. -/
theorem enterPslv_low (env : Env) (p : Pwrctrl) :
    psStateS2 ≤ enterPslv env p ∨ p.alives = 0 := by
  unfold enterPslv
  split
  · exact .inl (by decide)
  split
  · next halives => exact .inr (by simpa using halives)
  · exact .inl (by decide)

section Register

variable {w : World} (task : BitVec 32) (env : Env)

theorem Inv.registerAlive (h : Inv w) : Inv (w.registerAlive task env) := by
  have h' := h.register task
  have htag := tag_or_right w.p.alives task
  unfold World.registerAlive
  dsimp only
  split
  · split
    · refine (h'.setRpwm env isLevel_S2 fun hlow => absurd hlow (by decide)).addCall ?_
      rw [(setRpwm_told env isLevel_S2 h'.tog).frame.2.2.1]
      exact htag
    · exact h'.addCall htag
  · exact h'.addCall htag

/-- A call that registers a task goes on at once only where the firmware is taken to be awake. -/
theorem Safe.registerAlive (hinv : Inv w) (h : Safe w) : Safe (w.registerAlive task env) := by
  have hinv' := hinv.register task
  have h' : Safe { w with p := { w.p with alives := w.p.alives ||| task } } := ⟨h.active, h.live⟩
  unfold World.registerAlive
  dsimp only
  split
  · next hps =>
    have hlow : w.p.cpwm < psStateS2 := by simpa using (Bool.and_eq_true_iff.mp hps).2
    rw [if_pos hlow]
    split
    · exact (h'.setRpwm hinv' env isLevel_S2 (.inl (by decide))).addCall (by simp [Call.live])
    · exact h'.addCall (by simp [Call.live])
  · next hps =>
    refine h'.addCall fun _ => ?_
    grind -ring -linarith

end Register

section Unregister

variable {w : World} (task : BitVec 32) (env : Env) {pslv : UInt8}

theorem Inv.unregisterAlive (h : Inv w) (hpslv : IsLevel pslv) :
    Inv (w.unregisterAlive pslv task env) := by
  have h' := h.unregister task
  unfold World.unregisterAlive
  dsimp only
  split
  · next hps => exact h'.setRpwm env hpslv (by grind -ring -linarith)
  · exact h'

theorem Safe.unregisterAlive (hinv : Inv w) (h : Safe w) (hpslv : IsLevel pslv) :
    Safe (w.unregisterAlive pslv task env) := by
  have hinv' := hinv.unregister task
  have h' := h.unregister task
  unfold World.unregisterAlive
  dsimp only
  split
  · next hps =>
    refine h'.setRpwm hinv' env hpslv ?_
    have hnone := hinv'.not_live
    grind -ring -linarith
  · exact h'

end Unregister

/-- Reading `cpwm` again changes no tag, and lets a call go on only when the firmware is awake. -/
theorem mem_recheck {w : World} {i : Nat} {k' : Call} (hk' : k' ∈ (w.recheck i).calls) :
    ∃ k ∈ w.calls, k'.tag = k.tag ∧
      (k'.pc = .success → k.pc = .success ∨ psStateS2 ≤ w.p.cpwm) := by
  obtain ⟨j, hj⟩ := List.mem_iff_getElem?.mp hk'
  simp only [World.recheck, List.getElem?_modify, Option.map_eq_map, Option.map_eq_some_iff] at hj
  obtain ⟨k, hk, rfl⟩ := hj
  refine ⟨k, List.mem_iff_getElem?.mpr ⟨j, hk⟩, ?_⟩
  grind -ring -linarith

theorem Inv.recheck {w : World} (h : Inv w) (i : Nat) : Inv (w.recheck i) := by
  refine { level := h.level, tog := h.tog, sleep := h.sleep, writes := h.writes, tags := ?_ }
  intro k' hk'
  obtain ⟨k, hk, htag, -⟩ := mem_recheck hk'
  rw [htag]
  exact h.tags k hk

theorem Safe.recheck {w : World} (h : Safe w) (i : Nat) : Safe (w.recheck i) := by
  refine ⟨h.active, fun hlive => ?_⟩
  obtain ⟨k', hk', hlive'⟩ := List.any_eq_true.mp hlive
  obtain ⟨k, hk, htag, hpc⟩ := mem_recheck hk'
  simp only [Call.live, Bool.and_eq_true, decide_eq_true_eq, htag] at hlive'
  rcases hpc hlive'.1 with hpc | hup
  · refine h.live (List.any_eq_true.mpr ⟨k, hk, ?_⟩)
    simpa [Call.live, hpc] using hlive'.2
  · exact .inl hup

/-! ## 7. The modes, the interrupt and the timeout -/

/-- When the firmware is told to leave, it is awake or it answers: it is so already, or it is
asleep and not yet asked, and it can be asked and answers in time. -/
def stepOk (w : World) : Act → Bool
  | .setPsMode psMode env =>
    if psMode == psModeActive then !leaveAllowed env || w.wakes env || w.fwAwake
    else !enterAllowed env || w.p.bFwCurrentInPSMode || !w.live || w.wakes env
  | .cpwmInt state env =>
    env.cannotRun || w.p.rpwm < psStateS2 || psStateS2 ≤ psState state ||
      (if w.p.bFwCurrentInPSMode then !w.live else w.fwAwake)
  | _ => true

/-- Every step of a run is. -/
def runOk (w : World) : List Act → Bool
  | [] => true
  | a :: acts => stepOk w a &&
    match w.step a with
    | none => true
    | some w' => runOk w' acts

section Modes

variable {w : World} (env : Env)

theorem Inv.leave (h : Inv w) : Inv (w.leave env) := by
  have h' : Inv { w with p := { w.p with pwrMode := psModeActive } } := by
    constructor <;> grind -ring -linarith
  have hset := h'.setRpwm env isLevel_S4 (fun hlow => absurd hlow (by decide))
  unfold World.leave
  constructor <;> grind -ring -linarith

theorem Inv.enter (h : Inv w) (psMode : UInt8) : Inv (w.enter psMode env) := by
  have h' : Inv { w with
      p := { w.p with bFwCurrentInPSMode := true, pwrMode := psMode } } := by
    constructor <;> grind -ring -linarith
  refine h'.setRpwm env (isLevel_enterPslv env _) fun hlow => ?_
  have := enterPslv_low env { w.p with bFwCurrentInPSMode := true, pwrMode := psMode }
  grind -ring -linarith

/-- **The firmware is told to leave.**  If it is awake, or the driver has its answer, it counts
rightly as out of power save. -/
theorem Safe.leave (hinv : Inv w) (h : Safe w) (hok : w.wakes env = true ∨ w.fwAwake = true) :
    Safe (w.leave env) := by
  have htold : Told env psStateS4 { w with p := { w.p with pwrMode := psModeActive } } _ :=
    setRpwm_told env isLevel_S4 hinv.tog
  unfold World.leave
  dsimp only
  generalize World.setRpwm env psStateS4 _ = w' at htold ⊢
  have hsafe := htold.safe (.inl (by decide)) ⟨h.active, h.live⟩
  have hup : psStateS2 ≤ w'.p.cpwm ∨ w'.fwAwake = true :=
    hok.imp (htold.wakes (by decide)) (htold.awake (by decide))
  exact ⟨fun _ => hup, fun _ => hup.imp id fun hawake => ⟨rfl, hawake⟩⟩

/-- The firmware is told to enter.  If it counted as out of power save under a task, the answer
to an earlier RPWM is there or comes now. -/
theorem Safe.enter (hinv : Inv w) (h : Safe w) (psMode : UInt8)
    (hok : w.p.bFwCurrentInPSMode = true ∨ w.live = false ∨ w.wakes env = true) :
    Safe (w.enter psMode env) := by
  have htold : Told env (enterPslv env w.p)
      { w with p := { w.p with bFwCurrentInPSMode := true, pwrMode := psMode } } _ :=
    setRpwm_told env (isLevel_enterPslv env w.p) hinv.tog
  have hlow : psStateS2 ≤ enterPslv env w.p ∨ w.live = false :=
    (enterPslv_low env w.p).imp id hinv.not_live
  by_cases hkeep : w.p.bFwCurrentInPSMode = true ∨ w.live = false
  · refine htold.safe (hlow.imp id fun hnone => ⟨rfl, hnone⟩) ⟨nofun, fun hlive => ?_⟩
    have := h.live hlive
    grind -ring -linarith [World.live]
  · have hframe := htold.frame
    have hwakes := htold.wakes (by grind -ring -linarith) (by grind -ring -linarith [World.wakes])
    exact ⟨fun _ => .inl hwakes, fun _ => .inl hwakes⟩

end Modes

section Reports

variable {w : World} (env : Env)

/-- Only `cpwm` and its toggle bit are taken from the firmware, and those while it is awake. -/
theorem cpwmIntHdl_cases (env : Env) (state : UInt8) (p : Pwrctrl) :
    cpwmIntHdl env state p = p ∨ ¬ p.rpwm < psStateS2 ∧
      cpwmIntHdl env state p = { p with cpwm := psState state, cpwmTog := state &&& psToggle } := by
  unfold cpwmIntHdl
  split
  · exact .inl rfl
  · split
    · exact .inl rfl
    · rename_i hawake
      exact .inr ⟨hawake, rfl⟩

theorem Inv.cpwmInt (h : Inv w) (state : UInt8) : Inv (w.cpwmInt env state) := by
  unfold World.cpwmInt
  rcases cpwmIntHdl_cases env state w.p with hsame | ⟨hawake, hset⟩
  · rw [hsame]
    exact h
  · rw [hset]
    exact { level := h.level, tog := h.tog, sleep := fun hlow => absurd hlow hawake,
            writes := h.writes, tags := h.tags }

theorem Safe.cpwmInt (h : Safe w) {state : UInt8}
    (hok : stepOk w (.cpwmInt state env) = true) : Safe (w.cpwmInt env state) := by
  unfold World.cpwmInt cpwmIntHdl
  constructor <;> grind -ring -linarith [stepOk, World.live]

/-- While the work item sends its RPWM again the last one was not one to sleep. -/
theorem Inv.resend (h : Inv w) (hdone : cpwmDone w.p = false) : psStateS2 ≤ w.p.rpwm := by
  have hsleep := h.sleep
  simp only [cpwmDone, Bool.or_eq_false_iff, beq_eq_false_iff_ne, decide_eq_false_iff_not] at hdone
  grind -ring -linarith

theorem Inv.rpwmTimeout (h : Inv w) (cr : UInt8) : Inv (w.rpwmTimeout cr env) := by
  have h' : Inv { w with reading := false } := by
    constructor <;> grind -ring -linarith
  unfold World.rpwmTimeout
  dsimp only
  split
  · exact h'.cpwmInt env psStateS2
  split
  · exact h'
  · next hdone =>
    have hup := h.resend (by simpa using hdone)
    have h'' : Inv { w with reading := false, p := { w.p with brpwmtimeout := true } } := by
      constructor <;> grind -ring -linarith
    have hset := h''.setRpwm env h.level (fun hlow => by grind -ring -linarith)
    constructor <;> grind -ring -linarith

theorem Safe.rpwmTimeout (hinv : Inv w) (h : Safe w) (cr : UInt8) :
    Safe (w.rpwmTimeout cr env) := by
  have h' : Safe { w with reading := false } := ⟨h.active, h.live⟩
  unfold World.rpwmTimeout
  dsimp only
  split
  · refine h'.cpwmInt env ?_
    have hS2 : psStateS2 ≤ psState psStateS2 := by decide
    simp [stepOk, hS2]
  split
  · exact h'
  · next hdone =>
    have hup := hinv.resend (by simpa using hdone)
    have h'' : Safe { w with reading := false, p := { w.p with brpwmtimeout := true } } :=
      ⟨h.active, h.live⟩
    have hinv'' : Inv { w with reading := false, p := { w.p with brpwmtimeout := true } } := by
      constructor <;> grind -ring -linarith
    have hset := h''.setRpwm hinv'' env hinv.level (.inl hup)
    exact ⟨hset.active, hset.live⟩

end Reports

/-! ## 8. Runs -/

/-- **One step keeps the invariant**, whatever it is. -/
theorem Inv.step {w w' : World} (h : Inv w) {a : Act} (hstep : w.step a = some w') : Inv w' := by
  cases a with
  | registerTask task env =>
    cases hstep
    exact h.registerAlive task env
  | registerTx env =>
    cases hstep
    exact h.registerAlive xmitAlive env
  | registerCmd env =>
    cases hstep
    exact h.registerAlive cmdAlive env
  | recheck i =>
    cases hstep
    exact h.recheck i
  | unregisterTask task env =>
    cases hstep
    exact h.unregisterAlive task env (isLevel_btPslv env)
  | unregisterTx env =>
    cases hstep
    exact h.unregisterAlive xmitAlive env (isLevel_p2pPslv env)
  | unregisterCmd env =>
    cases hstep
    exact h.unregisterAlive cmdAlive env (isLevel_p2pPslv env)
  | setPsModeCheck psMode =>
    cases hstep
    unfold World.rtwSetPsModeCheck
    constructor <;> grind -ring -linarith
  | setPsMode psMode env =>
    simp only [World.step, Option.ite_none_right_eq_some, Option.some.injEq] at hstep
    obtain ⟨-, rfl⟩ := hstep
    have h' : Inv { w with psModes := w.psModes.erase psMode } := by
      constructor <;> grind -ring -linarith
    unfold World.rtwSetPsMode
    grind -ring -linarith [Inv.leave, Inv.enter]
  | cpwmInt state env =>
    cases hstep
    exact h.cpwmInt env state
  | rpwmTimeoutCheck env =>
    simp only [World.step, Option.ite_none_left_eq_some, Option.some.injEq] at hstep
    obtain ⟨-, rfl⟩ := hstep
    unfold World.rpwmTimeoutCheck
    constructor <;> grind -ring -linarith
  | rpwmTimeout cr env =>
    simp only [World.step, Option.ite_none_right_eq_some, Option.some.injEq] at hstep
    obtain ⟨-, rfl⟩ := hstep
    exact h.rpwmTimeout env cr
  | fwWake =>
    simp only [World.step, Option.ite_none_right_eq_some, Option.some.injEq] at hstep
    obtain ⟨-, rfl⟩ := hstep
    constructor <;> grind -ring -linarith

/-- **One step that is told the truth keeps the calls safe.** -/
theorem Safe.step {w w' : World} (hinv : Inv w) (h : Safe w) {a : Act} (hok : stepOk w a = true)
    (hstep : w.step a = some w') : Safe w' := by
  cases a with
  | registerTask task env =>
    cases hstep
    exact h.registerAlive task env hinv
  | registerTx env =>
    cases hstep
    exact h.registerAlive xmitAlive env hinv
  | registerCmd env =>
    cases hstep
    exact h.registerAlive cmdAlive env hinv
  | recheck i =>
    cases hstep
    exact h.recheck i
  | unregisterTask task env =>
    cases hstep
    exact h.unregisterAlive task env hinv (isLevel_btPslv env)
  | unregisterTx env =>
    cases hstep
    exact h.unregisterAlive xmitAlive env hinv (isLevel_p2pPslv env)
  | unregisterCmd env =>
    cases hstep
    exact h.unregisterAlive cmdAlive env hinv (isLevel_p2pPslv env)
  | setPsModeCheck psMode =>
    cases hstep
    unfold World.rtwSetPsModeCheck
    constructor <;> grind -ring -linarith [World.live]
  | setPsMode psMode env =>
    simp only [World.step, Option.ite_none_right_eq_some, Option.some.injEq] at hstep
    obtain ⟨-, rfl⟩ := hstep
    have hinv' : Inv { w with psModes := w.psModes.erase psMode } := by
      constructor <;> grind -ring -linarith
    have h' : Safe { w with psModes := w.psModes.erase psMode } := ⟨h.active, h.live⟩
    unfold World.rtwSetPsMode
    dsimp only
    split
    · split
      · exact h'.leave env hinv' (by grind -ring -linarith [stepOk, World.wakes])
      · exact h'
    · split
      · exact h'.enter env hinv' psMode (by grind -ring -linarith [stepOk, World.wakes, World.live])
      · exact h'
  | cpwmInt state env =>
    cases hstep
    exact h.cpwmInt env hok
  | rpwmTimeoutCheck env =>
    simp only [World.step, Option.ite_none_left_eq_some, Option.some.injEq] at hstep
    obtain ⟨-, rfl⟩ := hstep
    unfold World.rpwmTimeoutCheck
    constructor <;> grind -ring -linarith [World.live]
  | rpwmTimeout cr env =>
    simp only [World.step, Option.ite_none_right_eq_some, Option.some.injEq] at hstep
    obtain ⟨-, rfl⟩ := hstep
    exact h.rpwmTimeout env hinv cr
  | fwWake =>
    simp only [World.step, Option.ite_none_right_eq_some, Option.some.injEq] at hstep
    obtain ⟨-, rfl⟩ := hstep
    constructor <;> grind -ring -linarith [World.live]

theorem Inv.run {w w' : World} (h : Inv w) {acts : List Act} (hrun : w.run acts = some w') :
    Inv w' := by
  induction acts generalizing w with
  | nil =>
    cases hrun
    exact h
  | cons a acts ih =>
    obtain ⟨w₁, hstep, hrun⟩ := Option.bind_eq_some_iff.mp hrun
    exact ih (h.step hstep) hrun

theorem Safe.run {w w' : World} (hinv : Inv w) (h : Safe w) {acts : List Act}
    (hok : runOk w acts = true) (hrun : w.run acts = some w') : Safe w' := by
  induction acts generalizing w with
  | nil =>
    cases hrun
    exact h
  | cons a acts ih =>
    obtain ⟨w₁, hstep, hrun⟩ := Option.bind_eq_some_iff.mp hrun
    simp only [runOk, hstep, Bool.and_eq_true] at hok
    exact ih (hinv.step hstep) (h.step hinv hok.1 hstep) hok.2 hrun

theorem inv_start : Inv World.start where
  level := rfl
  tog := .inr rfl
  sleep := fun _ => .inr (by decide)
  writes := nofun
  tags := nofun

theorem safe_start : Safe World.start := ⟨fun _ => .inr rfl, nofun⟩

/-- **The firmware is not put to sleep under a task.**  In every run an RPWM below `PS_STATE_S2`
is written only when no task is registered.  Where each time the firmware is told to leave power
save it is awake or answers in time, a call that has returned `_SUCCESS` and whose tag is
registered has the firmware at `PS_STATE_S2` or higher, or awake out of power save. -/
theorem tasks_keep_firmware_awake {acts : List Act} {w : World}
    (hrun : World.start.run acts = some w) :
    (∀ e ∈ w.writes, psState e.1 < psStateS2 → e.2 = 0) ∧
    (runOk World.start acts = true → ∀ k ∈ w.calls, k.live = true →
      psStateS2 ≤ w.p.cpwm ∨ w.p.bFwCurrentInPSMode = false ∧ w.fwAwake = true) := by
  refine ⟨(inv_start.run hrun).writes, fun hok k hk hlive => ?_⟩
  exact (safe_start.run inv_start hok hrun).live (List.any_eq_true.mpr ⟨k, hk, hlive⟩)

/-- A chip that is there, in LPS LCLK and ready to sleep, without coexistence and P2P; `polls`
are what it answers. -/
def plainEnv (polls : List UInt8) : Env :=
  { surpriseRemoved := false, hwInitCompleted := true, drvStopped := false, lpsLevel := 1,
    cpwmOrig := 0, polls := polls, btDisabled := true, btControlLps := false, btLpsOn := false,
    lpsVal := 0, oppPs := 0, p2pPs := false, psReady := true }

/-- The firmware goes to sleep, answers when a frame is to be sent, sleeps again, and answers when
it is told to leave; a frame and a command are under way. -/
def sleepTwice : List Act :=
  [.setPsModeCheck 1, .setPsMode 1 (plainEnv []), .registerTx (plainEnv [0, 0x80]), .recheck 0,
    .unregisterTx (plainEnv []), .setPsModeCheck 0, .setPsMode 0 (plainEnv [0x80]),
    .registerTx (plainEnv []), .registerCmd (plainEnv [])]

/-- It was asleep, the calls may go on, and it is awake. -/
theorem firmware_awake_twice : ∃ w, World.start.run sleepTwice = some w ∧
    w.live = true ∧ w.writes.length = 4 ∧
    (∀ e ∈ w.writes, psState e.1 < psStateS2 → e.2 = 0) ∧
    (∀ k ∈ w.calls, k.live = true →
      psStateS2 ≤ w.p.cpwm ∨ w.p.bFwCurrentInPSMode = false ∧ w.fwAwake = true) := by
  obtain ⟨w, hrun, hw⟩ : ∃ w, World.start.run sleepTwice = some w ∧
      (w.live && w.writes.length == 4) = true := (Option.any_eq_true _ _).mp (by decide +kernel)
  obtain ⟨hwrites, hcalls⟩ := tasks_keep_firmware_awake hrun
  simp only [Bool.and_eq_true, beq_iff_eq] at hw
  exact ⟨w, hrun, hw.1, hw.2, hwrites, hcalls (by decide +kernel)⟩

/-- The firmware sleeps and does not answer in time when it is told to leave; a frame is sent. -/
def unanswered : List Act :=
  [.setPsModeCheck 1, .setPsMode 1 (plainEnv []), .setPsModeCheck 0, .setPsMode 0 (plainEnv [0]),
    .registerTx (plainEnv [])]

/-- A call goes on, and the firmware was put to sleep and not seen awake since. -/
def ioAsleep (w : World) : Bool := w.live && w.p.cpwm < psStateS2 && !w.fwAwake

/-- The driver without the answers: the frame is sent into a sleeping firmware; and when power
save is entered again under the frame, the driver itself takes the firmware for asleep. -/
theorem firmware_asleep_under_task :
    (∃ w, World.start.run unanswered = some w ∧ ioAsleep w = true) ∧
      ∃ w, World.start.run (unanswered ++ [.setPsModeCheck 1, .setPsMode 1 (plainEnv [])]) = some w ∧
        ioAsleep w = true ∧ w.p.bFwCurrentInPSMode = true := by
  refine ⟨(Option.any_eq_true _ _).mp (by decide +kernel), ?_⟩
  obtain ⟨w, hrun, hw⟩ : ∃ w, World.start.run (unanswered ++
      [.setPsModeCheck 1, .setPsMode 1 (plainEnv [])]) = some w ∧
      (ioAsleep w && w.p.bFwCurrentInPSMode) = true :=
    (Option.any_eq_true _ _).mp (by decide +kernel)
  exact ⟨w, hrun, Bool.and_eq_true_iff.mp hw⟩

end LpsLclk

end Rtl8723bs
