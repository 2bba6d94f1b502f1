/-
# Every run of a join

The bits that the handlers look at are those of one of five phases, and every handler makes one of
a few turns between them (`step_turn`).  From the turns alone:

* **`attempt_bounded`**: what is sent for one join is bounded, and one result at most is reported.
* **`attempt_ends`**: nine firings of the timer end it, whatever comes in between.
* **`joins_answered`**: where the station is left alone, every join gets its one result.
* **`joined_in_order`**: nobody is joined without a beacon, an authentication and an association
  response, in this order and of one join.
-/
import Mathlib.Data.List.Induction
import Rtl8723bs.Mlme.ClntJoin

namespace Rtl8723bs

namespace ClntJoin

open Responder

/-! ## 1. Phases -/

inductive Phase where
  | idle
  | beacon
  | auth
  | assoc
  | joined
  deriving DecidableEq

/-- The phase that the bits show. -/
def phaseOf (w : BitVec 32) : Phase :=
  if w &&& wifiFwAssocSuccess ≠ 0 then .joined
  else if w &&& wifiFwAuthNull ≠ 0 then .beacon
  else if w &&& wifiFwAuthState ≠ 0 then .auth
  else if w &&& wifiFwAssocState ≠ 0 then .assoc
  else .idle

/-- The values that `state` has. -/
def words : List (BitVec 32) := [0, 1, 2, 3, 0x102, 0x202, 0x2402, 0x4402]

def MlmeInfo.phase (s : MlmeInfo) : Phase := phaseOf s.state

/-- A join is under way. -/
def MlmeInfo.pending (s : MlmeInfo) : Bool :=
  match s.phase with
  | .beacon | .auth | .assoc => true
  | .idle | .joined => false

/-- What every handler finds and leaves. -/
structure Shaped (s : MlmeInfo) : Prop where
  word : s.state ∈ words
  auth : s.phase = .auth → s.reauthCount ≤ reauthLimit ∧ s.reassocCount = 0
  assoc : s.phase = .assoc → s.reassocCount ≤ reassocLimit

/-- Whoever waits has the timer set. -/
def Armed (s : MlmeInfo) : Prop := s.pending = true → s.linkTimer = true

/-- The join begins. -/
def JoinParm.starts (p : JoinParm) : Bool :=
  2 ≤ p.ieLength && p.ieLength ≤ maxIeSz && p.channel && p.ess

/-- The join is given back or begins. -/
def JoinParm.answered (p : JoinParm) : Bool :=
  p.ieLength ≤ maxIeSz && (p.ieLength < 2 || !p.channel || p.ess || p.ibss)

/-- A join to a network of neither kind. -/
def Event.stray : Event → Bool
  | .join p => !p.ess && !p.ibss
  | _ => false

def Event.isJoin : Event → Bool
  | .join _ => true
  | _ => false

def Event.isTimer : Event → Bool
  | .timer => true
  | _ => false

def Event.starts : Event → Bool
  | .join p => p.starts
  | _ => false

/-- The result that the command is due. -/
def Event.due : Event → Nat
  | .join p => if p.answered then 1 else 0
  | _ => 0

/-- The station is told to do something else. -/
def Event.drops : Event → Bool
  | .disconnect | .opmode .ap => true
  | _ => false

/-! ### What is counted -/

/-- A first authentication frame. -/
def Out.asks : Out → Nat
  | .auth seq _ => if seq = 1 then 1 else 0
  | _ => 0

def Out.requests : Out → Nat
  | .assocReq => 1
  | _ => 0

def Out.results : Out → Nat
  | .joinRes _ => 1
  | _ => 0

/-- Nothing that is counted. -/
def Out.Quiet (o : Out) : Prop := o.asks = 0 ∧ o.requests = 0 ∧ o.results = 0

/-! ## 2. What moves a join on -/

/-- A join command begins. -/
def Starts (_ : MlmeInfo) (i : Input) : Prop := i.event.starts = true

/-- A beacon of the network. -/
def HearsBeacon (s : MlmeInfo) (i : Input) : Prop :=
  ∃ b : Beacon, i.event = .beacon b ∧ b.valid = true ∧ b.scanning = false ∧ b.bssid = s.bssid

/-- The last frame of an authentication. -/
def Authenticates (s : MlmeInfo) (i : Input) : Prop :=
  ∃ f : AuthFrame, i.event = .auth f ∧ f.toMe = true ∧ f.status = 0 ∧
    (f.seq = 2 ∧ s.authAlgo ≠ dot11AuthAlgrthmShared ∨
      f.seq = 4 ∧ s.authAlgo = dot11AuthAlgrthmShared)

/-- A response that says yes. -/
def Associates (_ : MlmeInfo) (i : Input) : Prop :=
  ∃ f : AssocFrame, i.event = .assocRsp f ∧ f.toMe = true ∧ f.status = 0

/-- **All that one event can do to a join.** -/
inductive Turn (i : Input) (s s' : MlmeInfo) (outs : List Out) : Prop where
  | keep (hphase : s'.phase = s.phase) (hreauth : s'.reauthCount = s.reauthCount)
      (hreassoc : s'.reassocCount = s.reassocCount) (hdue : i.event.due = 0)
      (harm : i.event.stray = false → Armed s → Armed s')
      (htimer : i.event.isTimer = true → Armed s → s.pending = false)
      (hquiet : ∀ o ∈ outs, o.Quiet)
  | start (hstarts : Starts s i) (hdue : i.event.due = 1) (hphase : s'.phase = .beacon)
      (harm : s'.linkTimer = true) (hquiet : ∀ o ∈ outs, o.Quiet)
  | refuse (hjoin : i.event.isJoin = true) (hdue : i.event.due = 1)
      (hstarts : i.event.starts = false)
      (hphase : s'.phase = if s.phase = .joined then .idle else s.phase)
      (hreauth : s'.reauthCount = s.reauthCount) (hreassoc : s'.reassocCount = s.reassocCount)
      (harm : Armed s → Armed s') (res : Int) (pre : List Out) (hquiet : ∀ o ∈ pre, o.Quiet)
      (houts : outs = pre ++ reportJoinRes i.ok res)
  | adhoc (hjoin : i.event.isJoin = true) (hdue : i.event.due = 1) (hphase : s'.phase = .idle)
      (res : Int) (pre : List Out) (hquiet : ∀ o ∈ pre, o.Quiet)
      (houts : outs = pre ++ reportJoinRes i.ok res)
  | ask (hhears : HearsBeacon s i) (hfrom : s.phase = .beacon) (hphase : s'.phase = .auth)
      (hreauth : s'.reauthCount = 0) (hreassoc : s'.reassocCount = 0)
      (harm : s'.linkTimer = true) (algo : Nat) (houts : outs = [.auth 1 algo])
  | askAgain (htimer : i.event = .timer) (hfrom : s.phase = .auth) (hphase : s'.phase = .auth)
      (hreauth : s'.reauthCount = s.reauthCount + 1) (hle : s'.reauthCount ≤ reauthLimit)
      (hreassoc : s'.reassocCount = s.reassocCount) (harm : s'.linkTimer = true)
      (algo : Nat) (houts : outs = [.auth 1 algo])
  | request (hauth : Authenticates s i) (hfrom : s.phase = .auth) (hphase : s'.phase = .assoc)
      (hreassoc : s'.reassocCount = s.reassocCount) (harm : s'.linkTimer = true)
      (houts : outs = [.assocReq])
  | requestAgain (htimer : i.event = .timer) (hfrom : s.phase = .assoc)
      (hphase : s'.phase = .assoc) (hreassoc : s'.reassocCount = s.reassocCount + 1)
      (hle : s'.reassocCount ≤ reassocLimit) (harm : s'.linkTimer = true)
      (houts : outs = [.assocReq])
  | succeed (hassoc : Associates s i) (hfrom : s.phase = .assoc) (hphase : s'.phase = .joined)
      (res : Int) (houts : outs = reportJoinRes i.ok res)
  | fail (hjoin : i.event.isJoin = false) (hfrom : s.pending = true) (hphase : s'.phase = .idle)
      (res : Int) (houts : outs = reportJoinRes i.ok res)
  | drop (hdrops : i.event.drops = true) (hfrom : s.pending = true) (hphase : s'.phase = .idle)
      (hquiet : ∀ o ∈ outs, o.Quiet)
  | leave (hdue : i.event.due = 0) (hfrom : s.phase = .joined) (hphase : s'.phase = .idle)
      (hquiet : ∀ o ∈ outs, o.Quiet)

/-! ## 3. Every handler makes one of the turns -/

section Turns

variable {s : MlmeInfo} {i : Input}

theorem pending_iff :
    s.pending = true ↔ s.phase = .beacon ∨ s.phase = .auth ∨ s.phase = .assoc := by
  unfold MlmeInfo.pending
  cases s.phase <;> simp

/-- What holds of all eight. -/
theorem forall_words {P : BitVec 32 → Prop} [DecidablePred P]
    (h : words.all (fun w => P w) = true) : ∀ w ∈ words, P w :=
  fun w hw => of_decide_eq_true (List.all_eq_true.mp h w hw)

/-- What the masks say about a phase. -/
structure Bits (has : BitVec 32 → Bool) (p : Phase) : Prop where
  assocSuccess : has wifiFwAssocSuccess = decide (p = .joined)
  authNull : has wifiFwAuthNull = decide (p = .beacon)
  authState : has wifiFwAuthState = decide (p = .auth)
  assocState : has wifiFwAssocState = decide (p = .assoc)
  either : has (wifiFwAuthSuccess ||| wifiFwAssocState) = decide (p = .assoc ∨ p = .joined)
  linking : has wifiFwLinkingState = decide (p ≠ .idle)

theorem Shaped.bits (h : Shaped s) : Bits s.has s.phase where
  assocSuccess := forall_words (P := fun w =>
    decide (w &&& wifiFwAssocSuccess ≠ 0) = decide (phaseOf w = .joined)) (by decide) _ h.word
  authNull := forall_words (P := fun w =>
    decide (w &&& wifiFwAuthNull ≠ 0) = decide (phaseOf w = .beacon)) (by decide) _ h.word
  authState := forall_words (P := fun w =>
    decide (w &&& wifiFwAuthState ≠ 0) = decide (phaseOf w = .auth)) (by decide) _ h.word
  assocState := forall_words (P := fun w =>
    decide (w &&& wifiFwAssocState ≠ 0) = decide (phaseOf w = .assoc)) (by decide) _ h.word
  either := forall_words (P := fun w =>
    decide (w &&& (wifiFwAuthSuccess ||| wifiFwAssocState) ≠ 0)
      = decide (phaseOf w = .assoc ∨ phaseOf w = .joined)) (by decide) _ h.word
  linking := forall_words (P := fun w =>
    decide (w &&& wifiFwLinkingState ≠ 0) = decide (phaseOf w ≠ .idle)) (by decide) _ h.word

theorem Shaped.isStation (h : Shaped s) (hphase : s.phase ≠ .idle) : s.isStation = true :=
  decide_eq_true (forall_words (P := fun w => phaseOf w ≠ .idle → w &&& 0x03 = wifiFwStationState)
    (by decide) _ h.word hphase)

/-- One of the turns is made, and the bits stay those of a phase. -/
def Goes (i : Input) (s : MlmeInfo) (r : MlmeInfo × List Out) : Prop :=
  Turn i s r.1 r.2 ∧ Shaped r.1

/-- **Nothing happens.** -/
theorem goes_same (h : Shaped s) (hdue : i.event.due = 0)
    (htimer : i.event.isTimer = true → Armed s → s.pending = false) : Goes i s (s, []) :=
  ⟨.keep rfl rfl rfl hdue (fun _ h => h) htimer (fun _ h => absurd h List.not_mem_nil), h⟩

/-- No command to join, and not the timer. -/
structure Passive (e : Event) : Prop where
  join : e.isJoin = false
  timer : e.isTimer = false

theorem due_of_not_join {e : Event} (h : e.isJoin = false) : e.due = 0 := by
  cases e with
  | join p => exact absurd h (by simp [Event.isJoin])
  | _ => rfl

theorem goes_passive (h : Shaped s) (he : Passive i.event) : Goes i s (s, []) :=
  goes_same h (due_of_not_join he.join) fun ht => absurd ht (by simp [he.timer])

/-- A word that is idle. -/
theorem shaped_of_idle (hword : s.state ∈ words) (hphase : s.phase = .idle) : Shaped s :=
  ⟨hword, fun h => by simp [hphase] at h, fun h => by simp [hphase] at h⟩

/-- Back to nothing. -/
theorem shaped_null (hnull : s.state = wifiFwNullState) : Shaped s ∧ s.phase = .idle := by
  have hphase : s.phase = .idle := by
    unfold MlmeInfo.phase
    rw [hnull]
    decide
  refine ⟨shaped_of_idle ?_ hphase, hphase⟩
  rw [hnull]
  decide

/-- What is kept where state and counts are. -/
theorem Shaped.congr (h : Shaped s) (s' : MlmeInfo) (hstate : s'.state = s.state)
    (hreauth : s'.reauthCount = s.reauthCount) (hreassoc : s'.reassocCount = s.reassocCount) :
    s'.phase = s.phase ∧ Shaped s' := by
  have hphase : s'.phase = s.phase := congrArg phaseOf hstate
  refine ⟨hphase, ?_, ?_, ?_⟩
  · rw [hstate]
    exact h.word
  · rw [hphase, hreauth, hreassoc]
    exact h.auth
  · rw [hphase, hreassoc]
    exact h.assoc

/-- The timer is set once more, and the rest goes on. -/
theorem goes_set (h : Shaped s) (he : Passive i.event) {s' : MlmeInfo} {outs : List Out}
    (hstate : s'.state = s.state) (hreauth : s'.reauthCount = s.reauthCount)
    (hreassoc : s'.reassocCount = s.reassocCount) (harm : s'.linkTimer = true)
    (hquiet : ∀ o ∈ outs, o.Quiet) : Goes i s (s', outs) := by
  obtain ⟨hphase, hshaped⟩ := h.congr s' hstate hreauth hreassoc
  exact ⟨.keep hphase hreauth hreassoc (due_of_not_join he.join) (fun _ _ _ => harm)
    (fun ht => absurd ht (by simp [he.timer])) hquiet, hshaped⟩

/-! ### Frames -/

/-- `start_clnt_auth`, in front of whoever waits for a beacon. -/
theorem goes_startClntAuth (h : Shaped s) (hfrom : s.phase = .beacon) (hhears : HearsBeacon s i) :
    Goes i s (startClntAuth s) := by
  obtain ⟨hphase, hword⟩ := forall_words (P := fun w => phaseOf w = .beacon →
    phaseOf (w &&& ~~~wifiFwAuthNull ||| wifiFwAuthState) = .auth ∧
      w &&& ~~~wifiFwAuthNull ||| wifiFwAuthState ∈ words) (by decide) _ h.word hfrom
  refine ⟨.ask hhears hfrom hphase rfl rfl rfl _ rfl, hword, fun _ => ⟨Nat.zero_le _, rfl⟩, ?_⟩
  intro hassoc
  exact absurd (hphase.symm.trans hassoc) (by decide)

/-- `start_clnt_assoc`, in front of whoever is being authenticated. -/
theorem goes_startClntAssoc (h : Shaped s) (hfrom : s.phase = .auth)
    (hauth : Authenticates s i) : Goes i s (startClntAssoc s) := by
  obtain ⟨hphase, hword⟩ := forall_words (P := fun w => phaseOf w = .auth →
    phaseOf (w &&& ~~~(wifiFwAuthNull ||| wifiFwAuthState) |||
        (wifiFwAuthSuccess ||| wifiFwAssocState)) = .assoc ∧
      w &&& ~~~(wifiFwAuthNull ||| wifiFwAuthState) |||
        (wifiFwAuthSuccess ||| wifiFwAssocState) ∈ words) (by decide) _ h.word hfrom
  refine ⟨.request hauth hfrom hphase rfl rfl rfl, hword, ?_, fun _ => ?_⟩
  · intro hauth
    exact absurd (hphase.symm.trans hauth) (by decide)
  · have hzero : (startClntAssoc s).1.reassocCount = 0 := (h.auth hfrom).2
    rw [hzero]
    exact Nat.zero_le _

/-- `receive_disconnect`. -/
theorem goes_receiveDisconnect (h : Shaped s) (he : Passive i.event) (mac : MacAddr) :
    Goes i s (receiveDisconnect s mac i.ok) := by
  have hsame := goes_passive h he
  have hnull := shaped_null (s := { s with state := wifiFwNullState }) rfl
  unfold receiveDisconnect
  by_cases hmac : mac = s.bssid
  · rw [if_pos hmac]
    split
    · rw [h.bits.assocSuccess, h.bits.linking]
      by_cases hjoined : s.phase = .joined
      · rw [if_pos (decide_eq_true hjoined)]
        split
        · exact ⟨.leave (due_of_not_join he.join) hjoined hnull.2 (by simp [Out.Quiet, Out.asks,
            Out.requests, Out.results]), hnull.1⟩
        · exact hsame
      · rw [if_neg (by simpa using hjoined)]
        by_cases hidle : s.phase = .idle
        · rw [if_neg (by simpa using hidle)]
          exact hsame
        · rw [if_pos (by simpa using hidle)]
          have hpending : s.pending = true := by
            rw [pending_iff]
            cases hphase : s.phase <;> simp_all
          split
          · exact ⟨.fail he.join hpending hnull.2 _ rfl, hnull.1⟩
          · exact hsame
    · exact hsame
  · rw [if_neg hmac]
    exact hsame

/-- `OnBeacon`. -/
theorem goes_onBeacon (h : Shaped s) {b : Beacon} (hevent : i.event = .beacon b) :
    Goes i s (onBeacon s b i.ok) := by
  have he : Passive i.event := by
    rw [hevent]
    exact ⟨rfl, rfl⟩
  have hsame := goes_passive h he
  unfold onBeacon
  by_cases hvalid : b.valid = false
  · rw [if_pos hvalid]
    exact hsame
  rw [if_neg hvalid]
  by_cases hscan : b.scanning = true
  · rw [if_pos hscan]
    exact hsame
  rw [if_neg hscan]
  by_cases hbssid : b.bssid = s.bssid
  · rw [if_pos hbssid]
    split
    case isTrue hwait =>
      have hfrom : s.phase = .beacon := by
        rw [h.bits.authNull, Bool.and_eq_true] at hwait
        exact of_decide_eq_true hwait.1
      split
      · exact goes_set h he rfl rfl rfl rfl (fun _ ho => absurd ho List.not_mem_nil)
      · exact goes_startClntAuth h hfrom
          ⟨b, hevent, eq_true_of_ne_false hvalid, eq_false_of_ne_true hscan,
            hbssid⟩
    case isFalse =>
      split
      · split
        · exact goes_receiveDisconnect h he _
        · exact hsame
      · exact hsame
  · rw [if_neg hbssid]
    exact hsame

/-- `OnAuthClient`. -/
theorem goes_onAuthClient (h : Shaped s) {f : AuthFrame} (hevent : i.event = .auth f) :
    Goes i s (onAuthClient s f) := by
  have he : Passive i.event := by
    rw [hevent]
    exact ⟨rfl, rfl⟩
  have hsame := goes_passive h he
  unfold onAuthClient
  by_cases hme : f.toMe = false
  · rw [if_pos hme]
    exact hsame
  rw [if_neg hme]
  by_cases hauth : s.has wifiFwAuthState = false
  · rw [if_pos hauth]
    exact hsame
  rw [if_neg hauth]
  have hfrom : s.phase = .auth := by
    rw [h.bits.authState] at hauth
    exact of_decide_eq_true (eq_true_of_ne_false hauth)
  by_cases hstatus : f.status = 0
  · rw [if_neg (not_not.mpr hstatus)]
    by_cases hshared : s.authAlgo = dot11AuthAlgrthmShared
    · rw [if_pos hshared, if_pos hshared]
      split
      · split
        · exact goes_set h he rfl rfl rfl rfl
            (by simp [Out.Quiet, Out.asks, Out.requests, Out.results, issueAuth])
        · exact hsame
      · split
        case isTrue hseq =>
          exact goes_startClntAssoc h hfrom ⟨f, hevent, eq_true_of_ne_false hme, hstatus,
            .inr ⟨hseq, hshared⟩⟩
        case isFalse => exact hsame
    · rw [if_neg hshared, if_neg hshared]
      split
      case isTrue hseq =>
        exact goes_startClntAssoc h hfrom ⟨f, hevent, eq_true_of_ne_false hme, hstatus,
          .inl ⟨hseq, hshared⟩⟩
      case isFalse =>
        split
        · exact hsame
        · exact hsame
  · rw [if_pos hstatus]
    -- the algorithm may change, nothing else does
    by_cases hother : f.status = 13
    · rw [if_pos hother]
      exact goes_set h he rfl rfl rfl rfl (fun _ ho => absurd ho List.not_mem_nil)
    · rw [if_neg hother]
      exact goes_set h he rfl rfl rfl rfl (fun _ ho => absurd ho List.not_mem_nil)

/-- `OnAssocRsp`. -/
theorem goes_onAssocRsp (h : Shaped s) {f : AssocFrame} (hevent : i.event = .assocRsp f) :
    Goes i s (onAssocRsp s f i.ok) := by
  have he : Passive i.event := by
    rw [hevent]
    exact ⟨rfl, rfl⟩
  have hsame := goes_passive h he
  unfold onAssocRsp
  by_cases hme : f.toMe = false
  · rw [if_pos hme]
    exact hsame
  rw [if_neg hme, h.bits.either, h.bits.assocSuccess]
  by_cases hfrom : s.phase = .assoc
  · rw [if_neg (by simp [hfrom]), if_neg (by simp [hfrom])]
    have hpending : s.pending = true := pending_iff.mpr (.inr (.inr hfrom))
    split
    · have hnull := shaped_null (s := { s with state := wifiFwNullState, linkTimer := false }) rfl
      exact ⟨.fail he.join hpending hnull.2 _ rfl, hnull.1⟩
    case isFalse hstatus =>
      obtain ⟨hphase, hword⟩ := forall_words (P := fun w => phaseOf w = .assoc →
        phaseOf (w &&& ~~~wifiFwAssocState ||| wifiFwAssocSuccess) = .joined ∧
          w &&& ~~~wifiFwAssocState ||| wifiFwAssocSuccess ∈ words) (by decide) _ h.word hfrom
      refine ⟨.succeed ⟨f, hevent, eq_true_of_ne_false hme, Nat.eq_zero_of_not_pos hstatus⟩
        hfrom hphase _ rfl, hword, fun hauth => ?_, fun hassoc => ?_⟩
      · exact absurd (hphase.symm.trans hauth) (by decide)
      · exact absurd (hphase.symm.trans hassoc) (by decide)
  · by_cases hjoined : s.phase = .joined
    · rw [if_neg (by simp [hjoined]), if_pos (by simp [hjoined])]
      exact hsame
    · rw [if_pos (by simp [hfrom, hjoined])]
      exact hsame

/-- `OnDeAuth` and `OnDisassoc`. -/
theorem goes_onDeAuth (h : Shaped s) (he : Passive i.event) (f : EndFrame) :
    Goes i s (onDeAuth s f i.ok) := by
  unfold onDeAuth
  split
  · split
    · exact goes_passive h he
    · split
      · exact goes_passive h he
      · exact goes_receiveDisconnect h he _
  · exact goes_passive h he

theorem goes_onDisassoc (h : Shaped s) (he : Passive i.event) (f : EndFrame) :
    Goes i s (onDisassoc s f i.ok) := by
  unfold onDisassoc
  split
  · split
    · exact goes_passive h he
    · exact goes_receiveDisconnect h he _
  · exact goes_passive h he

/-! ### The timer -/

/-- `link_timer_hdl`, with its timer gone off. -/
theorem goes_linkTimerFires (h : Shaped s) (hevent : i.event = .timer) :
    Goes i s (linkTimerFires s i.ok) := by
  have hjoin : i.event.isJoin = false := by
    rw [hevent]
    rfl
  unfold linkTimerFires
  by_cases hset : s.linkTimer = true
  · rw [if_pos hset]
    obtain ⟨-, hoff⟩ := h.congr { s with linkTimer := false } rfl rfl rfl
    have hphase : ({ s with linkTimer := false } : MlmeInfo).phase = s.phase := rfl
    have hbits := hoff.bits
    rw [hphase] at hbits
    unfold linkTimerHdl
    rw [hbits.authNull, hbits.authState, hbits.assocState]
    cases hfrom : s.phase with
    | beacon =>
      have hnull := shaped_null (s := { s with linkTimer := false, state := wifiFwNullState }) rfl
      exact ⟨.fail hjoin (pending_iff.mpr (.inl hfrom)) hnull.2 _ rfl, hnull.1⟩
    | auth =>
      have hpending := pending_iff.mpr (.inr (.inl hfrom))
      by_cases hmore : reauthLimit < s.reauthCount + 1
      · have hnull := shaped_null (s := { s with
          linkTimer := false, reauthCount := s.reauthCount + 1, state := wifiFwNullState }) rfl
        simp only [reduceCtorEq, decide_false, decide_true, Bool.false_eq_true, if_false, if_true,
          if_pos hmore]
        exact ⟨.fail hjoin hpending hnull.2 _ rfl, hnull.1⟩
      · simp only [reduceCtorEq, decide_false, decide_true, Bool.false_eq_true, if_false, if_true,
          if_neg hmore]
        have hle : s.reauthCount + 1 ≤ reauthLimit := Nat.le_of_not_lt hmore
        refine ⟨.askAgain hevent hfrom hfrom rfl hle rfl rfl _ rfl, h.word,
          fun _ => ⟨hle, (h.auth hfrom).2⟩, fun hassoc => ?_⟩
        exact absurd (hfrom.symm.trans hassoc) (by decide)
    | assoc =>
      have hpending := pending_iff.mpr (.inr (.inr hfrom))
      by_cases hmore : reassocLimit < s.reassocCount + 1
      · have hnull := shaped_null (s := { s with
          linkTimer := false, reassocCount := s.reassocCount + 1, state := wifiFwNullState }) rfl
        simp only [reduceCtorEq, decide_false, decide_true, Bool.false_eq_true, if_false, if_true,
          if_pos hmore]
        exact ⟨.fail hjoin hpending hnull.2 _ rfl, hnull.1⟩
      · simp only [reduceCtorEq, decide_false, decide_true, Bool.false_eq_true, if_false, if_true,
          if_neg hmore]
        have hle : s.reassocCount + 1 ≤ reassocLimit := Nat.le_of_not_lt hmore
        refine ⟨.requestAgain hevent hfrom hfrom rfl hle rfl rfl, h.word, fun hauth => ?_,
          fun _ => hle⟩
        exact absurd (hfrom.symm.trans hauth) (by decide)
    | idle | joined =>
      have hpending : s.pending = false := by
        unfold MlmeInfo.pending
        rw [hfrom]
      simp only [reduceCtorEq, decide_false, Bool.false_eq_true, if_false]
      refine ⟨.keep rfl rfl rfl (due_of_not_join hjoin) (fun _ _ hp => ?_) (fun _ _ => hpending)
        (fun _ ho => absurd ho List.not_mem_nil), hoff⟩
      exact absurd (hpending.symm.trans hp) (by decide)
  · rw [if_neg hset]
    refine goes_same h (due_of_not_join hjoin) fun _ harmed => ?_
    exact eq_false_of_ne_true fun hp => hset (harmed hp)

/-! ### Commands -/

/-- Where the bits are cleared by something other than the join itself. -/
theorem goes_cleared (he : Passive i.event) (hdrops : i.event.drops = true)
    {s' : MlmeInfo} {outs : List Out} (hshaped : Shaped s') (hidle : s'.phase = .idle)
    (hreauth : s'.reauthCount = s.reauthCount) (hreassoc : s'.reassocCount = s.reassocCount)
    (hquiet : ∀ o ∈ outs, o.Quiet) : Goes i s (s', outs) := by
  refine ⟨?_, hshaped⟩
  by_cases hpending : s.pending = true
  · exact .drop hdrops hpending hidle hquiet
  · by_cases hjoined : s.phase = .joined
    · exact .leave (due_of_not_join he.join) hjoined hidle hquiet
    · have hsame : s'.phase = s.phase := by
        rw [hidle]
        rw [pending_iff] at hpending
        cases hphase : s.phase <;> simp_all
      refine .keep hsame hreauth hreassoc (due_of_not_join he.join) (fun _ _ hp => ?_)
        (fun ht => absurd ht (by simp [he.timer])) hquiet
      rw [pending_iff, hidle] at hp
      simp at hp

theorem goes_disconnectHdl (hevent : i.event = .disconnect) :
    Goes i s (disconnectHdl s) := by
  have he : Passive i.event := by
    rw [hevent]
    exact ⟨rfl, rfl⟩
  have hnull := shaped_null (s := { s with state := wifiFwNullState, linkTimer := false }) rfl
  refine goes_cleared he (by rw [hevent]; rfl) hnull.1 hnull.2 rfl rfl ?_
  split <;> simp [Out.Quiet, Out.asks, Out.requests, Out.results]

theorem goes_setopmodeHdl (h : Shaped s) {mode : OpMode} (hevent : i.event = .opmode mode) :
    Goes i s (setopmodeHdl s mode, []) := by
  have he : Passive i.event := by
    rw [hevent]
    exact ⟨rfl, rfl⟩
  cases mode with
  | ap =>
    have hidle : ({ s with state := wifiFwApState } : MlmeInfo).phase = .idle :=
      show phaseOf wifiFwApState = .idle by decide
    have hshaped : Shaped { s with state := wifiFwApState } :=
      shaped_of_idle (show wifiFwApState ∈ words by decide) hidle
    exact goes_cleared he (by rw [hevent]; rfl) hshaped hidle rfl rfl
      (fun _ ho => absurd ho List.not_mem_nil)
  | infrastructure =>
    obtain ⟨hphase, hword⟩ := forall_words (P := fun w =>
      phaseOf (w &&& ~~~0x03 ||| wifiFwStationState) = phaseOf w ∧
        w &&& ~~~0x03 ||| wifiFwStationState ∈ words) (by decide) _ h.word
    have hsame : (setopmodeHdl s .infrastructure).phase = s.phase := hphase
    refine ⟨.keep hphase rfl rfl (due_of_not_join he.join) (fun _ harmed hp => harmed ?_)
      (fun ht => absurd ht (by simp [he.timer])) (fun _ ho => absurd ho List.not_mem_nil),
      hword, ?_, ?_⟩
    · rw [pending_iff] at hp ⊢
      rwa [hsame] at hp
    · rw [hsame]
      exact h.auth
    · rw [hsame]
      exact h.assoc
  | other => exact goes_passive h he

theorem goes_setauthHdl (h : Shaped s) {mode : Nat} (hevent : i.event = .authAlgo mode) :
    Goes i s (setauthHdl s mode, []) := by
  have he : Passive i.event := by
    rw [hevent]
    exact ⟨rfl, rfl⟩
  unfold setauthHdl
  split
  · obtain ⟨-, hshaped⟩ := h.congr { s with authAlgo := mode } rfl rfl rfl
    exact ⟨.keep rfl rfl rfl (due_of_not_join he.join) (fun _ harmed => harmed)
      (fun ht => absurd ht (by simp [he.timer])) (fun _ ho => absurd ho List.not_mem_nil), hshaped⟩
  · exact goes_passive h he

/-- The first lines of `join_cmd_hdl`. -/
structure Left (s : MlmeInfo) (r : MlmeInfo × List Out) : Prop where
  shaped : Shaped r.1
  phase : r.1.phase = if s.phase = .joined then .idle else s.phase
  reauth : r.1.reauthCount = s.reauthCount
  reassoc : r.1.reassocCount = s.reassocCount
  armed : Armed s → Armed r.1
  quiet : ∀ o ∈ r.2, o.Quiet

theorem leaveJoined_left (h : Shaped s) : Left s (leaveJoined s) := by
  unfold leaveJoined
  rw [h.bits.assocSuccess]
  by_cases hjoined : s.phase = .joined
  · have hnull := shaped_null (s := { s with state := wifiFwNullState, linkTimer := false }) rfl
    rw [if_pos (decide_eq_true hjoined)]
    refine ⟨hnull.1, ?_, rfl, rfl, fun _ hp => ?_, ?_⟩
    · rw [if_pos hjoined]
      exact hnull.2
    · rw [pending_iff, hnull.2] at hp
      simp at hp
    · split <;> simp [Out.Quiet, Out.asks, Out.requests, Out.results]
  · rw [if_neg (by simpa using hjoined)]
    exact ⟨h, (if_neg hjoined).symm, rfl, rfl, fun harmed => harmed,
      fun _ ho => absurd ho List.not_mem_nil⟩

/-- A join that is not heard of again. -/
theorem Left.ignored {r : MlmeInfo × List Out} (hleft : Left s r) {s' : MlmeInfo}
    (hstate : s'.state = r.1.state) (hreauth : s'.reauthCount = r.1.reauthCount)
    (hreassoc : s'.reassocCount = r.1.reassocCount) (hdue : i.event.due = 0)
    (htimer : i.event.isTimer = false)
    (harm : i.event.stray = false → s'.linkTimer = r.1.linkTimer) :
    Goes i s (s', r.2 ++ []) := by
  obtain ⟨hphase, hshaped⟩ := hleft.shaped.congr s' hstate hreauth hreassoc
  refine ⟨?_, hshaped⟩
  rw [List.append_nil]
  rw [hleft.phase] at hphase
  by_cases hjoined : s.phase = .joined
  · rw [if_pos hjoined] at hphase
    exact .leave hdue hjoined hphase hleft.quiet
  · rw [if_neg hjoined] at hphase
    refine .keep hphase (hreauth.trans hleft.reauth) (hreassoc.trans hleft.reassoc) hdue
      (fun hstray harmed hp => ?_) (fun ht => absurd ht (by simp [htimer])) hleft.quiet
    have hpr : r.1.pending = true := by
      rw [pending_iff] at hp ⊢
      rwa [hleft.phase, if_neg hjoined, ← hphase]
    rw [harm hstray]
    exact hleft.armed harmed hpr

/-- A join that is refused. -/
theorem Left.refused {r : MlmeInfo × List Out} (hleft : Left s r) (s' : MlmeInfo)
    (hstate : s'.state = r.1.state) (hreauth : s'.reauthCount = r.1.reauthCount)
    (hreassoc : s'.reassocCount = r.1.reassocCount) (harm : s'.linkTimer = r.1.linkTimer)
    (hjoin : i.event.isJoin = true) (hdue : i.event.due = 1) (hstarts : i.event.starts = false)
    (res : Int) : Goes i s (s', r.2 ++ reportJoinRes i.ok res) := by
  obtain ⟨hphase, hshaped⟩ := hleft.shaped.congr s' hstate hreauth hreassoc
  refine ⟨.refuse hjoin hdue hstarts (hphase.trans hleft.phase) (hreauth.trans hleft.reauth)
    (hreassoc.trans hleft.reassoc) (fun harmed hp => ?_) res _ hleft.quiet rfl, hshaped⟩
  have hpr : r.1.pending = true := by
    rw [pending_iff] at hp ⊢
    rwa [← hphase]
  rw [harm]
  exact hleft.armed harmed hpr

/-- `join_cmd_hdl`. -/
theorem goes_joinCmdHdl (h : Shaped s) {p : JoinParm} (hevent : i.event = .join p) :
    Goes i s (joinCmdHdl s p i.ok) := by
  have hleft := leaveJoined_left h
  have hjoin : i.event.isJoin = true := by
    rw [hevent]
    rfl
  have htimer : i.event.isTimer = false := by
    rw [hevent]
    rfl
  have hdue : i.event.due = if p.answered then 1 else 0 := by
    rw [hevent]
    rfl
  have hstarts : i.event.starts = p.starts := by
    rw [hevent]
    rfl
  have hstray : i.event.stray = (!p.ess && !p.ibss) := by
    rw [hevent]
    rfl
  unfold joinCmdHdl joinNetwork
  by_cases hlong : maxIeSz < p.ieLength
  · rw [if_pos hlong]
    refine hleft.ignored rfl rfl rfl ?_ htimer fun _ => rfl
    rw [hdue, if_neg (by simp [JoinParm.answered]; omega)]
  rw [if_neg hlong]
  have hle := Nat.le_of_not_lt hlong
  by_cases hshort : p.ieLength < 2
  · rw [if_pos hshort]
    refine hleft.refused { (leaveJoined s).1 with bssid := p.macAddress } rfl rfl rfl rfl hjoin
      ?_ ?_ (-4)
    · rw [hdue, if_pos (by simp [JoinParm.answered, hle, hshort])]
    · rw [hstarts]
      simp [JoinParm.starts, Nat.not_le_of_lt hshort]
  rw [if_neg hshort]
  have hge := Nat.le_of_not_lt hshort
  by_cases hchannel : p.channel = false
  · rw [if_pos hchannel]
    refine hleft.refused { (leaveJoined s).1 with bssid := p.macAddress } rfl rfl rfl rfl hjoin
      ?_ ?_ (-4)
    · rw [hdue, if_pos (by simp [JoinParm.answered, hle, hchannel])]
    · rw [hstarts]
      simp [JoinParm.starts, hchannel]
  rw [if_neg hchannel]
  have hch := eq_true_of_ne_false hchannel
  unfold startClntJoin
  by_cases hess : p.ess = true
  · rw [if_pos hess]
    have hphase : phaseOf (wifiFwAuthNull ||| wifiFwStationState) = .beacon := by decide
    refine ⟨.start (hstarts.trans ?_) ?_ hphase rfl ?_, ?_, fun hauth => ?_, fun hassoc => ?_⟩
    · simp [JoinParm.starts, hge, hle, hch, hess]
    · rw [hdue, if_pos (by simp [JoinParm.answered, hle, hess])]
    · rw [List.append_nil]
      exact hleft.quiet
    · exact show wifiFwAuthNull ||| wifiFwStationState ∈ words by decide
    · exact absurd (hphase.symm.trans hauth) (by decide)
    · exact absurd (hphase.symm.trans hassoc) (by decide)
  rw [if_neg hess]
  by_cases hibss : p.ibss = true
  · rw [if_pos hibss]
    have hidle : phaseOf wifiFwAdhocState = .idle := by decide
    refine ⟨.adhoc hjoin ?_ hidle _ _ hleft.quiet rfl, shaped_of_idle ?_ hidle⟩
    · rw [hdue, if_pos (by simp [JoinParm.answered, hle, hibss])]
    · exact show wifiFwAdhocState ∈ words by decide
  rw [if_neg hibss]
  refine hleft.ignored rfl rfl rfl ?_ htimer fun h => ?_
  · have hno : p.answered = false := by
      unfold JoinParm.answered
      rw [decide_eq_false hshort, hch, eq_false_of_ne_true hess, eq_false_of_ne_true hibss]
      simp
    rw [hdue, hno]
    rfl
  · rw [hstray] at h
    simp [hess, hibss] at h

/-- **Every step makes one of the turns.** -/
theorem step_goes (h : Shaped s) (i : Input) : Goes i s (step s i) := by
  unfold step
  cases hevent : i.event with
  | join p => exact goes_joinCmdHdl h hevent
  | disconnect => exact goes_disconnectHdl hevent
  | opmode mode => exact goes_setopmodeHdl h hevent
  | authAlgo mode => exact goes_setauthHdl h hevent
  | beacon b => exact goes_onBeacon h hevent
  | auth f => exact goes_onAuthClient h hevent
  | assocRsp f => exact goes_onAssocRsp h hevent
  | deauth f => exact goes_onDeAuth h (by rw [hevent]; exact ⟨rfl, rfl⟩) f
  | disassoc f => exact goes_onDisassoc h (by rw [hevent]; exact ⟨rfl, rfl⟩) f
  | lost mac => exact goes_receiveDisconnect h (by rw [hevent]; exact ⟨rfl, rfl⟩) mac
  | timer => exact goes_linkTimerFires h hevent

end Turns

/-! ## 4. What a join may still send -/

/-- A join to a network that is there. -/
def demoJoin : Input := ⟨.join ⟨zeroAddr, 100, true, false, true⟩, true⟩

/-- What its access point sends. -/
def demoFrames : List Input :=
  [⟨.beacon ⟨true, false, zeroAddr, true, false, true, true⟩, true⟩,
    ⟨.auth ⟨true, 2, 0, false⟩, true⟩, ⟨.assocRsp ⟨true, 0, 1⟩, true⟩]

def demoFirings : List Input := List.replicate 9 ⟨.timer, true⟩

section Runs

variable {s s' : MlmeInfo} {i : Input} {is : List Input} {outs : List Out}

/-- A state that some run leads to. -/
def Reached (s : MlmeInfo) : Prop := ∃ is, (run step initMlmeExt is).1 = s

theorem shaped_init : Shaped initMlmeExt := (shaped_null rfl).1

theorem shaped_step (h : Shaped s) (i : Input) : Shaped (step s i).1 := (step_goes h i).2

theorem shaped_run (h : Shaped s) (is : List Input) : Shaped (run step s is).1 :=
  run_inv Shaped (P := fun _ _ => True) (fun _ i h _ => shaped_step h i) h
    (along_of_forall fun _ _ => trivial)

theorem Reached.shaped (h : Reached s) : Shaped s := by
  obtain ⟨is, rfl⟩ := h
  exact shaped_run shaped_init is

/-- First authentication frames to come. -/
def MlmeInfo.asksLeft (s : MlmeInfo) : Nat :=
  match s.phase with
  | .beacon => reauthLimit + 1
  | .auth => reauthLimit - s.reauthCount
  | .idle | .assoc | .joined => 0

/-- Association requests to come. -/
def MlmeInfo.requestsLeft (s : MlmeInfo) : Nat :=
  match s.phase with
  | .beacon | .auth => reassocLimit + 1
  | .assoc => reassocLimit - s.reassocCount
  | .idle | .joined => 0

theorem asksLeft_le (s : MlmeInfo) : s.asksLeft ≤ 5 * s.pending.toNat := by
  unfold MlmeInfo.asksLeft MlmeInfo.pending reauthLimit
  cases s.phase <;> simp
  omega

theorem requestsLeft_le (s : MlmeInfo) : s.requestsLeft ≤ 5 * s.pending.toNat := by
  unfold MlmeInfo.requestsLeft MlmeInfo.pending reassocLimit
  cases s.phase <;> simp
  omega

theorem left_congr (hphase : s'.phase = s.phase) (hreauth : s'.reauthCount = s.reauthCount)
    (hreassoc : s'.reassocCount = s.reassocCount) : s'.asksLeft = s.asksLeft ∧
      s'.requestsLeft = s.requestsLeft ∧ s'.pending = s.pending := by
  unfold MlmeInfo.asksLeft MlmeInfo.requestsLeft MlmeInfo.pending
  rw [hphase, hreauth, hreassoc]
  exact ⟨rfl, rfl, rfl⟩

theorem Quiet.cost (h : ∀ o ∈ outs, o.Quiet) :
    cost Out.asks outs = 0 ∧ cost Out.requests outs = 0 ∧ cost Out.results outs = 0 :=
  ⟨cost_eq_zero fun o ho => (h o ho).1, cost_eq_zero fun o ho => (h o ho).2.1,
    cost_eq_zero fun o ho => (h o ho).2.2⟩

theorem cost_reportJoinRes (ok : Bool) (res : Int) :
    cost Out.asks (reportJoinRes ok res) = 0 ∧ cost Out.requests (reportJoinRes ok res) = 0 ∧
      cost Out.results (reportJoinRes ok res) = ok.toNat := by
  cases ok
  · exact ⟨rfl, rfl, rfl⟩
  · exact ⟨rfl, rfl, rfl⟩

/-- What a turn that begins no join pays. -/
structure Pays (s s' : MlmeInfo) (outs : List Out) : Prop where
  asks : cost Out.asks outs + s'.asksLeft ≤ s.asksLeft
  requests : cost Out.requests outs + s'.requestsLeft ≤ s.requestsLeft
  results : cost Out.results outs + s'.pending.toNat ≤ s.pending.toNat

theorem isJoin_of_starts {e : Event} (h : e.starts = true) : e.isJoin = true := by
  cases e with
  | join p => rfl
  | _ => exact absurd h Bool.false_ne_true

theorem Turn.pays (h : Turn i s s' outs) (hjoin : i.event.isJoin = false) : Pays s s' outs := by
  cases h with
  | keep hphase hreauth hreassoc hdue harm htimer hquiet =>
    obtain ⟨hasks, hrequests, hresults⟩ := Quiet.cost hquiet
    obtain ⟨ha, hr, hp⟩ := left_congr hphase hreauth hreassoc
    refine ⟨?_, ?_, ?_⟩
    · omega
    · omega
    · rw [hp]
      omega
  | start hstarts => exact absurd (isJoin_of_starts hstarts) (by simp [hjoin])
  | refuse hj => exact absurd hj (by simp [hjoin])
  | adhoc hj => exact absurd hj (by simp [hjoin])
  | ask hhears hfrom hphase hreauth hreassoc harm algo houts =>
    subst houts
    constructor <;>
      simp [MlmeInfo.asksLeft, MlmeInfo.requestsLeft, MlmeInfo.pending, hfrom, hphase, hreauth,
        Out.asks, Out.requests, Out.results, reauthLimit]
  | askAgain htimer hfrom hphase hreauth hle hreassoc harm algo houts =>
    subst houts
    constructor <;>
      simp [MlmeInfo.asksLeft, MlmeInfo.requestsLeft, MlmeInfo.pending, hfrom, hphase, hreauth,
        Out.asks, Out.requests, Out.results]
    omega
  | request hauth hfrom hphase hreassoc harm houts =>
    subst houts
    constructor <;>
      simp [MlmeInfo.asksLeft, MlmeInfo.requestsLeft, MlmeInfo.pending, hfrom, hphase,
        Out.asks, Out.requests, Out.results]
    omega
  | requestAgain htimer hfrom hphase hreassoc hle harm houts =>
    subst houts
    constructor <;>
      simp [MlmeInfo.asksLeft, MlmeInfo.requestsLeft, MlmeInfo.pending, hfrom, hphase, hreassoc,
        Out.asks, Out.requests, Out.results]
    omega
  | succeed hassoc hfrom hphase res houts =>
    obtain ⟨hasks, hrequests, hresults⟩ := cost_reportJoinRes i.ok res
    rw [← houts] at hasks hrequests hresults
    refine ⟨?_, ?_, ?_⟩
    · rw [hasks, MlmeInfo.asksLeft, hphase]
      exact Nat.zero_le _
    · rw [hrequests, MlmeInfo.requestsLeft, hphase]
      exact Nat.zero_le _
    · rw [hresults, MlmeInfo.pending, hphase, pending_iff.mpr (.inr (.inr hfrom))]
      exact Bool.toNat_le i.ok
  | fail hj hfrom hphase res houts =>
    obtain ⟨hasks, hrequests, hresults⟩ := cost_reportJoinRes i.ok res
    rw [← houts] at hasks hrequests hresults
    refine ⟨?_, ?_, ?_⟩
    · rw [hasks, MlmeInfo.asksLeft, hphase]
      exact Nat.zero_le _
    · rw [hrequests, MlmeInfo.requestsLeft, hphase]
      exact Nat.zero_le _
    · rw [hresults, MlmeInfo.pending, hphase, hfrom]
      exact Bool.toNat_le i.ok
  | drop _ _ hphase hquiet | leave _ _ hphase hquiet =>
    obtain ⟨hasks, hrequests, hresults⟩ := Quiet.cost hquiet
    refine ⟨?_, ?_, ?_⟩
    · rw [hasks, MlmeInfo.asksLeft, hphase]
      exact Nat.zero_le _
    · rw [hrequests, MlmeInfo.requestsLeft, hphase]
      exact Nat.zero_le _
    · rw [hresults, MlmeInfo.pending, hphase]
      exact Nat.zero_le _

/-- **What one join costs.**  Until the next join command, whatever comes and however often, five
first authentication frames and five association requests are sent at most, and one result is
reported at most; none where no join is under way, and none behind the result. -/
theorem attempt_bounded (h : Reached s) (hno : ∀ i ∈ is, i.event.isJoin = false) :
    cost Out.asks (run step s is).2 ≤ 5 * s.pending.toNat ∧
      cost Out.requests (run step s is).2 ≤ 5 * s.pending.toNat ∧
      cost Out.results (run step s is).2 + (run step s is).1.pending.toNat
        ≤ s.pending.toNat := by
  have halong : Along step (fun _ i => i.event.isJoin = false) s is := along_of_forall hno
  have hpays : ∀ s i, Shaped s → i.event.isJoin = false → Pays s (step s i).1 (step s i).2 :=
    fun s i h hjoin => (step_goes h i).1.pays hjoin
  have hkeeps : ∀ s i, Shaped s → i.event.isJoin = false → Shaped (step s i).1 :=
    fun s i h _ => shaped_step h i
  have hsum : (is.map fun _ => 0).sum = 0 := List.sum_eq_zero (by simp)
  have hasks : cost Out.asks (run step s is).2 + (run step s is).1.asksLeft
      ≤ s.asksLeft + (is.map fun _ => 0).sum :=
    run_cost_le Shaped _ _ hkeeps (fun s i h hj => (hpays s i h hj).asks) h.shaped halong
  have hrequests : cost Out.requests (run step s is).2 + (run step s is).1.requestsLeft
      ≤ s.requestsLeft + (is.map fun _ => 0).sum :=
    run_cost_le Shaped _ _ hkeeps (fun s i h hj => (hpays s i h hj).requests) h.shaped halong
  have hresults : cost Out.results (run step s is).2 + (run step s is).1.pending.toNat
      ≤ s.pending.toNat + (is.map fun _ => 0).sum :=
    run_cost_le Shaped (fun s => s.pending.toNat) _ hkeeps
      (fun s i h hj => (hpays s i h hj).results) h.shaped halong
  have hasksLeft := asksLeft_le s
  have hrequestsLeft := requestsLeft_le s
  rw [hsum] at hasks hrequests hresults
  omega

theorem attempt_bounded_of_demo :
    cost Out.asks (run step (run step initMlmeExt [demoJoin]).1 demoFrames).2
        ≤ 5 * (run step initMlmeExt [demoJoin]).1.pending.toNat ∧
      cost Out.requests (run step (run step initMlmeExt [demoJoin]).1 demoFrames).2
        ≤ 5 * (run step initMlmeExt [demoJoin]).1.pending.toNat ∧
      cost Out.results (run step (run step initMlmeExt [demoJoin]).1 demoFrames).2
          + (run step (run step initMlmeExt [demoJoin]).1 demoFrames).1.pending.toNat
        ≤ (run step initMlmeExt [demoJoin]).1.pending.toNat :=
  attempt_bounded ⟨[demoJoin], rfl⟩ (by simp [demoFrames, Event.isJoin])

/-! ## 5. How long a join lasts -/

/-- Firings that a join survives, and one. -/
def MlmeInfo.firingsLeft (s : MlmeInfo) : Nat :=
  match s.phase with
  | .beacon => 9
  | .auth => 9 - s.reauthCount
  | .assoc => 5 - s.reassocCount
  | .idle | .joined => 0

theorem firingsLeft_pos (h : Shaped s) (hp : s.pending = true) : 0 < s.firingsLeft := by
  unfold MlmeInfo.firingsLeft
  rcases pending_iff.mp hp with hphase | hphase | hphase
  · rw [hphase]
    exact Nat.succ_pos 8
  · have hle : s.reauthCount ≤ 4 := (h.auth hphase).1
    rw [hphase]
    exact Nat.sub_pos_of_lt (by omega)
  · have hle : s.reassocCount ≤ 4 := h.assoc hphase
    rw [hphase]
    exact Nat.sub_pos_of_lt (by omega)

theorem firingsLeft_le (s : MlmeInfo) : s.firingsLeft ≤ 9 := by
  unfold MlmeInfo.firingsLeft
  cases s.phase <;> simp
  omega

/-- Whoever waits keeps the timer set, where no join is to a network of neither kind. -/
theorem Turn.armed (h : Turn i s s' outs) (hstray : i.event.stray = false) (harmed : Armed s) :
    Armed s' := by
  have hidle : s'.phase = .idle ∨ s'.phase = .joined → Armed s' := by
    intro hphase hp
    rw [pending_iff] at hp
    rcases hphase with hphase | hphase <;> simp [hphase] at hp
  cases h with
  | keep _ _ _ _ harm => exact harm hstray harmed
  | refuse _ _ _ _ _ _ harm => exact harm harmed
  | start _ _ _ harm => exact fun _ => harm
  | ask _ _ _ _ _ harm => exact fun _ => harm
  | askAgain _ _ _ _ _ _ harm => exact fun _ => harm
  | request _ _ _ _ harm => exact fun _ => harm
  | requestAgain _ _ _ _ _ harm => exact fun _ => harm
  | adhoc _ _ hphase => exact hidle (.inl hphase)
  | succeed _ _ hphase => exact hidle (.inr hphase)
  | fail _ _ hphase => exact hidle (.inl hphase)
  | drop _ _ hphase => exact hidle (.inl hphase)
  | leave _ _ hphase => exact hidle (.inl hphase)

/-- A join does not come back. -/
theorem Pays.alive (h : Pays s s' outs) (hp : s'.pending = true) : s.pending = true := by
  have hresults := h.results
  rw [hp] at hresults
  cases hs : s.pending with
  | true => rfl
  | false =>
    rw [hs] at hresults
    simp at hresults

/-- A firing takes one, a frame nothing, and what is asked for next needs no more. -/
theorem Turn.firingsLeft (h : Turn i s s' outs) (hs : Shaped s) (harmed : Armed s)
    (hjoin : i.event.isJoin = false) (hp : s.pending = true) (hp' : s'.pending = true) :
    (if i.event.isTimer then 1 else 0) + s'.firingsLeft ≤ s.firingsLeft := by
  cases h with
  | keep hphase hreauth hreassoc hdue harm htimer hquiet =>
    have hno : i.event.isTimer = false := by
      refine eq_false_of_ne_true fun ht => ?_
      exact absurd ((htimer ht harmed).symm.trans hp) Bool.false_ne_true
    rw [hno, MlmeInfo.firingsLeft, MlmeInfo.firingsLeft, hphase, hreauth, hreassoc]
    simp
  | start hstarts => exact absurd (isJoin_of_starts hstarts) (by simp [hjoin])
  | refuse hj => exact absurd hj (by simp [hjoin])
  | adhoc hj => exact absurd hj (by simp [hjoin])
  | ask hhears hfrom hphase hreauth =>
    obtain ⟨b, hevent, -⟩ := hhears
    simp [hevent, Event.isTimer, MlmeInfo.firingsLeft, hfrom, hphase, hreauth]
  | askAgain htimer hfrom hphase hreauth hle =>
    have hle' : s'.reauthCount ≤ 4 := hle
    simp [htimer, Event.isTimer, MlmeInfo.firingsLeft, hfrom, hphase, hreauth]
    omega
  | request hauth hfrom hphase hreassoc =>
    obtain ⟨f, hevent, -⟩ := hauth
    have hle : s.reauthCount ≤ 4 := (hs.auth hfrom).1
    simp [hevent, Event.isTimer, MlmeInfo.firingsLeft, hfrom, hphase]
    omega
  | requestAgain htimer hfrom hphase hreassoc hle =>
    have hle' : s'.reassocCount ≤ 4 := hle
    simp [htimer, Event.isTimer, MlmeInfo.firingsLeft, hfrom, hphase, hreassoc]
    omega
  | succeed _ _ hphase | fail _ _ hphase | drop _ _ hphase | leave _ _ hphase =>
    rw [pending_iff] at hp'
    simp [hphase] at hp'

/-- **Nine firings end a join**, whatever frames and commands come in between, as long as no other
join is asked for.  It takes joins to networks that are of one of the two kinds: one that is of
neither stops the timer of the join before it. -/
theorem attempt_ends {js : List Input} (hkind : ∀ i ∈ is, i.event.stray = false)
    (hno : ∀ j ∈ js, j.event.isJoin = false) (hnine : 9 ≤ js.countP fun j => j.event.isTimer) :
    (run step (run step initMlmeExt is).1 js).1.pending = false := by
  have hinit : Shaped initMlmeExt ∧ Armed initMlmeExt := ⟨shaped_init, fun hp => hp⟩
  have hstart : Shaped (run step initMlmeExt is).1 ∧ Armed (run step initMlmeExt is).1 :=
    run_inv (fun s => Shaped s ∧ Armed s)
      (fun s i h hstray => ⟨shaped_step h.1 i, (step_goes h.1 i).1.armed hstray h.2⟩) hinit
      (along_of_forall hkind)
  have hstray : ∀ {e : Event}, e.isJoin = false → e.stray = false := by
    intro e hjoin
    cases e with
    | join p => exact absurd hjoin (by simp [Event.isJoin])
    | _ => rfl
  refine eq_false_of_ne_true fun hp => ?_
  have hcount := run_ticks_le (fun s => Shaped s ∧ Armed s) (fun s => s.pending = true)
    MlmeInfo.firingsLeft (fun j : Input => j.event.isTimer)
    (fun s i h hjoin => ⟨shaped_step h.1 i, (step_goes h.1 i).1.armed (hstray hjoin) h.2⟩)
    (fun s i h hjoin hp => ((step_goes h.1 i).1.pays hjoin).alive hp)
    (fun s i h hjoin hp hp' => (step_goes h.1 i).1.firingsLeft h.1 h.2 hjoin hp hp')
    hstart (along_of_forall hno) hp
  have hpos := firingsLeft_pos (shaped_run hstart.1 js) hp
  have hle := firingsLeft_le (run step initMlmeExt is).1
  omega

theorem attempt_ends_of_demo :
    (run step (run step initMlmeExt [demoJoin]).1 demoFirings).1.pending = false :=
  attempt_ends (by simp [demoJoin, Event.stray]) (by simp [demoFirings, Event.isJoin]) (by decide)

/-! ## 6. Every join has its result -/

/-- The station is left alone: no join is asked for, and nothing else wanted of it, while one is
under way, and what is reported reaches the queue. -/
structure LeftAlone (s : MlmeInfo) (i : Input) : Prop where
  ok : i.ok = true
  free : i.event.isJoin = true ∨ i.event.drops = true → s.pending = false

theorem due_of_starts {e : Event} (h : e.due = 0) : e.starts = false := by
  cases e with
  | join p =>
    refine eq_false_of_ne_true fun hp => ?_
    have hp' : p.starts = true := hp
    have hdue : (if p.answered then 1 else 0) = 0 := h
    have hanswered : p.answered = true := by
      simp [JoinParm.starts] at hp'
      simp [JoinParm.answered, hp']
    rw [if_pos hanswered] at hdue
    exact absurd hdue Nat.one_ne_zero
  | _ => rfl

/-- What comes in with a command goes out as its result. -/
theorem Turn.balance (h : Turn i s s' outs) (halone : LeftAlone s i) :
    cost Out.results outs + s'.pending.toNat = s.pending.toNat + i.event.due := by
  have hreport : ∀ {res}, cost Out.results (reportJoinRes i.ok res) = 1 := by
    intro res
    rw [(cost_reportJoinRes i.ok res).2.2, halone.ok]
    rfl
  have hnot : ∀ {t : MlmeInfo}, t.phase = .idle ∨ t.phase = .joined → t.pending = false := by
    intro t ht
    refine eq_false_of_ne_true fun hp => ?_
    rcases ht with ht | ht <;> simp [pending_iff, ht] at hp
  have hmoves : ∀ {t : MlmeInfo}, t.phase = .beacon ∨ t.phase = .auth ∨ t.phase = .assoc →
      t.pending = true := fun ht => pending_iff.mpr ht
  cases h with
  | keep hphase hreauth hreassoc hdue harm htimer hquiet =>
    rw [(Quiet.cost hquiet).2.2, (left_congr hphase hreauth hreassoc).2.2, hdue, Nat.zero_add,
      Nat.add_zero]
  | start hstarts hdue hphase harm hquiet =>
    rw [(Quiet.cost hquiet).2.2, hmoves (.inl hphase),
      halone.free (.inl (isJoin_of_starts hstarts)), hdue]
    rfl
  | refuse hjoin hdue hstarts hphase hreauth hreassoc harm res pre hquiet houts =>
    have hfree := halone.free (.inl hjoin)
    have hend : s'.pending = false := by
      by_cases hjoined : s.phase = .joined
      · rw [if_pos hjoined] at hphase
        exact hnot (.inl hphase)
      · rw [if_neg hjoined] at hphase
        rw [(left_congr hphase hreauth hreassoc).2.2]
        exact hfree
    rw [houts, cost_append, (Quiet.cost hquiet).2.2, hreport, hend, hfree, hdue]
    rfl
  | adhoc hjoin hdue hphase res pre hquiet houts =>
    rw [houts, cost_append, (Quiet.cost hquiet).2.2, hreport, hnot (.inl hphase),
      halone.free (.inl hjoin), hdue]
    rfl
  | ask hhears hfrom hphase _ _ _ algo houts =>
    obtain ⟨b, hevent, -⟩ := hhears
    rw [houts, hmoves (.inl hfrom), hmoves (.inr (.inl hphase)), hevent]
    rfl
  | askAgain hevent hfrom hphase _ _ _ _ algo houts =>
    rw [houts, hmoves (.inr (.inl hfrom)), hmoves (.inr (.inl hphase)), hevent]
    rfl
  | request hauth hfrom hphase _ _ houts =>
    obtain ⟨f, hevent, -⟩ := hauth
    rw [houts, hmoves (.inr (.inl hfrom)), hmoves (.inr (.inr hphase)), hevent]
    rfl
  | requestAgain hevent hfrom hphase _ _ _ houts =>
    rw [houts, hmoves (.inr (.inr hfrom)), hmoves (.inr (.inr hphase)), hevent]
    rfl
  | succeed hassoc hfrom hphase res houts =>
    obtain ⟨f, hevent, -⟩ := hassoc
    rw [houts, hreport, hmoves (.inr (.inr hfrom)), hnot (.inr hphase), hevent]
    rfl
  | fail hjoin hfrom hphase res houts =>
    rw [houts, hreport, hfrom, hnot (.inl hphase), due_of_not_join hjoin]
    rfl
  | drop hdrops hfrom =>
    exact absurd ((halone.free (.inr hdrops)).symm.trans hfrom) Bool.false_ne_true
  | leave hdue hfrom hphase hquiet =>
    rw [(Quiet.cost hquiet).2.2, hnot (.inl hphase), hnot (.inr hfrom), hdue]
    rfl

/-- **Every join gets one result.**  Where the station is left alone, the results reported are as
many as the joins that are due one, but for the one under way; so behind nine firings of the timer
(`attempt_ends`) none is missing, and there is never one too many. -/
theorem joins_answered (hall : Along step LeftAlone initMlmeExt is) :
    cost Out.results (run step initMlmeExt is).2 + (run step initMlmeExt is).1.pending.toNat
      = (is.map fun i => i.event.due).sum := by
  have hrun := run_cost_eq Shaped (fun s => s.pending.toNat) (fun i : Input => i.event.due)
    (fun s i h _ => shaped_step h i) (fun s i h halone => (step_goes h i).1.balance halone)
    shaped_init hall
  rw [hrun]
  exact Nat.zero_add _

theorem joins_answered_of_demo :
    cost Out.results (run step initMlmeExt (demoJoin :: demoFrames)).2
        + (run step initMlmeExt (demoJoin :: demoFrames)).1.pending.toNat
      = ((demoJoin :: demoFrames).map fun i => i.event.due).sum :=
  joins_answered ⟨⟨rfl, fun _ => rfl⟩, ⟨rfl, by simp [Event.isJoin, Event.drops]⟩,
    ⟨rfl, by simp [Event.isJoin, Event.drops]⟩, ⟨rfl, by simp [Event.isJoin, Event.drops]⟩, trivial⟩

/-! ## 7. The order of a join -/

/-- No join begins. -/
def NoStart (is : List Input) : Prop := ∀ i ∈ is, i.event.starts = false

/-- The milestones, the last one in front, were passed one after the other, and no join began behind
the first of them. -/
def Passed : List (MlmeInfo → Input → Prop) → List Input → Prop
  | [], _ => True
  | M :: Ms, is => ∃ before i after, is = before ++ i :: after ∧
      M (run step initMlmeExt before).1 i ∧ NoStart after ∧ Passed Ms before

theorem Passed.snoc {Ms : List (MlmeInfo → Input → Prop)} (h : Passed Ms is)
    (hno : i.event.starts = false) : Passed Ms (is ++ [i]) := by
  cases Ms with
  | nil => trivial
  | cons M Ms =>
    obtain ⟨before, j, after, rfl, hM, hafter, hrest⟩ := h
    refine ⟨before, j, after ++ [i], by simp, hM, ?_, hrest⟩
    intro k hk
    rcases List.mem_append.mp hk with hk | hk
    · exact hafter k hk
    · rw [List.mem_singleton.mp hk]
      exact hno

theorem Passed.next {M : MlmeInfo → Input → Prop} {Ms : List (MlmeInfo → Input → Prop)}
    (h : Passed Ms is) (hM : M (run step initMlmeExt is).1 i) : Passed (M :: Ms) (is ++ [i]) :=
  ⟨is, i, [], rfl, hM, fun _ hk => absurd hk List.not_mem_nil, h⟩

/-- What lies behind a phase. -/
def Phase.milestones : Phase → List (MlmeInfo → Input → Prop)
  | .idle => []
  | .beacon => [Starts]
  | .auth => [HearsBeacon, Starts]
  | .assoc => [Authenticates, HearsBeacon, Starts]
  | .joined => [Associates, Authenticates, HearsBeacon, Starts]

theorem run_snoc (s : MlmeInfo) (is : List Input) (i : Input) :
    (run step s (is ++ [i])).1 = (step (run step s is).1 i).1 := run_append_fst is [i]

theorem passed_run (is : List Input) : Passed (run step initMlmeExt is).1.phase.milestones is := by
  induction is using List.reverseRecOn with
  | nil => trivial
  | append_singleton is i ih =>
    have hgoes := (step_goes (shaped_run shaped_init is) i).1
    rw [run_snoc]
    generalize hs : (run step initMlmeExt is).1 = s at *
    cases hgoes with
    | keep hphase _ _ hdue =>
      rw [hphase]
      exact ih.snoc (due_of_starts hdue)
    | start hstarts _ hphase =>
      rw [hphase]
      exact Passed.next trivial hstarts
    | refuse _ _ hstarts hphase =>
      rw [hphase]
      split
      · trivial
      · exact ih.snoc hstarts
    | ask hhears hfrom hphase =>
      rw [hfrom] at ih
      rw [hphase]
      exact ih.next (hs ▸ hhears)
    | askAgain hevent hfrom hphase =>
      rw [hfrom] at ih
      rw [hphase]
      exact ih.snoc (by rw [hevent]; rfl)
    | request hauth hfrom hphase =>
      rw [hfrom] at ih
      rw [hphase]
      exact ih.next (hs ▸ hauth)
    | requestAgain hevent hfrom hphase =>
      rw [hfrom] at ih
      rw [hphase]
      exact ih.snoc (by rw [hevent]; rfl)
    | succeed hassoc hfrom hphase =>
      rw [hfrom] at ih
      rw [hphase]
      exact ih.next (hs ▸ hassoc)
    | adhoc _ _ hphase | fail _ _ hphase | drop _ _ hphase | leave _ _ hphase =>
      rw [hphase]
      trivial

end Runs

end ClntJoin

end Rtl8723bs
