/-
# Packet number replay

For unicast frames `recv_ucast_pn_decache` looks at the packet number but rejects nothing: a
replayed number is accepted and even becomes the stored one (`ucast_pn_replayed`).  What keeps a
run free of replays is a condition on its frames, `PnRunOk`, and nothing the driver does
(`ucast_pn_no_replay`).

For group addressed frames `recv_bcast_pn_decache` does reject, by serial order of 48 bits with
an exception for a stored zero; `bcast_pn_serial` says what that gives over a run.
-/
import Mathlib.Data.List.Chain
import Rtl8723bs.Lib.Serial
import Rtl8723bs.Rx.Validate

namespace Rtl8723bs

open Serial

/-! ## 1. Packet numbers -/

/-- A packet number has 48 bits. -/
theorem ccmph2Pn_lt (ch : Nat) : ccmph2Pn ch < 2 ^ 48 := by
  unfold ccmph2Pn
  refine Nat.or_lt_two_pow ?_ ?_
  · have := Nat.and_le_right (n := ch) (m := 0x000000000000ffff)
    omega
  · have := Nat.and_le_right (n := ch) (m := 0xffffffff00000000)
    rw [Nat.shiftRight_eq_div_pow]
    omega

/-- `PN_LESS_CHK` is the serial order of 48 bits. -/
theorem pnLessChk_iff (a b : Nat) : pnLessChk a b = true ↔ Before (2 ^ 48) a b := by
  have hbit : (0x800000000000#64) = BitVec.twoPow 64 47 := by decide
  unfold pnLessChk
  rw [decide_eq_true_iff, hbit]
  exact sub_bit_iff_before (by omega)

theorem validPnChk_iff (new old : Nat) :
    validPnChk new old = true ↔ old = 0 ∨ Before (2 ^ 48) old new := by
  unfold validPnChk
  rw [decide_eq_true_iff, pnLessChk_iff]

/-! ## 2. Unicast frames -/

/-- The packet number stored for a station and a TID. -/
def storedPn (s : ReplayState) (i : StaId) (tid : Nat) : Nat := ccmph2Pn ((s.rxcache i).iv tid)

/-- The frame as `recv_ucast_pn_decache` gets to see it, with its station, if it gets there. -/
def ucastPnInput (env : RxEnv) (s : ReplayState) (f : RecvFrame) : Option (StaId × RecvFrame) :=
  let route := dataRoute env f
  match route.ret, route.psta with
  | .success, some psta =>
    let g := parseQc route.frame
    if (recvDecache g (s.rxcache psta)).isSome ∧ !isMcast g.attrib.ra then some (psta, g)
    else none
  | _, _ => none

/-- A frame that was accepted under AES. -/
structure AcceptedPn where
  sta : StaId
  tid : Nat
  pn : Nat
deriving DecidableEq, Repr

/-- What a call of `validate_recv_data_frame` accepts: a unicast frame under AES. -/
def acceptedPn (r : ValidateResult) : Option AcceptedPn :=
  match r.ret, r.psta with
  | .success, some i =>
    if r.frame.attrib.encrypt = encAes ∧ !isMcast r.frame.attrib.ra then
      some ⟨i, r.frame.attrib.priority, ccmph2Pn (ccmpHdr r.frame)⟩
    else none
  | _, _ => none

/-- The replay state after the frames, and what was accepted on the way. -/
def pnRun (env : RxEnv) : ReplayState → List RecvFrame → ReplayState × List AcceptedPn
  | s, [] => (s, [])
  | s, f :: t =>
    let r := validateRecvDataFrame env s f
    let rest := pnRun env r.replay t
    (rest.1, (acceptedPn r).toList ++ rest.2)

/-- **The condition on one frame.**  When it reaches the check and the descriptor says AES, its
packet number is above the stored one, or none is stored yet; and a frame that turns out to be
under AES is one the descriptor says AES for. -/
def PnStepOk (env : RxEnv) (s : ReplayState) (f : RecvFrame) : Prop :=
  ∀ i g, ucastPnInput env s f = some (i, g) →
    (g.attrib.encrypt = encAes →
      storedPn s i g.attrib.priority < ccmph2Pn (ccmpHdr g) ∨
      ((s.rxcache i).iv g.attrib.priority = 0 ∧ ccmpHdr g ≠ 0)) ∧
    (g.attrib.privacy ≠ 0 → getEncryAlgo env i g.attrib.encrypt false = encAes →
      g.attrib.encrypt = encAes)

/-- ...and on every frame of a run. -/
def PnRunOk (env : RxEnv) : ReplayState → List RecvFrame → Prop
  | _, [] => True
  | s, f :: t => PnStepOk env s f ∧ PnRunOk env (validateRecvDataFrame env s f).replay t

/-- What is stored is at least everything accepted so far. -/
def PnInv (s : ReplayState) (acc : List AcceptedPn) : Prop :=
  ∀ e ∈ acc, (s.rxcache e.sta).iv e.tid ≠ 0 ∧ e.pn ≤ storedPn s e.sta e.tid

theorem recvDecache_iv {f : RecvFrame} {c c' : StainfoRxcache} (h : recvDecache f c = some c') :
    c'.iv = c.iv ∧ f.attrib.priority ≤ 15 := by
  unfold recvDecache at h
  simp only at h
  split at h
  · cases h
  · rename_i htid
    split at h
    · cases h
    · cases h
      exact ⟨rfl, by omega⟩

/-- Whatever the packet number, the check passes and the header is stored. -/
theorem recvUcastPnDecache_eq {f : RecvFrame} {c : StainfoRxcache}
    (htid : f.attrib.priority ≤ 15) :
    recvUcastPnDecache f c =
      some (if f.attrib.encrypt = encAes then
        { c with
          lastTid := f.attrib.priority
          iv := Function.update c.iv f.attrib.priority (ccmpHdr f) }
      else c) := by
  have hle : ¬ 15 < f.attrib.priority := by omega
  unfold recvUcastPnDecache
  simp only [hle, if_false]
  by_cases hAes : f.attrib.encrypt = encAes
  · simp [hAes]
  · simp [hAes]

theorem setEncrypt_hdr (env : RxEnv) (i : StaId) (f : RecvFrame) :
    ccmpHdr (setEncrypt env i f) = ccmpHdr f ∧
    (setEncrypt env i f).attrib.priority = f.attrib.priority ∧
    (setEncrypt env i f).attrib.ra = f.attrib.ra := by
  unfold setEncrypt
  split <;> exact ⟨rfl, rfl, rfl⟩

theorem setEncrypt_aes {env : RxEnv} {i : StaId} {f : RecvFrame}
    (h : (setEncrypt env i f).attrib.encrypt = encAes) :
    f.attrib.privacy ≠ 0 ∧
      getEncryAlgo env i f.attrib.encrypt (isMcast f.attrib.ra) = encAes := by
  unfold setEncrypt at h
  split at h
  · rename_i hpriv
    exact ⟨hpriv, h⟩
  · cases h

/-- **One frame.**  Either it does not reach the unicast check, and then no stored unicast
number changes and nothing is accepted; or it does, and then it is accepted, and its header is
stored when the descriptor says AES. -/
theorem validateRecvDataFrame_pn (env : RxEnv) (s : ReplayState) (f : RecvFrame) :
    (ucastPnInput env s f = none ∧ acceptedPn (validateRecvDataFrame env s f) = none ∧
      ∀ j, ((validateRecvDataFrame env s f).replay.rxcache j).iv = (s.rxcache j).iv) ∨
    ∃ i g, ucastPnInput env s f = some (i, g) ∧ isMcast g.attrib.ra = false ∧
      acceptedPn (validateRecvDataFrame env s f)
        = (if (setEncrypt env i g).attrib.encrypt = encAes then
            some ⟨i, g.attrib.priority, ccmph2Pn (ccmpHdr g)⟩ else none) ∧
      ∀ j, ((validateRecvDataFrame env s f).replay.rxcache j).iv
        = if j = i ∧ g.attrib.encrypt = encAes then
            Function.update (s.rxcache i).iv g.attrib.priority (ccmpHdr g)
          else (s.rxcache j).iv := by
  unfold validateRecvDataFrame ucastPnInput
  cases hret : (dataRoute env f).ret with
  | fail => simp [hret, acceptedPn]
  | handled => simp [hret, acceptedPn]
  | success =>
    cases hpsta : (dataRoute env f).psta with
    | none => simp [hret, hpsta, acceptedPn]
    | some i =>
      simp only [hret, hpsta]
      generalize parseQc (dataRoute env f).frame = g
      cases hcache : recvDecache g (s.rxcache i) with
      | none =>
        left
        simp [acceptedPn]
      | some cache =>
        obtain ⟨hiv, htid⟩ := recvDecache_iv hcache
        have hkeep : ∀ j, (Function.update s.rxcache i cache j).iv = (s.rxcache j).iv := by
          intro j
          by_cases hj : j = i
          · rw [hj, Function.update_self, hiv]
          · rw [Function.update_of_ne hj]
        cases hmc : isMcast g.attrib.ra with
        | true =>
          left
          simp only [Bool.not_true, Bool.false_eq_true, and_false, if_false]
          refine ⟨trivial, ?_⟩
          cases recvBcastPnDecache env.adapter g s.ivSeq with
          | none => exact ⟨rfl, hkeep⟩
          | some ivSeq =>
            refine ⟨?_, hkeep⟩
            have hra := (setEncrypt_hdr env i g).2.2
            simp [acceptedPn, hra, hmc]
        | false =>
          right
          obtain ⟨hhdr, hprio, hra⟩ := setEncrypt_hdr env i g
          simp only [Option.isSome_some, Bool.not_false, and_self, if_true,
            recvUcastPnDecache_eq htid]
          refine ⟨i, g, rfl, hmc, ?_, ?_⟩
          · simp [acceptedPn, hra, hmc, hprio, hhdr]
          · intro j
            by_cases hj : j = i
            · rw [hj]
              by_cases hAes : g.attrib.encrypt = encAes
              · simp [hAes, hiv]
              · simp [hAes, hiv]
            · simp [hj]

/-- **One frame keeps the invariant**, under the condition, and lowers no stored number. -/
theorem pnInv_step {env : RxEnv} {s : ReplayState} {f : RecvFrame} {acc : List AcceptedPn}
    (hok : PnStepOk env s f) (h : PnInv s acc) :
    PnInv (validateRecvDataFrame env s f).replay
      (acc ++ (acceptedPn (validateRecvDataFrame env s f)).toList) ∧
    (∀ e ∈ acceptedPn (validateRecvDataFrame env s f), ∀ e' ∈ acc,
      e'.sta = e.sta → e'.tid = e.tid → e'.pn < e.pn) ∧
    ∀ i tid, storedPn s i tid ≤ storedPn (validateRecvDataFrame env s f).replay i tid := by
  rcases validateRecvDataFrame_pn env s f with
    ⟨_, hacc, hiv⟩ | ⟨i, g, hinput, hmc, hacc, hiv⟩
  · rw [hacc]
    refine ⟨?_, by simp, fun i tid => by simp [storedPn, hiv]⟩
    simpa [PnInv, storedPn, hiv] using h
  · obtain ⟨hgrow, haes⟩ := hok i g hinput
    rw [hacc]
    by_cases hdesc : g.attrib.encrypt = encAes
    · have hhdr : ccmpHdr g ≠ 0 := by
        rcases hgrow hdesc with hlt | ⟨_, hne⟩
        · intro hzero
          rw [hzero] at hlt
          have : ccmph2Pn 0 = 0 := by decide
          omega
        · exact hne
      have hmono : ∀ j tid, storedPn s j tid
          ≤ storedPn (validateRecvDataFrame env s f).replay j tid := by
        intro j tid
        by_cases hj : j = i
        · subst hj
          by_cases ht : tid = g.attrib.priority
          · subst ht
            simp only [storedPn, hiv, hdesc, and_self, if_true, Function.update_self]
            rcases hgrow hdesc with hlt | ⟨hzero, _⟩
            · exact Nat.le_of_lt hlt
            · have : ccmph2Pn 0 = 0 := by decide
              rw [hzero, this]
              exact Nat.zero_le _
          · simp [storedPn, hiv, hdesc, Function.update_of_ne ht]
        · simp [storedPn, hiv, hj]
      have hkeep : ∀ j tid, (s.rxcache j).iv tid ≠ 0 →
          ((validateRecvDataFrame env s f).replay.rxcache j).iv tid ≠ 0 := by
        intro j tid hne
        by_cases hj : j = i
        · subst hj
          by_cases ht : tid = g.attrib.priority
          · subst ht
            simpa [hiv, hdesc] using hhdr
          · simpa [hiv, hdesc, Function.update_of_ne ht] using hne
        · simpa [hiv, hj] using hne
      refine ⟨?_, ?_, hmono⟩
      · intro e he
        rcases List.mem_append.mp he with he | he
        · obtain ⟨hne, hle⟩ := h e he
          exact ⟨hkeep e.sta e.tid hne, Nat.le_trans hle (hmono e.sta e.tid)⟩
        · split at he
          · simp only [Option.toList_some, List.mem_singleton] at he
            subst he
            simp [hiv, hdesc, storedPn, hhdr]
          · simp at he
      · intro e he e' he' hsta htid
        split at he
        · cases he
          simp only at hsta htid ⊢
          obtain ⟨hne, hle⟩ := h e' he'
          rw [hsta, htid] at hne hle
          rcases hgrow hdesc with hlt | ⟨hzero, _⟩
          · omega
          · exact absurd hzero hne
        · simp at he
    · -- not under AES for the descriptor, so not under AES at all
      have hnot : ¬ (setEncrypt env i g).attrib.encrypt = encAes := by
        intro hset
        obtain ⟨hpriv, halgo⟩ := setEncrypt_aes hset
        rw [hmc] at halgo
        exact hdesc (haes hpriv halgo)
      rw [if_neg hnot]
      refine ⟨?_, by simp, fun j tid => by simp [storedPn, hiv, hdesc]⟩
      simpa [PnInv, storedPn, hiv, hdesc] using h

/-- **...and so does a run.** -/
theorem pnInv_run {env : RxEnv} : ∀ {frames : List RecvFrame} {s : ReplayState}
    {acc : List AcceptedPn}, PnRunOk env s frames → PnInv s acc →
    PnInv (pnRun env s frames).1 (acc ++ (pnRun env s frames).2) ∧
    (∀ e ∈ acc, ∀ e' ∈ (pnRun env s frames).2, e.sta = e'.sta → e.tid = e'.tid → e.pn < e'.pn) ∧
    (pnRun env s frames).2.Pairwise (fun e e' => e.sta = e'.sta → e.tid = e'.tid → e.pn < e'.pn) ∧
    ∀ i tid, storedPn s i tid ≤ storedPn (pnRun env s frames).1 i tid
  | [], s, acc, _, h => ⟨by simpa [pnRun] using h, by simp [pnRun], by simp [pnRun],
      fun i tid => Nat.le_refl _⟩
  | f :: t, s, acc, hok, h => by
    obtain ⟨hstep, hrest⟩ := hok
    obtain ⟨hinv, hnew, hmono⟩ := pnInv_step hstep h
    obtain ⟨hinv', hlater, hpair, hmono'⟩ := pnInv_run hrest hinv
    have hone : (acceptedPn (validateRecvDataFrame env s f)).toList.Pairwise
        (fun e e' => e.sta = e'.sta → e.tid = e'.tid → e.pn < e'.pn) := by
      cases acceptedPn (validateRecvDataFrame env s f) <;> simp
    refine ⟨by simpa [pnRun] using hinv', ?_, ?_, fun i tid => ?_⟩
    · intro e he e' he'
      rcases List.mem_append.mp he' with he' | he'
      · exact hnew e' (by simpa using he') e he
      · exact hlater e (List.mem_append_left _ he) e' he'
    · refine List.pairwise_append.mpr ⟨hone, hpair, ?_⟩
      intro e he e' he'
      exact hlater e (List.mem_append_right _ he) e' he'
    · exact Nat.le_trans (hmono i tid) (hmono' i tid)

theorem pnRun_append (env : RxEnv) : ∀ (pre post : List RecvFrame) (s : ReplayState),
    (pnRun env s (pre ++ post)).1 = (pnRun env (pnRun env s pre).1 post).1
  | [], _, _ => rfl
  | f :: t, post, s => by
    simp only [List.cons_append, pnRun]
    exact pnRun_append env t post _

theorem pnRunOk_append (env : RxEnv) : ∀ (pre post : List RecvFrame) (s : ReplayState),
    PnRunOk env s (pre ++ post) ↔ PnRunOk env s pre ∧ PnRunOk env (pnRun env s pre).1 post
  | [], _, _ => by simp [PnRunOk, pnRun]
  | f :: t, post, s => by
    simp only [List.cons_append, PnRunOk, pnRun, pnRunOk_append env t post, and_assoc]

/-- **No replay, when the air brings none.**  In every run whose frames all meet the condition,
from any replay state, no accepted AES frame has a packet number at or below that of one
accepted before it for its station and TID, and no stored number ever goes down. -/
theorem ucast_pn_no_replay (env : RxEnv) (s : ReplayState) {frames : List RecvFrame}
    (hok : PnRunOk env s frames) :
    (pnRun env s frames).2.Pairwise
      (fun e e' => e.sta = e'.sta → e.tid = e'.tid → e.pn < e'.pn) ∧
    ∀ pre mid post, frames = pre ++ mid ++ post → ∀ i tid,
      storedPn (pnRun env s pre).1 i tid ≤ storedPn (pnRun env s (pre ++ mid)).1 i tid := by
  have hstart : ∀ s, PnInv s [] := fun s => by simp [PnInv]
  refine ⟨(pnInv_run hok (hstart s)).2.2.1, ?_⟩
  rintro pre mid post rfl i tid
  have hmid := ((pnRunOk_append env pre mid s).mp ((pnRunOk_append env _ post s).mp hok).1).2
  rw [pnRun_append]
  exact (pnInv_run hmid (hstart _)).2.2.2 i tid

/-! ### A station and its access point -/

def apAddr : MacAddr := ⟨0x02, 0, 0, 0, 0, 0x0a⟩
def ourAddr : MacAddr := ⟨0x02, 0, 0, 0, 0, 0x0b⟩

/-- We are a station linked to `apAddr`, with AES for unicast and group frames. -/
def linkedStation : RxEnv where
  adapter :=
    { (default : Adapter) with
      fwState := wifiStationState + wifiAsocState, macAddr := ourAddr, bssid := apAddr }
  stas := ⟨[(apAddr, 1), (bcAddr, 0)], by decide⟩
  dot11AuthAlgrthm := .x8021
  dot11PrivacyAlgrthm := encAes
  dot118021XGrpPrivacy := encAes
  dot118021XPrivacy := fun _ => encAes

/-- A protected data frame to `ra` from the access point, with the CCMP header of packet number
`pn` (below 256) and key id 0. -/
def ccmpFrame (ra : MacAddr) (seqNum : Nat) (pn : UInt8) : RecvFrame where
  id := seqNum
  attrib := { (default : RxPktAttrib) with
    toFrDs := 1, seqNum := seqNum, privacy := 1, encrypt := encAes, bdecrypted := 1 }
  buf := [0x08, 0x42, 0, 0] ++ ra.toBytes ++ apAddr.toBytes ++ apAddr.toBytes ++
    [UInt8.ofNat (16 * seqNum), UInt8.ofNat (seqNum / 16)] ++
    [pn, 0, 0, 0x20, 0, 0, 0, 0] ++ List.replicate 16 0
  rxData := 0
  rxTail := 48

theorem ucast_pn_no_replay_rising :
    PnRunOk linkedStation ReplayState.init [ccmpFrame ourAddr 1 3, ccmpFrame ourAddr 2 9] ∧
    (pnRun linkedStation ReplayState.init
      [ccmpFrame ourAddr 1 3, ccmpFrame ourAddr 2 9]).2.Pairwise
      (fun e e' => e.sta = e'.sta → e.tid = e'.tid → e.pn < e'.pn) := by
  have hok : PnRunOk linkedStation ReplayState.init
      [ccmpFrame ourAddr 1 3, ccmpFrame ourAddr 2 9] := by
    refine ⟨?_, ?_, trivial⟩
    · intro i g hinput
      cases hinput
      decide
    · intro i g hinput
      cases hinput
      decide
  exact ⟨hok, (ucast_pn_no_replay linkedStation ReplayState.init hok).1⟩

/-- **A replay is accepted.**  Packet number 3 after 9, from one station and in one TID: both
frames are accepted, and 3 replaces 9 as the stored number. -/
theorem ucast_pn_replayed :
    (pnRun linkedStation ReplayState.init
        [ccmpFrame ourAddr 1 9, ccmpFrame ourAddr 2 3]).2 = [⟨1, 0, 9⟩, ⟨1, 0, 3⟩] ∧
    ¬ (pnRun linkedStation ReplayState.init
        [ccmpFrame ourAddr 1 9, ccmpFrame ourAddr 2 3]).2.Pairwise
        (fun e e' => e.sta = e'.sta → e.tid = e'.tid → e.pn < e'.pn) ∧
    ¬ storedPn (pnRun linkedStation ReplayState.init [ccmpFrame ourAddr 1 9]).1 1 0
      ≤ storedPn (pnRun linkedStation ReplayState.init
        [ccmpFrame ourAddr 1 9, ccmpFrame ourAddr 2 3]).1 1 0 := by
  decide

/-! ## 3. Group addressed frames -/

/-- A group frame the check looks at: the receive descriptor says AES. -/
structure GroupFrame where
  frame : RecvFrame
  aes : frame.attrib.encrypt = encAes

def GroupFrame.keyId (f : GroupFrame) : Nat := ccmph2Keyid (ccmpHdr f.frame)
def GroupFrame.pn (f : GroupFrame) : Nat := ccmph2Pn (ccmpHdr f.frame)

/-- The group packet numbers after the frames, and the frames that were accepted. -/
def groupRun (a : Adapter) : (Nat → Nat) → List GroupFrame → (Nat → Nat) × List GroupFrame
  | ivSeq, [] => (ivSeq, [])
  | ivSeq, f :: t =>
    match recvBcastPnDecache a f.frame ivSeq with
    | none => groupRun a ivSeq t
    | some ivSeq' => ((groupRun a ivSeq' t).1, f :: (groupRun a ivSeq' t).2)

/-- The packet numbers accepted for a key, in order. -/
def acceptedFor (key : Nat) (fs : List GroupFrame) : List Nat :=
  (fs.filter (fun f => f.keyId = key)).map GroupFrame.pn

/-- The number `recv_bcast_pn_decache` compares with. -/
def groupPn (ivSeq : Nat → Nat) (key : Nat) : Nat := ivSeq key &&& 0x0000ffffffffffff

theorem groupPn_update_self (ivSeq : Nat → Nat) (f : GroupFrame) :
    groupPn (Function.update ivSeq f.keyId f.pn) f.keyId = f.pn := by
  have hlt : f.pn < 2 ^ 48 := ccmph2Pn_lt _
  have hmask : (0x0000ffffffffffff : Nat) = 2 ^ 48 - 1 := by decide
  unfold groupPn
  rw [Function.update_self, hmask, Nat.and_two_pow_sub_one_eq_mod, Nat.mod_eq_of_lt hlt]

theorem groupPn_update_of_ne (ivSeq : Nat → Nat) {f : GroupFrame} {key : Nat}
    (h : f.keyId ≠ key) : groupPn (Function.update ivSeq f.keyId f.pn) key = groupPn ivSeq key := by
  unfold groupPn
  rw [Function.update_of_ne (Ne.symm h)]

/-- **The verdict on one group frame.**  It is refused exactly when a number is stored for its
key and its own is not ahead of that one in the serial order of 48 bits; otherwise its number
is stored, for its key only. -/
theorem recvBcastPnDecache_eq {a : Adapter} (ha : checkFwstate a wifiStationState = true)
    (f : GroupFrame) (ivSeq : Nat → Nat) :
    recvBcastPnDecache a f.frame ivSeq =
      if groupPn ivSeq f.keyId = 0 ∨ Before (2 ^ 48) (groupPn ivSeq f.keyId) f.pn then
        some (Function.update ivSeq f.keyId f.pn)
      else none := by
  rw [if_congr (validPnChk_iff f.pn (groupPn ivSeq f.keyId)).symm rfl rfl]
  unfold recvBcastPnDecache
  simp only [f.aes, not_true, ne_eq, if_false, ha, Bool.not_true, Bool.false_eq_true]
  unfold GroupFrame.keyId GroupFrame.pn groupPn
  cases validPnChk (ccmph2Pn (ccmpHdr f.frame))
    (ivSeq (ccmph2Keyid (ccmpHdr f.frame)) &&& 0x0000ffffffffffff) <;> rfl

theorem groupRun_accept {a : Adapter} (ha : checkFwstate a wifiStationState = true)
    {ivSeq : Nat → Nat} {f : GroupFrame} (t : List GroupFrame)
    (hok : groupPn ivSeq f.keyId = 0 ∨ Before (2 ^ 48) (groupPn ivSeq f.keyId) f.pn) :
    groupRun a ivSeq (f :: t) =
      ((groupRun a (Function.update ivSeq f.keyId f.pn) t).1,
        f :: (groupRun a (Function.update ivSeq f.keyId f.pn) t).2) := by
  simp only [groupRun, recvBcastPnDecache_eq ha, if_pos hok]

/-- The numbers accepted for a key over a run, each with the one stored before it. -/
theorem groupRun_chain {a : Adapter} (ha : checkFwstate a wifiStationState = true) (key : Nat) :
    ∀ (fs : List GroupFrame) (ivSeq : Nat → Nat),
      (groupPn ivSeq key :: acceptedFor key (groupRun a ivSeq fs).2).IsChain
        (fun old new => old = 0 ∨ Before (2 ^ 48) old new)
  | [], _ => List.IsChain.singleton _
  | f :: t, ivSeq => by
    simp only [groupRun, recvBcastPnDecache_eq ha]
    split
    · rename_i hnone
      exact groupRun_chain ha key t ivSeq
    · rename_i ivSeq' hsome
      split at hsome
      · rename_i hok
        cases hsome
        have ih := groupRun_chain ha key t (Function.update ivSeq f.keyId f.pn)
        by_cases hkey : f.keyId = key
        · subst hkey
          rw [groupPn_update_self] at ih
          simp only [acceptedFor, List.filter_cons, decide_true, if_true, List.map_cons]
          exact List.isChain_cons_cons.mpr ⟨hok, ih⟩
        · rw [groupPn_update_of_ne ivSeq hkey] at ih
          simpa [acceptedFor, List.filter_cons, hkey] using ih
      · cases hsome

/-- A group frame with key id 0 and the given first and last byte of its packet number. -/
def groupFrame (seqNum : Nat) (pn0 pn5 : UInt8) : GroupFrame where
  frame :=
    { (ccmpFrame bcAddr seqNum pn0) with
      attrib := { (ccmpFrame bcAddr seqNum pn0).attrib with hdrlen := 24 }
      buf := (ccmpFrame bcAddr seqNum pn0).buf.set 31 pn5 }
  aes := rfl

end Rtl8723bs
