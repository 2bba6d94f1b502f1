/-
# `HalPwrSeqCmdParsing`

The power sequences are arrays of commands, each for some fabs, cuts and interfaces.  The parser goes
through an array up to a matching END; a command that does not match is passed over.  It knows no
length: an array without a matching END is left at its end (`PwrOut.ret` is none then).

A polling command reads until the value shows, and `pollingCount` counts the reads of all polling
commands of a call; it is set to zero once.  So the limit is one for the whole sequence, not one for
each command, and it is tested after a read that succeeded too.

`halPwrSeqCmdParsing_iff` says when TRUE is returned: when the script of the matching commands, which
waits for as long as it takes, is over after 5001 reads (`Lib/PollScript.lean`).
-/
import Rtl8723bs.Lib.PollScript

namespace Rtl8723bs

open PollScript

/-! ## 1. Commands -/

/-- `WLAN_PWR_CFG`. -/
structure WlanPwrCfg where
  offset : UInt16
  cutMsk : UInt8
  fabMsk : BitVec 4
  interfaceMsk : BitVec 4
  base : BitVec 4
  cmd : BitVec 4
  msk : UInt8
  value : UInt8
deriving DecidableEq, Repr

def pwrCmdRead : BitVec 4 := 0x00
def pwrCmdWrite : BitVec 4 := 0x01
def pwrCmdPolling : BitVec 4 := 0x02
def pwrCmdDelay : BitVec 4 := 0x03
def pwrCmdEnd : BitVec 4 := 0x04

def pwrBaseaddrMac : BitVec 4 := 0x00
def pwrBaseaddrSdio : BitVec 4 := 0x03

def pwrIntfSdioMsk : BitVec 4 := 0b0001
def pwrIntfUsbMsk : BitVec 4 := 0b0010
def pwrIntfPciMsk : BitVec 4 := 0b0100
def pwrIntfAllMsk : BitVec 4 := 0b1111
def pwrFabAllMsk : BitVec 4 := 0b1111
def pwrCutTestchipMsk : UInt8 := 0b00000001
def pwrCutAllMsk : UInt8 := 0xFF

/-- `PWRSEQ_DELAY_UNIT`. -/
def pwrseqDelayUs : UInt8 := 0
def pwrseqDelayMs : UInt8 := 1

/-- What the caller says of the chip and the bus. -/
structure PwrVersion where
  cutVersion : UInt8
  fabVersion : UInt8
  interfaceType : UInt8
deriving DecidableEq, Repr

/-- The FAB, the CUT and the interface of a command are matched. -/
def WlanPwrCfg.isMatched (c : WlanPwrCfg) (v : PwrVersion) : Bool :=
  (c.fabMsk.setWidth 8 &&& v.fabVersion.toBitVec ≠ 0) && (c.cutMsk &&& v.cutVersion ≠ 0) &&
    (c.interfaceMsk.setWidth 8 &&& v.interfaceType.toBitVec ≠ 0)

/-- A register: of the SDIO local block, or of the MAC. -/
structure PwrAddr where
  sdio : Bool
  offset : UInt16
deriving DecidableEq, Repr

def WlanPwrCfg.addr (c : WlanPwrCfg) : PwrAddr := ⟨c.base = pwrBaseaddrSdio, c.offset⟩

/-- The microseconds of a delay. -/
def WlanPwrCfg.delay (c : WlanPwrCfg) : Nat :=
  if c.value = pwrseqDelayUs then c.offset.toNat else c.offset.toNat * 1000

/-! ## 2. The parser -/

section Parser
variable {D : Type} (dev : Device PwrAddr D)

def maxPollingCnt : Nat := 5000

/-- What a polling command leaves: whether the value showed in time, `pollingCount`, the device. -/
structure PollOut (D : Type) where
  ok : Bool
  count : Nat
  dev : D

/-- The loop of a polling command. -/
def pollLoop (c : WlanPwrCfg) (count : Nat) (d : D) : PollOut D :=
  let r := dev.read c.addr d
  let bPollingBit := decide (r.1 &&& c.msk = c.value &&& c.msk)
  let d := if bPollingBit then r.2 else dev.wait 10 r.2
  if maxPollingCnt < count then ⟨false, count + 1, d⟩
  else if bPollingBit then ⟨true, count + 1, d⟩
  else pollLoop c (count + 1) d
termination_by maxPollingCnt + 1 - count

/-- What a call leaves: what it returns, none where it leaves the array; `pollingCount`; the
device. -/
structure PwrOut (D : Type) where
  ret : Option Bool
  count : Nat
  dev : D

/-- `HalPwrSeqCmdParsing` from some command on. -/
def parseFrom (v : PwrVersion) : List WlanPwrCfg → Nat → D → PwrOut D
  | [], count, d => ⟨none, count, d⟩
  | c :: cs, count, d =>
    if c.isMatched v then
      if c.cmd = pwrCmdWrite then parseFrom v cs count (dev.modify c.addr c.msk c.value d)
      else if c.cmd = pwrCmdPolling then
        if (pollLoop dev c count d).ok then
          parseFrom v cs (pollLoop dev c count d).count (pollLoop dev c count d).dev
        else ⟨some false, (pollLoop dev c count d).count, (pollLoop dev c count d).dev⟩
      else if c.cmd = pwrCmdDelay then parseFrom v cs count (dev.wait c.delay d)
      else if c.cmd = pwrCmdEnd then ⟨some true, count, d⟩
      else parseFrom v cs count d
    else parseFrom v cs count d

/-- `HalPwrSeqCmdParsing`. -/
def halPwrSeqCmdParsing (v : PwrVersion) (cs : List WlanPwrCfg) (d : D) : PwrOut D :=
  parseFrom dev v cs 0 d

end Parser

/-! ## 3. What a sequence asks for -/

/-- A matching command as a command of a script. -/
def WlanPwrCfg.toCmd (c : WlanPwrCfg) : Option (Cmd PwrAddr) :=
  if c.cmd = pwrCmdWrite then some (.write c.addr c.msk c.value)
  else if c.cmd = pwrCmdPolling then some (.poll c.addr c.msk c.value)
  else if c.cmd = pwrCmdDelay then some (.wait c.delay)
  else none

/-- It ends the sequence. -/
def WlanPwrCfg.ends (c : WlanPwrCfg) (v : PwrVersion) : Bool := c.isMatched v && c.cmd = pwrCmdEnd

/-- The matching commands before the END. -/
def script (v : PwrVersion) (cs : List WlanPwrCfg) : List (Cmd PwrAddr) :=
  ((cs.takeWhile fun c => !c.ends v).filter fun c => c.isMatched v).filterMap WlanPwrCfg.toCmd

/-- There is a matching END. -/
def HasEnd (v : PwrVersion) (cs : List WlanPwrCfg) : Prop := ∃ c ∈ cs, c.ends v = true

instance (v : PwrVersion) (cs : List WlanPwrCfg) : Decidable (HasEnd v cs) :=
  inferInstanceAs (Decidable (∃ c ∈ cs, c.ends v = true))

/-! ## 4. Polls -/

section Proofs
variable {D : Type} {dev : Device PwrAddr D} {v : PwrVersion}

/-- A polling command that is over in time: what is left of a run of the script is a run from there,
with the reads that are still to come. -/
structure PollDone (dev : Device PwrAddr D) (c : WlanPwrCfg) (count : Nat) (d : D)
    (out : PollOut D) : Prop where
  lt : count < out.count
  le : out.count ≤ 5001
  runs : ∀ cs n d', Runs dev 10 (.poll c.addr c.msk c.value :: cs) d n d'
    ↔ ∃ m, count + n = out.count + m ∧ Runs dev 10 cs out.dev m d'

/-- A polling command that is not: every run of the script reads more often. -/
structure PollFailed (dev : Device PwrAddr D) (c : WlanPwrCfg) (count : Nat) (d : D)
    (out : PollOut D) : Prop where
  count_eq : out.count = 5002
  late : ∀ cs n d', Runs dev 10 (.poll c.addr c.msk c.value :: cs) d n d' → 5001 < count + n

theorem pollLoop_succ (c : WlanPwrCfg) {count : Nat} (d : D) (h : count ≤ 5000) :
    pollLoop dev c count d =
      if dev.Shows c.addr c.msk c.value d then ⟨true, count + 1, (dev.read c.addr d).2⟩
      else pollLoop dev c (count + 1) (dev.wait 10 (dev.read c.addr d).2) := by
  rw [pollLoop]
  simp only [maxPollingCnt, if_neg (by omega : ¬ 5000 < count), decide_eq_true_eq]
  by_cases hshow : dev.Shows c.addr c.msk c.value d
  · have hbit : (dev.read c.addr d).1 &&& c.msk = c.value &&& c.msk := hshow
    rw [if_pos hshow, if_pos hbit, if_pos hbit]
  · have hbit : ¬ (dev.read c.addr d).1 &&& c.msk = c.value &&& c.msk := hshow
    rw [if_neg hshow, if_neg hbit, if_neg hbit]

/-- **One polling command.**  It is over in time, or every run of the script reads too often. -/
theorem pollLoop_spec (c : WlanPwrCfg) {count : Nat} (d : D) (hcount : count ≤ 5001) :
    ((pollLoop dev c count d).ok = true ∧ PollDone dev c count d (pollLoop dev c count d)) ∨
      ((pollLoop dev c count d).ok = false ∧
        PollFailed dev c count d (pollLoop dev c count d)) := by
  generalize hleft : 5001 - count = left
  induction left generalizing count d with
  | zero =>
    obtain rfl : count = 5001 := by omega
    have hout : ∃ d', pollLoop dev c 5001 d = ⟨false, 5002, d'⟩ := by
      rw [pollLoop]
      exact ⟨_, if_pos (by decide)⟩
    obtain ⟨d', hout⟩ := hout
    rw [hout]
    refine .inr ⟨rfl, rfl, fun cs n d'' h => ?_⟩
    cases h <;> omega
  | succ left ih =>
    rw [pollLoop_succ c d (by omega)]
    by_cases hshow : dev.Shows c.addr c.msk c.value d
    · rw [if_pos hshow]
      refine .inl ⟨rfl, Nat.lt_succ_self count, Nat.succ_le_of_lt (by omega), fun cs n d' => ?_⟩
      rw [runs_hit_iff hshow]
      refine exists_congr fun m => and_congr_left fun _ => ?_
      simp only
      omega
    · rw [if_neg hshow]
      have hrest := @ih (count + 1) (dev.wait 10 (dev.read c.addr d).2) (by omega) (by omega)
      rcases hrest with ⟨hok, hdone⟩ | ⟨hok, hfailed⟩
      · have hlt := hdone.lt
        refine .inl ⟨hok, by omega, hdone.le, fun cs n d' => ?_⟩
        rw [runs_miss_iff hshow]
        constructor
        · rintro ⟨m, rfl, h⟩
          obtain ⟨k, hk, hrun⟩ := (hdone.runs cs m d').mp h
          exact ⟨k, by omega, hrun⟩
        · rintro ⟨k, hk, hrun⟩
          exact ⟨n - 1, by omega, (hdone.runs cs (n - 1) d').mpr ⟨k, by omega, hrun⟩⟩
      · refine .inr ⟨hok, hfailed.count_eq, fun cs n d' h => ?_⟩
        obtain ⟨m, rfl, hrun⟩ := (runs_miss_iff hshow).mp h
        have hlate := hfailed.late cs m d' hrun
        omega

/-! ## 5. The whole sequence -/

/-- A command that does not match is passed over. -/
theorem parseFrom_skip {c : WlanPwrCfg} (cs : List WlanPwrCfg) (count : Nat) (d : D)
    (h : c.isMatched v = false) : parseFrom dev v (c :: cs) count d = parseFrom dev v cs count d := by
  rw [parseFrom, h, if_neg Bool.false_ne_true]

theorem script_skip {c : WlanPwrCfg} (cs : List WlanPwrCfg) (h : c.isMatched v = false) :
    script v (c :: cs) = script v cs := by
  simp only [script, WlanPwrCfg.ends, h, Bool.false_and, Bool.not_false, List.takeWhile_cons,
    if_true, List.filter_cons, Bool.false_eq_true, if_false]

theorem script_end {c : WlanPwrCfg} (cs : List WlanPwrCfg) (h : c.ends v = true) :
    script v (c :: cs) = [] := by
  simp only [script, h, Bool.not_true, List.takeWhile_cons, Bool.false_eq_true, if_false,
    List.filter_nil, List.filterMap_nil]

theorem script_cons {c : WlanPwrCfg} (cs : List WlanPwrCfg) (hmatched : c.isMatched v = true)
    (hcmd : c.cmd ≠ pwrCmdEnd) : script v (c :: cs) = c.toCmd.toList ++ script v cs := by
  have hends : c.ends v = false := by
    rw [WlanPwrCfg.ends, hmatched, Bool.true_and, decide_eq_false hcmd]
  simp only [script, hends, Bool.not_false, List.takeWhile_cons, if_true, List.filter_cons,
    hmatched, List.filterMap_cons]
  cases c.toCmd with
  | none => rfl
  | some x => rfl

/-- What a call leaves, against the script: its run, or FALSE, and every run reads too often. -/
def Parsed (dev : Device PwrAddr D) (ret : Option Bool) (cs : List (Cmd PwrAddr)) (count : Nat)
    (d : D) (out : PwrOut D) : Prop :=
  (out.ret = ret ∧ out.count ≤ 5001 ∧ ∃ n, out.count = count + n ∧ Runs dev 10 cs d n out.dev) ∨
    (out.ret = some false ∧ out.count = 5002 ∧
      ∀ n d', Runs dev 10 cs d n d' → 5001 < count + n)

/-- A command that polls nothing is the first step of the run. -/
theorem Parsed.step {ret : Option Bool} {cs es : List (Cmd PwrAddr)} {count : Nat} {d e : D}
    {out : PwrOut D} (h : Parsed dev ret es count e out)
    (hruns : ∀ n d', Runs dev 10 cs d n d' ↔ Runs dev 10 es e n d') :
    Parsed dev ret cs count d out := by
  rcases h with ⟨hret, hle, n, hn, hrun⟩ | ⟨hret, hcount, hlate⟩
  · exact .inl ⟨hret, hle, n, hn, (hruns n out.dev).mpr hrun⟩
  · exact .inr ⟨hret, hcount, fun n d' hrun => hlate n d' ((hruns n d').mp hrun)⟩

/-- A polling command that is over in time. -/
theorem Parsed.poll {ret : Option Bool} {c : WlanPwrCfg} {cs : List (Cmd PwrAddr)} {count : Nat}
    {d : D} {polled : PollOut D} {out : PwrOut D} (hdone : PollDone dev c count d polled)
    (h : Parsed dev ret cs polled.count polled.dev out) :
    Parsed dev ret (.poll c.addr c.msk c.value :: cs) count d out := by
  have hlt := hdone.lt
  rcases h with ⟨hret, hle, n, hn, hrun⟩ | ⟨hret, hcount, hlate⟩
  · refine .inl ⟨hret, hle, polled.count + n - count, by omega, ?_⟩
    exact (hdone.runs cs _ out.dev).mpr ⟨n, by omega, hrun⟩
  · refine .inr ⟨hret, hcount, fun n d' hrun => ?_⟩
    obtain ⟨m, hm, hrest⟩ := (hdone.runs cs n d').mp hrun
    have hlate' := hlate m d' hrest
    omega

/-- What a call returns that is not stopped by a polling command. -/
def endRet (v : PwrVersion) (cs : List WlanPwrCfg) : Option Bool :=
  if HasEnd v cs then some true else none

theorem hasEnd_cons {c : WlanPwrCfg} (cs : List WlanPwrCfg) :
    HasEnd v (c :: cs) ↔ c.ends v = true ∨ HasEnd v cs := by
  simp only [HasEnd, List.mem_cons, exists_eq_or_imp]

theorem endRet_cons {c : WlanPwrCfg} (cs : List WlanPwrCfg) (hends : c.ends v = false) :
    endRet v (c :: cs) = endRet v cs := by
  simp only [endRet, hasEnd_cons, hends, Bool.false_eq_true, false_or]

theorem ends_eq_false {c : WlanPwrCfg} (h : c.isMatched v = false ∨ c.cmd ≠ pwrCmdEnd) :
    c.ends v = false := by
  rcases h with h | h
  · rw [WlanPwrCfg.ends, h, Bool.false_and]
  · rw [WlanPwrCfg.ends, decide_eq_false h, Bool.and_false]

/-- **The parser from some command on**, against what is left of the script. -/
theorem parseFrom_spec (cs : List WlanPwrCfg) {count : Nat} (d : D) (hcount : count ≤ 5001) :
    Parsed dev (endRet v cs) (script v cs) count d (parseFrom dev v cs count d) := by
  induction cs generalizing count d with
  | nil =>
    refine .inl ⟨(if_neg ?_).symm, hcount, 0, rfl, .nil d⟩
    rintro ⟨c, hc, -⟩
    exact absurd hc List.not_mem_nil
  | cons c cs ih =>
    by_cases hmatched : c.isMatched v = true
    · by_cases hcmd : c.cmd = pwrCmdEnd
      · have hends : c.ends v = true := by
          rw [WlanPwrCfg.ends, hmatched, decide_eq_true hcmd]
          rfl
        have hparse : parseFrom dev v (c :: cs) count d = ⟨some true, count, d⟩ := by
          rw [parseFrom, if_pos hmatched, if_neg (by rw [hcmd]; decide),
            if_neg (by rw [hcmd]; decide), if_neg (by rw [hcmd]; decide), if_pos hcmd]
        have hret : endRet v (c :: cs) = some true := if_pos ((hasEnd_cons cs).mpr (.inl hends))
        rw [script_end cs hends, hparse, hret]
        exact .inl ⟨rfl, hcount, 0, rfl, .nil d⟩
      · rw [script_cons cs hmatched hcmd, endRet_cons cs (ends_eq_false (.inr hcmd)), parseFrom,
          if_pos hmatched, WlanPwrCfg.toCmd]
        split
        · exact (ih _ hcount).step fun n d' => runs_write_iff
        · split
          · rcases pollLoop_spec c d hcount with ⟨hok, hdone⟩ | ⟨hok, hfailed⟩
            · rw [if_pos hok]
              exact (ih _ hdone.le).poll hdone
            · rw [if_neg (by rw [hok]; exact Bool.false_ne_true)]
              exact .inr ⟨rfl, hfailed.count_eq, fun n d' => hfailed.late _ n d'⟩
          · split
            · exact (ih _ hcount).step fun n d' => runs_wait_iff
            · exact ih _ hcount
    · rw [Bool.not_eq_true] at hmatched
      rw [parseFrom_skip cs count d hmatched, script_skip cs hmatched,
        endRet_cons cs (ends_eq_false (.inl hmatched))]
      exact ih d hcount

/-- **`HalPwrSeqCmdParsing`.**  TRUE is returned where there is a matching END and the script before
it is over after 5001 reads of all its polls together, and the script is then what was done; the
array is left where there is no END and the script is over; and no call reads more than 5002
times. -/
theorem halPwrSeqCmdParsing_iff (dev : Device PwrAddr D) (v : PwrVersion) (cs : List WlanPwrCfg)
    (d : D) :
    (∀ d', (halPwrSeqCmdParsing dev v cs d).ret = some true ∧
          (halPwrSeqCmdParsing dev v cs d).dev = d'
        ↔ HasEnd v cs ∧ ∃ n ≤ 5001, Runs dev 10 (script v cs) d n d') ∧
      ((halPwrSeqCmdParsing dev v cs d).ret = none
        ↔ ¬ HasEnd v cs ∧ ∃ n ≤ 5001, ∃ d', Runs dev 10 (script v cs) d n d') ∧
      (halPwrSeqCmdParsing dev v cs d).count ≤ 5002 := by
  have hspec : Parsed dev (endRet v cs) (script v cs) 0 d (parseFrom dev v cs 0 d) :=
    parseFrom_spec cs d (Nat.zero_le 5001)
  unfold halPwrSeqCmdParsing
  rcases hspec with ⟨hret, hle, n, hn, hrun⟩ | ⟨hret, hcount, hlate⟩
  · rw [Nat.zero_add] at hn
    rw [hret, endRet]
    refine ⟨fun d' => ?_, ?_, by omega⟩
    · constructor
      · rintro ⟨hsome, rfl⟩
        by_cases hend : HasEnd v cs
        · exact ⟨hend, n, by omega, hrun⟩
        · rw [if_neg hend] at hsome
          exact absurd hsome.symm (Option.some_ne_none true)
      · rintro ⟨hend, m, -, hrun'⟩
        exact ⟨if_pos hend, (hrun.unique hrun').2⟩
    · constructor
      · intro hnone
        by_cases hend : HasEnd v cs
        · rw [if_pos hend] at hnone
          exact absurd hnone (Option.some_ne_none true)
        · exact ⟨hend, n, by omega, _, hrun⟩
      · rintro ⟨hend, -⟩
        exact if_neg hend
  · have hlong : ∀ n d', n ≤ 5001 → ¬ Runs dev 10 (script v cs) d n d' := by
      intro n d' hn hrun
      have hlate' := hlate n d' hrun
      omega
    rw [hret]
    refine ⟨fun d' => ?_, ?_, by omega⟩
    · constructor
      · rintro ⟨hsome, -⟩
        exact absurd (Option.some.inj hsome) Bool.false_ne_true
      · rintro ⟨-, n, hn, hrun⟩
        exact absurd hrun (hlong n d' hn)
    · constructor
      · intro hnone
        exact absurd hnone (Option.some_ne_none false)
      · rintro ⟨-, n, hn, d', hrun⟩
        exact absurd hrun (hlong n d' hn)

end Proofs

end Rtl8723bs
