/-
# The power sequences of the 8723B

The transitions and the eleven arrays made of them, as the tables have them.  An array is larger than
what stands in it, and the rest of it is zero, so its last command that can match is the END.

`flow_left_iff` says for which versions the parser stays in an array.  `card_cycle` is about the two
arrays that the driver runs one after the other, card disable and card enable: the second puts every
register that holds what is written where it would be without the first, except two.
-/
import Rtl8723bs.Hal.PwrSeq

namespace Rtl8723bs

open PollScript

/-! ## 1. Transitions -/

def pwrIntfUsbSdioMsk : BitVec 4 := pwrIntfUsbMsk ||| pwrIntfSdioMsk

/-- A row of the tables for all cuts and fabs. -/
def macRow (cmd : BitVec 4) (offset : UInt16) (intf : BitVec 4) (msk value : UInt8) : WlanPwrCfg :=
  ⟨offset, pwrCutAllMsk, pwrFabAllMsk, intf, pwrBaseaddrMac, cmd, msk, value⟩

def macWrite := macRow pwrCmdWrite
def macPolling := macRow pwrCmdPolling
def macDelay := macRow pwrCmdDelay

/-- A row of the tables for the SDIO local block. -/
def sdioRow (cmd : BitVec 4) (offset : UInt16) (intf : BitVec 4) (msk value : UInt8) : WlanPwrCfg :=
  ⟨offset, pwrCutAllMsk, pwrFabAllMsk, intf, pwrBaseaddrSdio, cmd, msk, value⟩

def sdioWrite := sdioRow pwrCmdWrite
def sdioPolling := sdioRow pwrCmdPolling

def transCardemuToAct : List WlanPwrCfg := [
  macWrite 0x0020 pwrIntfUsbSdioMsk 0x01 0x01,
  macWrite 0x0067 pwrIntfUsbSdioMsk 0x10 0x00,
  macDelay 0x0001 pwrIntfUsbSdioMsk 1 pwrseqDelayMs,
  macWrite 0x0000 pwrIntfUsbSdioMsk 0x20 0x00,
  macWrite 0x0005 pwrIntfAllMsk 0x1C 0x00,
  macWrite 0x0075 pwrIntfPciMsk 0x01 0x01,
  macPolling 0x0006 pwrIntfAllMsk 0x02 0x02,
  macWrite 0x0075 pwrIntfPciMsk 0x01 0x00,
  macWrite 0x0006 pwrIntfAllMsk 0x01 0x01,
  macWrite 0x0005 pwrIntfAllMsk 0x80 0x00,
  macWrite 0x0005 pwrIntfAllMsk 0x18 0x00,
  macWrite 0x0005 pwrIntfAllMsk 0x01 0x01,
  macPolling 0x0005 pwrIntfAllMsk 0x01 0x00,
  macWrite 0x0010 pwrIntfAllMsk 0x40 0x40,
  macWrite 0x0049 pwrIntfAllMsk 0x02 0x02,
  macWrite 0x0063 pwrIntfAllMsk 0x02 0x02,
  macWrite 0x0062 pwrIntfAllMsk 0x02 0x00,
  macWrite 0x0058 pwrIntfAllMsk 0x01 0x01,
  macWrite 0x005A pwrIntfAllMsk 0x02 0x02,
  { macWrite 0x0068 pwrIntfAllMsk 0x08 0x08 with cutMsk := pwrCutTestchipMsk },
  macWrite 0x0069 pwrIntfAllMsk 0x40 0x40]

def transActToCardemu : List WlanPwrCfg := [
  macWrite 0x001F pwrIntfAllMsk 0xFF 0x00,
  macWrite 0x0049 pwrIntfAllMsk 0x02 0x00,
  macWrite 0x0006 pwrIntfAllMsk 0x01 0x01,
  macWrite 0x0005 pwrIntfAllMsk 0x02 0x02,
  macPolling 0x0005 pwrIntfAllMsk 0x02 0x00,
  macWrite 0x0010 pwrIntfAllMsk 0x40 0x00,
  macWrite 0x0000 pwrIntfUsbSdioMsk 0x20 0x20,
  macWrite 0x0020 pwrIntfUsbSdioMsk 0x01 0x00]

def transCardemuToSus : List WlanPwrCfg := [
  macWrite 0x0005 pwrIntfPciMsk 0x18 0x18,
  macWrite 0x0005 pwrIntfUsbSdioMsk 0x18 0x08,
  macWrite 0x0023 pwrIntfSdioMsk 0x10 0x10,
  macWrite 0x0007 pwrIntfSdioMsk 0xFF 0x20,
  macWrite 0x0005 pwrIntfPciMsk 0x18 0x18,
  sdioWrite 0x0086 pwrIntfSdioMsk 0x01 0x01,
  sdioPolling 0x0086 pwrIntfSdioMsk 0x02 0x00]

def transSusToCardemu : List WlanPwrCfg := [
  macWrite 0x0005 pwrIntfAllMsk 0x88 0x00,
  sdioWrite 0x0086 pwrIntfSdioMsk 0x01 0x00,
  sdioPolling 0x0086 pwrIntfSdioMsk 0x02 0x02,
  macWrite 0x0023 pwrIntfSdioMsk 0x10 0x00,
  macWrite 0x0005 pwrIntfAllMsk 0x18 0x00]

def transCardemuToCarddis : List WlanPwrCfg := [
  macWrite 0x0007 pwrIntfSdioMsk 0xFF 0x20,
  macWrite 0x0005 pwrIntfUsbSdioMsk 0x18 0x08,
  macWrite 0x0005 pwrIntfPciMsk 0x04 0x04,
  macWrite 0x004A pwrIntfUsbMsk 0x01 0x01,
  macWrite 0x0023 pwrIntfSdioMsk 0x10 0x10,
  sdioWrite 0x0086 pwrIntfSdioMsk 0x01 0x01,
  sdioPolling 0x0086 pwrIntfSdioMsk 0x02 0x00]

def transCarddisToCardemu : List WlanPwrCfg := [
  macWrite 0x0005 pwrIntfAllMsk 0x88 0x00,
  sdioWrite 0x0086 pwrIntfSdioMsk 0x01 0x00,
  sdioPolling 0x0086 pwrIntfSdioMsk 0x02 0x02,
  macWrite 0x004A pwrIntfUsbMsk 0x01 0x00,
  macWrite 0x0005 pwrIntfAllMsk 0x18 0x00,
  macWrite 0x0023 pwrIntfSdioMsk 0x10 0x00,
  macWrite 0x0301 pwrIntfPciMsk 0xFF 0x00]

def transCardemuToPdn : List WlanPwrCfg := [
  macWrite 0x0023 pwrIntfSdioMsk 0x10 0x10,
  macWrite 0x0007 pwrIntfUsbSdioMsk 0xFF 0x20,
  macWrite 0x0006 pwrIntfAllMsk 0x01 0x00,
  macWrite 0x0005 pwrIntfAllMsk 0x80 0x80]

def transActToLps : List WlanPwrCfg := [
  macWrite 0x0301 pwrIntfPciMsk 0xFF 0xFF,
  macWrite 0x0522 pwrIntfAllMsk 0xFF 0xFF,
  macPolling 0x05F8 pwrIntfAllMsk 0xFF 0x00,
  macPolling 0x05F9 pwrIntfAllMsk 0xFF 0x00,
  macPolling 0x05FA pwrIntfAllMsk 0xFF 0x00,
  macPolling 0x05FB pwrIntfAllMsk 0xFF 0x00,
  macWrite 0x0002 pwrIntfAllMsk 0x01 0x00,
  macDelay 0x0002 pwrIntfAllMsk 0 pwrseqDelayUs,
  macWrite 0x0002 pwrIntfAllMsk 0x02 0x00,
  macWrite 0x0100 pwrIntfAllMsk 0xFF 0x03,
  macWrite 0x0101 pwrIntfAllMsk 0x02 0x00,
  macWrite 0x0093 pwrIntfSdioMsk 0xFF 0x00,
  macWrite 0x0553 pwrIntfAllMsk 0x20 0x20]

def transLpsToAct : List WlanPwrCfg := [
  sdioWrite 0x0080 pwrIntfSdioMsk 0xFF 0x84,
  macWrite 0xFE58 pwrIntfUsbMsk 0xFF 0x84,
  macWrite 0x0361 pwrIntfPciMsk 0xFF 0x84,
  macDelay 0x0002 pwrIntfAllMsk 0 pwrseqDelayMs,
  macWrite 0x0008 pwrIntfAllMsk 0x10 0x00,
  macPolling 0x0109 pwrIntfAllMsk 0x80 0x00,
  macWrite 0x0029 pwrIntfAllMsk 0xC0 0x00,
  macWrite 0x0101 pwrIntfAllMsk 0x02 0x02,
  macWrite 0x0100 pwrIntfAllMsk 0xFF 0xFF,
  macWrite 0x0002 pwrIntfAllMsk 0x03 0x03,
  macWrite 0x0522 pwrIntfAllMsk 0xFF 0x00]

def transActToSwlps : List WlanPwrCfg := [
  macWrite 0x0194 pwrIntfSdioMsk 0x01 0x01,
  macWrite 0x0002 pwrIntfSdioMsk 0x01 0x00,
  macWrite 0x0002 pwrIntfSdioMsk 0x01 0x01,
  macWrite 0x0002 pwrIntfSdioMsk 0x01 0x00,
  macWrite 0x0002 pwrIntfSdioMsk 0x01 0x01,
  macWrite 0x0002 pwrIntfSdioMsk 0x01 0x00,
  macWrite 0x0100 pwrIntfSdioMsk 0xFF 0x3F,
  macWrite 0x0101 pwrIntfSdioMsk 0x02 0x00,
  macWrite 0x0093 pwrIntfSdioMsk 0xFF 0x40,
  macWrite 0x0553 pwrIntfSdioMsk 0x20 0x20,
  macWrite 0x0003 pwrIntfSdioMsk 0x04 0x00,
  macWrite 0x0080 pwrIntfSdioMsk 0xFF 0x00,
  macWrite 0x001D pwrIntfSdioMsk 0x01 0x00,
  macWrite 0x001D pwrIntfSdioMsk 0x01 0x01,
  macPolling 0x0287 pwrIntfSdioMsk 0xFF 0x00,
  macPolling 0x0286 pwrIntfSdioMsk 0x02 0x02,
  macWrite 0x013D pwrIntfSdioMsk 0x01 0x01,
  macWrite 0x0139 pwrIntfSdioMsk 0x01 0x01,
  macWrite 0x0008 pwrIntfSdioMsk 0x10 0x10,
  macWrite 0x0109 pwrIntfSdioMsk 0x80 0x80,
  macWrite 0x0090 pwrIntfSdioMsk 0x01 0x01,
  macPolling 0x0090 pwrIntfSdioMsk 0x01 0x00]

def transSwlpsToAct : List WlanPwrCfg := [
  macWrite 0x0008 pwrIntfSdioMsk 0x10 0x00,
  macWrite 0x0109 pwrIntfSdioMsk 0x80 0x00,
  macWrite 0x0101 pwrIntfSdioMsk 0x02 0x02,
  macWrite 0x0100 pwrIntfSdioMsk 0xFF 0xFF,
  macWrite 0x06B7 pwrIntfSdioMsk 0xFF 0x09,
  macWrite 0x06B4 pwrIntfSdioMsk 0xFF 0x86,
  macWrite 0x0080 pwrIntfSdioMsk 0x02 0x02,
  macWrite 0x001D pwrIntfSdioMsk 0x01 0x00,
  macWrite 0x0003 pwrIntfSdioMsk 0x04 0x00,
  macWrite 0x001D pwrIntfSdioMsk 0x01 0x01,
  macWrite 0x0003 pwrIntfSdioMsk 0x04 0x04,
  macPolling 0x0080 pwrIntfSdioMsk 0x80 0x80,
  macPolling 0x0080 pwrIntfSdioMsk 0x40 0x40,
  macWrite 0x0002 pwrIntfSdioMsk 0x01 0x01,
  macWrite 0x0522 pwrIntfSdioMsk 0xFF 0x00]

def transEnd : List WlanPwrCfg := [
  ⟨0xFFFF, pwrCutAllMsk, pwrFabAllMsk, pwrIntfAllMsk, 0, pwrCmdEnd, 0, 0⟩]

/-! ## 2. Arrays -/

/-- What the rest of an array is filled with. -/
def zeroCfg : WlanPwrCfg := ⟨0, 0, 0, 0, 0, 0, 0, 0⟩

/-- An array of so many steps. -/
def flow (steps : Nat) (cs : List WlanPwrCfg) : List WlanPwrCfg :=
  cs ++ transEnd ++ List.replicate (steps + 1 - (cs.length + 1)) zeroCfg

/-- The arrays, by what they are for. -/
inductive PwrFlow where
  | powerOn | radioOff | cardDisable | cardEnable | suspend | resume | hwpdn
  | enterLps | leaveLps | enterSwlps | leaveSwlps
deriving DecidableEq, Repr

/-- `rtl8723B_power_on_flow` and the others, with their numbers of steps. -/
def PwrFlow.cfgs : PwrFlow → List WlanPwrCfg
  | powerOn => flow 26 transCardemuToAct
  | radioOff => flow 15 transActToCardemu
  | cardDisable => flow 30 (transActToCardemu ++ transCardemuToCarddis)
  | cardEnable => flow 30 (transCarddisToCardemu ++ transCardemuToAct)
  | suspend => flow 30 (transActToCardemu ++ transCardemuToSus)
  | resume => flow 30 (transSusToCardemu ++ transCardemuToAct)
  | hwpdn => flow 30 (transActToCardemu ++ transCardemuToPdn)
  | enterLps => flow 15 transActToLps
  | leaveLps => flow 15 transLpsToAct
  | enterSwlps => flow 22 transActToSwlps
  | leaveSwlps => flow 15 transSwlpsToAct

/-! ## 3. Staying in an array -/

/-- Some bit of each of the version's three masks is one the tables know. -/
def PwrVersion.Known (v : PwrVersion) : Prop :=
  v.cutVersion ≠ 0 ∧ v.fabVersion &&& 0x0F ≠ 0 ∧ v.interfaceType &&& 0x0F ≠ 0

instance (v : PwrVersion) : Decidable v.Known :=
  inferInstanceAs (Decidable (_ ∧ _ ∧ _))

/-- What four bits match is matched by four ones. -/
theorem nibble_matched (x : BitVec 4) (y : UInt8) (h : x.setWidth 8 &&& y.toBitVec ≠ 0) :
    y &&& 0x0F ≠ 0 := by
  intro hzero
  apply h
  apply BitVec.eq_of_getLsbD_eq
  intro i hi
  have hbit := congrArg (fun z : UInt8 => z.toBitVec.getLsbD i) hzero
  simp only [UInt8.toBitVec_and, BitVec.getLsbD_and, UInt8.toBitVec_zero, BitVec.getLsbD_zero]
    at hbit
  have hlow : ∀ j < 8, (0x0F : UInt8).toBitVec.getLsbD j = decide (j < 4) := by decide
  rw [hlow i hi] at hbit
  rw [BitVec.getLsbD_and, BitVec.getLsbD_setWidth]
  by_cases hlt : i < 4
  · rw [decide_eq_true hlt, Bool.and_true] at hbit
    rw [hbit, Bool.and_false]
    exact (BitVec.getLsbD_zero).symm
  · rw [BitVec.getLsbD_of_ge x i (by omega), Bool.and_false, Bool.false_and]
    exact (BitVec.getLsbD_zero).symm

theorem known_of_matched {c : WlanPwrCfg} {v : PwrVersion} (h : c.isMatched v = true) :
    v.Known := by
  simp only [WlanPwrCfg.isMatched, Bool.and_eq_true, decide_eq_true_eq] at h
  obtain ⟨⟨hfab, hcut⟩, hintf⟩ := h
  refine ⟨?_, nibble_matched _ _ hfab, nibble_matched _ _ hintf⟩
  rintro hzero
  exact hcut (by rw [hzero, UInt8.and_zero])

/-- Every array has an END for every version that the tables know. -/
theorem hasEnd_flow {v : PwrVersion} (hknown : v.Known) (f : PwrFlow) : HasEnd v f.cfgs := by
  obtain ⟨hcut, hfab, hintf⟩ := hknown
  have hends : (⟨0xFFFF, pwrCutAllMsk, pwrFabAllMsk, pwrIntfAllMsk, 0, pwrCmdEnd, 0, 0⟩ :
      WlanPwrCfg).ends v = true := by
    have hones : ∀ y : UInt8, y &&& 0x0F ≠ 0 → pwrFabAllMsk.setWidth 8 &&& y.toBitVec ≠ 0 := by
      intro y hy hzero
      apply hy
      rw [UInt8.and_comm]
      exact UInt8.eq_of_toBitVec_eq hzero
    have hall : pwrCutAllMsk &&& v.cutVersion ≠ 0 := by
      have heq : pwrCutAllMsk &&& v.cutVersion = v.cutVersion := UInt8.neg_one_and
      rwa [heq]
    simp only [WlanPwrCfg.ends, WlanPwrCfg.isMatched, Bool.and_eq_true, decide_eq_true_eq]
    exact ⟨⟨⟨hones _ hfab, hall⟩, hones _ hintf⟩, trivial⟩
  refine ⟨_, ?_, hends⟩
  cases f <;> simp [PwrFlow.cfgs, flow, transEnd]

/-- Where nothing matches nothing is done. -/
theorem parseFrom_unmatched {D : Type} {dev : Device PwrAddr D} {v : PwrVersion}
    {cs : List WlanPwrCfg} (h : ∀ c ∈ cs, c.isMatched v = false) (count : Nat) (d : D) :
    parseFrom dev v cs count d = ⟨none, count, d⟩ := by
  induction cs with
  | nil => rfl
  | cons c cs ih =>
    rw [parseFrom_skip cs count d (h c List.mem_cons_self)]
    exact ih fun c' hc' => h c' (List.mem_cons_of_mem c hc')

/-- **The parser and the eleven arrays**, for every version, device and state of it.  Where the
version has a bit in each mask it does not leave the array; where it has none nothing is read or
written and the array is left. -/
theorem flow_left_iff {D : Type} (dev : Device PwrAddr D) (v : PwrVersion) (f : PwrFlow) (d : D) :
    (v.Known → (halPwrSeqCmdParsing dev v f.cfgs d).ret ≠ none) ∧
      (¬ v.Known → halPwrSeqCmdParsing dev v f.cfgs d = ⟨none, 0, d⟩) := by
  constructor
  · intro hknown hnone
    exact ((halPwrSeqCmdParsing_iff dev v f.cfgs d).2.1.mp hnone).1 (hasEnd_flow hknown f)
  · intro hunknown
    refine parseFrom_unmatched (fun c _ => ?_) 0 d
    rw [← Bool.not_eq_true]
    exact fun hmatched => hunknown (known_of_matched hmatched)

/-! ## 4. Card disable, card enable -/

section Cycle
variable {D : Type} {dev : Device PwrAddr D} {a : PwrAddr} {reg : D → UInt8}

/-- **What a sequence leaves** in a register that holds what is written. -/
theorem kept_of_true (hkept : Kept dev a reg) {v : PwrVersion} {cs : List WlanPwrCfg} {d : D}
    (h : (halPwrSeqCmdParsing dev v cs d).ret = some true) :
    reg (halPwrSeqCmdParsing dev v cs d).dev = effect a (script v cs) (reg d) := by
  obtain ⟨-, n, -, hrun⟩ := ((halPwrSeqCmdParsing_iff dev v cs d).1 _).mp ⟨h, rfl⟩
  exact hrun.kept hkept

/-- What `CardEnable` and `CardDisableRTL8723BSdio` pass. -/
def sdioVersion : PwrVersion := ⟨pwrCutAllMsk, 0x0F, 0x01⟩

/-- The register of the RF, the one with the options of the suspend mode, and the one with the bit
that turns the MAC off. -/
def rfCtrl : PwrAddr := ⟨false, 0x001F⟩
def sopCtrl : PwrAddr := ⟨false, 0x0007⟩
def apsFsmco : PwrAddr := ⟨false, 0x0005⟩

/-- The registers that a script writes. -/
def writtenAddrs : List (Cmd PwrAddr) → List PwrAddr
  | [] => []
  | .write a _ _ :: cs => a :: writtenAddrs cs
  | .poll _ _ _ :: cs => writtenAddrs cs
  | .wait _ :: cs => writtenAddrs cs

theorem mem_writtenAddrs {cs : List (Cmd PwrAddr)} {mask value : UInt8}
    (h : Cmd.write a mask value ∈ cs) : a ∈ writtenAddrs cs := by
  induction cs with
  | nil => exact absurd h List.not_mem_nil
  | cons c cs ih =>
    rcases List.mem_cons.mp h with rfl | hrest
    · exact List.mem_cons_self
    · cases c with
      | write b _ _ => exact List.mem_cons_of_mem b (ih hrest)
      | poll _ _ _ => exact ih hrest
      | wait _ => exact ih hrest

/-- Card enable writes every bit that card disable writes, but for three registers. -/
theorem card_covered (a : PwrAddr) (hrf : a ≠ rfCtrl) (hsop : a ≠ sopCtrl) (haps : a ≠ apsFsmco) :
    written a (script sdioVersion PwrFlow.cardDisable.cfgs) &&&
      ~~~written a (script sdioVersion PwrFlow.cardEnable.cfgs) = 0 := by
  by_cases hmem : a ∈ writtenAddrs (script sdioVersion PwrFlow.cardDisable.cfgs)
  · have hall : ∀ a ∈ writtenAddrs (script sdioVersion PwrFlow.cardDisable.cfgs),
        a ≠ rfCtrl → a ≠ sopCtrl → a ≠ apsFsmco →
          written a (script sdioVersion PwrFlow.cardDisable.cfgs) &&&
            ~~~written a (script sdioVersion PwrFlow.cardEnable.cfgs) = 0 := by decide
    exact hall a hmem hrf hsop haps
  · rw [written_eq_zero fun mask value hw => hmem (mem_writtenAddrs hw), UInt8.zero_and]

/-- The third register does not hold what is written: card disable sets its bit and waits for it to
be cleared. -/
theorem apsFsmco_not_kept (hkept : Kept dev apsFsmco reg) {d : D}
    (h : (halPwrSeqCmdParsing dev sdioVersion PwrFlow.cardDisable.cfgs d).ret = some true) :
    False := by
  obtain ⟨-, n, -, hrun⟩ := ((halPwrSeqCmdParsing_iff dev _ _ d).1 _).mp ⟨h, rfl⟩
  have hsplit : script sdioVersion PwrFlow.cardDisable.cfgs
      = (script sdioVersion PwrFlow.cardDisable.cfgs).take 4 ++ .poll apsFsmco 0x02 0x00 ::
          (script sdioVersion PwrFlow.cardDisable.cfgs).drop 5 := by decide
  rw [hsplit] at hrun
  have hpolled := hrun.polled hkept
  have hset : lastBit apsFsmco 1 ((script sdioVersion PwrFlow.cardDisable.cfgs).take 4)
      = some true := by decide
  have hbit := getLsbD_effect apsFsmco ((script sdioVersion PwrFlow.cardDisable.cfgs).take 4)
    (by decide : 1 < 8) (reg d)
  rw [hset, Option.getD_some] at hbit
  have hzero := congrArg (fun z : UInt8 => z.toBitVec.getLsbD 1) hpolled
  simp only [UInt8.toBitVec_and, BitVec.getLsbD_and, hbit] at hzero
  exact absurd hzero (by decide)

/-- **Card disable and card enable.**  When both return TRUE, whatever is done in between that leaves
the register alone, a register that holds what is written ends as card enable alone would have left
it; but the RF register was zero before, and the register of the options was 0x20. -/
theorem card_cycle (hkept : Kept dev a reg) (d e : D)
    (hoff : (halPwrSeqCmdParsing dev sdioVersion PwrFlow.cardDisable.cfgs d).ret = some true)
    (hbetween :
      reg e = reg (halPwrSeqCmdParsing dev sdioVersion PwrFlow.cardDisable.cfgs d).dev)
    (hon : (halPwrSeqCmdParsing dev sdioVersion PwrFlow.cardEnable.cfgs e).ret = some true) :
    reg (halPwrSeqCmdParsing dev sdioVersion PwrFlow.cardEnable.cfgs e).dev
      = effect a (script sdioVersion PwrFlow.cardEnable.cfgs)
          (if a = rfCtrl then 0 else if a = sopCtrl then 0x20 else reg d) := by
  rw [kept_of_true hkept hon, hbetween, kept_of_true hkept hoff]
  by_cases hrf : a = rfCtrl
  · have hwritten : effect a (script sdioVersion PwrFlow.cardDisable.cfgs) (reg d)
        = effect a (script sdioVersion PwrFlow.cardDisable.cfgs) 0 := by
      apply effect_eq_of_written
      have hones : ~~~written rfCtrl (script sdioVersion PwrFlow.cardDisable.cfgs) = 0 := by decide
      rw [hrf, hones, UInt8.and_zero, UInt8.and_zero]
    have hzero : effect rfCtrl (script sdioVersion PwrFlow.cardDisable.cfgs) 0 = 0 := by decide
    rw [if_pos hrf, hwritten, hrf, hzero]
  · by_cases hsop : a = sopCtrl
    · have hwritten : effect a (script sdioVersion PwrFlow.cardDisable.cfgs) (reg d)
          = effect a (script sdioVersion PwrFlow.cardDisable.cfgs) 0 := by
        apply effect_eq_of_written
        have hones : ~~~written sopCtrl (script sdioVersion PwrFlow.cardDisable.cfgs) = 0 := by
          decide
        rw [hsop, hones, UInt8.and_zero, UInt8.and_zero]
      have hvalue : effect sopCtrl (script sdioVersion PwrFlow.cardDisable.cfgs) 0 = 0x20 := by
        decide
      rw [if_neg hrf, if_pos hsop, hwritten, hsop, hvalue]
    · rw [if_neg hrf, if_neg hsop]
      refine effect_of_covered (reg d) (card_covered a hrf hsop ?_)
      rintro rfl
      exact apsFsmco_not_kept hkept hoff

end Cycle

/-- The register that puts the regulator to sleep, and the SDIO one that suspends the card. -/
def ldoCtrl : PwrAddr := ⟨false, 0x0023⟩
def sdioSuspend : PwrAddr := ⟨true, 0x0086⟩

/-- A card with these two registers, which is suspended and resumed at once. -/
def quickCard : Device PwrAddr (UInt8 × UInt8) where
  read a d :=
    (if a = ldoCtrl then d.1
      else if a = sdioSuspend then if d.2 &&& 1 = 1 then 0x00 else 0x02
      else if a = ⟨false, 0x0006⟩ then 0x02 else 0x00, d)
  write a x d := if a = ldoCtrl then (x, d.2) else if a = sdioSuspend then (d.1, x) else d
  wait _ d := d

theorem quickCard_kept : Kept quickCard ldoCtrl Prod.fst where
  read _ := rfl
  afterRead _ _ := rfl
  wait _ _ := rfl
  write _ _ := rfl
  other b x d hb := by
    simp only [quickCard, if_neg hb]
    split <;> rfl

theorem card_cycle_of_quickCard :
    (halPwrSeqCmdParsing quickCard sdioVersion PwrFlow.cardEnable.cfgs (0x10, 0x01)).dev.1
      = effect ldoCtrl (script sdioVersion PwrFlow.cardEnable.cfgs) 0x00 :=
  card_cycle quickCard_kept (0x00, 0x00) (0x10, 0x01) (by decide +kernel) (by decide +kernel)
    (by decide +kernel)

end Rtl8723bs
