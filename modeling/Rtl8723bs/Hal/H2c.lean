/-
# Commands to the firmware

`FillH2CCmd8723B` puts a command of eight bytes into one of four boxes of registers: first the four
bytes of the extension, then the four of the command, and it goes to the next box.  REG_HMETFR has a
bit for each box, which tells that the firmware has not read it yet; the call waits for the bit of its
box to be clear, a hundred and one reads at most, and fails otherwise.  A mutex keeps calls apart.

The firmware is not in the source.  What the driver relies on is a chip that sets the bit of a box
when the command is written and clears it when the box is read, at any moment; `may` is what the
firmware allows itself.  The steps of the two are interleaved as they like.

The boxes are those of `Lib/Mailboxes.lean` (`H2cReach.mailboxes`), so no command is lost, torn or
read twice (`h2c_perm`), and firmware that reads the boxes in turn has the commands in the order of
the calls (`h2c_in_order`).
-/
import Rtl8723bs.Hal.Regs
import Rtl8723bs.Lib.Mailboxes

namespace Rtl8723bs

open Mailboxes
open scoped List

/-! ## 1. Registers -/

def maxH2cBoxNums : Nat := 4
def messageBoxSize : Nat := 4
def rtl8723bExMessageBoxSize : Nat := 4
def rtl8723bMaxCmdLen : Nat := 7

def regHmebox0 : Nat := 0x01D0
def regHmeboxExt0 : Nat := 0x01F0

/-! ## 2. Calls -/

/-- The arguments of a call; the buffer may be NULL. -/
structure H2cCmd where
  elementId : UInt8
  cmdLen : Nat
  pCmdBuffer : Option (Nat → UInt8)

/-- The bytes of the array `h2c`. -/
def H2cCmd.h2c (c : H2cCmd) (k : Nat) : UInt8 :=
  if k = 0 then c.elementId
  else if k ≤ c.cmdLen then (c.pCmdBuffer.getD fun _ => 0) (k - 1)
  else 0

/-- The message of a call. -/
def H2cCmd.bytes (c : H2cCmd) : List UInt8 := (List.range 8).map c.h2c

/-- Where the one call that holds the mutex is. -/
inductive H2cPhase where
  | idle
  | polling (c : H2cCmd) (retryCnts : Nat)
  | writeEx (c : H2cCmd)
  | writeCmd (c : H2cCmd)

/-- The driver's and the chip's state, the calls that returned `_SUCCESS` and what the firmware has
read. -/
structure H2cState where
  lastHmeBoxNum : Nat
  phase : H2cPhase
  hmetfr : Nat → Bool
  reg : Nat → UInt8
  succeeded : List H2cCmd
  received : List (List UInt8)

/-- What the firmware finds in a box. -/
def boxBytes (reg : Nat → UInt8) (i : Nat) : List UInt8 :=
  (List.range 4).map (fun k => reg (regHmebox0 + i * messageBoxSize + k)) ++
    (List.range 4).map fun k => reg (regHmeboxExt0 + i * rtl8723bExMessageBoxSize + k)

/-- After the firmware has been started. -/
def H2cState.start (reg : Nat → UInt8) : H2cState := ⟨0, .idle, fun _ => false, reg, [], []⟩

/-- The steps of `FillH2CCmd8723B`, of `_is_fw_read_cmd_down`, and of the firmware. -/
inductive H2cStep (may : Nat → Nat → Prop) : H2cState → H2cState → Prop
  /-- The checks fail, or the card is gone. -/
  | refused {s : H2cState} (c : H2cCmd) (surpriseRemoved : Bool) (hidle : s.phase = .idle)
      (hbad : c.pCmdBuffer = none ∨ rtl8723bMaxCmdLen < c.cmdLen ∨ surpriseRemoved = true) :
      H2cStep may s s
  | call {s : H2cState} (c : H2cCmd) (hidle : s.phase = .idle) (hbuffer : c.pCmdBuffer ≠ none)
      (hlen : c.cmdLen ≤ rtl8723bMaxCmdLen) : H2cStep may s { s with phase := .polling c 100 }
  | readDown {s : H2cState} (c : H2cCmd) (retryCnts : Nat) (hphase : s.phase = .polling c retryCnts)
      (hvalid : s.hmetfr s.lastHmeBoxNum = false) : H2cStep may s { s with phase := .writeEx c }
  | retry {s : H2cState} (c : H2cCmd) (retryCnts : Nat)
      (hphase : s.phase = .polling c (retryCnts + 1))
      (hvalid : s.hmetfr s.lastHmeBoxNum = true) :
      H2cStep may s { s with phase := .polling c retryCnts }
  | failed {s : H2cState} (c : H2cCmd) (hphase : s.phase = .polling c 0)
      (hvalid : s.hmetfr s.lastHmeBoxNum = true) : H2cStep may s { s with phase := .idle }
  | writeEx {s : H2cState} (c : H2cCmd) (hphase : s.phase = .writeEx c) :
      H2cStep may s { s with
        phase := .writeCmd c
        reg := rtwWrite32 s.reg (regHmeboxExt0 + s.lastHmeBoxNum * rtl8723bExMessageBoxSize)
          (le32ToCpu fun k => c.h2c (4 + k)) }
  /-- The chip sets the bit; the call goes to the next box and returns. -/
  | writeCmd {s : H2cState} (c : H2cCmd) (hphase : s.phase = .writeCmd c) :
      H2cStep may s { s with
        phase := .idle
        reg := rtwWrite32 s.reg (regHmebox0 + s.lastHmeBoxNum * messageBoxSize) (le32ToCpu c.h2c)
        hmetfr := Function.update s.hmetfr s.lastHmeBoxNum true
        lastHmeBoxNum := (s.lastHmeBoxNum + 1) % maxH2cBoxNums
        succeeded := s.succeeded ++ [c] }
  | firmware {s : H2cState} (i : Nat) (hi : i < maxH2cBoxNums) (hvalid : s.hmetfr i = true)
      (hmay : may s.received.length i) :
      H2cStep may s { s with
        hmetfr := Function.update s.hmetfr i false
        received := s.received ++ [boxBytes s.reg i] }

inductive H2cReach (may : Nat → Nat → Prop) (reg : Nat → UInt8) : H2cState → Prop
  | start : H2cReach may reg (H2cState.start reg)
  | step {s s' : H2cState} : H2cReach may reg s → H2cStep may s s' → H2cReach may reg s'

/-! ## 3. Boxes -/

/-- Two boxes of registers that agree. -/
theorem boxBytes_congr {reg reg' : Nat → UInt8} {i : Nat}
    (hcmd : ∀ k < 4, reg (regHmebox0 + i * messageBoxSize + k)
      = reg' (regHmebox0 + i * messageBoxSize + k))
    (hext : ∀ k < 4, reg (regHmeboxExt0 + i * rtl8723bExMessageBoxSize + k)
      = reg' (regHmeboxExt0 + i * rtl8723bExMessageBoxSize + k)) :
    boxBytes reg i = boxBytes reg' i := by
  unfold boxBytes
  congr 1
  · exact List.map_congr_left fun k hk => hcmd k (List.mem_range.mp hk)
  · exact List.map_congr_left fun k hk => hext k (List.mem_range.mp hk)

/-- Writing the extension of a box leaves the other boxes alone. -/
theorem boxBytes_writeEx (reg : Nat → UInt8) (w : BitVec 32) {i j : Nat} (hi : i < 4) (hj : j < 4)
    (hne : i ≠ j) :
    boxBytes (rtwWrite32 reg (regHmeboxExt0 + j * rtl8723bExMessageBoxSize) w) i
      = boxBytes reg i := by
  refine boxBytes_congr (fun k hk => rtwWrite32_of_ne _ _ _ ?_) fun k hk =>
    rtwWrite32_of_ne _ _ _ ?_
  · simp only [regHmebox0, regHmeboxExt0, messageBoxSize, rtl8723bExMessageBoxSize]
    omega
  · simp only [regHmeboxExt0, rtl8723bExMessageBoxSize]
    omega

theorem boxBytes_writeCmd (reg : Nat → UInt8) (w : BitVec 32) {i j : Nat} (hi : i < 4) (hj : j < 4)
    (hne : i ≠ j) :
    boxBytes (rtwWrite32 reg (regHmebox0 + j * messageBoxSize) w) i = boxBytes reg i := by
  refine boxBytes_congr (fun k hk => rtwWrite32_of_ne _ _ _ ?_) fun k hk =>
    rtwWrite32_of_ne _ _ _ ?_
  · simp only [regHmebox0, messageBoxSize]
    omega
  · simp only [regHmebox0, regHmeboxExt0, messageBoxSize, rtl8723bExMessageBoxSize]
    omega

/-- The extension of a box has been written. -/
def ExtWritten (reg : Nat → UInt8) (i : Nat) (c : H2cCmd) : Prop :=
  ∀ k < 4, reg (regHmeboxExt0 + i * rtl8723bExMessageBoxSize + k) = c.h2c (4 + k)

theorem extWritten_writeEx (reg : Nat → UInt8) (i : Nat) (c : H2cCmd) :
    ExtWritten (rtwWrite32 reg (regHmeboxExt0 + i * rtl8723bExMessageBoxSize)
      (le32ToCpu fun k => c.h2c (4 + k))) i c :=
  fun _ hk => rtwWrite32_at reg _ (fun k => c.h2c (4 + k)) hk

/-- The command completes the message. -/
theorem boxBytes_complete {reg : Nat → UInt8} {i : Nat} {c : H2cCmd}
    (hext : ExtWritten reg i c) :
    boxBytes (rtwWrite32 reg (regHmebox0 + i * messageBoxSize) (le32ToCpu c.h2c)) i = c.bytes := by
  have hcmd : (List.range 4).map (fun k => rtwWrite32 reg (regHmebox0 + i * messageBoxSize)
      (le32ToCpu c.h2c) (regHmebox0 + i * messageBoxSize + k)) = (List.range 4).map c.h2c :=
    List.map_congr_left fun k hk => rtwWrite32_at reg _ c.h2c (List.mem_range.mp hk)
  have hrest : (List.range 4).map (fun k => rtwWrite32 reg (regHmebox0 + i * messageBoxSize)
      (le32ToCpu c.h2c) (regHmeboxExt0 + i * rtl8723bExMessageBoxSize + k))
        = (List.range 4).map fun k => c.h2c (4 + k) := by
    refine List.map_congr_left fun k hk => ?_
    rw [rtwWrite32_of_ne]
    · exact hext k (List.mem_range.mp hk)
    · simp only [regHmebox0, regHmeboxExt0, messageBoxSize, rtl8723bExMessageBoxSize]
      omega
  rw [boxBytes, hcmd, hrest]
  rfl

/-! ## 4. The boxes are mailboxes -/

/-- What holds of the call in its phase. -/
def H2cPhaseOk (s : H2cState) : H2cPhase → Prop
  | .idle => True
  | .polling _ _ => True
  | .writeEx _ => s.hmetfr s.lastHmeBoxNum = false
  | .writeCmd c => s.hmetfr s.lastHmeBoxNum = false ∧ ExtWritten s.reg s.lastHmeBoxNum c

/-- Mailboxes that the driver's registers show; what stands in an empty box does not matter. -/
structure H2cShows (a : State (List UInt8)) (s : H2cState) : Prop where
  next : a.next = s.lastHmeBoxNum
  full : a.full = s.hmetfr
  taken : a.taken = s.received
  put : a.put = s.succeeded.map H2cCmd.bytes
  box : ∀ i < 4, s.hmetfr i = true → a.box i = boxBytes s.reg i
  phase : H2cPhaseOk s s.phase

theorem H2cStep.mailboxes {may : Nat → Nat → Prop} {s s' : H2cState} (h : H2cStep may s s')
    {a : State (List UInt8)} (hshows : H2cShows a s) (hlast : s.lastHmeBoxNum < 4) :
    H2cShows a s' ∨ ∃ a', Step 4 may a a' ∧ H2cShows a' s' := by
  have hbusy : ∀ i, s.hmetfr s.lastHmeBoxNum = false → s.hmetfr i = true →
      i ≠ s.lastHmeBoxNum := by
    rintro i hclear hset rfl
    rw [hclear] at hset
    exact Bool.false_ne_true hset
  have hphase := hshows.phase
  cases h with
  | refused c surpriseRemoved hidle hbad => exact .inl hshows
  | call c hidle hbuffer hlen => exact .inl { hshows with phase := trivial }
  | readDown c retryCnts hpolling hvalid => exact .inl { hshows with phase := hvalid }
  | retry c retryCnts hpolling hvalid => exact .inl { hshows with phase := trivial }
  | failed c hpolling hvalid => exact .inl { hshows with phase := trivial }
  | writeEx c hwrite =>
    rw [hwrite] at hphase
    refine .inl { hshows with box := fun i hi hset => ?_, phase := ⟨hphase, ?_⟩ }
    · rw [hshows.box i hi hset, boxBytes_writeEx s.reg _ hi hlast (hbusy i hphase hset)]
    · exact extWritten_writeEx s.reg s.lastHmeBoxNum c
  | writeCmd c hwrite =>
    rw [hwrite] at hphase
    obtain ⟨hclear, hext⟩ := hphase
    have hput : Step 4 may a _ := .put c.bytes (by rw [hshows.next, hshows.full, hclear])
    refine .inr ⟨_, hput, ?_, ?_, hshows.taken, ?_, fun i hi hset => ?_, trivial⟩
    · simp only [hshows.next, maxH2cBoxNums]
    · simp only [hshows.next, hshows.full]
    · simp only [hshows.put, List.map_append, List.map_cons, List.map_nil]
    · simp only [hshows.next]
      by_cases heq : i = s.lastHmeBoxNum
      · rw [heq, Function.update_self, boxBytes_complete hext]
      · simp only [Function.update_of_ne heq] at hset ⊢
        rw [hshows.box i hi hset, boxBytes_writeCmd s.reg _ hi hlast heq]
  | firmware i hi hvalid hmay =>
    have htake : Step 4 may a _ := .take i hi (by rw [hshows.full, hvalid])
      (by rwa [hshows.taken])
    refine .inr ⟨_, htake, hshows.next, ?_, ?_, hshows.put, fun j hj hset => ?_, ?_⟩
    · simp only [hshows.full]
    · simp only [hshows.taken, hshows.box i hi hvalid]
    · by_cases heq : j = i
      · rw [heq] at hset
        simp only [Function.update_self] at hset
        exact absurd hset Bool.false_ne_true
      · simp only [Function.update_of_ne heq] at hset
        exact hshows.box j hj hset
    · have hclear : ∀ j, s.hmetfr j = false → Function.update s.hmetfr i false j = false := by
        intro j hj
        by_cases heq : j = i
        · rw [heq, Function.update_self]
        · rw [Function.update_of_ne heq, hj]
      cases hp : s.phase with
      | idle => trivial
      | polling c retryCnts => trivial
      | writeEx c =>
        rw [hp] at hphase
        exact hclear _ hphase
      | writeCmd c =>
        rw [hp] at hphase
        exact ⟨hclear _ hphase.1, hphase.2⟩

/-- **Every state of the driver and the firmware shows a state of the mailboxes.** -/
theorem H2cReach.mailboxes {may : Nat → Nat → Prop} {reg : Nat → UInt8} {s : H2cState}
    (h : H2cReach may reg s) :
    ∃ a, Reach 4 may (boxBytes reg) a ∧ H2cShows a s := by
  induction h with
  | start =>
    refine ⟨_, .start, rfl, rfl, rfl, rfl, fun i _ hset => ?_, trivial⟩
    exact absurd hset Bool.false_ne_true
  | step _ hstep ih =>
    obtain ⟨a, hreach, hshows⟩ := ih
    have hlast := (hreach.perm (by decide)).1
    rw [hshows.next] at hlast
    rcases hstep.mailboxes hshows hlast with hsame | ⟨a', hstep', hshows'⟩
    · exact ⟨a, hreach, hsame⟩
    · exact ⟨a', hreach.step hstep', hshows'⟩

/-- What stands in the boxes and is not read yet. -/
def H2cState.waiting (s : H2cState) : List (List UInt8) :=
  ((List.range maxH2cBoxNums).filter s.hmetfr).map (boxBytes s.reg)

/-- **No command is lost, torn or read twice.**  In every state that calls and firmware can reach in
any interleaving, what the firmware has read and what stands in the boxes are the messages of the
calls that returned `_SUCCESS`. -/
theorem h2c_perm {may : Nat → Nat → Prop} {reg : Nat → UInt8} {s : H2cState}
    (h : H2cReach may reg s) : (s.received ++ s.waiting) ~ s.succeeded.map H2cCmd.bytes := by
  obtain ⟨a, hreach, hshows⟩ := h.mailboxes
  have hperm := (hreach.perm (by decide)).2
  rw [hshows.taken, hshows.put] at hperm
  have hheld : a.held 4 = s.waiting := by
    unfold State.held State.waiting H2cState.waiting
    rw [hshows.full]
    refine List.map_congr_left fun i hi => ?_
    rw [List.mem_filter, List.mem_range] at hi
    exact hshows.box i hi.1 hi.2
  rwa [hheld] at hperm

/-- A command of three bytes, written, and read by the firmware. -/
def rsvdPageCmd : H2cCmd := ⟨0x00, 3, some fun k => UInt8.ofNat (k + 1)⟩

theorem reach_one {may : Nat → Nat → Prop} (hmay : may 0 0) :
    ∃ s, H2cReach may (fun _ => 0) s ∧ s.succeeded = [rsvdPageCmd] ∧ s.received.length = 1 := by
  have hstart : H2cReach may (fun _ => 0) (.start fun _ => 0) := .start
  have hcall := hstart.step (.call rsvdPageCmd rfl (Option.some_ne_none _) (by decide))
  have hread := hcall.step (.readDown rsvdPageCmd 100 rfl rfl)
  have hext := hread.step (.writeEx rsvdPageCmd rfl)
  have hcmd := hext.step (.writeCmd rsvdPageCmd rfl)
  exact ⟨_, hcmd.step (.firmware 0 (by decide) rfl hmay), rfl, rfl⟩

theorem h2c_perm_of_one : ∃ s : H2cState, s.succeeded = [rsvdPageCmd] ∧ s.received.length = 1 ∧
    (s.received ++ s.waiting) ~ s.succeeded.map H2cCmd.bytes := by
  obtain ⟨s, hreach, hsucceeded, hreceived⟩ := @reach_one (fun _ _ => True) trivial
  exact ⟨s, hsucceeded, hreceived, h2c_perm hreach⟩

/-- **Firmware that reads the boxes in turn** has the commands in the order of the calls, and is four
commands behind at most. -/
theorem h2c_in_order {reg : Nat → UInt8} {s : H2cState} (h : H2cReach (inTurn 4) reg s) :
    s.received <+: s.succeeded.map H2cCmd.bytes ∧
      s.succeeded.length ≤ s.received.length + 4 := by
  obtain ⟨a, hreach, hshows⟩ := h.mailboxes
  have hin := hreach.inTurn (by decide)
  have hahead := hin.taken_prefix
  have hnear := hin.near
  rw [hshows.taken, hshows.put] at hahead hnear
  rw [List.length_map] at hnear
  exact ⟨hahead, hnear⟩

theorem h2c_in_order_of_one : ∃ s : H2cState, s.succeeded = [rsvdPageCmd] ∧ s.received.length = 1 ∧
    s.received <+: s.succeeded.map H2cCmd.bytes ∧ s.succeeded.length ≤ s.received.length + 4 := by
  obtain ⟨s, hreach, hsucceeded, hreceived⟩ := @reach_one (inTurn 4) rfl
  exact ⟨s, hsucceeded, hreceived, h2c_in_order hreach⟩

end Rtl8723bs
