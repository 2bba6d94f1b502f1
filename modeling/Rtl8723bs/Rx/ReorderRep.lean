/-
# What the reordering queue looks like

Between two calls the frames of `pending_recvframe_queue` are in serial order, each number once, and
all of them lie in the window, ahead of the number waited for.  That holds along every run of
`recv_indicatepkt_reorder` and of the timer, whatever the frames are and whether or not the adapter
can run; the insertion, which stops at the first number that is not less, relies on it.

`ReorderRun` follows what goes up; here it is the queue alone, so the history of the buffer it
refines is forgotten after each call.
-/
import Mathlib.Data.List.Perm.Subperm
import Mathlib.Data.List.Range
import Mathlib.Tactic.SplitIfs
import Rtl8723bs.Rx.ReorderRun

namespace Rtl8723bs

open Serial ReorderBuffer

/-! ## 1. Runs of calls -/

/-- A call on the controller: a frame with a sequence number of twelve bits, or the timer; the state
of the adapter is that of the moment. -/
inductive ReorderCall where
  | arrival (a : Adapter) (f : RecvFrame) (seq12 : f.attrib.seqNum < 4096)
  | timeout (a : Adapter)

namespace RecvReorderCtrl

def call (ctrl : RecvReorderCtrl) : ReorderCall → RecvReorderCtrl
  | .arrival a f _ => (recvIndicatepktReorder a ctrl f).ctrl
  | .timeout a => (rtwReorderingCtrlTimeoutHandler a ctrl).2

def calls (ctrl : RecvReorderCtrl) (cs : List ReorderCall) : RecvReorderCtrl := cs.foldl call ctrl

/-- A session before its first frame. -/
def fresh (wsizeB : Nat) : RecvReorderCtrl where
  enable := true
  indicateSeq := 0xFFFF
  wsizeB := wsizeB
  pendingRecvframeQueue := []
  bReorderWaiting := false
  timerSet := false

/-- **The representation of the queue.** -/
structure Represents (ctrl : RecvReorderCtrl) : Prop where
  ascending : ctrl.pendingRecvframeQueue.Pairwise
    fun f g => snLess f.attrib.seqNum g.attrib.seqNum = true
  distinct : (ctrl.pendingRecvframeQueue.map (·.attrib.seqNum)).Nodup
  window : ∀ f ∈ ctrl.pendingRecvframeQueue,
    0 < ((f.attrib.seqNum : Int) - ctrl.indicateSeq) % 4096 ∧
      ((f.attrib.seqNum : Int) - ctrl.indicateSeq) % 4096 < ctrl.wsizeB
  few : ctrl.pendingRecvframeQueue.length ≤ ctrl.wsizeB - 1
  start : ctrl.indicateSeq = 0xFFFF ∨ ctrl.indicateSeq ≤ 0xFFF

/-! ## 2. The invariant -/

/-- **The invariant**: the controller refines a buffer that is in order, or has seen nothing. -/
structure Ordered (w : Nat) (ctrl : RecvReorderCtrl) : Prop where
  buffer : (∃ b, Good w 2048 [] b ∧ Refines ctrl b) ∨
    (ctrl.indicateSeq = 0xFFFF ∧ ctrl.pendingRecvframeQueue = [])
  wsize : ctrl.wsizeB = w
  enable : ctrl.enable = true

variable {ctrl : RecvReorderCtrl} {w : Nat} {b : Buffer RecvFrame}

theorem ordered_fresh : Ordered w (fresh w) := ⟨.inr ⟨rfl, rfl⟩, rfl, rfl⟩

/-- With reordering enabled a frame changes nothing or goes to the queue. -/
theorem recvIndicatepktReorder_queue (a : Adapter) (henable : ctrl.enable = true) (f : RecvFrame) :
    (recvIndicatepktReorder a ctrl f).ctrl = ctrl ∨
      ∃ g, SameFrame f g ∧ recvIndicatepktReorder a ctrl f = reorderLocked a ctrl g := by
  unfold recvIndicatepktReorder
  by_cases h0 : f.attrib.amsdu = 0
  · rw [if_pos h0]
    cases hconv : wlanhdrToEthhdr a f with
    | none => exact .inl rfl
    | some g =>
      dsimp only
      rw [henable]
      split_ifs with hqos hrun hno
      · exact .inl rfl
      · exact .inl rfl
      · exact absurd hno (by decide)
      · exact .inr ⟨g, wlanhdrToEthhdr_same hconv, rfl⟩
  · rw [if_neg h0, if_neg (by rw [henable]; rintro ⟨-, h⟩; exact absurd h (by decide))]
    exact .inr ⟨f, SameFrame.refl f, rfl⟩

/-- A frame that reaches the queue leaves it in order. -/
theorem Ordered.locked (h : Ordered w ctrl) (hpos : 1 ≤ w) (hw : w ≤ 64) (a : Adapter)
    {g : RecvFrame} (hseq : g.attrib.seqNum < 4096) : Ordered w (reorderLocked a ctrl g).ctrl := by
  have hrefined : ∀ {c : RecvReorderCtrl} {b : Buffer RecvFrame}, c.wsizeB = w → c.enable = true →
      Good w 2048 [] b → Refines c b → Ordered w (reorderLocked a c g).ctrl := by
    intro c b hws hen hgood href
    rw [← hws] at hgood hpos hw
    rcases reorderLocked_refines (a := a) c hgood href hpos hw hseq with
      ⟨hfail, -⟩ | ⟨n, taken, b', hge, hlt, -, harr, -, -, href', hws', hen'⟩
    · rw [hfail]
      exact ⟨.inl ⟨b, hws ▸ hgood, href⟩, hws, hen⟩
    · have hgood' := (arrive_good hgood hpos (by omega) hge hlt harr).forget
      exact ⟨.inl ⟨b', hws ▸ hgood', href'⟩, hws'.trans hws, hen'.trans hen⟩
  rcases h.buffer with ⟨b, hgood, href⟩ | ⟨hinit, hempty⟩
  · exact hrefined h.wsize h.enable hgood href
  · -- the first frame: the window starts at its number
    rw [reorderLocked_init hinit hseq (by rw [h.wsize]; exact hpos) (by rw [h.wsize]; exact hw)]
    exact hrefined h.wsize h.enable (good_start w 2048 g.attrib.seqNum)
      ⟨hempty, by simp, (Nat.mod_eq_of_lt hseq).symm⟩

theorem Ordered.timeout (h : Ordered w ctrl) (hw : w ≤ 64) (a : Adapter) :
    Ordered w (rtwReorderingCtrlTimeoutHandler a ctrl).2 := by
  unfold rtwReorderingCtrlTimeoutHandler
  split_ifs with hrun
  · exact ⟨h.buffer.imp (fun ⟨b, hgood, href⟩ => ⟨b, hgood, href.queue, href.seq, href.start⟩) id,
      h.wsize, h.enable⟩
  · rcases h.buffer with ⟨b, hgood, href⟩ | ⟨hinit, hempty⟩
    · have hwin : ∀ x ∈ b.pending, b.next < x.1 ∧ x.1 < b.next + w :=
        fun x hx => ⟨hgood.beyond x hx, hgood.window x hx⟩
      obtain ⟨bPktInBuf, ctrl', hforced, href', hws, hen⟩ := recvIndicatepktsInOrder_forced
        (a := a) { ctrl with bReorderWaiting := false, timerSet := false }
        ⟨href.queue, href.seq, href.start⟩ hgood.sorted hwin (by omega)
      have hgood' := (force_good hgood).forget
      rw [hforced]
      cases bPktInBuf with
      | false => exact ⟨.inl ⟨_, hgood', href'⟩, hws.trans h.wsize, hen.trans h.enable⟩
      | true =>
        exact ⟨.inl ⟨_, hgood', href'.queue, href'.seq, href'.start⟩, hws.trans h.wsize,
          hen.trans h.enable⟩
    · have hforced : recvIndicatepktsInOrder a
          { ctrl with bReorderWaiting := false, timerSet := false } true
          = (true, [], { ctrl with bReorderWaiting := false, timerSet := false }) := by
        unfold recvIndicatepktsInOrder
        simp only [hempty]
      rw [hforced]
      exact ⟨.inr ⟨hinit, hempty⟩, h.wsize, h.enable⟩

/-- **A call keeps the invariant.** -/
theorem Ordered.call (h : Ordered w ctrl) (hpos : 1 ≤ w) (hw : w ≤ 64) :
    ∀ c : ReorderCall, Ordered w (ctrl.call c)
  | .arrival a f seq12 => by
    change Ordered w (recvIndicatepktReorder a ctrl f).ctrl
    rcases recvIndicatepktReorder_queue a h.enable f with hsame | ⟨g, hsame, hlocked⟩
    · rw [hsame]
      exact h
    · have hseq : g.attrib.seqNum < 4096 := by
        rw [hsame.2]
        exact seq12
      rw [hlocked]
      exact h.locked hpos hw a hseq
  | .timeout a => h.timeout hw a

theorem Ordered.calls (hpos : 1 ≤ w) (hw : w ≤ 64) : ∀ {cs : List ReorderCall}
    {ctrl : RecvReorderCtrl}, Ordered w ctrl → Ordered w (ctrl.calls cs)
  | [], _, h => h
  | c :: cs, ctrl, h => @Ordered.calls hpos hw cs (ctrl.call c) (h.call hpos hw c)

/-! ## 3. What the invariant says of the queue -/

/-- Increasing positions in a window of size `w` are fewer than `w`. -/
theorem length_lt_window {l : List (Nat × RecvFrame)} {n : Nat} (hpos : 1 ≤ w)
    (hs : l.Pairwise (·.1 < ·.1)) (hwin : ∀ x ∈ l, n < x.1 ∧ x.1 < n + w) : l.length ≤ w - 1 := by
  have hnodup : (l.map Prod.fst).Nodup :=
    List.pairwise_map.mpr (hs.imp fun hlt => Nat.ne_of_lt hlt)
  have hsub : l.map Prod.fst ⊆ List.range' (n + 1) (w - 1) := by
    intro p hp
    obtain ⟨x, hx, rfl⟩ := List.mem_map.mp hp
    have hx := hwin x hx
    exact List.mem_range'_1.mpr (by omega)
  have hle := (List.subperm_of_subset hnodup hsub).length_le
  rwa [List.length_map, List.length_range'] at hle

theorem Ordered.represents (h : Ordered w ctrl) (hpos : 1 ≤ w) (hw : w ≤ 64) : ctrl.Represents := by
  rcases h.buffer with ⟨b, hgood, href⟩ | ⟨hinit, hempty⟩
  · have hwin : ∀ x ∈ b.pending, b.next < x.1 ∧ x.1 < b.next + w :=
      fun x hx => ⟨hgood.beyond x hx, hgood.window x hx⟩
    have hless : b.pending.Pairwise fun x y =>
        snLess x.2.attrib.seqNum y.2.attrib.seqNum = true ∧
          x.2.attrib.seqNum ≠ y.2.attrib.seqNum := by
      refine hgood.sorted.imp_of_mem ?_
      intro x y hx hy hlt
      have hxw := hwin x hx
      have hyw := hwin y hy
      rw [href.seq x hx, href.seq y hy, snLess_pos (by omega) (by omega)]
      exact ⟨decide_eq_true hlt, by omega⟩
    refine ⟨?_, ?_, ?_, ?_, .inr ?_⟩
    · rw [href.queue, List.pairwise_map]
      exact hless.imp fun hxy => hxy.1
    · rw [href.queue, List.map_map, List.Nodup, List.pairwise_map]
      exact hless.imp fun hxy => hxy.2
    · intro f hf
      rw [href.queue] at hf
      obtain ⟨x, hx, rfl⟩ := List.mem_map.mp hf
      have hxw := hwin x hx
      rw [href.seq x hx, href.start, h.wsize]
      omega
    · rw [href.queue, List.length_map, h.wsize]
      exact length_lt_window hpos hgood.sorted hwin
    · rw [href.start]
      omega
  · refine ⟨?_, ?_, ?_, ?_, .inl hinit⟩ <;> rw [hempty]
    · exact List.Pairwise.nil
    · exact List.nodup_nil
    · exact fun f hf => absurd hf List.not_mem_nil
    · exact Nat.zero_le _

end RecvReorderCtrl

/-- **The queue is represented in every reachable state**: after any calls, from a session that has
seen nothing, with any window of 1 to 64 frames. -/
theorem reorder_represented {w : Nat} (hpos : 1 ≤ w) (hw : w ≤ 64) (cs : List ReorderCall) :
    ((RecvReorderCtrl.fresh w).calls cs).Represents :=
  (RecvReorderCtrl.Ordered.calls hpos hw RecvReorderCtrl.ordered_fresh).represents hpos hw

/-- Numbers 4094 and, over the wrap, 1 and 0. -/
def wrapCalls : List ReorderCall :=
  [.arrival runningAdapter (qosFrame 0 4094) (by decide),
    .arrival runningAdapter (qosFrame 1 1) (by decide),
    .arrival runningAdapter (qosFrame 2 0) (by decide)]

theorem reorder_represented_wrap : (((RecvReorderCtrl.fresh 64).calls wrapCalls).Represents) ∧
    ((RecvReorderCtrl.fresh 64).calls wrapCalls).pendingRecvframeQueue.length = 2 :=
  ⟨reorder_represented (by decide) (by decide) wrapCalls, by decide⟩

end Rtl8723bs
