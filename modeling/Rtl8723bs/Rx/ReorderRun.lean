/-
# Reordering is in order, once, and loses nothing

The window arithmetic of `check_indicate_seq`, the sorted insertion and the indication loop
work on twelve bits; they refine the reorder buffer on an unwrapped counter, `ReorderBuffer`,
as long as everything held back is within half a ring of the position waited for
(`reorderLocked_refines`, `recvIndicatepktsInOrder_refines`).  What the buffer guarantees over
a history carries over to every run of arrivals and timer expiries (`ReorderRun.inv_run`).
-/
import Rtl8723bs.Lib.Serial
import Rtl8723bs.Lib.ReorderBuffer
import Rtl8723bs.Rx.Reorder

namespace Rtl8723bs

open Serial ReorderBuffer

/-! ## 1. Twelve-bit comparisons on positions -/

/-- `SN_LESS` is the serial order of 4096 numbers. -/
theorem snLess_iff (a b : Nat) : snLess a b = true ↔ Before 4096 a b := by
  have hbit : (0x800#32) = BitVec.twoPow 32 11 := by decide
  unfold snLess
  rw [decide_eq_true_iff, hbit]
  exact sub_bit_iff_before (by omega)

/-- On positions less than half a ring apart `SN_LESS` is `<`. -/
theorem snLess_pos {p q : Nat} (hpq : p < q + 2048) (hqp : q ≤ p + 2048) :
    snLess (p % 4096) (q % 4096) = decide (p < q) := by
  rw [Bool.eq_iff_iff, snLess_iff, decide_eq_true_iff]
  exact before_of_pos hpq hqp

/-- ...and equality of the numbers is equality of the positions. -/
theorem seq_eq_iff_pos {p q : Nat} (hpq : p < q + 2048) (hqp : q ≤ p + 2048) :
    p % 4096 = q % 4096 ↔ p = q := by
  omega

/-- The position of sequence number `seq`, seen from the position waited for. -/
def posOf (next seq : Nat) : Nat := next + ahead 4096 (next % 4096) seq

theorem posOf_mod (next : Nat) {seq : Nat} (hseq : seq < 4096) : posOf next seq % 4096 = seq := by
  have h := add_ahead (M := 4096) (by omega) (next % 4096) seq
  rw [Nat.mod_add_mod, Nat.mod_eq_of_lt hseq] at h
  exact h

/-- Exactly the numbers less than half a ring ahead are not behind the window. -/
theorem snLess_posOf (next : Nat) {seq : Nat} (hseq : seq < 4096) :
    snLess seq (next % 4096) = false ↔ posOf next seq < next + 2048 := by
  have hlt := ahead_lt (M := 4096) (by omega) (next % 4096) seq
  have hmod := posOf_mod next hseq
  unfold posOf at hmod ⊢
  generalize ahead 4096 (next % 4096) seq = d at hlt hmod ⊢
  rw [Bool.eq_false_iff, ne_eq, snLess_iff]
  by_cases hd : d < 2048
  · have hb := before_of_pos (M := 4096) (p := next + d) (q := next) (by omega) (by omega)
    rw [hmod] at hb
    rw [hb]
    omega
  · -- seen from the other side, the number is `4096 - d` behind
    have hb := before_of_pos (M := 4096) (p := next + d) (q := next + 4096) (by omega) (by omega)
    rw [hmod, Nat.add_mod_right] at hb
    rw [hb]
    omega

/-- The numbers of an increasing history are in serial order. -/
theorem chain_of_positions {out : List (Nat × RecvFrame)}
    (hchain : out.IsChain (Step 2048))
    (hseq : ∀ x ∈ out, x.2.attrib.seqNum = x.1 % 4096) :
    ((out.map Prod.snd).map (·.attrib.seqNum)).IsChain (Before 4096) := by
  have hseqs : (out.map Prod.snd).map (·.attrib.seqNum) =
      (out.map Prod.fst).map (· % 4096) := by
    rw [List.map_map, List.map_map]
    exact List.map_congr_left hseq
  rw [hseqs]
  refine List.isChain_map_of_isChain _ ?_ (List.isChain_map_of_isChain Prod.fst ?_ hchain)
    (R := fun p q => p < q ∧ q ≤ p + 2048)
  · intro p q hpq
    exact (before_of_pos (by omega) hpq.2).mpr hpq.1
  · intro x y hxy
    exact hxy

/-! ## 2. The queue refines the buffer -/

/-- The controller's queue and window start are those of the buffer, modulo 4096. -/
structure Refines (ctrl : RecvReorderCtrl) (b : Buffer RecvFrame) : Prop where
  queue : ctrl.pendingRecvframeQueue = b.pending.map Prod.snd
  seq : ∀ x ∈ b.pending, x.2.attrib.seqNum = x.1 % 4096
  start : ctrl.indicateSeq = b.next % 4096

theorem enqueue_refines {p : Nat} {f : RecvFrame} (hf : f.attrib.seqNum = p % 4096) :
    ∀ (l : List (Nat × RecvFrame)),
      (∀ x ∈ l, x.2.attrib.seqNum = x.1 % 4096 ∧ x.1 < p + 2048 ∧ p ≤ x.1 + 2048) →
      enqueueReorderRecvframe f (l.map Prod.snd)
        = (place (p, f) l).map (List.map Prod.snd)
  | [], _ => rfl
  | y :: t, hl => by
    obtain ⟨hseq, hlo, hhi⟩ := hl y List.mem_cons_self
    have ih := enqueue_refines hf t (fun x hx => hl x (List.mem_cons_of_mem y hx))
    simp only [List.map_cons, enqueueReorderRecvframe, place, hseq, hf, snLess_pos hlo hhi,
      seq_eq_iff_pos hlo hhi, decide_eq_true_eq]
    split
    · rw [ih]
      simp only [Option.map_map]
      rfl
    · split <;> rfl

/-- The indication loop is `drain`. -/
theorem indicateLoop_refines : ∀ (n : Nat) (l : List (Nat × RecvFrame)),
    l.Pairwise (·.1 < ·.1) →
    (∀ x ∈ l, x.2.attrib.seqNum = x.1 % 4096 ∧ n < x.1 + 2048 ∧ x.1 ≤ n + 2048) →
    indicateLoop (n % 4096) (l.map Prod.snd)
      = ((drain n l).1.map Prod.snd, (drain n l).2.next % 4096,
          (drain n l).2.pending.map Prod.snd, !(drain n l).2.pending.isEmpty)
  | n, [], _, _ => rfl
  | n, y :: t, hs, hl => by
    obtain ⟨hyt, ht⟩ := List.pairwise_cons.mp hs
    obtain ⟨hseq, hlo, hhi⟩ := hl y List.mem_cons_self
    simp only [List.map_cons, indicateLoop, drain, hseq, snLess_pos hlo hhi,
      seq_eq_iff_pos hlo hhi, decide_eq_true_eq]
    by_cases hny : n < y.1
    · simp [hny]
    · have hnext : (if n = y.1 then (n % 4096 + 1) % 4096 else n % 4096)
          = (if y.1 = n then n + 1 else n) % 4096 := by
        split <;> split <;> omega
      have ih := indicateLoop_refines (if y.1 = n then n + 1 else n) t ht (by
        intro x hx
        obtain ⟨hxs, hxlo, hxhi⟩ := hl x (List.mem_cons_of_mem y hx)
        have hyx := hyt x hx
        refine ⟨hxs, ?_, ?_⟩ <;> split <;> omega)
      simp only [hny, if_false, hnext, ih, List.map_cons]

/-- The window arithmetic is `shift`, for a number that is not behind the window. -/
theorem checkIndicateSeq_refines (ctrl : RecvReorderCtrl) {next seq : Nat}
    (hstart : ctrl.indicateSeq = next % 4096) (hseq : seq < 4096) (hpos : 0 < ctrl.wsizeB)
    (hw : ctrl.wsizeB ≤ 2048) (hin : posOf next seq < next + 2048) :
    checkIndicateSeq ctrl seq
      = some { ctrl with
          indicateSeq := shift ctrl.wsizeB (posOf next seq) next % 4096 } := by
  have hinit : next % 4096 ≠ 0xFFFF := by omega
  have hwend : ((((next % 4096 : Nat) : Int) + ctrl.wsizeB - 1) % 4096).toNat
      = (next + ctrl.wsizeB - 1) % 4096 := by omega
  have hmod := posOf_mod next hseq
  have hge : next ≤ posOf next seq := Nat.le_add_right _ _
  have hnotless := (snLess_posOf next hseq).mpr hin
  generalize posOf next seq = p at hmod hge hin ⊢
  have heq : (seq = next % 4096) ↔ p = next := by omega
  have hbeyond : snLess ((next + ctrl.wsizeB - 1) % 4096) seq
      = decide (next + ctrl.wsizeB - 1 < p) := by
    rw [← hmod]
    exact snLess_pos (by omega) (by omega)
  unfold checkIndicateSeq shift
  simp only [hstart, hinit, hwend, hbeyond, if_false, hnotless, heq, Bool.false_eq_true,
    decide_eq_true_eq]
  by_cases hfirst : p = next
  · simp only [hfirst, if_true]
    congr 2
    omega
  · by_cases hshift : next + ctrl.wsizeB ≤ p
    · have hlt : next + ctrl.wsizeB - 1 < p := by omega
      simp only [hfirst, if_false, hlt, if_true, hshift]
      split
      · congr 2
        omega
      · congr 2
        omega
    · have hlt : ¬ next + ctrl.wsizeB - 1 < p := by omega
      simp only [hfirst, if_false, hlt, hshift]

/-- A frame behind the window is dropped. -/
theorem checkIndicateSeq_behind {ctrl : RecvReorderCtrl} {next seq : Nat}
    (hstart : ctrl.indicateSeq = next % 4096) (hseq : seq < 4096)
    (hout : ¬ posOf next seq < next + 2048) : checkIndicateSeq ctrl seq = none := by
  have hinit : next % 4096 ≠ 0xFFFF := by omega
  have hless : snLess seq (next % 4096) = true := by
    by_contra hnot
    exact hout ((snLess_posOf next hseq).mp (by simpa using hnot))
  unfold checkIndicateSeq
  simp only [hstart, hinit, if_false, hless, if_true]

/-- The first frame sets the start of the window, whatever it is. -/
theorem checkIndicateSeq_init {ctrl : RecvReorderCtrl} {seq : Nat}
    (hstart : ctrl.indicateSeq = 0xFFFF) (hseq : seq < 4096) :
    checkIndicateSeq ctrl seq = checkIndicateSeq { ctrl with indicateSeq := seq } seq := by
  have hne : seq ≠ 0xFFFF := by omega
  have hself : snLess seq seq = false := by
    rw [Bool.eq_false_iff, ne_eq, snLess_iff]
    unfold Before
    rw [ahead_self (by omega)]
    omega
  unfold checkIndicateSeq
  simp only [hstart, if_true, hne, if_false, hself, Bool.false_eq_true]

/-! ## 3. One call refines one operation of the buffer -/

/-- What the indication loop leaves, when it starts from position `n`. -/
theorem recvIndicatepktsInOrder_unforced {a : Adapter} (ctrl : RecvReorderCtrl) {n : Nat}
    {l : List (Nat × RecvFrame)} (hqueue : ctrl.pendingRecvframeQueue = l.map Prod.snd)
    (hstart : ctrl.indicateSeq = n % 4096) (hs : l.Pairwise (·.1 < ·.1))
    (hl : ∀ x ∈ l, x.2.attrib.seqNum = x.1 % 4096 ∧ n < x.1 + 2048 ∧ x.1 ≤ n + 2048) :
    recvIndicatepktsInOrder a ctrl false
      = (!(drain n l).2.pending.isEmpty, ((drain n l).1.map Prod.snd).map (deliver a),
          { ctrl with
            indicateSeq := (drain n l).2.next % 4096
            pendingRecvframeQueue := (drain n l).2.pending.map Prod.snd }) := by
  have hloop := indicateLoop_refines n l hs hl
  unfold recvIndicatepktsInOrder
  simp only [hqueue, hstart, hloop]

/-- **A forced indication is `force`.** -/
theorem recvIndicatepktsInOrder_forced {a : Adapter} (ctrl : RecvReorderCtrl)
    {b : Buffer RecvFrame} {w : Nat} (h : Refines ctrl b) (hs : b.pending.Pairwise (·.1 < ·.1))
    (hwin : ∀ x ∈ b.pending, b.next < x.1 ∧ x.1 < b.next + w) (hw : w ≤ 2048) :
    ∃ bPktInBuf ctrl',
      recvIndicatepktsInOrder a ctrl true
        = (bPktInBuf, ((force b).1.map Prod.snd).map (deliver a), ctrl') ∧
      Refines ctrl' (force b).2 ∧ ctrl'.wsizeB = ctrl.wsizeB ∧ ctrl'.enable = ctrl.enable := by
  cases hp : b.pending with
  | nil =>
    refine ⟨true, ctrl, ?_, ?_, rfl, rfl⟩
    · unfold recvIndicatepktsInOrder force
      simp [h.queue, hp]
    · unfold force
      simpa [hp] using h
  | cons x t =>
    have hpend : ctrl.pendingRecvframeQueue = x.2 :: t.map Prod.snd := by
      rw [h.queue, hp, List.map_cons]
    have hx := hwin x (by rw [hp]; exact List.mem_cons_self)
    have hl : ∀ y ∈ x :: t,
        y.2.attrib.seqNum = y.1 % 4096 ∧ x.1 < y.1 + 2048 ∧ y.1 ≤ x.1 + 2048 := by
      intro y hy
      have hmem : y ∈ b.pending := by rw [hp]; exact hy
      have hy := hwin y hmem
      exact ⟨h.seq y hmem, by omega, by omega⟩
    rw [hp] at hs
    have hloop := indicateLoop_refines x.1 (x :: t) hs hl
    have hsplit := drain_append x.1 (x :: t)
    refine ⟨!(drain x.1 (x :: t)).2.pending.isEmpty,
      { ctrl with
        indicateSeq := (drain x.1 (x :: t)).2.next % 4096
        pendingRecvframeQueue := (drain x.1 (x :: t)).2.pending.map Prod.snd },
      ?_, ?_, rfl, rfl⟩
    · unfold recvIndicatepktsInOrder
      have hseq : x.2.attrib.seqNum = x.1 % 4096 := (hl x List.mem_cons_self).1
      simp only [hpend, hseq]
      rw [← List.map_cons, hloop]
      simp only [force, hp]
    · have hforce : force b = drain x.1 (x :: t) := by simp [force, hp]
      rw [hforce]
      refine ⟨rfl, ?_, rfl⟩
      intro y hy
      have hmem : y ∈ x :: t := by
        rw [← hsplit]
        exact List.mem_append_right _ hy
      exact (hl y hmem).1

/-- **An arrival under the lock is `arrive`**, or it is behind the window or a duplicate, is
refused, and changes nothing. -/
theorem reorderLocked_refines {a : Adapter} (ctrl : RecvReorderCtrl) {b : Buffer RecvFrame}
    {out : List (Nat × RecvFrame)} {f : RecvFrame} (hgood : Good ctrl.wsizeB 2048 out b)
    (h : Refines ctrl b) (hpos : 0 < ctrl.wsizeB) (hw : ctrl.wsizeB ≤ 64)
    (hseq : f.attrib.seqNum < 4096) :
    (reorderLocked a ctrl f = ⟨.fail, f, [], ctrl⟩ ∧
      (b.next + 2048 ≤ posOf b.next f.attrib.seqNum ∨
        ∃ y ∈ b.pending, y.2.attrib.seqNum = f.attrib.seqNum)) ∨
    ∃ n taken b',
      b.next ≤ n ∧ n < b.next + 2048 ∧ f.attrib.seqNum = n % 4096 ∧
      arrive ctrl.wsizeB n f b = some (taken, b') ∧
      (reorderLocked a ctrl f).retval = .success ∧
      (reorderLocked a ctrl f).deliveries = (taken.map Prod.snd).map (deliver a) ∧
      Refines (reorderLocked a ctrl f).ctrl b' ∧
      (reorderLocked a ctrl f).ctrl.wsizeB = ctrl.wsizeB ∧
      (reorderLocked a ctrl f).ctrl.enable = ctrl.enable := by
  by_cases hin : posOf b.next f.attrib.seqNum < b.next + 2048
  case neg =>
    refine Or.inl ⟨?_, Or.inl (Nat.le_of_not_lt hin)⟩
    unfold reorderLocked
    rw [checkIndicateSeq_behind h.start hseq hin]
  case pos =>
    have hcheck := checkIndicateSeq_refines ctrl h.start hseq hpos (by omega) hin
    have hge : b.next ≤ posOf b.next f.attrib.seqNum := Nat.le_add_right _ _
    have hmod := (posOf_mod b.next hseq).symm
    generalize posOf b.next f.attrib.seqNum = n at hcheck hge hmod hin
    have henq : enqueueReorderRecvframe f ctrl.pendingRecvframeQueue
        = (place (n, f) b.pending).map (List.map Prod.snd) := by
      rw [h.queue]
      refine enqueue_refines hmod b.pending (fun x hx => ⟨h.seq x hx, ?_, ?_⟩)
      · have := hgood.window x hx
        omega
      · have := hgood.beyond x hx
        omega
    cases hplace : place (n, f) b.pending with
    | none =>
      -- a duplicate lies inside the window, so the window has not moved
      obtain ⟨y, hy, hyn⟩ := place_eq_none hplace
      have hyb := hgood.beyond y hy
      have hyw := hgood.window y hy
      simp only at hyn
      refine Or.inl ⟨?_, Or.inr ⟨y, hy, by rw [h.seq y hy, hyn, hmod]⟩⟩
      have hshift : shift ctrl.wsizeB n b.next = b.next := by
        unfold shift
        rw [if_neg (by omega), if_neg (by omega)]
      rw [hplace, Option.map_none] at henq
      unfold reorderLocked
      simp only [hcheck, henq, hshift, ← h.start]
    | some l' =>
      right
      rw [hplace, Option.map_some] at henq
      have hchain := place_chain hgood (by omega) hge hin hplace
      have hsorted := sorted_of_chain (List.isChain_append.mp hchain).2.1
      obtain ⟨before, after, hsplit, hl', hbefore, hafter⟩ := place_eq_some hgood.sorted hplace
      have hl : ∀ x ∈ l', x.2.attrib.seqNum = x.1 % 4096 ∧
          shift ctrl.wsizeB n b.next < x.1 + 2048 ∧
          x.1 ≤ shift ctrl.wsizeB n b.next + 2048 := by
        intro x hx
        have hcases : x = (n, f) ∨ x ∈ b.pending := by
          have := (place_perm hgood.sorted hplace).mem_iff.mp hx
          simpa [or_comm] using this
        rcases hcases with rfl | hx
        · refine ⟨hmod, ?_, ?_⟩ <;> simp only [shift] <;> split <;> (try split) <;> omega
        · have hxb := hgood.beyond x hx
          have hxw := hgood.window x hx
          refine ⟨h.seq x hx, ?_, ?_⟩ <;> simp only [shift] <;> split <;> (try split) <;> omega
      have hloop := recvIndicatepktsInOrder_unforced (a := a)
        { ctrl with
          indicateSeq := shift ctrl.wsizeB n b.next % 4096
          pendingRecvframeQueue := l'.map Prod.snd }
        (n := shift ctrl.wsizeB n b.next) (l := l') rfl rfl hsorted hl
      refine ⟨n, _, _, hge, hin, hmod, by rw [arrive, hplace]; rfl, ?_⟩
      have hseq' : ∀ x ∈ (drain (shift ctrl.wsizeB n b.next) l').2.pending,
          x.2.attrib.seqNum = x.1 % 4096 := by
        intro x hx
        refine (hl x ?_).1
        rw [← drain_append (shift ctrl.wsizeB n b.next) l']
        exact List.mem_append_right _ hx
      unfold reorderLocked
      simp only [hcheck, henq, hloop]
      cases (drain (shift ctrl.wsizeB n b.next) l').2.pending.isEmpty
      · simp only [Bool.not_false]
        split
        · exact ⟨rfl, rfl, ⟨rfl, hseq', rfl⟩, rfl, rfl⟩
        · exact ⟨rfl, rfl, ⟨rfl, hseq', rfl⟩, rfl, rfl⟩
      · exact ⟨rfl, rfl, ⟨rfl, hseq', rfl⟩, rfl, rfl⟩

/-- The first frame is treated like one that arrives right at the start of the window. -/
theorem reorderLocked_init {a : Adapter} {ctrl : RecvReorderCtrl} {f : RecvFrame}
    (hstart : ctrl.indicateSeq = 0xFFFF) (hseq : f.attrib.seqNum < 4096)
    (hpos : 0 < ctrl.wsizeB) (hw : ctrl.wsizeB ≤ 64) :
    reorderLocked a ctrl f
      = reorderLocked a { ctrl with indicateSeq := f.attrib.seqNum } f := by
  have hself : posOf f.attrib.seqNum f.attrib.seqNum < f.attrib.seqNum + 2048 := by
    unfold posOf
    rw [Nat.mod_eq_of_lt hseq, ahead_self (by omega)]
    omega
  have hcheck := checkIndicateSeq_refines { ctrl with indicateSeq := f.attrib.seqNum }
    (Nat.mod_eq_of_lt hseq).symm hseq hpos (by simp only; omega) hself
  have hinit := checkIndicateSeq_init hstart hseq
  unfold reorderLocked
  rw [hinit, hcheck]

/-! ## 4. Runs -/

/-- A frame as `validate_recv_data_frame` passes it on for a block-ack session: a QoS frame
with the twelve-bit number and the one-bit flag of its header. -/
structure QosArrival where
  frame : RecvFrame
  qos : frame.attrib.qos = 1
  seq12 : frame.attrib.seqNum < 4096
  flag : frame.attrib.amsdu ≤ 1

inductive ReorderEvent where
  | arrival (f : QosArrival)
  | expiry

/-- A run so far: the controller, the frames that went up, in order, and the arrivals that
were answered with `_SUCCESS`. -/
structure ReorderRun where
  ctrl : RecvReorderCtrl
  up : List RecvFrame
  accepted : List RecvFrame

/-- The frames of a call that went up. -/
def goneUp (ds : List Delivery) : List RecvFrame := (ds.filter Delivery.up).map Delivery.frame

/-- What the conversion to Ethernet leaves of a frame. -/
def RecvFrame.key (f : RecvFrame) : Nat × RxPktAttrib := (f.id, { f.attrib with ethType := 0 })

namespace ReorderRun

/-- Nothing has arrived yet; `indicateSeq` is what the session starts with. -/
def start (indicateSeq wsizeB : Nat) : ReorderRun where
  ctrl :=
    { enable := true
      indicateSeq := indicateSeq
      wsizeB := wsizeB
      pendingRecvframeQueue := []
      bReorderWaiting := false
      timerSet := false }
  up := []
  accepted := []

def step (a : Adapter) (s : ReorderRun) : ReorderEvent → ReorderRun
  | .arrival f =>
    let r := recvIndicatepktReorder a s.ctrl f.frame
    { ctrl := r.ctrl
      up := s.up ++ goneUp r.deliveries
      accepted := if r.retval = .success then s.accepted ++ [f.frame] else s.accepted }
  | .expiry =>
    let r := rtwReorderingCtrlTimeoutHandler a s.ctrl
    { s with ctrl := r.2, up := s.up ++ goneUp r.1 }

def run (a : Adapter) (s : ReorderRun) (events : List ReorderEvent) : ReorderRun :=
  events.foldl (step a) s

/-- **The invariant of a run**, with the history and the buffer it refines. -/
structure Inv (w : Nat) (s : ReorderRun) (out : List (Nat × RecvFrame))
    (b : Buffer RecvFrame) : Prop where
  good : Good w 2048 out b
  ctrl : Refines s.ctrl b ∨ (s.ctrl.indicateSeq = 0xFFFF ∧
    s.ctrl.pendingRecvframeQueue = [] ∧ out = [] ∧ b.pending = [])
  up : s.up = out.map Prod.snd
  seq : ∀ x ∈ out, x.2.attrib.seqNum = x.1 % 4096
  flags : ∀ f ∈ s.ctrl.pendingRecvframeQueue, f.attrib.amsdu ≤ 1
  kept : ((s.up ++ s.ctrl.pendingRecvframeQueue).map RecvFrame.key).Perm
    (s.accepted.map RecvFrame.key)
  wsize : s.ctrl.wsizeB = w
  enable : s.ctrl.enable = true

end ReorderRun

theorem SameFrame.key {f g : RecvFrame} (h : SameFrame f g) : g.key = f.key := by
  obtain ⟨hid, hat⟩ := h
  unfold RecvFrame.key
  rw [hid, hat]

/-- With the adapter running and `amsdu` a flag, a frame taken off the queue goes up. -/
theorem deliver_up {a : Adapter} (ha : rtwCannotRun a = false) {f : RecvFrame}
    (hf : f.attrib.amsdu ≤ 1) : (deliver a f).up = true ∧ (deliver a f).frame = f := by
  unfold deliver
  by_cases h0 : f.attrib.amsdu = 0
  · rw [if_pos h0, ha]
    exact ⟨rfl, rfl⟩
  · have h1 : f.attrib.amsdu = 1 := by omega
    rw [if_neg h0, if_pos h1]
    exact ⟨rfl, rfl⟩

theorem goneUp_of_up {a : Adapter} : ∀ {l : List RecvFrame},
    (∀ f ∈ l, (deliver a f).up = true ∧ (deliver a f).frame = f) → goneUp (l.map (deliver a)) = l
  | [], _ => rfl
  | f :: t, hl => by
    obtain ⟨hup, hframe⟩ := hl f List.mem_cons_self
    have ih := goneUp_of_up (fun g hg => hl g (List.mem_cons_of_mem f hg))
    unfold goneUp at ih ⊢
    rw [List.map_cons, List.filter_cons_of_pos hup, List.map_cons, hframe, ih]

theorem goneUp_deliver {a : Adapter} (ha : rtwCannotRun a = false) {l : List RecvFrame}
    (hl : ∀ f ∈ l, f.attrib.amsdu ≤ 1) : goneUp (l.map (deliver a)) = l :=
  goneUp_of_up (fun f hf => deliver_up ha (hl f hf))

/-- With reordering enabled, a QoS frame is refused at once or goes on to the queue. -/
theorem recvIndicatepktReorder_cases (a : Adapter) {ctrl : RecvReorderCtrl}
    (henable : ctrl.enable = true) (f : QosArrival) :
    recvIndicatepktReorder a ctrl f.frame = ⟨.fail, f.frame, [], ctrl⟩ ∨
    ∃ g, SameFrame f.frame g ∧
      recvIndicatepktReorder a ctrl f.frame = reorderLocked a ctrl g := by
  unfold recvIndicatepktReorder
  by_cases h0 : f.frame.attrib.amsdu = 0
  · rw [if_pos h0]
    cases hconv : wlanhdrToEthhdr a f.frame with
    | none => exact Or.inl rfl
    | some g =>
      have hsame := wlanhdrToEthhdr_same hconv
      have hqos : g.attrib.qos = 1 := by
        rw [hsame.2]
        exact f.qos
      exact Or.inr ⟨g, hsame, by simp [hqos, henable]⟩
  · rw [if_neg h0]
    exact Or.inr ⟨f.frame, SameFrame.refl _, by simp [henable]⟩

/-! ## 5. The invariant holds along every run -/

namespace ReorderRun

variable {a : Adapter} {w : Nat} {s : ReorderRun} {out : List (Nat × RecvFrame)}
  {b : Buffer RecvFrame}

theorem inv_start {indicateSeq : Nat} (hstart : indicateSeq = 0xFFFF ∨ indicateSeq < 4096) :
    ∃ b, Inv w (start indicateSeq w) [] b := by
  refine ⟨⟨indicateSeq, []⟩, good_start w 2048 indicateSeq, ?_, rfl, by simp, by simp [start],
    by simp [start], rfl, rfl⟩
  rcases hstart with h | h
  · exact Or.inr ⟨h, rfl, rfl, rfl⟩
  · exact Or.inl ⟨rfl, by simp, (Nat.mod_eq_of_lt h).symm⟩

/-- A frame that reaches the queue keeps the invariant. -/
theorem inv_locked (ha : rtwCannotRun a = false) (hpos : 0 < w) (hw : w ≤ 64)
    (h : Inv w s out b) {f g : RecvFrame} (hsame : SameFrame f g)
    (hseq : g.attrib.seqNum < 4096) (hflag : g.attrib.amsdu ≤ 1)
    (hrefines : Refines s.ctrl b) :
    ∃ out' b', Inv w
      { ctrl := (reorderLocked a s.ctrl g).ctrl
        up := s.up ++ goneUp (reorderLocked a s.ctrl g).deliveries
        accepted :=
          if (reorderLocked a s.ctrl g).retval = .success then s.accepted ++ [f]
          else s.accepted } out' b' := by
  have hgood := h.good
  rw [← h.wsize] at hgood
  rcases reorderLocked_refines (a := a) s.ctrl hgood hrefines (by rw [h.wsize]; exact hpos)
    (by rw [h.wsize]; exact hw) hseq with ⟨hfail, _⟩ |
    ⟨n, taken, b', hge, hlt, hmod, harr, hret, hdel, href, hws, hen⟩
  · refine ⟨out, b, ?_⟩
    rw [hfail]
    simpa [goneUp] using h
  · have hgood' := arrive_good hgood (by rw [h.wsize]; exact hpos)
      (by rw [h.wsize]; omega) hge hlt harr
    have hperm := arrive_perm hgood harr
    -- whatever leaves or stays was held back before, or is the new frame
    have hmem : ∀ x ∈ taken ++ b'.pending, x = (n, g) ∨ x ∈ b.pending := by
      intro x hx
      have := hperm.mem_iff.mp hx
      simpa [or_comm] using this
    have hflags : ∀ x ∈ taken ++ b'.pending, x.2.attrib.amsdu ≤ 1 := by
      intro x hx
      rcases hmem x hx with rfl | hx
      · exact hflag
      · refine h.flags x.2 ?_
        rw [hrefines.queue]
        exact List.mem_map_of_mem hx
    have hup : goneUp (reorderLocked a s.ctrl g).deliveries = taken.map Prod.snd := by
      rw [hdel]
      refine goneUp_deliver ha ?_
      intro f hf
      obtain ⟨x, hx, rfl⟩ := List.mem_map.mp hf
      exact hflags x (List.mem_append_left _ hx)
    rw [h.wsize] at hgood'
    refine ⟨out ++ taken, b', hgood', Or.inl href, ?_, ?_, ?_, ?_, hws.trans h.wsize,
      hen.trans h.enable⟩
    · simp only [hup, h.up, List.map_append]
    · intro x hx
      rcases List.mem_append.mp hx with hx | hx
      · exact h.seq x hx
      · rcases hmem x (List.mem_append_left _ hx) with rfl | hx
        · exact hmod
        · exact hrefines.seq x hx
    · intro f hf
      simp only [href.queue] at hf
      obtain ⟨x, hx, rfl⟩ := List.mem_map.mp hf
      exact hflags x (List.mem_append_right _ hx)
    · have hkeys := h.kept
      have hnew : ((taken.map Prod.snd ++ b'.pending.map Prod.snd).map RecvFrame.key).Perm
          ((s.ctrl.pendingRecvframeQueue ++ [g]).map RecvFrame.key) := by
        rw [hrefines.queue]
        have := (hperm.map Prod.snd).map RecvFrame.key
        simpa using this
      simp only [hret, if_true, hup, href.queue, List.append_assoc]
      have hsnoc : (s.accepted ++ [f]).map RecvFrame.key
          = s.accepted.map RecvFrame.key ++ [f.key] := by simp
      rw [List.map_append] at hkeys ⊢
      rw [hsnoc]
      refine (hnew.append_left _).trans ?_
      rw [List.map_append, ← List.append_assoc]
      refine List.Perm.append hkeys ?_
      simp [hsame.key]

theorem inv_arrival (ha : rtwCannotRun a = false) (hpos : 0 < w) (hw : w ≤ 64)
    (h : Inv w s out b) (f : QosArrival) : ∃ out' b', Inv w (step a s (.arrival f)) out' b' := by
  rcases recvIndicatepktReorder_cases a h.enable f with hfail | ⟨g, hsame, hlocked⟩
  · refine ⟨out, b, ?_⟩
    simp only [step, hfail]
    simpa [goneUp] using h
  · have hseq : g.attrib.seqNum < 4096 := by
      rw [hsame.2]
      exact f.seq12
    have hflag : g.attrib.amsdu ≤ 1 := by
      rw [hsame.2]
      exact f.flag
    simp only [step, hlocked]
    rcases h.ctrl with href | ⟨hinit, hempty, hout, _⟩
    · exact inv_locked ha hpos hw h hsame hseq hflag href
    · -- the first frame: the window starts at its number
      rw [reorderLocked_init hinit hseq (by rw [h.wsize]; exact hpos) (by rw [h.wsize]; exact hw)]
      have href : Refines { s.ctrl with indicateSeq := g.attrib.seqNum }
          (⟨g.attrib.seqNum, []⟩ : Buffer RecvFrame) :=
        ⟨hempty, by simp, (Nat.mod_eq_of_lt hseq).symm⟩
      subst hout
      exact inv_locked
        (s := { s with ctrl := { s.ctrl with indicateSeq := g.attrib.seqNum } })
        ha hpos hw
        ⟨good_start w 2048 _, Or.inl href, h.up, by simp, h.flags, h.kept, h.wsize, h.enable⟩
        hsame hseq hflag href

theorem inv_expiry (ha : rtwCannotRun a = false) (hw : w ≤ 64) (h : Inv w s out b) :
    ∃ out' b', Inv w (step a s .expiry) out' b' := by
  simp only [step, rtwReorderingCtrlTimeoutHandler, ha, Bool.false_eq_true, if_false]
  rcases h.ctrl with href | ⟨hinit, hempty, hout, hpend⟩
  · have hwin : ∀ x ∈ b.pending, b.next < x.1 ∧ x.1 < b.next + w :=
      fun x hx => ⟨h.good.beyond x hx, h.good.window x hx⟩
    obtain ⟨bPktInBuf, ctrl', hforced, href', hws, hen⟩ := recvIndicatepktsInOrder_forced
      (a := a) { s.ctrl with bReorderWaiting := false, timerSet := false }
      ⟨href.queue, href.seq, href.start⟩ h.good.sorted hwin (by omega)
    have hsplit := force_append b
    have hmem : ∀ x ∈ (force b).1 ++ (force b).2.pending, x ∈ b.pending := by
      rw [hsplit]
      exact fun x hx => hx
    have hflags : ∀ x ∈ b.pending, x.2.attrib.amsdu ≤ 1 := by
      intro x hx
      refine h.flags x.2 ?_
      rw [href.queue]
      exact List.mem_map_of_mem hx
    have hup : goneUp (((force b).1.map Prod.snd).map (deliver a)) = (force b).1.map Prod.snd := by
      refine goneUp_deliver ha ?_
      intro f hf
      obtain ⟨x, hx, rfl⟩ := List.mem_map.mp hf
      exact hflags x (hmem x (List.mem_append_left _ hx))
    have hinv : ∀ timer, Inv w
        { ctrl := { ctrl' with timerSet := timer }
          up := s.up ++ (force b).1.map Prod.snd
          accepted := s.accepted } (out ++ (force b).1) (force b).2 := by
      intro timer
      refine ⟨force_good h.good, Or.inl ⟨href'.queue, href'.seq, href'.start⟩, ?_, ?_, ?_, ?_,
        hws.trans h.wsize, hen.trans h.enable⟩
      · simp only [h.up, List.map_append]
      · intro x hx
        rcases List.mem_append.mp hx with hx | hx
        · exact h.seq x hx
        · exact href.seq x (hmem x (List.mem_append_left _ hx))
      · intro f hf
        simp only [href'.queue] at hf
        obtain ⟨x, hx, rfl⟩ := List.mem_map.mp hf
        exact hflags x (hmem x (List.mem_append_right _ hx))
      · have hkeys := h.kept
        rw [href.queue, ← hsplit] at hkeys
        simpa [href'.queue] using hkeys
    rw [hforced]
    cases bPktInBuf
    · simp only [hup]
      exact ⟨_, _, hinv ctrl'.timerSet⟩
    · simp only [hup]
      exact ⟨_, _, hinv true⟩
  · have hforced : recvIndicatepktsInOrder a
        { s.ctrl with bReorderWaiting := false, timerSet := false } true
        = (true, [], { s.ctrl with bReorderWaiting := false, timerSet := false }) := by
      unfold recvIndicatepktsInOrder
      simp only [hempty]
    rw [hforced]
    refine ⟨out, b, h.good, Or.inr ⟨hinit, hempty, hout, hpend⟩, ?_, h.seq, h.flags, ?_,
      h.wsize, h.enable⟩
    · simpa [goneUp] using h.up
    · simpa [goneUp] using h.kept

/-- **One event keeps the invariant.** -/
theorem inv_step (ha : rtwCannotRun a = false) (hpos : 0 < w) (hw : w ≤ 64)
    (h : Inv w s out b) : ∀ e : ReorderEvent, ∃ out' b', Inv w (step a s e) out' b'
  | .arrival f => inv_arrival ha hpos hw h f
  | .expiry => inv_expiry ha hw h

/-- **...and so does every run.** -/
theorem inv_run (ha : rtwCannotRun a = false) (hpos : 0 < w) (hw : w ≤ 64) :
    ∀ (events : List ReorderEvent) {s : ReorderRun} {out : List (Nat × RecvFrame)}
      {b : Buffer RecvFrame}, Inv w s out b → ∃ out' b', Inv w (run a s events) out' b'
  | [], _, out, b, h => ⟨out, b, h⟩
  | e :: t, _, _, _, h => by
    obtain ⟨out', b', h'⟩ := inv_step ha hpos hw h e
    exact inv_run ha hpos hw t h'

/-- A refused frame leaves the controller as it was, and nothing goes up. -/
theorem refused_unchanged (hpos : 0 < w) (hw : w ≤ 64) (h : Inv w s out b) (f : QosArrival) :
    (recvIndicatepktReorder a s.ctrl f.frame).retval = .success ∨
    ((recvIndicatepktReorder a s.ctrl f.frame).retval = .fail ∧
      (recvIndicatepktReorder a s.ctrl f.frame).ctrl = s.ctrl ∧
      (recvIndicatepktReorder a s.ctrl f.frame).deliveries = []) := by
  rcases recvIndicatepktReorder_cases a h.enable f with hfail | ⟨g, hsame, hlocked⟩
  · rw [hfail]
    exact Or.inr ⟨rfl, rfl, rfl⟩
  · have hseq : g.attrib.seqNum < 4096 := by
      rw [hsame.2]
      exact f.seq12
    have hwpos : 0 < s.ctrl.wsizeB := by rw [h.wsize]; exact hpos
    have hwle : s.ctrl.wsizeB ≤ 64 := by rw [h.wsize]; exact hw
    rw [hlocked]
    rcases h.ctrl with href | ⟨hinit, hempty, _, _⟩
    · have hgood := h.good
      rw [← h.wsize] at hgood
      rcases reorderLocked_refines (a := a) s.ctrl hgood href hwpos hwle hseq with
        ⟨hfail, _⟩ | ⟨_, _, _, _, _, _, _, hret, _⟩
      · rw [hfail]
        exact Or.inr ⟨rfl, rfl, rfl⟩
      · exact Or.inl hret
    · -- the first frame is never refused
      rw [reorderLocked_init hinit hseq hwpos hwle]
      have href : Refines { s.ctrl with indicateSeq := g.attrib.seqNum }
          (⟨g.attrib.seqNum, []⟩ : Buffer RecvFrame) :=
        ⟨hempty, by simp, (Nat.mod_eq_of_lt hseq).symm⟩
      rcases reorderLocked_refines (a := a)
        { s.ctrl with indicateSeq := g.attrib.seqNum }
        (good_start s.ctrl.wsizeB 2048 g.attrib.seqNum) href hwpos hwle hseq with
        ⟨_, hbehind | hdup⟩ | ⟨_, _, _, _, _, _, _, hret, _⟩
      · have hself : posOf g.attrib.seqNum g.attrib.seqNum = g.attrib.seqNum := by
          unfold posOf
          rw [Nat.mod_eq_of_lt hseq, ahead_self (by omega), Nat.add_zero]
        simp only [hself] at hbehind
        omega
      · simp at hdup
      · exact Or.inl hret

/-- The sequence numbers that went up, in order. -/
def upSeqs (s : ReorderRun) : List Nat := s.up.map (·.attrib.seqNum)

theorem upSeqs_chain (h : Inv w s out b) : s.upSeqs.IsChain (Before 4096) := by
  unfold upSeqs
  rw [h.up]
  exact chain_of_positions (List.isChain_append.mp h.good.chain).1 h.seq

end ReorderRun

/-- **Reordering delivers in order, once, and loses nothing.**  Along every run of arrivals and
expiries, from any window start and size: each number that goes up is one to 2048 ahead of the
one before it; a number goes up again only when the window has been all the way round; every
arrival that was not refused is still queued or went up, once; and a refused arrival changes
nothing. -/
theorem reorder_in_order_once {a : Adapter} (ha : rtwCannotRun a = false) {indicateSeq w : Nat}
    (hstart : indicateSeq = 0xFFFF ∨ indicateSeq < 4096) (hpos : 1 ≤ w) (hw : w ≤ 64)
    (events : List ReorderEvent) :
    let s := (ReorderRun.start indicateSeq w).run a events
    s.upSeqs.IsChain (Before 4096) ∧
    (∀ pre mid post : List Nat, ∀ n m, s.upSeqs = pre ++ n :: (mid ++ m :: post) → n = m →
      4096 ≤ advance 4096 (n :: (mid ++ [m]))) ∧
    ((s.up ++ s.ctrl.pendingRecvframeQueue).map RecvFrame.key).Perm
      (s.accepted.map RecvFrame.key) ∧
    ∀ f : QosArrival,
      (recvIndicatepktReorder a s.ctrl f.frame).retval = .success ∨
      ((recvIndicatepktReorder a s.ctrl f.frame).retval = .fail ∧
        (recvIndicatepktReorder a s.ctrl f.frame).ctrl = s.ctrl ∧
        (recvIndicatepktReorder a s.ctrl f.frame).deliveries = []) := by
  intro s
  obtain ⟨b₀, h₀⟩ := ReorderRun.inv_start (w := w) hstart
  obtain ⟨out, b, h⟩ := ReorderRun.inv_run ha hpos hw events h₀
  refine ⟨ReorderRun.upSeqs_chain h, ?_, h.kept, ReorderRun.refused_unchanged hpos hw h⟩
  intro pre mid post n m hsplit hnm
  have hchain := ReorderRun.upSeqs_chain h
  rw [hsplit] at hchain
  have htail := (List.isChain_append.mp hchain).2.1
  have hseg : (n :: (mid ++ [m])).IsChain (Before 4096) := by
    have : n :: (mid ++ m :: post) = (n :: (mid ++ [m])) ++ post := by simp
    rw [this] at htail
    exact (List.isChain_append.mp htail).1
  exact advance_of_chain_return (by omega) hseg (by rw [hnm])

/-- A data frame of a block-ack session: 26 bytes of header, an Ethernet type and a few bytes,
unencrypted. -/
def qosFrame (id seqNum : Nat) : RecvFrame where
  id := id
  attrib := { (default : RxPktAttrib) with hdrlen := 26, qos := 1, seqNum := seqNum }
  buf := List.replicate 40 0
  rxData := 0
  rxTail := 40

def qosArrival (id seqNum : Nat) (h : seqNum < 4096) : QosArrival :=
  ⟨qosFrame id seqNum, rfl, h, Nat.zero_le 1⟩

def runningAdapter : Adapter := { (default : Adapter) with fwState := wifiStationState }

theorem reorder_in_order_once_at_wrap :
    ∃ s : ReorderRun, s.upSeqs = [4095, 0, 1] ∧ s.upSeqs.IsChain (Before 4096) :=
  ⟨(ReorderRun.start 0xFFFF 64).run runningAdapter
      [.arrival (qosArrival 0 4095 (by decide)), .arrival (qosArrival 1 1 (by decide)),
        .arrival (qosArrival 2 0 (by decide))],
    by decide,
    (reorder_in_order_once (by decide) (by decide) (by decide) (by decide) _).1⟩

/-- Half a ring ahead still counts as ahead: with a window of one, 2047 goes up right after
4095, and is 2048 ahead of it. -/
theorem reorder_half_ring_ahead :
    ¬ ((ReorderRun.start 0xFFFF 1).run runningAdapter
        [.arrival (qosArrival 0 4095 (by decide)),
          .arrival (qosArrival 1 2047 (by decide))]).upSeqs.IsChain
      (fun m n => 1 ≤ ahead 4096 m n ∧ ahead 4096 m n ≤ 2047) := by
  have hup : ((ReorderRun.start 0xFFFF 1).run runningAdapter
      [.arrival (qosArrival 0 4095 (by decide)),
        .arrival (qosArrival 1 2047 (by decide))]).upSeqs = [4095, 2047] := by decide
  rw [hup]
  decide

end Rtl8723bs
