/-
# What a session leaves behind

`enable` decides which way a frame takes: into the queue, or straight up.  A DELBA that comes
while frames are pending leaves them to the timer, and the next frame goes up before them; an
accepted request lets the first frame set the window anew, wherever the pending frames are.

As long as no event does that kind of harm (`BaRun.Harmless`), the pending frames have
positions on an unwrapped counter at any time, with or without a session, and everything that
goes up goes up in the order of the positions.
-/
import Rtl8723bs.Rx.BlockAck

namespace Rtl8723bs

open Serial ReorderBuffer

variable {a : Adapter} {w : Nat} {ctrl : RecvReorderCtrl} {b : Buffer RecvFrame}
  {out : List (Nat × RecvFrame)}

/-! ## 1. The timer -/

/-- Frames that are pending wait for the timer. -/
structure Armed (ctrl : RecvReorderCtrl) : Prop where
  pending : ctrl.pendingRecvframeQueue ≠ [] → ctrl.timerSet = true
  waiting : ctrl.bReorderWaiting = true → ctrl.timerSet = true
  idle : ctrl.pendingRecvframeQueue = [] → ctrl.bReorderWaiting = false

/-- The indication loop says whether it leaves anything. -/
theorem indicateLoop_left (k : Nat) (l : List RecvFrame) :
    (indicateLoop k l).2.2.2 = !(indicateLoop k l).2.2.1.isEmpty := by
  induction l generalizing k with
  | nil => rfl
  | cons f t ih =>
    unfold indicateLoop
    split
    · rfl
    · exact ih _

/-- Indication changes the window start and the queue, and says whether anything is left. -/
theorem recvIndicatepktsInOrder_shape (a : Adapter) (ctrl : RecvReorderCtrl) {bforced : Bool}
    (h : bforced = false ∨ ctrl.pendingRecvframeQueue ≠ []) :
    ∃ ds k queue, recvIndicatepktsInOrder a ctrl bforced =
      (!queue.isEmpty, ds,
        { ctrl with indicateSeq := k, pendingRecvframeQueue := queue }) := by
  unfold recvIndicatepktsInOrder
  cases bforced with
  | false => exact ⟨_, _, _, Prod.ext (indicateLoop_left _ _) rfl⟩
  | true =>
    cases hq : ctrl.pendingRecvframeQueue with
    | nil => exact absurd hq (h.resolve_left nofun)
    | cons f t => exact ⟨_, _, _, Prod.ext (indicateLoop_left _ _) rfl⟩

/-- The window moves, and nothing else. -/
theorem checkIndicateSeq_shape {seq : Nat} {ctrl' : RecvReorderCtrl}
    (h : checkIndicateSeq ctrl seq = some ctrl') : ∃ k, ctrl' = { ctrl with indicateSeq := k } := by
  unfold checkIndicateSeq at h
  dsimp only at h
  generalize (if ctrl.indicateSeq = 0xFFFF then seq else ctrl.indicateSeq) = k at h
  split at h
  · cases h
  · split at h
    · cases h
      exact ⟨_, rfl⟩
    · split at h
      · split at h
        · cases h
          exact ⟨_, rfl⟩
        · cases h
          exact ⟨_, rfl⟩
      · cases h
        exact ⟨_, rfl⟩

theorem Armed.locked (h : Armed ctrl) (a : Adapter) (f : RecvFrame) :
    Armed (reorderLocked a ctrl f).ctrl := by
  unfold reorderLocked
  cases hcheck : checkIndicateSeq ctrl f.attrib.seqNum with
  | none => exact h
  | some ctrl₁ =>
    obtain ⟨k, rfl⟩ := checkIndicateSeq_shape hcheck
    dsimp only
    cases henq : enqueueReorderRecvframe f ctrl.pendingRecvframeQueue with
    | none => exact ⟨h.pending, h.waiting, h.idle⟩
    | some queue =>
      dsimp only
      obtain ⟨ds, k', left, hshape⟩ := recvIndicatepktsInOrder_shape a
        { ctrl with indicateSeq := k, pendingRecvframeQueue := queue } (Or.inl rfl)
      rw [hshape]
      cases left with
      | nil => exact ⟨fun hne => absurd rfl hne, nofun, fun _ => rfl⟩
      | cons g t =>
        simp only [List.isEmpty_cons, Bool.not_false]
        split
        · rename_i hwaiting
          exact ⟨fun _ => h.waiting hwaiting, h.waiting, nofun⟩
        · exact ⟨fun _ => rfl, fun _ => rfl, nofun⟩

theorem Armed.timeout (h : Armed ctrl)
    (hrun : rtwCannotRun a = true → ctrl.pendingRecvframeQueue = []) :
    Armed (rtwReorderingCtrlTimeoutHandler a ctrl).2 := by
  unfold rtwReorderingCtrlTimeoutHandler
  split
  · rename_i hstop
    have hempty := hrun hstop
    refine ⟨fun hne => absurd hempty hne, fun hwaiting => ?_, h.idle⟩
    exact absurd hwaiting (Bool.eq_false_iff.mp (h.idle hempty))
  · cases hq : ctrl.pendingRecvframeQueue with
    | nil =>
      unfold recvIndicatepktsInOrder
      dsimp only
      exact ⟨fun _ => rfl, nofun, fun _ => rfl⟩
    | cons f t =>
      have hne : ctrl.pendingRecvframeQueue ≠ [] := by
        rw [hq]
        exact nofun
      have hforced : true = false ∨ ctrl.pendingRecvframeQueue ≠ [] := Or.inr hne
      obtain ⟨ds, k, left, hshape⟩ := recvIndicatepktsInOrder_shape a
        { ctrl with bReorderWaiting := false, timerSet := false } hforced
      rw [← hq, hshape]
      cases left with
      | nil => exact ⟨fun hne => absurd rfl hne, nofun, fun _ => rfl⟩
      | cons g t => exact ⟨fun _ => rfl, nofun, fun _ => rfl⟩

/-! ## 2. Positions of the pending frames -/

/-- The pending frames are what some buffer holds. -/
structure Held (w : Nat) (ctrl : RecvReorderCtrl) (b : Buffer RecvFrame) : Prop where
  good : Good w 2048 [] b
  queue : ctrl.pendingRecvframeQueue = b.pending.map Prod.snd
  seq : ∀ x ∈ b.pending, x.2.attrib.seqNum = x.1 % 4096
  flags : ∀ f ∈ ctrl.pendingRecvframeQueue, f.attrib.amsdu ≤ 1
  wsize : ctrl.wsizeB = w
  armed : Armed ctrl

/-- The session is at this window start, and this is its history. -/
structure Session (ctrl : RecvReorderCtrl) (out : List (Nat × RecvFrame))
    (b : Buffer RecvFrame) : Prop where
  good : Good ctrl.wsizeB 2048 out b
  start : ctrl.indicateSeq = b.next % 4096
  seq : ∀ x ∈ out, x.2.attrib.seqNum = x.1 % 4096

/-- Frames in an order in which none comes before an earlier one. -/
def Line (fs : List RecvFrame) : Prop := fs.Pairwise fun f g => ¬Later f g

/-- **Positions in order are frames in line**, if they are less than half a ring apart. -/
theorem line_of_positions {l : List (Nat × RecvFrame)} (hs : l.Pairwise (·.1 < ·.1))
    (hseq : ∀ x ∈ l, x.2.attrib.seqNum = x.1 % 4096)
    (hnear : ∀ x ∈ l, ∀ y ∈ l, y.1 < x.1 + 2048) : Line (l.map Prod.snd) := by
  unfold Line
  rw [List.pairwise_map]
  refine hs.imp_of_mem fun {x y} hx hy hxy => ?_
  unfold Later
  rw [hseq x hx, hseq y hy, before_of_pos (hnear x hx y hy) (by omega)]
  omega

theorem Held.refines (h : Held w ctrl b) (hstart : ctrl.indicateSeq = b.next % 4096) :
    Refines ctrl b := ⟨h.queue, h.seq, hstart⟩

theorem Held.line (h : Held w ctrl b) (hw : w ≤ 64) : Line ctrl.pendingRecvframeQueue := by
  rw [h.queue]
  refine line_of_positions h.good.sorted h.seq fun x hx y hy => ?_
  have hbeyond := h.good.beyond x hx
  have hwindow := h.good.window y hy
  omega

/-- Positions may be counted from further back, by whole turns. -/
theorem Held.renumber (h : Held w ctrl b) : Held w ctrl (b.renumber 4096) := by
  refine ⟨h.good.renumber 4096, ?_, ?_, h.flags, h.wsize, h.armed⟩
  · rw [h.queue]
    unfold Buffer.renumber
    rw [List.map_map]
    rfl
  · intro y hy
    obtain ⟨x, hx, rfl⟩ := List.mem_map.mp hy
    rw [Nat.add_mod_right]
    exact h.seq x hx

/-! ## 3. One call -/

/-- What a call does to the controller: it lets go of frames that were pending or are new. -/
structure Call (w : Nat) (old : RecvReorderCtrl) (n : Nat) (ups : List RecvFrame)
    (ctrl : RecvReorderCtrl) (b : Buffer RecvFrame) : Prop where
  held : Held w ctrl b
  enable : ctrl.enable = old.enable
  line : Line (ups ++ ctrl.pendingRecvframeQueue)
  known : ∀ g ∈ ups ++ ctrl.pendingRecvframeQueue, g ∈ old.pendingRecvframeQueue ∨ g.id = n

theorem Held.refused (h : Held w ctrl b) (hw : w ≤ 64) (n : Nat) : Call w ctrl n [] ctrl b :=
  ⟨h, rfl, h.line hw, fun _ hg => Or.inl hg⟩

/-- The frames of a list with one new position that is within half a ring of the others. -/
theorem line_place {l' : List (Nat × RecvFrame)} {n : Nat} {g : RecvFrame}
    (hgood : Good w 2048 [] b) (hw : w ≤ 64) (hins : place (n, g) b.pending = some l')
    (hsorted : l'.Pairwise (·.1 < ·.1)) (hmod : g.attrib.seqNum = n % 4096)
    (hseq : ∀ x ∈ b.pending, x.2.attrib.seqNum = x.1 % 4096)
    (hnear : ∀ x ∈ b.pending, x.1 < n + 2048 ∧ n < x.1 + 2048) :
    (∀ x ∈ l', x = (n, g) ∨ x ∈ b.pending) ∧ (∀ x ∈ l', x.2.attrib.seqNum = x.1 % 4096) ∧
      Line (l'.map Prod.snd) := by
  have hmem : ∀ x ∈ l', x = (n, g) ∨ x ∈ b.pending := by
    intro x hx
    have hperm := (place_perm hgood.sorted hins).mem_iff.mp hx
    simpa [or_comm] using hperm
  have hseq' : ∀ x ∈ l', x.2.attrib.seqNum = x.1 % 4096 := by
    intro x hx
    rcases hmem x hx with rfl | hx
    · exact hmod
    · exact hseq x hx
  refine ⟨hmem, hseq', line_of_positions hsorted hseq' fun x hx y hy => ?_⟩
  rcases hmem x hx with rfl | hx
  · rcases hmem y hy with rfl | hy
    · simp only
      omega
    · exact (hnear y hy).1
  · rcases hmem y hy with rfl | hy
    · exact (hnear x hx).2
    · have hbeyond := hgood.beyond x hx
      have hwindow := hgood.window y hy
      omega

/-- **A call that splits the list in two**: what leaves goes up, and what stays is held. -/
theorem Held.call (h : Held w ctrl b) {a : Adapter} (ha : rtwCannotRun a = false)
    {taken : List (Nat × RecvFrame)} {b' : Buffer RecvFrame} {ds : List Delivery}
    {ctrl' : RecvReorderCtrl} {n : Nat}
    (hgood : Good w 2048 [] b') (hqueue : ctrl'.pendingRecvframeQueue = b'.pending.map Prod.snd)
    (hdel : ds = (taken.map Prod.snd).map (deliver a))
    (hseq : ∀ x ∈ taken ++ b'.pending, x.2.attrib.seqNum = x.1 % 4096)
    (hline : Line ((taken ++ b'.pending).map Prod.snd))
    (hflag : ∀ x ∈ taken ++ b'.pending, x.2.attrib.amsdu ≤ 1)
    (hknown : ∀ x ∈ taken ++ b'.pending, x ∈ b.pending ∨ x.2.id = n)
    (hwsize : ctrl'.wsizeB = ctrl.wsizeB) (henable : ctrl'.enable = ctrl.enable)
    (harmed : Armed ctrl') :
    Call w ctrl n (taken.map Prod.snd) ctrl' b' ∧ goneUp ds = taken.map Prod.snd := by
  have hup : goneUp ds = taken.map Prod.snd := by
    rw [hdel]
    refine goneUp_deliver ha fun f hf => ?_
    obtain ⟨x, hx, rfl⟩ := List.mem_map.mp hf
    exact hflag x (List.mem_append_left _ hx)
  refine ⟨⟨⟨hgood, hqueue, ?_, ?_, hwsize.trans h.wsize, harmed⟩, henable, ?_, ?_⟩, hup⟩
  · exact fun x hx => hseq x (List.mem_append_right _ hx)
  · intro f hf
    rw [hqueue] at hf
    obtain ⟨x, hx, rfl⟩ := List.mem_map.mp hf
    exact hflag x (List.mem_append_right _ hx)
  · rw [hqueue, ← List.map_append]
    exact hline
  · intro g hg
    rw [hqueue, ← List.map_append] at hg
    obtain ⟨x, hx, rfl⟩ := List.mem_map.mp hg
    rw [h.queue]
    exact (hknown x hx).imp_left fun hx => List.mem_map_of_mem hx

/-- A frame in the middle of a session. -/
theorem Held.locked (h : Held w ctrl b) (hs : Session ctrl out b) (ha : rtwCannotRun a = false)
    (hpos : 0 < w) (hw : w ≤ 64) {g : RecvFrame} (hseq : g.attrib.seqNum < 4096)
    (hflag : g.attrib.amsdu ≤ 1) :
    ∃ taken b', Call w ctrl g.id (taken.map Prod.snd) (reorderLocked a ctrl g).ctrl b' ∧
      goneUp (reorderLocked a ctrl g).deliveries = taken.map Prod.snd ∧
      Session (reorderLocked a ctrl g).ctrl (out ++ taken) b' := by
  have hwpos : 0 < ctrl.wsizeB := by rw [h.wsize]; exact hpos
  have hwle : ctrl.wsizeB ≤ 64 := by rw [h.wsize]; exact hw
  rcases reorderLocked_refines (a := a) ctrl hs.good (h.refines hs.start) hwpos hwle hseq with
    ⟨hfail, -⟩ | ⟨n, taken, b', hge, hlt, hmod, harr, -, hdel, href, hws, hen⟩
  · refine ⟨[], b, ?_, ?_, ?_⟩
    · rw [hfail]
      exact h.refused hw g.id
    · rw [hfail]
      rfl
    · rw [hfail, List.append_nil]
      exact hs
  · have hgood' := arrive_good hs.good hwpos (by omega) hge hlt harr
    have hins := arrive_place harr
    have hsorted : (taken ++ b'.pending).Pairwise (·.1 < ·.1) := by
      have hchain := place_chain hs.good (by omega) hge hlt hins
      exact sorted_of_chain (List.isChain_append.mp hchain).2.1
    have hnear : ∀ x ∈ b.pending, x.1 < n + 2048 ∧ n < x.1 + 2048 := by
      intro x hx
      have hbeyond := hs.good.beyond x hx
      have hwindow := hs.good.window x hx
      omega
    obtain ⟨hmem, hseq', hline⟩ := line_place h.good hw hins hsorted hmod h.seq hnear
    have hflags : ∀ x ∈ b.pending, x.2.attrib.amsdu ≤ 1 := by
      intro x hx
      refine h.flags x.2 ?_
      rw [h.queue]
      exact List.mem_map_of_mem hx
    have hforget : Good w 2048 [] b' := by
      rw [← h.wsize]
      exact hgood'.forget
    obtain ⟨hcall, hup⟩ := h.call ha (n := g.id) hforget href.queue hdel hseq' hline
      (fun x hx => (hmem x hx).elim (fun he => he ▸ hflag) (hflags x))
      (fun x hx => (hmem x hx).elim (fun he => Or.inr (he ▸ rfl)) Or.inl) hws hen
      (h.armed.locked a g)
    refine ⟨taken, b', hcall, hup, ?_, href.start, ?_⟩
    · rw [hws]
      exact hgood'
    · intro x hx
      rcases List.mem_append.mp hx with hx | hx
      · exact hs.seq x hx
      · exact hseq' x (List.mem_append_left _ hx)

/-- **The position of the first frame**: inside the window the pending frames are in, as seen from
the frame, or less than the rest of half a ring after them. -/
theorem exists_first_pos {next seq : Nat} (hnext : 4096 ≤ next) (hpos : 0 < w) (hw : w ≤ 64)
    (hseq : seq < 4096) :
    ∃ n, n % 4096 = seq ∧ ∀ p, next < p → p < next + w → p % 4096 ≠ seq →
      (ahead 4096 seq (p % 4096) < w ∨ ahead 4096 (p % 4096) seq < 2048 - w) →
      p < n + w ∧ n < p + (2048 - w) ∧ p ≠ n := by
  have hmod := posOf_mod (next + 1 - w) hseq
  have hge : next + 1 - w ≤ posOf (next + 1 - w) seq := Nat.le_add_right _ _
  have hlt : posOf (next + 1 - w) seq < next + 1 - w + 4096 :=
    Nat.add_lt_add_left (ahead_lt (by decide) _ _) _
  refine ⟨posOf (next + 1 - w) seq, hmod, fun p hlo hhi hne hnear => ?_⟩
  generalize posOf (next + 1 - w) seq = n at hmod hge hlt
  subst hmod
  have hpn : p ≠ n := fun h => hne (h ▸ rfl)
  rcases Nat.lt_or_gt_of_ne hpn with hbefore | hafter
  · have hback : ahead 4096 (n % 4096) ((p + 4096) % 4096) = p + 4096 - n :=
      ahead_of_pos (by omega) (by omega)
    have hahead : ahead 4096 (p % 4096) (n % 4096) = n - p :=
      ahead_of_pos (by omega) (by omega)
    rw [Nat.add_mod_right] at hback
    rw [hback, hahead] at hnear
    omega
  · have hahead : ahead 4096 (n % 4096) (p % 4096) = p - n :=
      ahead_of_pos (by omega) (by omega)
    have hback : ahead 4096 (p % 4096) ((n + 4096) % 4096) = n + 4096 - p :=
      ahead_of_pos (by omega) (by omega)
    rw [Nat.add_mod_right] at hback
    rw [hback, hahead] at hnear
    omega

/-- The first frame of a session under the lock: the window starts behind it. -/
theorem reorderLocked_first {a : Adapter} {ctrl : RecvReorderCtrl} {g : RecvFrame} {n : Nat}
    {l' : List (Nat × RecvFrame)} (hstart : ctrl.indicateSeq = 0xFFFF)
    (hseq : g.attrib.seqNum < 4096) (hpos : 0 < ctrl.wsizeB) (hw : ctrl.wsizeB ≤ 64)
    (hmod : g.attrib.seqNum = n % 4096)
    (henq : enqueueReorderRecvframe g ctrl.pendingRecvframeQueue = some (l'.map Prod.snd))
    (hsorted : l'.Pairwise (·.1 < ·.1))
    (hl : ∀ x ∈ l', x.2.attrib.seqNum = x.1 % 4096 ∧ n + 1 < x.1 + 2048 ∧ x.1 ≤ n + 1 + 2048) :
    (reorderLocked a ctrl g).deliveries
        = ((drain (n + 1) l').1.map Prod.snd).map (deliver a) ∧
      (reorderLocked a ctrl g).ctrl.pendingRecvframeQueue
        = (drain (n + 1) l').2.pending.map Prod.snd ∧
      (reorderLocked a ctrl g).ctrl.indicateSeq = (drain (n + 1) l').2.next % 4096 ∧
      (reorderLocked a ctrl g).ctrl.wsizeB = ctrl.wsizeB ∧
      (reorderLocked a ctrl g).ctrl.enable = ctrl.enable := by
  have hself : posOf n g.attrib.seqNum = n := by
    unfold posOf
    rw [hmod, ahead_self (by decide), Nat.add_zero]
  have hin : posOf n g.attrib.seqNum < n + 2048 := by
    rw [hself]
    exact Nat.lt_add_of_pos_right (by decide)
  have hcheck := checkIndicateSeq_refines { ctrl with indicateSeq := g.attrib.seqNum } hmod hseq
    hpos (Nat.le_trans hw (by decide)) hin
  have hshift : shift ctrl.wsizeB n n = n + 1 := if_pos rfl
  rw [hself, hshift] at hcheck
  have hloop := recvIndicatepktsInOrder_unforced (a := a)
    { ctrl with indicateSeq := (n + 1) % 4096, pendingRecvframeQueue := l'.map Prod.snd }
    (n := n + 1) (l := l') rfl rfl hsorted hl
  rw [reorderLocked_init hstart hseq hpos hw]
  unfold reorderLocked
  simp only [hcheck, henq, hloop]
  cases (drain (n + 1) l').2.pending.isEmpty
  · simp only [Bool.not_false]
    split
    · exact ⟨rfl, rfl, rfl, rfl, rfl⟩
    · exact ⟨rfl, rfl, rfl, rfl, rfl⟩
  · exact ⟨rfl, rfl, rfl, rfl, rfl⟩

/-- **The first frame of a session**, whatever is pending, if it continues that. -/
theorem Held.first (h : Held w ctrl b) (hstart : ctrl.indicateSeq = 0xFFFF)
    (ha : rtwCannotRun a = false) (hpos : 0 < w) (hw : w ≤ 64) {g : RecvFrame}
    (hseq : g.attrib.seqNum < 4096) (hflag : g.attrib.amsdu ≤ 1) (hcont : ctrl.Continues g) :
    ∃ taken b', Call w ctrl g.id (taken.map Prod.snd) (reorderLocked a ctrl g).ctrl b' ∧
      goneUp (reorderLocked a ctrl g).deliveries = taken.map Prod.snd ∧
      Session (reorderLocked a ctrl g).ctrl taken b' := by
  -- positions far enough from zero to count back to the frame
  have h := h.renumber
  have hfar : 4096 ≤ (b.renumber 4096).next := Nat.le_add_left _ _
  generalize b.renumber 4096 = b at h hfar
  obtain ⟨n, hmod, hn⟩ := exists_first_pos hfar hpos hw hseq
  have hnear : ∀ x ∈ b.pending, x.1 < n + w ∧ n < x.1 + (2048 - w) ∧ x.1 ≠ n := by
    intro x hx
    have hmem : x.2 ∈ ctrl.pendingRecvframeQueue := by
      rw [h.queue]
      exact List.mem_map_of_mem hx
    obtain ⟨hne, hclose⟩ := hcont x.2 hmem
    rw [h.seq x hx] at hne hclose
    rw [h.wsize] at hclose
    exact hn x.1 (h.good.beyond x hx) (h.good.window x hx) hne hclose
  have henq : enqueueReorderRecvframe g ctrl.pendingRecvframeQueue
      = (place (n, g) b.pending).map (List.map Prod.snd) := by
    rw [h.queue]
    refine enqueue_refines hmod.symm b.pending fun x hx => ⟨h.seq x hx, ?_, ?_⟩
    · have hx := hnear x hx
      omega
    · have hx := hnear x hx
      omega
  cases hins : place (n, g) b.pending with
  | none =>
    obtain ⟨y, hy, hyn⟩ := place_eq_none hins
    exact absurd hyn (hnear y hy).2.2
  | some l' =>
    rw [hins, Option.map_some] at henq
    have hgood' := resume_good h.good (by omega) (fun x hx => by have hx := hnear x hx; omega)
      (fun x hx => (hnear x hx).1) hpos hins
    have hsplit := drain_append (n + 1) l'
    have hsorted : l'.Pairwise (·.1 < ·.1) := by
      have hchain := hgood'.chain
      rw [hsplit] at hchain
      exact sorted_of_chain hchain
    obtain ⟨hmem, hseq', hline⟩ := line_place h.good hw hins hsorted hmod.symm h.seq
      fun x hx => by have hx := hnear x hx; omega
    have hl : ∀ x ∈ l',
        x.2.attrib.seqNum = x.1 % 4096 ∧ n + 1 < x.1 + 2048 ∧ x.1 ≤ n + 1 + 2048 := by
      intro x hx
      refine ⟨hseq' x hx, ?_⟩
      rcases hmem x hx with rfl | hx
      · simp only
        omega
      · have hx := hnear x hx
        omega
    have hwpos : 0 < ctrl.wsizeB := by rw [h.wsize]; exact hpos
    have hwle : ctrl.wsizeB ≤ 64 := by rw [h.wsize]; exact hw
    obtain ⟨hdel, hqueue, hstart', hws, hen⟩ := reorderLocked_first (a := a) hstart hseq hwpos
      hwle hmod.symm henq hsorted hl
    have hflags : ∀ x ∈ b.pending, x.2.attrib.amsdu ≤ 1 := by
      intro x hx
      refine h.flags x.2 ?_
      rw [h.queue]
      exact List.mem_map_of_mem hx
    rw [← hsplit] at hmem hseq' hline
    obtain ⟨hcall, hup⟩ := h.call ha (n := g.id) hgood'.forget hqueue hdel hseq' hline
      (fun x hx => (hmem x hx).elim (fun he => he ▸ hflag) (hflags x))
      (fun x hx => (hmem x hx).elim (fun he => Or.inr (he ▸ rfl)) Or.inl) hws hen
      (h.armed.locked a g)
    refine ⟨_, _, hcall, hup, ?_, hstart', fun x hx => hseq' x (List.mem_append_left _ hx)⟩
    rw [hws, h.wsize]
    exact hgood'

/-! ## 4. Arrivals and expiries -/

/-- What went up in the session, if the session is at this point. -/
def OfSession (ctrl : RecvReorderCtrl) (fs : List RecvFrame) (b : Buffer RecvFrame) : Prop :=
  (ctrl.indicateSeq = 0xFFFF ∧ fs = []) ∨ ∃ out, Session ctrl out b ∧ fs = out.map Prod.snd

theorem Held.ofStart (h : Held w ctrl b) (k : Nat) : Held w { ctrl with indicateSeq := k } b :=
  ⟨h.good, h.queue, h.seq, h.flags, h.wsize, ⟨h.armed.pending, h.armed.waiting, h.armed.idle⟩⟩

/-- **An arrival in a session.** -/
theorem Held.arrival (h : Held w ctrl b) {fs : List RecvFrame} (hfs : OfSession ctrl fs b)
    (henable : ctrl.enable = true) (ha : rtwCannotRun a = false) (hpos : 0 < w) (hw : w ≤ 64)
    (f : QosArrival) (hcont : ctrl.indicateSeq = 0xFFFF → ctrl.Continues f.frame) :
    ∃ b', Call w ctrl f.frame.id (goneUp (recvIndicatepktReorder a ctrl f.frame).deliveries)
        (recvIndicatepktReorder a ctrl f.frame).ctrl b' ∧
      OfSession (recvIndicatepktReorder a ctrl f.frame).ctrl
        (fs ++ goneUp (recvIndicatepktReorder a ctrl f.frame).deliveries) b' := by
  rcases recvIndicatepktReorder_cases a henable f with hfail | ⟨g, hsame, hlocked⟩
  · rw [hfail]
    refine ⟨b, h.refused hw _, ?_⟩
    rw [show goneUp [] = [] from rfl, List.append_nil]
    exact hfs
  · have hseqNum : g.attrib.seqNum = f.frame.attrib.seqNum := by rw [hsame.2]
    have hseq : g.attrib.seqNum < 4096 := hseqNum ▸ f.seq12
    have hflag : g.attrib.amsdu ≤ 1 := by
      rw [hsame.2]
      exact f.flag
    rw [hlocked, ← hsame.1]
    rcases hfs with ⟨hstart, rfl⟩ | ⟨out, hs, rfl⟩
    · have hcont' : ctrl.Continues g := by
        intro x hx
        rw [hseqNum]
        exact hcont hstart x hx
      obtain ⟨taken, b', hcall, hup, hs⟩ := h.first hstart ha hpos hw hseq hflag hcont'
      rw [hup, List.nil_append]
      exact ⟨b', hcall, Or.inr ⟨taken, hs, rfl⟩⟩
    · obtain ⟨taken, b', hcall, hup, hs'⟩ := h.locked hs ha hpos hw hseq hflag
      rw [hup, ← List.map_append]
      exact ⟨b', hcall, Or.inr ⟨out ++ taken, hs', rfl⟩⟩

/-- Without a session, a frame goes straight up, and the queue does not know. -/
theorem recvIndicatepktReorder_direct (a : Adapter) (henable : ctrl.enable = false)
    (f : QosArrival) :
    recvIndicatepktReorder a ctrl f.frame = ⟨.fail, f.frame, [], ctrl⟩ ∨
      ∃ g k, SameFrame f.frame g ∧
        goneUp (recvIndicatepktReorder a ctrl f.frame).deliveries = [g] ∧
        (recvIndicatepktReorder a ctrl f.frame).ctrl = { ctrl with indicateSeq := k } := by
  unfold recvIndicatepktReorder
  by_cases h0 : f.frame.attrib.amsdu = 0
  · rw [if_pos h0]
    cases hconv : wlanhdrToEthhdr a f.frame with
    | none => exact Or.inl rfl
    | some g =>
      have hsame := wlanhdrToEthhdr_same hconv
      have hqos : ¬g.attrib.qos ≠ 1 := by
        rw [hsame.2]
        exact not_not.mpr f.qos
      refine Or.inr ⟨g, (g.attrib.seqNum + 1) % 4096, hsame, ?_⟩
      simp only [hqos, if_false, henable, Bool.not_false, if_true]
      exact ⟨rfl, trivial⟩
  · have h1 : f.frame.attrib.amsdu = 1 := by
      have hflag := f.flag
      omega
    refine Or.inr ⟨f.frame, (f.frame.attrib.seqNum + 1) % 4096, SameFrame.refl _, ?_⟩
    simp only [h1, henable, Bool.not_false, and_self, if_true, if_neg (by decide : ¬1 = 0)]
    exact ⟨rfl, trivial⟩

/-- **An arrival without a session**, if it is not later than a pending frame. -/
theorem Held.direct (h : Held w ctrl b) (henable : ctrl.enable = false) (hw : w ≤ 64)
    (a : Adapter) (f : QosArrival)
    (hlater : ∀ g ∈ ctrl.pendingRecvframeQueue, ¬Later f.frame g) :
    Call w ctrl f.frame.id (goneUp (recvIndicatepktReorder a ctrl f.frame).deliveries)
      (recvIndicatepktReorder a ctrl f.frame).ctrl b := by
  rcases recvIndicatepktReorder_direct a henable f with hfail | ⟨g, k, hsame, hup, hctrl⟩
  · rw [hfail]
    exact h.refused hw _
  · rw [hup, hctrl]
    refine ⟨h.ofStart k, rfl, ?_, ?_⟩
    · refine List.pairwise_cons.mpr ⟨fun x hx => ?_, h.line hw⟩
      unfold Later
      rw [hsame.2]
      exact hlater x hx
    · intro x hx
      rcases List.mem_cons.mp hx with rfl | hx
      · exact Or.inr hsame.1
      · exact Or.inl hx

/-- A forced indication of pending frames does not look at the window start. -/
theorem recvIndicatepktsInOrder_start (a : Adapter) (ctrl : RecvReorderCtrl)
    (hne : ctrl.pendingRecvframeQueue ≠ []) (k : Nat) :
    recvIndicatepktsInOrder a { ctrl with indicateSeq := k } true =
      recvIndicatepktsInOrder a ctrl true := by
  unfold recvIndicatepktsInOrder
  cases hq : ctrl.pendingRecvframeQueue with
  | nil => exact absurd hq hne
  | cons f t => rfl

/-- **An expiry**, with or without a session. -/
theorem Held.expiry (h : Held w ctrl b) (hw : w ≤ 64)
    (hrun : rtwCannotRun a = true → ctrl.pendingRecvframeQueue = []) (n : Nat) :
    ∃ b', Call w ctrl n (goneUp (rtwReorderingCtrlTimeoutHandler a ctrl).1)
        (rtwReorderingCtrlTimeoutHandler a ctrl).2 b' ∧
      ∀ fs, OfSession ctrl fs b → OfSession (rtwReorderingCtrlTimeoutHandler a ctrl).2
        (fs ++ goneUp (rtwReorderingCtrlTimeoutHandler a ctrl).1) b' := by
  have harmed := h.armed.timeout hrun
  by_cases hq : ctrl.pendingRecvframeQueue = []
  · have hidle : ∃ waiting timer, rtwReorderingCtrlTimeoutHandler a ctrl =
        ([], { ctrl with bReorderWaiting := waiting, timerSet := timer }) := by
      unfold rtwReorderingCtrlTimeoutHandler
      split
      · exact ⟨_, _, rfl⟩
      · unfold recvIndicatepktsInOrder
        simp only [hq]
        exact ⟨_, _, rfl⟩
    obtain ⟨waiting, timer, hidle⟩ := hidle
    rw [hidle] at harmed ⊢
    have hheld : Held w { ctrl with bReorderWaiting := waiting, timerSet := timer } b :=
      ⟨h.good, h.queue, h.seq, h.flags, h.wsize, harmed⟩
    refine ⟨b, ⟨hheld, rfl, h.line hw, fun _ hg => Or.inl hg⟩, fun fs hfs => ?_⟩
    rw [show goneUp [] = [] from rfl, List.append_nil]
    refine hfs.imp_right ?_
    rintro ⟨out, hs, rfl⟩
    exact ⟨out, ⟨hs.good, hs.start, hs.seq⟩, rfl⟩
  · have ha : rtwCannotRun a = false := by
      cases hstop : rtwCannotRun a with
      | false => rfl
      | true => exact absurd (hrun hstop) hq
    have hwin : ∀ x ∈ b.pending, b.next < x.1 ∧ x.1 < b.next + w :=
      fun x hx => ⟨h.good.beyond x hx, h.good.window x hx⟩
    obtain ⟨left, ctrl', hforced, href, hws, hen⟩ := recvIndicatepktsInOrder_forced (a := a)
      { ctrl with
        bReorderWaiting := false
        timerSet := false
        indicateSeq := b.next % 4096 }
      ⟨h.queue, h.seq, rfl⟩ h.good.sorted hwin (by omega)
    have hhandler : ∃ timer, rtwReorderingCtrlTimeoutHandler a ctrl =
        (((force b).1.map Prod.snd).map (deliver a), { ctrl' with timerSet := timer }) := by
      have hstart := recvIndicatepktsInOrder_start a
        { ctrl with bReorderWaiting := false, timerSet := false } hq (b.next % 4096)
      unfold rtwReorderingCtrlTimeoutHandler
      rw [ha, if_neg Bool.false_ne_true, ← hstart, hforced]
      cases left
      · exact ⟨ctrl'.timerSet, rfl⟩
      · exact ⟨true, rfl⟩
    obtain ⟨timer, hhandler⟩ := hhandler
    rw [hhandler] at harmed ⊢
    have hsplit := force_append b
    have hgood' := force_good h.good
    have hseq' : ∀ x ∈ (force b).1 ++ (force b).2.pending, x.2.attrib.seqNum = x.1 % 4096 := by
      rw [hsplit]
      exact h.seq
    have hline : Line (((force b).1 ++ (force b).2.pending).map Prod.snd) := by
      rw [hsplit, ← h.queue]
      exact h.line hw
    have hflags : ∀ x ∈ (force b).1 ++ (force b).2.pending, x.2.attrib.amsdu ≤ 1 := by
      rw [hsplit]
      intro x hx
      refine h.flags x.2 ?_
      rw [h.queue]
      exact List.mem_map_of_mem hx
    have hqueue : { ctrl' with timerSet := timer }.pendingRecvframeQueue
        = (force b).2.pending.map Prod.snd := href.queue
    obtain ⟨hcall, hup⟩ := h.call (n := n) ha hgood'.forget hqueue rfl hseq' hline hflags
      (fun x hx => Or.inl (hsplit ▸ hx)) hws hen harmed
    refine ⟨(force b).2, ?_, fun fs hfs => ?_⟩
    · rw [hup]
      exact hcall
    · rw [hup]
      have htaken : ∀ x ∈ (force b).1, x.2.attrib.seqNum = x.1 % 4096 :=
        fun x hx => hseq' x (List.mem_append_left _ hx)
      rcases hfs with ⟨-, rfl⟩ | ⟨out, hs, rfl⟩
      · refine Or.inr ⟨(force b).1, ⟨?_, href.start, htaken⟩, rfl⟩
        rw [hws, h.wsize]
        exact hgood'
      · refine Or.inr ⟨out ++ (force b).1, ⟨?_, href.start, ?_⟩, List.map_append.symm⟩
        · rw [hws]
          exact force_good hs.good
        · intro x hx
          rcases List.mem_append.mp hx with hx | hx
          · exact hs.seq x hx
          · exact htaken x hx

/-! ## 5. The record -/

section Marks

variable {t : List BaMark} {fs pending : List RecvFrame} {f g : RecvFrame}

theorem sublist_ups₂ (h : [.ended pending, .up f].Sublist (t ++ fs.map BaMark.up)) :
    [.ended pending, .up f].Sublist t ∨ (.ended pending ∈ t ∧ f ∈ fs) := by
  obtain ⟨l₁, l₂, hl, h₁, h₂⟩ := List.sublist_append_iff.mp h
  rcases l₁ with _ | ⟨x, _ | ⟨y, l₁⟩⟩
  · subst hl
    have hmem := h₂.subset List.mem_cons_self
    simp at hmem
  · simp only [List.cons_append, List.nil_append, List.cons.injEq] at hl
    obtain ⟨rfl, rfl⟩ := hl
    have hmem := h₂.subset List.mem_cons_self
    rw [List.mem_map_of_injective (fun _ _ => BaMark.up.inj)] at hmem
    exact Or.inr ⟨h₁.subset List.mem_cons_self, hmem⟩
  · simp only [List.cons_append, List.cons.injEq] at hl
    obtain ⟨rfl, rfl, hl⟩ := hl
    rw [(List.append_eq_nil_iff.mp hl.symm).1] at h₁
    exact Or.inl h₁

theorem sublist_ups₃ (h : [.ended pending, .up f, .up g].Sublist (t ++ fs.map BaMark.up)) :
    [.ended pending, .up f, .up g].Sublist t ∨
      ([.ended pending, .up f].Sublist t ∧ g ∈ fs) ∨ (.ended pending ∈ t ∧ [f, g].Sublist fs) := by
  obtain ⟨l₁, l₂, hl, h₁, h₂⟩ := List.sublist_append_iff.mp h
  rcases l₁ with _ | ⟨x, _ | ⟨y, _ | ⟨z, l₁⟩⟩⟩
  · subst hl
    have hmem := h₂.subset List.mem_cons_self
    simp at hmem
  · simp only [List.cons_append, List.nil_append, List.cons.injEq] at hl
    obtain ⟨rfl, rfl⟩ := hl
    obtain ⟨l, hsub, hmap⟩ := List.sublist_map_iff.mp h₂
    have hinj : Function.Injective BaMark.up := fun _ _ => BaMark.up.inj
    have hfg : [f, g] = l := hinj.list_map hmap
    exact Or.inr (Or.inr ⟨h₁.subset List.mem_cons_self, hfg ▸ hsub⟩)
  · simp only [List.cons_append, List.nil_append, List.cons.injEq] at hl
    obtain ⟨rfl, rfl, rfl⟩ := hl
    have hmem := h₂.subset List.mem_cons_self
    rw [List.mem_map_of_injective (fun _ _ => BaMark.up.inj)] at hmem
    exact Or.inr (Or.inl ⟨h₁, hmem⟩)
  · simp only [List.cons_append, List.cons.injEq] at hl
    obtain ⟨rfl, rfl, rfl, hl⟩ := hl
    rw [(List.append_eq_nil_iff.mp hl.symm).1] at h₁
    exact Or.inl h₁

/-- What ends with a frame going up does not need the mark behind it. -/
theorem sublist_mark {l : List BaMark} {p : List RecvFrame}
    (h : (l ++ [BaMark.up g]).Sublist (t ++ [BaMark.ended p])) :
    (l ++ [BaMark.up g]).Sublist t := by
  obtain ⟨l₁, l₂, hl, h₁, h₂⟩ := List.sublist_append_iff.mp h
  rcases List.sublist_singleton.mp h₂ with rfl | rfl
  · rw [List.append_nil] at hl
    exact hl ▸ h₁
  · have hlast := congrArg List.getLast? hl
    simp at hlast

end Marks

/-! ## 6. Every run -/

/-- What went up in a session is in order. -/
theorem OfSession.chain {fs : List RecvFrame} (h : OfSession ctrl fs b) :
    (fs.map (·.attrib.seqNum)).IsChain (Before 4096) := by
  rcases h with ⟨-, rfl⟩ | ⟨out, hs, rfl⟩
  · exact List.isChain_nil
  · exact chain_of_positions (List.isChain_append.mp hs.good.chain).1 hs.seq

/-- A DELBA clears `enable`; any other frame changes nothing. -/
theorem onActionBack_cases (g : BackGuard) (frameBody : List UInt8) (tid : Nat) (s : BaCtrl) :
    onActionBack g frameBody tid s = s ∨
      onActionBack g frameBody tid s = ⟨{ s.ctrl with enable := false }, rxAmpduSizeInvalid⟩ := by
  unfold onActionBack
  repeat' split
  all_goals first
    | exact Or.inl rfl
    | exact Or.inr rfl

namespace BaRun

variable {s : BaRun}

/-- **The invariant of a run.** -/
structure Inv (s : BaRun) : Prop where
  held : ∃ b, Held 64 s.ba.ctrl b ∧
    (s.enable = true → ∃ fs t, s.sessions = fs :: t ∧ OfSession s.ba.ctrl fs b)
  sessions : ∀ fs ∈ s.sessions, (fs.map (·.attrib.seqNum)).IsChain (Before 4096)
  fresh : ∀ g ∈ s.queue, g.id < s.calls
  marks : ∀ pending, .ended pending ∈ s.trace → ∀ g ∈ pending, g.id < s.calls
  kept : ∀ pending f g, [.ended pending, .up f].Sublist s.trace → g ∈ pending → g ∈ s.queue →
    ¬Later f g
  ends : ∀ pending f g, [.ended pending, .up f, .up g].Sublist s.trace → g ∈ pending → ¬Later f g

theorem inv_start : start.Inv where
  held := by
    refine ⟨⟨0, []⟩, ⟨good_start 64 2048 0, rfl, nofun, nofun, rfl, ?_⟩, nofun⟩
    exact ⟨fun hne => absurd rfl hne, nofun, fun _ => rfl⟩
  sessions := nofun
  fresh := nofun
  marks := nofun
  kept _ _ _ h := by cases h
  ends _ _ _ h := by cases h

/-- **A call keeps the invariant**, whether it is an arrival or an expiry. -/
theorem Inv.call (h : s.Inv) {ups : List RecvFrame} {ctrl : RecvReorderCtrl}
    {b' : Buffer RecvFrame} (hcall : Call 64 s.ba.ctrl s.calls ups ctrl b')
    (hsession : s.enable = true → ∃ fs t, s.sessions = fs :: t ∧ OfSession ctrl (fs ++ ups) b') :
    Inv
      { ba := { s.ba with ctrl := ctrl }
        calls := s.calls + 1
        sessions := s.record ups
        trace := s.trace ++ ups.map .up } := by
  have hknown : ∀ pending, .ended pending ∈ s.trace → ∀ g ∈ pending,
      g ∈ ups ++ ctrl.pendingRecvframeQueue → g ∈ s.queue := by
    intro pending hmark g hg hmem
    have hfresh := h.marks pending hmark g hg
    exact (hcall.known g hmem).resolve_right (Nat.ne_of_lt hfresh)
  obtain ⟨hups, -, hcross⟩ := List.pairwise_append.mp hcall.line
  refine ⟨⟨b', hcall.held, fun henable => ?_⟩, ?_, ?_, ?_, ?_, ?_⟩
  · have henable' : s.enable = true := hcall.enable.symm.trans henable
    obtain ⟨fs, t, hfs, hof⟩ := hsession henable'
    refine ⟨fs ++ ups, t, ?_, hof⟩
    unfold record
    rw [henable', hfs]
  · unfold record
    split
    · rename_i session t henable hsessions
      obtain ⟨fs, t', hfs, hof⟩ := hsession henable
      rw [hsessions] at hfs
      cases hfs
      intro fs hfs
      rcases List.mem_cons.mp hfs with rfl | hfs
      · exact hof.chain
      · exact h.sessions fs (by rw [hsessions]; exact List.mem_cons_of_mem session hfs)
    · exact h.sessions
  · intro g hg
    rcases hcall.known g (List.mem_append_right _ hg) with hold | hnew
    · exact Nat.lt_succ_of_lt (h.fresh g hold)
    · exact hnew ▸ Nat.lt_succ_self g.id
  · intro pending hmark g hg
    rcases List.mem_append.mp hmark with hmark | hmark
    · exact Nat.lt_succ_of_lt (h.marks pending hmark g hg)
    · obtain ⟨f, -, hf⟩ := List.mem_map.mp hmark
      cases hf
  · intro pending f g hsub hg hqueue
    rcases sublist_ups₂ hsub with hsub | ⟨hmark, hf⟩
    · have hmark := hsub.subset List.mem_cons_self
      have hold := hknown pending hmark g hg (List.mem_append_right _ hqueue)
      exact h.kept pending f g hsub hg hold
    · exact hcross f hf g hqueue
  · intro pending f g hsub hg
    rcases sublist_ups₃ hsub with hsub | ⟨hsub, hgup⟩ | ⟨-, hsub⟩
    · exact h.ends pending f g hsub hg
    · have hmark := hsub.subset List.mem_cons_self
      have hold := hknown pending hmark g hg (List.mem_append_left _ hgup)
      exact h.kept pending f g hsub hg hold
    · exact List.rel_of_pairwise_cons (hups.sublist hsub) List.mem_cons_self

/-- **A session that begins or ends keeps the invariant**: the queue stays as it is. -/
theorem Inv.mark (h : s.Inv) {ba : BaCtrl} {sessions : List (List RecvFrame)} {ends : Bool}
    {b : Buffer RecvFrame} (hheld : Held 64 ba.ctrl b)
    (hqueue : ba.ctrl.pendingRecvframeQueue = s.queue)
    (hsession : ba.ctrl.enable = true →
      ∃ fs t, sessions = fs :: t ∧ OfSession ba.ctrl fs b)
    (hchain : ∀ fs ∈ sessions, (fs.map (·.attrib.seqNum)).IsChain (Before 4096)) :
    Inv { s with ba := ba, sessions := sessions, trace := s.trace ++ s.endMark ends } := by
  have hmark : s.endMark ends = [] ∨ s.endMark ends = [.ended s.queue] := by
    unfold endMark
    split
    · exact Or.inr rfl
    · exact Or.inl rfl
  have hsub : ∀ (l : List BaMark) g,
      (l ++ [BaMark.up g]).Sublist (s.trace ++ s.endMark ends) →
      (l ++ [BaMark.up g]).Sublist s.trace := by
    intro l g hl
    rcases hmark with hm | hm
    · rw [hm, List.append_nil] at hl
      exact hl
    · rw [hm] at hl
      exact sublist_mark hl
  refine ⟨⟨b, hheld, hsession⟩, hchain, ?_, ?_, ?_, ?_⟩
  · intro g hg
    exact h.fresh g (hqueue ▸ hg)
  · intro pending hmem g hg
    rcases List.mem_append.mp hmem with hmem | hmem
    · exact h.marks pending hmem g hg
    · rcases hmark with hm | hm
      · rw [hm] at hmem
        cases hmem
      · rw [hm, List.mem_singleton, BaMark.ended.injEq] at hmem
        exact h.fresh g (hmem ▸ hg)
  · intro pending f g hl hg hmem
    exact h.kept pending f g (hsub [.ended pending] f hl) hg (hqueue ▸ hmem)
  · intro pending f g hl hg
    exact h.ends pending f g (hsub [.ended pending, .up f] g hl) hg

/-- **One event keeps the invariant**, if it is harmless. -/
theorem Inv.step (h : s.Inv) (tid : Nat) (e : BaEvent) (hok : s.Harmless e) :
    (s.step tid e).Inv := by
  obtain ⟨b, hheld, hsession⟩ := h.held
  cases e with
  | addba accept size =>
    cases accept with
    | true =>
      refine h.mark (b := b) ⟨hheld.good, hheld.queue, hheld.seq, hheld.flags, hheld.wsize, ?_⟩
        rfl (fun _ => ⟨[], s.sessions, rfl, Or.inl ⟨rfl, rfl⟩⟩) ?_
      · exact ⟨hheld.armed.pending, hheld.armed.waiting, hheld.armed.idle⟩
      · intro fs hfs
        rcases List.mem_cons.mp hfs with rfl | hfs
        · exact List.isChain_nil
        · exact h.sessions fs hfs
    | false =>
      refine h.mark (b := b) ⟨hheld.good, hheld.queue, hheld.seq, hheld.flags, hheld.wsize, ?_⟩
        rfl nofun h.sessions
      exact ⟨hheld.armed.pending, hheld.armed.waiting, hheld.armed.idle⟩
  | action g frameBody =>
    unfold BaRun.step
    dsimp only
    rcases onActionBack_cases g frameBody tid s.ba with hsame | hdelba
    · rw [hsame]
      exact h.mark hheld rfl hsession h.sessions
    · rw [hdelba]
      refine h.mark (b := b) ⟨hheld.good, hheld.queue, hheld.seq, hheld.flags, hheld.wsize, ?_⟩
        rfl nofun h.sessions
      exact ⟨hheld.armed.pending, hheld.armed.waiting, hheld.armed.idle⟩
  | arrival a f =>
    cases henable : s.enable with
    | true =>
      obtain ⟨ha, hcont⟩ := hok.2 henable
      obtain ⟨fs, t, hfs, hof⟩ := hsession henable
      obtain ⟨b', hcall, hof'⟩ := hheld.arrival hof henable ha (by decide) (by decide)
        (f.numbered s.calls) hcont
      exact h.call hcall fun _ => ⟨fs, t, hfs, hof'⟩
    | false =>
      have hcall := hheld.direct henable (by decide) a (f.numbered s.calls) (hok.1 henable)
      refine h.call hcall fun hno => ?_
      rw [henable] at hno
      cases hno
  | expiry a =>
    obtain ⟨b', hcall, hof'⟩ := hheld.expiry (by decide) hok s.calls
    refine h.call hcall fun henable => ?_
    obtain ⟨fs, t, hfs, hof⟩ := hsession henable
    exact ⟨fs, t, hfs, hof' fs hof⟩

end BaRun

/-- **Sessions neither reorder nor strand frames**, as long as no frame that comes without a
session is later than a pending one, the first frame of a session continues what is pending,
and the adapter runs. -/
theorem sessions_in_order {tid : Nat} {s : BaRun} (hrun : BaSteps tid s) : s.InOrder := by
  have hinv : s.Inv := by
    induction hrun with
    | start => exact BaRun.inv_start
    | step _ e hok ih => exact ih.step tid e hok
  refine ⟨hinv.sessions, hinv.ends, fun _ => ?_⟩
  obtain ⟨b, hheld, -⟩ := hinv.held
  by_cases hq : s.queue = []
  · exact Or.inl hq
  · exact Or.inr (hheld.armed.pending hq)

/-- A data frame that carries an A-MSDU, which goes up without a conversion. -/
def amsduFrame (id seqNum : Nat) : RecvFrame :=
  { qosFrame id seqNum with attrib := { (qosFrame id seqNum).attrib with amsdu := 1 } }

def amsduArrival (seqNum : Nat) (h : seqNum < 4096) : BaEvent :=
  .arrival runningAdapter ⟨amsduFrame 0 seqNum, rfl, h, Nat.le_refl 1⟩

/-- A DELBA of the originator for TID 0. -/
def delba : BaEvent := .action ⟨true, false, true, true, true⟩ [3, 2, 0, 0x08, 0, 0]

/-- A session that has seen 5 and 7 when the DELBA comes. -/
def atDelba : BaRun :=
  [.addba true 64, amsduArrival 5 (by decide), amsduArrival 7 (by decide), delba].foldl
    (BaRun.step 0) BaRun.start

/-- The missing frame comes without a session, and the timer lets go of the pending one. -/
theorem sessions_in_order_missing :
    (((atDelba.step 0 (amsduArrival 6 (by decide))).step 0 (.expiry runningAdapter)).trace
      = [.up (amsduFrame 0 5), .ended [amsduFrame 1 7], .up (amsduFrame 2 6),
          .up (amsduFrame 1 7)]) ∧
    ((atDelba.step 0 (amsduArrival 6 (by decide))).step 0 (.expiry runningAdapter)).InOrder := by
  have hbegun : BaSteps 0 (BaRun.start.step 0 (.addba true 64)) := BaSteps.start.step _ trivial
  have hfirst := hbegun.step (amsduArrival 5 (by decide)) (by decide +kernel)
  have hsecond := hfirst.step (amsduArrival 7 (by decide)) (by decide +kernel)
  have hdelba : BaSteps 0 atDelba := hsecond.step delba trivial
  have hmissing := hdelba.step (amsduArrival 6 (by decide)) (by decide +kernel)
  have hexpired := hmissing.step (.expiry runningAdapter) (by decide +kernel)
  exact ⟨by decide +kernel, sessions_in_order hexpired⟩

/-- **The next frame goes up before the pending one.** -/
theorem delba_reorders :
    (((atDelba.step 0 (amsduArrival 8 (by decide))).step 0 (.expiry runningAdapter)).trace
      = [.up (amsduFrame 0 5), .ended [amsduFrame 1 7], .up (amsduFrame 2 8),
          .up (amsduFrame 1 7)]) ∧
    ¬((atDelba.step 0 (amsduArrival 8 (by decide))).step 0 (.expiry runningAdapter)).InOrder := by
  have htrace : ((atDelba.step 0 (amsduArrival 8 (by decide))).step 0
      (.expiry runningAdapter)).trace = [.up (amsduFrame 0 5), .ended [amsduFrame 1 7],
        .up (amsduFrame 2 8), .up (amsduFrame 1 7)] := by decide +kernel
  refine ⟨htrace, fun h => ?_⟩
  have hends := h.ends [amsduFrame 1 7] (amsduFrame 2 8) (amsduFrame 1 7)
  rw [htrace] at hends
  exact absurd (hends (List.sublist_cons_self _ _) (List.mem_singleton.mpr rfl)) (by decide +kernel)

end Rtl8723bs
