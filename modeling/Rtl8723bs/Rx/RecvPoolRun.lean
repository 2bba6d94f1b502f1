/-
# The pool of received frames along a run

Every function of the receive path takes a frame from the handler's hands and puts it on a queue
or gives it back, and what is left in the hands is what the handler goes on with.  The result is
`frames_conserved`; a management frame that is a last fragment is given back twice
(`last_fragment_freed_twice`).
-/
import Rtl8723bs.Rx.RecvCalls

namespace Rtl8723bs

open Shelves

/-! ## 1. The invariant holds along every run -/

namespace RecvPool

variable {s : RecvPool} {hands : List Nat} {f : RecvFrame}

/-- The tasklet goes on with what it has in hand. -/
theorem Holds.inv {p : RxPhase} (h : s.Holds (p.held.map (·.id)))
    (hflags : ∀ f ∈ p.held, f.Flags) : Inv { s with phase := p } :=
  ⟨h.congr rfl rfl rfl rfl rfl rfl rfl, hflags⟩

/-- `recv_func_posthandle` returns with nothing in hand. -/
theorem Holds.finish {waiting : Option RecvFrame} (h : s.Holds (waiting.toList.map (·.id)))
    (hflags : ∀ f ∈ waiting.toList, f.Flags) : Inv (s.finish waiting) := by
  cases waiting with
  | none => exact h.inv (p := .idle) hflags
  | some f => exact h.inv (p := .recvFunc f) hflags

theorem Holds.takeSwdec {waiting : Option RecvFrame} {s' : RecvPool}
    (h : s.Holds (waiting.toList.map (·.id))) (hflags : ∀ f ∈ waiting.toList, f.Flags)
    (htake : s.takeSwdec waiting = some s') : Inv s' := by
  unfold RecvPool.takeSwdec at htake
  split at htake
  · cases htake
  · rename_i p t hq
    cases htake
    have hp : ∀ g ∈ p :: t, g.Flags := hq ▸ h.swdec
    refine Holds.inv (s := { s with ucSwdecPendingQueue := t })
      (p := .posthandle waiting (.decryptor p)) (h.setSwdec ?_ ?_) ?_
    · rw [hq]
      simp only [RxPhase.held, PostStage.frame, List.map_append, List.map_cons, List.map_nil,
        List.cons_append]
      rw [← List.append_assoc]
      exact List.perm_append_singleton _ _
    · exact fun g hg => hp g (List.mem_cons_of_mem p hg)
    · intro g hg
      rcases List.mem_append.mp hg with hg | hg
      · exact hflags g hg
      · exact List.mem_singleton.mp hg ▸ hp p List.mem_cons_self

/-- A frame in hand is on no queue, so taking it off its queue does nothing. -/
theorem Holds.listDelete (h : s.Holds hands) {x : Nat} (hx : x ∈ hands) :
    (s.listDelete x).Holds hands := by
  have hoff : ∀ l : List RecvFrame, x ∉ l.map (·.id) → l.filter (·.id ≠ x) = l := by
    intro l hl
    rw [List.filter_eq_self]
    intro g hg
    simpa using fun hgx : g.id = x => hl (hgx ▸ List.mem_map.mpr ⟨g, hg, rfl⟩)
  have hplace : ∀ p, p ≠ .handler → x ∉ s.placed hands p :=
    fun p hp hmem => hp (h.kept.apart p .handler x hmem hx)
  refine h.congr ?_ rfl (hoff _ (hplace .swdec nofun)) ?_ ?_ rfl rfl
  · change s.freeRecvQueue.filter (· ≠ x) = s.freeRecvQueue
    rw [List.filter_eq_self]
    intro y hy
    simpa using fun hyx : y = x => h.not_free hx (hyx ▸ hy)
  · funext i
    exact hoff _ (hplace (.defrag i) nofun)
  · funext i tid
    have hqueue := hoff _ (hplace (.pending i tid) nofun)
    simp only [RecvPool.listDelete, hqueue]

theorem Holds.enqueueSwdec (h : s.Holds (f.id :: hands)) (hf : f.Flags) :
    (s.enqueueSwdec f).Holds hands := by
  have hdelete := h.listDelete List.mem_cons_self
  refine hdelete.setSwdec ?_ ?_
  · simp
  · intro g hg
    rcases List.mem_append.mp hg with hg | hg
    · exact hdelete.swdec g hg
    · exact List.mem_singleton.mp hg ▸ hf

theorem Holds.taken {i : StaId} {tid : Nat} {r : ReorderResult} (h : s.Holds (f.id :: hands))
    (htaken : Taken (s.recvreorderCtrl i tid) f r) :
    ((s.setReorderCtrl i tid r.ctrl).freeAll (goneUp r.deliveries)).Holds hands := by
  refine Holds.freeAll (h.setReorder ?_ htaken.2)
  have hall := htaken.1.append_right hands
  rw [List.append_assoc] at hall
  refine (List.perm_append_comm_assoc _ _ _).trans (hall.trans ?_)
  rw [List.cons_append]
  exact List.perm_middle.symm

theorem Holds.refused {i : StaId} {tid : Nat} {r : ReorderResult} (h : s.Holds hands)
    (hrefused : Refused (s.recvreorderCtrl i tid) r) :
    ((s.setReorderCtrl i tid r.ctrl).freeAll (goneUp r.deliveries)).Holds hands := by
  obtain ⟨hdel, hctrl⟩ := hrefused
  rw [hdel]
  refine Holds.freeAll (h.setReorder ?_ ?_)
  · rw [hctrl]
    exact List.Perm.refl _
  · rw [hctrl]
    exact h.pending i tid

theorem Holds.timeout (h : s.Holds hands) (a : Adapter) (i : StaId) (tid : Nat) :
    ((s.setReorderCtrl i tid (rtwReorderingCtrlTimeoutHandler a (s.recvreorderCtrl i tid)).2
      ).freeAll (goneUp (rtwReorderingCtrlTimeoutHandler a (s.recvreorderCtrl i tid)).1)
      ).Holds hands := by
  have hparts := rtwReorderingCtrlTimeoutHandler_parts a (h.pending i tid)
  refine Holds.freeAll (h.setReorder ?_ ?_)
  · rw [← hparts, List.map_append]
    exact (List.perm_append_comm_assoc _ _ _).trans (by rw [List.append_assoc])
  · intro x hx
    refine h.pending i tid x ?_
    rw [← hparts]
    exact List.mem_append_right _ hx

/-- A frame is taken from the free queue. -/
theorem Inv.arrive (h : s.Inv) (d : RxDesc) (buf : List UInt8) (rxData rxTail : Nat) :
    (s.arrive d buf rxData rxTail).Inv := by
  unfold RecvPool.arrive
  split
  · rename_i id t hphase hfree
    have hholds := h.holds
    rw [hphase] at hholds
    have hnodup := hholds.kept.nodup .free
    change s.freeRecvQueue.Nodup at hnodup
    rw [hfree] at hnodup
    refine ⟨⟨?_, ?_, ?_, hholds.swdec, hholds.defrag, hholds.pending⟩, ?_⟩
    · refine hholds.move (p := .free) nofun ?_ ?_
      · intro q hq hhand
        cases q <;> first | rfl | exact absurd rfl hq | exact absurd rfl hhand
      · simp [framesAt, RxPhase.held, hfree]
    · simp [hholds.cnt, hfree]
    · intro x hx
      have hbal := hholds.balance x hx
      rw [hfree] at hbal
      simp only
      rcases eq_or_ne x id with rfl | hne
      · rw [if_pos List.mem_cons_self] at hbal
        rw [Function.update_self, if_neg (List.nodup_cons.mp hnodup).1, hbal]
      · rw [Function.update_of_ne hne, hbal]
        simp [hne]
    · intro f hf
      rw [List.mem_singleton.mp hf]
      exact ⟨Bool.toNat_le _, Bool.toNat_le _⟩
  · exact h

/-- **One call of `recv_func`**, on a frame that is not one of those the code gives back twice
or loses. -/
theorem Holds.recvFunc (h : s.Holds [f.id]) (hf : f.Flags) {env : RecvEnv}
    (hok : s.Handles env → PrehandleOk env f) : (s.recvFunc env f).Inv := by
  have hhandle : PrehandleOk env f → (handleFrame env s f).Inv := by
    intro hpre
    have hpart := h.prehandle hf hpre
    unfold handleFrame
    generalize recvFuncPrehandle env s f = r at hpart ⊢
    obtain ⟨s', g'⟩ := r
    rcases hpart with ⟨hnone, hholds⟩ | ⟨g, hsome, hholds, hg⟩
    · dsimp only at hnone hholds
      rw [hnone]
      exact hholds.inv (p := .idle) nofun
    · dsimp only at hsome hholds
      rw [hsome]
      dsimp only
      split
      · have hidle : ({ s'.enqueueSwdec g with phase := .idle } : RecvPool).Inv :=
          (hholds.enqueueSwdec hg).inv (p := .idle) nofun
        split
        · cases htake : RecvPool.takeSwdec { s'.enqueueSwdec g with phase := .idle } none with
          | none => exact hidle
          | some s'' => exact Holds.takeSwdec hidle.holds (by simp) htake
        · exact hidle
      · exact hholds.inv (p := .posthandle none (.decryptor g))
          (by simpa [RxPhase.held, PostStage.frame] using hg)
  unfold RecvPool.recvFunc
  simp only
  by_cases hmonitor : checkFwstate env.rx.adapter wifiMonitorState = true
  · rw [if_pos hmonitor]
    exact (Holds.free h).inv (p := .idle) nofun
  rw [if_neg hmonitor]
  by_cases hdrain : checkFwstate env.rx.adapter wifiStationState = true ∧ env.busetkipkey = true
  · rw [if_pos hdrain]
    cases htake : s.takeSwdec (some f) with
    | some s' => exact Holds.takeSwdec h (by simpa using hf) htake
    | none =>
      refine hhandle (hok ⟨by simpa using hmonitor, ?_⟩)
      rintro ⟨-, -, hne⟩
      unfold RecvPool.takeSwdec at htake
      split at htake
      · rename_i hnil
        exact hne hnil
      · cases htake
  · rw [if_neg hdrain]
    exact hhandle (hok ⟨by simpa using hmonitor, fun h => hdrain ⟨h.1, h.2.1⟩⟩)

/-- **One call inside `recv_func_posthandle`.** -/
theorem Holds.recvFuncPosthandle {waiting : Option RecvFrame} {stage : PostStage}
    (h : s.Holds ((waiting.toList ++ [stage.frame]).map (·.id)))
    (hflags : ∀ f ∈ waiting.toList ++ [stage.frame], f.Flags) {env : RecvEnv}
    (hok : ∀ orig f, stage = .indicate orig f →
      IndicateOk env.rx.adapter env.htOption
        (s.recvreorderCtrl (s.preorderCtrl f.id).1 (s.preorderCtrl f.id).2) orig f) :
    (s.recvFuncPosthandle env waiting stage).Inv := by
  have hwait : ∀ f ∈ waiting.toList, f.Flags := fun f hf => hflags f (List.mem_append_left _ hf)
  have hframe : stage.frame.Flags := hflags _ (by simp)
  have hhands : ∀ x : Nat, (x :: waiting.toList.map (·.id)).Perm
      (waiting.toList.map (·.id) ++ [x]) := fun x => (List.perm_append_singleton x _).symm
  have hheld : s.Holds (stage.frame.id :: waiting.toList.map (·.id)) := by
    refine h.perm ?_
    rw [List.map_append]
    exact hhands _
  have hgoes : ∀ {t : RecvPool} (st : PostStage), t.Holds (st.frame.id :: waiting.toList.map (·.id)) →
      st.frame.Flags → Inv { t with phase := .posthandle waiting st } := by
    intro t st ht hst
    refine Holds.inv (p := .posthandle waiting st) (ht.perm ?_) ?_
    · simp only [RxPhase.held, List.map_append]
      exact (hhands _).symm
    · intro f hf
      rcases List.mem_append.mp hf with hf | hf
      · exact hwait f hf
      · exact List.mem_singleton.mp hf ▸ hst
  cases stage with
  | decryptor f =>
    obtain ⟨hid, hdec⟩ := decryptor_same env (f := f) hframe
    change s.Holds (f.id :: _) at hheld
    rw [← hid] at hheld
    unfold RecvPool.recvFuncPosthandle
    dsimp only
    split
    · rename_i g heq
      rw [heq] at hheld
      exact (Holds.free hheld).finish hwait
    · rename_i r g hne heq
      rw [heq] at hheld hdec
      exact hgoes (.chkDefrag g) hheld hdec
  | chkDefrag f =>
    have hstep := Holds.freeAll (Holds.chkDefrag hheld hframe env.mic env.rx.stas)
    have hret := (recvframeChkDefrag_flags env.mic env.rx.stas h.defrag hframe).2
    unfold RecvPool.recvFuncPosthandle
    dsimp only [PostStage.frame] at hstep hret ⊢
    generalize recvframeChkDefrag env.mic env.rx.stas s.defragQ f = r at hstep hret ⊢
    cases hr : r.ret with
    | none =>
      rw [hr] at hstep
      exact Holds.finish hstep hwait
    | some g =>
      rw [hr] at hstep
      exact hgoes (.portctrl f.id g) hstep (hret g hr)
  | portctrl orig f =>
    unfold RecvPool.recvFuncPosthandle
    dsimp only
    split
    · exact hgoes (.indicate orig f) hheld hframe
    · exact (Holds.free hheld).finish hwait
  | indicate orig f =>
    have hpend := h.pending (s.preorderCtrl f.id).1 (s.preorderCtrl f.id).2
    have hpart := processRecvIndicatepkts_parts hframe.2 hpend (hok orig f rfl)
    unfold RecvPool.recvFuncPosthandle
    dsimp only [PostStage.frame] at hpart ⊢
    rcases hpart with ⟨hret, htaken⟩ | ⟨horig, hret, hrefused⟩
    · rw [if_pos hret]
      exact (Holds.taken hheld htaken).finish hwait
    · rw [if_neg (by rw [hret]; exact nofun), horig]
      exact (Holds.free (Holds.refused hheld hrefused)).finish hwait

theorem phase_freeAll : ∀ (fs : List RecvFrame) (s : RecvPool), (s.freeAll fs).phase = s.phase
  | [], _ => rfl
  | _ :: t, _ => phase_freeAll t _

/-- Something happens beside the tasklet. -/
theorem Holds.beside {t : RecvPool} (hholds : t.Holds (s.phase.held.map (·.id)))
    (hphase : t.phase = s.phase) (hflags : ∀ f ∈ s.phase.held, f.Flags) : t.Inv :=
  ⟨hphase ▸ hholds, hphase ▸ hflags⟩

/-- **A step keeps the invariant.** -/
theorem Inv.step (h : s.Inv) {e : RxEvent} (hok : s.StepOk e) : (s.step e).Inv := by
  obtain ⟨hholds, hflags⟩ := h
  cases e with
  | arrive d buf rxData rxTail => exact Inv.arrive ⟨hholds, hflags⟩ d buf rxData rxTail
  | discard =>
    unfold RecvPool.step
    dsimp only
    split
    · rename_i f hphase
      rw [hphase] at hholds
      exact (Holds.free hholds).inv (p := .idle) nofun
    · exact ⟨hholds, hflags⟩
  | run env =>
    unfold StepOk at hok
    unfold RecvPool.step
    dsimp only at hok ⊢
    cases hphase : s.phase with
    | idle => exact ⟨hholds, hflags⟩
    | filled f =>
      rw [hphase] at hholds hflags
      exact hholds.inv (p := .recvFunc f) hflags
    | recvFunc f =>
      rw [hphase] at hholds hflags hok
      exact Holds.recvFunc hholds (hflags f List.mem_cons_self) hok
    | posthandle waiting stage =>
      rw [hphase] at hholds hflags hok
      refine Holds.recvFuncPosthandle hholds hflags ?_
      rintro orig f rfl
      exact hok
  | timeout a i tid =>
    exact Holds.beside (hholds.timeout a i tid) (phase_freeAll _ _) hflags
  | session i tid enable indicateSeq wsizeB =>
    exact Holds.beside (hholds.setReorder (List.Perm.refl _) (hholds.pending i tid)) rfl hflags
  | freeUcSwdec =>
    refine Holds.beside (Holds.freeAll (hholds.setSwdec ?_ nofun)) (phase_freeAll _ _) hflags
    simp

theorem inv_start : start.Inv := by
  refine ⟨⟨?_, by simp [start], ?_, nofun, fun _ => nofun, fun _ _ => nofun⟩, nofun⟩
  · have hplaced : start.placed (start.phase.held.map (·.id))
        = fun p => if p = .free then List.range nrRecvframe else [] := by
      funext p
      cases p <;> simp [placed, framesAt, start, RxPhase.held]
    rw [hplaced]
    exact kept_single List.nodup_range
  · intro id hid
    simp [start, hid]

/-- **The invariant holds along a run.** -/
theorem Inv.run : ∀ {l : List RxEvent} {s : RecvPool}, s.Inv → s.RunOk l → (s.run l).Inv
  | [], _, h, _ => h
  | _ :: es, _, h, hok => Inv.run (l := es) (h.step hok.1) hok.2

theorem RunOk.of_prefix : ∀ {p l : List RxEvent} {s : RecvPool}, p <+: l → s.RunOk l →
    s.RunOk p
  | [], _, _, _, _ => trivial
  | _ :: pre, _, _, ⟨post, rfl⟩, hok =>
    ⟨hok.1, RunOk.of_prefix (p := pre) ⟨post, rfl⟩ hok.2⟩

theorem Inv.conserved (h : s.Inv) : s.Conserved := by
  have hplaced : s.placed (s.phase.held.map (·.id)) = s.framesAt := by
    funext p
    cases p <;> rfl
  have hkept := h.holds.kept
  rw [hplaced] at hkept
  refine ⟨fun id hid => hkept.existsUnique (mem_stock.mpr hid), hkept.nodup, h.holds.balance,
    h.holds.cnt, ?_⟩
  have hsub : s.freeRecvQueue ⊆ List.range nrRecvframe :=
    fun x hx => (hkept.mem x).mpr ⟨.free, hx⟩
  have hlen := (hkept.nodup .free).length_le_of_subset hsub
  rw [List.length_range] at hlen
  rw [h.holds.cnt]
  exact hlen

/-- **The frames of the pool are conserved.**  In every run whose steps give back no frame twice
and lose none, every frame is at any time in exactly one place, given back once for each time it
was taken, and the counter is the length of the free queue. -/
theorem frames_conserved {es : List RxEvent} (hok : start.RunOk es) {pre : List RxEvent}
    (hpre : pre <+: es) : (start.run pre).Conserved :=
  (inv_start.run (RunOk.of_prefix hpre hok)).conserved

/-! ## 2. Two runs -/

/-- A station in the clear, not connected, with the broadcast entry alone. -/
def clearEnv : RecvEnv where
  rx :=
    { adapter := { (default : Adapter) with fwState := wifiStationState }
      stas := ⟨[(bcAddr, 0)], by decide⟩
      dot11AuthAlgrthm := .open_, dot11PrivacyAlgrthm := 0, dot118021XGrpPrivacy := 0
      dot118021XPrivacy := fun _ => 0 }
  mic := noMicKeys
  bcmc := rfl
  htOption := false
  busetkipkey := false
  swDecrypt := false
  ndisauthtype := 0
  ieee8021xBlocked := fun _ => false
  mpMode := false
  rxBindicatePkt := false
  wepDecrypt := fun f => f.buf
  tkipDecrypt := fun f => (.success, f.buf)
  aesDecrypt := fun f => (.success, f.buf)

/-- A descriptor of a frame in the clear. -/
def clearDesc : RxDesc := ⟨0, 0, 0, true, 0, false, false, 0, 0⟩

/-- An action frame arrives and is handled; `fragNum` is its fragment number, and no more
fragments follow. -/
def actionFrame (fragNum : UInt8) : List RxEvent :=
  [.arrive clearDesc (0xd0 :: List.replicate 21 0 ++ [fragNum, 0]) 0 24, .run clearEnv,
    .run clearEnv]

theorem frames_conserved_whole_action :
    start.RunOk (actionFrame 0) ∧ (start.run (actionFrame 0)).Conserved := by
  have hok : start.RunOk (actionFrame 0) := by
    refine ⟨trivial, trivial, ?_, trivial⟩
    intro _ _ _ _
    exact ⟨by decide, nofun⟩
  exact ⟨hok, frames_conserved hok (List.prefix_refl _)⟩

/-- **A management frame that is a last fragment is given back twice.**  The counter says 257. -/
theorem last_fragment_freed_twice : ¬(start.run (actionFrame 1)).Conserved := by
  intro h
  have hcnt : (start.run (actionFrame 1)).freeRecvframeCnt = 257 := by decide
  have hle := h.cnt_le
  rw [hcnt] at hle
  exact absurd hle (by decide)

end RecvPool

end Rtl8723bs
