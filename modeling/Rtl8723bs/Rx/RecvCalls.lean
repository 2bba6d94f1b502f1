/-
# What the calls of the receive path do with a frame

Each call is given a frame and puts it on one queue, returns it, frees it or, where it refuses
it, leaves it to its caller.  For the fragment queues, the check of a new frame and the
indication this is said in terms of the lists before and after, and then of the hands.
-/
import Rtl8723bs.Rx.RecvHands

namespace Rtl8723bs

open Shelves

/-! ## 1. The fragment queues -/

/-- What `recvframe_chk_defrag` is given is on the owner's queue, freed or returned. -/
theorem recvframeDefrag_parts (l : List RecvFrame) :
    ((recvframeDefrag l).2.map (·.id) ++ (recvframeDefrag l).1.toList.map (·.id)).Perm
      (l.map (·.id)) := by
  cases l with
  | nil => exact List.Perm.refl _
  | cons f t =>
    simp only [recvframeDefrag]
    split
    · simp
    · split
      · simp
      · rename_i joined hloop
        have hid := defragLoop_id 1 f t hloop
        simp only [Option.toList_some, List.map_cons, List.map_nil, hid]
        exact List.perm_append_singleton _ _

theorem attrib_orSelf_pullTail (f : RecvFrame) (sz : Nat) :
    (f.orSelf (f.pullTail sz)).attrib = f.attrib := by
  unfold RecvFrame.orSelf RecvFrame.pullTail
  split <;> rfl

theorem attrib_orSelf_put (f : RecvFrame) (sz : Nat) :
    (f.orSelf (f.put sz)).attrib = f.attrib := by
  unfold RecvFrame.orSelf RecvFrame.put
  split <;> rfl

/-- Only the length of the ICV is taken over from the fragment appended. -/
theorem appendFragment_flags {f g : RecvFrame} (hf : f.Flags) : (appendFragment f g).Flags := by
  unfold appendFragment
  simp only
  generalize g.orSelf (g.pull (g.attrib.hdrlen + g.attrib.ivLen : Nat)) = pnext
  have htail := attrib_orSelf_pullTail f f.attrib.icvLen
  generalize f.orSelf (f.pullTail f.attrib.icvLen) = f₁ at htail ⊢
  have hput := attrib_orSelf_put (f₁.memcpy f₁.rxTail (readBytes pnext.mem 0 pnext.len)) pnext.len
  rw [show (f₁.memcpy f₁.rxTail (readBytes pnext.mem 0 pnext.len)).attrib = f₁.attrib from rfl,
    htail] at hput
  unfold RecvFrame.Flags
  simp only [hput]
  exact hf

theorem defragLoop_flags : ∀ (n : Nat) (f : RecvFrame) (l : List RecvFrame) {g : RecvFrame},
    f.Flags → defragLoop n f l = some g → g.Flags
  | _, _, [], _, hf, h => by
    cases h
    exact hf
  | n, f, p :: t, _, hf, h => by
    simp only [defragLoop] at h
    split at h
    · cases h
    · exact defragLoop_flags _ _ t (appendFragment_flags hf) h

theorem recvframeDefrag_flags {l : List RecvFrame} (hl : ∀ f ∈ l, f.Flags) :
    ∀ g ∈ (recvframeDefrag l).1, g.Flags := by
  have hnone : ∀ g ∈ (none : Option RecvFrame), g.Flags := by simp
  cases l with
  | nil => exact hnone
  | cons f t =>
    simp only [recvframeDefrag]
    split
    · exact hnone
    · split
      · exact hnone
      · rename_i joined hloop
        rintro g hg
        rw [← Option.some.inj hg]
        exact defragLoop_flags 1 f t (hl f List.mem_cons_self) hloop

/-- **What one call of `recvframe_chk_defrag` does with a frame.**  It goes to one queue, and
what leaves the queue is freed or returned. -/
theorem chkDefragQueue_parts (t : StaTable) (q : StaId → List RecvFrame) {f : RecvFrame}
    (hm : f.attrib.mfrag ≤ 1) :
    ∃ i, (∀ j, j ≠ i → (chkDefragQueue t q f).defragQ j = q j) ∧
      ((((chkDefragQueue t q f).defragQ i).map (·.id)) ++
        ((chkDefragQueue t q f).freed.map (·.id) ++
          (chkDefragQueue t q f).ret.toList.map (·.id))).Perm ((q i).map (·.id) ++ [f.id]) := by
  unfold chkDefragQueue
  by_cases h1 : f.attrib.mfrag = 1
  · rw [if_pos h1]
    cases howner : defragOwner t f with
    | none => exact ⟨0, fun _ _ => rfl, by simp⟩
    | some i =>
      by_cases hz : f.attrib.fragNum = 0
      · simp only [hz, if_true]
        refine ⟨i, fun j hj => Function.update_of_ne hj _ _, ?_⟩
        rw [Function.update_self]
        simpa using (List.perm_append_singleton f.id ((q i).map (·.id))).symm
      · simp only [hz, if_false]
        refine ⟨i, fun j hj => Function.update_of_ne hj _ _, ?_⟩
        simp
  · have h0 : f.attrib.mfrag = 0 := by omega
    rw [if_neg h1]
    by_cases hlast : f.attrib.mfrag = 0 ∧ f.attrib.fragNum ≠ 0
    · rw [if_pos hlast]
      cases howner : defragOwner t f with
      | none => exact ⟨0, fun _ _ => rfl, by simp⟩
      | some i =>
        refine ⟨i, fun j hj => Function.update_of_ne hj _ _, ?_⟩
        simpa using recvframeDefrag_parts (q i ++ [f])
    · rw [if_neg hlast, if_pos h0]
      exact ⟨0, fun _ _ => rfl, by simp⟩

theorem chkDefragQueue_flags (t : StaTable) {q : StaId → List RecvFrame} {f : RecvFrame}
    (hq : ∀ i, ∀ g ∈ q i, g.Flags) (hf : f.Flags) :
    (∀ i, ∀ g ∈ (chkDefragQueue t q f).defragQ i, g.Flags) ∧
      ∀ g ∈ (chkDefragQueue t q f).ret, g.Flags := by
  have hsnoc : ∀ i, ∀ g ∈ q i ++ [f], g.Flags := by
    intro i g hg
    rcases List.mem_append.mp hg with hg | hg
    · exact hq i g hg
    · exact List.mem_singleton.mp hg ▸ hf
  have hupdate : ∀ i (v : List RecvFrame), (∀ g ∈ v, g.Flags) →
      ∀ j, ∀ g ∈ Function.update q i v j, g.Flags := by
    intro i v hv j g hg
    rcases eq_or_ne j i with rfl | hji
    · rw [Function.update_self] at hg
      exact hv g hg
    · rw [Function.update_of_ne hji] at hg
      exact hq j g hg
  unfold chkDefragQueue
  split
  · split
    · exact ⟨hq, nofun⟩
    · split
      · exact ⟨hupdate _ _ (fun g hg => List.mem_singleton.mp hg ▸ hf), nofun⟩
      · exact ⟨hupdate _ _ (hsnoc _), nofun⟩
  · split
    · split
      · exact ⟨hq, nofun⟩
      · exact ⟨hupdate _ _ nofun, recvframeDefrag_flags (hsnoc _)⟩
    · split
      · refine ⟨hq, ?_⟩
        intro g hg
        rw [← Option.some.inj hg]
        exact hf
      · exact ⟨hq, nofun⟩

theorem recvframeChkmic_attrib (k : MicKeys) (t : StaTable) (f : RecvFrame) :
    (recvframeChkmic k t f).2.attrib = f.attrib := by
  unfold recvframeChkmic
  split
  · split
    · exact attrib_orSelf_pullTail f 8
    · split
      · rfl
      · exact attrib_orSelf_pullTail f 8
  · rfl

/-- The MIC check passes the result on, or frees it. -/
theorem recvframeChkDefrag_eq (k : MicKeys) (t : StaTable) (q : StaId → List RecvFrame)
    (f : RecvFrame) :
    recvframeChkDefrag k t q f = chkDefragQueue t q f ∨
    ∃ g g', (chkDefragQueue t q f).ret = some g ∧ g'.id = g.id ∧ g'.attrib = g.attrib ∧
      (recvframeChkDefrag k t q f = { chkDefragQueue t q f with ret := some g' } ∨
        (g.attrib.privacy ≠ 0 ∧ (recvframeChkmic k t g).1 = .fail ∧
          recvframeChkDefrag k t q f =
            ⟨none, (chkDefragQueue t q f).defragQ, (chkDefragQueue t q f).freed ++ [g']⟩)) := by
  unfold recvframeChkDefrag
  simp only
  split
  · exact Or.inl rfl
  · rename_i g hret
    split
    · rename_i hprivacy
      refine Or.inr ⟨g, (recvframeChkmic k t g).2, hret, recvframeChkmic_id k t g,
        recvframeChkmic_attrib k t g, ?_⟩
      split
      · rename_i g' hmic
        rw [hmic]
        exact Or.inr ⟨hprivacy, rfl, rfl⟩
      · rename_i r g' hne hmic
        rw [hmic]
        exact Or.inl rfl
    · exact Or.inl rfl

theorem recvframeChkDefrag_parts (k : MicKeys) (t : StaTable) (q : StaId → List RecvFrame)
    {f : RecvFrame} (hm : f.attrib.mfrag ≤ 1) :
    ∃ i, (∀ j, j ≠ i → (recvframeChkDefrag k t q f).defragQ j = q j) ∧
      ((((recvframeChkDefrag k t q f).defragQ i).map (·.id)) ++
        ((recvframeChkDefrag k t q f).freed.map (·.id) ++
          (recvframeChkDefrag k t q f).ret.toList.map (·.id))).Perm
            ((q i).map (·.id) ++ [f.id]) := by
  obtain ⟨i, hout, hperm⟩ := chkDefragQueue_parts t q hm
  refine ⟨i, ?_⟩
  rcases recvframeChkDefrag_eq k t q f with heq | ⟨g, g', hret, hid, -, heq | ⟨-, -, heq⟩⟩
  · rw [heq]
    exact ⟨hout, hperm⟩
  · rw [heq]
    rw [hret] at hperm
    exact ⟨hout, by simpa [hid] using hperm⟩
  · rw [heq]
    rw [hret] at hperm
    exact ⟨hout, by simpa [hid] using hperm⟩

theorem recvframeChkDefrag_flags (k : MicKeys) (t : StaTable) {q : StaId → List RecvFrame}
    {f : RecvFrame} (hq : ∀ i, ∀ g ∈ q i, g.Flags) (hf : f.Flags) :
    (∀ i, ∀ g ∈ (recvframeChkDefrag k t q f).defragQ i, g.Flags) ∧
      ∀ g ∈ (recvframeChkDefrag k t q f).ret, g.Flags := by
  obtain ⟨hqueue, hret⟩ := chkDefragQueue_flags t hq hf
  rcases recvframeChkDefrag_eq k t q f with heq | ⟨g, g', hg, -, hat, heq | ⟨-, -, heq⟩⟩
  · rw [heq]
    exact ⟨hqueue, hret⟩
  · rw [heq]
    refine ⟨hqueue, ?_⟩
    intro x hx
    rw [← Option.some.inj hx]
    unfold RecvFrame.Flags
    rw [hat]
    exact hret g (hg ▸ rfl)
  · rw [heq]
    exact ⟨hqueue, nofun⟩

namespace RecvPool

variable {s : RecvPool} {hands : List Nat} {f : RecvFrame}

/-- The frame goes through `recvframe_chk_defrag`; what it returns is in hand. -/
theorem Holds.chkDefrag (h : s.Holds (f.id :: hands)) (hf : f.Flags) (k : MicKeys)
    (t : StaTable) :
    Holds { s with defragQ := (recvframeChkDefrag k t s.defragQ f).defragQ }
      ((recvframeChkDefrag k t s.defragQ f).freed.map (·.id) ++
        ((recvframeChkDefrag k t s.defragQ f).ret.toList.map (·.id) ++ hands)) := by
  obtain ⟨i, hout, hperm⟩ := recvframeChkDefrag_parts k t s.defragQ hf.1
  refine h.setDefrag hout ?_ ((recvframeChkDefrag_flags k t h.defrag hf).1 i)
  have hall := hperm.append_right hands
  simpa only [List.append_assoc, List.singleton_append] using hall

end RecvPool

/-! ## 2. The check of a new frame -/

/-- The same pool entry, with the same fragment flag. -/
def SameEntry (f g : RecvFrame) : Prop := g.id = f.id ∧ g.attrib.mfrag = f.attrib.mfrag

theorem sta2staLookup_same (env : RxEnv) (f : RecvFrame) (addr : Option MacAddr) :
    (sta2staLookup env f addr).frame = f := by
  unfold sta2staLookup
  simp only
  split <;> rfl

theorem sta2staDataFrame_same (env : RxEnv) (f : RecvFrame) :
    SameEntry f (sta2staDataFrame env f).frame := by
  unfold sta2staDataFrame
  simp only
  split_ifs <;> first
    | exact ⟨rfl, rfl⟩
    | (rw [sta2staLookup_same]; exact ⟨rfl, rfl⟩)
    | (split <;> exact ⟨rfl, rfl⟩)

theorem ap2staDataFrame_same (env : RxEnv) (f : RecvFrame) :
    SameEntry f (ap2staDataFrame env f).frame := by
  unfold ap2staDataFrame
  simp only
  split_ifs <;> first
    | exact ⟨rfl, rfl⟩
    | (split <;> exact ⟨rfl, rfl⟩)

theorem sta2apDataFrame_same (env : RxEnv) (f : RecvFrame) :
    SameEntry f (sta2apDataFrame env f).frame := by
  unfold sta2apDataFrame
  simp only
  split_ifs <;> first
    | exact ⟨rfl, rfl⟩
    | (split <;> exact ⟨rfl, rfl⟩)

theorem dataRoute_same (env : RxEnv) (f : RecvFrame) : SameEntry f (dataRoute env f).frame := by
  unfold dataRoute
  simp only
  split
  · exact sta2staDataFrame_same env _
  · exact ap2staDataFrame_same env _
  · exact sta2apDataFrame_same env _
  · exact ⟨rfl, rfl⟩

theorem parseQc_same (f : RecvFrame) :
    SameEntry f (parseQc f) ∧ (parseQc f).attrib.amsdu ≤ 1 := by
  unfold parseQc
  simp only
  split_ifs <;> exact ⟨⟨rfl, rfl⟩, by first | exact getAMsdu_le_one _ _ | exact Nat.zero_le 1⟩

theorem setEncrypt_same (env : RxEnv) (i : StaId) (f : RecvFrame) :
    SameEntry f (setEncrypt env i f) ∧ (setEncrypt env i f).attrib.amsdu = f.attrib.amsdu := by
  unfold setEncrypt
  split_ifs <;> exact ⟨⟨rfl, rfl⟩, rfl⟩

/-- A validated data frame is the entry it was, and `amsdu` is a flag. -/
theorem validateRecvDataFrame_same (env : RxEnv) (s : ReplayState) (f : RecvFrame) :
    SameEntry f (validateRecvDataFrame env s f).frame ∧
      ((validateRecvDataFrame env s f).ret = .success →
        (validateRecvDataFrame env s f).frame.attrib.amsdu ≤ 1) := by
  have hroute := dataRoute_same env f
  obtain ⟨hqc, hamsdu⟩ := parseQc_same (dataRoute env f).frame
  have hparsed : SameEntry f (parseQc (dataRoute env f).frame) :=
    ⟨hqc.1.trans hroute.1, hqc.2.trans hroute.2⟩
  have hdone : ∀ i, SameEntry f (setEncrypt env i (parseQc (dataRoute env f).frame)) ∧
      (setEncrypt env i (parseQc (dataRoute env f).frame)).attrib.amsdu ≤ 1 := by
    intro i
    obtain ⟨henc, hsame⟩ := setEncrypt_same env i (parseQc (dataRoute env f).frame)
    exact ⟨⟨henc.1.trans hparsed.1, henc.2.trans hparsed.2⟩, hsame ▸ hamsdu⟩
  unfold validateRecvDataFrame
  simp only
  split
  · exact ⟨hroute, nofun⟩
  · exact ⟨hroute, nofun⟩
  · exact ⟨hroute, nofun⟩
  · rename_i psta _ _
    split
    · exact ⟨hparsed, nofun⟩
    · split
      · split
        · exact ⟨hparsed, nofun⟩
        · exact ⟨(hdone psta).1, fun _ => (hdone psta).2⟩
      · split
        · exact ⟨hparsed, nofun⟩
        · exact ⟨(hdone psta).1, fun _ => (hdone psta).2⟩

theorem readFrameControl_flags {f : RecvFrame} (hf : f.attrib.amsdu ≤ 1) :
    (readFrameControl f).Flags := ⟨Bool.toNat_le (getMFrag f.mem), hf⟩

/-- **`validate_recv_frame` leaves the queues alone**, but for a management frame, which goes
through `recvframe_chk_defrag` and is answered with `_FAIL`. -/
theorem validateRecvFrame_cases (env : RecvEnv) (replay : ReplayState)
    (q : StaId → List RecvFrame) {f : RecvFrame} (hf : f.Flags) :
    (frameVersion f = 0 ∧ getFrameType f.mem = wifiMgtType ∧
      validateRecvFrame env replay q f = ⟨.fail, readFrameControl f, none, replay,
        (recvframeChkDefrag env.mic env.rx.stas q (readFrameControl f)).defragQ,
        (recvframeChkDefrag env.mic env.rx.stas q (readFrameControl f)).freed⟩) ∨
    ((validateRecvFrame env replay q f).defragQ = q ∧
      (validateRecvFrame env replay q f).freed = [] ∧
      (validateRecvFrame env replay q f).frame.id = f.id ∧
      ((validateRecvFrame env replay q f).ret = .success →
        (validateRecvFrame env replay q f).frame.Flags)) := by
  have hread := readFrameControl_flags hf.2
  unfold validateRecvFrame
  simp only
  by_cases hver : frameVersion f ≠ 0
  · rw [if_pos hver]
    exact Or.inr ⟨rfl, rfl, rfl, nofun⟩
  rw [if_neg hver]
  by_cases hmgt : getFrameType f.mem = wifiMgtType
  · rw [if_pos hmgt]
    exact Or.inl ⟨not_not.mp hver, hmgt, rfl⟩
  rw [if_neg hmgt]
  by_cases hctrl : getFrameType f.mem = wifiCtrlType
  · rw [if_pos hctrl]
    exact Or.inr ⟨rfl, rfl, rfl, nofun⟩
  rw [if_neg hctrl]
  by_cases hdata : getFrameType f.mem = wifiDataType
  · rw [if_pos hdata]
    obtain ⟨hsame, hamsdu⟩ := validateRecvDataFrame_same env.rx replay
      { readFrameControl f with
        attrib := { (readFrameControl f).attrib with
          qos := if getFrameSubType f.mem &&& 0x80 ≠ 0 then 1 else 0 } }
    exact Or.inr ⟨rfl, rfl, hsame.1, fun hret => ⟨hsame.2.trans_le hread.1, hamsdu hret⟩⟩
  · rw [if_neg hdata]
    exact Or.inr ⟨rfl, rfl, rfl, nofun⟩

/-- A frame that is not a fragment and passes the MIC check touches no queue. -/
theorem recvframeChkDefrag_whole (k : MicKeys) (t : StaTable) (q : StaId → List RecvFrame)
    {f : RecvFrame} (hm : f.attrib.mfrag = 0) (hz : f.attrib.fragNum = 0)
    (hmic : f.attrib.privacy ≠ 0 → (recvframeChkmic k t f).1 ≠ .fail) :
    (recvframeChkDefrag k t q f).defragQ = q ∧ (recvframeChkDefrag k t q f).freed = [] := by
  have hqueue : chkDefragQueue t q f = ⟨some f, q, []⟩ := by simp [chkDefragQueue, hm, hz]
  rcases recvframeChkDefrag_eq k t q f with heq | ⟨g, g', hret, -, -, heq | ⟨hpriv, hfail, -⟩⟩
  · rw [heq, hqueue]
    exact ⟨rfl, rfl⟩
  · rw [heq, hqueue]
    exact ⟨rfl, rfl⟩
  · rw [hqueue] at hret
    obtain rfl := Option.some.inj hret
    exact absurd hfail (hmic hpriv)

/-- A fragment with more to come waits on its owner's queue. -/
theorem recvframeChkDefrag_more (k : MicKeys) (t : StaTable) (q : StaId → List RecvFrame)
    {f : RecvFrame} {i : StaId} (hm : f.attrib.mfrag = 1) (howner : defragOwner t f = some i) :
    (recvframeChkDefrag k t q f).ret = none ∧ f ∈ (recvframeChkDefrag k t q f).defragQ i := by
  have hqueue : (chkDefragQueue t q f).ret = none ∧ f ∈ (chkDefragQueue t q f).defragQ i := by
    unfold chkDefragQueue
    rw [if_pos hm, howner]
    simp only
    split
    · exact ⟨rfl, by simp⟩
    · exact ⟨rfl, by simp⟩
  rcases recvframeChkDefrag_eq k t q f with heq | ⟨g, g', hret, -, -, -⟩
  · rw [heq]
    exact hqueue
  · rw [hqueue.1] at hret
    cases hret

theorem defragOwner_mgmt (env : RecvEnv) {f : RecvFrame}
    (htype : getFrameType f.mem = wifiMgtType) :
    ∃ i, defragOwner env.rx.stas f = some i := by
  unfold defragOwner
  split
  · rename_i i _
    exact ⟨i, rfl⟩
  · rw [if_pos (by rw [htype]; decide)]
    exact Option.isSome_iff_exists.mp env.bcmc

namespace RecvPool

variable {s : RecvPool} {hands : List Nat} {f : RecvFrame}

theorem mem_freeAll : ∀ {l : List RecvFrame} {s : RecvPool} {x : Nat},
    x ∈ (s.freeAll l).freeRecvQueue → x ∈ s.freeRecvQueue ∨ x ∈ l.map (·.id)
  | [], _, _, h => Or.inl h
  | f :: t, s, x, h => by
    rcases mem_freeAll (l := t) h with hs | ht
    · rcases List.mem_append.mp hs with hs | hs
      · exact Or.inl (List.mem_filter.mp hs).1
      · rw [List.mem_singleton.mp hs]
        exact Or.inr List.mem_cons_self
    · exact Or.inr (List.mem_cons_of_mem _ ht)

/-- A frame on a `defrag_q` is given back, after others that were in hand. -/
theorem Holds.freeQueued {fs : List RecvFrame} {i : StaId} (h : s.Holds (fs.map (·.id)))
    (hq : f ∈ s.defragQ i) : ((s.freeAll fs).rtwFreeRecvframe f.id).Holds [] := by
  have hplace : f.id ∈ s.placed (fs.map (·.id)) (.defrag i) := List.mem_map.mpr ⟨f, hq, rfl⟩
  have hnot : f.id ∉ (s.freeAll fs).freeRecvQueue := by
    intro hfree
    rcases mem_freeAll hfree with hfree | hfree
    · exact absurd (h.kept.apart _ .free _ hplace hfree) nofun
    · exact absurd (h.kept.apart _ .handler _ hplace hfree) nofun
  have hall : (s.freeAll fs).Holds [] := Holds.freeAll (by simpa using h)
  exact hall.freed (mem_stock.mp ((h.kept.mem _).mpr ⟨_, hplace⟩)) hnot

/-- **A management frame is freed once**, by `recv_func_prehandle`, whether it waits on a queue
by then or not. -/
theorem Holds.mgmtFrame (h : s.Holds [f.id]) (hf : f.Flags) (env : RecvEnv)
    (htype : getFrameType f.mem = wifiMgtType)
    (hok : getMFrag f.mem = false → getFragNum f.mem = 0 ∧ (getPrivacy f.mem = true →
      (recvframeChkmic env.mic env.rx.stas (readFrameControl f)).1 ≠ .fail)) :
    (({ s with defragQ := (recvframeChkDefrag env.mic env.rx.stas s.defragQ
        (readFrameControl f)).defragQ }.freeAll
      (recvframeChkDefrag env.mic env.rx.stas s.defragQ (readFrameControl f)).freed
      ).rtwFreeRecvframe f.id).Holds [] := by
  have hread := readFrameControl_flags hf.2
  by_cases hmore : getMFrag f.mem = true
  · have hm : (readFrameControl f).attrib.mfrag = 1 := by simp [readFrameControl, hmore]
    obtain ⟨i, howner⟩ := defragOwner_mgmt env (f := readFrameControl f) htype
    obtain ⟨hret, hqueued⟩ := recvframeChkDefrag_more env.mic env.rx.stas s.defragQ hm howner
    have hstep := Holds.chkDefrag (f := readFrameControl f) h hread env.mic env.rx.stas
    rw [hret] at hstep
    exact Holds.freeQueued (f := readFrameControl f) (by simpa using hstep) hqueued
  · rw [Bool.not_eq_true] at hmore
    obtain ⟨hz, hmic⟩ := hok hmore
    have hm : (readFrameControl f).attrib.mfrag = 0 := by simp [readFrameControl, hmore]
    have hpriv : (readFrameControl f).attrib.privacy ≠ 0 →
        (recvframeChkmic env.mic env.rx.stas (readFrameControl f)).1 ≠ .fail := by
      intro hne
      refine hmic ?_
      by_contra hcon
      rw [Bool.not_eq_true] at hcon
      exact hne (by simp [readFrameControl, hcon])
    obtain ⟨hq, hfreed⟩ := recvframeChkDefrag_whole env.mic env.rx.stas s.defragQ hm hz hpriv
    rw [hq, hfreed]
    exact Holds.free h

theorem Holds.mpFrame (h : s.Holds [f.id]) {env : RecvEnv}
    (hok : ¬(checkFwstate env.rx.adapter wifiAsocState = true ∧ env.rxBindicatePkt = true ∧
      getFrameType f.mem = wifiDataType ∧ rtwCannotRun env.rx.adapter = false)) :
    (mpRecvFrame env s f).Holds [] := by
  unfold mpRecvFrame
  simp only
  rw [if_neg (by simpa using hok)]
  exact Holds.free h

/-- **What `recv_func_prehandle` does not return is freed.** -/
theorem Holds.prehandle (h : s.Holds [f.id]) (hf : f.Flags) {env : RecvEnv}
    (hok : PrehandleOk env f) :
    ((recvFuncPrehandle env s f).2 = none ∧ (recvFuncPrehandle env s f).1.Holds []) ∨
    ∃ g, (recvFuncPrehandle env s f).2 = some g ∧
      (recvFuncPrehandle env s f).1.Holds [g.id] ∧ g.Flags := by
  unfold PrehandleOk at hok
  unfold recvFuncPrehandle
  by_cases hmp : env.mpMode = true
  · rw [if_pos hmp] at hok ⊢
    exact Or.inl ⟨rfl, h.mpFrame hok⟩
  rw [if_neg hmp] at hok ⊢
  have hreplay : ∀ r, Holds { s with replay := r } [f.id] :=
    fun r => h.congr rfl rfl rfl rfl rfl rfl rfl
  simp only
  rcases validateRecvFrame_cases env s.replay s.defragQ hf with
    ⟨hver, hmgt, heq⟩ | ⟨hq, hfreed, hid, hflags⟩
  · rw [heq]
    exact Or.inl ⟨rfl, (hreplay s.replay).mgmtFrame hf env hmgt (hok hver hmgt)⟩
  · rw [hq, hfreed]
    split
    · rename_i psta hret hpsta
      refine Or.inr ⟨_, rfl, ?_, hflags hret⟩
      rw [hid]
      exact h.congr rfl rfl rfl rfl rfl rfl rfl
    · rw [hid]
      exact Or.inl ⟨rfl, Holds.free (hreplay _)⟩

end RecvPool

/-! ## 3. The indication -/

theorem enqueueReorderRecvframe_perm (g : RecvFrame) : ∀ {l q : List RecvFrame},
    enqueueReorderRecvframe g l = some q → q.Perm (g :: l)
  | [], _, h => by
    cases h
    exact List.Perm.refl _
  | p :: t, q, h => by
    simp only [enqueueReorderRecvframe] at h
    split at h
    · obtain ⟨q', hq', rfl⟩ := Option.map_eq_some_iff.mp h
      exact ((enqueueReorderRecvframe_perm g hq').cons p).trans (List.Perm.swap g p t)
    · split at h
      · cases h
      · cases h
        exact List.Perm.refl _

/-- The loop takes the front of the queue off. -/
theorem indicateLoop_append : ∀ (n : Nat) (l : List RecvFrame),
    (indicateLoop n l).1 ++ (indicateLoop n l).2.2.1 = l
  | _, [] => rfl
  | n, p :: t => by
    simp only [indicateLoop]
    split
    · rfl
    · exact congrArg (p :: ·) (indicateLoop_append _ t)

theorem checkIndicateSeq_pending {ctrl c : RecvReorderCtrl} {seq : Nat}
    (h : checkIndicateSeq ctrl seq = some c) :
    c.pendingRecvframeQueue = ctrl.pendingRecvframeQueue := by
  unfold checkIndicateSeq at h
  generalize (if ctrl.indicateSeq = 0xFFFF then seq else ctrl.indicateSeq) = start at h
  simp only at h
  split at h
  · cases h
  · split at h
    · cases h
      rfl
    · split at h
      · split at h
        · cases h
          rfl
        · cases h
          rfl
      · cases h
        rfl

/-- What is taken off the queue goes up, if the adapter runs or all of it is A-MSDUs. -/
theorem goneUp_deliver_of {a : Adapter} {l : List RecvFrame}
    (hflags : ∀ f ∈ l, f.attrib.amsdu ≤ 1)
    (hrun : rtwCannotRun a = true → ∀ f ∈ l, f.attrib.amsdu ≠ 0) :
    goneUp (l.map (deliver a)) = l := by
  cases ha : rtwCannotRun a with
  | false => exact goneUp_deliver ha hflags
  | true =>
    refine goneUp_of_up (fun f hf => ?_)
    have h0 := hrun ha f hf
    have h1 : f.attrib.amsdu = 1 := by
      have := hflags f hf
      omega
    unfold deliver
    rw [if_neg h0, if_pos h1]
    exact ⟨rfl, rfl⟩

/-- The frame was taken: it went up or waits, as the others on the queue. -/
def Taken (ctrl : RecvReorderCtrl) (f : RecvFrame) (r : ReorderResult) : Prop :=
  ((goneUp r.deliveries).map (·.id) ++ r.ctrl.pendingRecvframeQueue.map (·.id)).Perm
      (f.id :: ctrl.pendingRecvframeQueue.map (·.id)) ∧
    ∀ x ∈ r.ctrl.pendingRecvframeQueue, x.attrib.amsdu ≤ 1

/-- The frame was refused, and nothing else happened to the queue. -/
def Refused (ctrl : RecvReorderCtrl) (r : ReorderResult) : Prop :=
  r.deliveries = [] ∧ r.ctrl.pendingRecvframeQueue = ctrl.pendingRecvframeQueue

theorem taken_of_up {ctrl : RecvReorderCtrl} {f g : RecvFrame} {r : ReorderResult}
    (hpend : ∀ x ∈ ctrl.pendingRecvframeQueue, x.attrib.amsdu ≤ 1) (hid : g.id = f.id)
    (hup : goneUp r.deliveries = [g])
    (hctrl : r.ctrl.pendingRecvframeQueue = ctrl.pendingRecvframeQueue) : Taken ctrl f r := by
  unfold Taken
  rw [hup, hctrl]
  exact ⟨by simp [hid], hpend⟩

variable {a : Adapter} {ctrl : RecvReorderCtrl} {f g : RecvFrame}

theorem reorderLocked_refused (h : RecvPool.NotWanted ctrl g) :
    (reorderLocked a ctrl g).retval = .fail ∧ Refused ctrl (reorderLocked a ctrl g) := by
  unfold reorderLocked
  cases hcheck : checkIndicateSeq ctrl g.attrib.seqNum with
  | none => exact ⟨rfl, rfl, rfl⟩
  | some c =>
    simp only [h c hcheck, true_and]
    exact ⟨rfl, checkIndicateSeq_pending hcheck⟩

theorem reorderLocked_taken (hpend : ∀ x ∈ ctrl.pendingRecvframeQueue, x.attrib.amsdu ≤ 1)
    (hg : g.attrib.amsdu ≤ 1) (h : ¬RecvPool.NotWanted ctrl g)
    (hdue : rtwCannotRun a = true → ∀ x, RecvPool.Due ctrl g x → x.attrib.amsdu ≠ 0) :
    (reorderLocked a ctrl g).retval = .success ∧ Taken ctrl g (reorderLocked a ctrl g) := by
  unfold RecvPool.NotWanted at h
  push Not at h
  obtain ⟨c, hcheck, hne⟩ := h
  obtain ⟨queue, hqueue⟩ := Option.ne_none_iff_exists'.mp hne
  have hperm := enqueueReorderRecvframe_perm g hqueue
  rw [checkIndicateSeq_pending hcheck] at hperm
  have hsplit := indicateLoop_append c.indicateSeq queue
  have hflags : ∀ x ∈ queue, x.attrib.amsdu ≤ 1 := by
    intro x hx
    rcases List.mem_cons.mp (hperm.mem_iff.mp hx) with rfl | hx
    · exact hg
    · exact hpend x hx
  have hup : goneUp ((indicateLoop c.indicateSeq queue).1.map (deliver a))
      = (indicateLoop c.indicateSeq queue).1 := by
    refine goneUp_deliver_of (fun x hx => hflags x ?_)
      (fun ha x hx => hdue ha x ⟨c, queue, hcheck, hqueue, hx⟩)
    rw [← hsplit]
    exact List.mem_append_left _ hx
  have htaken : ∀ r : ReorderResult,
      r.deliveries = (indicateLoop c.indicateSeq queue).1.map (deliver a) →
      r.ctrl.pendingRecvframeQueue = (indicateLoop c.indicateSeq queue).2.2.1 →
      Taken ctrl g r := by
    intro r hdel hctrl
    unfold Taken
    rw [hdel, hctrl, hup, ← List.map_append, hsplit]
    refine ⟨by simpa using hperm.map (·.id), fun x hx => hflags x ?_⟩
    rw [← hsplit]
    exact List.mem_append_right _ hx
  unfold reorderLocked
  simp only [hcheck, hqueue, recvIndicatepktsInOrder]
  cases (indicateLoop c.indicateSeq queue).2.2.2 with
  | false => exact ⟨rfl, htaken _ rfl rfl⟩
  | true =>
    simp only
    split
    · exact ⟨rfl, htaken _ rfl rfl⟩
    · exact ⟨rfl, htaken _ rfl rfl⟩

/-- An Ethernet form is the same pool entry with the same attributes, but for the type. -/
theorem ethernetForm_same (h : RecvPool.ethernetForm a f = some g) : SameFrame f g := by
  unfold RecvPool.ethernetForm at h
  split at h
  · exact wlanhdrToEthhdr_same h
  · rw [← Option.some.inj h]
    exact SameFrame.refl f

/-- `recv_indicatepkt_reorder` on the Ethernet form. -/
theorem recvIndicatepktReorder_eq (hf : f.attrib.amsdu ≤ 1)
    (hg : RecvPool.ethernetForm a f = some g) :
    recvIndicatepktReorder a ctrl f =
      if g.attrib.amsdu = 0 ∧ g.attrib.qos ≠ 1 then
        if rtwCannotRun a then ⟨.fail, g, [], ctrl⟩ else ⟨.success, g, [.indicated g], ctrl⟩
      else if ctrl.enable = true then reorderLocked a ctrl g
      else if g.attrib.amsdu = 0 then
        ⟨.success, g, [.indicated g], { ctrl with indicateSeq := (g.attrib.seqNum + 1) % 4096 }⟩
      else
        ⟨.success, g, [.deaggregated g],
          { ctrl with indicateSeq := (g.attrib.seqNum + 1) % 4096 }⟩ := by
  have hsame := ethernetForm_same hg
  have hamsdu : g.attrib.amsdu = f.attrib.amsdu := by rw [hsame.2]
  unfold RecvPool.ethernetForm at hg
  unfold recvIndicatepktReorder
  by_cases h0 : f.attrib.amsdu = 0
  · rw [if_pos h0] at hg ⊢
    rw [hg]
    simp only [hamsdu, h0, true_and, if_true]
    by_cases hqos : g.attrib.qos = 1
    · cases henable : ctrl.enable <;> simp [hqos]
    · simp [hqos]
  · rw [if_neg h0] at hg ⊢
    obtain rfl := Option.some.inj hg
    have h1 : f.attrib.amsdu = 1 := by omega
    cases henable : ctrl.enable <;> simp [h1]

/-- **`recv_indicatepkt_reorder` takes the frame or refuses it.** -/
theorem recvIndicatepktReorder_parts (hf : f.attrib.amsdu ≤ 1)
    (hpend : ∀ x ∈ ctrl.pendingRecvframeQueue, x.attrib.amsdu ≤ 1) :
    (RecvPool.TurnedAway a true ctrl f →
      (recvIndicatepktReorder a ctrl f).retval = .fail ∧
        Refused ctrl (recvIndicatepktReorder a ctrl f)) ∧
    (¬RecvPool.TurnedAway a true ctrl f →
      (rtwCannotRun a = true → ¬RecvPool.Releases a ctrl f) →
      (recvIndicatepktReorder a ctrl f).retval = .success ∧
        Taken ctrl f (recvIndicatepktReorder a ctrl f)) := by
  unfold RecvPool.TurnedAway
  rw [if_pos rfl]
  cases hg : RecvPool.ethernetForm a f with
  | none =>
    refine ⟨fun _ => ?_, fun h => absurd trivial h⟩
    unfold RecvPool.ethernetForm at hg
    split at hg
    · rename_i h0
      unfold recvIndicatepktReorder
      rw [if_pos h0, hg]
      exact ⟨rfl, rfl, rfl⟩
    · cases hg
  | some g =>
    have hsame := ethernetForm_same hg
    have hamsdu : g.attrib.amsdu ≤ 1 := by
      rw [hsame.2]
      exact hf
    simp only
    rw [recvIndicatepktReorder_eq hf hg]
    by_cases hdirect : g.attrib.amsdu = 0 ∧ g.attrib.qos ≠ 1
    · -- not QoS: it goes up at once, or cannot
      rw [if_pos hdirect]
      have hqueue : ¬RecvPool.Queued ctrl g := fun h => hdirect.2 (h.2 hdirect.1)
      cases ha : rtwCannotRun a with
      | true => exact ⟨fun _ => ⟨rfl, rfl, rfl⟩,
          fun h => absurd (Or.inr ⟨hdirect.1, hdirect.2, rfl⟩) h⟩
      | false => exact ⟨fun h => by simp [hqueue] at h,
          fun _ _ => ⟨rfl, taken_of_up hpend hsame.1 rfl rfl⟩⟩
    rw [if_neg hdirect]
    have hqos : g.attrib.amsdu = 0 → g.attrib.qos = 1 := by
      intro h0
      by_contra hq
      exact hdirect ⟨h0, hq⟩
    have hnever : ¬(g.attrib.amsdu = 0 ∧ g.attrib.qos ≠ 1 ∧ rtwCannotRun a = true) :=
      fun h => hdirect ⟨h.1, h.2.1⟩
    cases henable : ctrl.enable with
    | true =>
      rw [if_pos rfl]
      have hqueue : RecvPool.Queued ctrl g := ⟨henable, hqos⟩
      constructor
      · intro h
        exact reorderLocked_refused (h.resolve_right hnever).2
      · intro h hrel
        have hwanted : ¬RecvPool.NotWanted ctrl g := fun hn => h (Or.inl ⟨hqueue, hn⟩)
        obtain ⟨hret, htaken⟩ := reorderLocked_taken hpend hamsdu hwanted
          (fun ha x hx h0 => hrel ha ⟨g, hg, hqueue, x, hx, h0⟩)
        unfold Taken at htaken ⊢
        rw [hsame.1] at htaken
        exact ⟨hret, htaken⟩
    | false =>
      have hqueue : ¬RecvPool.Queued ctrl g := by simp [RecvPool.Queued, henable]
      refine ⟨fun h => absurd h (by simp [hqueue, hnever]), fun _ _ => ?_⟩
      rw [if_neg nofun]
      split
      · exact ⟨rfl, taken_of_up hpend hsame.1 rfl rfl⟩
      · exact ⟨rfl, taken_of_up hpend hsame.1 rfl rfl⟩

/-- **`process_recv_indicatepkts` takes the frame**, or refuses it and says so. -/
theorem processRecvIndicatepkts_parts {htOption : Bool} {orig : Nat} (hf : f.attrib.amsdu ≤ 1)
    (hpend : ∀ x ∈ ctrl.pendingRecvframeQueue, x.attrib.amsdu ≤ 1)
    (hok : RecvPool.IndicateOk a htOption ctrl orig f) :
    ((processRecvIndicatepkts a htOption ctrl f).retval = .success ∧
      Taken ctrl f (processRecvIndicatepkts a htOption ctrl f)) ∨
    (orig = f.id ∧ (processRecvIndicatepkts a htOption ctrl f).retval = .fail ∧
      Refused ctrl (processRecvIndicatepkts a htOption ctrl f)) := by
  obtain ⟨hjoined, hstopped⟩ := hok
  cases htOption with
  | true =>
    obtain ⟨haway, htaken⟩ := recvIndicatepktReorder_parts (a := a) hf hpend
    unfold processRecvIndicatepkts
    rw [if_pos rfl]
    by_cases hturned : RecvPool.TurnedAway a true ctrl f
    · have horig : orig = f.id := by
        by_contra hne
        exact hjoined hne hturned
      have ha : rtwCannotRun a = false := by
        by_contra hne
        rw [Bool.not_eq_false] at hne
        exact (hstopped rfl hne).1 hturned
      obtain ⟨hret, hrefused⟩ := haway hturned
      refine Or.inr ⟨horig, ?_, hrefused⟩
      simp [hret, ha]
    · obtain ⟨hret, htook⟩ := htaken hturned (fun ha => (hstopped rfl ha).2)
      refine Or.inl ⟨?_, htook⟩
      simp [hret]
  | false =>
    unfold RecvPool.TurnedAway at hjoined
    unfold processRecvIndicatepkts
    rw [if_neg nofun] at hjoined ⊢
    have horig : (wlanhdrToEthhdr a f = none ∨ rtwCannotRun a = true) → orig = f.id := by
      intro h
      by_contra hne
      exact hjoined hne h
    cases hconv : wlanhdrToEthhdr a f with
    | none => exact Or.inr ⟨horig (Or.inl hconv), rfl, rfl, rfl⟩
    | some g =>
      simp only
      cases ha : rtwCannotRun a with
      | true => exact Or.inr ⟨horig (Or.inr ha), rfl, rfl, rfl⟩
      | false => exact Or.inl ⟨rfl, taken_of_up hpend (wlanhdrToEthhdr_same hconv).1 rfl rfl⟩

/-- A timer that expires takes the front of the queue off, and all of it goes up. -/
theorem rtwReorderingCtrlTimeoutHandler_parts (a : Adapter) {ctrl : RecvReorderCtrl}
    (hpend : ∀ x ∈ ctrl.pendingRecvframeQueue, x.attrib.amsdu ≤ 1) :
    goneUp (rtwReorderingCtrlTimeoutHandler a ctrl).1 ++
      (rtwReorderingCtrlTimeoutHandler a ctrl).2.pendingRecvframeQueue
        = ctrl.pendingRecvframeQueue := by
  unfold rtwReorderingCtrlTimeoutHandler
  cases ha : rtwCannotRun a with
  | true => rfl
  | false =>
    rw [if_neg nofun]
    unfold recvIndicatepktsInOrder
    cases hq : ctrl.pendingRecvframeQueue with
    | nil => rfl
    | cons p t =>
      rw [hq] at hpend
      have hsplit := indicateLoop_append p.attrib.seqNum (p :: t)
      have hup : goneUp ((indicateLoop p.attrib.seqNum (p :: t)).1.map (deliver a))
          = (indicateLoop p.attrib.seqNum (p :: t)).1 := by
        refine goneUp_deliver ha (fun x hx => hpend x ?_)
        rw [← hsplit]
        exact List.mem_append_left _ hx
      simp only
      cases (indicateLoop p.attrib.seqNum (p :: t)).2.2.2 with
      | true => exact hup.symm ▸ hsplit
      | false => exact hup.symm ▸ hsplit

theorem decryptor_same (env : RecvEnv) {f : RecvFrame} (hf : f.Flags) :
    (decryptor env f).2.id = f.id ∧ (decryptor env f).2.Flags := by
  have hsw : ∀ g : RecvFrame, (swDecryptFrame env g).2.id = g.id ∧
      (swDecryptFrame env g).2.attrib = g.attrib := by
    intro g
    unfold swDecryptFrame
    split_ifs <;> exact ⟨rfl, rfl⟩
  unfold decryptor
  simp only
  generalize hg : ({ f with attrib := { f.attrib with keyIndex := if 0 < f.attrib.encrypt then
    (f.mem (f.attrib.hdrlen + 3)).toNat / 64 % 4 else f.attrib.keyIndex } } : RecvFrame) = g
  have hgid : g.id = f.id := by rw [← hg]
  have hgflags : g.Flags := by
    rw [← hg]
    exact hf
  obtain ⟨hid, hattrib⟩ := hsw g
  have hflags : (swDecryptFrame env g).2.Flags := by
    unfold RecvFrame.Flags
    rw [hattrib]
    exact hgflags
  split
  · rename_i r f' heq
    split at heq
    · rw [heq] at hid hflags
      exact ⟨hid.trans hgid, hflags⟩
    · cases heq
  · rename_i r f' hne heq
    split at heq
    · rw [heq] at hid hflags
      exact ⟨hid.trans hgid, hflags⟩
    · cases heq
      exact ⟨hgid, hgflags⟩

end Rtl8723bs
