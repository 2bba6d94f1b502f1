/-
# Defragmentation

`recvframe_chk_defrag` queues the fragments of an MSDU on the `defrag_q` of the station they
came from, and on the last one `recvframe_defrag` joins what is on the queue.  The only thing
compared is the fragment number: the queue is emptied by a fragment 0 with more to come and by
a last fragment, by nothing else.

What holds of every reassembled frame is `reassembled_from_one_station`: its parts are the last
fragments queued for one station entry, numbered 0, 1, 2 and so on.  Nothing ties them to one
sequence number, TID or protection state (`reassembled_from_two_msdus`).
-/
import Mathlib.Logic.Function.Basic
import Mathlib.Data.List.Induction
import Rtl8723bs.Rx.Validate

namespace Rtl8723bs

/-! ## 1. `recvframe_defrag` -/

/-- One round of the loop: the payload of the next fragment goes to the tail of the first, in
place of its ICV.  A `recvframe_put` that finds no room leaves the payload out of the frame. -/
def appendFragment (prframe pnext : RecvFrame) : RecvFrame :=
  let pnext := pnext.orSelf (pnext.pull (pnext.attrib.hdrlen + pnext.attrib.ivLen : Nat))
  let prframe := prframe.orSelf (prframe.pullTail prframe.attrib.icvLen)
  let prframe := prframe.memcpy prframe.rxTail (readBytes pnext.mem 0 pnext.len)
  let prframe := prframe.orSelf (prframe.put pnext.len)
  { prframe with attrib := { prframe.attrib with icvLen := pnext.attrib.icvLen } }

/-- The loop over the rest of the queue; `curfragnum` is a `u8`. -/
def defragLoop : Nat → RecvFrame → List RecvFrame → Option RecvFrame
  | _, prframe, [] => some prframe
  | curfragnum, prframe, pnext :: t =>
    if curfragnum ≠ pnext.attrib.fragNum then none
    else defragLoop ((curfragnum + 1) % 256) (appendFragment prframe pnext) t

/-- `recvframe_defrag`, on the whole queue: the frame, and the frames it frees. -/
def recvframeDefrag : List RecvFrame → Option RecvFrame × List RecvFrame
  | [] => (none, [])
  | prframe :: t =>
    if prframe.attrib.fragNum ≠ 0 then (none, prframe :: t)
    else
      match defragLoop 1 prframe t with
      | none => (none, prframe :: t)
      | some joined => (some joined, t)

/-! ## 2. `recvframe_chkmic` -/

/-- The keys `recvframe_chkmic` looks up, and `rtw_seccalctkipmic` with its arguments: the key,
the frame, the payload's offset and length, and the priority. -/
structure MicKeys where
  binstallGrpkey : Bool
  grpRxMicKey : Nat → List UInt8
  tkipRxMicKey : StaId → List UInt8
  seccalctkipmic : List UInt8 → Mem → Nat → Nat → Nat → List UInt8

/-- Does the frame carry the MIC of its payload?  `icv_len` includes the MIC. -/
def micCorrect (k : MicKeys) (i : StaId) (f : RecvFrame) : Bool :=
  let at_ := f.attrib
  let mickey := if isMcast at_.ra then k.grpRxMicKey at_.keyIndex else k.tkipRxMicKey i
  let datalen := (((f.len : Int) - at_.hdrlen - at_.ivLen - at_.icvLen - 8) % 4294967296).toNat
  let payload := at_.hdrlen + at_.ivLen
  k.seccalctkipmic mickey f.mem payload datalen at_.priority
    = readBytes f.mem (payload + datalen) 8

/-- `recvframe_chkmic`: the result, and the frame with the MIC taken off its tail. -/
def recvframeChkmic (k : MicKeys) (t : StaTable) (f : RecvFrame) : RxStatus × RecvFrame :=
  if f.attrib.encrypt = encTkip then
    match rtwGetStainfo t f.attrib.ta with
    | none => (.success, f.orSelf (f.pullTail 8))
    | some i =>
      if isMcast f.attrib.ra ∧ !k.binstallGrpkey then (.fail, f)
      else (if micCorrect k i f then .success else .fail, f.orSelf (f.pullTail 8))
  else (.success, f)

/-! ## 3. `recvframe_chk_defrag` -/

/-- What a call leaves behind: the frame it returns, the queues, and the frames it freed. -/
structure DefragResult where
  ret : Option RecvFrame
  defragQ : StaId → List RecvFrame
  freed : List RecvFrame

/-- Whose `defrag_q` a frame goes to.  A frame other than data whose transmitter is not known
goes to the broadcast entry's. -/
def defragOwner (t : StaTable) (f : RecvFrame) : Option StaId :=
  match rtwGetStainfo t f.attrib.ta with
  | some i => some i
  | none => if getFrameType f.mem ≠ wifiDataType then rtwGetBcmcStainfo t else none

/-- The queueing part of `recvframe_chk_defrag`. -/
def chkDefragQueue (t : StaTable) (q : StaId → List RecvFrame) (f : RecvFrame) : DefragResult :=
  if f.attrib.mfrag = 1 then
    match defragOwner t f with
    | none => ⟨none, q, [f]⟩
    | some i =>
      -- the first fragment finds the leftovers of an MSDU that was never completed
      if f.attrib.fragNum = 0 then ⟨none, Function.update q i [f], q i⟩
      else ⟨none, Function.update q i (q i ++ [f]), []⟩
  else if f.attrib.mfrag = 0 ∧ f.attrib.fragNum ≠ 0 then
    match defragOwner t f with
    | none => ⟨none, q, [f]⟩
    | some i =>
      let r := recvframeDefrag (q i ++ [f])
      ⟨r.1, Function.update q i [], r.2⟩
  else if f.attrib.mfrag = 0 then ⟨some f, q, []⟩
  else ⟨none, q, []⟩

/-- `recvframe_chk_defrag`. -/
def recvframeChkDefrag (k : MicKeys) (t : StaTable) (q : StaId → List RecvFrame)
    (f : RecvFrame) : DefragResult :=
  let r := chkDefragQueue t q f
  match r.ret with
  | none => r
  | some g =>
    if g.attrib.privacy ≠ 0 then
      match recvframeChkmic k t g with
      | (.fail, g') => ⟨none, r.defragQ, r.freed ++ [g']⟩
      | (_, g') => ⟨some g', r.defragQ, r.freed⟩
    else r

/-! ## 4. What the functions do to a frame -/

/-- A joined frame is the pool entry of its first part. -/
theorem appendFragment_id (f g : RecvFrame) : (appendFragment f g).id = f.id := by
  unfold appendFragment RecvFrame.orSelf RecvFrame.put RecvFrame.memcpy
  have htail := pullTail_same f f.attrib.icvLen
  unfold RecvFrame.orSelf at htail
  simp only
  split
  · exact htail.1
  · exact htail.1

theorem defragLoop_id : ∀ (n : Nat) (f : RecvFrame) (l : List RecvFrame) {g : RecvFrame},
    defragLoop n f l = some g → g.id = f.id
  | _, f, [], g, h => by
    cases h
    rfl
  | n, f, p :: t, g, h => by
    simp only [defragLoop] at h
    split at h
    · cases h
    · rw [defragLoop_id _ _ t h, appendFragment_id]

theorem recvframeChkmic_id (k : MicKeys) (t : StaTable) (f : RecvFrame) :
    (recvframeChkmic k t f).2.id = f.id := by
  have htail := (pullTail_same f 8).1
  unfold recvframeChkmic
  split
  · split
    · exact htail
    · split
      · rfl
      · exact htail
  · rfl

/-- The parts of a joined frame are numbered in order.  Four-bit numbers never wrap the
counter. -/
theorem defragLoop_numbers : ∀ {n : Nat} {f : RecvFrame} {l : List RecvFrame} {g : RecvFrame},
    n ≤ 16 → (∀ p ∈ l, p.attrib.fragNum < 16) → defragLoop n f l = some g →
    l.map (·.attrib.fragNum) = List.range' n l.length
  | _, _, [], _, _, _, _ => rfl
  | n, f, p :: t, g, hn, hfour, h => by
    have hp := hfour p List.mem_cons_self
    simp only [defragLoop] at h
    split at h
    · cases h
    · rename_i heq
      have hnp : n = p.attrib.fragNum := not_not.mp heq
      rw [Nat.mod_eq_of_lt (by omega)] at h
      have ih := defragLoop_numbers (by omega) (fun q hq => hfour q (List.mem_cons_of_mem p hq)) h
      rw [List.map_cons, ih, List.length_cons, List.range'_succ, ← hnp]

/-- **The parts of a frame `recvframe_defrag` returns are numbered 0, 1, 2, …** -/
theorem recvframeDefrag_numbers {parts : List RecvFrame} {g : RecvFrame}
    (hfour : ∀ p ∈ parts, p.attrib.fragNum < 16) (h : (recvframeDefrag parts).1 = some g) :
    parts.map (·.attrib.fragNum) = List.range parts.length := by
  cases parts with
  | nil => cases h
  | cons f l =>
    simp only [recvframeDefrag] at h
    split at h
    · cases h
    · rename_i hzero
      split at h
      · cases h
      · rename_i joined hloop
        have hnum := defragLoop_numbers (by omega)
          (fun q hq => hfour q (List.mem_cons_of_mem f hq)) hloop
        rw [List.map_cons, hnum, not_not.mp hzero, List.range_eq_range', List.length_cons,
          List.range'_succ]

/-! ## 5. Runs -/

/-- The queues after the listed frames, starting with empty ones. -/
def defragRun (k : MicKeys) (t : StaTable) (fs : List RecvFrame) : StaId → List RecvFrame :=
  fs.foldl (fun q f => (recvframeChkDefrag k t q f).defragQ) (fun _ => [])

/-- Is the frame one part of several? -/
def isFragment (f : RecvFrame) : Bool :=
  f.attrib.mfrag = 1 ∨ (f.attrib.mfrag = 0 ∧ f.attrib.fragNum ≠ 0)

/-- The fragments that went to one entry's queue, in arrival order. -/
def fragmentsOf (t : StaTable) (i : StaId) (fs : List RecvFrame) : List RecvFrame :=
  fs.filter (fun f => isFragment f ∧ defragOwner t f = some i)

theorem fragmentsOf_snoc (t : StaTable) (i : StaId) (fs : List RecvFrame) (f : RecvFrame) :
    fragmentsOf t i (fs ++ [f])
      = fragmentsOf t i fs ++
          (if isFragment f ∧ defragOwner t f = some i then [f] else []) := by
  unfold fragmentsOf
  rw [List.filter_append]
  congr 1
  by_cases h : isFragment f ∧ defragOwner t f = some i <;> simp [h]

/-- The MIC check does not touch the queues. -/
theorem recvframeChkDefrag_queue (k : MicKeys) (t : StaTable) (q : StaId → List RecvFrame)
    (f : RecvFrame) : (recvframeChkDefrag k t q f).defragQ = (chkDefragQueue t q f).defragQ := by
  unfold recvframeChkDefrag
  simp only
  split
  · rfl
  · split
    · split <;> rfl
    · rfl

/-- What one frame does to the queues: nothing, or it starts, continues or ends its owner's. -/
theorem chkDefragQueue_queue (t : StaTable) (q : StaId → List RecvFrame) (f : RecvFrame) :
    ((chkDefragQueue t q f).defragQ = q ∧ (isFragment f = false ∨ defragOwner t f = none)) ∨
    ∃ i v, (chkDefragQueue t q f).defragQ = Function.update q i v ∧ isFragment f = true ∧
      defragOwner t f = some i ∧
      ((f.attrib.mfrag = 1 ∧ (v = [f] ∨ v = q i ++ [f])) ∨ (f.attrib.mfrag = 0 ∧ v = [])) := by
  unfold chkDefragQueue
  by_cases hm : f.attrib.mfrag = 1
  · rw [if_pos hm]
    cases howner : defragOwner t f with
    | none => exact Or.inl ⟨rfl, Or.inr rfl⟩
    | some i =>
      have hfrag : isFragment f = true := by simp [isFragment, hm]
      by_cases hz : f.attrib.fragNum = 0
      · simp only [hz, if_true]
        exact Or.inr ⟨i, _, rfl, hfrag, rfl, Or.inl ⟨hm, Or.inl rfl⟩⟩
      · simp only [hz, if_false]
        exact Or.inr ⟨i, _, rfl, hfrag, rfl, Or.inl ⟨hm, Or.inr rfl⟩⟩
  · rw [if_neg hm]
    by_cases hlast : f.attrib.mfrag = 0 ∧ f.attrib.fragNum ≠ 0
    · rw [if_pos hlast]
      cases howner : defragOwner t f with
      | none => exact Or.inl ⟨rfl, Or.inr rfl⟩
      | some i =>
        have hfrag : isFragment f = true := by simp [isFragment, hlast]
        exact Or.inr ⟨i, _, rfl, hfrag, rfl, Or.inr ⟨hlast.1, rfl⟩⟩
    · rw [if_neg hlast]
      have hfrag : isFragment f = false := by
        rw [Bool.eq_false_iff]
        simpa [isFragment, hm] using hlast
      refine Or.inl ⟨?_, Or.inl hfrag⟩
      split <;> rfl

/-- **The invariant of the queues.**  A queue holds the last fragments that went to it, all of
them with more to come. -/
theorem defragRun_inv (k : MicKeys) (t : StaTable) (fs : List RecvFrame) (i : StaId) :
    defragRun k t fs i <:+ fragmentsOf t i fs ∧ ∀ p ∈ defragRun k t fs i, p.attrib.mfrag = 1 := by
  induction fs using List.reverseRecOn with
  | nil => exact ⟨List.suffix_rfl, by simp [defragRun]⟩
  | append_singleton fs f ih =>
    obtain ⟨hsuffix, hmore⟩ := ih
    have hstep : defragRun k t (fs ++ [f])
        = (chkDefragQueue t (defragRun k t fs) f).defragQ := by
      unfold defragRun
      rw [List.foldl_append, List.foldl_cons, List.foldl_nil, recvframeChkDefrag_queue]
    rw [hstep, fragmentsOf_snoc]
    rcases chkDefragQueue_queue t (defragRun k t fs) f with
      ⟨hq, hnot⟩ | ⟨j, v, hq, hfrag, howner, hv⟩
    · rw [hq, if_neg (by rintro ⟨h1, h2⟩; rcases hnot with h | h <;> simp_all), List.append_nil]
      exact ⟨hsuffix, hmore⟩
    · rw [hq]
      by_cases hij : i = j
      · subst hij
        rw [Function.update_self, if_pos ⟨hfrag, howner⟩]
        rcases hv with ⟨hm, rfl | rfl⟩ | ⟨_, rfl⟩
        · exact ⟨List.suffix_append _ _, by simpa using hm⟩
        · obtain ⟨pre, hpre⟩ := hsuffix
          refine ⟨⟨pre, by rw [← List.append_assoc, hpre]⟩, ?_⟩
          intro p hp
          rcases List.mem_append.mp hp with hp | hp
          · exact hmore p hp
          · rw [List.mem_singleton.mp hp]
            exact hm
        · exact ⟨List.nil_suffix, by simp⟩
      · have hne : ¬ (isFragment f = true ∧ defragOwner t f = some i) := by
          rintro ⟨_, h⟩
          rw [howner] at h
          exact hij (Option.some.inj h).symm
        rw [Function.update_of_ne hij, if_neg hne, List.append_nil]
        exact ⟨hsuffix, hmore⟩

/-! ## 6. What a reassembled frame is made of -/

/-- A data frame goes to the entry found for its transmitter, or to none. -/
theorem defragOwner_data {t : StaTable} {f : RecvFrame} {i : StaId}
    (h : defragOwner t f = some i) (hdata : getFrameType f.mem = wifiDataType) :
    rtwGetStainfo t f.attrib.ta = some i := by
  unfold defragOwner at h
  cases hsta : rtwGetStainfo t f.attrib.ta with
  | none =>
    rw [hsta] at h
    simp [hdata] at h
  | some j =>
    rw [hsta] at h
    exact h

/-- A frame `recvframe_chk_defrag` returns on a last fragment is what `recvframe_defrag` made of
its owner's queue and that fragment. -/
theorem recvframeChkDefrag_joined {k : MicKeys} {t : StaTable} {q : StaId → List RecvFrame}
    {f g : RecvFrame} (hlast : f.attrib.fragNum ≠ 0)
    (h : (recvframeChkDefrag k t q f).ret = some g) :
    f.attrib.mfrag = 0 ∧ ∃ i joined, defragOwner t f = some i ∧
      (recvframeDefrag (q i ++ [f])).1 = some joined ∧
      (g = joined ∨ g = (recvframeChkmic k t joined).2) := by
  have hret : ∃ joined, (chkDefragQueue t q f).ret = some joined ∧
      (g = joined ∨ g = (recvframeChkmic k t joined).2) := by
    unfold recvframeChkDefrag at h
    simp only at h
    split at h
    · rename_i hnone
      rw [hnone] at h
      cases h
    · rename_i joined hjoined
      refine ⟨joined, hjoined, ?_⟩
      split at h
      · split at h
        · cases h
        · rename_i hmic
          right
          rw [← Option.some.inj h, hmic]
      · left
        rw [hjoined] at h
        exact (Option.some.inj h).symm
  obtain ⟨joined, hq, hg⟩ := hret
  unfold chkDefragQueue at hq
  by_cases hm : f.attrib.mfrag = 1
  · -- a fragment with more to come returns nothing
    rw [if_pos hm] at hq
    split at hq
    · cases hq
    · split at hq <;> cases hq
  · rw [if_neg hm] at hq
    by_cases hzero : f.attrib.mfrag = 0
    · rw [if_pos ⟨hzero, hlast⟩] at hq
      cases howner : defragOwner t f with
      | none =>
        rw [howner] at hq
        cases hq
      | some i =>
        rw [howner] at hq
        exact ⟨hzero, i, joined, rfl, hq, hg⟩
    · rw [if_neg (by rintro ⟨h0, _⟩; exact hzero h0), if_neg hzero] at hq
      cases hq

/-- **A reassembled frame is made of one station's fragments.**  After any frames from any
stations, the parts of a frame that `recvframe_chk_defrag` reassembles are the last fragments
that went to one station entry, in arrival order, numbered 0, 1, 2, … with more to come on all
but the last; where the frames are data from individual transmitters, it is one transmitter. -/
theorem reassembled_from_one_station (k : MicKeys) (t : StaTable) {fs : List RecvFrame}
    {f g : RecvFrame} (hfour : ∀ p ∈ fs ++ [f], p.attrib.fragNum < 16)
    (hlast : f.attrib.fragNum ≠ 0)
    (hret : (recvframeChkDefrag k t (defragRun k t fs) f).ret = some g) :
    ∃ i parts joined, parts <:+ fragmentsOf t i (fs ++ [f]) ∧
      (recvframeDefrag parts).1 = some joined ∧
      (g = joined ∨ g = (recvframeChkmic k t joined).2) ∧
      parts.map (·.attrib.fragNum) = List.range parts.length ∧
      (∀ p ∈ parts, defragOwner t p = some i) ∧
      (∀ p ∈ parts.dropLast, p.attrib.mfrag = 1) ∧ parts.getLast? = some f ∧
      ∀ p ∈ parts, ∀ p' ∈ parts, getFrameType p.mem = wifiDataType →
        getFrameType p'.mem = wifiDataType → isMcast p.attrib.ta = false →
        isMcast p'.attrib.ta = false → p.attrib.ta = p'.attrib.ta := by
  obtain ⟨hmore, i, joined, howner, hjoined, hg⟩ := recvframeChkDefrag_joined hlast hret
  obtain ⟨hsuffix, hqueued⟩ := defragRun_inv k t fs i
  have hfrag : isFragment f = true := by simp [isFragment, hmore, hlast]
  have hparts : defragRun k t fs i ++ [f] <:+ fragmentsOf t i (fs ++ [f]) := by
    rw [fragmentsOf_snoc, if_pos ⟨hfrag, howner⟩]
    obtain ⟨pre, hpre⟩ := hsuffix
    exact ⟨pre, by rw [← List.append_assoc, hpre]⟩
  have hmem : ∀ p ∈ defragRun k t fs i ++ [f], p ∈ fs ++ [f] ∧ defragOwner t p = some i := by
    intro p hp
    have := hparts.subset hp
    simp only [fragmentsOf, List.mem_filter, decide_eq_true_eq] at this
    exact ⟨this.1, this.2.2⟩
  refine ⟨i, _, joined, hparts, hjoined, hg,
    recvframeDefrag_numbers (fun p hp => hfour p (hmem p hp).1) hjoined,
    fun p hp => (hmem p hp).2, by simpa using hqueued, by simp, ?_⟩
  intro p hp p' hp' hdata hdata' hind hind'
  exact rtwGetStainfo_inj (defragOwner_data (hmem p hp).2 hdata)
    (defragOwner_data (hmem p' hp').2 hdata') hind hind'

/-- A data fragment of eight payload bytes `byte`, from the station with address
02:00:00:00:00:01. -/
def dataFragment (mfrag fragNum seqNum priority encrypt : Nat) (byte : UInt8) : RecvFrame where
  id := fragNum
  attrib := { (default : RxPktAttrib) with
    hdrlen := 24, ta := ⟨2, 0, 0, 0, 0, 1⟩, mfrag := mfrag, fragNum := fragNum
    seqNum := seqNum, priority := priority, encrypt := encrypt }
  buf := 0x08 :: List.replicate 23 0 ++ List.replicate 8 byte ++ List.replicate 8 0
  rxData := 0
  rxTail := 32

def oneStation : StaTable := ⟨[(⟨2, 0, 0, 0, 0, 1⟩, 1)], by decide⟩

/-- No MIC is installed: the fragments below are not TKIP. -/
def noMicKeys : MicKeys := ⟨false, fun _ => [], fun _ => [], fun _ _ _ _ _ => []⟩

theorem reassembled_from_one_station_of_two :
    ∃ g, (recvframeChkDefrag noMicKeys oneStation
        (defragRun noMicKeys oneStation [dataFragment 1 0 7 0 0 0xaa])
        (dataFragment 0 1 7 0 0 0xbb)).ret = some g ∧
      ∃ i parts joined, (recvframeDefrag parts).1 = some joined ∧
        (g = joined ∨ g = (recvframeChkmic noMicKeys oneStation joined).2) ∧
        parts.map (·.attrib.fragNum) = List.range parts.length ∧
        ∀ p ∈ parts, defragOwner oneStation p = some i := by
  obtain ⟨g, hg⟩ : ∃ g, (recvframeChkDefrag noMicKeys oneStation
      (defragRun noMicKeys oneStation [dataFragment 1 0 7 0 0 0xaa])
      (dataFragment 0 1 7 0 0 0xbb)).ret = some g := ⟨_, rfl⟩
  obtain ⟨i, parts, joined, _, hjoined, hgj, hnum, howner, _⟩ :=
    reassembled_from_one_station noMicKeys oneStation (by decide) (by decide) hg
  exact ⟨g, hg, i, parts, joined, hjoined, hgj, hnum, howner⟩

/-- Fragment 0 of number 7, TID 0, in the clear. -/
def clearFirst : RecvFrame := dataFragment 1 0 7 0 0 0xaa

/-- The last fragment, 1, of number 9, TID 5, under CCMP. -/
def protectedLast : RecvFrame := dataFragment 0 1 9 5 encAes 0xbb

/-- **Two MSDUs in one frame.**  The two fragments agree in nothing but the transmitter, and
come out as one frame with the bytes of both. -/
theorem reassembled_from_two_msdus :
    clearFirst.attrib.seqNum ≠ protectedLast.attrib.seqNum ∧
    clearFirst.attrib.priority ≠ protectedLast.attrib.priority ∧
    clearFirst.attrib.encrypt ≠ protectedLast.attrib.encrypt ∧
    ∃ g, (recvframeChkDefrag noMicKeys oneStation
        (defragRun noMicKeys oneStation [clearFirst]) protectedLast).ret = some g ∧
      readBytes g.mem 24 (g.len - 24) = List.replicate 8 0xaa ++ List.replicate 8 0xbb :=
  ⟨by decide, by decide, by decide, _, rfl, by decide⟩

end Rtl8723bs
