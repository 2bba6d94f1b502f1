/-
# Do the four loops read the same?

`Hal_EfusePgPacketRead` and `hal_ReadEFuse_WiFi` go over the same packets in every image.  The
other two part from them behind a header without words, at a section that is too large, and at
the end of the array: `walkers_agree` says exactly when.  Such headers are what is left where
programming was interrupted.
-/
import Rtl8723bs.Efuse.Analyze

namespace Rtl8723bs.Efuse

open Walk

variable {img : Raw} {a : Nat}

/-! ## 1. What is to agree, and when it does -/

/-- All four go over the same packets; the size is the address at which `hal_ReadEFuse_WiFi`
reports the end of the data; a section is read as it is in the map; and `rtw_efuse_analyze`
builds that map. -/
structure Agree (img : Raw) : Prop where
  sizePackets : (sizeLoop img 0).packets = (readLoop img).packets
  pgReadPackets : ∀ offset : UInt8, offset.toNat < efuseMaxSection →
    (pgReadLoop img offset).packets = (readLoop img).packets
  analyzePackets : (analyzeLoop img).packets = (readLoop img).packets
  dataEnd : ∀ b < efuseRealContentLen,
    (halEfuseGetCurrentSizeWiFi img 0).1 = b ↔ (readLoop img).dataEnd = some b
  section8 : ∀ offset : UInt8, offset.toNat < efuseMaxSection →
    halEfusePgPacketRead img offset
      = (halReadEFuseWiFi img (offset.toNat * pgpktDataSize) pgpktDataSize).map Prod.fst
  map : ∀ fake, (halReadEFuseWiFi img 0 512).map Prod.fst
    = some ((List.range 512).map (rtwEfuseAnalyze img fake))

/-- The bytes behind a header without words read the same when the second byte of the header is
taken for a header: it is the first byte of another header without words, or it makes no
difference to the packet behind it. -/
def BlankOk (img : Raw) (a : Nat) : Prop :=
  extHeader (img (a + 1)) = true ∧
    (allWordsDisabled (img (a + 2)) = true ∨
      img (a + 1) = 0x0F ∧ img (a + 2) < 0x10 ∧ a + 2 < efuseRealContentLen)

/-- From the address on, every packet is in a section below the limit and ends before the last
byte of the array, and the bytes behind every header without words are as in `BlankOk`. -/
inductive Readable (img : Raw) : Nat → Prop
  | off {a : Nat} (ha : efuseRealContentLen ≤ a) : Readable img a
  | stop {a : Nat} (hhead : head img a = .stop) : Readable img a
  | blank {a : Nat} (ha : a < efuseRealContentLen) (hhead : head img a = .blank)
      (hok : a + 1 < efuseRealContentLen → BlankOk img a) (hrest : Readable img (a + 2)) :
      Readable img a
  | pkt {a d : Nat} {offset wden : UInt8} (ha : a < efuseRealContentLen)
      (hhead : head img a = .pkt d offset wden) (hoff : offset.toNat < efuseMaxSection)
      (hend : d + dataLen wden < efuseRealContentLen)
      (hrest : Readable img (d + dataLen wden)) : Readable img a

/-! ## 2. The walks, header by header -/

theorem split_off {skip : Nat} (hskip : 0 < skip) (ha : efuseRealContentLen ≤ a) :
    split (headNext img skip) efuseRealContentLen a = ([], a) :=
  (headNext_advances img hskip).split_stop (headNext_off ha)

theorem split_stop {skip : Nat} (hskip : 0 < skip) (h : head img a = .stop) :
    split (headNext img skip) efuseRealContentLen a = ([], a) :=
  (headNext_advances img hskip).split_stop (headNext_stop h)

theorem split_blank {skip : Nat} (hskip : 0 < skip) (ha : a < efuseRealContentLen)
    (h : head img a = .blank) :
    split (headNext img skip) efuseRealContentLen a
      = split (headNext img skip) efuseRealContentLen (a + skip) :=
  (headNext_advances img hskip).split_step (headNext_blank ha h)

theorem split_pkt {skip : Nat} (hskip : 0 < skip) (ha : a < efuseRealContentLen) {d : Nat}
    {offset wden : UInt8} (h : head img a = .pkt d offset wden) :
    split (headNext img skip) efuseRealContentLen a
      = (⟨offset, wden, bytes img d (dataLen wden)⟩ ::
          (split (headNext img skip) efuseRealContentLen (d + dataLen wden)).1,
        (split (headNext img skip) efuseRealContentLen (d + dataLen wden)).2) :=
  (headNext_advances img hskip).split_step (headNext_pkt ha h)

theorem ext_disabled : ∀ h : UInt8, extHeader h = true → allWordsDisabled h = true :=
  UInt8.forall_byte (by decide +kernel)

/-- The second byte of a header without words, and the byte behind it, taken for a header: when
it names the section that the byte behind it names alone. -/
theorem swapped_offset : ∀ e : UInt8, extHeader e = true → ∀ e' : UInt8,
    (getHdrOffset20 e ||| ((e' &&& 0xF0) >>> 1) = (e' >>> 4) &&& 0x0F ↔ e = 0x0F ∧ e' < 0x10) :=
  UInt8.forall_byte fun n hn => UInt8.forall_byte (by revert n; decide +kernel)

theorem head_blank (h : head img a = .blank) :
    allWordsDisabled (img (a + 1)) = true := by
  unfold head at h
  split at h
  · cases h
  · split at h
    · split at h
      · assumption
      · cases h
    · cases h

/-- How `hal_EfuseGetCurrentSize_WiFi` goes on behind the first byte of a header without words.
The other loops are at `a + 2` then. -/
inductive Resync (img : Raw) (a : Nat) : Prop
  /-- The second byte is the end. -/
  | early (hff : img (a + 1) = 0xFF) (hs : sizeSplit img (a + 1) = ([], a + 1))
  /-- The second byte is a packet without words. -/
  | extra (hext : extHeader (img (a + 1)) = false) (p : Packet)
      (hs : sizeSplit img (a + 1) = (p :: (sizeSplit img (a + 2)).1, (sizeSplit img (a + 2)).2))
  /-- It is the first byte of a header without words, too. -/
  | even (hext : extHeader (img (a + 1)) = true) (hwords : allWordsDisabled (img (a + 2)) = true)
      (hs : sizeSplit img (a + 1) = sizeSplit img (a + 2))
  /-- It is the first byte of a packet that begins with the last byte of the array. -/
  | beyond (hge : efuseRealContentLen ≤ a + 2)
      (hwords : allWordsDisabled (img (a + 2)) = false) (p : Packet) (rest : List Packet)
      (hs : (sizeSplit img (a + 1)).1 = p :: rest)
  /-- It is the first byte of a packet, with the data that the byte behind it has alone. -/
  | swapped (hext : extHeader (img (a + 1)) = true) (hlt : a + 2 < efuseRealContentLen)
      (hwords : allWordsDisabled (img (a + 2)) = false) (b : Nat) (hb : a + 2 < b)
      (p p' : Packet)
      (hs : sizeSplit img (a + 1) = (p :: (sizeSplit img b).1, (sizeSplit img b).2))
      (hs' : sizeSplit img (a + 2) = (p' :: (sizeSplit img b).1, (sizeSplit img b).2))
      (hr' : readSplit img (a + 2) = (p' :: (readSplit img b).1, (readSplit img b).2))
      (hp : p = p' ↔ img (a + 1) = 0x0F ∧ img (a + 2) < 0x10)

theorem resync (hhead : head img a = .blank) (ha : a + 1 < efuseRealContentLen) :
    Resync img a := by
  have hdis := head_blank hhead
  by_cases hff : img (a + 1) = 0xFF
  · have hstop : head img (a + 1) = .stop := if_pos hff
    exact .early hff (split_stop (by decide) hstop)
  cases hext : extHeader (img (a + 1)) with
  | false =>
    have hpkt : head img (a + 1)
        = .pkt (a + 2) ((img (a + 1) >>> 4) &&& 0x0F) (img (a + 1) &&& 0x0F) := by
      simp [head, hff, hext]
    have hs := split_pkt (by decide : 0 < 1) ha hpkt
    have hlen : dataLen (img (a + 1) &&& 0x0F) = 0 := by
      unfold dataLen
      rw [wordCnts_disabled _ hdis]
    rw [hlen] at hs
    exact .extra hext _ hs
  | true =>
    cases hwords : allWordsDisabled (img (a + 2)) with
    | true =>
      have hblank : head img (a + 1) = .blank := by simp [head, hff, hext, hwords]
      exact .even hext hwords (split_blank (by decide) ha hblank)
    | false =>
      have hpkt : head img (a + 1) = .pkt (a + 3)
          (getHdrOffset20 (img (a + 1)) ||| ((img (a + 2) &&& 0xF0) >>> 1))
          (img (a + 2) &&& 0x0F) := by
        simp [head, hff, hext, hwords]
      have hs := split_pkt (by decide : 0 < 1) ha hpkt
      rcases Nat.lt_or_ge (a + 2) efuseRealContentLen with hlt | hge
      · have hff' : img (a + 2) ≠ 0xFF := by
          intro heq
          rw [heq] at hwords
          exact Bool.noConfusion hwords
        have hext' : extHeader (img (a + 2)) = false := by
          by_contra hne
          rw [ext_disabled _ (by simpa using hne)] at hwords
          cases hwords
        have hpkt' : head img (a + 2)
            = .pkt (a + 3) ((img (a + 2) >>> 4) &&& 0x0F) (img (a + 2) &&& 0x0F) := by
          simp [head, hff', hext']
        refine .swapped hext hlt hwords _ (by omega) _ _ hs (split_pkt (by decide) hlt hpkt')
          (split_pkt (by decide) hlt hpkt') ?_
        rw [← swapped_offset _ hext, Packet.mk.injEq]
        simp
      · exact .beyond hge hwords _ _ (congrArg Prod.fst hs)

/-! ## 3. The size -/

/-- Both loops stop at the same address of the array, or neither stops in it. -/
def StopEq (img : Raw) (a : Nat) : Prop :=
  ∀ b < efuseRealContentLen, (sizeSplit img a).2 = b ↔ (readSplit img a).2 = b

theorem StopEq.of_eq {b : Nat} (h : StopEq img a)
    (hs : (sizeSplit img a).2 = (sizeSplit img b).2)
    (hr : (readSplit img a).2 = (readSplit img b).2) : StopEq img b := by
  intro c hc
  rw [← hs, ← hr]
  exact h c hc

/-- `hal_EfuseGetCurrentSize_WiFi` does not stop early, so the second byte is not the end. -/
theorem StopEq.not_early (h : StopEq img a) (ha : a + 1 < efuseRealContentLen)
    (hs : (sizeSplit img a).2 = a + 1) (hr : (readSplit img a).2 = (readSplit img (a + 2)).2) :
    False := by
  have hstop := (h (a + 1) ha).mp hs
  have hle := (headNext_advances img (by decide : 0 < 2)).le_split (a + 2)
  rw [hr] at hstop
  change (readSplit img (a + 2)).2 = a + 1 at hstop
  change a + 2 ≤ (readSplit img (a + 2)).2 at hle
  omega

/-- Where both stop at the same address, `hal_EfuseGetCurrentSize_WiFi` went over no fewer
packets. -/
theorem StopEq.length_le (h : StopEq img a) :
    (readSplit img a).1.length ≤ (sizeSplit img a).1.length := by
  revert h
  refine induct_from (P := fun a => StopEq img a →
    (readSplit img a).1.length ≤ (sizeSplit img a).1.length) efuseRealContentLen ?_ a
  intro a ih h
  rcases Nat.lt_or_ge a efuseRealContentLen with ha | ha
  · cases hhead : head img a with
    | stop =>
      rw [readSplit, split_stop (by decide) hhead]
      exact Nat.zero_le _
    | pkt d offset wden =>
      have hd := head_pkt hhead
      have hs := split_pkt (by decide : 0 < 1) ha hhead
      have hr := split_pkt (by decide : 0 < 2) ha hhead
      have hrest := ih ha (d + dataLen wden) (by omega)
        (h.of_eq (by rw [sizeSplit, hs]) (by rw [readSplit, hr]))
      rw [readSplit, sizeSplit, hs, hr]
      exact Nat.succ_le_succ hrest
    | blank =>
      have hs : sizeSplit img a = sizeSplit img (a + 1) := split_blank (by decide) ha hhead
      have hr : readSplit img a = readSplit img (a + 2) := split_blank (by decide) ha hhead
      rw [hs, hr]
      rcases Nat.lt_or_ge (a + 1) efuseRealContentLen with hlt | hge
      · cases resync hhead hlt with
        | early _ he =>
          exact (h.not_early hlt (by rw [hs, he]) (congrArg Prod.snd hr)).elim
        | extra _ p he =>
          have hrest := ih ha (a + 2) (by omega)
            (h.of_eq (by rw [hs, he]) (congrArg Prod.snd hr))
          rw [he]
          exact Nat.le_succ_of_le hrest
        | even _ _ he =>
          rw [he]
          exact ih ha (a + 2) (by omega) (h.of_eq (by rw [hs, he]) (congrArg Prod.snd hr))
        | beyond hge _ p rest he =>
          rw [readSplit, split_off (by decide) hge]
          exact Nat.zero_le _
        | swapped _ _ _ b hb p p' he _ hr' _ =>
          have hrest := ih ha b (by omega) (h.of_eq (by rw [hs, he]) (by rw [hr, hr']))
          rw [he, hr']
          exact Nat.succ_le_succ hrest
      · rw [readSplit, split_off (by decide) (by omega)]
        exact Nat.zero_le _
  · rw [readSplit, split_off (by decide) ha]
    exact Nat.zero_le _

/-! ## 4. `rtw_efuse_analyze` -/

theorem analyzeSplit_end (ha : efuseRealContentLen ≤ a + 1) : analyzeSplit img a = ([], a) :=
  (analyzeNext_advances img).split_stop (if_neg (Nat.not_lt.mpr ha))

theorem analyzeSplit_stop (h : head img a = .stop) : analyzeSplit img a = ([], a) := by
  refine (analyzeNext_advances img).split_stop ?_
  unfold analyzeNext
  rw [h]
  exact ite_self none

theorem analyzeSplit_blank (ha : a + 1 < efuseRealContentLen) (h : head img a = .blank)
    (hff : img (a + 1) ≠ 0xFF) : analyzeSplit img a = analyzeSplit img (a + 2) := by
  have hnext : analyzeNext img a = some (a + 2, none) := by
    unfold analyzeNext
    rw [if_pos ha, h]
    exact if_neg hff
  exact (analyzeNext_advances img).split_step hnext

theorem analyzeSplit_pkt (ha : a + 1 < efuseRealContentLen) {d : Nat} {offset wden : UInt8}
    (h : head img a = .pkt d offset wden) :
    analyzeSplit img a
      = (⟨offset, wden, bytes img d (analyzeLen d offset wden)⟩ ::
          (analyzeSplit img (d + analyzeLen d offset wden)).1,
        (analyzeSplit img (d + analyzeLen d offset wden)).2) := by
  have hnext : analyzeNext img a = some (d + analyzeLen d offset wden,
      some ⟨offset, wden, bytes img d (analyzeLen d offset wden)⟩) := by
    unfold analyzeNext
    rw [if_pos ha, h]
  exact (analyzeNext_advances img).split_step hnext

/-- `rtw_efuse_analyze` takes the whole packet when its section is below the limit and it ends
before the last byte of the array, and only then. -/
theorem analyzeLen_eq_iff (ha : a + 1 < efuseRealContentLen) {d : Nat} {offset wden : UInt8}
    (h : head img a = .pkt d offset wden) :
    analyzeLen d offset wden = dataLen wden ↔
      offset.toNat < efuseMaxSection ∧ d + dataLen wden < efuseRealContentLen := by
  have hlimit : 16 ≤ efuseMaxSection := by decide
  unfold analyzeLen dataLen wordsInside
  rcases head_pkt h with ⟨hd, hoff⟩ | ⟨hd, hcnt⟩
  · have hsec : offset.toNat < efuseMaxSection := by omega
    rw [if_pos hsec]
    omega
  · split <;> omega

/-! ## 5. Where they agree -/

/-- From the address on, the three walks go over the same packets, and the size is right. -/
def SameFrom (img : Raw) (a : Nat) : Prop :=
  (sizeSplit img a).1 = (readSplit img a).1 ∧ StopEq img a ∧
    (analyzeSplit img a).1 = (readSplit img a).1

/-- The second byte of a header without words makes no difference to the size. -/
theorem blank_size_iff (ha : a + 1 < efuseRealContentLen) (hhead : head img a = .blank) :
    ((sizeSplit img a).1 = (readSplit img a).1 ∧ StopEq img a) ↔
      BlankOk img a ∧ (sizeSplit img (a + 2)).1 = (readSplit img (a + 2)).1 ∧
        StopEq img (a + 2) := by
  have hs : sizeSplit img a = sizeSplit img (a + 1) :=
    split_blank (by decide) (by omega) hhead
  have hr : readSplit img a = readSplit img (a + 2) :=
    split_blank (by decide) (by omega) hhead
  have hdis := head_blank hhead
  unfold BlankOk
  cases resync hhead ha with
  | early hff he =>
    have hext : ¬extHeader (img (a + 1)) = true := by
      rw [hff]
      decide
    constructor
    · rintro ⟨-, hstop⟩
      exact (hstop.not_early ha (by rw [hs, he]) (congrArg Prod.snd hr)).elim
    · rintro ⟨⟨hok, -⟩, -⟩
      exact absurd hok hext
  | extra hext p he =>
    constructor
    · rintro ⟨heq, hstop⟩
      have hstop' : StopEq img (a + 2) := hstop.of_eq (by rw [hs, he]) (congrArg Prod.snd hr)
      have hle := hstop'.length_le
      rw [hs, he, hr] at heq
      rw [← heq, List.length_cons] at hle
      omega
    · rintro ⟨⟨hok, -⟩, -⟩
      rw [hext] at hok
      cases hok
  | even hext hwords he =>
    constructor
    · rintro ⟨heq, hstop⟩
      rw [hs, he, hr] at heq
      exact ⟨⟨hext, .inl hwords⟩, heq,
        hstop.of_eq (by rw [hs, he]) (congrArg Prod.snd hr)⟩
    · rintro ⟨-, heq, hstop⟩
      rw [hs, he, hr]
      refine ⟨heq, ?_⟩
      intro b hb
      rw [hs, he, hr]
      exact hstop b hb
  | beyond hge hwords p rest he =>
    constructor
    · rintro ⟨heq, -⟩
      rw [hs, he, hr, readSplit, split_off (by decide) hge] at heq
      cases heq
    · rintro ⟨⟨-, hok⟩, -⟩
      rcases hok with hok | ⟨-, -, hlt⟩
      · rw [hwords] at hok
        cases hok
      · omega
  | swapped hext hlt hwords b hb p p' he he' hr' hp =>
    rw [hwords]
    constructor
    · rintro ⟨heq, hstop⟩
      rw [hs, he, hr, hr'] at heq
      obtain ⟨hpp, hrest⟩ := List.cons.inj heq
      obtain ⟨he0, he1⟩ := hp.mp hpp
      refine ⟨⟨hext, .inr ⟨he0, he1, hlt⟩⟩, ?_, ?_⟩
      · rw [he', hr', hrest]
      · exact hstop.of_eq (by rw [hs, he, he']) (congrArg Prod.snd hr)
    · rintro ⟨⟨-, hok⟩, heq, hstop⟩
      obtain ⟨he0, he1, -⟩ := hok.resolve_left Bool.false_ne_true
      have hsame : sizeSplit img a = sizeSplit img (a + 2) := by
        rw [hs, he, he', hp.mpr ⟨he0, he1⟩]
      refine ⟨?_, ?_⟩
      · rw [hsame, hr, heq]
      · intro c hc
        rw [hsame, hr]
        exact hstop c hc

theorem SameFrom.readable (h : SameFrom img a) : Readable img a := by
  revert h
  refine induct_from (P := fun a => SameFrom img a → Readable img a) efuseRealContentLen ?_ a
  rintro a ih ⟨hsize, hstop, hanalyze⟩
  rcases Nat.lt_or_ge a efuseRealContentLen with ha | ha
  · cases hhead : head img a with
    | stop => exact .stop hhead
    | blank =>
      rcases Nat.lt_or_ge (a + 1) efuseRealContentLen with hlt | hge
      · obtain ⟨hok, hsize', hstop'⟩ := (blank_size_iff hlt hhead).mp ⟨hsize, hstop⟩
        have hff : img (a + 1) ≠ 0xFF := by
          intro hff
          have hext := hok.1
          rw [hff] at hext
          exact absurd hext (by decide)
        have hr : readSplit img a = readSplit img (a + 2) := split_blank (by decide) ha hhead
        rw [analyzeSplit_blank hlt hhead hff, hr] at hanalyze
        exact .blank ha hhead (fun _ => hok) (ih ha (a + 2) (by omega) ⟨hsize', hstop', hanalyze⟩)
      · exact .blank ha hhead (fun hlt => absurd hlt (Nat.not_lt.mpr hge)) (.off (by omega))
    | pkt d offset wden =>
      have hd := head_pkt hhead
      have hs := split_pkt (by decide : 0 < 1) ha hhead
      have hr := split_pkt (by decide : 0 < 2) ha hhead
      have hlt : a + 1 < efuseRealContentLen := by
        by_contra hge
        rw [analyzeSplit_end (Nat.not_lt.mp hge), readSplit, hr] at hanalyze
        cases hanalyze
      rw [analyzeSplit_pkt hlt hhead, readSplit, hr] at hanalyze
      obtain ⟨hpacket, hrest⟩ := List.cons.inj hanalyze
      have hlen : analyzeLen d offset wden = dataLen wden := by
        have hdata := congrArg (fun p => p.data.length) hpacket
        simpa using hdata
      obtain ⟨hoff, hend⟩ := (analyzeLen_eq_iff hlt hhead).mp hlen
      rw [hlen] at hrest
      rw [sizeSplit, readSplit, hs, hr] at hsize
      refine .pkt ha hhead hoff hend (ih ha (d + dataLen wden) (by omega) ⟨?_, ?_, hrest⟩)
      · exact (List.cons.inj hsize).2
      · exact hstop.of_eq (by rw [sizeSplit, hs]) (by rw [readSplit, hr])
  · exact .off ha

theorem Readable.same (h : Readable img a) : SameFrom img a := by
  induction h with
  | off ha =>
    refine ⟨?_, ?_, ?_⟩
    · rw [sizeSplit, readSplit, split_off (by decide) ha, split_off (by decide) ha]
    · intro b _
      rw [sizeSplit, readSplit, split_off (by decide) ha, split_off (by decide) ha]
    · rw [analyzeSplit_end (by omega), readSplit, split_off (by decide) ha]
  | stop hhead =>
    refine ⟨?_, ?_, ?_⟩
    · rw [sizeSplit, readSplit, split_stop (by decide) hhead, split_stop (by decide) hhead]
    · intro b _
      rw [sizeSplit, readSplit, split_stop (by decide) hhead, split_stop (by decide) hhead]
    · rw [analyzeSplit_stop hhead, readSplit, split_stop (by decide) hhead]
  | @blank a ha hhead hok _ ih =>
    obtain ⟨hsize, hstop, hanalyze⟩ := ih
    have hr : readSplit img a = readSplit img (a + 2) := split_blank (by decide) ha hhead
    rcases Nat.lt_or_ge (a + 1) efuseRealContentLen with hlt | hge
    · obtain ⟨hsize', hstop'⟩ := (blank_size_iff hlt hhead).mpr ⟨hok hlt, hsize, hstop⟩
      have hff : img (a + 1) ≠ 0xFF := by
        intro hff
        have hext := (hok hlt).1
        rw [hff] at hext
        exact absurd hext (by decide)
      refine ⟨hsize', hstop', ?_⟩
      rw [analyzeSplit_blank hlt hhead hff, hr, hanalyze]
    · -- The header is the last byte of the array, and its second byte is behind it.
      have hs : sizeSplit img a = sizeSplit img (a + 1) := split_blank (by decide) ha hhead
      have hs' : sizeSplit img (a + 1) = ([], a + 1) := split_off (by decide) hge
      have hr' : readSplit img (a + 2) = ([], a + 2) := split_off (by decide) (by omega)
      refine ⟨?_, ?_, ?_⟩
      · rw [hs, hs', hr, hr']
      · intro b hb
        rw [hs, hs', hr, hr']
        dsimp only
        omega
      · rw [analyzeSplit_end hge, hr, hr']
  | @pkt a d offset wden ha hhead hoff hend _ ih =>
    obtain ⟨hsize, hstop, hanalyze⟩ := ih
    have hd := head_pkt hhead
    have hlt : a + 1 < efuseRealContentLen := by omega
    have hs := split_pkt (by decide : 0 < 1) ha hhead
    have hr := split_pkt (by decide : 0 < 2) ha hhead
    have hlen := (analyzeLen_eq_iff hlt hhead).mpr ⟨hoff, hend⟩
    refine ⟨?_, ?_, ?_⟩
    · rw [sizeSplit, readSplit, hs, hr, hsize]
    · intro b hb
      rw [sizeSplit, readSplit, hs, hr]
      exact hstop b hb
    · rw [analyzeSplit_pkt hlt hhead, hlen, readSplit, hr, hanalyze]

/-! ## 6. The result -/

/-- `hal_ReadEFuse_WiFi` reports the end of the data where its walk stops in the array. -/
theorem dataEnd_iff (img : Raw) {b : Nat} (hb : b < efuseRealContentLen) :
    (readLoop img).dataEnd = some b ↔ (readSplit img 0).2 = b := by
  obtain ⟨-, -, ⟨-, hend, -⟩ | ⟨hge, hend, -⟩⟩ := readLoop_spec img
  · rw [hend]
    exact Option.some_inj
  · rw [hend]
    constructor
    · intro h
      cases h
    · intro h
      omega

/-- The map, as it is copied to the caller. -/
theorem halReadEFuseWiFi_eq (img : Raw) {offset sizeByte : Nat}
    (h : offset + sizeByte ≤ efuseMaxMapLen) :
    (halReadEFuseWiFi img offset sizeByte).map Prod.fst
      = some ((List.range sizeByte).map fun i => mapOf (readSplit img 0).1 (offset + i)) := by
  obtain ⟨-, htbl, -⟩ := readLoop_spec img
  unfold halReadEFuseWiFi
  rw [if_neg (Nat.not_lt.mpr h)]
  simp [htbl]

/-- A section is read as it is in the map, whatever the image. -/
theorem pgPacketRead_eq (img : Raw) {offset : UInt8} (hoff : offset.toNat < efuseMaxSection) :
    halEfusePgPacketRead img offset
      = (halReadEFuseWiFi img (offset.toNat * pgpktDataSize) pgpktDataSize).map Prod.fst := by
  obtain ⟨-, hdata⟩ := pgReadLoop_spec img hoff
  have hfits : offset.toNat * pgpktDataSize + pgpktDataSize ≤ efuseMaxMapLen := by
    unfold efuseMaxSection at hoff
    unfold pgpktDataSize efuseMaxMapLen
    omega
  rw [halReadEFuseWiFi_eq img hfits]
  unfold halEfusePgPacketRead
  rw [if_neg (by omega)]
  refine congrArg some (List.map_congr_left fun j hj => ?_)
  exact hdata j (List.mem_range.mp hj)

/-- `rtw_efuse_analyze` builds the map of the packets it prints. -/
theorem rtwEfuseAnalyze_eq (img : Raw) (fake : Bool) {i : Nat} (hi : i < 512) :
    rtwEfuseAnalyze img fake i = mapOf (analyzeSplit img 0).1 i := by
  obtain ⟨-, hwords⟩ := analyzeLoop_spec img
  unfold rtwEfuseAnalyze
  split
  · rename_i hff
    have hstop : head img 0 = .stop := if_pos hff.1
    rw [analyzeSplit_stop hstop]
    rfl
  · dsimp only
    have hmap : i < efuseMaxSection * 8 := hi
    rw [if_pos hmap, hwords]

/-- **The four loops read the same content if and only if the image is readable:** every packet
is in a section below the limit and ends before the last byte of the array, and the second byte
of a header without words reads as a header like the first. -/
theorem walkers_agree (img : Raw) : Agree img ↔ Readable img 0 := by
  obtain ⟨hreadPackets, -, -⟩ := readLoop_spec img
  obtain ⟨hsizePackets, hsizeEnd⟩ := sizeLoop_zero img
  obtain ⟨hanalyzePackets, -⟩ := analyzeLoop_spec img
  constructor
  · intro h
    refine SameFrom.readable ⟨?_, ?_, ?_⟩
    · rw [← hsizePackets, ← hreadPackets]
      exact h.sizePackets
    · intro b hb
      have hend := h.dataEnd b hb
      rwa [hsizeEnd, dataEnd_iff img hb] at hend
    · rw [← hanalyzePackets, ← hreadPackets]
      exact h.analyzePackets
  · intro h
    obtain ⟨hsize, hstop, hanalyze⟩ := h.same
    constructor
    · rw [hsizePackets, hreadPackets, hsize]
    · intro offset hoff
      rw [(pgReadLoop_spec img hoff).1, hreadPackets]
    · rw [hanalyzePackets, hreadPackets, hanalyze]
    · intro b hb
      rw [hsizeEnd, dataEnd_iff img hb]
      exact hstop b hb
    · intro offset hoff
      exact pgPacketRead_eq img hoff
    · intro fake
      rw [halReadEFuseWiFi_eq img (by decide)]
      refine congrArg some (List.map_congr_left fun i hi => ?_)
      rw [rtwEfuseAnalyze_eq img fake (List.mem_range.mp hi), hanalyze, Nat.zero_add]

/-- An image with the first byte of a header, whose second byte was not programmed, and a packet
behind it: word 0 of section 1. -/
def interruptedImage : Raw := fun a => [0x0F, 0xFF, 0x1E, 0xAA, 0xBB].getD a 0xFF

/-- `hal_ReadEFuse_WiFi` finds the packet and reports the end of the data at 5;
`hal_EfuseGetCurrentSize_WiFi` returns 1, an address in use, and `rtw_efuse_analyze` builds a
map without the packet. -/
theorem walkers_disagree :
    ¬Agree interruptedImage ∧ (readLoop interruptedImage).dataEnd = some 5 ∧
      (readLoop interruptedImage).efuseTbl 8 = 0xAA ∧
      (halEfuseGetCurrentSizeWiFi interruptedImage 0).1 = 1 ∧
      rtwEfuseAnalyze interruptedImage false 8 = 0xFF := by
  have hend : (readLoop interruptedImage).dataEnd = some 5 := by decide
  refine ⟨?_, hend, by decide, by decide, by decide⟩
  intro h
  have hsize := (h.dataEnd 5 (by decide)).mpr hend
  revert hsize
  decide

end Rtl8723bs.Efuse
