/-
# `rtw_efuse_analyze`

The loop that prints the packets and builds the map once more.  It is a walk as well, but not
that of `hal_ReadEFuse_WiFi`: it ends at a second header byte 0xFF and one byte before the end
of the array, and goes on right behind the header of a section that is too large.
-/
import Rtl8723bs.Efuse.Walkers

namespace Rtl8723bs.Efuse

open Walk

/-! ## 1. The loop -/

/-- The loop over the words of a section, which breaks where it takes the array to end: the
address, `efuseData[0 .. dataCnt)` and `eFuseWord`. -/
def analyzeWords (img : Raw) (wden : UInt8) (base : Nat) :
    List Nat → Nat → List UInt8 → Tbl → Nat × List UInt8 × Tbl
  | [], addr, data, words => (addr, data, words)
  | i :: is, addr, data, words =>
    if wordEnabled wden i then
      if addr + 2 < efuseRealContentLen then
        analyzeWords img wden base is (addr + 2) (data ++ [img addr, img (addr + 1)])
          (Function.update (Function.update words (base + 2 * i) (img addr)) (base + 2 * i + 1)
            (img (addr + 1)))
      else (addr, data, words)
    else analyzeWords img wden base is addr data words

/-- The variables of the loop; `eFuseAddr` is behind the header. -/
structure AnalyzeSt where
  efuseHeader : UInt8
  eFuseAddr : Nat
  eFuseWord : Tbl
  packets : List Packet

/-- The part of a turn after the header: the words, the packet that is printed, and the next
header. -/
def analyzeSection (img : Raw) (s : AnalyzeSt) (addr : Nat) (offset wden : UInt8) : AnalyzeSt :=
  let r :=
    if offset.toNat < efuseMaxSection then
      analyzeWords img wden (offset.toNat * 8) (List.range efuseMaxWordUnit) addr [] s.eFuseWord
    else (addr, [], s.eFuseWord)
  { efuseHeader := img r.1
    eFuseAddr := r.1 + 1
    eFuseWord := r.2.2
    packets := s.packets ++ [⟨offset, wden, r.2.1⟩] }

def analyzeTurn (img : Raw) (s : AnalyzeSt) : Turn AnalyzeSt :=
  if s.efuseHeader ≠ 0xFF ∧ s.eFuseAddr < efuseRealContentLen then
    if extHeader s.efuseHeader then
      let efuseExtHdr := img s.eFuseAddr
      if efuseExtHdr ≠ 0xFF then
        if allWordsDisabled efuseExtHdr then
          .go { s with efuseHeader := img (s.eFuseAddr + 1), eFuseAddr := s.eFuseAddr + 2 }
        else
          .go (analyzeSection img s (s.eFuseAddr + 1)
            (((efuseExtHdr &&& 0xF0) >>> 1) ||| getHdrOffset20 s.efuseHeader)
            (efuseExtHdr &&& 0x0F))
      else .stop { s with eFuseAddr := s.eFuseAddr + 1 }
    else
      .go (analyzeSection img s s.eFuseAddr ((s.efuseHeader >>> 4) &&& 0x0F)
        (s.efuseHeader &&& 0x0F))
  else .stop s

def analyzeLoop (img : Raw) : AnalyzeSt :=
  runLoop (analyzeTurn img) (efuseRealContentLen + 1) ⟨img 0, 1, blankTbl, []⟩

/-- `rtw_efuse_analyze` of the Wi-Fi content: `fakeEfuseInitMap`, which stays blank if the first
header is the end (`fake`: the pseudo content, where the loop is begun all the same). -/
def rtwEfuseAnalyze (img : Raw) (fake : Bool) : Tbl :=
  if img 0 = 0xFF ∧ fake = false then blankTbl
  else fun i => if i < efuseMaxSection * 8 then (analyzeLoop img).eFuseWord i else blankTbl i

/-! ## 2. Its walk -/

/-- The words that loop reads: those that end before the last byte of the array. -/
def wordsInside (cnt addr : Nat) : Nat := min cnt ((efuseRealContentLen - 1 - addr) / 2)

theorem analyzeWords_eq (img : Raw) (wden : UInt8) (base : Nat) (is : List Nat) (addr : Nat)
    (data : List UInt8) (words : Tbl) :
    let n := 2 * wordsInside (enabled wden is).length addr
    analyzeWords img wden base is addr data words
      = (addr + n, data ++ bytes img addr n,
          (is.foldl (putWord wden base) (bytes img addr n, words)).2) := by
  dsimp only
  induction is generalizing addr data words with
  | nil => simp [analyzeWords, enabled, wordsInside, bytes]
  | cons i is ih =>
    rw [List.foldl_cons]
    unfold analyzeWords
    cases hi : wordEnabled wden i with
    | false =>
      have hlen : enabled wden (i :: is) = enabled wden is := by simp [enabled, hi]
      have hput : ∀ r, putWord wden base r i = r := by
        intro r
        simp [putWord, hi]
      rw [hlen, hput, if_neg Bool.false_ne_true, ih]
    | true =>
      have hlen : (enabled wden (i :: is)).length = (enabled wden is).length + 1 := by
        simp [enabled, hi]
      rw [if_pos rfl, hlen]
      split
      · rename_i hin
        have hcnt : wordsInside ((enabled wden is).length + 1) addr
            = wordsInside (enabled wden is).length (addr + 2) + 1 := by
          unfold wordsInside
          omega
        rw [hcnt, bytes_word, ih]
        unfold putWord
        rw [if_pos hi]
        refine Prod.ext ?_ (Prod.ext ?_ rfl)
        · dsimp only
          omega
        · simp
      · rename_i hout
        have hcnt : wordsInside ((enabled wden is).length + 1) addr = 0 := by
          unfold wordsInside
          omega
        -- Without data no word is put any more.
        have hnone : ∀ js : List Nat, js.foldl (putWord wden base) ([], words) = ([], words) := by
          intro js
          induction js with
          | nil => rfl
          | cons j js hjs =>
            have hput : putWord wden base ([], words) j = ([], words) := by simp [putWord]
            rw [List.foldl_cons, hput, hjs]
        have hbytes : bytes img addr 0 = [] := rfl
        rw [hcnt, Nat.mul_zero, hbytes, ← List.foldl_cons, hnone, List.append_nil, Nat.add_zero]

/-- The length of the data that `rtw_efuse_analyze` takes a packet to have. -/
def analyzeLen (addr : Nat) (offset wden : UInt8) : Nat :=
  if offset.toNat < efuseMaxSection then 2 * wordsInside (efuseCalculateWordCnts wden) addr else 0

/-- The walk of `rtw_efuse_analyze`: it ends before the last byte of the array and at a second
header byte 0xFF, and takes what follows a section that is too large for headers. -/
def analyzeNext (img : Raw) : Next Packet := fun a =>
  if a + 1 < efuseRealContentLen then
    match head img a with
    | .stop => none
    | .blank => if img (a + 1) = 0xFF then none else some (a + 2, none)
    | .pkt d offset wden =>
      some (d + analyzeLen d offset wden, some ⟨offset, wden, bytes img d (analyzeLen d offset wden)⟩)
  else none

theorem analyzeNext_advances (img : Raw) : Advances (analyzeNext img) efuseRealContentLen where
  lt := by
    intro a b p h
    unfold analyzeNext at h
    split at h
    · split at h
      · cases h
      · split at h
        · cases h
        · cases h
          omega
      · rename_i d offset wden hhead
        cases h
        have hd := head_pkt hhead
        omega
    · cases h
  stop := by
    intro a ha
    exact if_neg (by omega)

theorem analyzeSection_eq (img : Raw) (s : AnalyzeSt) (addr : Nat) (offset wden : UInt8) :
    analyzeSection img s addr offset wden
      = { efuseHeader := img (addr + analyzeLen addr offset wden)
          eFuseAddr := addr + analyzeLen addr offset wden + 1
          eFuseWord :=
            Packet.apply s.eFuseWord ⟨offset, wden, bytes img addr (analyzeLen addr offset wden)⟩
          packets :=
            s.packets ++ [⟨offset, wden, bytes img addr (analyzeLen addr offset wden)⟩] } := by
  unfold analyzeSection Packet.apply analyzeLen
  dsimp only
  split
  · have hwords := analyzeWords_eq img wden (offset.toNat * 8) (List.range efuseMaxWordUnit) addr
      [] s.eFuseWord
    dsimp only at hwords
    rw [length_enabled] at hwords
    rw [hwords]
    rfl
  · rfl

theorem analyzeTurn_eq {img : Raw} {s : AnalyzeSt} {a : Nat} (haddr : s.eFuseAddr = a + 1)
    (hhdr : s.efuseHeader = img a) (hlt : a + 1 < efuseRealContentLen) :
    analyzeTurn img s =
      match head img a with
      | .stop => .stop s
      | .blank =>
        if img (a + 1) = 0xFF then .stop { s with eFuseAddr := s.eFuseAddr + 1 }
        else .go { s with efuseHeader := img (a + 2), eFuseAddr := a + 3 }
      | .pkt d offset wden => .go (analyzeSection img s d offset wden) := by
  unfold analyzeTurn head
  rw [hhdr, haddr]
  by_cases hff : img a = 0xFF
  · simp only [hff, ne_eq, not_true_eq_false, false_and, if_true, if_false]
  by_cases hext : extHeader (img a)
  · have hor : ∀ x y : UInt8, x ||| y = y ||| x := UInt8.or_comm
    have hdis : allWordsDisabled 0xFF = true := rfl
    by_cases hwords : allWordsDisabled (img (a + 1))
    · by_cases hff' : img (a + 1) = 0xFF
      · simp [hff, hext, hff', hdis, hlt]
      · simp [hff, hext, hwords, hff', hlt]
    · have hff' : img (a + 1) ≠ 0xFF := by
        intro heq
        rw [heq] at hwords
        exact hwords rfl
      simp [hff, hext, hwords, hff', hlt, hor]
  · simp [hff, hext, hlt]

theorem analyzeTurn_end {img : Raw} {s : AnalyzeSt} (hge : efuseRealContentLen ≤ s.eFuseAddr) :
    analyzeTurn img s = .stop s := if_neg fun h => Nat.not_lt.mpr hge h.2

/-- The loop follows its walk; `eFuseWord` is the map of the packets it prints. -/
theorem analyzeTurn_follows (img : Raw) :
    Follows (analyzeTurn img) (analyzeNext img) (·.eFuseAddr - 1) (·.packets)
      (fun s => 0 < s.eFuseAddr ∧ s.efuseHeader = img (s.eFuseAddr - 1) ∧
        s.eFuseWord = mapOf s.packets) where
  go := by
    rintro s s' ⟨hpos, hhdr, hwords⟩ hgo
    obtain ⟨a, ha⟩ : ∃ a, s.eFuseAddr = a + 1 := ⟨s.eFuseAddr - 1, by omega⟩
    rw [ha, Nat.add_sub_cancel] at hhdr
    have hnext : analyzeNext img (s.eFuseAddr - 1) = analyzeNext img a := by
      rw [ha, Nat.add_sub_cancel]
    rw [hnext]
    rcases Nat.lt_or_ge (a + 1) efuseRealContentLen with hlt | hge
    · rw [analyzeTurn_eq ha hhdr hlt] at hgo
      unfold analyzeNext
      rw [if_pos hlt]
      cases hhead : head img a with
      | stop =>
        rw [hhead] at hgo
        cases hgo
      | blank =>
        rw [hhead] at hgo
        dsimp only at hgo ⊢
        split at hgo
        · cases hgo
        · rename_i hff
          cases hgo
          rw [if_neg hff]
          exact ⟨⟨Nat.succ_pos _, rfl, hwords⟩, none, rfl, (List.append_nil _).symm⟩
      | pkt d offset wden =>
        rw [hhead] at hgo
        dsimp only at hgo
        rw [analyzeSection_eq] at hgo
        cases hgo
        refine ⟨⟨Nat.succ_pos _, rfl, ?_⟩, _, rfl, rfl⟩
        rw [mapOf_append, hwords]
    · rw [analyzeTurn_end (ha ▸ hge)] at hgo
      cases hgo
  stop := by
    rintro s s' ⟨hpos, hhdr, -⟩ hstop
    obtain ⟨a, ha⟩ : ∃ a, s.eFuseAddr = a + 1 := ⟨s.eFuseAddr - 1, by omega⟩
    rw [ha, Nat.add_sub_cancel] at hhdr
    have hnext : analyzeNext img (s.eFuseAddr - 1) = analyzeNext img a := by
      rw [ha, Nat.add_sub_cancel]
    rw [hnext]
    rcases Nat.lt_or_ge (a + 1) efuseRealContentLen with hlt | hge
    · rw [analyzeTurn_eq ha hhdr hlt] at hstop
      unfold analyzeNext
      rw [if_pos hlt]
      cases hhead : head img a with
      | stop => rfl
      | blank =>
        rw [hhead] at hstop
        dsimp only at hstop ⊢
        split at hstop
        · rename_i hff
          exact if_pos hff
        · cases hstop
      | pkt d offset wden =>
        rw [hhead] at hstop
        cases hstop
    · unfold analyzeNext
      rw [if_neg (Nat.not_lt.mpr hge)]

/-- The packets of `rtw_efuse_analyze` from an address on, and where it stops. -/
abbrev analyzeSplit (img : Raw) (a : Nat) : List Packet × Nat :=
  split (analyzeNext img) efuseRealContentLen a

/-- **The map of `rtw_efuse_analyze` is that of the packets** it prints. -/
theorem analyzeLoop_spec (img : Raw) :
    (analyzeLoop img).packets = (analyzeSplit img 0).1 ∧
      (analyzeLoop img).eFuseWord = mapOf (analyzeSplit img 0).1 := by
  obtain ⟨l, ⟨hpos, hhdr, hwords⟩, haddr, hpackets, hlast⟩ :=
    (analyzeTurn_follows img).run (n := efuseRealContentLen + 1) (analyzeNext_advances img)
      (s := ⟨img 0, 1, blankTbl, []⟩) ⟨Nat.one_pos, rfl, rfl⟩ (Nat.lt_succ_self _)
  change analyzeTurn img l = .stop (analyzeLoop img) at hlast
  change l.packets = [] ++ (analyzeSplit img 0).1 at hpackets
  rw [List.nil_append] at hpackets
  have hkept : (analyzeLoop img).packets = l.packets ∧
      (analyzeLoop img).eFuseWord = l.eFuseWord := by
    unfold analyzeTurn at hlast
    split at hlast
    · split at hlast
      · dsimp only at hlast
        split at hlast
        · split at hlast <;> cases hlast
        · rw [← Turn.stop.inj hlast]
          exact ⟨rfl, rfl⟩
      · cases hlast
    · rw [← Turn.stop.inj hlast]
      exact ⟨rfl, rfl⟩
  rw [hkept.1, hkept.2, ← hpackets]
  exact ⟨rfl, hwords⟩

end Rtl8723bs.Efuse
