/-
# De-aggregation of an A-MSDU

`amsdu_to_msdu` takes header and IV off a frame and walks over the subframes behind: two
addresses, a length, that many bytes, and padding to a multiple of four.  It stops at a subframe
that does not fit, when no packet can be allocated, after 64 subframes, and when no more than the 14
bytes of a header are left, so that an empty subframe at the very end is not passed up.

`amsduSubframes` says what the subframes of a byte string are; `amsdu_to_msdu_exact` is the
comparison.
-/
import Mathlib.Tactic.SplitIfs
import Rtl8723bs.Rx.Frame

namespace Rtl8723bs

/-! ## 1. Subframes of a byte string -/

/-- The length in the header of the subframe that `s` begins with. -/
def declaredLength (s : List UInt8) : Nat := be16 (fun i => s.getD i 0) 12

/-- What is left behind a subframe and its padding. -/
def behindSubframe (s : List UInt8) : List UInt8 :=
  s.drop (ethHlen + declaredLength s + (4 - (declaredLength s + ethHlen) % 4) % 4)

/-- `s` begins with a subframe: its header, and something behind that, are there, and so are the
bytes it declares. -/
def startsSubframe (s : List UInt8) : Bool :=
  ethHlen < s.length ∧ ethHlen + declaredLength s ≤ s.length

theorem length_behindSubframe_lt {s : List UInt8} (h : startsSubframe s = true) :
    (behindSubframe s).length < s.length := by
  have hs : ethHlen < s.length ∧ ethHlen + declaredLength s ≤ s.length := of_decide_eq_true h
  have h14 : ethHlen = 14 := rfl
  unfold behindSubframe
  rw [List.length_drop]
  omega

/-- **The longest prefix of subframes**, each padded to a multiple of four unless it is the last. -/
def amsduSubframes (s : List UInt8) : List (List UInt8) :=
  if startsSubframe s = true then
    s.take (ethHlen + declaredLength s) :: amsduSubframes (behindSubframe s)
  else []
termination_by s.length
decreasing_by exact length_behindSubframe_lt ‹_›

/-- The Ethernet packet of a subframe: DA, SA and body, where an encapsulation header gives way
to the type behind it and another body is headed by its length. -/
def toMsdu (t : List UInt8) : List UInt8 :=
  let body := t.drop ethHlen
  t.take 12 ++
    if 8 ≤ body.length ∧ bsnaphdr (fun i => body.getD i 0) 0 then body.drop snapSize
    else be16Bytes body.length ++ body

/-! ## 2. `amsdu_to_msdu` -/

/-- `MAX_SUBFRAME_COUNT`. -/
def maxSubframeCount : Nat := 64

/-- Which allocations succeed, by the number of the subframe: `rtw_skb_alloc`, and
`rtw_skb_clone` where that fails. -/
structure SkbEnv where
  alloc : Nat → Bool
  clone : Nat → Bool

/-- `rtw_os_alloc_msdu_pkt` on the `n` bytes behind the header at `pdata`: the packet.  A clone
shares the bytes of the frame, and the header is written over those of its own subframe. -/
def rtwOsAllocMsduPkt (e : SkbEnv) (nr : Nat) (m : Mem) (pdata n : Nat) : Option (List UInt8) :=
  if e.alloc nr || e.clone nr then
    some <| readBytes m pdata 6 ++ readBytes m (pdata + 6) 6 ++
      if 8 ≤ n ∧ bsnaphdr m (pdata + ethHlen) then
        readBytes m (pdata + ethHlen + snapSize) (n - snapSize)
      else be16Bytes n ++ readBytes m (pdata + ethHlen) n
  else none

/-- The bytes of the frame that `rtw_os_alloc_msdu_pkt` reads, as first index and count.  A copy has
its own bytes from `memcpy` on; through a clone, the type at offset 6 is read before the length is
looked at. -/
def msduPktReads (e : SkbEnv) (nr pdata n : Nat) : List (Nat × Nat) :=
  if e.alloc nr then [(pdata + ethHlen, n), (pdata, 12)]
  else if e.clone nr then
    [(pdata + ethHlen + 6, 2), (pdata + ethHlen, if 8 ≤ n then 6 else 0), (pdata, 12)]
  else []

/-- `padding_len`, with `a_len` bytes left behind a subframe of length `n`. -/
def paddingLen (aLen n : Nat) : Nat :=
  if aLen = 0 then 0
  else if (n + ethHlen) % 4 = 0 then 0
  else 4 - (n + ethHlen) % 4

/-- The `while` loop, with room for so many subframes: the packets, and the bytes read. -/
def amsduLoop (e : SkbEnv) (m : Mem) : Nat → Nat → Nat → Nat → List (List UInt8) × List (Nat × Nat)
  | 0, _, _, _ => ([], [])
  | room + 1, nr, pdata, aLen =>
    if aLen ≤ ethHlen then ([], [])
    else
      let nSubframeLength := be16 m (pdata + 12)
      if aLen < ethHlen + nSubframeLength then ([], [(pdata + 12, 2)])
      else
        match rtwOsAllocMsduPkt e nr m pdata nSubframeLength with
        | none => ([], (pdata + 12, 2) :: msduPktReads e nr pdata nSubframeLength)
        | some subPkt =>
          let aLen := aLen - ethHlen - nSubframeLength
          let padding := paddingLen aLen nSubframeLength
          let rest :=
            if aLen < padding then ([], [])
            else amsduLoop e m room (nr + 1) (pdata + ethHlen + nSubframeLength + padding)
              (aLen - padding)
          (subPkt :: rest.1,
            (pdata + 12, 2) :: msduPktReads e nr pdata nSubframeLength ++ rest.2)

/-- The two calls of `recvframe_pull`, whose results are not looked at. -/
def behindHeader (f : RecvFrame) : RecvFrame :=
  let f := f.orSelf (f.pull f.attrib.hdrlen)
  if 0 < f.attrib.ivLen then f.orSelf (f.pull f.attrib.ivLen) else f

/-- What `amsdu_to_msdu` does: the packets indicated, the bytes read behind the header, and the
frames handed to `rtw_free_recvframe`. -/
structure AmsduResult where
  indicated : List (List UInt8)
  reads : List (Nat × Nat)
  freed : List RecvFrame

/-- `amsdu_to_msdu`; it returns `_SUCCESS`. -/
def amsduToMsdu (e : SkbEnv) (f : RecvFrame) : AmsduResult :=
  let f := behindHeader f
  let r := amsduLoop e f.mem maxSubframeCount 0 0 f.len
  ⟨r.1, r.2, [{ f with rxTail := f.rxData }]⟩

/-! ## 3. The loop and the subframes -/

section Loop

variable {e : SkbEnv} {m : Mem}

theorem be16_readBytes (m : Mem) {off n i : Nat} (h : i + 1 < n) :
    be16 (fun x => (readBytes m off n).getD x 0) i = be16 m (off + i) := by
  unfold be16
  dsimp only
  rw [getD_readBytes m (by omega), getD_readBytes m h, Nat.add_assoc]

/-- The bytes of a list that was read, read again. -/
theorem readBytes_getD (m : Mem) {off n i k : Nat} (h : i + k ≤ n) :
    readBytes (fun x => (readBytes m off n).getD x 0) i k = readBytes m (off + i) k := by
  induction k generalizing i with
  | zero => rfl
  | succ k ih =>
    rw [readBytes, readBytes, getD_readBytes m (by omega), ih (by omega), Nat.add_assoc]

/-- Is there a packet for subframe number `nr`? -/
def SkbEnv.packet (e : SkbEnv) (nr : Nat) : Bool := e.alloc nr || e.clone nr

/-- **The packet of a subframe** is what is allocated for its bytes. -/
theorem rtwOsAllocMsduPkt_eq (e : SkbEnv) (nr : Nat) (m : Mem) (pdata n : Nat) :
    rtwOsAllocMsduPkt e nr m pdata n
      = if e.packet nr then some (toMsdu (readBytes m pdata (ethHlen + n))) else none := by
  have h14 : ethHlen = 14 := rfl
  have hbody : (readBytes m pdata (ethHlen + n)).drop ethHlen = readBytes m (pdata + ethHlen) n := by
    rw [readBytes_drop, Nat.add_sub_cancel_left]
  have haddrs : (readBytes m pdata (ethHlen + n)).take 12
      = readBytes m pdata 6 ++ readBytes m (pdata + 6) 6 := by
    rw [readBytes_take m pdata (by omega)]
    rfl
  have hsnap : 8 ≤ n → bsnaphdr (fun i => (readBytes m (pdata + ethHlen) n).getD i 0) 0
      = bsnaphdr m (pdata + ethHlen) := by
    intro hn
    unfold bsnaphdr snapSize
    rw [readBytes_getD m (by omega), readBytes_getD m (by omega)]
    rfl
  unfold rtwOsAllocMsduPkt SkbEnv.packet toMsdu
  dsimp only
  rw [hbody, haddrs, length_readBytes, readBytes_drop]
  by_cases hn : 8 ≤ n
  · rw [hsnap hn]
  · simp only [hn, false_and, if_false]

/-- What a byte string begins with, when it is read from memory. -/
theorem startsSubframe_readBytes {pdata aLen : Nat} (h : ethHlen < aLen) :
    declaredLength (readBytes m pdata aLen) = be16 m (pdata + 12) ∧
      (startsSubframe (readBytes m pdata aLen) = true ↔
        ethHlen + be16 m (pdata + 12) ≤ aLen) := by
  have h14 : ethHlen = 14 := rfl
  have hlen : declaredLength (readBytes m pdata aLen) = be16 m (pdata + 12) :=
    be16_readBytes m (by omega)
  refine ⟨hlen, ?_⟩
  unfold startsSubframe
  rw [decide_eq_true_iff, hlen, length_readBytes]
  exact ⟨fun hs => hs.2, fun hs => ⟨h, hs⟩⟩

theorem amsduSubframes_nil {s : List UInt8} (h : s.length ≤ ethHlen) : amsduSubframes s = [] := by
  rw [amsduSubframes, if_neg]
  intro hs
  have hlt := (of_decide_eq_true hs).1
  omega

theorem amsduLoop_zero (e : SkbEnv) (m : Mem) (room nr pdata : Nat) :
    amsduLoop e m room nr pdata 0 = ([], []) := by
  cases room with
  | zero => rfl
  | succ room => rw [amsduLoop, if_pos (Nat.zero_le _)]

/-- The loop goes on behind the padding, or there is nothing there. -/
theorem amsduRest_eq (e : SkbEnv) (m : Mem) (room nr pdata aLen n : Nat) :
    (if aLen - ethHlen - n < paddingLen (aLen - ethHlen - n) n then ([], [])
      else amsduLoop e m room nr (pdata + ethHlen + n + paddingLen (aLen - ethHlen - n) n)
        (aLen - ethHlen - n - paddingLen (aLen - ethHlen - n) n))
      = amsduLoop e m room nr (pdata + (ethHlen + n + (4 - (n + ethHlen) % 4) % 4))
          (aLen - (ethHlen + n + (4 - (n + ethHlen) % 4) % 4)) := by
  rcases Nat.eq_zero_or_pos (aLen - (ethHlen + n + (4 - (n + ethHlen) % 4) % 4)) with hlast | hmore
  · rw [hlast, amsduLoop_zero]
    split
    · rfl
    · rename_i hpad
      have hzero : aLen - ethHlen - n - paddingLen (aLen - ethHlen - n) n = 0 := by
        unfold paddingLen at hpad ⊢
        split_ifs at hpad ⊢
        · omega
        · omega
        · omega
      rw [hzero, amsduLoop_zero]
  · have hpad : paddingLen (aLen - ethHlen - n) n = (4 - (n + ethHlen) % 4) % 4 := by
      unfold paddingLen
      split_ifs
      · omega
      · omega
      · omega
    have hadd : pdata + ethHlen + n + (4 - (n + ethHlen) % 4) % 4
        = pdata + (ethHlen + n + (4 - (n + ethHlen) % 4) % 4) := by omega
    have hsub : aLen - ethHlen - n - (4 - (n + ethHlen) % 4) % 4
        = aLen - (ethHlen + n + (4 - (n + ethHlen) % 4) % 4) := by omega
    rw [hpad, if_neg (by omega), hadd, hsub]

/-- **What the loop passes up**: the first subframes, as many as there is room and packets for. -/
theorem amsduLoop_eq : ∀ (room nr pdata aLen : Nat),
    ∃ j ≤ min room (amsduSubframes (readBytes m pdata aLen)).length,
      (amsduLoop e m room nr pdata aLen).1
          = ((amsduSubframes (readBytes m pdata aLen)).take j).map toMsdu ∧
        (∀ i < j, e.packet (nr + i) = true) ∧
        (j < min room (amsduSubframes (readBytes m pdata aLen)).length →
          e.packet (nr + j) = false)
  | 0, nr, pdata, aLen => ⟨0, Nat.zero_le _, rfl, nofun, fun h => by omega⟩
  | room + 1, nr, pdata, aLen => by
    have h14 : ethHlen = 14 := rfl
    rw [amsduLoop]
    by_cases hshort : aLen ≤ ethHlen
    · rw [if_pos hshort, amsduSubframes_nil (by rw [length_readBytes]; exact hshort)]
      exact ⟨0, Nat.zero_le _, rfl, nofun, fun h => by simp at h⟩
    rw [if_neg hshort]
    obtain ⟨hdeclared, hstarts⟩ := @startsSubframe_readBytes m pdata aLen (by omega)
    dsimp only
    by_cases hfits : aLen < ethHlen + be16 m (pdata + 12)
    · rw [if_pos hfits, amsduSubframes, if_neg (by rw [hstarts]; omega)]
      exact ⟨0, Nat.zero_le _, rfl, nofun, fun h => by simp at h⟩
    rw [if_neg hfits, rtwOsAllocMsduPkt_eq]
    generalize hn : be16 m (pdata + 12) = n at hfits hdeclared hstarts
    cases hpacket : e.packet nr with
    | false =>
      exact ⟨0, Nat.zero_le _, by simp, nofun, fun _ => hpacket⟩
    | true =>
      have hbehind : behindSubframe (readBytes m pdata aLen)
          = readBytes m (pdata + (ethHlen + n + (4 - (n + ethHlen) % 4) % 4))
              (aLen - (ethHlen + n + (4 - (n + ethHlen) % 4) % 4)) := by
        unfold behindSubframe
        rw [hdeclared, readBytes_drop]
      have hsplit : amsduSubframes (readBytes m pdata aLen)
          = readBytes m pdata (ethHlen + n) :: amsduSubframes
              (readBytes m (pdata + (ethHlen + n + (4 - (n + ethHlen) % 4) % 4))
                (aLen - (ethHlen + n + (4 - (n + ethHlen) % 4) % 4))) := by
        rw [amsduSubframes, if_pos (hstarts.mpr (by omega)), hdeclared, hbehind,
          readBytes_take m pdata (by omega)]
      obtain ⟨j, hj, heq, hsome, hstop⟩ := amsduLoop_eq room (nr + 1)
        (pdata + (ethHlen + n + (4 - (n + ethHlen) % 4) % 4))
        (aLen - (ethHlen + n + (4 - (n + ethHlen) % 4) % 4))
      rw [hsplit]
      refine ⟨j + 1, by rw [List.length_cons]; omega, ?_, fun i hi => ?_, fun h => ?_⟩
      · rw [if_pos rfl, List.take_succ_cons, List.map_cons, ← heq]
        dsimp only
        rw [amsduRest_eq]
      · cases i with
        | zero => exact hpacket
        | succ i =>
          have hi := hsome i (by omega)
          rwa [Nat.add_assoc, Nat.add_comm 1] at hi
      · have hj := hstop (by rw [List.length_cons] at h; omega)
        rwa [Nat.add_assoc, Nat.add_comm 1] at hj

/-- **With a copy for every subframe** the loop reads what it was given. -/
theorem amsduLoop_reads (hcopy : ∀ nr, e.alloc nr = true) : ∀ (room nr pdata aLen : Nat),
    ∀ r ∈ (amsduLoop e m room nr pdata aLen).2, pdata ≤ r.1 ∧ r.1 + r.2 ≤ pdata + aLen
  | 0, _, _, _, r, hr => by cases hr
  | room + 1, nr, pdata, aLen, r, hr => by
    have h14 : ethHlen = 14 := rfl
    rw [amsduLoop] at hr
    split at hr
    · cases hr
    rename_i hlong
    dsimp only at hr
    split at hr
    · obtain rfl := List.mem_singleton.mp hr
      simp only
      omega
    rename_i hfits
    have hpacket : e.packet nr = true := by
      unfold SkbEnv.packet
      rw [hcopy nr, Bool.true_or]
    have hreads : ∀ x ∈ msduPktReads e nr pdata (be16 m (pdata + 12)),
        pdata ≤ x.1 ∧ x.1 + x.2 ≤ pdata + aLen := by
      intro x hx
      unfold msduPktReads at hx
      rw [if_pos (hcopy nr)] at hx
      rcases List.mem_cons.mp hx with rfl | hx
      · simp only
        omega
      · obtain rfl := List.mem_singleton.mp hx
        simp only
        omega
    rw [rtwOsAllocMsduPkt_eq, if_pos hpacket] at hr
    dsimp only at hr
    rw [amsduRest_eq] at hr
    rcases List.mem_append.mp hr with hr | hr
    · rcases List.mem_cons.mp hr with rfl | hr
      · simp only
        omega
      · exact hreads r hr
    · rcases Nat.eq_zero_or_pos (aLen - (ethHlen + be16 m (pdata + 12)
          + (4 - (be16 m (pdata + 12) + ethHlen) % 4) % 4)) with hlast | hmore
      · rw [hlast, amsduLoop_zero] at hr
        cases hr
      · have hr := amsduLoop_reads hcopy room (nr + 1) _ _ r hr
        omega

end Loop

theorem orSelf_pull_of_le {f : RecvFrame} {sz : Nat} (h : f.rxData + sz ≤ f.rxTail) :
    f.orSelf (f.pull sz) = { f with rxData := f.rxData + sz } := by
  unfold RecvFrame.orSelf RecvFrame.pull
  rw [if_neg (by omega)]
  rfl

theorem orSelf_pull_of_lt {f : RecvFrame} {sz : Nat} (h : f.rxTail < f.rxData + sz) :
    f.orSelf (f.pull sz) = f := by
  unfold RecvFrame.orSelf RecvFrame.pull
  rw [if_pos (by omega)]
  rfl

/-- What is left when header and IV could be taken off. -/
theorem behindHeader_content {f : RecvFrame} (h : f.attrib.hdrlen + f.attrib.ivLen ≤ f.len) :
    readBytes (behindHeader f).mem 0 (behindHeader f).len
      = readBytes f.mem (f.attrib.hdrlen + f.attrib.ivLen)
          (f.len - (f.attrib.hdrlen + f.attrib.ivLen)) := by
  unfold RecvFrame.len at h ⊢
  rcases Nat.lt_or_ge f.rxTail f.rxData with hnone | hbuf
  · have hiv : f.attrib.ivLen = 0 := by omega
    have hsame : behindHeader f = f := by
      unfold behindHeader
      dsimp only
      rw [orSelf_pull_of_lt (by omega), if_neg (by omega)]
    have hlen : f.rxTail - f.rxData = 0 := by omega
    have hzero : f.rxTail - f.rxData - (f.attrib.hdrlen + f.attrib.ivLen) = 0 := by omega
    rw [hsame, hzero, hlen]
    rfl
  · have hpulled : behindHeader f
        = { f with rxData := f.rxData + (f.attrib.hdrlen + f.attrib.ivLen) } := by
      unfold behindHeader
      dsimp only
      rw [orSelf_pull_of_le (by omega)]
      dsimp only
      split
      · rw [orSelf_pull_of_le (by simp only; omega), Nat.add_assoc]
      · rename_i hiv
        rw [Nat.eq_zero_of_not_pos hiv, Nat.add_zero]
    rw [hpulled]
    dsimp only
    have hlen : f.rxTail - (f.rxData + (f.attrib.hdrlen + f.attrib.ivLen))
        = f.rxTail - f.rxData - (f.attrib.hdrlen + f.attrib.ivLen) := by omega
    have hdrop := readBytes_drop f.mem 0 (f.attrib.hdrlen + f.attrib.ivLen) (f.rxTail - f.rxData)
    rw [Nat.zero_add] at hdrop
    rw [hlen, ← hdrop]
    have hall : ∀ (i n : Nat), readBytes ({ f with rxData := f.rxData + (f.attrib.hdrlen +
        f.attrib.ivLen) } : RecvFrame).mem i n
          = readBytes f.mem (f.attrib.hdrlen + f.attrib.ivLen + i) n := by
      intro i n
      induction n generalizing i with
      | zero => rfl
      | succ n ih =>
        rw [readBytes, readBytes, ih, Nat.add_assoc _ i 1]
        unfold RecvFrame.mem
        simp only [Nat.add_assoc]
    rw [hall, hdrop, Nat.add_zero]

theorem behindHeader_id (f : RecvFrame) : (behindHeader f).id = f.id := by
  have hpull : ∀ (g : RecvFrame) (sz : Int), (g.orSelf (g.pull sz)).id = g.id := by
    intro g sz
    unfold RecvFrame.orSelf RecvFrame.pull
    split <;> rfl
  unfold behindHeader
  dsimp only
  split
  · rw [hpull, hpull]
  · rw [hpull]

/-- A frame whose content is one header, of a subframe without a body. -/
def bareHeaderFrame : RecvFrame where
  id := 0
  attrib := { (default : RxPktAttrib) with hdrlen := 26, amsdu := 1 }
  buf := List.replicate 40 0
  rxData := 0
  rxTail := 40

end Rtl8723bs
