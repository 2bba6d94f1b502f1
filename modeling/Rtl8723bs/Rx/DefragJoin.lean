/-
# What the fragments are joined to

`recvframe_defrag` takes a queue apart: the first frame grows by the body of each that follows, in
place of the ICV it had, and the others go back to the pool; where a number is out of order all of
them go.  `joinedFrom` says what the data are to be, and `reassembles` that they are, for queues of
any length.

The functions that move the pointers are asked for a header and IV, or for an ICV, that a short
fragment does not have.  Nobody looks at their answer, so a fragment shorter than its header and IV
is copied as it is.
-/
import Mathlib.Tactic.SplitIfs
import Rtl8723bs.Rx.DefragBounds
import Rtl8723bs.Rx.RecvCalls

namespace Rtl8723bs

/-! ## 1. What is to come out -/

/-- The bytes of a frame, from `rx_data` to `rx_tail`. -/
def RecvFrame.data (f : RecvFrame) : List UInt8 := readBytes f.mem 0 f.len

/-- The frame behind its header and IV. -/
def RecvFrame.body (p : RecvFrame) : List UInt8 :=
  p.data.drop (p.attrib.hdrlen + p.attrib.ivLen)

/-- The pieces one behind the other, without the ICV on all but the last. -/
def joinedFrom (piece : List UInt8) (icv : Nat) : List RecvFrame → List UInt8
  | [] => piece
  | p :: t => piece.take (piece.length - icv) ++ joinedFrom p.body p.attrib.icvLen t

/-- The fragments are numbered 0, 1, 2, …. -/
def Numbered (parts : List RecvFrame) : Prop :=
  parts.map (·.attrib.fragNum) = List.range parts.length

/-- A piece of `len` bytes has its ICV, and each of the frames behind it its header and IV and,
but for the last, its ICV. -/
def WholeFrom : Nat → Nat → List RecvFrame → Prop
  | _, _, [] => True
  | len, icv, p :: t =>
    icv ≤ len ∧ p.attrib.hdrlen + p.attrib.ivLen ≤ p.len ∧
      WholeFrom (p.len - (p.attrib.hdrlen + p.attrib.ivLen)) p.attrib.icvLen t

/-- **No fragment is too short** for what is taken off it. -/
def Whole (f : RecvFrame) (t : List RecvFrame) : Prop := WholeFrom f.len f.attrib.icvLen t

namespace RecvPool

/-- `recvframe_defrag` on the `defrag_q` of a station: the frame returned and the pool. -/
def recvframeDefrag (s : RecvPool) (i : StaId) : Option RecvFrame × RecvPool :=
  let r := Rtl8723bs.recvframeDefrag (s.defragQ i)
  (r.1, { s with defragQ := Function.update s.defragQ i [] }.freeAll r.2)

/-- The queue is empty, and the frames `fs` are back in the pool, each of them once. -/
structure Returned (s s' : RecvPool) (i : StaId) (fs : List RecvFrame) : Prop where
  empty : s'.defragQ i = []
  free : s'.freeRecvQueue = s.freeRecvQueue ++ fs.map (·.id)
  cnt : s'.freeRecvframeCnt = s.freeRecvframeCnt + fs.length
  frees : ∀ id, s'.frees id = s.frees id + (fs.map (·.id)).count id

/-- **What is asked of `recvframe_defrag`** on a queue that begins with `f`. -/
structure Reassembles (s : RecvPool) (i : StaId) (f : RecvFrame) (t : List RecvFrame) : Prop where
  joins : Numbered (f :: t) → Fits (f :: t) → ∃ g, (s.recvframeDefrag i).1 = some g ∧
    g.id = f.id ∧ g.data = joinedFrom f.data f.attrib.icvLen t ∧
    g.attrib.icvLen = ((f :: t).getLast (List.cons_ne_nil f t)).attrib.icvLen ∧
    Returned s (s.recvframeDefrag i).2 i t
  refuses : ¬ Numbered (f :: t) →
    (s.recvframeDefrag i).1 = none ∧ Returned s (s.recvframeDefrag i).2 i (f :: t)

end RecvPool

/-! ## 2. The data of a frame -/

section Data

variable {f p : RecvFrame}

/-- A copy into the frame, seen from `rx_data`. -/
theorem mem_memcpy {off : Nat} {bytes : List UInt8} (hoff : f.rxData ≤ off)
    (hroom : off + bytes.length ≤ f.buf.length) :
    (f.memcpy off bytes).mem = overwrite f.mem (off - f.rxData) bytes := by
  funext x
  unfold RecvFrame.mem RecvFrame.memcpy overwrite
  dsimp only
  rw [List.getD_eq_getElem?_getD, List.getElem?_take]
  by_cases hx : f.rxData + x < off
  · rw [if_pos (by omega), if_neg (by omega), List.append_assoc, List.getElem?_append_left
      (by rw [List.length_take]; omega), List.getElem?_take, if_pos hx,
      List.getD_eq_getElem?_getD]
  · by_cases hx' : f.rxData + x < off + bytes.length
    · rw [if_pos (by omega), if_pos (by omega), List.append_assoc, List.getElem?_append_right
        (by rw [List.length_take]; omega), List.getElem?_append_left
        (by rw [List.length_take]; omega), List.length_take, Nat.min_eq_left (by omega),
        List.getD_eq_getElem?_getD, show f.rxData + x - off = x - (off - f.rxData) by omega]
    · rw [if_neg (by omega : ¬ (_ ∧ _)), List.getD_eq_getElem?_getD]
      split_ifs with hin
      · rw [List.getElem?_append_right (by rw [List.length_append, List.length_take]; omega),
          List.getElem?_drop, List.length_append, List.length_take, Nat.min_eq_left (by omega)]
        congr 2
        omega
      · rw [List.getElem?_eq_none (by omega)]

theorem data_cut (hf : f.ptrs.Valid) :
    f.cut.data = f.data.take (lenWithout f.len f.attrib.icvLen) := by
  obtain ⟨hlen, hdata, hbuf⟩ := cut_len hf
  have hmem : f.cut.mem = f.mem := by
    unfold RecvFrame.mem
    rw [hbuf, hdata]
  have hle : lenWithout f.len f.attrib.icvLen ≤ f.len := by
    unfold lenWithout
    split_ifs <;> omega
  unfold RecvFrame.data
  rw [hlen, hmem, readBytes_take _ _ hle]

theorem data_pulled (hp : p.ptrs.Valid) (hwhole : p.attrib.hdrlen + p.attrib.ivLen ≤ p.len) :
    p.pulled.data = p.body := by
  have hlen := pulled_len hp
  rw [RecvFrame.payloadLen, lenWithout, if_neg (by omega)] at hlen
  have hdata : p.pulled.rxData = p.rxData + (p.attrib.hdrlen + p.attrib.ivLen) ∧
      p.pulled.buf = p.buf := by
    obtain ⟨hle, -, -⟩ := RecvFrame.valid_ptrs.mp hp
    unfold RecvFrame.len at hwhole
    unfold RecvFrame.pulled RecvFrame.orSelf RecvFrame.pull
    rw [if_neg (by omega), Option.getD_some]
    exact ⟨by dsimp only; omega, rfl⟩
  have hmem : ∀ x, p.pulled.mem x = p.mem (p.attrib.hdrlen + p.attrib.ivLen + x) := by
    intro x
    unfold RecvFrame.mem
    rw [hdata.1, hdata.2, Nat.add_assoc]
  unfold RecvFrame.data RecvFrame.body RecvFrame.data
  rw [hlen, readBytes_drop, Nat.zero_add]
  exact readBytes_shift _ (fun x _ _ => hmem x) rfl

/-- **One round**: what is copied goes behind what is kept. -/
theorem data_appendFragment (hf : f.ptrs.Valid) (hp : p.ptrs.Valid)
    (hfits : lenWithout f.len f.attrib.icvLen + p.payloadLen ≤ f.buf.length - f.rxData) :
    (appendFragment f p).data = f.cut.data ++ p.pulled.data := by
  obtain ⟨hlen, hdata, hbuf, -⟩ := appendFragment_fits hf hp hfits
  obtain ⟨hcut, hcutData, hcutBuf⟩ := cut_len hf
  obtain ⟨hle, htail, -⟩ := RecvFrame.valid_ptrs.mp (valid_cut hf)
  have hcutLen : f.cut.len = f.cut.rxTail - f.cut.rxData := rfl
  have hpay : (readBytes p.pulled.mem 0 p.pulled.len).length = p.payloadLen := by
    rw [length_readBytes, pulled_len hp]
  have hbytes : (appendFragment f p).buf
      = (f.cut.memcpy f.cut.rxTail (readBytes p.pulled.mem 0 p.pulled.len)).buf := by
    have hput : ∀ (h : RecvFrame) (n : Nat), (h.orSelf (h.put n)).buf = h.buf := by
      intro h n
      unfold RecvFrame.orSelf RecvFrame.put
      split_ifs <;> rfl
    exact hput _ _
  have hmem : (appendFragment f p).mem
      = overwrite f.cut.mem f.cut.len (readBytes p.pulled.mem 0 p.pulled.len) := by
    rw [hcutLen, ← mem_memcpy hle (by rw [hpay, hcutBuf]; rw [hcutBuf] at htail; omega)]
    unfold RecvFrame.mem
    rw [hbytes, hdata, ← hcutData]
    rfl
  have hread := readBytes_overwrite f.cut.mem f.cut.len (readBytes p.pulled.mem 0 p.pulled.len)
  rw [length_readBytes] at hread
  unfold RecvFrame.data
  rw [hmem, hlen, ← hcut, ← pulled_len hp, readBytes_add, Nat.zero_add, hread,
    readBytes_congr fun i _ hi => overwrite_of_lt (by omega)]

end Data

/-! ## 3. The loop -/

/-- The loop gets through exactly where the numbers go up by one. -/
theorem defragLoop_isSome_iff : ∀ {t : List RecvFrame} {n : Nat} {f : RecvFrame}, n ≤ 16 →
    (∀ p ∈ t, p.attrib.fragNum < 16) →
    ((defragLoop n f t).isSome = true ↔ t.map (·.attrib.fragNum) = List.range' n t.length)
  | [], _, _, _, _ => iff_of_true rfl rfl
  | p :: t, n, f, hn, hfour => by
    have hp := hfour p List.mem_cons_self
    rw [List.map_cons, List.length_cons, List.range'_succ, List.cons.injEq]
    unfold defragLoop
    split_ifs with hne
    · exact iff_of_false (by simp) (fun h => hne h.1.symm)
    · have hnp : n = p.attrib.fragNum := not_not.mp hne
      rw [Nat.mod_eq_of_lt (by omega), defragLoop_isSome_iff (by omega)
        (fun q hq => hfour q (List.mem_cons_of_mem p hq))]
      exact ⟨fun h => ⟨hnp.symm, h⟩, fun h => h.2⟩

/-- **What the loop makes**, from a frame that holds `acc` and, last, `piece`. -/
theorem defragLoop_data : ∀ {t : List RecvFrame} {n : Nat} {f g : RecvFrame}
    {acc piece : List UInt8}, f.ptrs.Valid → (∀ p ∈ t, p.ptrs.Valid) → f.data = acc ++ piece →
    WholeFrom piece.length f.attrib.icvLen t →
    FitsFrom (f.buf.length - f.rxData) n f.len f.attrib.icvLen t → defragLoop n f t = some g →
    g.data = acc ++ joinedFrom piece f.attrib.icvLen t ∧
      g.attrib.icvLen = ((f :: t).getLast (List.cons_ne_nil f t)).attrib.icvLen
  | [], _, f, g, acc, piece, _, _, hdata, _, _, hloop => by
    cases hloop
    exact ⟨hdata, rfl⟩
  | p :: t, n, f, g, acc, piece, hf, ht, hdata, hwhole, hfits, hloop => by
    have hp := ht p List.mem_cons_self
    obtain ⟨hicv, hhead, hrest⟩ := hwhole
    unfold defragLoop at hloop
    split_ifs at hloop with hne
    obtain ⟨hroom, hfits⟩ := hfits (not_not.mp hne)
    obtain ⟨hlen, hrx, hbuf, hicv'⟩ := appendFragment_fits hf hp hroom
    have hflen : f.len = acc.length + piece.length := by
      rw [← List.length_append, ← hdata]
      exact (length_readBytes f.mem 0 f.len).symm
    have hbody : p.body.length = p.len - (p.attrib.hdrlen + p.attrib.ivLen) := by
      rw [RecvFrame.body, List.length_drop]
      exact congrArg (· - _) (length_readBytes p.mem 0 p.len)
    have happ : (appendFragment f p).data
        = (acc ++ piece.take (piece.length - f.attrib.icvLen)) ++ p.body := by
      rw [data_appendFragment hf hp hroom, data_cut hf, data_pulled hp hhead, hdata, lenWithout,
        if_neg (by omega), hflen, Nat.add_sub_assoc hicv, List.take_length_add_append]
    have ih := defragLoop_data (valid_appendFragment hf)
      (fun q hq => ht q (List.mem_cons_of_mem p hq)) happ
      (by rw [hbody, hicv']; exact hrest) (by rw [hbuf, hrx, hlen, hicv']; exact hfits) hloop
    rw [hicv'] at ih
    refine ⟨by rw [ih.1, joinedFrom, List.append_assoc], ?_⟩
    rw [ih.2, List.getLast_cons (List.cons_ne_nil p t)]
    cases t with
    | nil => exact hicv'
    | cons q t =>
      rw [List.getLast_cons (List.cons_ne_nil q t), List.getLast_cons (List.cons_ne_nil q t)]

/-! ## 4. The pool -/

namespace RecvPool

/-- Frames that are away are given back, one after the other. -/
theorem freeAll_spec : ∀ {fs : List RecvFrame} {s : RecvPool},
    (s.freeRecvQueue ++ fs.map (·.id)).Nodup →
    (s.freeAll fs).freeRecvQueue = s.freeRecvQueue ++ fs.map (·.id) ∧
      (s.freeAll fs).freeRecvframeCnt = s.freeRecvframeCnt + fs.length ∧
      (∀ id, (s.freeAll fs).frees id = s.frees id + (fs.map (·.id)).count id) ∧
      ∀ i, s.defragQ i = [] → (s.freeAll fs).defragQ i = []
  | [], s, _ => ⟨(List.append_nil _).symm, rfl, fun _ => rfl, fun _ h => h⟩
  | f :: t, s, hnodup => by
    rw [List.map_cons, ← List.singleton_append, ← List.append_assoc] at hnodup
    have hnot : f.id ∉ s.freeRecvQueue := by
      intro hmem
      have happ := (List.nodup_append.mp hnodup).1
      exact (List.nodup_append.mp happ).2.2 _ hmem _ (List.mem_singleton_self _) rfl
    have hfilter : s.freeRecvQueue.filter (· ≠ f.id) = s.freeRecvQueue := by
      rw [List.filter_eq_self]
      intro x hx
      simpa using fun hxid : x = f.id => hnot (hxid ▸ hx)
    have hfree : (s.rtwFreeRecvframe f.id).freeRecvQueue = s.freeRecvQueue ++ [f.id] :=
      congrArg (· ++ [f.id]) hfilter
    obtain ⟨hq, hcnt, hfrees, hdefrag⟩ := @freeAll_spec t (s.rtwFreeRecvframe f.id)
      (hfree.symm ▸ hnodup)
    refine ⟨?_, ?_, fun id => ?_, fun i hi => hdefrag i ?_⟩
    · rw [hfree, List.append_assoc] at hq
      exact hq
    · rw [List.length_cons, ← Nat.add_assoc, Nat.add_right_comm]
      exact hcnt
    · have hstep : (s.rtwFreeRecvframe f.id).frees id = s.frees id + [f.id].count id := by
        by_cases hid : id = f.id
        · subst hid
          simp [rtwFreeRecvframe, listDelete]
        · simp [rtwFreeRecvframe, listDelete, hid, Ne.symm hid]
      have hall := hfrees id
      rw [hstep, Nat.add_assoc, ← List.count_append] at hall
      exact hall
    · change (s.defragQ i).filter _ = []
      rw [hi, List.filter_nil]

/-! ## 5. The result -/

variable {s : RecvPool} {i : StaId} {f : RecvFrame} {t : List RecvFrame}

/-- The frames that are freed are back, whichever part of the queue they are. -/
theorem returned {fs : List RecvFrame} (hfs : fs <:+ f :: t)
    (hnodup : (s.freeRecvQueue ++ (f :: t).map (·.id)).Nodup) :
    Returned s ({ s with defragQ := Function.update s.defragQ i [] }.freeAll fs) i fs := by
  obtain ⟨hfree, hqueue, hapart⟩ := List.nodup_append.mp hnodup
  have hsub := hfs.map (·.id)
  have hnodup' : (s.freeRecvQueue ++ fs.map (·.id)).Nodup :=
    List.nodup_append.mpr ⟨hfree, hqueue.sublist hsub.sublist,
      fun x hx y hy => hapart x hx y (hsub.subset hy)⟩
  obtain ⟨hq, hcnt, hfrees, hdefrag⟩ :=
    @freeAll_spec fs { s with defragQ := Function.update s.defragQ i [] } hnodup'
  exact ⟨hdefrag i (Function.update_self i [] s.defragQ), hq, hcnt, hfrees⟩

/-- **`recvframe_defrag` joins what it should**: for every queue of frames with their pointers in
order, of any number and lengths, where no fragment that is to be joined is too short. -/
theorem reassembles (hq : s.defragQ i = f :: t)
    (hnodup : (s.freeRecvQueue ++ (f :: t).map (·.id)).Nodup)
    (hfour : ∀ p ∈ f :: t, p.attrib.fragNum < 16) (hvalid : ∀ p ∈ f :: t, p.ptrs.Valid)
    (hwhole : Numbered (f :: t) → Fits (f :: t) → Whole f t) : s.Reassembles i f t := by
  have hf := hvalid f List.mem_cons_self
  have ht : ∀ p ∈ t, p.ptrs.Valid := fun p hp => hvalid p (List.mem_cons_of_mem f hp)
  have hloop : ((f.attrib.fragNum = 0 ∧ (defragLoop 1 f t).isSome = true) ↔ Numbered (f :: t)) := by
    rw [defragLoop_isSome_iff (by decide) (fun p hp => hfour p (List.mem_cons_of_mem f hp)),
      Numbered, List.map_cons, List.length_cons, List.range_eq_range', List.range'_succ,
      List.cons.injEq]
  constructor
  · intro hnum hfits
    obtain ⟨hzero, hsome⟩ := hloop.mpr hnum
    obtain ⟨g, hg⟩ := Option.isSome_iff_exists.mp hsome
    have hret : Rtl8723bs.recvframeDefrag (s.defragQ i) = (some g, t) := by
      rw [hq]
      unfold Rtl8723bs.recvframeDefrag
      dsimp only
      rw [if_neg (not_not.mpr hzero), hg]
    have hpiece : WholeFrom f.data.length f.attrib.icvLen t := by
      rw [RecvFrame.data, length_readBytes]
      exact hwhole hnum hfits
    obtain ⟨hdata, hicv⟩ := @defragLoop_data t 1 f g [] f.data hf ht rfl hpiece (hfits hzero) hg
    unfold recvframeDefrag
    rw [hret]
    exact ⟨g, rfl, defragLoop_id _ _ _ hg, hdata, hicv, returned (List.suffix_cons f t) hnodup⟩
  · intro hnum
    have hret : Rtl8723bs.recvframeDefrag (s.defragQ i) = (none, f :: t) := by
      rw [hq]
      unfold Rtl8723bs.recvframeDefrag
      dsimp only
      split_ifs with hzero
      · rfl
      · have hnone : defragLoop 1 f t = none := by
          rw [← Option.not_isSome_iff_eq_none]
          exact fun hsome => hnum (hloop.mp ⟨not_not.mp hzero, hsome⟩)
        rw [hnone]
    unfold recvframeDefrag
    rw [hret]
    exact ⟨rfl, returned List.suffix_rfl hnodup⟩

/-- A pool with two free frames and a queue. -/
def poolWith (parts : List RecvFrame) : RecvPool :=
  { start with freeRecvQueue := [2, 3], freeRecvframeCnt := 2, defragQ := fun _ => parts }

/-- A fragment of QoS data in the clear, with a header of 26 bytes, `n` bytes long. -/
def qosFragment (mfrag fragNum n : Nat) (byte : UInt8) : RecvFrame where
  id := fragNum
  attrib := { (default : RxPktAttrib) with hdrlen := 26, mfrag := mfrag, fragNum := fragNum }
  buf := List.replicate 26 0 ++ List.replicate 4 byte ++ List.replicate 34 0
  rxData := 0
  rxTail := n

/-- Two fragments with a body of four bytes each. -/
theorem reassembles_two : (poolWith [qosFragment 1 0 30 0xaa, qosFragment 0 1 30 0xbb]).Reassembles
    0 (qosFragment 1 0 30 0xaa) [qosFragment 0 1 30 0xbb] := by
  have hvalid : ∀ p ∈ [qosFragment 1 0 30 0xaa, qosFragment 0 1 30 0xbb], p.ptrs.Valid :=
    List.forall_mem_cons.mpr ⟨RecvFrame.valid_ptrs.mpr (by decide),
      List.forall_mem_singleton.mpr (RecvFrame.valid_ptrs.mpr (by decide))⟩
  exact reassembles rfl (by decide) (by decide) hvalid
    (fun _ _ => ⟨by decide, by decide, trivial⟩)

/-- **A fragment that ends before its header does is copied header and all.** -/
theorem runt_joined : ¬ (poolWith [qosFragment 1 0 30 0xaa, qosFragment 0 1 24 0xbb]).Reassembles
    0 (qosFragment 1 0 30 0xaa) [qosFragment 0 1 24 0xbb] := by
  have hlen : ∀ g, (recvframeDefrag
      (poolWith [qosFragment 1 0 30 0xaa, qosFragment 0 1 24 0xbb]) 0).1 = some g →
        g.data.length = 54 := by
    intro g hg
    cases hg
    decide
  intro h
  have hnum : Numbered [qosFragment 1 0 30 0xaa, qosFragment 0 1 24 0xbb] := by
    unfold Numbered
    decide
  obtain ⟨g, hg, -, hdata, -⟩ := h.joins hnum (fun _ _ => ⟨by decide, trivial⟩)
  have hlen := hlen g hg
  rw [hdata] at hlen
  exact absurd hlen (by decide)

end RecvPool

end Rtl8723bs
