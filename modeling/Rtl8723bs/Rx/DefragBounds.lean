/-
# The buffer a reassembled frame is built in

`recvframe_push`, `recvframe_pull`, `recvframe_put` and `recvframe_pull_tail` move a pointer, look
how far it has got, and move it back if that is too far; `RxPtrs.Valid` survives all of them.  But
`recvframe_defrag` copies a payload to `rx_tail` before it asks `recvframe_put` whether there is
room, and nobody has asked before: the buffer of a first fragment is 1664 bytes, or as long as the
fragment, whatever follows.

`staysInside_iff` says when the copies stay below `rx_end`, by the lengths of the fragments.
-/
import Mathlib.Tactic.SplitIfs
import Rtl8723bs.Rx.Defrag

namespace Rtl8723bs

/-! ## 1. The four calls -/

/-- The pointers of `struct recv_frame_hdr` as addresses, and `len`, a `uint`. -/
structure RxPtrs where
  rxHead : Int
  rxData : Int
  rxTail : Int
  rxEnd : Int
  len : Nat

namespace RxPtrs

/-- `len += sz` on a `uint`. -/
def addLen (len : Nat) (sz : Int) : Nat := ((len + sz) % 2 ^ 32).toNat

/-- `recvframe_push`: the pointer returned, `none` for NULL, and what is left behind. -/
def push (h : RxPtrs) (sz : Int) : Option Int × RxPtrs :=
  let h := { h with rxData := h.rxData - sz }
  if h.rxData < h.rxHead then (none, { h with rxData := h.rxData + sz })
  else (some h.rxData, { h with len := addLen h.len sz })

/-- `recvframe_pull`. -/
def pull (h : RxPtrs) (sz : Int) : Option Int × RxPtrs :=
  let h := { h with rxData := h.rxData + sz }
  if h.rxTail < h.rxData then (none, { h with rxData := h.rxData - sz })
  else (some h.rxData, { h with len := addLen h.len (-sz) })

/-- `recvframe_put`. -/
def put (h : RxPtrs) (sz : Int) : Option Int × RxPtrs :=
  let h := { h with rxTail := h.rxTail + sz }
  if h.rxEnd < h.rxTail then (none, { h with rxTail := h.rxTail - sz })
  else (some h.rxTail, { h with len := addLen h.len sz })

/-- `recvframe_pull_tail`. -/
def pullTail (h : RxPtrs) (sz : Int) : Option Int × RxPtrs :=
  let h := { h with rxTail := h.rxTail - sz }
  if h.rxTail < h.rxData then (none, { h with rxTail := h.rxTail + sz })
  else (some h.rxTail, { h with len := addLen h.len (-sz) })

/-- **The pointers are in order**, and `len` is what lies between two of them. -/
structure Valid (h : RxPtrs) : Prop where
  head : h.rxHead ≤ h.rxData
  data : h.rxData ≤ h.rxTail
  tail : h.rxTail ≤ h.rxEnd
  size : h.rxEnd - h.rxHead < 2 ^ 32
  len : (h.len : Int) = h.rxTail - h.rxData

variable {h : RxPtrs}

/-- A length that stays one needs no reduction. -/
theorem addLen_eq {len : Nat} {sz : Int} (h0 : 0 ≤ (len : Int) + sz)
    (h32 : (len : Int) + sz < 2 ^ 32) : (addLen len sz : Int) = len + sz := by
  unfold addLen
  rw [Int.emod_eq_of_lt h0 h32, Int.toNat_of_nonneg h0]

/-- The pointers are moved, by as much as `len` is changed. -/
theorem Valid.moved (hv : h.Valid) {data tail sz : Int} (hhead : h.rxHead ≤ data)
    (hdata : data ≤ tail) (htail : tail ≤ h.rxEnd)
    (hsz : sz = (tail - data) - (h.rxTail - h.rxData)) :
    Valid { h with rxData := data, rxTail := tail, len := addLen h.len sz } := by
  obtain ⟨hh, hd, ht, hsize, hlen⟩ := hv
  refine ⟨hhead, hdata, htail, hsize, ?_⟩
  rw [addLen_eq (by omega) (by omega)]
  dsimp only
  omega

theorem Valid.push (hv : h.Valid) (n : Nat) : (h.push n).2.Valid := by
  obtain ⟨hhead, hdata, htail, hsize, hlen⟩ := id hv
  unfold RxPtrs.push
  dsimp only
  split_ifs with hlt
  · rw [Int.sub_add_cancel]
    exact hv
  · exact hv.moved (by omega) (by omega) htail (by omega)

theorem Valid.pull (hv : h.Valid) (n : Nat) : (h.pull n).2.Valid := by
  obtain ⟨hhead, hdata, htail, hsize, hlen⟩ := id hv
  unfold RxPtrs.pull
  dsimp only
  split_ifs with hlt
  · rw [Int.add_sub_cancel]
    exact hv
  · exact hv.moved (by omega) (by omega) htail (by omega)

theorem Valid.put (hv : h.Valid) (n : Nat) : (h.put n).2.Valid := by
  obtain ⟨hhead, hdata, htail, hsize, hlen⟩ := id hv
  unfold RxPtrs.put
  dsimp only
  split_ifs with hlt
  · rw [Int.add_sub_cancel]
    exact hv
  · exact hv.moved hhead (by omega) (by omega) (by omega)

theorem Valid.pullTail (hv : h.Valid) (n : Nat) : (h.pullTail n).2.Valid := by
  obtain ⟨hhead, hdata, htail, hsize, hlen⟩ := id hv
  unfold RxPtrs.pullTail
  dsimp only
  split_ifs with hlt
  · rw [Int.sub_add_cancel]
    exact hv
  · exact hv.moved hhead (by omega) (by omega) (by omega)

end RxPtrs

/-! ## 2. The calls on a frame -/

/-- The pointers of a frame, from its `rx_head` on. -/
def RecvFrame.ptrs (f : RecvFrame) : RxPtrs := ⟨0, f.rxData, f.rxTail, f.buf.length, f.len⟩

section Frames

variable {f g : RecvFrame}

theorem RecvFrame.valid_ptrs : f.ptrs.Valid ↔
    f.rxData ≤ f.rxTail ∧ f.rxTail ≤ f.buf.length ∧ f.buf.length < 2 ^ 32 := by
  unfold RecvFrame.ptrs RecvFrame.len
  constructor
  · rintro ⟨-, hdata, htail, hsize, -⟩
    dsimp only at hdata htail hsize
    exact ⟨by omega, by omega, by omega⟩
  · rintro ⟨hdata, htail, hsize⟩
    exact ⟨by dsimp only; omega, by dsimp only; omega, by dsimp only; omega,
      by dsimp only; omega, by dsimp only; omega⟩

/-- On a frame with its pointers in order the calls do to the pointers what the source does. -/
theorem ptrs_pull (hv : f.ptrs.Valid) (n : Nat) :
    (f.orSelf (f.pull n)).ptrs = (f.ptrs.pull n).2 := by
  obtain ⟨hdata, htail, hsize⟩ := RecvFrame.valid_ptrs.mp hv
  unfold RecvFrame.orSelf RecvFrame.pull RxPtrs.pull RecvFrame.ptrs RecvFrame.len
  dsimp only
  split_ifs with hlt
  · rw [Option.getD_none, Int.add_sub_cancel]
  · rw [Option.getD_some, RxPtrs.mk.injEq]
    refine ⟨rfl, by dsimp only; omega, rfl, rfl, ?_⟩
    unfold RxPtrs.addLen
    dsimp only
    omega

theorem ptrs_put (hv : f.ptrs.Valid) (n : Nat) : (f.orSelf (f.put n)).ptrs = (f.ptrs.put n).2 := by
  obtain ⟨hdata, htail, hsize⟩ := RecvFrame.valid_ptrs.mp hv
  unfold RecvFrame.orSelf RecvFrame.put RxPtrs.put RecvFrame.ptrs RecvFrame.len
  dsimp only
  split_ifs with hlt hlt' hlt'
  · rw [Option.getD_none, Int.add_sub_cancel]
  · omega
  · omega
  · rw [Option.getD_some, RxPtrs.mk.injEq]
    refine ⟨rfl, rfl, by dsimp only; omega, rfl, ?_⟩
    unfold RxPtrs.addLen
    dsimp only
    omega

theorem ptrs_pullTail (hv : f.ptrs.Valid) (n : Nat) :
    (f.orSelf (f.pullTail n)).ptrs = (f.ptrs.pullTail n).2 := by
  obtain ⟨hdata, htail, hsize⟩ := RecvFrame.valid_ptrs.mp hv
  unfold RecvFrame.orSelf RecvFrame.pullTail RxPtrs.pullTail RecvFrame.ptrs RecvFrame.len
  dsimp only
  split_ifs with hlt hlt' hlt'
  · rw [Option.getD_none, Int.sub_add_cancel]
  · omega
  · omega
  · rw [Option.getD_some, RxPtrs.mk.injEq]
    refine ⟨rfl, rfl, by dsimp only; omega, rfl, ?_⟩
    unfold RxPtrs.addLen
    dsimp only
    omega

/-- A copy moves no pointer. -/
theorem ptrs_memcpy {off : Nat} {bytes : List UInt8} (h : off ≤ f.buf.length) :
    (f.memcpy off bytes).ptrs = f.ptrs := by
  have hlen : ((f.buf.take off ++ bytes ++ f.buf.drop (off + bytes.length)).take
      f.buf.length).length = f.buf.length := by
    simp only [List.length_take, List.length_append, List.length_drop]
    omega
  unfold RecvFrame.memcpy RecvFrame.ptrs RecvFrame.len
  dsimp only
  rw [hlen]

end Frames

/-! ## 3. What `recvframe_defrag` does to the pointers -/

/-- One round of the loop: the pointers of the first frame as a payload of `copyLen` bytes is copied
to its `rx_tail`, and the pointers each of the calls leaves behind. -/
structure DefragRound where
  dst : RxPtrs
  copyLen : Nat
  calls : List RxPtrs

/-- The round of `appendFragment`. -/
def defragRound (prframe pnext : RecvFrame) : DefragRound :=
  let next := (pnext.ptrs.pull (pnext.attrib.hdrlen + pnext.attrib.ivLen : Nat)).2
  let dst := (prframe.ptrs.pullTail prframe.attrib.icvLen).2
  ⟨dst, next.len, [next, dst, (dst.put next.len).2]⟩

/-- The rounds of `defragLoop`. -/
def defragRounds : Nat → RecvFrame → List RecvFrame → List DefragRound
  | _, _, [] => []
  | curfragnum, prframe, pnext :: t =>
    if curfragnum ≠ pnext.attrib.fragNum then []
    else
      defragRound prframe pnext ::
        defragRounds ((curfragnum + 1) % 256) (appendFragment prframe pnext) t

/-- The rounds of `recvframe_defrag`. -/
def recvframeDefragRounds : List RecvFrame → List DefragRound
  | [] => []
  | prframe :: t => if prframe.attrib.fragNum ≠ 0 then [] else defragRounds 1 prframe t

/-- **What is asked of the rounds**: every byte copied lies below `rx_end`, and the pointers are in
order after every call, as they are after such a call on any frame. -/
structure StaysInside (parts : List RecvFrame) : Prop where
  copies : ∀ r ∈ recvframeDefragRounds parts, r.dst.rxTail + r.copyLen ≤ r.dst.rxEnd
  calls : ∀ r ∈ recvframeDefragRounds parts, ∀ h ∈ r.calls, h.Valid
  kept : ∀ (h : RxPtrs) (n : Nat), h.Valid →
    (h.push n).2.Valid ∧ (h.pull n).2.Valid ∧ (h.put n).2.Valid ∧ (h.pullTail n).2.Valid

/-! ## 4. When the fragments fit -/

/-- What a length comes down to without `sz` bytes; a call that finds less leaves it. -/
def lenWithout (len sz : Nat) : Nat := if len < sz then len else len - sz

/-- What is copied of a fragment: its body and ICV, or all of it if it is shorter than its header
and IV. -/
def RecvFrame.payloadLen (p : RecvFrame) : Nat :=
  lenWithout p.len (p.attrib.hdrlen + p.attrib.ivLen)

/-- The fragments from number `n` on fit into `room` bytes behind `len` bytes, the last `icv` of
which make way; a fragment out of number ends it. -/
def FitsFrom (room : Nat) : Nat → Nat → Nat → List RecvFrame → Prop
  | _, _, _, [] => True
  | n, len, icv, p :: t =>
    n = p.attrib.fragNum → lenWithout len icv + p.payloadLen ≤ room ∧
      FitsFrom room ((n + 1) % 256) (lenWithout len icv + p.payloadLen) p.attrib.icvLen t

/-- **The fragments fit** between `rx_data` and `rx_end` of the first. -/
def Fits : List RecvFrame → Prop
  | [] => True
  | f :: t =>
    f.attrib.fragNum = 0 → FitsFrom (f.buf.length - f.rxData) 1 f.len f.attrib.icvLen t

/-! ## 5. One round -/

section Round

variable {f p : RecvFrame}

/-- The two frames before the copy. -/
def RecvFrame.cut (f : RecvFrame) : RecvFrame := f.orSelf (f.pullTail f.attrib.icvLen)

def RecvFrame.pulled (p : RecvFrame) : RecvFrame :=
  p.orSelf (p.pull (p.attrib.hdrlen + p.attrib.ivLen : Nat))

theorem defragRound_eq (hf : f.ptrs.Valid) (hp : p.ptrs.Valid) : defragRound f p
    = ⟨f.cut.ptrs, p.pulled.len,
        [p.pulled.ptrs, f.cut.ptrs, (f.cut.ptrs.put p.pulled.len).2]⟩ := by
  unfold defragRound RecvFrame.cut RecvFrame.pulled
  rw [ptrs_pullTail hf, ← ptrs_pull hp]
  rfl

theorem valid_cut (hf : f.ptrs.Valid) : f.cut.ptrs.Valid := by
  unfold RecvFrame.cut
  rw [ptrs_pullTail hf]
  exact hf.pullTail _

theorem valid_pulled (hp : p.ptrs.Valid) : p.pulled.ptrs.Valid := by
  unfold RecvFrame.pulled
  rw [ptrs_pull hp]
  exact hp.pull _

/-- The pointers are in order after the calls of a round, whatever is copied. -/
theorem calls_valid (hf : f.ptrs.Valid) (hp : p.ptrs.Valid) :
    ∀ h ∈ (defragRound f p).calls, h.Valid := by
  rw [defragRound_eq hf hp]
  intro h hh
  simp only [List.mem_cons, List.not_mem_nil, or_false] at hh
  rcases hh with rfl | rfl | rfl
  · exact valid_pulled hp
  · exact valid_cut hf
  · exact (valid_cut hf).put _

theorem cut_len (hf : f.ptrs.Valid) : f.cut.len = lenWithout f.len f.attrib.icvLen ∧
    f.cut.rxData = f.rxData ∧ f.cut.buf = f.buf := by
  obtain ⟨hdata, htail, hsize⟩ := RecvFrame.valid_ptrs.mp hf
  unfold RecvFrame.cut RecvFrame.orSelf RecvFrame.pullTail lenWithout RecvFrame.len
  split_ifs with h1 h2 h2
  · exact ⟨rfl, rfl, rfl⟩
  · omega
  · omega
  · exact ⟨by rw [Option.getD_some]; dsimp only; omega, rfl, rfl⟩

theorem pulled_attrib : p.pulled.attrib = p.attrib := by
  unfold RecvFrame.pulled RecvFrame.orSelf RecvFrame.pull
  split_ifs <;> rfl

theorem pulled_len (hp : p.ptrs.Valid) : p.pulled.len = p.payloadLen := by
  obtain ⟨hdata, htail, hsize⟩ := RecvFrame.valid_ptrs.mp hp
  unfold RecvFrame.pulled RecvFrame.payloadLen RecvFrame.orSelf RecvFrame.pull lenWithout
    RecvFrame.len
  split_ifs with h1 h2 h2
  · rfl
  · omega
  · omega
  · rw [Option.getD_some]
    dsimp only
    omega

/-- A round leaves the pointers where its calls have left them. -/
theorem appendFragment_ptrs (hf : f.ptrs.Valid) :
    (appendFragment f p).ptrs = (f.cut.ptrs.put p.pulled.len).2 := by
  obtain ⟨-, htail, -⟩ := RecvFrame.valid_ptrs.mp (valid_cut hf)
  have hcopy : (f.cut.memcpy f.cut.rxTail (readBytes p.pulled.mem 0 p.pulled.len)).ptrs
      = f.cut.ptrs := ptrs_memcpy htail
  have hput := ptrs_put (hcopy ▸ valid_cut hf) p.pulled.len
  rw [hcopy] at hput
  exact hput

theorem valid_appendFragment (hf : f.ptrs.Valid) : (appendFragment f p).ptrs.Valid := by
  rw [appendFragment_ptrs hf]
  exact (valid_cut hf).put _

/-- A copy stays inside if there is room for it behind what is kept. -/
theorem copy_inside_iff (hf : f.ptrs.Valid) (hp : p.ptrs.Valid) :
    (defragRound f p).dst.rxTail + (defragRound f p).copyLen ≤ (defragRound f p).dst.rxEnd ↔
      lenWithout f.len f.attrib.icvLen + p.payloadLen ≤ f.buf.length - f.rxData := by
  obtain ⟨hlen, hdata, hbuf⟩ := cut_len hf
  obtain ⟨hle, htail, -⟩ := RecvFrame.valid_ptrs.mp (valid_cut hf)
  rw [defragRound_eq hf hp, pulled_len hp, ← hlen]
  unfold RecvFrame.ptrs RecvFrame.len
  rw [hbuf] at htail ⊢
  rw [hdata] at hle ⊢
  dsimp only
  omega

/-- What a round leaves of a frame there was room for. -/
theorem appendFragment_fits (hf : f.ptrs.Valid) (hp : p.ptrs.Valid)
    (hfits : lenWithout f.len f.attrib.icvLen + p.payloadLen ≤ f.buf.length - f.rxData) :
    (appendFragment f p).len = lenWithout f.len f.attrib.icvLen + p.payloadLen ∧
      (appendFragment f p).rxData = f.rxData ∧
      (appendFragment f p).buf.length = f.buf.length ∧
      (appendFragment f p).attrib.icvLen = p.attrib.icvLen := by
  obtain ⟨hlen, hdata, hbuf⟩ := cut_len hf
  obtain ⟨hle, htail, -⟩ := RecvFrame.valid_ptrs.mp (valid_cut hf)
  have htailEq : f.cut.rxTail = f.rxData + lenWithout f.len f.attrib.icvLen := by
    have hcut : f.cut.len = f.cut.rxTail - f.cut.rxData := rfl
    omega
  have hptrs := appendFragment_ptrs (p := p) hf
  have hroom : ¬ f.cut.ptrs.rxEnd < f.cut.ptrs.rxTail + (p.pulled.len : Int) := by
    rw [pulled_len hp]
    unfold RecvFrame.ptrs
    rw [hbuf] at htail ⊢
    dsimp only
    omega
  unfold RxPtrs.put at hptrs
  dsimp only at hptrs
  rw [if_neg hroom] at hptrs
  unfold RecvFrame.ptrs at hptrs
  simp only [RxPtrs.mk.injEq] at hptrs
  obtain ⟨-, hd, ht, he, -⟩ := hptrs
  rw [hbuf] at he
  rw [pulled_len hp] at ht
  have happ : (appendFragment f p).len
      = (appendFragment f p).rxTail - (appendFragment f p).rxData := rfl
  have hicv : (appendFragment f p).attrib.icvLen = p.pulled.attrib.icvLen := rfl
  rw [pulled_attrib] at hicv
  exact ⟨by omega, by omega, by omega, hicv⟩

end Round

/-! ## 6. The loop -/

/-- The copies of the loop stay inside if the fragments fit. -/
theorem defragRounds_copies : ∀ {l : List RecvFrame} {n : Nat} {f : RecvFrame}, f.ptrs.Valid →
    (∀ p ∈ l, p.ptrs.Valid) →
    ((∀ r ∈ defragRounds n f l, r.dst.rxTail + r.copyLen ≤ r.dst.rxEnd) ↔
      FitsFrom (f.buf.length - f.rxData) n f.len f.attrib.icvLen l)
  | [], n, f, _, _ => iff_of_true (fun r hr => absurd hr List.not_mem_nil) trivial
  | p :: t, n, f, hf, hl => by
    have hp := hl p List.mem_cons_self
    have hround := copy_inside_iff hf hp
    unfold defragRounds FitsFrom
    split_ifs with hn
    · exact iff_of_true (fun r hr => absurd hr List.not_mem_nil) (fun h => absurd h hn)
    · have hn : n = p.attrib.fragNum := not_not.mp hn
      have ih := defragRounds_copies (n := (n + 1) % 256) (valid_appendFragment (p := p) hf)
        (fun q hq => hl q (List.mem_cons_of_mem p hq))
      constructor
      · intro h _
        have hfits := hround.mp (h _ List.mem_cons_self)
        obtain ⟨hlen, hdata, hbuf, hicv⟩ := appendFragment_fits hf hp hfits
        rw [hlen, hdata, hbuf, hicv] at ih
        exact ⟨hfits, ih.mp fun r hr => h r (List.mem_cons_of_mem _ hr)⟩
      · intro h r hr
        obtain ⟨hfits, hrest⟩ := h hn
        obtain ⟨hlen, hdata, hbuf, hicv⟩ := appendFragment_fits hf hp hfits
        rw [hlen, hdata, hbuf, hicv] at ih
        rcases List.mem_cons.mp hr with rfl | hr
        · exact hround.mpr hfits
        · exact ih.mpr hrest r hr

theorem defragRounds_calls : ∀ {l : List RecvFrame} {n : Nat} {f : RecvFrame}, f.ptrs.Valid →
    (∀ p ∈ l, p.ptrs.Valid) → ∀ r ∈ defragRounds n f l, ∀ h ∈ r.calls, h.Valid
  | [], _, _, _, _ => fun r hr => absurd hr List.not_mem_nil
  | p :: t, n, f, hf, hl => by
    intro r hr
    unfold defragRounds at hr
    split_ifs at hr
    · exact absurd hr List.not_mem_nil
    · rcases List.mem_cons.mp hr with rfl | hr
      · exact calls_valid hf (hl p List.mem_cons_self)
      · exact defragRounds_calls (valid_appendFragment hf)
          (fun q hq => hl q (List.mem_cons_of_mem p hq)) r hr

theorem copies_iff_fits {parts : List RecvFrame} (hparts : ∀ p ∈ parts, p.ptrs.Valid) :
    (∀ r ∈ recvframeDefragRounds parts, r.dst.rxTail + r.copyLen ≤ r.dst.rxEnd) ↔ Fits parts := by
  cases parts with
  | nil => exact iff_of_true (fun r hr => absurd hr List.not_mem_nil) trivial
  | cons f t =>
    unfold recvframeDefragRounds Fits
    dsimp only
    split_ifs with hzero
    · exact iff_of_true (fun r hr => absurd hr List.not_mem_nil) (fun h => absurd h hzero)
    · rw [defragRounds_copies (hparts f List.mem_cons_self)
        (fun p hp => hparts p (List.mem_cons_of_mem f hp))]
      exact ⟨fun h _ => h, fun h => h (not_not.mp hzero)⟩

theorem recvframeDefragRounds_calls {parts : List RecvFrame} (hparts : ∀ p ∈ parts, p.ptrs.Valid) :
    ∀ r ∈ recvframeDefragRounds parts, ∀ h ∈ r.calls, h.Valid := by
  cases parts with
  | nil => exact fun r hr => absurd hr List.not_mem_nil
  | cons f t =>
    unfold recvframeDefragRounds
    dsimp only
    split_ifs
    · exact fun r hr => absurd hr List.not_mem_nil
    · exact defragRounds_calls (hparts f List.mem_cons_self)
        (fun p hp => hparts p (List.mem_cons_of_mem f hp))

/-! ## 7. The frames received -/

/-- `alloc_sz` of `rtw_os_alloc_recvframe`. -/
def recvAllocSz (attrib : RxPktAttrib) (pktLen : Nat) : Nat :=
  if attrib.mfrag = 1 ∧ attrib.fragNum = 0 then if pktLen ≤ 1650 then 1664 else pktLen + 14
  else pktLen + 14

/-- What `skb_reserve` leaves in front, with `skb->data` at the address `data`. -/
def recvReserve (attrib : RxPktAttrib) (data : Nat) : Nat :=
  8 - data % 8 + if attrib.qos ≠ 0 then 6 else 0

/-- `rtw_os_alloc_recvframe` and the `recvframe_put` behind it: `skb` is the new buffer up to
`rx_end`, with `skb->data` at the address `data`, `headroom` bytes from its head. -/
def rtwOsAllocRecvframe (id : Nat) (attrib : RxPktAttrib) (skb : List UInt8) (headroom data : Nat)
    (pdata : List UInt8) : RecvFrame :=
  let rxData := headroom + recvReserve attrib data
  let f : RecvFrame := ⟨id, attrib, skb, rxData, rxData⟩
  let f := f.memcpy rxData pdata
  f.orSelf (f.put pdata.length)

/-- The pointers of a frame that comes in are in order. -/
theorem valid_rtwOsAllocRecvframe {id headroom data : Nat} {attrib : RxPktAttrib}
    {skb pdata : List UInt8} (hskb : skb.length = headroom + recvAllocSz attrib pdata.length)
    (h32 : skb.length < 2 ^ 32) :
    (rtwOsAllocRecvframe id attrib skb headroom data pdata).ptrs.Valid ∧
      (rtwOsAllocRecvframe id attrib skb headroom data pdata).buf.length = skb.length ∧
      (rtwOsAllocRecvframe id attrib skb headroom data pdata).rxData
        = headroom + recvReserve attrib data ∧
      (rtwOsAllocRecvframe id attrib skb headroom data pdata).len = pdata.length := by
  have hreserve : recvReserve attrib data + pdata.length ≤ recvAllocSz attrib pdata.length := by
    unfold recvReserve recvAllocSz
    split_ifs <;> omega
  have hlen : ((skb.take (headroom + recvReserve attrib data) ++ pdata ++
      skb.drop (headroom + recvReserve attrib data + pdata.length)).take
        skb.length).length = skb.length := by
    simp only [List.length_take, List.length_append, List.length_drop]
    omega
  unfold rtwOsAllocRecvframe RecvFrame.orSelf RecvFrame.put RecvFrame.memcpy
  dsimp only
  rw [hlen, if_neg (by omega), Option.getD_some, RecvFrame.valid_ptrs]
  dsimp only
  rw [hlen]
  refine ⟨⟨by omega, by omega, h32⟩, rfl, rfl, ?_⟩
  unfold RecvFrame.len
  dsimp only
  omega

/-! ## 8. The result -/

/-- **The copies stay inside exactly where the fragments fit**: for every queue of frames with their
pointers in order, of whatever number, lengths and contents. -/
theorem staysInside_iff {parts : List RecvFrame} (hparts : ∀ p ∈ parts, p.ptrs.Valid) :
    StaysInside parts ↔ Fits parts :=
  ⟨fun h => (copies_iff_fits hparts).mp h.copies,
    fun h => ⟨(copies_iff_fits hparts).mpr h, recvframeDefragRounds_calls hparts,
      fun _ n hv => ⟨hv.push n, hv.pull n, hv.put n, hv.pullTail n⟩⟩⟩

/-- The attributes of a data fragment in the clear. -/
def fragAttrib (mfrag fragNum : Nat) : RxPktAttrib :=
  { (default : RxPktAttrib) with hdrlen := 24, mfrag := mfrag, fragNum := fragNum }

/-- A fragment of `n` bytes as it comes in, with 64 bytes of headroom. -/
def fragIn (mfrag fragNum n : Nat) : RecvFrame :=
  rtwOsAllocRecvframe fragNum (fragAttrib mfrag fragNum)
    (List.replicate (64 + recvAllocSz (fragAttrib mfrag fragNum) n) 0) 64 0 (List.replicate n 0)

theorem fragIn_spec (mfrag fragNum : Nat) {n : Nat} (hn : n ≤ 8192) :
    (fragIn mfrag fragNum n).ptrs.Valid ∧ (fragIn mfrag fragNum n).len = n ∧
      (fragIn mfrag fragNum n).buf.length = 64 + recvAllocSz (fragAttrib mfrag fragNum) n ∧
      (fragIn mfrag fragNum n).rxData = 72 ∧
      (fragIn mfrag fragNum n).attrib = fragAttrib mfrag fragNum := by
  have halloc : recvAllocSz (fragAttrib mfrag fragNum) n ≤ 8192 + 1664 := by
    unfold recvAllocSz
    split_ifs <;> omega
  obtain ⟨hvalid, hbuf, hdata, hlen⟩ := @valid_rtwOsAllocRecvframe fragNum 64 0
    (fragAttrib mfrag fragNum)
    (List.replicate (64 + recvAllocSz (fragAttrib mfrag fragNum) n) 0) (List.replicate n 0)
    (by simp) (by simp; omega)
  rw [List.length_replicate] at hbuf hlen
  refine ⟨hvalid, hlen, hbuf, hdata, ?_⟩
  unfold fragIn rtwOsAllocRecvframe RecvFrame.orSelf RecvFrame.put
  dsimp only
  split_ifs <;> rfl

/-- Two fragments of 800 bytes are joined inside the buffer. -/
theorem staysInside_two : StaysInside [fragIn 1 0 800, fragIn 0 1 800] := by
  obtain ⟨hv, hlen, hbuf, hdata, hattr⟩ := fragIn_spec 1 0 (show 800 ≤ 8192 by decide)
  obtain ⟨hv', hlen', -, -, hattr'⟩ := fragIn_spec 0 1 (show 800 ≤ 8192 by decide)
  have hparts : ∀ p ∈ [fragIn 1 0 800, fragIn 0 1 800], p.ptrs.Valid :=
    List.forall_mem_cons.mpr ⟨hv, List.forall_mem_singleton.mpr hv'⟩
  refine (staysInside_iff hparts).mpr fun _ _ => ⟨?_, trivial⟩
  rw [hbuf, hdata, hlen, hattr, RecvFrame.payloadLen, hlen', hattr']
  decide

/-- **Two fragments of 1500 bytes overrun it.** -/
theorem defrag_overruns : ¬ StaysInside [fragIn 1 0 1500, fragIn 0 1 1500] := by
  obtain ⟨hv, hlen, hbuf, hdata, hattr⟩ := fragIn_spec 1 0 (show 1500 ≤ 8192 by decide)
  obtain ⟨hv', hlen', -, -, hattr'⟩ := fragIn_spec 0 1 (show 1500 ≤ 8192 by decide)
  have hparts : ∀ p ∈ [fragIn 1 0 1500, fragIn 0 1 1500], p.ptrs.Valid :=
    List.forall_mem_cons.mpr ⟨hv, List.forall_mem_singleton.mpr hv'⟩
  intro h
  have hfits := (copies_iff_fits hparts).mp h.copies
  have hle := (hfits (by rw [hattr]; rfl) (by rw [hattr']; rfl)).1
  rw [hbuf, hdata, hlen, hattr, RecvFrame.payloadLen, hlen', hattr'] at hle
  exact absurd hle (by decide)

end Rtl8723bs
