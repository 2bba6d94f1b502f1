/-
# Is an aggregated buffer as long as it says?

`xmit_xmitframes` puts frame after frame into one transmit buffer.  Whether a frame still fits is
asked with an estimate of its size, `pxmitbuf->ptail` and `pxmitbuf->len` move on by what
`last_txcmdsz` says afterwards.  Both are the size of the packet as long as it fits one fragment:
then all is written inside the buffer, packets start on 8-byte boundaries, one behind the other,
and `len` covers them (`aggregate_described`).  Of a packet in several fragments `last_txcmdsz`
counts the last one only, and the next frame is written over the others (`fragments_overlap`).

What `serveFrames` counts is what is counted here (`aggregate_coalesceFrame`).
-/
import Rtl8723bs.Tx.CoalesceBounds
import Rtl8723bs.Tx.Sched

namespace Rtl8723bs

/-! ## 1. The buffer -/

/-- A queued frame, with what the driver knows when it comes to coalesce it. -/
structure AggFrame where
  attrib : PktAttrib
  pkt : List UInt8
  qsel : Nat
  sec : SecurityPriv
  table : StaTable
  env : TxEnv
  stas : StaId → TxSta
  fragLen : Nat
  /-- What `rtl8723b_update_txdesc` makes of it. -/
  txdesc : List UInt8
  built : attrib.Built pkt
  length_txdesc : txdesc.length = txdescOffset

/-- `txdesc_size + rtw_wlan_pkt_size(pxmitframe)`. -/
def AggFrame.txlen (f : AggFrame) : Nat := txdescOffset + rtwCalculateWlanPktSizeByAttribue f.attrib

def AggFrame.coalesce (c : SwCrypto) (f : AggFrame) (bufAddr : Nat) (m : Mem) : Option Coalesced :=
  rtwXmitframeCoalesce c f.sec f.table f.env f.stas f.fragLen bufAddr m f.pkt f.attrib

/-- A frame that was aggregated: its `buf_addr`, the bytes that were counted for it, the estimate,
and the memory before and after. -/
structure AggPacket where
  bufAddr : Nat
  txlen : Nat
  estimate : Nat
  before : Mem
  after : Mem

/-- `struct xmit_buf`, `k` and `pre_qsel`; `packets` is what went into the buffer. -/
structure AggBuf where
  mem : Mem
  phead : Nat
  ptail : Nat
  len : Nat := 0
  pgNum : Nat := 0
  k : Nat := 0
  preQsel : Nat := 0xFF
  packets : List AggPacket := []

/-- A buffer that `rtw_alloc_xmitbuf` gives. -/
def AggBuf.fresh (m : Mem) (phead : Nat) : AggBuf where
  mem := m
  phead := phead
  ptail := phead

/-- Is there room for one more frame? -/
def AggBuf.RoomFor (isAp : Bool) (maxXmitLen oqtFree : Nat) (b : AggBuf) (f : AggFrame) : Prop :=
  ¬(maxXmitLen < rnd8 b.len + f.txlen ∨ oqtFree - 1 ≤ b.k ∨
    (b.k ≠ 0 ∧ busaggQselCheck isAp b.preQsel f.qsel = false))

instance (isAp : Bool) (maxXmitLen oqtFree : Nat) (b : AggBuf) (f : AggFrame) :
    Decidable (b.RoomFor isAp maxXmitLen oqtFree f) := inferInstanceAs (Decidable ¬_)

/-- A frame into the buffer, and the bookkeeping after it.  The first frame has its descriptor
written when the buffer is handed on. -/
def AggBuf.aggregate (c : SwCrypto) (b : AggBuf) (f : AggFrame) : AggBuf :=
  match f.coalesce c b.ptail b.mem with
  | none =>
    { b with mem := coalesceFailed f.table f.env f.stas f.fragLen b.ptail b.mem f.pkt f.attrib }
  | some r =>
    let mem := if b.k + 1 ≠ 1 then overwrite r.mem b.ptail f.txdesc else r.mem
    let txlen := txdescOffset + r.attrib.lastTxcmdsz
    { b with
      mem := mem
      k := b.k + 1
      preQsel := f.qsel
      pgNum := b.pgNum + (txlen + 127) / 128
      ptail := b.ptail + rnd8 txlen
      len := rnd8 b.len + txlen
      packets := b.packets ++ [⟨b.ptail, txlen, f.txlen, b.mem, mem⟩] }

/-- Frames as long as there is room for them. -/
def AggBuf.fill (c : SwCrypto) (isAp : Bool) (maxXmitLen oqtFree : Nat) :
    AggBuf → List AggFrame → AggBuf
  | b, [] => b
  | b, f :: fs =>
    if b.RoomFor isAp maxXmitLen oqtFree f then
      (b.aggregate c f).fill c isAp maxXmitLen oqtFree fs
    else b

/-- One buffer from its allocation on: for the first frame nothing is asked. -/
def fillXmitbuf (c : SwCrypto) (isAp : Bool) (maxXmitLen oqtFree : Nat) (m : Mem) (phead : Nat)
    (f : AggFrame) (fs : List AggFrame) : AggBuf :=
  ((AggBuf.fresh m phead).aggregate c f).fill c isAp maxXmitLen oqtFree fs

/-- `rtl8723b_update_txdesc(pframe, pframe->buf_addr)` of the first frame, before
`enqueue_pending_xmitbuf`. -/
def AggBuf.handOn (b : AggBuf) (txdesc : List UInt8) : Mem := overwrite b.mem b.phead txdesc

/-! ## 2. What is asked of it -/

/-- **The buffer holds what it says**, if `m` was in it before. -/
structure AggBuf.Described (m : Mem) (maxXmitLen : Nat) (b : AggBuf) : Prop where
  inside : Confined m b.mem b.phead (b.phead + maxXmitLen)
  written : ∀ p ∈ b.packets, Confined p.before p.after p.bufAddr (p.bufAddr + p.txlen)
  estimated : ∀ p ∈ b.packets, p.txlen ≤ p.estimate
  aligned : ∀ p ∈ b.packets, p.bufAddr % 8 = 0
  apart : b.packets.Pairwise fun p q => p.bufAddr + p.txlen ≤ q.bufAddr
  covered : ∀ p ∈ b.packets, b.phead ≤ p.bufAddr ∧ p.bufAddr + p.txlen ≤ b.phead + b.len
  first : 0 < b.k → ∀ txdesc : List UInt8, txdesc.length = txdescOffset →
    Confined m (b.handOn txdesc) b.phead (b.phead + maxXmitLen)

/-- A frame in one fragment, no shorter than the header that is zeroed for it. -/
structure AggFrame.Fits (f : AggFrame) : Prop where
  one : f.attrib.FitsOne f.fragLen
  header : wlanhdrOffset ≤ rtwCalculateWlanPktSizeByAttribue f.attrib

/-! ## 3. One frame -/

section Step

variable {c : SwCrypto} {f : AggFrame} {b : AggBuf} {m : Mem} {maxXmitLen : Nat}

theorem le_rnd8 (x : Nat) : x ≤ rnd8 x := by
  unfold rnd8
  omega

theorem rnd8_mod (x : Nat) : rnd8 x % 8 = 0 := Nat.mul_mod_left _ _

/-- Multiples of eight stay what they are under `_RND`. -/
theorem rnd8_add (x y : Nat) : rnd8 (rnd8 x + y) = rnd8 x + rnd8 y := by
  unfold rnd8
  omega

/-- A frame that fits is written where it is counted. -/
theorem AggFrame.coalesce_confined (hc : c.Sized) (hf : f.Fits) {bufAddr : Nat}
    (hword : bufAddr % 8 = 0) {r : Coalesced} (hr : f.coalesce c bufAddr m = some r) :
    r.attrib.lastTxcmdsz = rtwCalculateWlanPktSizeByAttribue f.attrib ∧
      Confined m r.mem (bufAddr + txdescOffset) (bufAddr + f.txlen) := by
  refine ⟨coalesce_size f.built hf.one hr, ?_⟩
  have hconf := Rtl8723bs.coalesce_confined hc f.built hf.one (by omega) hr
  rw [Nat.max_eq_right hf.header, Nat.add_assoc] at hconf
  exact hconf

/-- What holds of the buffer between two frames. -/
structure AggBuf.Inv (m : Mem) (maxXmitLen : Nat) (b : AggBuf) : Prop
    extends b.Described m maxXmitLen where
  phead : b.phead % 8 = 0
  ptail : b.ptail = b.phead + rnd8 b.len
  len : b.len ≤ maxXmitLen
  some : 0 < b.k → txdescOffset ≤ b.len

theorem AggBuf.inv_fresh {phead : Nat} (hword : phead % 8 = 0) :
    (AggBuf.fresh m phead).Inv m maxXmitLen where
  inside := .refl m _ _
  written := fun _ hp => nomatch hp
  estimated := fun _ hp => nomatch hp
  aligned := fun _ hp => nomatch hp
  apart := .nil
  covered := fun _ hp => nomatch hp
  first := fun hk => nomatch hk
  phead := hword
  ptail := by
    have hzero : rnd8 0 = 0 := by decide
    exact (congrArg (phead + ·) hzero).symm
  len := Nat.zero_le _
  some := fun hk => nomatch hk

/-- **One more frame**, if there is room for it. -/
theorem AggBuf.Inv.aggregate (hc : c.Sized) (h : b.Inv m maxXmitLen) (hf : f.Fits)
    (hroom : rnd8 b.len + f.txlen ≤ maxXmitLen) : (b.aggregate c f).Inv m maxXmitLen := by
  have hphead := h.phead
  have hptail := h.ptail
  have hlen := le_rnd8 b.len
  have hmod := rnd8_mod b.len
  unfold AggBuf.aggregate
  cases hr : f.coalesce c b.ptail b.mem with
  | none =>
    -- a failed call stays in the room that was there for the frame
    have hfailed := @coalesceFailed_confined f.table f.env f.stas f.fragLen b.ptail b.mem f.pkt
      f.attrib f.built hf.one
    rw [Nat.max_eq_right hf.header, Nat.add_assoc] at hfailed
    change Confined b.mem _ _ (b.ptail + f.txlen) at hfailed
    have hall := h.inside.trans (hfailed.mono (by omega) (by omega))
    exact ⟨⟨hall, h.written, h.estimated, h.aligned, h.apart, h.covered, fun hk d hd =>
      hall.trans (overwrite_confined (Nat.le_refl _) (by
        have := h.some hk
        have := h.len
        dsimp only
        omega))⟩, h.phead, h.ptail, h.len, h.some⟩
  | some r =>
    obtain ⟨hsize, hconf⟩ := AggFrame.coalesce_confined hc hf (by omega) hr
    dsimp only
    rw [hsize]
    change AggBuf.Inv m maxXmitLen { b with
      mem := if b.k + 1 ≠ 1 then overwrite r.mem b.ptail f.txdesc else r.mem
      k := b.k + 1
      preQsel := f.qsel
      pgNum := _
      ptail := b.ptail + rnd8 f.txlen
      len := rnd8 b.len + f.txlen
      packets := b.packets ++ [⟨b.ptail, f.txlen, f.txlen, b.mem, _⟩] }
    have hdesc : txdescOffset ≤ f.txlen := Nat.le_add_right _ _
    have hafter : Confined b.mem (if b.k + 1 ≠ 1 then overwrite r.mem b.ptail f.txdesc else r.mem)
        b.ptail (b.ptail + f.txlen) :=
      (hconf.mono (Nat.le_add_right _ _) (Nat.le_refl _)).trans (Confined.ite
        (overwrite_confined (Nat.le_refl _) (by rw [f.length_txdesc]; omega)))
    have hall := h.inside.trans (hafter.mono (by omega) (by omega))
    generalize (if b.k + 1 ≠ 1 then overwrite r.mem b.ptail f.txdesc else r.mem) = after at *
    have hpackets : ∀ P : AggPacket → Prop, (∀ p ∈ b.packets, P p) →
        P ⟨b.ptail, f.txlen, f.txlen, b.mem, after⟩ →
        ∀ p ∈ b.packets ++ [⟨b.ptail, f.txlen, f.txlen, b.mem, after⟩], P p := by
      intro P hold hnew p hp
      rcases List.mem_append.mp hp with hp | hp
      · exact hold p hp
      · rw [List.mem_singleton.mp hp]
        exact hnew
    refine ⟨⟨hall, hpackets _ h.written hafter, hpackets _ h.estimated (Nat.le_refl _),
      hpackets _ h.aligned (by dsimp only; omega), ?_, hpackets _ (fun p hp => ?_) ?_,
      fun _ d hd => hall.trans (overwrite_confined (Nat.le_refl _) ?_)⟩, h.phead, ?_, hroom,
      fun _ => ?_⟩
    · refine List.pairwise_append.mpr ⟨h.apart, List.pairwise_singleton _ _, fun p hp q hq => ?_⟩
      rw [List.mem_singleton.mp hq]
      have := (h.covered p hp).2
      dsimp only
      omega
    · have := h.covered p hp
      dsimp only
      omega
    · dsimp only
      omega
    · dsimp only
      omega
    · dsimp only
      rw [rnd8_add]
      omega
    · dsimp only
      omega

end Step

/-! ## 4. Against the queues -/

section Queues

variable {c : SwCrypto} {f : AggFrame} {b : AggBuf} {bus : SdioBus} {x : XmitFrame} {ac : Ac}

/-- The local variables of `xmit_xmitframes`, as the queues have them. -/
def AggBuf.regs (b : AggBuf) (privData : Bool) (err : Int) (n : Nat) : TxRegs :=
  ⟨some ⟨b.len, privData⟩, b.k, b.preQsel, err, n⟩

/-- A frame with room for it goes into the buffer at hand. -/
theorem AggBuf.RoomFor.makeRoom {isAp single privData : Bool} {err : Int} {n : Nat}
    (hlen : bus.txlen x = f.txlen) (hqsel : x.qsel = f.qsel)
    (h : b.RoomFor isAp (bus.maxXmitLen ac) bus.oqtFree f) :
    Rtl8723bs.makeRoom bus isAp single ac x (b.regs privData err n)
      = .ok (b.regs privData err n) := by
  unfold Rtl8723bs.makeRoom AggBuf.regs
  dsimp only
  rw [hlen, hqsel, if_neg h]

/-- **What is counted for the queues is counted here.** -/
theorem aggregate_coalesceFrame {privData : Bool} {err : Int} {n : Nat} (hqsel : x.qsel = f.qsel)
    (hbus : bus.coalesce n
      = (f.coalesce c b.ptail b.mem).map fun r => txdescOffset + r.attrib.lastTxcmdsz) :
    coalesceFrame bus x (b.regs privData err n)
      = (b.aggregate c f).regs (privData || b.k = 0) err (n + 1) := by
  unfold coalesceFrame AggBuf.aggregate AggBuf.regs
  dsimp only
  rw [hbus]
  cases f.coalesce c b.ptail b.mem with
  | none => rfl
  | some r => exact congrArg (TxRegs.mk _ _ · _ _) hqsel

end Queues

/-! ## 5. A whole buffer -/

section Run

variable {c : SwCrypto} {m : Mem} {maxXmitLen : Nat}

/-- Frame after frame. -/
theorem AggBuf.Inv.fill (hc : c.Sized) (isAp : Bool) (oqtFree : Nat) : ∀ (fs : List AggFrame)
    {b : AggBuf}, b.Inv m maxXmitLen → (∀ f ∈ fs, f.Fits) →
    (b.fill c isAp maxXmitLen oqtFree fs).Inv m maxXmitLen
  | [], _, h, _ => h
  | f :: fs, b, h, hfits => by
    unfold AggBuf.fill
    split
    · rename_i hroom
      have hlen := Nat.le_of_not_lt fun hlt => hroom (.inl hlt)
      exact (h.aggregate hc (hfits f List.mem_cons_self) hlen).fill hc isAp oqtFree fs
        fun g hg => hfits g (List.mem_cons_of_mem f hg)
    · exact h

/-- **An aggregated buffer holds what it says**, in any run of frames that fit one fragment. -/
theorem aggregate_described (hc : c.Sized) (isAp : Bool) (oqtFree : Nat) (m : Mem) {phead : Nat}
    (hword : phead % 8 = 0) {f : AggFrame} {fs : List AggFrame} (hfirst : f.txlen ≤ maxXmitLen)
    (hfits : ∀ g ∈ f :: fs, g.Fits) :
    (fillXmitbuf c isAp maxXmitLen oqtFree m phead f fs).Described m maxXmitLen := by
  have hroom : rnd8 (AggBuf.fresh m phead).len + f.txlen ≤ maxXmitLen := by
    rw [show rnd8 (AggBuf.fresh m phead).len = 0 from (by decide : rnd8 0 = 0), Nat.zero_add]
    exact hfirst
  have hstart := (AggBuf.inv_fresh hword).aggregate hc (hfits f List.mem_cons_self) hroom
  exact (hstart.fill hc isAp oqtFree fs fun g hg => hfits g (List.mem_cons_of_mem f hg)).toDescribed

end Run

/-- Ciphers of the right sizes; a packet that is not encrypted asks none of them. -/
def sizedCrypto : SwCrypto :=
  ⟨fun _ => id, fun _ => id, fun _ => List.replicate 4 0, fun _ _ _ => [],
    fun _ _ => List.replicate 8 0⟩

theorem sizedCrypto_sized : sizedCrypto.Sized := ⟨fun _ _ => rfl, fun _ => rfl, fun _ _ => rfl⟩

/-- The attributes of a packet of `n` bytes to the AP, in the clear. -/
def clearAttrib (n : Nat) : PktAttrib :=
  { initAttrib with
    ra := peerAddr
    subtype := wifiDataType
    hdrlen := 24
    pktHdrlen := 14
    pktlen := n }

theorem clearAttrib_built (n : Nat) : (clearAttrib n).Built (ethPkt n) := by
  have hplain : initAttrib.encrypt ≠ encWep40 ∧ initAttrib.encrypt ≠ encWep104 ∧
      initAttrib.encrypt ≠ encTkip ∧ initAttrib.encrypt ≠ encAes := by decide
  obtain ⟨h40, h104, htkip, haes⟩ := hplain
  exact {
    hdrlen := Or.inl rfl
    pktlen := (aesAttrib_sound n).pktlen
    ivLen := Nat.zero_le 8
    ivFull := fun h => (h.elim htkip haes).elim
    icvLen := Nat.zero_le 8
    kind := Or.inl ⟨rfl, rfl⟩
    icvRc4 := fun h => (h.elim h40 fun h => h.elim h104 htkip).elim
    icvAes := fun h => (haes h).elim }

/-- The packet as it is queued, with `frag_len` 256. -/
def clearFrame (n : Nat) : AggFrame where
  attrib := clearAttrib n
  pkt := ethPkt n
  qsel := 0
  sec := swAesSec
  table := peerTable
  env := staEnv
  stas := fun _ => peerSta 1
  fragLen := 256
  txdesc := List.replicate txdescOffset 0
  built := clearAttrib_built n
  length_txdesc := List.length_replicate

/-- Two packets in one buffer of 2048 bytes at 4096. -/
def twoClear (n : Nat) : AggBuf :=
  fillXmitbuf sizedCrypto false 2048 8 (fun _ => 0) 4096 (clearFrame n) [clearFrame n]

theorem aggregate_described_of_200 :
    (clearFrame 200).Fits ∧ (twoClear 200).Described (fun _ => 0) 2048 := by
  have hfits : (clearFrame 200).Fits := ⟨Or.inr (by decide), by decide⟩
  exact ⟨hfits, aggregate_described sizedCrypto_sized false 8 (fun _ => 0) (by decide) (by decide)
    (List.forall_mem_cons.mpr ⟨hfits, List.forall_mem_singleton.mpr hfits⟩)⟩

/-- Of 300 bytes, 104 are counted: the second packet starts in the first fragment of the first one,
and is written over its second one, whose header lies behind all that was counted. -/
theorem fragments_overlap :
    (twoClear 300).packets.map
        (fun p => (p.bufAddr, p.txlen, p.estimate, p.before 4428, p.after 4428))
        = [(4096, 144, 372, 0, 8), (4240, 144, 372, 8, 0)] ∧
      ¬ (twoClear 300).Described (fun _ => 0) 2048 := by
  have hrun : (twoClear 300).packets.map
      (fun p => (p.bufAddr, p.txlen, p.estimate, p.before 4428, p.after 4428))
      = [(4096, 144, 372, 0, 8), (4240, 144, 372, 8, 0)] := by decide +kernel
  refine ⟨hrun, fun h => ?_⟩
  have hmem : (4096, 144, 372, 0, 8) ∈ (twoClear 300).packets.map
      (fun p => (p.bufAddr, p.txlen, p.estimate, p.before 4428, p.after 4428)) := by
    rw [hrun]
    exact List.mem_cons_self
  obtain ⟨p, hp, hpacket⟩ := List.mem_map.mp hmem
  simp only [Prod.mk.injEq] at hpacket
  obtain ⟨haddr, hlen, _, hbefore, hafter⟩ := hpacket
  have hsame := h.written p hp 4428 (.inr (by omega))
  rw [hbefore, hafter] at hsame
  exact absurd hsame (by decide)

end Rtl8723bs
