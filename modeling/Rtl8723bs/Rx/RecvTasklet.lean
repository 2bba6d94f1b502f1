/-
# Parsing a receive buffer

The tasklet takes a buffer and walks over its packets, each a descriptor of 24 bytes, driver info,
a shift and the packet, all of it rounded up to eight bytes.  Where no `recv_frame` is left it
puts the buffer back in front of its queue with `pdata` at the packet it stopped at, and the next
run of the tasklet goes on there.  Every other `break` gives the buffer to the free queue,
whatever is left in it: at a packet whose copy cannot be allocated, and at one of abnormal length,
which the message says is skipped.  A descriptor is read before it is known to lie in the buffer.

`packets` says what the packets of a buffer are; `recv_buffer_faithful_iff` is the comparison, over
all runs of the tasklet on one buffer.
-/
import Mathlib.Tactic.SplitIfs
import Rtl8723bs.Wifi

namespace Rtl8723bs

/-! ## 1. Descriptors -/

/-- What `rtl8723b_query_rx_desc_status` fills in and the tasklet reads. -/
structure RxReport where
  pktLen : Nat
  c2h : Bool
  crcErr : Bool
  icvErr : Bool
  drvinfoSz : Nat
  shiftSz : Nat
  physt : Bool
  mfrag : Bool
  fragNum : Nat

/-- `rtl8723b_query_rx_desc_status`; of a C2H packet only the length is taken over. -/
def rxDescStatus (m : Mem) (p : Nat) : RxReport :=
  let pktLen := le16 m p % 2 ^ 14
  if le16 m (p + 10) / 2 ^ 12 % 2 = 1 then ⟨pktLen, true, false, false, 0, 0, false, false, 0⟩
  else
    { pktLen
      c2h := false
      crcErr := le16 m p / 2 ^ 14 % 2 = 1
      icvErr := le16 m p / 2 ^ 15 % 2 = 1
      drvinfoSz := le16 m (p + 2) % 2 ^ 4 * 8
      shiftSz := le16 m (p + 2) / 2 ^ 8 % 2 ^ 2
      physt := le16 m (p + 2) / 2 ^ 10 % 2 = 1
      mfrag := le16 m (p + 6) / 2 ^ 11 % 2 = 1
      fragNum := le16 m (p + 8) / 2 ^ 12 % 2 ^ 4 }

/-- The words of the descriptor that are read, as first byte and count. -/
def descReads (d : RxReport) (p : Nat) : List (Nat × Nat) :=
  [(p, 4), (p + 8, 4)] ++ if d.c2h then [] else [(p + 4, 4), (p + 12, 4), (p + 16, 4)]

/-- `RXDESC_SIZE`. -/
def rxdescSize : Nat := 24

/-- `_RND8`. -/
def rxRnd8 (sz : Nat) : Nat := (sz / 8 + if sz % 8 = 0 then 0 else 1) * 8

/-- The place of the next packet, as far as the descriptor tells. -/
def RxReport.size (d : RxReport) : Nat := rxdescSize + d.drvinfoSz + d.shiftSz + d.pktLen

/-! ## 2. The packets of a buffer -/

/-- The bits of the receive configuration, the last one with `CONFIG_RX_PACKET_APPEND_FCS` and
outside monitor mode: a bad FCS is passed up, four bytes follow the descriptor, the FCS is passed
up. -/
structure RxCfg where
  acrc32 : Bool
  appBaSsn : Bool
  appFcs : Bool

/-- The descriptor cannot be what it says: a bad FCS where such packets are not passed up.  The rest
of the buffer is dropped. -/
def RxCfg.distrusts (cfg : RxCfg) (d : RxReport) : Bool := !cfg.acrc32 && d.crcErr

/-- There is a packet at `p`. -/
def isPacket (cfg : RxCfg) (m : Mem) (tail p : Nat) : Bool :=
  let d := rxDescStatus m p
  !cfg.distrusts d && p + d.size ≤ tail

/-- The place behind the packet at `p`. -/
def nextPacket (m : Mem) (p : Nat) : Nat := p + rxRnd8 (rxDescStatus m p).size

theorem le_rxRnd8 (n : Nat) : n ≤ rxRnd8 n := by
  unfold rxRnd8
  split <;> omega

theorem add_size_le_nextPacket (m : Mem) (p : Nat) :
    p + (rxDescStatus m p).size ≤ nextPacket m p :=
  Nat.add_le_add_left (le_rxRnd8 _) p

theorem size_pos (d : RxReport) : rxdescSize ≤ d.size := by
  unfold RxReport.size
  omega

theorem add_size_le {cfg : RxCfg} {m : Mem} {tail p : Nat} (h : isPacket cfg m tail p = true) :
    p + (rxDescStatus m p).size ≤ tail :=
  of_decide_eq_true (Bool.and_eq_true _ _ ▸ h).2

theorem nextPacket_lt {cfg : RxCfg} {m : Mem} {tail p : Nat} (h : isPacket cfg m tail p = true) :
    tail - nextPacket m p < tail - p := by
  have hfits := add_size_le h
  have hpos := size_pos (rxDescStatus m p)
  have hnext := add_size_le_nextPacket m p
  have h24 : rxdescSize = 24 := rfl
  omega

/-- **The packets from `p` on**, by their places. -/
def packets (cfg : RxCfg) (m : Mem) (tail p : Nat) : List Nat :=
  if isPacket cfg m tail p = true then p :: packets cfg m tail (nextPacket m p) else []
termination_by tail - p
decreasing_by exact nextPacket_lt ‹_›

/-! ## 3. The tasklet on one buffer -/

/-- Which allocations succeed, by the place of the packet: the `recv_frame`, the copy of the packet,
and the clone of the buffer where the copy fails. -/
structure PassEnv where
  frame : Nat → Bool
  alloc : Nat → Bool
  clone : Nat → Bool

/-- What is done with a packet. -/
inductive Handling
  | skipped
  | abnormal
  | received (len : Nat) (phyStatus : Option Nat)
  | c2h (len : Nat)
deriving DecidableEq

/-- The size of the report that `phydm` reads at the place passed up, `_phy_status_rpt_8192cd`. -/
def phyStatusSize : Nat := 28

/-- What becomes of the packet at `ptr`: how it is handled, what is read, the length that four is
subtracted from, and where the walk goes on unless it ends. -/
structure PacketResult where
  handled : Option Handling
  reads : List (Nat × Nat)
  fcsFrom : List Nat
  next : Option Nat

/-- The length after the FCS is taken off, in 16 bits. -/
def lenWithoutFcs (cfg : RxCfg) (d : RxReport) : Nat :=
  if !d.c2h && cfg.appFcs then (d.pktLen + 2 ^ 16 - 4) % 2 ^ 16 else d.pktLen

/-- `pkt_len < 14 || pkt_len > 8192`. -/
def abnormalLen (len : Nat) : Bool := len < 14 || 8192 < len

/-- `rtw_os_alloc_recvframe` succeeds: with a copy, or with a clone unless it is a first fragment.
-/
def PassEnv.skb (e : PassEnv) (d : RxReport) (p : Nat) : Bool :=
  e.alloc p || (!(d.mfrag && d.fragNum = 0) && e.clone p)

/-- The place of the PHY status, behind the descriptor and what `RCR_APP_BA_SSN` puts there. -/
def phyStatusAt (cfg : RxCfg) (p : Nat) : Nat := p + rxdescSize + if cfg.appBaSsn then 4 else 0

/-- The body of the inner `while`, from `rtl8723b_query_rx_desc_status` on. -/
def parsePacket (cfg : RxCfg) (e : PassEnv) (m : Mem) (tail ptr : Nat) : PacketResult :=
  let d := rxDescStatus m ptr
  let desc := descReads d ptr
  if cfg.distrusts d then ⟨none, desc, [], none⟩
  else
    let rxReportSz := (rxdescSize + d.drvinfoSz) % 2 ^ 8
    let pktOffset := rxReportSz + d.shiftSz + d.pktLen
    let next := ptr + rxRnd8 pktOffset
    if tail < ptr + pktOffset then ⟨none, desc, [], none⟩
    else if d.crcErr || d.icvErr then ⟨some .skipped, desc, [], some next⟩
    else
      let len := lenWithoutFcs cfg d
      let fcsFrom := if !d.c2h && cfg.appFcs then [d.pktLen] else []
      if e.skb d ptr then
        let desc := desc ++ if e.alloc ptr then [(ptr + rxReportSz + d.shiftSz, len)] else []
        if d.c2h then ⟨some (.c2h len), desc, fcsFrom, some next⟩
        else if abnormalLen len then ⟨some .abnormal, desc, fcsFrom, none⟩
        else
          let status := if d.physt then some (phyStatusAt cfg ptr) else none
          ⟨some (.received len status), desc ++ status.toList.map (·, phyStatusSize), fcsFrom,
            some next⟩
      else ⟨none, desc, fcsFrom, none⟩

/-- What a pass over the buffer leaves: the packets handled, what was read, the lengths that four
was subtracted from, `pdata`, and whether the buffer went back in front of its queue. -/
structure PassResult where
  handled : List (Nat × Handling)
  reads : List (Nat × Nat)
  fcsFrom : List Nat
  pdata : Nat
  requeued : Bool

/-- The packet at `ptr` before the others. -/
def PassResult.behind (r : PassResult) (ptr : Nat) (pkt : PacketResult) : PassResult :=
  { r with
    handled := pkt.handled.toList.map (ptr, ·) ++ r.handled
    reads := pkt.reads ++ r.reads
    fcsFrom := pkt.fcsFrom ++ r.fcsFrom }

/-- The inner `while`, for so many rounds. -/
def parseLoop (cfg : RxCfg) (e : PassEnv) (m : Mem) (tail : Nat) : Nat → Nat → Option PassResult
  | 0, _ => none
  | n + 1, ptr =>
    if ptr < tail then
      if e.frame ptr then
        let pkt := parsePacket cfg e m tail ptr
        match pkt.next with
        | some next => (parseLoop cfg e m tail n next).map (·.behind ptr pkt)
        | none => some (PassResult.behind ⟨[], [], [], ptr, false⟩ ptr pkt)
      else some ⟨[], [], [], ptr, true⟩
    else some ⟨[], [], [], ptr, false⟩

/-! ## 4. All runs of the tasklet on one buffer -/

/-- The runs of the tasklet on a buffer until it is given to the free queue or the list of runs
ends: all that is handled and read, and the packets left in the buffer that is still pending. -/
structure BufferResult where
  handled : List (Nat × Handling)
  reads : List (Nat × Nat)
  fcsFrom : List Nat
  left : List Nat

/-- Run after run; a buffer that was put back is taken first.  `tail - p + 1` rounds are enough for
a run. -/
def recvBuffer (cfg : RxCfg) (m : Mem) (tail : Nat) : List PassEnv → Nat → Option BufferResult
  | [], p => some ⟨[], [], [], packets cfg m tail p⟩
  | e :: es, p =>
    match parseLoop cfg e m tail (tail - p + 1) p with
    | none => none
    | some r =>
      if r.requeued then
        (recvBuffer cfg m tail es r.pdata).map fun b =>
          ⟨r.handled ++ b.handled, r.reads ++ b.reads, r.fcsFrom ++ b.fcsFrom, b.left⟩
      else some ⟨r.handled, r.reads, r.fcsFrom, []⟩

/-- **Nothing is lost, repeated or read from elsewhere**: what was handled and what is left are the
packets of the buffer, in their order, every read lies in front of `tail`, and four is taken from no
length below four. -/
structure BufferResult.Faithful (cfg : RxCfg) (m : Mem) (tail p : Nat) (b : BufferResult) :
    Prop where
  handled : b.handled.map Prod.fst ++ b.left = packets cfg m tail p
  reads : ∀ x ∈ b.reads, x.1 + x.2 ≤ tail
  fcs : ∀ n ∈ b.fcsFrom, 4 ≤ n

/-- A packet with no error, which is passed up. -/
def passedUp (cfg : RxCfg) (m : Mem) (tail p : Nat) : Bool :=
  isPacket cfg m tail p && !(rxDescStatus m p).crcErr && !(rxDescStatus m p).icvErr

/-- It is a packet of normal kind and abnormal length. -/
def abnormalAt (cfg : RxCfg) (m : Mem) (tail p : Nat) : Bool :=
  passedUp cfg m tail p && !(rxDescStatus m p).c2h &&
    abnormalLen (lenWithoutFcs cfg (rxDescStatus m p))

/-- **A place the driver gets right.**  The words of the descriptor lie in the buffer; and if there
is a packet to be passed up, then a copy or a clone can be had, the FCS fits into it, it is the last
one if its length is abnormal, and its PHY status, if it has one, lies in the buffer. -/
structure Clean (cfg : RxCfg) (m : Mem) (tail : Nat) (e : PassEnv) (p : Nat) : Prop where
  desc : ∀ x ∈ descReads (rxDescStatus m p) p, x.1 + x.2 ≤ tail
  skb : passedUp cfg m tail p = true → e.skb (rxDescStatus m p) p = true
  fcs : passedUp cfg m tail p = true → (rxDescStatus m p).c2h = false → cfg.appFcs = true →
    4 ≤ (rxDescStatus m p).pktLen
  last : abnormalAt cfg m tail p = true → packets cfg m tail (nextPacket m p) = []
  status : passedUp cfg m tail p = true → abnormalAt cfg m tail p = false →
    (rxDescStatus m p).physt = true → phyStatusAt cfg p + phyStatusSize ≤ tail

/-- The places that the runs `es` come to from `p`, each with its run: over a packet to the next
unless it is of abnormal length, and into the next run where no `recv_frame` is left. -/
inductive Visits (cfg : RxCfg) (m : Mem) (tail : Nat) : List PassEnv → Nat → PassEnv → Nat → Prop
  | here {e : PassEnv} {es : List PassEnv} {p : Nat} (hp : p < tail) (hf : e.frame p = true) :
    Visits cfg m tail (e :: es) p e p
  | next {e e' : PassEnv} {es : List PassEnv} {p q : Nat} (hp : p < tail) (hf : e.frame p = true)
    (hpkt : isPacket cfg m tail p = true) (hgo : abnormalAt cfg m tail p = false)
    (hv : Visits cfg m tail (e :: es) (nextPacket m p) e' q) : Visits cfg m tail (e :: es) p e' q
  | resume {e e' : PassEnv} {es : List PassEnv} {p q : Nat} (hp : p < tail)
    (hf : e.frame p = false) (hv : Visits cfg m tail es p e' q) : Visits cfg m tail (e :: es) p e' q

/-! ## 5. One packet -/

section Packet

variable {cfg : RxCfg} {e : PassEnv} {m : Mem} {tail p : Nat}

theorem drvinfoSz_le (m : Mem) (p : Nat) : (rxDescStatus m p).drvinfoSz ≤ 120 := by
  unfold rxDescStatus
  dsimp only
  split
  · exact Nat.zero_le 120
  · dsimp only
    omega

theorem pktLen_lt (m : Mem) (p : Nat) : (rxDescStatus m p).pktLen < 2 ^ 14 := by
  have hlen : (rxDescStatus m p).pktLen = le16 m p % 2 ^ 14 := by
    unfold rxDescStatus
    dsimp only
    split <;> rfl
  rw [hlen]
  exact Nat.mod_lt _ (by decide)

/-- The size of the report never wraps. -/
theorem rxReportSz_eq (m : Mem) (p : Nat) :
    (rxdescSize + (rxDescStatus m p).drvinfoSz) % 2 ^ 8
      = rxdescSize + (rxDescStatus m p).drvinfoSz := by
  have hle := drvinfoSz_le m p
  have h24 : rxdescSize = 24 := rfl
  exact Nat.mod_eq_of_lt (by omega)

/-- What the body of the loop does at a place: nothing where there is no packet. -/
theorem parsePacket_none (h : isPacket cfg m tail p = false) :
    parsePacket cfg e m tail p = ⟨none, descReads (rxDescStatus m p) p, [], none⟩ := by
  unfold parsePacket
  dsimp only
  rw [rxReportSz_eq]
  split
  · rfl
  · rename_i htrust
    rw [if_pos]
    unfold isPacket at h
    dsimp only at h
    rw [Bool.eq_false_iff.mpr htrust] at h
    have hfits := of_decide_eq_false h
    unfold RxReport.size at hfits
    omega

/-- A packet with an error is skipped. -/
theorem parsePacket_skipped (h : isPacket cfg m tail p = true)
    (herr : passedUp cfg m tail p = false) :
    parsePacket cfg e m tail p
      = ⟨some .skipped, descReads (rxDescStatus m p) p, [], some (nextPacket m p)⟩ := by
  have htrust : cfg.distrusts (rxDescStatus m p) = false := by
    have hand := (Bool.and_eq_true _ _ ▸ h).1
    simpa using hand
  have hfits := add_size_le h
  unfold RxReport.size at hfits
  unfold passedUp at herr
  rw [h, Bool.true_and] at herr
  unfold parsePacket
  dsimp only
  rw [rxReportSz_eq, htrust, if_neg Bool.false_ne_true, if_neg (by omega), if_pos]
  · rfl
  · cases hc : (rxDescStatus m p).crcErr with
    | true => rfl
    | false => simpa [hc] using herr

/-- A packet with no error is passed up, if there is a copy or a clone for it. -/
theorem parsePacket_passedUp (h : passedUp cfg m tail p = true) :
    parsePacket cfg e m tail p =
      (let d := rxDescStatus m p
      let len := lenWithoutFcs cfg d
      let fcsFrom := if !d.c2h && cfg.appFcs then [d.pktLen] else []
      if e.skb d p then
        let desc := descReads d p ++
          if e.alloc p then [(p + (rxdescSize + d.drvinfoSz) + d.shiftSz, len)] else []
        if d.c2h then ⟨some (.c2h len), desc, fcsFrom, some (nextPacket m p)⟩
        else if abnormalLen len then ⟨some .abnormal, desc, fcsFrom, none⟩
        else
          let status := if d.physt then some (phyStatusAt cfg p) else none
          ⟨some (.received len status), desc ++ status.toList.map (·, phyStatusSize), fcsFrom,
            some (nextPacket m p)⟩
      else ⟨none, descReads d p, fcsFrom, none⟩) := by
  unfold passedUp at h
  obtain ⟨⟨hpkt, hcrc⟩, hicv⟩ : (isPacket cfg m tail p = true ∧
      (rxDescStatus m p).crcErr = false) ∧ (rxDescStatus m p).icvErr = false := by
    simpa using h
  have htrust : cfg.distrusts (rxDescStatus m p) = false := by
    have hand := (Bool.and_eq_true _ _ ▸ hpkt).1
    simpa using hand
  have hfits := add_size_le hpkt
  unfold RxReport.size at hfits
  unfold parsePacket
  dsimp only
  rw [rxReportSz_eq, htrust, if_neg Bool.false_ne_true, if_neg (by omega), hcrc, hicv,
    Bool.false_or, if_neg Bool.false_ne_true]
  rfl

/-- What was done and read at one place is as it should be. -/
structure PacketResult.Sound (tail : Nat) (pkt : PacketResult) : Prop where
  reads : ∀ x ∈ pkt.reads, x.1 + x.2 ≤ tail
  fcs : ∀ n ∈ pkt.fcsFrom, 4 ≤ n

theorem passedUp_isPacket (h : passedUp cfg m tail p = true) : isPacket cfg m tail p = true := by
  unfold passedUp at h
  rw [Bool.and_eq_true, Bool.and_eq_true] at h
  exact h.1.1

theorem abnormalAt_passedUp (h : abnormalAt cfg m tail p = true) :
    passedUp cfg m tail p = true := by
  unfold abnormalAt at h
  rw [Bool.and_eq_true, Bool.and_eq_true] at h
  exact h.1.1

/-- The copy of a packet lies in the buffer, if the FCS fits into the packet. -/
theorem copy_le (h : isPacket cfg m tail p = true)
    (hfcs : (rxDescStatus m p).c2h = false → cfg.appFcs = true →
      4 ≤ (rxDescStatus m p).pktLen) :
    p + (rxdescSize + (rxDescStatus m p).drvinfoSz) + (rxDescStatus m p).shiftSz
      + lenWithoutFcs cfg (rxDescStatus m p) ≤ tail := by
  have hfits := add_size_le h
  have hlen : lenWithoutFcs cfg (rxDescStatus m p) ≤ (rxDescStatus m p).pktLen := by
    have hlt := pktLen_lt m p
    unfold lenWithoutFcs
    split
    · rename_i hboth
      rw [Bool.and_eq_true] at hboth
      have h4 := hfcs (by simpa using hboth.1) hboth.2
      omega
    · exact Nat.le_refl _
  unfold RxReport.size at hfits
  omega

/-- The walk goes on at the next packet, over a packet that was handled. -/
def GoesOn (m : Mem) (p : Nat) (pkt : PacketResult) : Prop :=
  pkt.next = some (nextPacket m p) ∧ ∃ h, pkt.handled = some h

theorem packets_cons (h : isPacket cfg m tail p = true) :
    packets cfg m tail p = p :: packets cfg m tail (nextPacket m p) := by
  rw [packets, if_pos h]

theorem packets_nil (h : isPacket cfg m tail p = false) : packets cfg m tail p = [] := by
  rw [packets, if_neg (Bool.eq_false_iff.mp h)]

theorem abnormalAt_eq (h : passedUp cfg m tail p = true)
    (hc2h : (rxDescStatus m p).c2h = false) :
    abnormalAt cfg m tail p = abnormalLen (lenWithoutFcs cfg (rxDescStatus m p)) := by
  unfold abnormalAt
  rw [h, hc2h]
  exact Bool.true_and _

/-- A C2H packet has no PHY status. -/
theorem physt_c2h (h : (rxDescStatus m p).c2h = true) : (rxDescStatus m p).physt = false := by
  unfold rxDescStatus at h ⊢
  dsimp only at h ⊢
  split
  · rfl
  · rename_i hsel
    rw [if_neg hsel] at h
    exact absurd h Bool.false_ne_true

/-- What is read of a packet that is passed up: the descriptor and, of one with a copy, the packet.
-/
theorem reads_copy (h : isPacket cfg m tail p = true)
    (hfcs : (rxDescStatus m p).c2h = false → cfg.appFcs = true →
      4 ≤ (rxDescStatus m p).pktLen)
    (hdesc : ∀ x ∈ descReads (rxDescStatus m p) p, x.1 + x.2 ≤ tail) :
    ∀ x ∈ descReads (rxDescStatus m p) p ++ (if e.alloc p then
      [(p + (rxdescSize + (rxDescStatus m p).drvinfoSz) + (rxDescStatus m p).shiftSz,
        lenWithoutFcs cfg (rxDescStatus m p))] else []), x.1 + x.2 ≤ tail := by
  intro x hx
  rcases List.mem_append.mp hx with hx | hx
  · exact hdesc x hx
  · split at hx
    · rw [List.mem_singleton.mp hx]
      exact copy_le h hfcs
    · exact absurd hx List.not_mem_nil

/-- The lengths that four is taken from, of a packet of normal kind. -/
theorem fcs_iff (hc2h : (rxDescStatus m p).c2h = false) :
    (∀ n ∈ (if !(rxDescStatus m p).c2h && cfg.appFcs then [(rxDescStatus m p).pktLen]
      else []), 4 ≤ n) ↔ (cfg.appFcs = true → 4 ≤ (rxDescStatus m p).pktLen) := by
  rw [hc2h]
  cases cfg.appFcs <;> simp

/-- The driver goes on at the next packet, and all is as it should be exactly if the place is clean.
-/
def GoesOnAt (cfg : RxCfg) (e : PassEnv) (m : Mem) (tail p : Nat) : Prop :=
  isPacket cfg m tail p = true ∧ abnormalAt cfg m tail p = false ∧
  (parsePacket cfg e m tail p).next = some (nextPacket m p) ∧
  (∃ h, (parsePacket cfg e m tail p).handled = some h) ∧
  ((parsePacket cfg e m tail p).Sound tail ↔ Clean cfg m tail e p)

/-- The driver stops; it has handled all packets and all is as it should be exactly if the place is
clean, and then there is no packet or one of abnormal length. -/
def StopsAt (cfg : RxCfg) (e : PassEnv) (m : Mem) (tail p : Nat) : Prop :=
  (parsePacket cfg e m tail p).next = none ∧
  ((parsePacket cfg e m tail p).handled.toList.map (fun _ => p) = packets cfg m tail p ∧
    (parsePacket cfg e m tail p).Sound tail ↔ Clean cfg m tail e p) ∧
  (Clean cfg m tail e p → isPacket cfg m tail p = false ∨ abnormalAt cfg m tail p = true)

/-- **One place**: the driver goes on or stops there. -/
theorem parsePacket_cases (cfg : RxCfg) (e : PassEnv) (m : Mem) (tail p : Nat) :
    GoesOnAt cfg e m tail p ∨ StopsAt cfg e m tail p := by
  cases hpkt : isPacket cfg m tail p with
  | false =>
    have hup : passedUp cfg m tail p = true → False := fun h =>
      absurd (passedUp_isPacket h) (by rw [hpkt]; exact Bool.false_ne_true)
    refine .inr ?_
    unfold StopsAt
    rw [parsePacket_none hpkt]
    refine ⟨rfl, ⟨fun h => ?_, fun h => ⟨(packets_nil hpkt).symm, h.desc, nofun⟩⟩,
      fun _ => .inl hpkt⟩
    exact ⟨h.2.reads, fun hu => (hup hu).elim, fun hu => (hup hu).elim,
      fun ha => (hup (abnormalAt_passedUp ha)).elim, fun hu => (hup hu).elim⟩
  | true =>
    cases hup : passedUp cfg m tail p with
    | false =>
      have hnot : ∀ {P : Prop}, passedUp cfg m tail p = true → P := fun h =>
        absurd (hup.symm.trans h) Bool.false_ne_true
      refine .inl ?_
      unfold GoesOnAt
      rw [parsePacket_skipped hpkt hup]
      refine ⟨hpkt, Bool.eq_false_iff.mpr fun ha => hnot (abnormalAt_passedUp ha), rfl, ⟨_, rfl⟩,
        fun h => ⟨h.reads, hnot, hnot, fun ha => hnot (abnormalAt_passedUp ha), hnot⟩,
        fun h => ⟨h.desc, nofun⟩⟩
    | true =>
      cases hskb : e.skb (rxDescStatus m p) p with
      | false =>
        refine .inr ?_
        have hno : ¬ Clean cfg m tail e p := fun h =>
          absurd (h.skb hup) (by rw [hskb]; exact Bool.false_ne_true)
        unfold StopsAt
        rw [parsePacket_passedUp hup]
        dsimp only
        rw [if_neg (Bool.eq_false_iff.mp hskb), packets_cons hpkt]
        exact ⟨rfl, ⟨fun h => absurd h.1 (List.cons_ne_nil _ _).symm, fun h => absurd h hno⟩,
          fun h => absurd h hno⟩
      | true =>
        cases hc2h : (rxDescStatus m p).c2h with
        | true =>
          have habn : abnormalAt cfg m tail p = false := by
            unfold abnormalAt
            rw [hc2h, Bool.not_true, Bool.and_false, Bool.false_and]
          have hfcs : ∀ {P : Prop}, (rxDescStatus m p).c2h = false → P := fun h =>
            absurd (hc2h.symm.trans h).symm Bool.false_ne_true
          refine .inl ?_
          unfold GoesOnAt
          rw [parsePacket_passedUp hup]
          dsimp only
          rw [if_pos hskb, if_pos hc2h]
          refine ⟨hpkt, habn, rfl, ⟨_, rfl⟩, fun h => ?_, fun h => ?_⟩
          · refine ⟨fun x hx => h.reads x (List.mem_append_left _ hx), fun _ => hskb, fun _ => hfcs,
              fun ha => absurd (habn.symm.trans ha) Bool.false_ne_true, fun _ _ hst => ?_⟩
            exact absurd ((physt_c2h hc2h).symm.trans hst) Bool.false_ne_true
          · refine ⟨reads_copy hpkt hfcs h.desc, ?_⟩
            change ∀ n ∈ (if !(rxDescStatus m p).c2h && cfg.appFcs then _ else []), 4 ≤ n
            rw [hc2h, Bool.not_true, Bool.false_and, if_neg Bool.false_ne_true]
            exact nofun
        | false =>
          have hcond := @fcs_iff cfg m p hc2h
          cases habn : abnormalLen (lenWithoutFcs cfg (rxDescStatus m p)) with
          | true =>
            have hat : abnormalAt cfg m tail p = true := (abnormalAt_eq hup hc2h).trans habn
            refine .inr ?_
            unfold StopsAt
            rw [parsePacket_passedUp hup]
            dsimp only
            rw [if_pos hskb, if_neg (Bool.eq_false_iff.mp hc2h), if_pos habn, packets_cons hpkt]
            refine ⟨rfl, ⟨fun h => ?_, fun h => ?_⟩, fun _ => .inr hat⟩
            · exact ⟨fun x hx => h.2.reads x (List.mem_append_left _ hx), fun _ => hskb,
                fun _ _ => hcond.mp h.2.fcs, fun _ => (List.cons.inj h.1).2.symm,
                fun _ hno => absurd (hno.symm.trans hat) Bool.false_ne_true⟩
            · refine ⟨?_, reads_copy hpkt (fun _ => h.fcs hup hc2h) h.desc,
                hcond.mpr (h.fcs hup hc2h)⟩
              rw [h.last hat]
              rfl
          | false =>
            have hat : abnormalAt cfg m tail p = false := (abnormalAt_eq hup hc2h).trans habn
            refine .inl ?_
            unfold GoesOnAt
            rw [parsePacket_passedUp hup]
            dsimp only
            rw [if_pos hskb, if_neg (Bool.eq_false_iff.mp hc2h), if_neg (Bool.eq_false_iff.mp habn)]
            refine ⟨hpkt, hat, rfl, ⟨_, rfl⟩, fun h => ?_, fun h => ?_⟩
            · refine ⟨fun x hx => h.reads x (List.mem_append_left _ (List.mem_append_left _ hx)),
                fun _ => hskb, fun _ _ => hcond.mp h.fcs,
                fun ha => absurd (hat.symm.trans ha) Bool.false_ne_true, fun _ _ hst => ?_⟩
              refine h.reads (phyStatusAt cfg p, phyStatusSize) (List.mem_append_right _ ?_)
              rw [hst]
              exact List.mem_singleton.mpr rfl
            · refine ⟨fun x hx => ?_, hcond.mpr (h.fcs hup hc2h)⟩
              rcases List.mem_append.mp hx with hx | hx
              · exact reads_copy hpkt (fun _ => h.fcs hup hc2h) h.desc x hx
              · cases hst : (rxDescStatus m p).physt with
                | false =>
                  rw [hst] at hx
                  exact absurd hx List.not_mem_nil
                | true =>
                  rw [hst] at hx
                  rw [List.mem_singleton.mp hx]
                  exact h.status hup hat hst

end Packet

/-! ## 6. A run, and run after run -/

section Runs

variable {cfg : RxCfg} {e : PassEnv} {es : List PassEnv} {m : Mem} {tail p : Nat}

/-- What the runs `es` add to a run: nothing where the buffer is given to the free queue. -/
def PassResult.andThen (cfg : RxCfg) (m : Mem) (tail : Nat) (es : List PassEnv) (r : PassResult) :
    Option BufferResult :=
  if r.requeued then
    (recvBuffer cfg m tail es r.pdata).map fun b =>
      ⟨r.handled ++ b.handled, r.reads ++ b.reads, r.fcsFrom ++ b.fcsFrom, b.left⟩
  else some ⟨r.handled, r.reads, r.fcsFrom, []⟩

theorem recvBuffer_cons (cfg : RxCfg) (e : PassEnv) (es : List PassEnv) (m : Mem) (tail p : Nat) :
    recvBuffer cfg m tail (e :: es) p
      = (parseLoop cfg e m tail (tail - p + 1) p).bind (·.andThen cfg m tail es) := by
  rw [recvBuffer]
  cases parseLoop cfg e m tail (tail - p + 1) p <;> rfl

/-- A packet in front of what the runs do. -/
def BufferResult.behind (b : BufferResult) (ptr : Nat) (pkt : PacketResult) : BufferResult :=
  { b with
    handled := pkt.handled.toList.map (ptr, ·) ++ b.handled
    reads := pkt.reads ++ b.reads
    fcsFrom := pkt.fcsFrom ++ b.fcsFrom }

theorem andThen_behind (r : PassResult) (ptr : Nat) (pkt : PacketResult) :
    (r.behind ptr pkt).andThen cfg m tail es
      = (r.andThen cfg m tail es).map (·.behind ptr pkt) := by
  unfold PassResult.andThen
  change (if r.requeued then _ else _) = _
  split
  · rw [Option.map_map]
    congr 1
    funext b
    unfold PassResult.behind BufferResult.behind
    simp only [Function.comp_apply, List.append_assoc]
  · rfl

/-- A packet that is handled is the first of those handled. -/
theorem behind_faithful {b : BufferResult} {pkt : PacketResult}
    (hpkt : isPacket cfg m tail p = true)
    {h : Handling} (hh : pkt.handled = some h) :
    (b.behind p pkt).Faithful cfg m tail p ↔
      pkt.Sound tail ∧ b.Faithful cfg m tail (nextPacket m p) := by
  have hlist : (b.behind p pkt).handled.map Prod.fst ++ (b.behind p pkt).left
      = p :: (b.handled.map Prod.fst ++ b.left) := by
    unfold BufferResult.behind
    rw [hh]
    rfl
  constructor
  · rintro ⟨hhandled, hreads, hfcs⟩
    rw [hlist, packets_cons hpkt] at hhandled
    exact ⟨⟨fun x hx => hreads x (List.mem_append_left _ hx),
        fun n hn => hfcs n (List.mem_append_left _ hn)⟩,
      (List.cons.inj hhandled).2, fun x hx => hreads x (List.mem_append_right _ hx),
      fun n hn => hfcs n (List.mem_append_right _ hn)⟩
  · rintro ⟨⟨hreads, hfcs⟩, hhandled, hreads', hfcs'⟩
    refine ⟨?_, fun x hx => ?_, fun n hn => ?_⟩
    · rw [hlist, packets_cons hpkt, hhandled]
    · exact (List.mem_append.mp hx).elim (hreads x) (hreads' x)
    · exact (List.mem_append.mp hn).elim (hfcs n) (hfcs' n)

/-- No packet starts at the end of the buffer. -/
theorem isPacket_end (h : ¬ p < tail) : isPacket cfg m tail p = false := by
  rw [Bool.eq_false_iff]
  intro hpkt
  have hfits := add_size_le hpkt
  have hpos := size_pos (rxDescStatus m p)
  have h24 : rxdescSize = 24 := rfl
  omega

/-- All places that the runs come to are clean. -/
def AllClean (cfg : RxCfg) (m : Mem) (tail : Nat) (es : List PassEnv) (p : Nat) : Prop :=
  ∀ e q, Visits cfg m tail es p e q → Clean cfg m tail e q

/-- **One run**, by induction on the bytes in front of it; `hrest` is what the runs behind do from
where it stops. -/
theorem parseLoop_faithful (hrest : ∀ q, ∃ b, recvBuffer cfg m tail es q = some b ∧
      (b.Faithful cfg m tail q ↔ AllClean cfg m tail es q)) :
    ∀ (n p : Nat), tail - p < n →
      ∃ b, (parseLoop cfg e m tail n p).bind (·.andThen cfg m tail es) = some b ∧
        (b.Faithful cfg m tail p ↔ AllClean cfg m tail (e :: es) p) := by
  intro n
  induction n with
  | zero => intro p hn; omega
  | succ n ih =>
    intro p hn
    rw [parseLoop]
    by_cases hp : p < tail
    · rw [if_pos hp]
      cases hf : e.frame p with
      | false =>
        rw [if_neg Bool.false_ne_true]
        obtain ⟨b, hb, hiff⟩ := hrest p
        refine ⟨b, ?_, hiff.trans ⟨fun h e' q hv => ?_, fun h e' q hv => h e' q (.resume hp hf hv)⟩⟩
        · change (recvBuffer cfg m tail es p).map _ = _
          rw [hb]
          rfl
        · cases hv with
          | here _ hf' => exact absurd (hf.symm.trans hf') Bool.false_ne_true
          | next _ hf' => exact absurd (hf.symm.trans hf') Bool.false_ne_true
          | resume _ _ hv => exact h e' q hv
      | true =>
        rw [if_pos rfl]
        rcases parsePacket_cases cfg e m tail p with
          ⟨hpkt, habn, hnext, ⟨h, hh⟩, hsound⟩ | ⟨hnext, hiff, hlast⟩
        · obtain ⟨b, hb, hb_iff⟩ := ih (nextPacket m p) (by
            have hlt := nextPacket_lt hpkt
            omega)
          refine ⟨b.behind p (parsePacket cfg e m tail p), ?_, ?_⟩
          · dsimp only
            rw [hnext]
            dsimp only
            cases hr : parseLoop cfg e m tail n (nextPacket m p) with
            | none =>
              rw [hr] at hb
              exact absurd hb (by simp)
            | some r =>
              rw [hr] at hb
              change (r.behind p _).andThen cfg m tail es = _
              rw [andThen_behind]
              exact congrArg (Option.map _) hb
          · rw [behind_faithful hpkt hh, hsound, hb_iff]
            constructor
            · rintro ⟨hclean, hall⟩ e' q hv
              cases hv with
              | here => exact hclean
              | next _ _ _ _ hv => exact hall e' q hv
              | resume _ hf' => exact absurd (hf'.symm.trans hf) Bool.false_ne_true
            · intro hall
              exact ⟨hall e p (.here hp hf), fun e' q hv => hall e' q (.next hp hf hpkt habn hv)⟩
        · refine ⟨_, by dsimp only; rw [hnext]; rfl, ?_⟩
          have hfaith : BufferResult.Faithful cfg m tail p
              ⟨(parsePacket cfg e m tail p).handled.toList.map (p, ·) ++ [],
                (parsePacket cfg e m tail p).reads ++ [],
                (parsePacket cfg e m tail p).fcsFrom ++ [], []⟩ ↔
              ((parsePacket cfg e m tail p).handled.toList.map (fun _ => p) = packets cfg m tail p ∧
                (parsePacket cfg e m tail p).Sound tail) := by
            have hplaces : (((parsePacket cfg e m tail p).handled.toList.map (p, ·) ++ []).map
                Prod.fst ++ []) = (parsePacket cfg e m tail p).handled.toList.map fun _ => p := by
              rw [List.append_nil, List.append_nil, List.map_map]
              rfl
            refine ⟨fun h => ⟨hplaces.symm.trans h.handled, fun x hx => ?_, fun k hk => ?_⟩,
              fun h => ⟨hplaces.trans h.1, fun x hx => ?_, fun k hk => ?_⟩⟩
            · exact h.reads x (List.mem_append_left _ hx)
            · exact h.fcs k (List.mem_append_left _ hk)
            · exact h.2.reads x ((List.mem_append.mp hx).resolve_right List.not_mem_nil)
            · exact h.2.fcs k ((List.mem_append.mp hk).resolve_right List.not_mem_nil)
          refine hfaith.trans (hiff.trans ⟨fun h e' q hv => ?_, fun h => h e p (.here hp hf)⟩)
          cases hv with
          | here => exact h
          | next _ _ hpkt hgo _ =>
            rcases hlast h with hno | habn
            · exact absurd (hno.symm.trans hpkt) Bool.false_ne_true
            · exact absurd (hgo.symm.trans habn) Bool.false_ne_true
          | resume _ hf' => exact absurd (hf'.symm.trans hf) Bool.false_ne_true
    · rw [if_neg hp]
      refine ⟨⟨[], [], [], []⟩, rfl, ⟨fun _ e' q hv => ?_, fun _ => ⟨?_, nofun, nofun⟩⟩⟩
      · cases hv with
        | here hp' => exact absurd hp' hp
        | next hp' => exact absurd hp' hp
        | resume hp' => exact absurd hp' hp
      · rw [packets_nil (isPacket_end hp)]
        rfl

end Runs

/-- **The tasklet is faithful to a buffer** exactly if all places it comes to are clean; it comes
back from every run, whatever is in the buffer. -/
theorem recv_buffer_faithful_iff (cfg : RxCfg) (m : Mem) (tail : Nat) (es : List PassEnv)
    (p : Nat) :
    ∃ b, recvBuffer cfg m tail es p = some b ∧
      (b.Faithful cfg m tail p ↔ AllClean cfg m tail es p) := by
  induction es generalizing p with
  | nil => exact ⟨_, rfl, fun _ _ _ => nofun, fun _ => ⟨rfl, nofun, nofun⟩⟩
  | cons e es ih =>
    rw [recvBuffer_cons]
    exact parseLoop_faithful ih _ p (Nat.lt_succ_self _)

/-- Two packets of 14 bytes. -/
def pairOfPackets : Mem := fun i => if i = 0 ∨ i = 40 then 14 else 0

/-- The copy of the first packet cannot be allocated. -/
def noFirstCopy : PassEnv := ⟨fun _ => true, fun p => p ≠ 0, fun _ => false⟩

/-- Both packets are lost when the copy of the first cannot be allocated. -/
theorem recv_buffer_dropped :
    ¬ ∀ cfg m tail es p, ∃ b, recvBuffer cfg m tail es p = some b ∧ b.Faithful cfg m tail p := by
  intro hall
  obtain ⟨b, hb, hfaith⟩ := hall ⟨false, false, false⟩ pairOfPackets 80 [noFirstCopy] 0
  have hnone : (recvBuffer ⟨false, false, false⟩ pairOfPackets 80 [noFirstCopy] 0).map
      (fun b => (b.handled.map Prod.fst, b.left)) = some ([], []) := by decide +kernel
  rw [hb] at hnone
  obtain ⟨hhandled, hleft⟩ := Prod.mk.inj (Option.some.inj hnone)
  have hpackets := hfaith.handled
  rw [hhandled, hleft, packets_cons (by decide +kernel)] at hpackets
  exact absurd hpackets (List.cons_ne_nil _ _).symm

end Rtl8723bs
