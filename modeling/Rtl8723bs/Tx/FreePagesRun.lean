/-
# Is there always room for a buffer that is written?

The copies of the host only go down between two readings, by what the buffers are counted for.
The device gives a buffer no more than that, so the copies stay below what the device has, and a
buffer for which the copies are enough has its pages (`free_pages_conserved`).  What breaks this
are beacons: each makes the copies too high, by what it takes, until they are read again
(`beacon_overcommits`).

`pg_num` is the sum of what the frames of a buffer need.  It is never less than the bytes of the
buffer need, and does not overflow its byte (`Pending.counted`).
-/
import Rtl8723bs.Tx.FreePages

namespace Rtl8723bs

namespace FreePages

open Credits

/-! ## 1. What is counted for a buffer -/

/-- `pg_num` counts the pages of every frame, which are enough for all bytes. -/
structure XmitBuf.Counted (b : XmitBuf) : Prop where
  frames : b.pgNum.toNat = (b.frames.map pagesOf).sum
  enough : pagesOf b.len ≤ b.pgNum.toNat

/-- What holds of a buffer that is filled: a page is counted for 64 bytes or more. -/
structure AggCounted (b : AggBuf) : Prop where
  frames : b.pgNum = (b.packets.map fun p => pagesOf p.txlen).sum
  enough : pagesOf b.len ≤ b.pgNum
  few : 64 * b.pgNum ≤ rnd8 b.len
  byte : b.pgNum ≤ 255

section Fill

variable {c : SwCrypto} {f : AggFrame} {b : AggBuf}

theorem aggCounted_fresh (m : Mem) (phead : Nat) : AggCounted (AggBuf.fresh m phead) :=
  ⟨rfl, (by decide : pagesOf 0 ≤ 0), Nat.zero_le _, Nat.zero_le _⟩

/-- **One more frame**, for which there is room, or which is the first. -/
theorem AggCounted.aggregate (h : AggCounted b)
    (hroom : rnd8 b.len + f.txlen ≤ 16320 ∨ b.pgNum = 0 ∧ f.txlen ≤ maxXmitbufSz) :
    AggCounted (b.aggregate c f) := by
  unfold AggBuf.aggregate
  cases hr : f.coalesce c b.ptail b.mem with
  | none => exact ⟨h.frames, h.enough, h.few, h.byte⟩
  | some r =>
    obtain ⟨hlow, hhigh⟩ := coalesce_size_le f.built hr
    have hlow : 64 ≤ txdescOffset + r.attrib.lastTxcmdsz := Nat.add_le_add_left hlow 40
    have hhigh : txdescOffset + r.attrib.lastTxcmdsz ≤ f.txlen := Nat.add_le_add_left hhigh _
    dsimp only
    generalize txdescOffset + r.attrib.lastTxcmdsz = txlen at *
    have henough := h.enough
    have hfew := h.few
    have hrnd : 64 * ((txlen + 127) / 128) ≤ rnd8 txlen := by
      unfold rnd8
      omega
    have hfew' : 64 * (b.pgNum + (txlen + 127) / 128) ≤ rnd8 (rnd8 b.len + txlen) := by
      rw [rnd8_add]
      omega
    refine ⟨?_, ?_, hfew', ?_⟩
    · dsimp only
      rw [List.map_append, List.sum_append, ← h.frames]
      rfl
    · unfold pagesOf at henough ⊢
      dsimp only
      unfold rnd8
      omega
    · dsimp only
      rcases hroom with hroom | ⟨hzero, hfirst⟩
      · have hlen : rnd8 (rnd8 b.len + txlen) ≤ 16320 := by
          unfold rnd8 at hroom ⊢
          omega
        omega
      · unfold maxXmitbufSz at hfirst
        omega

theorem AggCounted.fill (isAp : Bool) {maxXmitLen : Nat} (hmax : maxXmitLen ≤ 16320)
    (oqtFree : Nat) : ∀ (fs : List AggFrame) {b : AggBuf}, AggCounted b →
    AggCounted (b.fill c isAp maxXmitLen oqtFree fs)
  | [], _, h => h
  | f :: fs, b, h => by
    unfold AggBuf.fill
    split
    · rename_i hroom
      have hlen := Nat.le_of_not_lt fun hlt => hroom (.inl hlt)
      exact (h.aggregate (.inl (hlen.trans hmax))).fill isAp hmax oqtFree fs
    · exact h

end Fill

/-- The queues share 247 pages, half of which are 15744 bytes or less. -/
theorem sdioTxMaxLen_le (u : Setup) (i : PageIdx) : u.sdioTxMaxLen i ≤ 16320 := by
  have hsum : u.num i + u.numPubQ ≤ 247 := by
    have hhi : u.num .hi ≤ 0x30 := by unfold Setup.num; grind -ring -linarith
    have hmid : u.num .mid ≤ 0x20 := by unfold Setup.num; grind -ring -linarith
    have hlow : u.num .low ≤ 0x20 := by unfold Setup.num; grind -ring -linarith
    unfold Setup.numPubQ
    cases i <;> omega
  unfold Setup.sdioTxMaxLen maxXmitbufSz
  rw [Nat.shiftRight_eq_div_pow]
  dsimp only
  split <;> omega

/-- **Every buffer that waits is counted right.** -/
theorem Pending.counted {u : Setup} {b : XmitBuf} (h : Pending u b) : b.Counted := by
  cases h with
  | xmitframes pageIdx queue c isAp m phead f fs b hb hlen hfits =>
    have hfirst := (aggCounted_fresh m phead).aggregate (c := c) (.inr ⟨rfl, hfits⟩)
    have hall := hfirst.fill (c := c) isAp (sdioTxMaxLen_le u queue) u.maxTxoqtFreeSpace.toNat fs
    rw [show AggBuf.fill c isAp _ _ _ _ = b from hb.symm] at hall
    have hbyte : (UInt8.ofNat b.pgNum).toNat = b.pgNum :=
      UInt8.toNat_ofNat_of_lt' (Nat.lt_succ_of_le hall.byte)
    constructor
    · change (UInt8.ofNat b.pgNum).toNat = ((b.packets.map fun p => p.txlen).map pagesOf).sum
      rw [hbyte, hall.frames, List.map_map]
      rfl
    · change pagesOf b.len ≤ (UInt8.ofNat b.pgNum).toNat
      rw [hbyte]
      exact hall.enough
  | mgnt pageIdx lastTxcmdsz hfits =>
    have hbyte : (UInt8.ofNat (pagesOf (txdescOffset + lastTxcmdsz))).toNat
        = pagesOf (txdescOffset + lastTxcmdsz) := by
      refine UInt8.toNat_ofNat_of_lt' ?_
      unfold maxXmitbufSz at hfits
      unfold pagesOf
      change _ < 256
      omega
    exact ⟨hbyte, Nat.le_of_eq hbyte.symm⟩

/-! ## 2. The counters as a stock -/

/-- The pages that the host believes in. -/
def Counters.stock (c : Counters) : Stock PageIdx where
  own := fun i => (c.freePage i).toNat
  shared := c.publicPage.toNat

section Stock

variable {c : Counters} {i : PageIdx} {n : UInt8}

theorem queryTxFreepage_iff :
    rtwHalSdioQueryTxFreepage c i n = true ↔ n.toNat ≤ c.stock.free i := decide_eq_true_iff

/-- Counters that differ in one queue and the public pages. -/
theorem stock_eq_take {v pub : UInt8} {k : Nat} (hown : v.toNat = (c.freePage i).toNat - k)
    (hpub : pub.toNat = c.publicPage.toNat - (k - (c.freePage i).toNat)) :
    ({ c with freePage := Function.update c.freePage i v, publicPage := pub } : Counters).stock
      = c.stock.take i k := by
  refine Stock.ext (funext fun j => ?_) hpub
  change (Function.update c.freePage i v j).toNat = (c.stock.take i k).own j
  by_cases hj : j = i
  · rw [hj, Function.update_self, take_own_self]
    exact hown
  · rw [Function.update_of_ne hj, take_own_ne k hj]
    rfl

/-- **What is taken off is what the device takes**, if there is enough. -/
theorem stock_updateTxFreepage (h : n.toNat ≤ c.stock.free i) :
    (rtwHalSdioUpdateTxFreepage c i n).stock = c.stock.take i n.toNat := by
  change n.toNat ≤ (c.freePage i).toNat + c.publicPage.toNat at h
  unfold rtwHalSdioUpdateTxFreepage
  dsimp only
  split
  · rename_i hle
    have hnat : n.toNat ≤ (c.freePage i).toNat := hle
    exact stock_eq_take (UInt8.toNat_sub_of_le _ _ hle) (by omega)
  · rename_i hgt
    have hle : c.freePage i ≤ n := UInt8.le_of_lt (UInt8.not_le.mp hgt)
    have hnat : (c.freePage i).toNat ≤ n.toNat := hle
    have hneed : (n - c.freePage i).toNat = n.toNat - (c.freePage i).toNat :=
      UInt8.toNat_sub_of_le _ _ hle
    refine stock_eq_take (Nat.sub_eq_zero_of_le hnat).symm ?_
    rw [UInt8.toNat_sub_of_le _ _ (UInt8.le_iff_toNat_le.mpr (by omega)), hneed]

/-- The subtraction does not go below zero. -/
theorem freepageCharge_le (h : n.toNat ≤ c.stock.free i) :
    (freepageCharge c i n).amount ≤ (freepageCharge c i n).before := by
  change n.toNat ≤ (c.freePage i).toNat + c.publicPage.toNat at h
  unfold freepageCharge
  split
  · assumption
  · rename_i hgt
    have hle : c.freePage i ≤ n := UInt8.le_of_lt (UInt8.not_le.mp hgt)
    dsimp only
    rw [UInt8.le_iff_toNat_le, UInt8.toNat_sub_of_le _ _ hle]
    omega

theorem toNat_ofNat_le (n : Nat) : (UInt8.ofNat n).toNat ≤ n := Nat.mod_le _ _

/-- The bytes of the register are no more than what there is. -/
theorem stock_queryTxBufferStatus (d : TxFifo) (c : Counters) :
    (halQueryTxBufferStatus d c).stock.Le d.pages :=
  ⟨fun _ => toNat_ofNat_le _, toNat_ofNat_le _⟩

end Stock

/-! ## 3. What every step keeps -/

/-- The pages the host believes in, without those of a buffer that is written already. -/
def World.counted (w : World) : Stock PageIdx :=
  match w.pc with
  | .updateFreePage b => w.host.stock.take b.pageIdx b.pgNum.toNat
  | _ => w.host.stock

/-- The entries that are taken off, but not used yet. -/
def WritePc.oqtTaken : WritePc → Nat
  | .writePort b => b.aggNum.toNat
  | _ => 0

/-- The buffer at hand. -/
def WritePc.buf : WritePc → Option XmitBuf
  | .idle => none
  | .queryFreePage b _ | .waitOqt b | .writePort b | .updateFreePage b => some b

/-- The buffer that was found to have its pages. -/
def WritePc.granted : WritePc → Option XmitBuf
  | .idle | .queryFreePage _ _ => none
  | .waitOqt b | .writePort b | .updateFreePage b => some b

/-- What the device had when a buffer was written was enough for it, but for beacons. -/
structure PortWrite.Backed (p : PortWrite) : Prop where
  pages : p.buf.pgNum.toNat ≤ p.fifo.pages.free p.buf.pageIdx + p.direct
  oqt : p.buf.aggNum.toNat ≤ p.fifo.oqt + p.directOqt
  counted : p.buf.Counted

/-- **The accounts are in order**, up to what beacons took. -/
structure World.Conserved (w : World) : Prop where
  own : ∀ i, w.counted.own i ≤ w.fifo.pages.own i + w.direct
  shared : w.counted.shared ≤ w.fifo.pages.shared + w.direct
  oqt : w.host.oqtFreeSpace.toNat ≤ w.fifo.oqt + w.directOqt
  charges : ∀ c ∈ w.charges, c.amount ≤ c.before
  writes : ∀ p ∈ w.writes, p.Backed

/-- What holds between any two steps. -/
structure Inv (w : World) : Prop where
  pages : excess w.counted w.fifo.pages ≤ w.direct
  oqt : w.host.oqtFreeSpace.toNat + w.pc.oqtTaken ≤ w.fifo.oqt + w.directOqt
  granted : ∀ b, w.pc.granted = some b → b.pgNum.toNat ≤ w.host.stock.free b.pageIdx
  buf : ∀ b, w.pc.buf = some b → b.Counted
  charges : ∀ c ∈ w.charges, c.amount ≤ c.before
  writes : ∀ p ∈ w.writes, p.Backed

section Steps

variable {w w' : World} {b : XmitBuf}

theorem inv_start (d : TxFifo) : Inv (World.start d) where
  pages := Nat.le_of_eq (excess_eq_zero_iff.mpr (stock_queryTxBufferStatus d ⟨fun _ => 0, 0, 0⟩))
  oqt := toNat_ofNat_le d.oqt
  granted := fun _ h => nomatch h
  buf := fun _ h => nomatch h
  charges := fun _ h => nomatch h
  writes := fun _ h => nomatch h

/-- Before a buffer has its entries, all that is taken off is used. -/
theorem Inv.settled (h : Inv w)
    (hpc : w.pc = .idle ∨ (∃ n, w.pc = .queryFreePage b n) ∨ w.pc = .waitOqt b) :
    excess w.host.stock w.fifo.pages ≤ w.direct ∧
      w.host.oqtFreeSpace.toNat ≤ w.fifo.oqt + w.directOqt := by
  have hpages := h.pages
  have hoqt := h.oqt
  unfold World.counted at hpages
  rcases hpc with hpc | ⟨_, hpc⟩ | hpc
  all_goals
    rw [hpc] at hpages hoqt
    exact ⟨hpages, hoqt⟩

/-- The buffer at hand is let go. -/
theorem Inv.idle (h : Inv w) (hpages : excess w.host.stock w.fifo.pages ≤ w.direct)
    (hoqt : w.host.oqtFreeSpace.toNat ≤ w.fifo.oqt + w.directOqt) :
    Inv { w with pc := .idle } where
  pages := hpages
  oqt := hoqt
  granted := fun _ h => nomatch h
  buf := fun _ h => nomatch h
  charges := h.charges
  writes := h.writes

theorem Inv.dequeue (h : Inv w) (hpc : w.pc = .idle) (hb : b.Counted) :
    Inv { w with pc := .queryFreePage b 0 } where
  pages := (h.settled (b := b) (.inl hpc)).1
  oqt := (h.settled (b := b) (.inl hpc)).2
  granted := fun _ h => nomatch h
  buf := fun _ h => Option.some.inj h ▸ hb
  charges := h.charges
  writes := h.writes

/-- Pages are asked for, and read again where there are not enough. -/
theorem Inv.queryFreePage (h : Inv w) {pollingNum : Nat} (hpc : w.pc = .queryFreePage b pollingNum)
    (cannotRun : Bool) : Inv (w.queryFreePage b pollingNum cannotRun) := by
  have hb : b.Counted := h.buf b (by rw [hpc]; rfl)
  obtain ⟨hpages, hoqt⟩ := h.settled (.inr (.inl ⟨_, hpc⟩))
  have hidle := h.idle hpages hoqt
  unfold World.queryFreePage
  split
  · split_ifs
    · exact hidle
    · exact hidle
    · exact {
        pages := Nat.le_of_eq (excess_eq_zero_iff.mpr (stock_queryTxBufferStatus w.fifo w.host))
        oqt := hoqt
        granted := fun _ h => nomatch h
        buf := fun _ h => Option.some.inj h ▸ hb
        charges := h.charges
        writes := h.writes }
  · rename_i hquery
    have hfree := queryTxFreepage_iff.mp (Bool.not_eq_false _ ▸ hquery)
    exact {
      pages := hpages
      oqt := hoqt
      granted := fun _ h => Option.some.inj h ▸ hfree
      buf := fun _ h => Option.some.inj h ▸ hb
      charges := h.charges
      writes := h.writes }

/-- Entries are asked for and taken off, or read again. -/
theorem Inv.waitOqt (h : Inv w) (hpc : w.pc = .waitOqt b) (cannotRun : Bool) :
    Inv (w.waitOqt b cannotRun) := by
  have hb : b.Counted := h.buf b (by rw [hpc]; rfl)
  have hfree := h.granted b (by rw [hpc]; rfl)
  obtain ⟨hpages, hoqt⟩ := h.settled (.inr (.inr hpc))
  unfold World.waitOqt
  split
  · split
    · exact h.idle hpages hoqt
    · refine ⟨?_, ?_, ?_, ?_, h.charges, h.writes⟩
      · unfold World.counted
        dsimp only
        rw [hpc]
        exact hpages
      · dsimp only
        rw [hpc]
        exact toNat_ofNat_le w.fifo.oqt
      · intro b' hb'
        rw [hpc] at hb'
        exact Option.some.inj hb' ▸ hfree
      · exact h.buf
  · rename_i henough
    have hle : b.aggNum ≤ w.host.oqtFreeSpace := UInt8.not_lt.mp henough
    exact {
      pages := hpages
      oqt := by
        change (w.host.oqtFreeSpace - b.aggNum).toNat + b.aggNum.toNat ≤ _
        rw [UInt8.toNat_sub_of_le _ _ hle]
        have : b.aggNum.toNat ≤ w.host.oqtFreeSpace.toNat := hle
        dsimp only
        omega
      granted := fun _ h => Option.some.inj h ▸ hfree
      buf := fun _ h => Option.some.inj h ▸ hb
      charges := List.forall_mem_cons.mpr ⟨hle, h.charges⟩
      writes := h.writes }

/-- **The buffer is written**: its pages and entries are there. -/
theorem Inv.writePort (h : Inv w) (hpc : w.pc = .writePort b) {pages entries : Nat}
    (hpages : pages ≤ b.pgNum.toNat) (hentries : entries ≤ b.aggNum.toNat) :
    Inv (w.writePort b pages entries) := by
  have hb : b.Counted := h.buf b (by rw [hpc]; rfl)
  have hfree := h.granted b (by rw [hpc]; rfl)
  have hexcess := h.pages
  have hoqt := h.oqt
  unfold World.counted at hexcess
  rw [hpc] at hexcess hoqt
  dsimp only at hexcess
  change w.host.oqtFreeSpace.toNat + b.aggNum.toNat ≤ _ at hoqt
  have hthere := @free_le_add_excess _ _ w.host.stock w.fifo.pages b.pageIdx
  exact {
    pages := (excess_take_take hfree hpages).trans hexcess
    oqt := by
      change w.host.oqtFreeSpace.toNat + 0 ≤ w.fifo.oqt - entries + w.directOqt
      omega
    granted := fun _ h => Option.some.inj h ▸ hfree
    buf := fun _ h => Option.some.inj h ▸ hb
    charges := h.charges
    writes := List.forall_mem_cons.mpr ⟨⟨by dsimp only; omega, by dsimp only; omega, hb⟩,
      h.writes⟩ }

/-- The pages are taken off. -/
theorem Inv.updateFreePage (h : Inv w) (hpc : w.pc = .updateFreePage b) :
    Inv (w.updateFreePage b) := by
  have hfree := h.granted b (by rw [hpc]; rfl)
  have hexcess := h.pages
  have hoqt := h.oqt
  unfold World.counted at hexcess
  rw [hpc] at hexcess hoqt
  exact {
    pages := by
      change excess (rtwHalSdioUpdateTxFreepage w.host b.pageIdx b.pgNum).stock w.fifo.pages ≤ _
      rw [stock_updateTxFreepage hfree]
      exact hexcess
    oqt := by
      have hsame : (rtwHalSdioUpdateTxFreepage w.host b.pageIdx b.pgNum).oqtFreeSpace
          = w.host.oqtFreeSpace := by
        unfold rtwHalSdioUpdateTxFreepage
        dsimp only
        split <;> rfl
      change (rtwHalSdioUpdateTxFreepage w.host b.pageIdx b.pgNum).oqtFreeSpace.toNat + 0 ≤ _
      rw [hsame]
      exact hoqt
    granted := fun _ h => nomatch h
    buf := fun _ h => nomatch h
    charges := List.forall_mem_cons.mpr ⟨freepageCharge_le hfree, h.charges⟩
    writes := h.writes }

/-- A beacon takes what nobody counts. -/
theorem Inv.beacon (h : Inv w) (i : PageIdx) (pages entries : Nat) :
    Inv { w with
      fifo := w.fifo.write i pages entries
      direct := w.direct + pages
      directOqt := w.directOqt + entries } where
  pages := (excess_take_le pages).trans (Nat.add_le_add_right h.pages pages)
  oqt := by
    have hoqt := h.oqt
    change w.host.oqtFreeSpace.toNat + w.pc.oqtTaken
      ≤ w.fifo.oqt - entries + (w.directOqt + entries)
    omega
  granted := h.granted
  buf := h.buf
  charges := h.charges
  writes := h.writes

theorem Inv.release (h : Inv w) (own : PageIdx → Nat) (shared oqt : Nat) :
    Inv { w with
      fifo :=
        { pages := ⟨fun i => w.fifo.pages.own i + own i, w.fifo.pages.shared + shared⟩
          oqt := w.fifo.oqt + oqt } } where
  pages := (excess_mono ⟨fun _ => Nat.le_add_right _ _, Nat.le_add_right _ _⟩).trans h.pages
  oqt := h.oqt.trans (Nat.add_le_add_right (Nat.le_add_right _ _) _)
  granted := h.granted
  buf := h.buf
  charges := h.charges
  writes := h.writes

/-- One step, whatever it is. -/
theorem Inv.step (h : Inv w) {a : Act} (hpending : ∀ b, a = .dequeue b → b.Counted)
    (hstep : w.step a = some w') : Inv w' := by
  cases a with
  | dequeue b =>
    simp only [World.step, Option.ite_none_right_eq_some, Option.some.injEq] at hstep
    obtain ⟨hpc, rfl⟩ := hstep
    exact h.dequeue hpc (hpending b rfl)
  | go cannotRun =>
    simp only [World.step] at hstep
    split at hstep
    · rename_i hpc
      cases hstep
      exact h.queryFreePage hpc cannotRun
    · rename_i hpc
      cases hstep
      exact h.waitOqt hpc cannotRun
    · rename_i hpc
      cases hstep
      exact h.updateFreePage hpc
    · cases hstep
  | write pages entries =>
    simp only [World.step] at hstep
    split at hstep
    · rename_i hpc
      rw [Option.ite_none_right_eq_some] at hstep
      obtain ⟨⟨hpages, hentries⟩, hw⟩ := hstep
      cases hw
      exact h.writePort hpc hpages hentries
    · cases hstep
  | beacon i pages entries =>
    cases hstep
    exact h.beacon i pages entries
  | release own shared oqt =>
    cases hstep
    exact h.release own shared oqt

/-- A whole run. -/
theorem Inv.run (h : Inv w) {acts : List Act} (hpending : ∀ b, .dequeue b ∈ acts → b.Counted)
    (hrun : w.run acts = some w') : Inv w' := by
  induction acts generalizing w with
  | nil =>
    cases hrun
    exact h
  | cons a acts ih =>
    obtain ⟨w₁, hstep, hrun⟩ := Option.bind_eq_some_iff.mp hrun
    exact ih (h.step (fun b hb => hpending b (hb ▸ List.mem_cons_self)) hstep)
      (fun b hb => hpending b (List.mem_cons_of_mem a hb)) hrun

theorem Inv.conserved (h : Inv w) : w.Conserved where
  own := fun _ => own_le_add_excess.trans (Nat.add_le_add_left h.pages _)
  shared := shared_le_add_excess.trans (Nat.add_le_add_left h.pages _)
  oqt := (Nat.le_add_right _ _).trans h.oqt
  charges := h.charges
  writes := h.writes

end Steps

/-! ## 4. Without beacons -/

/-- Nothing was written directly. -/
structure Undisturbed (w : World) : Prop where
  direct : w.direct = 0
  directOqt : w.directOqt = 0
  writes : ∀ p ∈ w.writes, p.direct = 0 ∧ p.directOqt = 0

/-- A step that writes a beacon. -/
def Act.isBeacon : Act → Bool
  | .beacon .. => true
  | _ => false

section Quiet

variable {w w' : World}

theorem Undisturbed.step (h : Undisturbed w) {a : Act} (ha : a.isBeacon = false)
    (hstep : w.step a = some w') : Undisturbed w' := by
  cases a with
  | dequeue b =>
    simp only [World.step, Option.ite_none_right_eq_some, Option.some.injEq] at hstep
    obtain ⟨-, rfl⟩ := hstep
    exact ⟨h.direct, h.directOqt, h.writes⟩
  | go cannotRun =>
    simp only [World.step] at hstep
    split at hstep
    · cases hstep
      unfold World.queryFreePage
      split_ifs
      · exact ⟨h.direct, h.directOqt, h.writes⟩
      · exact ⟨h.direct, h.directOqt, h.writes⟩
      · exact ⟨rfl, h.directOqt, h.writes⟩
      · exact ⟨h.direct, h.directOqt, h.writes⟩
    · cases hstep
      unfold World.waitOqt
      split_ifs
      · exact ⟨h.direct, h.directOqt, h.writes⟩
      · exact ⟨h.direct, rfl, h.writes⟩
      · exact ⟨h.direct, h.directOqt, h.writes⟩
    · cases hstep
      exact ⟨h.direct, h.directOqt, h.writes⟩
    · cases hstep
  | write pages entries =>
    simp only [World.step] at hstep
    split at hstep
    · rw [Option.ite_none_right_eq_some] at hstep
      obtain ⟨-, hw⟩ := hstep
      cases hw
      exact ⟨h.direct, h.directOqt,
        List.forall_mem_cons.mpr ⟨⟨h.direct, h.directOqt⟩, h.writes⟩⟩
    · cases hstep
  | beacon i pages entries => cases ha
  | release own shared oqt =>
    cases hstep
    exact ⟨h.direct, h.directOqt, h.writes⟩

theorem Undisturbed.run (h : Undisturbed w) {acts : List Act}
    (hacts : ∀ a ∈ acts, a.isBeacon = false) (hrun : w.run acts = some w') : Undisturbed w' := by
  induction acts generalizing w with
  | nil =>
    cases hrun
    exact h
  | cons a acts ih =>
    obtain ⟨w₁, hstep, hrun⟩ := Option.bind_eq_some_iff.mp hrun
    obtain ⟨ha, hacts⟩ := List.forall_mem_cons.mp hacts
    exact ih (h.step ha hstep) hacts hrun

end Quiet

/-! ## 5. Every run -/

/-- **The host's accounts are conservative**: from the first reading on, whatever is written and
whenever the counters are read again, they are too high by what beacons took since, and not at all
where there are none; nothing is subtracted that is not there, and every buffer is written when
the device has its pages and entries, less those of the beacons. -/
theorem free_pages_conserved (u : Setup) (d : TxFifo) {acts : List Act} {w : World}
    (hpending : ∀ b, .dequeue b ∈ acts → Pending u b) (hrun : (World.start d).run acts = some w) :
    w.Conserved ∧ ((∀ a ∈ acts, a.isBeacon = false) → Undisturbed w) := by
  have hinv := (inv_start d).run (fun b hb => (hpending b hb).counted) hrun
  have hstart : Undisturbed (World.start d) := ⟨rfl, rfl, fun _ h => nomatch h⟩
  exact ⟨hinv.conserved, fun hacts => hstart.run hacts hrun⟩

/-- Three queues, as `_InitQueueReservedPage` sets them up without WMM. -/
def threeQueues : Setup := ⟨fun _ => true, false, 8⟩

/-- Two pages for each queue, and one for all. -/
def nearlyFull : TxFifo := ⟨⟨fun _ => 2, 1⟩, 2⟩

/-- A buffer of four pages waits until one more is free. -/
def waitForPage : List Act :=
  [.dequeue (mgntXmit .hi 400), .go false, .release (fun _ => 0) 1 0, .go false, .go false,
    .go false, .write 4 1, .go false]

theorem free_pages_conserved_of_refill :
    ∃ w, (World.start nearlyFull).run waitForPage = some w ∧ w.writes.length = 1 ∧
      w.Conserved ∧ Undisturbed w := by
  have hsome : (((World.start nearlyFull).run waitForPage).map fun w => w.writes.length)
      = some 1 := by decide
  obtain ⟨w, hrun, hwrites⟩ := Option.map_eq_some_iff.mp hsome
  have hpending : ∀ b, .dequeue b ∈ waitForPage → Pending threeQueues b := by
    intro b hb
    simp only [waitForPage, List.mem_cons, Act.dequeue.injEq, reduceCtorEq, List.not_mem_nil,
      or_false] at hb
    rw [hb]
    exact .mgnt .hi 400 (by decide)
  obtain ⟨hconserved, hquiet⟩ := free_pages_conserved threeQueues nearlyFull hpending hrun
  exact ⟨w, hrun, hwrites, hconserved, hquiet (by decide)⟩

/-- Three short packets in one buffer. -/
def threeShort : AggBuf :=
  fillXmitbuf sizedCrypto false (threeQueues.sdioTxMaxLen .hi) threeQueues.maxTxoqtFreeSpace.toNat
    (fun _ => 0) 4096 (clearFrame 8) [clearFrame 8, clearFrame 8]

/-- The beacon takes two of the three pages that the buffer is then granted. -/
def beaconFirst : List Act :=
  [.beacon .hi 2 1, .dequeue (ofAggBuf .hi threeShort), .go false, .go false, .write 3 1]

/-- Behind a beacon the host believes in pages that are gone, and writes a buffer for which there
are not enough; of this buffer three pages are counted for 240 bytes, which are two. -/
theorem beacon_overcommits :
    (∀ b, .dequeue b ∈ beaconFirst → Pending threeQueues b) ∧
      (((World.start ⟨⟨fun _ => 2, 1⟩, 3⟩).run (beaconFirst.take 1)).map fun w =>
        ((w.counted.own .hi, w.fifo.pages.own .hi), (w.host.oqtFreeSpace, w.fifo.oqt)))
        = some ((2, 0), (3, 2)) ∧
      (((World.start ⟨⟨fun _ => 2, 1⟩, 3⟩).run beaconFirst).map fun w =>
        w.writes.map fun p =>
          ((p.buf.pgNum.toNat, p.fifo.pages.free .hi, pagesOf p.buf.len),
            (p.buf.aggNum.toNat, p.fifo.oqt)))
        = some [((3, 1, 2), (3, 2))] := by
  have hbuf : ofAggBuf .hi threeShort = ⟨.hi, 240, 3, 3, [80, 80, 80]⟩ := by decide +kernel
  refine ⟨?_, by decide, ?_⟩
  · intro b hb
    simp only [beaconFirst, List.mem_cons, Act.dequeue.injEq, reduceCtorEq, List.not_mem_nil,
      or_false, false_or] at hb
    rw [hb]
    have hlen : (ofAggBuf .hi threeShort).len = 240 := by rw [hbuf]
    exact .xmitframes .hi .hi sizedCrypto false (fun _ => 0) 4096 (clearFrame 8)
      [clearFrame 8, clearFrame 8] threeShort rfl
      (by change 0 < (ofAggBuf .hi threeShort).len; omega) (by decide)
  · unfold beaconFirst
    rw [hbuf]
    decide

end FreePages

end Rtl8723bs
