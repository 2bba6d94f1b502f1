/-
# Pages and queue entries for the transmit buffers

The device has pages for packets, some for each of three queues and some for all, and room for a
number of packets in its output queue (OQT).  The host keeps copies of these numbers in bytes.
`_dequeue_writeport` asks the copies whether there is enough for a buffer, reads them again from
the device when there is not, writes the buffer and takes off what it used.
`rtl8723bs_mgnt_xmit` writes a beacon without asking and takes nothing off.

The thread that calls `_dequeue_writeport` is cut into steps where it touches the counters or the
device.  Between any two of them beacons are written and the device gets pages free.
`CONFIG_SDIO_TX_ENABLE_AVAL_INT` is not set.
-/
import Rtl8723bs.Lib.Credits
import Rtl8723bs.Tx.Aggregate

namespace Rtl8723bs

namespace FreePages

open Credits

/-! ## 1. The counters -/

/-- `HI_QUEUE_IDX`, `MID_QUEUE_IDX` and `LOW_QUEUE_IDX`. -/
inductive PageIdx where
  | hi
  | mid
  | low
deriving DecidableEq, Repr

instance : Fintype PageIdx := ⟨{.hi, .mid, .low}, fun i => by cases i <;> decide⟩

/-- `SdioTxFIFOFreePage`, of which `publicPage` is the one at `PUBLIC_QUEUE_IDX`, and
`SdioTxOQTFreeSpace`. -/
structure Counters where
  freePage : PageIdx → UInt8
  publicPage : UInt8
  oqtFreeSpace : UInt8

/-- What the device has free. -/
structure TxFifo where
  pages : Stock PageIdx
  oqt : Nat

/-- `rtw_hal_sdio_query_tx_freepage`. -/
def rtwHalSdioQueryTxFreepage (c : Counters) (pageIdx : PageIdx) (requiredPageNum : UInt8) :
    Bool :=
  requiredPageNum.toNat ≤ (c.freePage pageIdx).toNat + c.publicPage.toNat

/-- `rtw_hal_sdio_update_tx_freepage`. -/
def rtwHalSdioUpdateTxFreepage (c : Counters) (pageIdx : PageIdx) (requiredPageNum : UInt8) :
    Counters :=
  let dedicatedPgNum := c.freePage pageIdx
  if requiredPageNum ≤ dedicatedPgNum then
    { c with
      freePage := Function.update c.freePage pageIdx (dedicatedPgNum - requiredPageNum) }
  else
    let requiredPublicFreePgNum := requiredPageNum - dedicatedPgNum
    { c with
      freePage := Function.update c.freePage pageIdx 0
      publicPage := c.publicPage - requiredPublicFreePgNum }

/-- `HalQueryTxBufferStatus8723BSdio`: four bytes of a register. -/
def halQueryTxBufferStatus (d : TxFifo) (c : Counters) : Counters :=
  { c with
    freePage := fun i => UInt8.ofNat (d.pages.own i)
    publicPage := UInt8.ofNat d.pages.shared }

/-- `HalQueryTxOQTBufferStatus8723BSdio`. -/
def halQueryTxOqtBufferStatus (d : TxFifo) (c : Counters) : Counters :=
  { c with oqtFreeSpace := UInt8.ofNat d.oqt }

/-- A subtraction from one of the counters. -/
structure Charge where
  before : UInt8
  amount : UInt8
deriving DecidableEq, Repr

/-- The one that `rtw_hal_sdio_update_tx_freepage` makes. -/
def freepageCharge (c : Counters) (pageIdx : PageIdx) (requiredPageNum : UInt8) : Charge :=
  if requiredPageNum ≤ c.freePage pageIdx then ⟨c.freePage pageIdx, requiredPageNum⟩
  else ⟨c.publicPage, requiredPageNum - c.freePage pageIdx⟩

/-! ## 2. The buffers -/

/-- Pages of 128 bytes. -/
def pagesOf (len : Nat) : Nat := (len + 127) / 128

/-- What `_dequeue_writeport` reads of a `struct xmit_buf`, `pageIdx` from its `ff_hwaddr`.
`frames` are the lengths of the frames in it. -/
structure XmitBuf where
  pageIdx : PageIdx
  len : Nat
  pgNum : UInt8
  aggNum : UInt8
  frames : List Nat
deriving DecidableEq, Repr

/-- What the driver was set up with: `OutEpQueueSel`, `wifi_spec` and `SdioTxOQTMaxFreeSpace`. -/
structure Setup where
  outEpQueueSel : PageIdx → Bool
  wifiSpec : Bool
  oqtMaxFreeSpace : UInt8

/-- `numHQ`, `numNQ` and `numLQ` of `_InitQueueReservedPage`. -/
def Setup.num (u : Setup) (i : PageIdx) : Nat :=
  if u.outEpQueueSel i then
    match i with
    | .hi => if u.wifiSpec then 0x30 else 0x0C
    | .mid => if u.wifiSpec then 0x20 else 0x02
    | .low => if u.wifiSpec then 0x20 else 0x02
  else 0

/-- `numPubQ`; `BCNQ_PAGE_NUM_8723B` pages are the beacon queue's. -/
def Setup.numPubQ (u : Setup) : Nat := 0xFF - 0x08 - u.num .hi - u.num .low - u.num .mid

def maxXmitbufSz : Nat := 20480

/-- `rtw_hal_set_sdio_tx_max_length`. -/
def Setup.sdioTxMaxLen (u : Setup) (i : PageIdx) : Nat :=
  let len := ((u.num i + u.numPubQ) >>> 1) * 128
  if maxXmitbufSz < len then maxXmitbufSz else len

/-- `rtw_hal_sdio_max_txoqt_free_space`. -/
def Setup.maxTxoqtFreeSpace (u : Setup) : UInt8 :=
  if u.oqtMaxFreeSpace < 8 then 8 else u.oqtMaxFreeSpace

/-- An aggregated buffer as `xmit_xmitframes` enqueues it: `pg_num` and `agg_num` are bytes. -/
def ofAggBuf (pageIdx : PageIdx) (b : AggBuf) : XmitBuf where
  pageIdx := pageIdx
  len := b.len
  pgNum := UInt8.ofNat b.pgNum
  aggNum := UInt8.ofNat b.k
  frames := b.packets.map fun p => p.txlen

/-- `rtl8723bs_mgnt_xmit`, of a frame that is not a beacon. -/
def mgntXmit (pageIdx : PageIdx) (lastTxcmdsz : Nat) : XmitBuf :=
  let len := txdescOffset + lastTxcmdsz
  { pageIdx := pageIdx
    len := len
    pgNum := UInt8.ofNat ((len + 127) / 128)
    aggNum := 1
    frames := [len] }

/-- The buffers on the pending queues, made of frames that fit a buffer. -/
inductive Pending (u : Setup) : XmitBuf → Prop
  | xmitframes (pageIdx queue : PageIdx) (c : SwCrypto) (isAp : Bool) (m : Mem) (phead : Nat)
      (f : AggFrame) (fs : List AggFrame) (b : AggBuf)
      (hb : b = fillXmitbuf c isAp (u.sdioTxMaxLen queue) u.maxTxoqtFreeSpace.toNat m phead f fs)
      (hlen : 0 < b.len) (hfits : f.txlen ≤ maxXmitbufSz) : Pending u (ofAggBuf pageIdx b)
  | mgnt (pageIdx : PageIdx) (lastTxcmdsz : Nat)
      (hfits : txdescOffset + lastTxcmdsz ≤ maxXmitbufSz) :
      Pending u (mgntXmit pageIdx lastTxcmdsz)

/-! ## 3. The world -/

/-- Where `_dequeue_writeport` is: before what the name says. -/
inductive WritePc where
  | idle
  | queryFreePage (b : XmitBuf) (pollingNum : Nat)
  | waitOqt (b : XmitBuf)
  | writePort (b : XmitBuf)
  | updateFreePage (b : XmitBuf)
deriving DecidableEq, Repr

/-- A buffer that was written, with what the device had then, and what had been written directly
since the counters were read. -/
structure PortWrite where
  buf : XmitBuf
  fifo : TxFifo
  direct : Nat
  directOqt : Nat

structure World where
  host : Counters
  fifo : TxFifo
  pc : WritePc
  /-- The pages that beacons took since `HalQueryTxBufferStatus8723BSdio`. -/
  direct : Nat
  /-- The entries that they took since `HalQueryTxOQTBufferStatus8723BSdio`. -/
  directOqt : Nat
  charges : List Charge
  writes : List PortWrite

/-- After `rtl8723bs_hal_init`. -/
def World.start (d : TxFifo) : World where
  host := halQueryTxOqtBufferStatus d (halQueryTxBufferStatus d ⟨fun _ => 0, 0, 0⟩)
  fifo := d
  pc := .idle
  direct := 0
  directOqt := 0
  charges := []
  writes := []

/-- A write takes pages and entries, of the queue first. -/
def TxFifo.write (d : TxFifo) (i : PageIdx) (pages entries : Nat) : TxFifo where
  pages := d.pages.take i pages
  oqt := d.oqt - entries

/-! ## 4. `_dequeue_writeport` -/

/-- `query_free_page`; every tenth time the buffer goes back to its queue. -/
def World.queryFreePage (w : World) (b : XmitBuf) (pollingNum : Nat) (cannotRun : Bool) : World :=
  if rtwHalSdioQueryTxFreepage w.host b.pageIdx b.pgNum = false then
    if cannotRun then { w with pc := .idle }
    else if (pollingNum + 1) % 10 = 0 then { w with pc := .idle }
    else
      { w with
        host := halQueryTxBufferStatus w.fifo w.host
        direct := 0
        pc := .queryFreePage b (pollingNum + 1) }
  else { w with pc := .waitOqt b }

/-- One turn of `rtw_sdio_wait_enough_TxOQT_space`. -/
def World.waitOqt (w : World) (b : XmitBuf) (cannotRun : Bool) : World :=
  if w.host.oqtFreeSpace < b.aggNum then
    if cannotRun then { w with pc := .idle }
    else
      { w with
        host := halQueryTxOqtBufferStatus w.fifo w.host
        directOqt := 0 }
  else
    { w with
      host := { w.host with oqtFreeSpace := w.host.oqtFreeSpace - b.aggNum }
      charges := ⟨w.host.oqtFreeSpace, b.aggNum⟩ :: w.charges
      pc := .writePort b }

/-- `rtw_write_port`, whose return value is not looked at; a write that fails takes nothing. -/
def World.writePort (w : World) (b : XmitBuf) (pages entries : Nat) : World :=
  { w with
    fifo := w.fifo.write b.pageIdx pages entries
    writes := ⟨b, w.fifo, w.direct, w.directOqt⟩ :: w.writes
    pc := .updateFreePage b }

/-- The pages are taken off. -/
def World.updateFreePage (w : World) (b : XmitBuf) : World :=
  { w with
    host := rtwHalSdioUpdateTxFreepage w.host b.pageIdx b.pgNum
    charges := freepageCharge w.host b.pageIdx b.pgNum :: w.charges
    pc := .idle }

/-! ## 5. Runs -/

inductive Act where
  /-- `select_and_dequeue_pending_xmitbuf` finds a buffer. -/
  | dequeue (b : XmitBuf)
  /-- The thread goes on; `cannotRun` is `RTW_CANNOT_RUN`, where it is asked. -/
  | go (cannotRun : Bool)
  /-- The buffer at hand is written. -/
  | write (pages entries : Nat)
  /-- `rtl8723bs_mgnt_xmit` of a beacon. -/
  | beacon (pageIdx : PageIdx) (pages entries : Nat)
  /-- The device has sent packets. -/
  | release (own : PageIdx → Nat) (shared oqt : Nat)

/-- One step; `none` where it cannot be taken.  A buffer takes no more than it is counted. -/
def World.step (w : World) : Act → Option World
  | .dequeue b => if w.pc = .idle then some { w with pc := .queryFreePage b 0 } else none
  | .go cannotRun =>
    match w.pc with
    | .queryFreePage b pollingNum => some (w.queryFreePage b pollingNum cannotRun)
    | .waitOqt b => some (w.waitOqt b cannotRun)
    | .updateFreePage b => some (w.updateFreePage b)
    | _ => none
  | .write pages entries =>
    match w.pc with
    | .writePort b =>
      if pages ≤ b.pgNum.toNat ∧ entries ≤ b.aggNum.toNat then some (w.writePort b pages entries)
      else none
    | _ => none
  | .beacon pageIdx pages entries =>
    some { w with
      fifo := w.fifo.write pageIdx pages entries
      direct := w.direct + pages
      directOqt := w.directOqt + entries }
  | .release own shared oqt =>
    some { w with
      fifo :=
        { pages := ⟨fun i => w.fifo.pages.own i + own i, w.fifo.pages.shared + shared⟩
          oqt := w.fifo.oqt + oqt } }

/-- A run, any number of steps in any order. -/
def World.run (w : World) (acts : List Act) : Option World := acts.foldlM World.step w

end FreePages

end Rtl8723bs
