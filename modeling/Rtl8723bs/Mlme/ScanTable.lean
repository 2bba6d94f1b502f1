/-
# The table of scan results

The `wlan_network` slots of the pool are in `free_bss_pool` or in `scanned_queue`.
`rtw_update_scanned_network` looks for an entry of the BSS that was scanned and updates it; if there
is none it takes a free slot, and if there is no free slot the entry that was seen least recently,
whatever its `fixed` flag says.  With P2P on, any entry with the address counts as an entry of the
BSS.  The functions that free an entry look at the flag, but not at the list the entry is in.
-/
import Mathlib.Logic.Function.Basic
import Rtl8723bs.Wifi

namespace Rtl8723bs

/-! ## 1. BSS descriptions -/

/-- `WLAN_BSSID_EX`, as far as the table reads it: `bssType` is `Reserved[0]`, `ssid` the
`SsidLength` bytes of the SSID, and `ies` the bytes of `IEs`, of which `ieLength` are valid. -/
structure WlanBssidEx where
  macAddress : MacAddr
  bssType : UInt8
  ssid : List UInt8
  rssi : Int
  signalStrength : UInt8
  signalQuality : UInt8
  ieLength : Nat
  ies : Mem

def bssTypeProbReq : UInt8 := 2

/-- `_rtw_memcpy(dst, src, get_WLAN_BSSID_EX_sz(src))`: of the IEs only the valid bytes. -/
def copyBssid (dst src : WlanBssidEx) : WlanBssidEx :=
  { src with ies := fun i => if i < src.ieLength then src.ies i else dst.ies i }

/-- `WLAN_CAPABILITY_BSS` and `WLAN_CAPABILITY_IBSS` of the capability field, wherever the IEs put
it. -/
def capabilityOf (b : WlanBssidEx) : Nat × Nat := (le16 b.ies 10 &&& 1, le16 b.ies 10 &&& 2)

/-- `is_same_network`; `feature` is set when P2P is on. -/
def isSameNetwork (src dst : WlanBssidEx) (feature : Bool) : Bool :=
  (feature && src.macAddress = dst.macAddress) ||
  (src.ssid = dst.ssid && src.macAddress = dst.macAddress && capabilityOf src = capabilityOf dst)

/-- What `update_network` reads of the adapter: whether it is linked, to what, and the signal of the
frames received. -/
structure LinkEnv where
  linked : Bool
  curNetwork : WlanBssidEx
  signalStrength : UInt8
  signalQual : UInt8

/-- One part sample and four parts history. -/
def smoothed (smp ori : UInt8) : UInt8 := UInt8.ofNat ((smp.toNat + ori.toNat * 4) / 5)

/-- `update_network`. -/
def updateNetwork (e : LinkEnv) (dst src : WlanBssidEx) (updateIe : Bool) : WlanBssidEx :=
  let sampled := src.signalQuality ≠ 101
  let own := e.linked && isSameNetwork e.curNetwork src false
  let ssFinal :=
    if own then e.signalStrength
    else if sampled then smoothed src.signalStrength dst.signalStrength else dst.signalStrength
  let sqFinal :=
    if own then e.signalQual
    else if sampled then smoothed src.signalQuality dst.signalQuality else dst.signalQuality
  let rssiFinal := if sampled then (src.rssi + dst.rssi * 4).tdiv 5 else dst.rssi
  { (if updateIe then copyBssid dst src else dst) with
    signalStrength := ssFinal, signalQuality := sqFinal, rssi := rssiFinal }

/-! ## 2. The pool -/

/-- `MAX_BSS_CNT`. -/
def maxBssCnt : Nat := 128

/-- A slot of the pool. -/
abbrev BssSlot := Fin maxBssCnt

/-- `struct wlan_network`, without its list. -/
structure WlanNetwork where
  networkType : Nat
  fixed : Bool
  lastScanned : UInt64
  aid : Nat
  joinRes : Int
  network : WlanBssidEx

/-- The pool, `free_bss_pool`, `scanned_queue` and `num_of_scanned` of the `mlme_priv`. -/
structure ScanTable where
  slot : BssSlot → WlanNetwork
  freeBssPool : List BssSlot
  scannedQueue : List BssSlot
  numOfScanned : UInt32

/-- A slot as `rtw_zvmalloc` leaves it. -/
def zeroNetwork : WlanNetwork := ⟨0, false, 0, 0, 0, ⟨zeroAddr, 0, [], 0, 0, 0, 0, fun _ => 0⟩⟩

/-- As `_rtw_init_mlme_priv` leaves them. -/
def rtwInitMlmePriv : ScanTable := ⟨fun _ => zeroNetwork, List.finRange maxBssCnt, [], 0⟩

/-- `time_after(a, b)` on `unsigned long`. -/
def timeAfter (a b : UInt64) : Bool := 2 ^ 63 ≤ (b - a).toNat

namespace ScanTable

/-- `_rtw_alloc_network`: the first free slot, which is on no list afterwards. -/
def allocNetwork (t : ScanTable) (now : UInt64) : Option (BssSlot × ScanTable) :=
  match t.freeBssPool with
  | [] => none
  | i :: rest => some (i, { t with
      slot := Function.update t.slot i { t.slot i with
        networkType := 0, fixed := false, lastScanned := now, aid := 0, joinRes := 0 }
      freeBssPool := rest
      numOfScanned := t.numOfScanned + 1 })

/-- `rtw_list_delete` from the list the slot is in, and `rtw_list_insert_tail` to `free_bss_pool`. -/
def giveBack (t : ScanTable) (i : BssSlot) : ScanTable :=
  { t with
    freeBssPool := t.freeBssPool.filter (· ≠ i) ++ [i]
    scannedQueue := t.scannedQueue.filter (· ≠ i)
    numOfScanned := t.numOfScanned - 1 }

/-- When `_rtw_free_network` is called: the time, `jiffies_to_msecs`, and whether the adapter is in
an ad hoc state. -/
structure FreeEnv where
  now : UInt64
  toMs : UInt64 → UInt32
  adhoc : Bool

/-- `SCANQUEUE_LIFETIME`, or 1 in an ad hoc state. -/
def FreeEnv.lifetime (e : FreeEnv) : UInt32 := if e.adhoc then 1 else 20000

/-- The entry is too young to be freed. -/
def young (t : ScanTable) (e : FreeEnv) (i : BssSlot) : Bool :=
  e.toMs (e.now - (t.slot i).lastScanned) < e.lifetime

/-- `_rtw_free_network`. -/
def freeNetwork (t : ScanTable) (e : FreeEnv) (pnetwork : Option BssSlot) (isfreeall : Bool) :
    ScanTable :=
  match pnetwork with
  | none => t
  | some i =>
    if (t.slot i).fixed then t
    else if !isfreeall && t.young e i then t
    else t.giveBack i

/-- `_rtw_free_network_nolock`. -/
def freeNetworkNolock (t : ScanTable) (pnetwork : Option BssSlot) : ScanTable :=
  match pnetwork with
  | none => t
  | some i => if (t.slot i).fixed then t else t.giveBack i

/-- `_rtw_free_network_queue`; the successor is read before the entry is freed. -/
def freeNetworkQueue (t : ScanTable) (e : FreeEnv) (isfreeall : Bool) : ScanTable :=
  t.scannedQueue.foldl (fun t i => t.freeNetwork e (some i) isfreeall) t

/-! ## 3. `rtw_update_scanned_network` -/

/-- The entry that counts as one of the target. -/
def hits (t : ScanTable) (p2p : Bool) (target : WlanBssidEx) (i : BssSlot) : Bool :=
  (p2p && (t.slot i).network.macAddress = target.macAddress) ||
  isSameNetwork (t.slot i).network target p2p

/-- `oldest` after a look at entry `i`. -/
def older (t : ScanTable) (oldest : Option BssSlot) (i : BssSlot) : BssSlot :=
  match oldest with
  | none => i
  | some o => if timeAfter (t.slot o).lastScanned (t.slot i).lastScanned then i else o

/-- The loop over `scanned_queue`: the entry found, and `oldest` of those looked at before. -/
def search (t : ScanTable) (p2p : Bool) (target : WlanBssidEx) :
    List BssSlot → Option BssSlot → Option BssSlot × Option BssSlot
  | [], oldest => (none, oldest)
  | i :: l, oldest =>
    if t.hits p2p target i then (some i, oldest)
    else t.search p2p target l (some (t.older oldest i))

/-- A quality of 101 says that the frame was not received on the right channel. -/
def rightChannel (b : WlanBssidEx) : WlanBssidEx :=
  if b.signalQuality = 101 then { b with signalQuality := 0 } else b

/-- `update_ie`: a frame that is not a probe request, of the same kind as the entry or a better
one. -/
def updateIe (old target : WlanBssidEx) : Bool :=
  target.bssType ≠ bssTypeProbReq && old.bssType ≤ target.bssType

/-- The slot `i` with another record. -/
def setSlot (t : ScanTable) (i : BssSlot) (n : WlanNetwork) : ScanTable :=
  { t with slot := Function.update t.slot i n }

/-- `rtw_update_scanned_network`. -/
def updateScannedNetwork (t : ScanTable) (e : LinkEnv) (p2p : Bool) (now : UInt64)
    (target : WlanBssidEx) : ScanTable :=
  match t.search p2p target t.scannedQueue none with
  | (some i, _) =>
    let n := t.slot i
    t.setSlot i { n with
      lastScanned := now
      network := updateNetwork e n.network target (updateIe n.network target) }
  | (none, oldest) =>
    if t.freeBssPool = [] then
      match oldest with
      | none => t
      | some i =>
        t.setSlot i
          { networkType := 0, fixed := false, lastScanned := now, aid := 0, joinRes := 0
            network := rightChannel (copyBssid (t.slot i).network target) }
    else
      match t.allocNetwork now with
      | none => t
      | some (i, t) =>
        { t.setSlot i { t.slot i with
            lastScanned := now
            network := rightChannel (copyBssid (t.slot i).network target) } with
          scannedQueue := t.scannedQueue ++ [i] }

end ScanTable

end Rtl8723bs
