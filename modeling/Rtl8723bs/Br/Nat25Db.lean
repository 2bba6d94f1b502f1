/-
# The NAT2.5 database

A station behind which there is a bridge sends all frames with its own MAC address.  Which
client a network address belongs to it learns from the frames of the clients, and keeps in a
hash table, so that frames that come down get the MAC address of the client.

An entry ages: it is refreshed each time its address is seen, and one that was not for
`NAT25_AGEING_TIME` seconds is not used and is to be thrown away.  Time is counted in jiffies, in an
`unsigned long` that wraps around.
-/
import Rtl8723bs.Lib.HashList
import Rtl8723bs.Wifi

namespace Rtl8723bs

namespace Nat25

open HashList

/-! ## 1. Addresses -/

/-- A network address: the protocol and `MAX_NETWORK_ADDR_LEN - 1` bytes. -/
abbrev NetworkAddr := Vector UInt8 17

/-- `NAT25_IPV4` and so on. -/
def nat25Ipv4 : UInt8 := 1

def nat25Ipv6 : UInt8 := 2

def nat25Ipx : UInt8 := 3

def nat25Apple : UInt8 := 4

def nat25Pppoe : UInt8 := 5

/-- `NAT25_HASH_SIZE`. -/
def nat25HashSize : Nat := 16

/-- The bytes of an address from `i` to `j`, one xor the other. -/
def xorBytes (a : NetworkAddr) (i j : Nat) : UInt8 :=
  ((a.toList.drop i).take (j + 1 - i)).foldl (· ^^^ ·) 0

/-- `__nat25_network_hash`. -/
def networkHash (networkAddr : NetworkAddr) : Fin nat25HashSize :=
  let x :=
    if networkAddr[0] == nat25Ipv4 then xorBytes networkAddr 7 10
    else if networkAddr[0] == nat25Ipx then xorBytes networkAddr 1 10
    else if networkAddr[0] == nat25Apple then xorBytes networkAddr 1 3
    else if networkAddr[0] == nat25Pppoe then xorBytes networkAddr 0 8
    else if networkAddr[0] == nat25Ipv6 then xorBytes networkAddr 1 16
    else xorBytes networkAddr 0 16
  ⟨x.toNat % nat25HashSize, Nat.mod_lt _ (by decide)⟩

/-! ## 2. Time -/

/-- How the machine counts time: the bits of an `unsigned long` and the jiffies in a second.
The ageing time is far from the range of the counter. -/
structure Clock where
  bits : Nat
  hz : Nat
  pos : 0 < bits
  fits : 300 * hz < 2 ^ (bits - 1)

variable {c : Clock}

/-- A value of `jiffies`. -/
abbrev Clock.Jiffies (c : Clock) := BitVec c.bits

/-- `NAT25_AGEING_TIME * HZ`. -/
def Clock.ageing (c : Clock) : Nat := 300 * c.hz

/-- `jiffies`, so many ticks after it was zero. -/
def Clock.jiffies (c : Clock) (now : Nat) : c.Jiffies := BitVec.ofNat c.bits now

/-- `__nat25_timeout`. -/
def nat25Timeout (jiffies : c.Jiffies) : c.Jiffies := jiffies - BitVec.ofNat c.bits c.ageing

/-- `time_before_eq`: the difference is read as a `long`. -/
def timeBeforeEq (a b : c.Jiffies) : Bool := 0 ≤ (b - a).toInt

/-! ## 3. The database -/

/-- `struct nat25_network_db_entry`, without its links. -/
structure Entry (c : Clock) where
  useCount : BitVec 32
  macAddr : MacAddr
  ageingTimer : c.Jiffies
  networkAddr : NetworkAddr

/-- The database of an adapter and its cache of one entry. -/
structure Adapter (c : Clock) where
  tab : Table (Fin nat25HashSize) (Entry c)
  scdbMac : MacAddr
  scdbIp : Vector UInt8 4
  scdbEntry : Option Ptr

/-- `__nat25_has_expired`. -/
def hasExpired (jiffies : c.Jiffies) (fdb : Entry c) : Bool :=
  timeBeforeEq fdb.ageingTimer (nat25Timeout jiffies)

/-- The walk of the functions here: the entry of an address in its bucket. -/
def Adapter.findEntry (a : Adapter c) (networkAddr : NetworkAddr) : Option Ptr :=
  a.tab.findIn (networkHash networkAddr) fun db => db.networkAddr == networkAddr

/-- `__nat25_db_network_lookup_and_replace`, with the destination of the frame and what it
returns: an entry that has expired is a hit, and the frame stays as it is. -/
def Adapter.dbNetworkLookupAndReplace (a : Adapter c) (jiffies : c.Jiffies) (dst : MacAddr)
    (networkAddr : NetworkAddr) : Adapter c × MacAddr × Bool :=
  match a.findEntry networkAddr with
  | some p =>
    let db := a.tab.data p
    if hasExpired jiffies db then (a, dst, true)
    else
      ({ a with tab := a.tab.setData p { db with useCount := db.useCount + 1 } }, db.macAddr, true)
  | none => (a, dst, false)

/-- `__nat25_db_network_insert`; `mem` is what `rtw_malloc` gives. -/
def Adapter.dbNetworkInsert (a : Adapter c) (jiffies : c.Jiffies) (mem : Option Ptr)
    (macAddr : MacAddr) (networkAddr : NetworkAddr) : Adapter c :=
  match a.findEntry networkAddr with
  | some p =>
    { a with tab :=
        a.tab.setData p { a.tab.data p with macAddr := macAddr, ageingTimer := jiffies } }
  | none =>
    match mem with
    | none => a
    | some p =>
      let tab := a.tab.alloc p ⟨1, macAddr, jiffies, networkAddr⟩
      { a with tab := tab.link (networkHash networkAddr) p }

/-- An entry is unlinked and freed, and the cache does not keep it. -/
def Adapter.dbFree (f : Ptr) (a : Adapter c) : Adapter c :=
  let a := if a.scdbEntry == some f then
    { a with scdbMac := zeroAddr, scdbIp := Vector.replicate 4 0, scdbEntry := none } else a
  { a with tab := (a.tab.unlink f).free f }

/-- What `nat25_db_expire` does at an entry. -/
def Adapter.expireVisit (jiffies : c.Jiffies) (f : Ptr) (a : Adapter c) : Adapter c :=
  let db := a.tab.data f
  if hasExpired jiffies db then
    let useCount := db.useCount - 1
    let a := { a with tab := a.tab.setData f { db with useCount := useCount } }
    if useCount == 0 then a.dbFree f else a
  else a

/-- The loop over the buckets. -/
@[irreducible]
def Adapter.sweepBuckets (visit : Ptr → Adapter c → Adapter c) (a : Adapter c) : Adapter c :=
  (List.finRange nat25HashSize).foldl
    (fun a i => sweep Adapter.tab visit a.tab.live.length (a.tab.cell (.head i)) a) a

/-- `nat25_db_expire`. -/
def Adapter.dbExpire (a : Adapter c) (jiffies : c.Jiffies) : Adapter c :=
  a.sweepBuckets (Adapter.expireVisit jiffies)

/-- `nat25_db_cleanup`. -/
def Adapter.dbCleanup (a : Adapter c) : Adapter c := a.sweepBuckets Adapter.dbFree

end Nat25

end Rtl8723bs
