/-
# `nat25_db_handle`

The one function through which frames go to the database: whether a frame has to be copied before it
is changed (`NAT25_CHECK`), what a frame of a client teaches (`NAT25_INSERT`), and to which client a
frame goes that came down (`NAT25_LOOKUP`).  There is a part for each network protocol.

The result is `none` where the function never returns: a neighbour discovery message with an option
of length zero keeps `scan_tlv` where it is.
-/
import Rtl8723bs.Br.Nat25Frame

namespace Rtl8723bs

namespace Nat25

open HashList

variable {c : Clock}

/-! ## 1. The state, and what is outside -/

/-- `struct br_ext_info`, as far as it is read. -/
structure BrExtInfo where
  nat25Disable : Bool
  dhcpBcstDisable : Bool
  addPPPoETag : Bool
  nat25scDisable : Bool

/-- What an adapter keeps for NAT2.5; `db` are `nethash` and the `scdb_` fields. -/
structure Bridge (c : Clock) where
  db : Adapter c
  pppoeConnectionInProgress : Nat
  pppoeAddr : MacAddr
  brMac : MacAddr
  brIp : Vector UInt8 4
  ethBrExtInfo : BrExtInfo

/-- What a call meets with: the time, the memory it may get, the bridge the device is a port of, the
memory behind `tag_buf`, and the functions of the kernel that it calls. -/
structure Env (c : Clock) where
  jiffies : c.Jiffies
  /-- `GET_MY_HWADDR`. -/
  hwaddr : MacAddr
  /-- What `rtw_malloc` gives. -/
  mem : Option Ptr
  /-- `br_port`. -/
  brPort : Bool
  /-- The address of the bridge device, if `dev_get_by_name` finds it. -/
  brDev : Option MacAddr
  /-- The kernel has IPX: `LINUX_VERSION_CODE <= KERNEL_VERSION(5, 14, 0)`. -/
  hasIpx : Bool
  /-- `rtw_skb_copy` gets memory, and so does `skb_linearize`. -/
  skbCopy : Bool
  skbLinearize : Bool
  stack : Mem
  csumPartial : List UInt8 → UInt32
  csumIpv6Magic : List UInt8 → List UInt8 → Nat → UInt8 → UInt32 → UInt16

/-- `enum NAT25_METHOD`, the ones in use. -/
inductive Method
  | check
  | insert
  | lookup
deriving DecidableEq

/-- What `nat25_db_handle` leaves: the state, the frame and the value. -/
structure Handled (c : Clock) where
  bridge : Bridge c
  frame : EthFrame
  value : Int

variable (e : Env c) (b : Bridge c) (f : EthFrame)

/-- The frame as it was, and a value. -/
def unchanged (value : Int) : Handled c := ⟨b, f, value⟩

/-- `__nat25_db_network_insert`, for the source of a frame. -/
def dbInsert (addr : NetworkAddr) : Bridge c :=
  { b with db := b.db.dbNetworkInsert e.jiffies e.mem f.src addr }

/-- `__nat25_db_network_lookup_and_replace`: the destination of the frame, and whether there was an
entry. -/
def dbLookup (addr : NetworkAddr) : Bridge c × EthFrame × Bool :=
  let r := b.db.dbNetworkLookupAndReplace e.jiffies f.dst addr
  ({ b with db := r.1 }, f.setDst r.2.1, r.2.2)

/-- `netdev_br_init`. -/
def netdevBrInit : Bridge c :=
  { b with
    brMac := if e.brPort then e.brDev.getD b.brMac else b.brMac
    ethBrExtInfo := { b.ethBrExtInfo with addPPPoETag := true } }

/-! ## 2. IP and ARP -/

/-- The header of an IP frame does not fit in it. -/
def malformedIp : Bool := f.len ≤ (f.bytes ethHlen).toNat % 16 * 4

def handleIp : Method → Handled c
  | .check => unchanged b f (-1)
  | .insert =>
    if malformedIp f then unchanged b f (-1)
    else if readBytes f.bytes (ethHlen + 12) 4 = [0, 0, 0, 0] then unchanged b f 0
    else ⟨dbInsert e b f (generateIpv4NetworkAddr f.bytes (ethHlen + 12)), f, 0⟩
  | .lookup =>
    if malformedIp f then unchanged b f (-1)
    else
      match dbLookup e b f (generateIpv4NetworkAddr f.bytes (ethHlen + 16)) with
      | (b, f, true) => ⟨b, f, 0⟩
      | (b, f, false) =>
        if f.bytes (ethHlen + 16 + 3) = 0xff then ⟨b, f.setDst bcAddr, 0⟩
        else
          let b := if b.brMac = zeroAddr then netdevBrInit e b else b
          ⟨b, f.setDst b.brMac, 0⟩

/-- `ar_hln` and `ar_pln`. -/
def arHln : Nat := (f.bytes (ethHlen + 4)).toNat

def arPln : Nat := (f.bytes (ethHlen + 5)).toNat

/-- `arp + 1`. -/
def arpPtr : Nat := ethHlen + 8

/-- `ar_pro` is not IP. -/
def unknownArp : Bool := be16 f.bytes (ethHlen + 2) ≠ ethPIp

def handleArp (m : Method) : Handled c :=
  if unknownArp f then unchanged b f (-1)
  else
    match m with
    | .check => unchanged b f 0
    | .insert =>
      let f := f.put arpPtr e.hwaddr.toBytes
      ⟨dbInsert e b f (generateIpv4NetworkAddr f.bytes (arpPtr + arHln f)), f, 0⟩
    | .lookup =>
      let target := arpPtr + arHln f + (arHln f + arPln f)
      match dbLookup e b f (generateIpv4NetworkAddr f.bytes target) with
      | (b, f, _) => ⟨b, f.put (arpPtr + (arHln f + arPln f)) f.dst.toBytes, 0⟩

/-! ## 3. IPX and AppleTalk -/

/-- The header that the part for IPX and AppleTalk finds, and where. -/
inductive Layer
  | ipx (at' : Nat)
  | aarp (at' : Nat)
  | ddp (at' : Nat)

/-- Which header there is; `none` where it returns -1. -/
def findLayer : Option Layer :=
  if f.protocol = ethPIpx ∨ f.has ethHlen [0xff, 0xff] then some (.ipx ethHlen)
  else if f.bytes ethHlen = 0xaa then
    if f.has (ethHlen + 3) [0, 0, 0, 0x81, 0x37] then some (.ipx (ethHlen + 8))
    else if f.has (ethHlen + 3) [0, 0, 0, 0x80, 0xf3] then some (.aarp (ethHlen + 8))
    else if f.has (ethHlen + 3) [8, 0, 7, 0x80, 0x9b] then some (.ddp (ethHlen + 8))
    else none
  else if f.bytes ethHlen = 0xe0 then
    if f.has (ethHlen + 3) [0xff, 0xff] then some (.ipx (ethHlen + 3)) else none
  else none

/-- `&ipx->ipx_dest` and `&ipx->ipx_source`: the network, the node and the socket. -/
def ipxDest (ipx : Nat) : Nat := ipx + 6

def ipxSource (ipx : Nat) : Nat := ipx + 18

/-- The source node of a frame is where it came from. -/
def ownNode (ipx : Nat) : Bool := f.has ethAlen (readBytes f.bytes (ipxSource ipx + 4) 6)

def handleIpx (ipx : Nat) : Method → Handled c
  | .check => unchanged b f (if ownNode f ipx then 0 else -1)
  | .insert =>
    let source := ipxSource ipx
    if ownNode f ipx then
      let addr := generateIpxNetworkAddrWithSocket f.bytes source (source + 10)
      let f := f.put (source + 4) e.hwaddr.toBytes
      ⟨dbInsert e b f addr, f, 0⟩
    else ⟨dbInsert e b f (generateIpxNetworkAddrWithNode f.bytes source (source + 4)), f, 0⟩
  | .lookup =>
    let dest := ipxDest ipx
    if f.has (dest + 4) e.hwaddr.toBytes then
      match dbLookup e b f (generateIpxNetworkAddrWithSocket f.bytes dest (dest + 10)) with
      | (b, f, _) => ⟨b, f.put (dest + 4) f.dst.toBytes, 0⟩
    else
      match dbLookup e b f (generateIpxNetworkAddrWithNode f.bytes dest (dest + 4)) with
      | (b, f, _) => ⟨b, f, 0⟩

/-- `hw_len` or `pa_len` are not what they should be. -/
def badAarp (ea : Nat) : Bool := f.bytes (ea + 4) ≠ 6 ∨ f.bytes (ea + 5) ≠ 4

def handleAarp (ea : Nat) (m : Method) : Handled c :=
  if badAarp f ea then unchanged b f (-1)
  else
    match m with
    | .check => unchanged b f 0
    | .insert =>
      let f := f.put (ea + 8) e.hwaddr.toBytes
      ⟨dbInsert e b f (generateAppleNetworkAddr f.bytes (ea + 15) (ea + 17)), f, 0⟩
    | .lookup =>
      match dbLookup e b f (generateAppleNetworkAddr f.bytes (ea + 25) (ea + 27)) with
      | (b, f, _) => ⟨b, f.put (ea + 18) f.dst.toBytes, 0⟩

def handleDdp (ddp : Nat) : Method → Handled c
  | .check => unchanged b f (-1)
  | .insert => ⟨dbInsert e b f (generateAppleNetworkAddr f.bytes (ddp + 6) (ddp + 9)), f, 0⟩
  | .lookup =>
    match dbLookup e b f (generateAppleNetworkAddr f.bytes (ddp + 4) (ddp + 8)) with
    | (b, f, _) => ⟨b, f, 0⟩

def handleIpxApple (m : Method) : Handled c :=
  match findLayer f with
  | some (.ipx ipx) => handleIpx e b f ipx m
  | some (.aarp ea) => handleAarp e b f ea m
  | some (.ddp ddp) => handleDdp e b f ddp m
  | none => unchanged b f (-1)

/-! ## 4. PPPoE -/

/-- The relay tag that a frame is given: the magic code, the client, and what it had itself. -/
def relayTag (old : List UInt8) : Mem :=
  overwrite e.stack 0 (htons pttRelaySid ++ htons (relayHead + old.length) ++ htons magicCode ++
    f.src.toBytes ++ old)

/-- The relay tag of the client is taken out; the frame, and the relay data. -/
def takeRelayTag : Option (EthFrame × List UInt8) :=
  match findPppoeTag f pttRelaySid with
  | none => some (f, [])
  | some p =>
    let oldTagLen := be16 f.bytes (p + 2)
    -- `tag_buf` has 40 bytes
    if 40 < oldTagLen + tagHdrLen + relayHead then none
    else (skbPullAndMerge f p (tagHdrLen + oldTagLen)).map fun g =>
      (setPppoeLength g (pppoeLength g + 2 ^ 16 - tagHdrLen - oldTagLen),
        readBytes f.bytes (p + tagHdrLen) oldTagLen)

/-- A PADI or a PADR is given the relay tag. -/
def insertRelayTag : Handled c :=
  match takeRelayTag f with
  | none => unchanged b f (-1)
  | some (g, old) =>
    match addPppoeTag g (relayTag e g old) with
    | none => ⟨b, g, -1⟩
    | some g => ⟨b, g, 0⟩

/-- `WAIT_TIME_PPPOE`. -/
def waitTimePppoe : Nat := 5

/-- A PADI or a PADR goes through as it is, for one client at a time. -/
def insertOneClient : Handled c :=
  if b.pppoeConnectionInProgress ≠ 0 ∧ f.src ≠ b.pppoeAddr then unchanged b f (-2)
  else
    ⟨{ b with
        pppoeAddr := if b.pppoeConnectionInProgress = 0 then f.src else b.pppoeAddr
        pppoeConnectionInProgress := waitTimePppoe }, f, 0⟩

/-- A session packet of a client. -/
def insertSession : Handled c :=
  let b := dbInsert e b f (generatePppoeNetworkAddr f.bytes 0 (ethHlen + 2))
  if !b.ethBrExtInfo.addPPPoETag ∧ b.pppoeConnectionInProgress ≠ 0 ∧ f.src = b.pppoeAddr then
    ⟨{ b with pppoeConnectionInProgress := 0 }, f, 0⟩
  else ⟨b, f, 0⟩

/-- The relay tag that a PADO or a PADS brings back: the client is read from it, and it is made what
the client sent. -/
def lookupRelayTag : Handled c :=
  match findPppoeTag f pttRelaySid with
  | none => unchanged b f (-1)
  | some p =>
    let tagLen := be16 f.bytes (p + 2)
    if be16 f.bytes p ≠ pttRelaySid ∨ tagLen < relayHead then unchanged b f (-1)
    else if be16 f.bytes (p + tagHdrLen) ≠ magicCode then unchanged b f (-1)
    else
      let f := f.setDst (readAddr f.bytes (p + tagHdrLen + magicCodeLen))
      let offset := if relayHead < tagLen then tagHdrLen else 0
      let len := tagHdrLen + relayHead - offset
      match skbPullAndMerge f (p + offset) len with
      | none => unchanged b f (-1)
      | some f =>
        let f := setPppoeLength f (pppoeLength f + 2 ^ 16 - len)
        if 0 < offset then ⟨b, f.put (p + 2) (htons (tagLen - relayHead)), 0⟩ else ⟨b, f, 0⟩

/-- A PADO or a PADS goes to the one client. -/
def lookupOneClient : Handled c :=
  if b.pppoeConnectionInProgress = 0 then unchanged b f (-1)
  else ⟨{ b with pppoeConnectionInProgress := waitTimePppoe }, f.setDst b.pppoeAddr, 0⟩

def handlePppoe : Method → Handled c
  | .check => unchanged b f (if pppoeSid f = 0 then 0 else 1)
  | .insert =>
    if pppoeSid f = 0 then
      if pppoeCode f = padiCode ∨ pppoeCode f = padrCode then
        if b.ethBrExtInfo.addPPPoETag then insertRelayTag e b f else insertOneClient b f
      else unchanged b f (-1)
    else insertSession e b f
  | .lookup =>
    if pppoeCode f = padoCode ∨ pppoeCode f = padsCode then
      if b.ethBrExtInfo.addPPPoETag then lookupRelayTag b f else lookupOneClient b f
    else if pppoeSid f ≠ 0 then
      match dbLookup e b f (generatePppoeNetworkAddr f.bytes ethAlen (ethHlen + 2)) with
      | (b, f, _) => ⟨b, f, 0⟩
    else unchanged b f (-1)

/-! ## 5. IPv6 -/

/-- `sizeof(struct ipv6hdr)`. -/
def ipv6HdrLen : Nat := 40

/-- `sizeof(*iph) >= (skb->len - ETH_HLEN)`, of 32 bits. -/
def malformedIpv6 : Bool := (f.len + 2 ^ 32 - ethHlen) % 2 ^ 32 ≤ ipv6HdrLen

/-- Behind the IPv6 header. -/
def icmp6 : Nat := ethHlen + ipv6HdrLen

/-- `icmp6_cksum` of a message that was changed; `payload_len` is read as it is stored. -/
def icmp6Checksum : EthFrame :=
  let payloadLen := le16 f.bytes (ethHlen + 4)
  let f := f.put (icmp6 + 2) [0, 0]
  let sum := e.csumIpv6Magic (readBytes f.bytes (ethHlen + 8) 16)
    (readBytes f.bytes (ethHlen + 24) 16) payloadLen 58
    (e.csumPartial (readBytes f.bytes icmp6 payloadLen))
  f.put (icmp6 + 2) [UInt8.ofNat sum.toNat, UInt8.ofNat (sum.toNat / 256)]

/-- The link-layer address in a message of neighbour discovery is made that of the adapter. -/
def replaceLinkLayerAddr : Option EthFrame :=
  -- `IPPROTO_ICMPV6`
  if f.bytes (ethHlen + 6) = 58 ∧ icmp6 + 4 < f.len then
    (updateNdLinkLayerAddr f icmp6 (f.len - icmp6) e.hwaddr).map fun r =>
      match r with
      | none => f
      | some g => icmp6Checksum e g
  else some f

def handleIpv6 (m : Method) : Option (Handled c) :=
  if malformedIpv6 f then some (unchanged b f (-1))
  else
    match m with
    | .check => some (unchanged b f (if isMcast f.dst then 0 else -1))
    | .insert =>
      if f.has (ethHlen + 8) (List.replicate 16 0) then some (unchanged b f 0)
      else
        let b := dbInsert e b f (generateIpv6NetworkAddr f.bytes (ethHlen + 8))
        (replaceLinkLayerAddr e f).map fun f => ⟨b, f, 0⟩
    | .lookup =>
      match dbLookup e b f (generateIpv6NetworkAddr f.bytes (ethHlen + 24)) with
      | (b, f, _) => some ⟨b, f, 0⟩

/-! ## 6. The function -/

/-- EAPOL and the frames of C-Media go through as they are. -/
def handlePlain : Method → Handled c
  | .check => unchanged b f (-1)
  | .insert => unchanged b f 0
  | .lookup => unchanged b f 0

/-- The parts of the function. -/
inductive Protocol
  | ip
  | arp
  | ipxApple
  | pppoe
  | plain
  | ipv6
  | other

/-- Which of them a frame goes to. -/
def part (hasIpx : Bool) : Protocol :=
  if f.protocol = ethPIp then .ip
  else if f.protocol = ethPArp then .arp
  else if hasIpx ∧ (f.protocol = ethPIpx ∨ f.protocol = ethPAtalk ∨ f.protocol = ethPAarp) then
    .ipxApple
  else if f.protocol = ethPPppDisc ∨ f.protocol = ethPPppSes then .pppoe
  else if f.protocol = ethPPae then .plain
  else if f.protocol = 0xe2ae ∨ f.protocol = 0xe2af then .plain
  else if f.protocol = ethPIpv6 then .ipv6
  else .other

/-- `nat25_db_handle`. -/
def nat25DbHandle (m : Method) : Option (Handled c) :=
  match part f e.hasIpx with
  | .ip => some (handleIp e b f m)
  | .arp => some (handleArp e b f m)
  | .ipxApple => some (handleIpxApple e b f m)
  | .pppoe => some (handlePppoe e b f m)
  | .plain => some (handlePlain b f m)
  | .ipv6 => handleIpv6 e b f m
  | .other => some (unchanged b f (-1))

end Nat25

end Rtl8723bs
