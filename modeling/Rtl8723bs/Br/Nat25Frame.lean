/-
# The frames that NAT2.5 reads and edits

A frame is the memory from `skb->data` on, what lies behind the frame included, its length and the
room behind it.  Words are read on a little-endian machine.  Here are the pieces of
`nat25_db_handle` that look at a frame or edit it: the network addresses, the tags of PPPoE
discovery, and the link-layer address options of neighbour discovery.
-/
import Rtl8723bs.Br.Nat25Db
import Rtl8723bs.Lib.ChainSearch

namespace Rtl8723bs

namespace Nat25

/-! ## 1. Frames -/

/-- An Ethernet frame, with `skb->len` and `skb_tailroom`. -/
@[ext]
structure EthFrame where
  bytes : Mem
  len : Nat
  tailroom : Nat

/-- `ETH_ALEN` and `ETH_HLEN`. -/
def ethAlen : Nat := 6

def ethHlen : Nat := 14

namespace EthFrame

def dst (f : EthFrame) : MacAddr := readAddr f.bytes 0

def src (f : EthFrame) : MacAddr := readAddr f.bytes ethAlen

/-- The `protocol` of a frame, in network order. -/
def protocol (f : EthFrame) : Nat := be16 f.bytes (2 * ethAlen)

/-- `memcpy` to `skb->data + off`. -/
def put (f : EthFrame) (off : Nat) (l : List UInt8) : EthFrame :=
  { f with bytes := overwrite f.bytes off l }

def setDst (f : EthFrame) (a : MacAddr) : EthFrame := f.put 0 a.toBytes

def setSrc (f : EthFrame) (a : MacAddr) : EthFrame := f.put ethAlen a.toBytes

/-- `memcmp(a, skb->data + off, n)`, when it is zero. -/
def has (f : EthFrame) (off : Nat) (l : List UInt8) : Bool := readBytes f.bytes off l.length == l

end EthFrame

/-- `htons`, as the bytes that are stored. -/
def htons (n : Nat) : List UInt8 := [UInt8.ofNat (n / 256), UInt8.ofNat n]

def ethPIp : Nat := 0x0800
def ethPArp : Nat := 0x0806
def ethPAarp : Nat := 0x80f3
def ethPAtalk : Nat := 0x809b
def ethP8021q : Nat := 0x8100
def ethPIpx : Nat := 0x8137
def ethPIpv6 : Nat := 0x86dd
def ethPPppDisc : Nat := 0x8863
def ethPPppSes : Nat := 0x8864
/-- `__constant_htons(0x888e)`. -/
def ethPPae : Nat := 0x888e

/-! ## 2. Network addresses -/

/-- An address of type `t`, all zero but for the bytes from `off` on. -/
def networkAddr (t : UInt8) (off : Nat) (l : List UInt8) : NetworkAddr :=
  Vector.ofFn fun i => if i.val = 0 then t else if off ≤ i.val then l.getD (i.val - off) 0 else 0

/-- `__nat25_generate_ipv4_network_addr`, of the IP address at `ipAddr`. -/
def generateIpv4NetworkAddr (m : Mem) (ipAddr : Nat) : NetworkAddr :=
  networkAddr nat25Ipv4 7 (readBytes m ipAddr 4)

/-- `__nat25_generate_ipx_network_addr_with_node`. -/
def generateIpxNetworkAddrWithNode (m : Mem) (ipxNetAddr ipxNodeAddr : Nat) : NetworkAddr :=
  networkAddr nat25Ipx 1 (readBytes m ipxNetAddr 4 ++ readBytes m ipxNodeAddr 6)

/-- `__nat25_generate_ipx_network_addr_with_socket`. -/
def generateIpxNetworkAddrWithSocket (m : Mem) (ipxNetAddr ipxSocketAddr : Nat) : NetworkAddr :=
  networkAddr nat25Ipx 1 (readBytes m ipxNetAddr 4 ++ readBytes m ipxSocketAddr 2)

/-- `__nat25_generate_apple_network_addr`. -/
def generateAppleNetworkAddr (m : Mem) (network node : Nat) : NetworkAddr :=
  networkAddr nat25Apple 1 (readBytes m network 2 ++ readBytes m node 1)

/-- `__nat25_generate_pppoe_network_addr`. -/
def generatePppoeNetworkAddr (m : Mem) (acMac sid : Nat) : NetworkAddr :=
  networkAddr nat25Pppoe 1 (readBytes m sid 2 ++ readBytes m acMac 6)

/-- `__nat25_generate_ipv6_network_addr`. -/
def generateIpv6NetworkAddr (m : Mem) (ipAddr : Nat) : NetworkAddr :=
  networkAddr nat25Ipv6 1 (readBytes m ipAddr 16)

/-! ## 3. PPPoE discovery

The PPPoE header is at `ETH_HLEN`: version and type, the code, the session, the length of the tags,
and the tags. -/

def pppoeCode (f : EthFrame) : Nat := (f.bytes (ethHlen + 1)).toNat

/-- `ph->sid`: it is only compared with zero. -/
def pppoeSid (f : EthFrame) : Nat := be16 f.bytes (ethHlen + 2)

/-- `ntohs(ph->length)`. -/
def pppoeLength (f : EthFrame) : Nat := be16 f.bytes (ethHlen + 4)

def setPppoeLength (f : EthFrame) (n : Nat) : EthFrame := f.put (ethHlen + 4) (htons n)

/-- Where `ph->tag` is. -/
def pppoeTags : Nat := ethHlen + 6

def padoCode : Nat := 0x07
def padiCode : Nat := 0x09
def padrCode : Nat := 0x19
def padsCode : Nat := 0x65

/-- `ntohs(PTT_RELAY_SID)`. -/
def pttRelaySid : Nat := 0x0110

def tagHdrLen : Nat := 4
def magicCode : Nat := 0x8186
def magicCodeLen : Nat := 2
def rtlRelayTagLen : Nat := 6

/-- What goes in front of the relay data of the client. -/
def relayHead : Nat := magicCodeLen + rtlRelayTagLen

/-- The loop of `__nat25_find_pppoe_tag`, over places from `ph->tag` on. -/
def tagChain (f : EthFrame) (type : Nat) : Chain where
  go off := off < pppoeLength f
  hit off := be16 f.bytes (pppoeTags + off) = type
  next off := off + tagHdrLen + be16 f.bytes (pppoeTags + off + 2)

/-- `__nat25_find_pppoe_tag`: where the tag lies in the frame.  A round goes up by `TAG_HDR_LEN` at
least, so there are rounds enough. -/
def findPppoeTag (f : EthFrame) (type : Nat) : Option Nat :=
  (((tagChain f type).search (pppoeLength f + 1) 0).join).map (pppoeTags + ·)

/-- `skb_pull_and_merge`: the bytes behind are moved down, over the `len` bytes at `src`. -/
def skbPullAndMerge (f : EthFrame) (src len : Nat) : Option EthFrame :=
  if f.len < src + len ∨ f.len < len then none
  else some { bytes := fun x => if src ≤ x ∧ x < f.len - len then f.bytes (x + len) else f.bytes x,
              len := f.len - len, tailroom := f.tailroom + len }

/-- `__nat25_add_pppoe_tag`; `tag_len` is read as it is stored, and not through `ntohs`. -/
def addPppoeTag (f : EthFrame) (tag : Mem) : Option EthFrame :=
  let dataLen := le16 tag 2 + tagHdrLen
  if f.tailroom < dataLen then none
  else
    let moved := readBytes f.bytes pppoeTags (pppoeLength f)
    let f := { f with len := f.len + dataLen, tailroom := f.tailroom - dataLen }
    let f := f.put (pppoeTags + dataLen) moved
    let f := setPppoeLength f (pppoeLength f + dataLen)
    some (f.put pppoeTags (readBytes tag 0 dataLen))

/-! ## 4. Neighbour discovery -/

/-- `scan_tlv`, over the options at `data`; `none` where it never ends, on an option of length
zero. -/
def scanTlv (m : Mem) (data len : Nat) (tag len8b : UInt8) : Option (Option Nat) :=
  let c : Chain :=
    { go := fun off => off < len
      hit := fun off => m (data + off) = tag ∧ m (data + off + 1) = len8b ∧
        len8b.toNat * 8 ≤ len - off
      next := fun off => off + (m (data + off + 1)).toNat * 8 }
  (c.search (len + 1) 0).map fun r => r.map (data + · + 2)

/-- The messages of neighbour discovery: where the options of one start, and which of them holds a
link-layer address. -/
def ndOptions (type : UInt8) : Option (Nat × UInt8) :=
  if type = 133 then some (8, 1)          -- NDISC_ROUTER_SOLICITATION
  else if type = 134 then some (16, 1)    -- NDISC_ROUTER_ADVERTISEMENT
  else if type = 135 then some (24, 1)    -- NDISC_NEIGHBOUR_SOLICITATION
  else if type = 136 then some (24, 2)    -- NDISC_NEIGHBOUR_ADVERTISEMENT
  else if type = 137 then some (40, 2)    -- NDISC_REDIRECT
  else none

/-- `update_nd_link_layer_addr`: the frame with the address replaced, if it was. -/
def updateNdLinkLayerAddr (f : EthFrame) (data len : Nat) (replaceMac : MacAddr) :
    Option (Option EthFrame) :=
  match ndOptions (f.bytes data) with
  | none => some none
  | some (off, tag) =>
    if len < off then some none
    else (scanTlv f.bytes (data + off) (len - off) tag 1).map fun mac =>
      mac.map fun mac => f.put mac replaceMac.toBytes

end Nat25

end Rtl8723bs
