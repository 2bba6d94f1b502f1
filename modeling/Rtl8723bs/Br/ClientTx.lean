/-
# Frames through the bridge port

`rtw_br_client_tx` makes a frame of a client one of the adapter's own, and `nat25_handle_frame`
finds the client again for a frame that came down.  Neither knows of VLAN tags: a tag is cut out
of the frame before, by moving the addresses up and the start of the frame with them, and is put
back after. A cache of one entry spares the way through the database. -/
import Rtl8723bs.Br.Nat25Handle
import Rtl8723bs.Lib.OverlapCopy

namespace Rtl8723bs

namespace Nat25

open HashList OverlapCopy

variable {c : Clock}

/-! ## 1. Socket buffers -/

/-- A frame and the bytes in front of it, the nearest first. -/
structure Skb where
  headroom : List UInt8
  frame : EthFrame

namespace Skb

/-- `skb_pull`. -/
def pull (s : Skb) (n : Nat) : Skb :=
  if s.frame.len < n then s
  else
    { headroom := (readBytes s.frame.bytes 0 n).reverse ++ s.headroom
      frame := { s.frame with bytes := fun x => s.frame.bytes (x + n), len := s.frame.len - n } }

/-- `skb_push`; there is headroom where it is called, for as much was pulled before. -/
def push (s : Skb) (n : Nat) : Skb :=
  { headroom := s.headroom.drop n
    frame :=
      { s.frame with
        bytes := fun x =>
          if x < n then s.headroom.getD (n - 1 - x) 0 else s.frame.bytes (x - n)
        len := s.frame.len + n } }

/-- The two bytes of a tag behind its type, as they stand in the frame. -/
abbrev VlanHdr := UInt8 × UInt8

/-- `vlan_hdr` is saved, the addresses are moved over the tag, and the frame starts behind. -/
def cutTag (s : Skb) : Skb × VlanHdr :=
  let m := s.frame.bytes
  ({ s with frame := { s.frame with bytes := copyDescending 2 4 0 6 m } }.pull 4, (m 14, m 15))

/-- The addresses are moved down, and the type and `vlan_hdr` are put behind them. -/
def restoreTag (s : Skb) (vlanHdr : VlanHdr) : Skb :=
  let s := s.push 4
  let m := copyAscending 2 0 4 6 s.frame.bytes
  let f : EthFrame := { s.frame with bytes := m }
  { s with frame := (f.put 12 (htons ethP8021q)).put 14 [vlanHdr.1, vlanHdr.2] }

/-- `is_vlan_tag`. -/
def isVlanTag (s : Skb) : Bool := s.frame.protocol = ethP8021q

/-- The frame without its tag, and the tag if it has one. -/
def takeTag (s : Skb) : Skb × Option VlanHdr :=
  if s.isVlanTag then (s.cutTag.1, some s.cutTag.2) else (s, none)

/-- A tag that was taken is put back. -/
def giveTag (s : Skb) : Option VlanHdr → Skb
  | some vlanHdr => s.restoreTag vlanHdr
  | none => s

def setFrame (s : Skb) (f : EthFrame) : Skb := { s with frame := f }

end Skb

/-- What the two functions leave: the state, the buffer and the value. -/
structure Passed (c : Clock) where
  bridge : Bridge c
  skb : Skb
  value : Int

/-! ## 2. DHCP -/

/-- The loop over the carries of a checksum. -/
def foldCarries (sum : Nat) : Nat :=
  if sum < 2 ^ 16 then sum else foldCarries (sum % 2 ^ 16 + sum / 2 ^ 16)
termination_by sum
decreasing_by omega

/-- `udph`, behind as much IP header as it says. -/
def udpHdr (f : EthFrame) : Nat := ethHlen + (f.bytes ethHlen).toNat % 16 * 4

/-- A request of a DHCP client that does not ask for a broadcast. -/
def plainDhcpRequest (f : EthFrame) : Bool :=
  let udph := udpHdr f
  let dhcph := udph + 8
  -- `IPPROTO_UDP`, `CLIENT_PORT`, `SERVER_PORT` and `DHCP_MAGIC`
  f.protocol = ethPIp ∧ f.bytes (ethHlen + 9) = 17 ∧ be16 f.bytes udph = 68 ∧
    be16 f.bytes (udph + 2) = 67 ∧ f.has (dhcph + 236) [0x63, 0x82, 0x53, 0x63] ∧
    f.bytes (dhcph + 10) &&& 0x80 = 0

/-- `dhcp_flag_bcast`. -/
def dhcpFlagBcast (b : Bridge c) (f : EthFrame) : EthFrame :=
  if !b.ethBrExtInfo.dhcpBcstDisable ∧ plainDhcpRequest f then
    let udph := udpHdr f
    let flags := udph + 8 + 10
    let f := f.put flags [f.bytes flags ||| 0x80]
    let sum := foldCarries (65535 - le16 f.bytes (udph + 6) + le16 f.bytes flags)
    let check := 65535 - sum
    f.put (udph + 6) [UInt8.ofNat check, UInt8.ofNat (check / 256)]
  else f

/-! ## 3. `rtw_br_client_tx` -/

variable (e : Env c) (b : Bridge c)

/-- The source IP address of a frame. -/
def srcIp (f : EthFrame) : Vector UInt8 4 :=
  #v[f.bytes (ethHlen + 12), f.bytes (ethHlen + 13), f.bytes (ethHlen + 14), f.bytes (ethHlen + 15)]

/-- `scdb_entry->ageing_timer = jiffies`. -/
def touchEntry (p : Ptr) : Bridge c :=
  { b with db := { b.db with
      tab := b.db.tab.setData p { b.db.tab.data p with ageingTimer := e.jiffies } } }

/-- `scdb_findEntry`, which does not look at the MAC address it is given. -/
def scdbFindEntry (ipAddr : NetworkAddr) : Option Ptr := b.db.findEntry ipAddr

/-- The cache takes the frame, and nothing else is looked at. -/
def scdbHit (f : EthFrame) : Option Ptr :=
  if !isMcast f.dst ∧ e.brPort ∧ f.src ≠ b.brMac ∧ f.protocol = ethPIp ∧ b.db.scdbMac = f.src then
    b.db.scdbEntry
  else none

/-- `br_ip`, from a frame of the bridge itself. -/
def learnBrIp (f : EthFrame) : Bridge c :=
  if f.src = b.brMac ∧ f.protocol = ethPIp then { b with brIp := srcIp f } else b

/-- The cache is asked for the source of an IP frame; whether the database has to be (`do_nat25`).
-/
def scdbLookup (f : EthFrame) : Bridge c × Bool :=
  if f.protocol ≠ ethPIp then (b, true)
  else if b.db.scdbMac ≠ f.src then
    match scdbFindEntry b (generateIpv4NetworkAddr f.bytes (ethHlen + 12)) with
    | some p =>
      (touchEntry e { b with db :=
        { b.db with scdbMac := f.src, scdbIp := srcIp f, scdbEntry := some p } } p, false)
    | none => ({ b with db := { b.db with scdbEntry := none } }, true)
  else
    match b.db.scdbEntry with
    | some p => (touchEntry e b p, false)
    | none =>
      ({ b with db := { b.db with scdbMac := zeroAddr, scdbIp := Vector.replicate 4 0 } }, true)

/-- The frame is made one of the adapter's own, and has its tag again. -/
def makeOwn (s : Skb) (tag : Option Skb.VlanHdr) : Skb :=
  (s.setFrame (dhcpFlagBcast b (s.frame.setSrc e.hwaddr))).giveTag tag

/-- How far the database has a frame: it may go on, or the function returns. -/
inductive Progress (c : Clock)
  | goOn (b : Bridge c) (s : Skb) (tag : Option Skb.VlanHdr)
  | done (o : Passed c)

/-- The frame was copied with its tag, and the tag is cut out of the copy. -/
def cutCopy (s : Skb) : Option Skb.VlanHdr → Skb × Option Skb.VlanHdr
  | some vlanHdr => ((s.restoreTag vlanHdr).cutTag.1, some (s.restoreTag vlanHdr).cutTag.2)
  | none => (s, none)

/-- The part for `do_nat25`.  The copy is made of the whole frame, with its tag; when the database
has no rule for it, the frame is let go as it is. -/
def throughDb (s : Skb) (tag : Option Skb.VlanHdr) : Option (Progress c) :=
  (nat25DbHandle e b s.frame .check).bind fun checked =>
    if checked.value = 0 ∧ !e.skbCopy then some (.done ⟨b, s.giveTag tag, -1⟩)
    else
      let (s, tag) := if checked.value = 0 then cutCopy s tag else (s, tag)
      if !e.skbLinearize then some (.done ⟨b, s, -1⟩)
      else
        (nat25DbHandle e b s.frame .insert).map fun h =>
          if h.value = -2 then .done ⟨h.bridge, s.setFrame h.frame, -1⟩
          else if h.value < 0 then .done ⟨h.bridge, s.setFrame h.frame, 0⟩
          else .goOn h.bridge (s.setFrame h.frame) tag

/-- A frame leaves under the address of the adapter only. -/
def checkSa (b : Bridge c) (s : Skb) : Passed c :=
  ⟨b, s, if s.frame.src ≠ e.hwaddr then -1 else 0⟩

/-- What is left to do for a frame that goes on. -/
def Progress.finish : Progress c → Passed c
  | .done o => o
  | .goOn b s tag => checkSa e b (makeOwn e b s tag)

/-- The way of a frame that the cache does not take. -/
def clientTxSlow (s : Skb) : Option (Passed c) :=
  let (s, tag) := s.takeTag
  let b := learnBrIp b s.frame
  let (b, doNat25) := scdbLookup e b s.frame
  (if doNat25 then throughDb e b s tag else some (.goOn b s tag)).map (Progress.finish e)

/-- `rtw_br_client_tx`. -/
def rtwBrClientTx (s : Skb) : Option (Passed c) :=
  match scdbHit e b s.frame with
  | some p => some (checkSa e (touchEntry e b p) (s.setFrame (s.frame.setSrc e.hwaddr)))
  | none => clientTxSlow e b s

/-! ## 4. `nat25_handle_frame` -/

/-- `memcmp(ip, skb->data + off, 4)`, when it is zero. -/
def hasIp (f : EthFrame) (off : Nat) (ip : Vector UInt8 4) : Bool := f.has off ip.toList

/-- The destination of a frame that came down, without its tag. -/
def handleDown (f : EthFrame) : Option (Handled c) :=
  if !b.ethBrExtInfo.nat25Disable then
    if !b.ethBrExtInfo.nat25scDisable ∧ f.protocol = ethPIp ∧
        hasIp f (ethHlen + 16) b.db.scdbIp then
      some ⟨b, f.setDst b.db.scdbMac, 0⟩
    else nat25DbHandle e b f .lookup
  else if (f.protocol = ethPIp ∧ hasIp f (ethHlen + 16) b.brIp) ∨
      (f.protocol = ethPArp ∧ hasIp f (ethHlen + 24) b.brIp) then
    nat25DbHandle e b f .lookup
  else some (unchanged b f 0)

/-- `nat25_handle_frame`. -/
def nat25HandleFrame (s : Skb) : Option (Passed c) :=
  if isMcast s.frame.dst then some ⟨b, s, 0⟩
  else
    let (s, tag) := s.takeTag
    (handleDown e b s.frame).map fun h =>
      ⟨h.bridge, (s.setFrame h.frame).giveTag tag, if h.value = -1 then -1 else 0⟩

end Nat25

end Rtl8723bs
