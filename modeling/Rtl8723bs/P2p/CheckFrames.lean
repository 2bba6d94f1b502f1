/-
# Sent and received P2P action frames

`rtw_p2p_check_frames` looks at every action frame the supplicant sends and the driver passes up.
Of the frames of a GO negotiation it keeps a record: a Request starts it, a Response with the same
token from the same peer is the answer where state 0 says that one is due, and a Confirmation the end
where state 1 does.  `active` says which way the Request went; it is not looked at again.
-/
import Rtl8723bs.P2p.Attr

namespace Rtl8723bs

/-! ## 1. What is kept -/

/-- `struct rtw_wdev_nego_info`. -/
structure NegoInfo where
  state : UInt8
  ifaceAddr : MacAddr
  peerMac : MacAddr
  peerIfaceAddr : MacAddr
  active : UInt8
  token : UInt8
  status : UInt8
  reqIntent : UInt8
  reqOpCh : UInt8
  reqListenCh : UInt8
  rspIntent : UInt8
  rspOpCh : UInt8
  confOpCh : UInt8
deriving DecidableEq, Repr

/-- `rtw_wdev_nego_info_init`, which sets every field. -/
def rtwWdevNegoInfoInit : NegoInfo :=
  ⟨0xff, zeroAddr, zeroAddr, zeroAddr, 0xff, 0, 0xff, 0xff, 0, 0, 0xff, 0, 0⟩

/-- `struct rtw_wdev_invit_info`. -/
structure InvitInfo where
  state : UInt8
  peerMac : MacAddr
  groupBssid : MacAddr
  active : UInt8
  token : UInt8
  flags : UInt8
  status : UInt8
  reqOpCh : UInt8
  rspOpCh : UInt8
deriving DecidableEq, Repr

/-- `rtw_wdev_invit_info_init`, which sets every field. -/
def rtwWdevInvitInfoInit : InvitInfo := ⟨0xff, zeroAddr, zeroAddr, 0xff, 0, 0x00, 0xff, 0, 0⟩

/-- The fields of `struct rtw_wdev_priv` that the function works on. -/
structure WdevPriv where
  provdiscReqIssued : Bool
  invitInfo : InvitInfo
  negoInfo : NegoInfo
deriving DecidableEq, Repr

/-- As `rtw_wdev_alloc` leaves them. -/
def rtwWdevAlloc : WdevPriv := ⟨false, rtwWdevInvitInfoInit, rtwWdevNegoInfoInit⟩

/-! ## 2. Attributes and addresses of a frame -/

def p2pAttrStatus : UInt8 := 0x00
def p2pAttrGoIntent : UInt8 := 0x04
def p2pAttrListenCh : UInt8 := 0x06
def p2pAttrGroupBssid : UInt8 := 0x07
def p2pAttrIntendedIfAddr : UInt8 := 0x09
def p2pAttrGroupId : UInt8 := 0x0F
def p2pAttrOperatingCh : UInt8 := 0x11
def p2pAttrInvitationFlags : UInt8 := 0x12

/-- `*(cont + k)` where the search gives a content, and nothing (the `-1` of an `int`) where it gives
none. -/
def attrByte (m : Mem) (ie : Option (Nat × Nat)) (id : UInt8) (k : Nat) : Option (Option UInt8) :=
  (rtwGetP2pAttrContent m ie id).map fun cont => cont.map fun c => m (c.1 + k)

/-- The address in a content of six bytes. -/
def attrAddr (m : Mem) (ie : Option (Nat × Nat)) (id : UInt8) : Option (Option MacAddr) :=
  (rtwGetP2pAttrContent m ie id).map fun cont =>
    cont.bind fun c => if c.2 = 6 then some (readAddr m c.1) else none

/-- `tx ? GetAddr1Ptr(buf) : get_addr2_ptr(buf)`. -/
def peerOf (m : Mem) (tx : Bool) : MacAddr := if tx then getAddr1 m else getAddr2 m

/-! ## 3. The frames of a GO negotiation -/

/-- `rtw_p2p_nego_intent_compare`: whether the requester is GO. -/
def rtwP2pNegoIntentCompare (req resp : UInt8) : Bool :=
  if req >>> 1 = resp >>> 1 then req &&& 0x01 ≠ 0 else req >>> 1 > resp >>> 1

/-- The token, the state and the peer that a Response or a Confirmation is held against. -/
def NegoInfo.awaits (n : NegoInfo) (state token : UInt8) (peer : MacAddr) : Bool :=
  n.token = token ∧ n.state = state ∧ n.peerMac = peer

/-- `case P2P_GO_NEGO_REQ`. -/
def checkGoNegoReq (m : Mem) (ie : Option (Nat × Nat)) (tx : Bool) (dialogToken : UInt8)
    (n : NegoInfo) : Option NegoInfo := do
  let opCh ← attrByte m ie p2pAttrOperatingCh 4
  let listenCh ← attrByte m ie p2pAttrListenCh 4
  let intent ← attrByte m ie p2pAttrGoIntent 0
  let iaddr ← attrAddr m ie p2pAttrIntendedIfAddr
  let n := if n.token ≠ dialogToken then rtwWdevNegoInfoInit else n
  return { n with
    peerMac := peerOf m tx
    ifaceAddr := if tx then iaddr.getD n.ifaceAddr else n.ifaceAddr
    peerIfaceAddr := if tx then n.peerIfaceAddr else iaddr.getD n.peerIfaceAddr
    active := if tx then 1 else 0
    token := dialogToken
    reqOpCh := opCh.getD 0xff
    reqListenCh := listenCh.getD 0xff
    reqIntent := intent.getD 0
    state := 0 }

/-- `case P2P_GO_NEGO_RESP`. -/
def checkGoNegoResp (m : Mem) (ie : Option (Nat × Nat)) (tx : Bool) (dialogToken : UInt8)
    (n : NegoInfo) : Option NegoInfo := do
  let opCh ← attrByte m ie p2pAttrOperatingCh 4
  let intent ← attrByte m ie p2pAttrGoIntent 0
  let status ← attrByte m ie p2pAttrStatus 0
  let iaddr ← attrAddr m ie p2pAttrIntendedIfAddr
  if n.awaits 0 dialogToken (peerOf m tx) then
    return { n with
      ifaceAddr := if tx then iaddr.getD n.ifaceAddr else n.ifaceAddr
      peerIfaceAddr := if tx then n.peerIfaceAddr else iaddr.getD n.peerIfaceAddr
      status := status.getD 0xff
      rspOpCh := opCh.getD 0xff
      rspIntent := intent.getD 0
      state := 1
      token := if status ≠ some 0 then 0 else n.token }
  else return n

/-- `case P2P_GO_NEGO_CONF`, with `is_go`. -/
def checkGoNegoConf (m : Mem) (ie : Option (Nat × Nat)) (tx : Bool) (dialogToken : UInt8)
    (n : NegoInfo) : Option (NegoInfo × Bool) := do
  let opCh ← attrByte m ie p2pAttrOperatingCh 4
  let status ← attrByte m ie p2pAttrStatus 0
  if n.awaits 1 dialogToken (peerOf m tx) then
    let isGo := status = some 0 && (rtwP2pNegoIntentCompare n.reqIntent n.rspIntent ^^ !tx)
    return ({ n with
      status := status.getD 0xff
      confOpCh := opCh.getD 0
      state := 2
      token := 0 }, isGo)
  else return (n, false)

/-! ## 4. The other frames -/

/-- `case P2P_INVIT_REQ`. -/
def checkInvitReq (m : Mem) (ie : Option (Nat × Nat)) (tx : Bool) (dialogToken : UInt8)
    (v : InvitInfo) : Option InvitInfo := do
  let flags ← attrByte m ie p2pAttrInvitationFlags 0
  let opCh ← attrByte m ie p2pAttrOperatingCh 4
  let gbssid ← attrAddr m ie p2pAttrGroupBssid
  let v := if v.token ≠ dialogToken then rtwWdevInvitInfoInit else v
  return { v with
    peerMac := peerOf m tx
    groupBssid := gbssid.getD v.groupBssid
    active := if tx then 1 else 0
    token := dialogToken
    flags := flags.getD 0x0
    reqOpCh := opCh.getD 0xff
    state := 0 }

/-- `case P2P_INVIT_RESP`. -/
def checkInvitResp (m : Mem) (ie : Option (Nat × Nat)) (tx : Bool) (dialogToken : UInt8)
    (v : InvitInfo) : Option InvitInfo := do
  let status ← attrByte m ie p2pAttrStatus 0
  let opCh ← attrByte m ie p2pAttrOperatingCh 4
  let _gbssid ← attrAddr m ie p2pAttrGroupBssid
  if v.token = dialogToken ∧ v.state = 0 ∧ v.peerMac = peerOf m tx then
    return { v with
      status := status.getD 0xff
      rspOpCh := opCh.getD 0xff
      state := 1
      token := 0 }
  else return v

/-- `case P2P_PROVISION_DISC_REQ`: `provdisc_req_issued` afterwards. -/
def checkProvisionDiscReq (m : Mem) (ie : Option (Nat × Nat)) : Option Bool :=
  if ie.isSome then (rtwGetP2pAttrContent m ie p2pAttrGroupId).map Option.isNone else some false

/-! ## 5. `rtw_p2p_check_frames` -/

def rtwWlanCategoryPublic : UInt8 := 4
def rtwWlanCategoryP2p : UInt8 := 0x7f
def actPublicVendor : UInt8 := 9

def p2pGoNegoReq : UInt8 := 0
def p2pGoNegoResp : UInt8 := 1
def p2pGoNegoConf : UInt8 := 2
def p2pInvitReq : UInt8 := 3
def p2pInvitResp : UInt8 := 4
def p2pDevdiscResp : UInt8 := 6
def p2pProvisionDiscReq : UInt8 := 7

/-- What a call leaves: `is_p2p_frame`, the state, and `is_go` of a Confirmation. -/
structure CheckedFrame where
  isP2pFrame : Int
  priv : WdevPriv
  isGo : Bool

/-- The `switch` over `OUI_Subtype`. -/
def checkSubtype (m : Mem) (ie : Option (Nat × Nat)) (tx : Bool) (subtype dialogToken : UInt8)
    (w : WdevPriv) : Option (WdevPriv × Bool) := do
  if subtype = p2pGoNegoReq then
    let n ← checkGoNegoReq m ie tx dialogToken w.negoInfo
    return ({ w with negoInfo := n }, false)
  else if subtype = p2pGoNegoResp then
    let n ← checkGoNegoResp m ie tx dialogToken w.negoInfo
    return ({ w with
      negoInfo := n
      provdiscReqIssued := if tx then w.provdiscReqIssued else false }, false)
  else if subtype = p2pGoNegoConf then
    let (n, isGo) ← checkGoNegoConf m ie tx dialogToken w.negoInfo
    return ({ w with negoInfo := n }, isGo)
  else if subtype = p2pInvitReq then
    let v ← checkInvitReq m ie tx dialogToken w.invitInfo
    return ({ w with invitInfo := v }, false)
  else if subtype = p2pInvitResp then
    let v ← checkInvitResp m ie tx dialogToken w.invitInfo
    return ({ w with invitInfo := v }, false)
  else if subtype = p2pDevdiscResp then
    let _cont ← rtwGetP2pAttrContent m ie p2pAttrStatus
    return (w, false)
  else if subtype = p2pProvisionDiscReq then
    let issued ← checkProvisionDiscReq m ie
    return ({ w with provdiscReqIssued := issued }, false)
  else return (w, false)

/-- A 32-bit difference read as an `int`. -/
def int32 (n : Int) : Int := (n + 2 ^ 31) % 2 ^ 32 - 2 ^ 31

/-- `rtw_p2p_check_frames` on `len` bytes of `buf`; `none` where it does not come back. -/
def rtwP2pCheckFrames (buf : Mem) (len : Nat) (tx : Bool) (w : WdevPriv) : Option CheckedFrame :=
  let category := buf 24
  if category = rtwWlanCategoryPublic then
    if buf 25 = actPublicVendor ∧ readBytes buf 26 4 = p2pOui then do
      let ie := rtwGetP2pIe buf 32 (int32 ((len : Int) - 24 - 8))
      let (w, isGo) ← checkSubtype buf ie tx (buf 30) (buf 31) w
      return ⟨(buf 30).toNat, w, isGo⟩
    else some ⟨-1, w, false⟩
  else if category = rtwWlanCategoryP2p then some ⟨(buf 29).toNat, w, false⟩
  else some ⟨-1, w, false⟩

end Rtl8723bs
