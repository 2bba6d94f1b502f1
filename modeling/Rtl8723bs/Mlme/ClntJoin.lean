/-
# A station joins a network

A join runs through the states of `mlme_ext_info`: `start_clnt_join` waits for a beacon,
`start_clnt_auth` asks to be authenticated, `start_clnt_assoc` to be associated, and `link_timer`
asks again or gives up.  What comes of it is told by `report_join_res`.  Commands, frames and the
timer may come in any order.

Each handler is written here as it works on those fields and with what it sends and reports, and
`step` is one of them, run from its beginning to its end.
-/
import Rtl8723bs.Lib.Responder
import Rtl8723bs.Wifi

namespace Rtl8723bs

namespace ClntJoin

/-! ## 1. The fields of `mlme_ext_info` -/

def wifiFwNullState : BitVec 32 := 0x00000000
def wifiFwAdhocState : BitVec 32 := 0x00000001
def wifiFwStationState : BitVec 32 := 0x00000002
def wifiFwApState : BitVec 32 := 0x00000003
def wifiFwAuthNull : BitVec 32 := 0x00000100
def wifiFwAuthState : BitVec 32 := 0x00000200
def wifiFwAuthSuccess : BitVec 32 := 0x00000400
def wifiFwAssocState : BitVec 32 := 0x00002000
def wifiFwAssocSuccess : BitVec 32 := 0x00004000

def wifiFwLinkingState : BitVec 32 :=
  wifiFwAuthNull ||| wifiFwAuthState ||| wifiFwAuthSuccess ||| wifiFwAssocState

def reauthLimit : Nat := 4

def reassocLimit : Nat := 4

def maxIeSz : Nat := 768

/-- `dot11AuthAlgrthm_Open` and `dot11AuthAlgrthm_Shared`. -/
def dot11AuthAlgrthmOpen : Nat := 0
def dot11AuthAlgrthmShared : Nat := 1

/-- What a join works on.  `linkTimer` says whether the timer is set, `bssid` is
`network.MacAddress`. -/
structure MlmeInfo where
  state : BitVec 32
  authSeq : Nat
  authAlgo : Nat
  reauthCount : Nat
  reassocCount : Nat
  bssid : MacAddr
  linkTimer : Bool
  deriving DecidableEq

/-- `init_mlme_ext_priv_value`. -/
def initMlmeExt : MlmeInfo where
  state := wifiFwNullState
  authSeq := 0
  authAlgo := dot11AuthAlgrthmOpen
  reauthCount := 0
  reassocCount := 0
  bssid := zeroAddr
  linkTimer := false

/-- What goes out: the frames of a join, and the events for the command thread. -/
inductive Out where
  | auth (seq algo : Nat)
  | assocReq
  | deauth
  | joinRes (res : Int)
  | delSta
  deriving DecidableEq

/-- `state & mask`. -/
def MlmeInfo.has (s : MlmeInfo) (mask : BitVec 32) : Bool := s.state &&& mask ≠ 0

/-- `(state & 0x03) == WIFI_FW_STATION_STATE`. -/
def MlmeInfo.isStation (s : MlmeInfo) : Bool := s.state &&& 0x03 = wifiFwStationState

/-- `report_join_res`: the event reaches the queue where memory was found and the queue takes
it. -/
def reportJoinRes (ok : Bool) (res : Int) : List Out := if ok then [.joinRes res] else []

/-- `issue_auth` of a station: the algorithm number is 1 for a shared key. -/
def issueAuth (s : MlmeInfo) : Out :=
  .auth s.authSeq (if s.authAlgo = dot11AuthAlgrthmShared then 1 else 0)

/-! ## 2. The three starts -/

/-- `start_clnt_auth`. -/
def startClntAuth (s : MlmeInfo) : MlmeInfo × List Out :=
  let s := { s with
    state := s.state &&& ~~~wifiFwAuthNull ||| wifiFwAuthState
    authSeq := 1
    reauthCount := 0
    reassocCount := 0
    linkTimer := true }
  (s, [issueAuth s])

/-- `start_clnt_assoc`. -/
def startClntAssoc (s : MlmeInfo) : MlmeInfo × List Out :=
  ({ s with
    state := s.state &&& ~~~(wifiFwAuthNull ||| wifiFwAuthState) |||
      (wifiFwAuthSuccess ||| wifiFwAssocState)
    linkTimer := true }, [.assocReq])

/-- What a join command brings: the network's address, the length of its elements, its
capabilities, and whether `rtw_chk_start_clnt_join` finds a channel. -/
structure JoinParm where
  macAddress : MacAddr
  ieLength : Nat
  ess : Bool
  ibss : Bool
  channel : Bool
  deriving DecidableEq

/-- `start_clnt_join`. -/
def startClntJoin (s : MlmeInfo) (p : JoinParm) (ok : Bool) : MlmeInfo × List Out :=
  if p.ess then
    ({ s with state := wifiFwAuthNull ||| wifiFwStationState, linkTimer := true }, [])
  else if p.ibss then ({ s with state := wifiFwAdhocState }, reportJoinRes ok 1)
  else (s, [])

/-! ## 3. Commands -/

/-- The first lines of `join_cmd_hdl`: what is joined is left. -/
def leaveJoined (s : MlmeInfo) : MlmeInfo × List Out :=
  if s.has wifiFwAssocSuccess then
    ({ s with state := wifiFwNullState, linkTimer := false },
      if s.has wifiFwStationState then [.deauth] else [])
  else (s, [])

/-- The rest of `join_cmd_hdl`.  The address is copied before the length is looked at. -/
def joinNetwork (s : MlmeInfo) (p : JoinParm) (ok : Bool) : MlmeInfo × List Out :=
  let s := { s with bssid := p.macAddress }
  if maxIeSz < p.ieLength then (s, [])
  else if p.ieLength < 2 then (s, reportJoinRes ok (-4))
  else if p.channel = false then (s, reportJoinRes ok (-4))
  else startClntJoin { s with linkTimer := false } p ok

/-- `join_cmd_hdl`. -/
def joinCmdHdl (s : MlmeInfo) (p : JoinParm) (ok : Bool) : MlmeInfo × List Out :=
  ((joinNetwork (leaveJoined s).1 p ok).1,
    (leaveJoined s).2 ++ (joinNetwork (leaveJoined s).1 p ok).2)

/-- `disconnect_hdl` and `rtw_mlmeext_disconnect`. -/
def disconnectHdl (s : MlmeInfo) : MlmeInfo × List Out :=
  ({ s with state := wifiFwNullState, linkTimer := false },
    if s.has wifiFwAssocSuccess && s.isStation then [.deauth] else [])

inductive OpMode where
  | ap
  | infrastructure
  | other

/-- `setopmode_hdl`. -/
def setopmodeHdl (s : MlmeInfo) : OpMode → MlmeInfo
  | .ap => { s with state := wifiFwApState }
  | .infrastructure => { s with state := s.state &&& ~~~0x03 ||| wifiFwStationState }
  | .other => s

/-- `setauth_hdl`. -/
def setauthHdl (s : MlmeInfo) (mode : Nat) : MlmeInfo :=
  if mode < 4 then { s with authAlgo := mode } else s

/-! ## 4. Frames -/

/-- `receive_disconnect`.  Where the event could not be reported the state stays. -/
def receiveDisconnect (s : MlmeInfo) (mac : MacAddr) (ok : Bool) : MlmeInfo × List Out :=
  if mac = s.bssid then
    if s.isStation then
      if s.has wifiFwAssocSuccess then
        if ok then ({ s with state := wifiFwNullState }, [.delSta]) else (s, [])
      else if s.has wifiFwLinkingState then
        if ok then ({ s with state := wifiFwNullState }, reportJoinRes ok (-2)) else (s, [])
      else (s, [])
    else (s, [])
  else (s, [])

/-- A beacon: whether its length is valid, whether a scan is going on, its third address, the two
answers of the linking test, whether its sender is a known station, and whether
`rtw_check_bcn_info` finds the network as it was. -/
structure Beacon where
  valid : Bool
  scanning : Bool
  bssid : MacAddr
  waitDone : Bool
  forceFail : Bool
  known : Bool
  same : Bool

/-- `OnBeacon`. -/
def onBeacon (s : MlmeInfo) (b : Beacon) (ok : Bool) : MlmeInfo × List Out :=
  if b.valid = false then (s, [])
  else if b.scanning then (s, [])
  else if b.bssid = s.bssid then
    if s.has wifiFwAuthNull && b.waitDone then
      if b.forceFail then ({ s with linkTimer := true }, []) else startClntAuth s
    else if s.isStation && s.has wifiFwAssocSuccess then
      if b.known && !b.same then receiveDisconnect s s.bssid ok else (s, [])
    else (s, [])
  else (s, [])

/-- An authentication frame: whether it is for this station, its fields, and whether it has a
challenge. -/
structure AuthFrame where
  toMe : Bool
  seq : Nat
  status : Nat
  challenge : Bool

/-- `OnAuthClient`. -/
def onAuthClient (s : MlmeInfo) (f : AuthFrame) : MlmeInfo × List Out :=
  if f.toMe = false then (s, [])
  else if s.has wifiFwAuthState = false then (s, [])
  else if f.status ≠ 0 then
    let s := if f.status = 13 then
        { s with authAlgo :=
          if s.authAlgo = dot11AuthAlgrthmShared then dot11AuthAlgrthmOpen
          else dot11AuthAlgrthmShared }
      else s
    ({ s with linkTimer := true }, [])
  else if f.seq = 2 then
    if s.authAlgo = dot11AuthAlgrthmShared then
      if f.challenge then
        let s := { s with authSeq := 3, linkTimer := true }
        (s, [issueAuth s])
      else (s, [])
    else startClntAssoc s
  else if f.seq = 4 then
    if s.authAlgo = dot11AuthAlgrthmShared then startClntAssoc s else (s, [])
  else (s, [])

/-- An association response: whether it is for this station, its status and its association
number. -/
structure AssocFrame where
  toMe : Bool
  status : Nat
  aid : Nat

/-- `OnAssocRsp`. -/
def onAssocRsp (s : MlmeInfo) (f : AssocFrame) (ok : Bool) : MlmeInfo × List Out :=
  if f.toMe = false then (s, [])
  else if s.has (wifiFwAuthSuccess ||| wifiFwAssocState) = false then (s, [])
  else if s.has wifiFwAssocSuccess then (s, [])
  else if 0 < f.status then
    ({ s with state := wifiFwNullState, linkTimer := false }, reportJoinRes ok (-4))
  else
    ({ s with
      state := s.state &&& ~~~wifiFwAssocState ||| wifiFwAssocSuccess
      linkTimer := false }, reportJoinRes ok (f.aid % 2 ^ 14))

/-- A frame that ends the connection: whether it meets an access point, its third address, its
sender and its reason. -/
structure EndFrame where
  ap : Bool
  addr3 : MacAddr
  ta : MacAddr
  reason : Nat

/-- `WLAN_REASON_PREV_AUTH_NOT_VALID` and `WLAN_REASON_CLASS2_FRAME_FROM_NONAUTH_STA`. -/
def wlanReasonPrevAuthNotValid : Nat := 2
def wlanReasonClass2FrameFromNonauthSta : Nat := 6

/-- `OnDeAuth`: two reasons are ignored while the station asks to be let in. -/
def onDeAuth (s : MlmeInfo) (f : EndFrame) (ok : Bool) : MlmeInfo × List Out :=
  if f.addr3 = s.bssid then
    if f.ap then (s, [])
    else if (s.has wifiFwAuthState || s.has wifiFwAssocState) &&
        (f.reason = wlanReasonClass2FrameFromNonauthSta ||
          f.reason = wlanReasonPrevAuthNotValid) then (s, [])
    else receiveDisconnect s f.ta ok
  else (s, [])

/-- `OnDisassoc`. -/
def onDisassoc (s : MlmeInfo) (f : EndFrame) (ok : Bool) : MlmeInfo × List Out :=
  if f.addr3 = s.bssid then if f.ap then (s, []) else receiveDisconnect s f.ta ok else (s, [])

/-! ## 5. The timer -/

/-- `link_timer_hdl`. -/
def linkTimerHdl (s : MlmeInfo) (ok : Bool) : MlmeInfo × List Out :=
  if s.has wifiFwAuthNull then ({ s with state := wifiFwNullState }, reportJoinRes ok (-3))
  else if s.has wifiFwAuthState then
    if reauthLimit < s.reauthCount + 1 then
      ({ s with state := 0, reauthCount := s.reauthCount + 1 }, reportJoinRes ok (-1))
    else
      ({ s with reauthCount := s.reauthCount + 1, authSeq := 1, linkTimer := true },
        [issueAuth { s with authSeq := 1 }])
  else if s.has wifiFwAssocState then
    if reassocLimit < s.reassocCount + 1 then
      ({ s with state := wifiFwNullState, reassocCount := s.reassocCount + 1 },
        reportJoinRes ok (-2))
    else ({ s with reassocCount := s.reassocCount + 1, linkTimer := true }, [.assocReq])
  else (s, [])

/-- The timer goes off, if it is set. -/
def linkTimerFires (s : MlmeInfo) (ok : Bool) : MlmeInfo × List Out :=
  if s.linkTimer then linkTimerHdl { s with linkTimer := false } ok else (s, [])

/-! ## 6. Any of them -/

inductive Event where
  | join (p : JoinParm)
  | disconnect
  | opmode (mode : OpMode)
  | authAlgo (mode : Nat)
  | beacon (b : Beacon)
  | auth (f : AuthFrame)
  | assocRsp (f : AssocFrame)
  | deauth (f : EndFrame)
  | disassoc (f : EndFrame)
  | lost (mac : MacAddr)
  | timer

/-- An event, and whether what it reports reaches the queue.  `lost` is `receive_disconnect`, called
by what watches over the connection. -/
structure Input where
  event : Event
  ok : Bool

def step (s : MlmeInfo) (i : Input) : MlmeInfo × List Out :=
  match i.event with
  | .join p => joinCmdHdl s p i.ok
  | .disconnect => disconnectHdl s
  | .opmode mode => (setopmodeHdl s mode, [])
  | .authAlgo mode => (setauthHdl s mode, [])
  | .beacon b => onBeacon s b i.ok
  | .auth f => onAuthClient s f
  | .assocRsp f => onAssocRsp s f i.ok
  | .deauth f => onDeAuth s f i.ok
  | .disassoc f => onDisassoc s f i.ok
  | .lost mac => receiveDisconnect s mac i.ok
  | .timer => linkTimerFires s i.ok

end ClntJoin

end Rtl8723bs
