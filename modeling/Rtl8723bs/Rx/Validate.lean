/-
# Validating a received data frame

`validate_recv_data_frame` fills in the addresses, finds the station (`sta2sta_data_frame`,
`ap2sta_data_frame`, `sta2ap_data_frame`), reads the QoS field, drops duplicates
(`recv_decache`), looks at the CCMP packet number (`recv_ucast_pn_decache`,
`recv_bcast_pn_decache`) and last of all decides which cipher the frame is under.  Until then
`encrypt` is what the receive descriptor said.

The replay state it reads and writes is a `ReplayState`: the receive cache of each station and
the group packet numbers.
-/
import Mathlib.Logic.Function.Basic
import Rtl8723bs.Sta
import Rtl8723bs.Security.Algo
import Rtl8723bs.Rx.Frame

namespace Rtl8723bs

/-! ## 1. What validation reads -/

/-- The adapter, the stations and the ciphers in use. -/
structure RxEnv where
  adapter : Adapter
  stas : StaTable
  dot11AuthAlgrthm : Dot11AuthAlgrthm
  dot11PrivacyAlgrthm : Nat
  dot118021XGrpPrivacy : Nat
  /-- `psta->dot118021XPrivacy`. -/
  dot118021XPrivacy : StaId → Nat

/-- `GET_ENCRY_ALGO` for a station of the environment. -/
def getEncryAlgo (env : RxEnv) (psta : StaId) (encrypt : Nat) (bmcst : Bool) : Nat :=
  encryAlgo env.dot11AuthAlgrthm env.dot11PrivacyAlgrthm env.dot118021XGrpPrivacy
    (env.dot118021XPrivacy psta) encrypt bmcst

/-! ## 2. Finding the station -/

/-- What the three functions answer: the result, the frame, and `*psta`. -/
structure DataRoute where
  ret : RxStatus
  frame : RecvFrame
  psta : Option StaId

/-- In the test mode the addresses are taken as they stand in the header. -/
def mpAddresses (f : RecvFrame) : RecvFrame :=
  { f with attrib := { f.attrib with
      dst := getAddr1 f.mem, src := getAddr2 f.mem, bssid := getAddr3 f.mem
      ra := getAddr1 f.mem, ta := getAddr2 f.mem } }

/-- Is `pattrib->bssid` the network we are in? -/
def bssidMatches (a : Adapter) (f : RecvFrame) : Bool :=
  f.attrib.bssid ≠ zeroAddr ∧ a.bssid ≠ zeroAddr ∧ f.attrib.bssid = a.bssid

/-- `*psta` at the end of `sta2sta_data_frame`; a station that is not found fails the frame. -/
def sta2staLookup (env : RxEnv) (f : RecvFrame) (staAddr : Option MacAddr) : DataRoute :=
  let psta :=
    if isMcast f.attrib.dst then rtwGetBcmcStainfo env.stas
    else staAddr.bind (rtwGetStainfo env.stas)
  match psta with
  | none => ⟨.fail, f, none⟩
  | some i => ⟨.success, f, some i⟩

/-- `sta2sta_data_frame`. -/
def sta2staDataFrame (env : RxEnv) (f : RecvFrame) : DataRoute :=
  let a := env.adapter
  let bmcast := isMcast f.attrib.dst
  if checkFwstate a wifiAdhocState ∨ checkFwstate a wifiAdhocMasterState then
    if f.attrib.src = a.macAddr then ⟨.fail, f, none⟩
    else if f.attrib.dst ≠ a.macAddr ∧ !bmcast then ⟨.fail, f, none⟩
    else if !bssidMatches a f then ⟨.fail, f, none⟩
    else sta2staLookup env f (some f.attrib.src)
  else if checkFwstate a wifiStationState then
    if f.attrib.bssid ≠ f.attrib.src then ⟨.fail, f, none⟩
    else sta2staLookup env f (some f.attrib.bssid)
  else if checkFwstate a wifiApState then
    if bmcast then
      if !isMcast f.attrib.bssid then ⟨.fail, f, none⟩ else sta2staLookup env f none
    else if f.attrib.bssid ≠ f.attrib.dst then ⟨.fail, f, none⟩
    else sta2staLookup env f (some f.attrib.src)
  else if checkFwstate a wifiMpState then
    let psta :=
      if bmcast then rtwGetBcmcStainfo env.stas else rtwGetStainfo env.stas a.bssid
    match psta with
    | none => ⟨.fail, mpAddresses f, none⟩
    | some i => ⟨.success, mpAddresses f, some i⟩
  else ⟨.fail, f, none⟩

/-- `get_frame_sub_type(ptr) & BIT(6)`: a data frame without data. -/
def isNoData (f : RecvFrame) : Bool := getFrameSubType f.mem &&& 0x40 ≠ 0

/-- `ap2sta_data_frame`. -/
def ap2staDataFrame (env : RxEnv) (f : RecvFrame) : DataRoute :=
  let a := env.adapter
  let bmcast := isMcast f.attrib.dst
  if checkFwstate a wifiStationState ∧
      (checkFwstate a wifiAsocState ∨ checkFwstate a wifiUnderLinking) then
    if f.attrib.src = a.macAddr then ⟨.fail, f, none⟩
    else if f.attrib.dst ≠ a.macAddr ∧ !bmcast then ⟨.fail, f, none⟩
    else if !bssidMatches a f then ⟨.fail, f, none⟩
    else
      let psta :=
        if bmcast then rtwGetBcmcStainfo env.stas else rtwGetStainfo env.stas f.attrib.bssid
      match psta with
      | none => ⟨.fail, f, none⟩
      | some i => if isNoData f then ⟨.handled, f, some i⟩ else ⟨.success, f, some i⟩
  else if checkFwstate a wifiMpState ∧ checkFwstate a wifiAsocState then
    let f := mpAddresses f
    match rtwGetStainfo env.stas f.attrib.bssid with
    | none => ⟨.fail, f, none⟩
    | some i => ⟨.success, f, some i⟩
  else if checkFwstate a wifiApState then ⟨.handled, f, none⟩
  else ⟨.fail, f, none⟩

/-- `sta2ap_data_frame`.  The power-save bookkeeping it starts does not touch the frame. -/
def sta2apDataFrame (env : RxEnv) (f : RecvFrame) : DataRoute :=
  let a := env.adapter
  if checkFwstate a wifiApState then
    if f.attrib.bssid ≠ a.bssid then ⟨.fail, f, none⟩
    else
      match rtwGetStainfo env.stas f.attrib.src with
      | none => ⟨.handled, f, none⟩
      | some i => if isNoData f then ⟨.handled, f, some i⟩ else ⟨.success, f, some i⟩
  else if checkFwstate a wifiMpState ∧ checkFwstate a wifiAsocState then
    let f := mpAddresses f
    match rtwGetStainfo env.stas f.attrib.bssid with
    | none => ⟨.fail, f, none⟩
    | some i => ⟨.success, f, some i⟩
  else ⟨.handled, f, none⟩

/-- The addresses and the dispatch on `to_fr_ds`. -/
def dataRoute (env : RxEnv) (f : RecvFrame) : DataRoute :=
  let pda := getDa f.mem
  let psa := getSa f.mem
  let pbssid := getHdrBssid f.mem
  let withAddrs (ra ta : MacAddr) : RecvFrame :=
    { f with attrib := { f.attrib with dst := pda, src := psa, bssid := pbssid, ra, ta } }
  match f.attrib.toFrDs with
  | 0 => sta2staDataFrame env (withAddrs pda psa)
  | 1 => ap2staDataFrame env (withAddrs pda pbssid)
  | 2 => sta2apDataFrame env (withAddrs pbssid psa)
  | _ => ⟨.fail, withAddrs (getAddr1 f.mem) (getAddr2 f.mem), none⟩

/-! ## 3. Duplicates and packet numbers -/

/-- `struct stainfo_rxcache`; `iv` holds the last CCMP header of each TID, as one number. -/
structure StainfoRxcache where
  tidRxseq : Nat → Nat
  iv : Nat → Nat
  lastTid : Nat

structure ReplayState where
  rxcache : StaId → StainfoRxcache
  /-- `securitypriv.iv_seq`, the packet number of each group key. -/
  ivSeq : Nat → Nat

/-- The caches of stations nothing was received from, and no group packet numbers. -/
def ReplayState.init : ReplayState where
  rxcache := fun _ => ⟨fun _ => 0xffff, fun _ => 0, 0⟩
  ivSeq := fun _ => 0

/-- The `seq_ctrl` that `recv_decache` compares. -/
def seqCtrl (f : RecvFrame) : Nat :=
  ((f.attrib.seqNum &&& 0xffff) <<< 4 ||| (f.attrib.fragNum &&& 0xf)) % 65536

/-- `recv_decache`: `none` is `_FAIL`. -/
def recvDecache (f : RecvFrame) (prxcache : StainfoRxcache) : Option StainfoRxcache :=
  let tid := f.attrib.priority
  if 15 < tid then none
  else if seqCtrl f = prxcache.tidRxseq tid then none
  else some { prxcache with tidRxseq := Function.update prxcache.tidRxseq tid (seqCtrl f) }

/-- `CCMPH_2_PN`. -/
def ccmph2Pn (ch : Nat) : Nat :=
  (ch &&& 0x000000000000ffff) ||| ((ch &&& 0xffffffff00000000) >>> 16)

/-- `CCMPH_2_KEYID`. -/
def ccmph2Keyid (ch : Nat) : Nat := (ch &&& 0x00000000c0000000) >>> 30

/-- `PN_LESS_CHK(a, b)`: `((a - b) & 0x800000000000) != 0`, on `u64`s. -/
def pnLessChk (a b : Nat) : Bool :=
  (BitVec.ofNat 64 a - BitVec.ofNat 64 b) &&& 0x800000000000#64 ≠ 0#64

/-- `VALID_PN_CHK(new, old)`. -/
def validPnChk (new old : Nat) : Bool := old = 0 ∨ pnLessChk old new

/-- The eight bytes after the header. -/
def ccmpHdr (f : RecvFrame) : Nat := le64 f.mem f.attrib.hdrlen

/-- `recv_ucast_pn_decache`: `none` is `_FAIL`.  The `return _FAIL` of a packet number that
does not pass `VALID_PN_CHK` is commented out in the source. -/
def recvUcastPnDecache (f : RecvFrame) (prxcache : StainfoRxcache) : Option StainfoRxcache :=
  let tid := f.attrib.priority
  if 15 < tid then none
  else if f.attrib.encrypt ≠ encAes then some prxcache
  else
    let stored : StainfoRxcache :=
      { prxcache with lastTid := tid, iv := Function.update prxcache.iv tid (ccmpHdr f) }
    if !validPnChk (ccmph2Pn (ccmpHdr f)) (ccmph2Pn (prxcache.iv tid)) then
      -- `/* return _FAIL; */`
      some stored
    else some stored

/-- `recv_bcast_pn_decache`: `none` is `_FAIL`. -/
def recvBcastPnDecache (a : Adapter) (f : RecvFrame) (ivSeq : Nat → Nat) : Option (Nat → Nat) :=
  if f.attrib.encrypt ≠ encAes then some ivSeq
  else if !checkFwstate a wifiStationState then some ivSeq
  else
    let keyId := ccmph2Keyid (ccmpHdr f)
    let pktPn := ccmph2Pn (ccmpHdr f)
    let currPn := ivSeq keyId &&& 0x0000ffffffffffff
    if !validPnChk pktPn currPn then none
    else some (Function.update ivSeq keyId pktPn)

/-! ## 4. `validate_recv_data_frame` -/

/-- The QoS control field, and the header length. -/
def parseQc (f : RecvFrame) : RecvFrame :=
  let at_ := f.attrib
  let at_ :=
    if at_.qos = 1 then
      { at_ with
        priority := getPriority f.mem 24, ackPolicy := getAckpolicy f.mem 24
        amsdu := getAMsdu f.mem 24, hdrlen := if at_.toFrDs = 3 then 32 else 26 }
    else
      { at_ with
        priority := 0, ackPolicy := 0, amsdu := 0
        hdrlen := if at_.toFrDs = 3 then 30 else 24 }
  -- an HT control field comes last
  { f with attrib := if at_.order ≠ 0 then { at_ with hdrlen := at_.hdrlen + 4 } else at_ }

/-- The cipher the frame is under. -/
def setEncrypt (env : RxEnv) (psta : StaId) (f : RecvFrame) : RecvFrame :=
  if f.attrib.privacy ≠ 0 then
    let encrypt := getEncryAlgo env psta f.attrib.encrypt (isMcast f.attrib.ra)
    { f with attrib := { f.attrib with
        encrypt := encrypt, ivLen := (setIceIvLen encrypt).1, icvLen := (setIceIvLen encrypt).2 } }
  else { f with attrib := { f.attrib with encrypt := 0, ivLen := 0, icvLen := 0 } }

/-- What validation leaves behind: the result, the frame with its station, the replay state. -/
structure ValidateResult where
  ret : RxStatus
  frame : RecvFrame
  psta : Option StaId
  replay : ReplayState

/-- `validate_recv_data_frame`. -/
def validateRecvDataFrame (env : RxEnv) (s : ReplayState) (f : RecvFrame) : ValidateResult :=
  let route := dataRoute env f
  match route.ret, route.psta with
  | .fail, _ => ⟨.fail, route.frame, none, s⟩
  | .handled, _ => ⟨.handled, route.frame, none, s⟩
  | .success, none => ⟨.fail, route.frame, none, s⟩
  | .success, some psta =>
    let f := parseQc route.frame
    match recvDecache f (s.rxcache psta) with
    | none => ⟨.fail, f, some psta, s⟩
    | some cache =>
      let s := { s with rxcache := Function.update s.rxcache psta cache }
      if !isMcast f.attrib.ra then
        match recvUcastPnDecache f cache with
        | none => ⟨.fail, f, some psta, s⟩
        | some cache =>
          ⟨.success, setEncrypt env psta f, some psta,
            { s with rxcache := Function.update s.rxcache psta cache }⟩
      else
        match recvBcastPnDecache env.adapter f s.ivSeq with
        | none => ⟨.fail, f, some psta, s⟩
        | some ivSeq => ⟨.success, setEncrypt env psta f, some psta, { s with ivSeq := ivSeq }⟩

end Rtl8723bs
