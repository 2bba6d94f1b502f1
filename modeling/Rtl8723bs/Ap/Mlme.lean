/-
# The stations of an access point

What the access point does with the management frames of its stations: `OnAuth`, `OnAssocReq`,
`OnDeAuth` and `OnDisassoc`, the aging of `expire_timeout_chk`, and the ways a station goes,
`ap_free_sta` and `rtw_free_stainfo`.  A station is an entry of the pool; while it
authenticates it is on `auth_list`, once it is associated on `asoc_list`, each with a counter
kept by hand, and its association ID is its index in `sta_aid`.

Every handler here does its own list surgery and its own counting, as the source does.  A
handler runs to its end before the next one starts.  The TIM and the sleeping stations are not
part of this.
-/
import Rtl8723bs.Ap.BssCap
import Rtl8723bs.Ie
import Rtl8723bs.Security.Algo
import Rtl8723bs.Security.Wep
import Rtl8723bs.Sta.Pool

namespace Rtl8723bs

/-! ## 1. The data -/

/-- `_FW_LINKED`. -/
def fwLinked : BitVec 32 := 0x00000001
/-- `WIFI_SLEEP_STATE`. -/
def wifiSleepState : BitVec 32 := 0x00000004
/-- `WIFI_FW_AUTH_NULL`. -/
def wifiFwAuthNull : BitVec 32 := 0x00000100
/-- `WIFI_FW_AUTH_STATE`. -/
def wifiFwAuthState : BitVec 32 := 0x00000200
/-- `WIFI_FW_AUTH_SUCCESS`. -/
def wifiFwAuthSuccess : BitVec 32 := 0x00000400
/-- `WIFI_STA_ALIVE_CHK_STATE`, the same bit. -/
def wifiStaAliveChkState : BitVec 32 := 0x00000400
/-- `WIFI_FW_ASSOC_STATE`. -/
def wifiFwAssocState : BitVec 32 := 0x00002000
/-- `WIFI_FW_ASSOC_SUCCESS`. -/
def wifiFwAssocSuccess : BitVec 32 := 0x00004000

/-- `_HW_STATE_AP_`, which is `WIFI_FW_AP_STATE` too. -/
def hwStateAp : Nat := 3

/-- `WPA_CIPHER_TKIP`. -/
def wpaCipherTkip : Nat := 8

/-- The fields of `struct sta_info` that the handlers read and write; `aid` is `cmn.aid`. -/
structure StaInfo where
  state : BitVec 32
  aid : Nat
  authSeq : Nat
  authalg : Nat
  chgTxt : List UInt8
  expireTo : Nat
  keepAliveTrycnt : Nat
  capab : StaCapab
deriving DecidableEq, Repr

/-- `_rtw_init_stainfo`: all zero. -/
def StaInfo.init : StaInfo where
  state := 0
  aid := 0
  authSeq := 0
  authalg := 0
  chgTxt := List.replicate 128 0
  expireTo := 0
  keepAliveTrycnt := 0
  capab := StaCapab.zero

/-- The settings of the access point. -/
structure ApConfig where
  bssid : MacAddr
  ssid : List UInt8
  dot11AuthAlgrthm : Dot11AuthAlgrthm
  dot11PrivacyAlgrthm : Nat
  /-- The first `dot11DefKeylen[i]` bytes of `dot11DefKey[i]`. -/
  wepKey : Nat → List UInt8
  /-- `rtw_access_ctrl`. -/
  accessCtrl : MacAddr → Bool
  wpaPsk : Nat
  wpaGroupCipher : Nat
  wpaPairwiseCipher : Nat
  wpa2GroupCipher : Nat
  wpa2PairwiseCipher : Nat
  /-- `wps_beacon_ie`: whether there is one, and its selected registrar. -/
  wpsBeacon : Option Bool
  authTo : Nat
  assocTo : Nat
  expireTo : Nat
  maxNumSta : Nat
  wifiSpec : Bool
  activeKeepAliveCheck : Bool

/-- The access point: the pool of stations, their entries, the two lists with their counters,
the table of association IDs and what the BSS counts. -/
structure Ap where
  cfg : ApConfig
  /-- `pmlmeinfo->state`. -/
  hwState : Nat
  pool : StaPool
  sta : StaId → StaInfo
  bss : Bss
  authList : List StaId
  authListCnt : Int
  asocList : List StaId
  asocListCnt : Int
  /-- `sta_aid`, from 0. -/
  staAid : Nat → Option StaId

/-! ## 2. Entries and lists -/

/-- Change the entry of a station. -/
def Ap.setSta (st : Ap) (psta : StaId) (f : StaInfo → StaInfo) : Ap :=
  { st with sta := Function.update st.sta psta (f (st.sta psta)) }

/-- `rtw_alloc_stainfo`: the entry is cleared, its flags with it. -/
def Ap.allocStainfo (st : Ap) (hwaddr : MacAddr) : Ap × Option StaId :=
  let r := st.pool.allocStainfo hwaddr
  match r.2 with
  | none => ({ st with pool := r.1 }, none)
  | some psta =>
    ({ st with
        pool := r.1
        sta := Function.update st.sta psta StaInfo.init
        bss := { st.bss with caps := st.bss.caps.wipe psta } },
      some psta)

/-- Off `auth_list`, if the station is on it. -/
def Ap.unlinkAuth (st : Ap) (psta : StaId) : Ap :=
  if psta ∈ st.authList then
    { st with
      authList := st.authList.filter (· ≠ psta)
      authListCnt := st.authListCnt - 1 }
  else st

/-- On `auth_list`, unless the station is on it. -/
def Ap.linkAuth (st : Ap) (psta : StaId) : Ap :=
  if psta ∈ st.authList then st
  else
    { st with
      authList := st.authList ++ [psta]
      authListCnt := st.authListCnt + 1 }

/-- Off `asoc_list`, if the station is on it. -/
def Ap.unlinkAsoc (st : Ap) (psta : StaId) : Ap :=
  if psta ∈ st.asocList then
    { st with
      asocList := st.asocList.filter (· ≠ psta)
      asocListCnt := st.asocListCnt - 1 }
  else st

/-- On `asoc_list`, unless the station is on it, and then with a fresh `expire_to`. -/
def Ap.linkAsoc (st : Ap) (psta : StaId) : Ap :=
  if psta ∈ st.asocList then st
  else
    { st.setSta psta (fun s => { s with expireTo := st.cfg.expireTo }) with
      asocList := st.asocList ++ [psta]
      asocListCnt := st.asocListCnt + 1 }

/-- The end of `rtw_free_stainfo`: the slot of the association ID, under its two tests. -/
def Ap.releaseAid (st : Ap) (psta : StaId) : Ap :=
  if st.hwState = hwStateAp then
    let aid := (st.sta psta).aid
    if aid > 0 ∧ st.staAid (aid - 1) = some psta then
      { st.setSta psta (fun s => { s with aid := 0 }) with
        staAid := Function.update st.staAid (aid - 1) none }
    else st
  else st

/-- `rtw_free_stainfo` of an entry. -/
def Ap.freeStainfo (st : Ap) (psta : StaId) : Ap :=
  let st := { st with pool := st.pool.freeStainfo (some psta) }
  let st := st.setSta psta fun s => { s with state := s.state &&& ~~~fwLinked }
  let st := st.unlinkAuth psta
  let st := st.setSta psta fun s => { s with expireTo := 0 }
  st.releaseAid psta

/-- `ap_free_sta`. -/
def Ap.apFreeSta (st : Ap) (psta : StaId) : Ap :=
  let st := st.setSta psta fun s => { s with state := s.state &&& ~~~fwLinked }
  let st := { st with bss := st.bss.capUpdateOnStaLeave psta }
  st.freeStainfo psta

/-- `ap_free_sta` of a station found on `asoc_list`, which is first taken off it. -/
def Ap.dropAsoc (st : Ap) (psta : StaId) : Ap :=
  if psta ∈ st.asocList then (st.unlinkAsoc psta).apFreeSta psta else st

/-! ## 3. `OnAuth` -/

/-- What `issue_auth` sends to a station. -/
structure AuthReply where
  ra : MacAddr
  alg : Nat
  seq : Nat
  status : Nat
  challenge : Option (List UInt8)
deriving DecidableEq, Repr

/-- `issue_auth`, for an entry. -/
def issueAuth (ra : MacAddr) (s : StaInfo) (status : Nat) : AuthReply :=
  let alg := if status ≠ statsSuccessful then 0 else s.authalg
  { ra := ra
    alg := alg
    seq := s.authSeq
    status := status
    challenge :=
      if s.authSeq = 2 ∧ s.state &&& wifiFwAuthState ≠ 0 ∧ alg ≠ 0 then some s.chgTxt else none }

/-- `WIFI_FW_AUTH_NULL` is traded for another state. -/
def StaInfo.trade (s : StaInfo) (old new : BitVec 32) : StaInfo :=
  { s with state := s.state &&& ~~~old ||| new }

/-- The frame as `OnAuth` reads it: decrypted in place if its Privacy bit is set. -/
def ApConfig.authFrame (cfg : ApConfig) (pframe : Mem) (len : Nat) : Mem :=
  if getPrivacy pframe then rtwWepDecrypt cfg.wepKey pframe len else pframe

/-- Where the fields of the body start: behind the IV if there is one. -/
def authOffset (pframe : Mem) : Nat := if getPrivacy pframe then 4 else 0

/-- `algorithm`. -/
def ApConfig.authAlgorithm (cfg : ApConfig) (pframe : Mem) (len : Nat) : Nat :=
  le16 (cfg.authFrame pframe len) (24 + authOffset pframe)

/-- `seq`. -/
def ApConfig.authSeq (cfg : ApConfig) (pframe : Mem) (len : Nat) : Nat :=
  le16 (cfg.authFrame pframe len) (24 + authOffset pframe + 2)

/-- `auth_mode`: 802.1X without WEP is open. -/
def ApConfig.authMode (cfg : ApConfig) : Dot11AuthAlgrthm :=
  if cfg.dot11AuthAlgrthm = .x8021 ∧ cfg.dot11PrivacyAlgrthm ≠ encWep40 ∧
      cfg.dot11PrivacyAlgrthm ≠ encWep104 then .open_
  else cfg.dot11AuthAlgrthm

/-- The challenge element, searched for at the offset it has behind an IV. -/
def ApConfig.challengeIe (cfg : ApConfig) (pframe : Mem) (len : Nat) : Option (Nat × Nat) :=
  rtwGetIe (cfg.authFrame pframe len) (24 + 4 + 6) 16 ((len : Int) - 24 - 6 - 4)

/-- The 128 bytes behind the head of the challenge element. -/
def ApConfig.challengeTxt (cfg : ApConfig) (pframe : Mem) (len p : Nat) : List UInt8 :=
  readBytes (cfg.authFrame pframe len) (p + 2) 128

/-- The two algorithms of `OnAuth`, for a frame with the right sequence number: the entry
after it, or the status of the rejection. -/
def ApConfig.authStep (cfg : ApConfig) (pframe : Mem) (len : Nat) (s : StaInfo) :
    Except Nat StaInfo :=
  let algorithm := cfg.authAlgorithm pframe len
  let seq := cfg.authSeq pframe len
  if algorithm = 0 ∧
      (cfg.authMode = .open_ ∨ cfg.authMode = .x8021 ∨ cfg.authMode = .auto) then
    if seq = 1 then
      .ok { s.trade wifiFwAuthNull wifiFwAuthSuccess with
        expireTo := cfg.assocTo
        authalg := algorithm }
    else .error statsOutOfAuthSeq
  else if seq = 1 then
    .ok { s.trade wifiFwAuthNull wifiFwAuthState with
      chgTxt := List.replicate 128 78
      authalg := algorithm
      authSeq := 2 }
  else if seq = 3 then
    match cfg.challengeIe pframe len with
    | none => .error statsChallengeFail
    | some (p, ieLen) =>
      if ieLen = 0 then .error statsChallengeFail
      else if cfg.challengeTxt pframe len p = s.chgTxt then
        .ok { s.trade wifiFwAuthState wifiFwAuthSuccess with expireTo := cfg.assocTo }
      else .error statsChallengeFail
  else .error statsOutOfAuthSeq

/-- `auth_fail`: the entry, if there is one, is freed; the reply goes to the sender. -/
def Ap.authFail (st : Ap) (pstat : Option StaId) (sa : MacAddr) (status : Nat) :
    Ap × Option AuthReply :=
  let st := match pstat with
    | none => st
    | some psta => st.freeStainfo psta
  (st, some ⟨sa, 0, 2, status, none⟩)

/-- The entry of the sender, or a new one, and on `auth_list` only. -/
def Ap.authEntry (st : Ap) (sa : MacAddr) : Ap × Option StaId :=
  match st.pool.getStainfo sa with
  | some psta => ((st.unlinkAsoc psta).linkAuth psta, some psta)
  | none =>
    let r := st.allocStainfo sa
    match r.2 with
    | none => (r.1, none)
    | some psta =>
      let st := r.1.setSta psta fun s =>
        { s with
          state := wifiFwAuthNull
          authSeq := 0 }
      (st.linkAuth psta, some psta)

/-- `pstat->expire_to` is set when a new exchange begins. -/
def StaInfo.beginAuth (s : StaInfo) (authTo : Nat) : StaInfo :=
  if s.authSeq = 0 then { s with expireTo := authTo } else s

/-- The end of `OnAuth`, for an accepted frame; `auth_seq` starts over once the station is
authenticated or associated. -/
def StaInfo.endAuth (s : StaInfo) : StaInfo :=
  if s.state &&& wifiFwAuthSuccess ≠ 0 ∨ s.state &&& wifiFwAssocSuccess ≠ 0 then
    { s with authSeq := 0 }
  else s

/-- `OnAuth` from the point where the sender has an entry. -/
def Ap.authExchange (st : Ap) (psta : StaId) (pframe : Mem) (len : Nat) : Ap × Option AuthReply :=
  let sa := getAddr2 pframe
  let seq := st.cfg.authSeq pframe len
  let st := st.setSta psta fun s => s.beginAuth st.cfg.authTo
  if (st.sta psta).authSeq + 1 ≠ seq then st.authFail (some psta) sa statsOutOfAuthSeq
  else
    match st.cfg.authStep pframe len (st.sta psta) with
    | .error status => st.authFail (some psta) sa status
    | .ok s =>
      let s := { s with authSeq := seq + 1 }
      (st.setSta psta fun _ => s.endAuth, some (issueAuth (st.pool.macAddr psta) s statsSuccessful))

/-- `OnAuth` of an authentication frame: the state after it and the reply. -/
def Ap.onAuth (st : Ap) (pframe : Mem) (len : Nat) : Ap × Option AuthReply :=
  if st.hwState % 4 ≠ hwStateAp then (st, none)
  else
    let sa := getAddr2 pframe
    let algorithm := st.cfg.authAlgorithm pframe len
    let authMode := st.cfg.authMode
    if (algorithm > 0 ∧ authMode = .open_) ∨ (algorithm = 0 ∧ authMode = .shared) then
      st.authFail none sa statsNoSuppAlg
    else if !st.cfg.accessCtrl sa then st.authFail none sa statsUnableHandleSta
    else
      let r := st.authEntry sa
      match r.2 with
      | none => r.1.authFail none sa statsUnableHandleSta
      | some psta => r.1.authExchange psta pframe len

/-! ## 4. `OnAssocReq` -/

/-- A (re)association request, with what the parsers of its elements find. -/
structure AssocReq where
  addr2 : MacAddr
  reassoc : Bool
  pktLen : Nat
  /-- `rtw_ieee802_11_parse_elems` does not fail. -/
  parsed : Bool
  capability : BitVec 16
  ssid : Option (List UInt8)
  /-- `rtw_ies_get_supported_rate`. -/
  rates : List UInt8
  /-- The RSN element: what `rtw_parse_wpa2_ie` reads, group and pairwise ciphers. -/
  rsnIe : Option (Option (Nat × Nat))
  /-- The WPA element: what `rtw_parse_wpa_ie` reads. -/
  wpaIe : Option (Option (Nat × Nat))
  wpsIe : Bool
  /-- `cap_info` of an HT capability element that is long enough. -/
  htCap : Option (BitVec 16)
  /-- `process_assoc_req_p2p_ie`; 0 without a P2P element and when not a group owner. -/
  p2pStatusCode : Nat
deriving Repr

/-- The WPA or RSN element that `rtw_ap_parse_sta_security_ie` looks at: what it says, and the
ciphers of the access point it is compared with. -/
def ApConfig.securityIe (cfg : ApConfig) (r : AssocReq) :
    Option (Option (Nat × Nat) × Nat × Nat) :=
  match cfg.wpaPsk.testBit 1, r.rsnIe with
  | true, some ie => some (ie, cfg.wpa2GroupCipher, cfg.wpa2PairwiseCipher)
  | _, _ =>
    match cfg.wpaPsk.testBit 0, r.wpaIe with
    | true, some ie => some (ie, cfg.wpaGroupCipher, cfg.wpaPairwiseCipher)
    | _, _ => none

/-- `rtw_ap_parse_sta_security_ie`: the status, and the pairwise ciphers in common. -/
def ApConfig.parseStaSecurityIe (cfg : ApConfig) (r : AssocReq) : Nat × Nat :=
  match cfg.securityIe r with
  | some (none, _, _) => (wlanStatusInvalidIe, 0)
  | some (some (group, pairwise), apGroup, apPairwise) =>
    let status :=
      if pairwise &&& apPairwise = 0 then wlanStatusPairwiseCipherNotValid
      else if group &&& apGroup = 0 then wlanStatusGroupCipherNotValid
      else statsSuccessful
    if status ≠ statsSuccessful then (status, pairwise &&& apPairwise)
    else if cfg.wpaPsk = 0 then (wlanStatusInvalidIe, pairwise &&& apPairwise)
    else (statsSuccessful, pairwise &&& apPairwise)
  | none =>
    -- `WLAN_STA_WPS` or `WLAN_STA_MAYBE_WPS` is set in any case
    if cfg.wpaPsk > 0 ∧ cfg.wpsBeacon = some false then (statsUnableHandleSta, 0)
    else (statsSuccessful, 0)

/-- `rtw_ap_parse_sta_capability`. -/
def StaCapab.parseCapability (c : StaCapab) (capability : BitVec 16) : StaCapab :=
  { c with
    shortPreamble := capability.getLsbD 5
    shortSlot := capability.getLsbD 10 }

/-- `rtw_ap_parse_sta_supported_rates` of at least one rate: a station without a rate above 22
is not an ERP station. -/
def StaCapab.parseSupportedRates (c : StaCapab) (rates : List UInt8) : StaCapab :=
  { c with nonErp := rates.all fun rate => (rate &&& 0x7f) ≤ 22 }

/-- `rtw_ap_parse_sta_ht_ie`, and that TKIP takes the HT flag away again. -/
def StaCapab.parseHtIe (c : StaCapab) (htOption : Bool) (htCap : Option (BitVec 16))
    (tkip : Bool) : StaCapab :=
  if htOption then
    match htCap with
    | some capInfo =>
      { c with
        ht := !tkip
        htCapInfo := capInfo }
    | none =>
      { c with
        ht := false
        htCapInfo := 0 }
  else { c with ht := false }

/-- The checks of `OnAssocReq` behind the state of the station, in their order: what is known
of the station then, and the status. -/
def Ap.assocChecks (st : Ap) (r : AssocReq) (c : StaCapab) : StaCapab × Nat :=
  if !r.parsed then (c, statsFailure)
  else
    let c := c.parseCapability r.capability
    if r.ssid = none ∨ r.ssid = some [] ∨ r.ssid ≠ some st.cfg.ssid then (c, statsFailure)
    else if r.rates = [] then (c, statsFailure)
    else
      let c := c.parseSupportedRates r.rates
      let sec := st.cfg.parseStaSecurityIe r
      if sec.1 ≠ statsSuccessful then (c, sec.1)
      else
        let c := c.parseHtIe st.bss.htOption r.htCap (sec.2 &&& wpaCipherTkip ≠ 0)
        if r.p2pStatusCode > 0 then (c, statsCapFail) else (c, statsSuccessful)

/-- Where the search for an association ID stops: at the first free slot, or behind the
table. -/
def Ap.findAid (st : Ap) : Nat :=
  match (List.range numSta).find? (fun i => st.staAid i = none) with
  | some i => i + 1
  | none => numSta + 1

/-- The association ID of a station: the one it has, or the first free one; `none` if that is
above `max_num_sta`. -/
def Ap.getAid (st : Ap) (psta : StaId) : Option Ap :=
  if (st.sta psta).aid > 0 then some st
  else
    let aid := st.findAid
    if aid > numSta then some (st.setSta psta fun s => { s with aid := aid })
    else if aid > st.cfg.maxNumSta then none
    else
      some { st.setSta psta (fun s => { s with aid := aid }) with
        staAid := Function.update st.staAid (aid - 1) (some psta) }

/-- `OnAssocReqFail`. -/
def Ap.assocFail (st : Ap) (psta : StaId) : Ap := st.setSta psta fun s => { s with aid := 0 }

/-- The station joins the BSS; `sta_info_update` sets `_FW_LINKED`. -/
def Ap.assocSuccess (st : Ap) (psta : StaId) : Ap :=
  let st := st.setSta psta fun s => s.trade wifiFwAssocState wifiFwAssocSuccess
  let st := st.unlinkAuth psta
  let st := st.linkAsoc psta
  let st := { st with bss := st.bss.capUpdateOnStaJoin psta (st.sta psta).capab }
  st.setSta psta fun s => { s with state := s.state ||| fwLinked }

/-- `OnAssocReq` from the point where the station is in `WIFI_FW_ASSOC_STATE`: the state after
it and whether the request is accepted. -/
def Ap.assocRequest (st : Ap) (psta : StaId) (r : AssocReq) : Ap × Bool :=
  let checks := st.assocChecks r (st.sta psta).capab
  let st := st.setSta psta fun s => { s with capab := checks.1 }
  if checks.2 ≠ statsSuccessful then (st.assocFail psta, false)
  else
    match st.getAid psta with
    | none => (st.assocFail psta, false)
    | some st => (st.assocSuccess psta, true)

/-- `IEEE80211_3ADDR_LEN + ie_offset`. -/
def AssocReq.minLen (r : AssocReq) : Nat := 24 + if r.reassoc then 10 else 4

/-- The station is authenticated or associated: the state `OnAssocReq` trades away. -/
def StaInfo.assocReady (s : StaInfo) : Option (BitVec 32) :=
  if s.state &&& wifiFwAuthSuccess ≠ 0 then some wifiFwAuthSuccess
  else if s.state &&& wifiFwAssocSuccess ≠ 0 then some wifiFwAssocSuccess
  else none

/-- `OnAssocReq`. -/
def Ap.onAssocReq (st : Ap) (r : AssocReq) : Ap × Bool :=
  if st.hwState % 4 ≠ hwStateAp then (st, false)
  else if r.pktLen < r.minLen then (st, false)
  else
    match st.pool.getStainfo r.addr2 with
    | none => (st, false)
    | some psta =>
      match (st.sta psta).assocReady with
      | none => (st, false)
      | some old => (st.setSta psta fun s => s.trade old wifiFwAssocState).assocRequest psta r

/-! ## 5. Leaving -/

/-- A deauthentication or disassociation frame, as far as it is read. -/
structure LeaveFrame where
  addr2 : MacAddr
  addr3 : MacAddr
deriving Repr

/-- What `OnDeAuth` and `OnDisassoc` have in common. -/
def Ap.onLeave (st : Ap) (f : LeaveFrame) : Ap :=
  if f.addr3 ≠ st.cfg.bssid then st
  else
    match st.pool.getStainfo f.addr2 with
    | none => st
    | some psta => st.dropAsoc psta

/-- `OnDeAuth` of an access point. -/
def Ap.onDeAuth (st : Ap) (f : LeaveFrame) : Ap := st.onLeave f

/-- `OnDisassoc` of an access point. -/
def Ap.onDisassoc (st : Ap) (f : LeaveFrame) : Ap := st.onLeave f

/-! ## 6. `expire_timeout_chk` -/

/-- One round of the first loop, for a station on `auth_list`. -/
def Ap.authTick (st : Ap) (psta : StaId) : Ap :=
  if (st.sta psta).expireTo > 0 then
    let st := st.setSta psta fun s => { s with expireTo := s.expireTo - 1 }
    if (st.sta psta).expireTo = 0 then (st.unlinkAuth psta).freeStainfo psta else st
  else st

/-- `psta->expire_to` of a station on `asoc_list`, one tick later. -/
def StaInfo.asocAge (s : StaInfo) (alive : Bool) (expireTo : Nat) : StaInfo :=
  if alive ∨ s.expireTo = 0 then
    { s with
      expireTo := expireTo
      keepAliveTrycnt := 0 }
  else { s with expireTo := s.expireTo - 1 }

/-- One round of the second loop, for a station on `asoc_list`; `alive` is
`chk_sta_is_alive`.  The result says whether the station goes on `chk_alive_list`. -/
def Ap.asocTick (st : Ap) (alive : Bool) (psta : StaId) : Ap × Bool :=
  let st := st.setSta psta fun s => s.asocAge alive st.cfg.expireTo
  let s := st.sta psta
  if s.expireTo > 0 then (st, false)
  else if st.cfg.wifiSpec then
    (st.setSta psta fun s => { s with expireTo := st.cfg.expireTo }, false)
  else if s.state &&& wifiSleepState ≠ 0 ∧ s.state &&& wifiStaAliveChkState = 0 then
    (st.setSta psta fun s =>
        { s with
          expireTo := st.cfg.expireTo
          state := s.state ||| wifiStaAliveChkState },
      st.cfg.activeKeepAliveCheck)
  else if st.cfg.activeKeepAliveCheck then (st, true)
  else ((st.unlinkAsoc psta).apFreeSta psta, false)

/-- One round of the third loop, for a station on `chk_alive_list`; `acked` is the answer to
`issue_nulldata`. -/
def Ap.keepAliveTick (st : Ap) (acked : Bool) (psta : StaId) : Ap :=
  if (st.sta psta).state &&& fwLinked = 0 then st
  else
    let st := st.setSta psta fun s => { s with keepAliveTrycnt := s.keepAliveTrycnt + 1 }
    if acked then
      st.setSta psta fun s =>
        { s with
          expireTo := st.cfg.expireTo
          keepAliveTrycnt := 0 }
    else if (st.sta psta).keepAliveTrycnt ≤ 3 then
      st.setSta psta fun s => { s with expireTo := 1 }
    else (st.setSta psta fun s => { s with keepAliveTrycnt := 0 }).dropAsoc psta

/-- The second loop of `expire_timeout_chk`, over the stations left to look at. -/
def Ap.asocTicks (alive : StaId → Bool) : List StaId → Ap → Ap × List StaId
  | [], st => (st, [])
  | psta :: l, st =>
    let r := st.asocTick (alive psta) psta
    let rest := Ap.asocTicks alive l r.1
    (rest.1, if r.2 then psta :: rest.2 else rest.2)

/-- `expire_timeout_chk`; `onChannel` is whether the keep-alive frames can be sent. -/
def Ap.expireTimeoutChk (st : Ap) (alive acked : StaId → Bool) (onChannel : Bool) : Ap :=
  let st := st.authList.foldl Ap.authTick st
  let r := Ap.asocTicks alive st.asocList st
  if onChannel then r.2.foldl (fun st psta => st.keepAliveTick (acked psta) psta) r.1 else r.1

/-! ## 7. What the stations can do -/

/-- `rtw_process_public_act_bsscoex`. -/
def Ap.processPublicActBsscoex (st : Ap) (f : BssCoex) : Ap :=
  match st.pool.getStainfo f.addr2 with
  | none => st
  | some psta => { st with bss := st.bss.processBsscoex psta f }

/-- `rtw_ap_check_scan`. -/
def Ap.apCheckScan (st : Ap) (legacySeen : Bool) : Ap :=
  { st with bss := st.bss.apCheckScan legacySeen }

end Rtl8723bs
