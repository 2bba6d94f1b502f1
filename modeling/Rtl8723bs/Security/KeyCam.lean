/-
# The key CAM

The hardware looks up keys in a table of entries, each with an address, a key ID, a bit for
group keys and the key.  The driver keeps a copy of the table, `cam_cache`, and a bitmap of the
entries in use, and decides which entry a key goes to: `rtw_camid_alloc` finds the entry of the
key, or a free one, `write_cam` fills it, `clear_cam_entry` and `rtw_camid_free` give it up.
`set_stakey_hdl` and `setkey_hdl` put these together for pairwise and for group keys.

The first four entries are the default keys, which an access point uses for its group keys,
with a zero address.  The driver is built without concurrent mode.
-/
import Rtl8723bs.Lib.Placement
import Rtl8723bs.Security.Algo
import Rtl8723bs.Wifi

namespace Rtl8723bs

open Placement

/-! ## 1. The table -/

/-- `struct sec_cam_ent`. -/
structure SecCamEnt where
  ctrl : BitVec 16
  mac : MacAddr
  key : List UInt8
deriving DecidableEq, Repr

/-- An entry of zeros. -/
def SecCamEnt.zero : SecCamEnt := ⟨0, zeroAddr, List.replicate 16 0⟩

/-- The key ID in `ctrl`. -/
def SecCamEnt.kid (ent : SecCamEnt) : Nat := (ent.ctrl &&& 0x0003).toNat

/-- The bit of group keys in `ctrl`. -/
def SecCamEnt.gk (ent : SecCamEnt) : Bool := ent.ctrl.getLsbD 6

/-- What tells keys apart: the address, the key ID and whether it is a group key. -/
structure KeyName where
  addr : MacAddr
  kid : Nat
  gk : Bool
deriving DecidableEq, Repr

/-- Whose key an entry has. -/
def SecCamEnt.name (ent : SecCamEnt) : KeyName := ⟨ent.mac, ent.kid, ent.gk⟩

/-- `cam_ctl`, `cam_cache` and the entries of the hardware.  `home` is not in the source: it
records where each key is that was written and not cleared since. -/
structure Cam where
  num : Nat
  /-- `sec_cap & SEC_CAP_CHK_BMC`. -/
  chkBmc : Bool
  /-- `flags & SEC_STATUS_STA_PK_GK_CONFLICT_DIS_BMC_SEARCH`. -/
  disBmcSearch : Bool
  used : Nat → Bool
  cache : Nat → SecCamEnt
  hw : Nat → SecCamEnt
  home : KeyName → Option Nat

/-- `invalidate_cam_all`. -/
def Cam.invalidateAll (c : Cam) : Cam :=
  { c with
    used := fun _ => false
    cache := fun _ => SecCamEnt.zero
    hw := fun _ => SecCamEnt.zero
    home := fun _ => none }

/-- `_rtw_sec_camid_is_used`. -/
def Cam.isUsed (c : Cam) (id : Nat) : Bool := decide (id < c.num) && c.used id

/-- `_rtw_camid_is_gk`. -/
def Cam.camidIsGk (c : Cam) (id : Nat) : Bool := c.isUsed id && (c.cache id).gk

/-- `write_cam`: the hardware and the copy. -/
def Cam.writeCam (c : Cam) (id : Nat) (ctrl : BitVec 16) (mac : MacAddr) (key : List UInt8) :
    Cam :=
  { c with
    cache := Function.update c.cache id ⟨ctrl, mac, key⟩
    hw := Function.update c.hw id ⟨ctrl, mac, key⟩
    home := Function.update c.home (SecCamEnt.name ⟨ctrl, mac, key⟩) (some id) }

/-- `clear_cam_entry`. -/
def Cam.clearCamEntry (c : Cam) (id : Nat) : Cam :=
  { c with
    cache := Function.update c.cache id SecCamEnt.zero
    hw := Function.update c.hw id SecCamEnt.zero
    home := vacate c.home id }

/-- `rtw_camid_set`. -/
def Cam.camidSet (c : Cam) (id : Nat) : Cam :=
  if id < c.num then { c with used := Function.update c.used id true } else c

/-- `rtw_camid_free`. -/
def Cam.camidFree (c : Cam) (id : Nat) : Cam :=
  if id < c.num then { c with used := Function.update c.used id false } else c

/-! ## 2. Finding an entry -/

/-- `cam_cache_chk`; `none` stands for an address, a key ID or a kind that does not matter. -/
def Cam.cacheChk (c : Cam) (id : Nat) (addr : Option MacAddr) (kid : Option Nat)
    (gk : Option Bool) : Bool :=
  addr.all (· = (c.cache id).mac) && kid.all (· = (c.cache id).kid) &&
    gk.all (· = c.camidIsGk id)

/-- `_rtw_camid_search`. -/
def Cam.camidSearch (c : Cam) (addr : Option MacAddr) (kid : Option Nat) (gk : Option Bool) :
    Option Nat :=
  (List.range c.num).find? fun i => c.cacheChk i addr kid gk

/-- `rtw_get_camid`: the entry of the key, or the first free one behind the default keys. -/
def Cam.getCamid (c : Cam) (pairwise : Bool) (addr : MacAddr) (kid : Nat) : Option Nat :=
  match c.camidSearch (some addr) (some kid) (if c.chkBmc then some !pairwise else none) with
  | some i => some i
  | none => (List.range c.num).find? fun i => decide (4 ≤ i) && !c.isUsed i

/-- `pmlmeinfo->state & 3`. -/
inductive NetRole
  | idle
  | adhoc
  | station
  | ap
deriving DecidableEq, Repr

/-- What the callers know of the network. -/
structure CamMode where
  role : NetRole
  /-- `state & WIFI_FW_ASSOC_SUCCESS`. -/
  assocSuccess : Bool
  bssid : MacAddr
  macAddr : MacAddr
deriving Repr

/-- An access point, or a station of an ad-hoc network. -/
def CamMode.master (m : CamMode) : Bool := m.role = .ap ∨ m.role = .adhoc

/-- Which entry `rtw_camid_alloc` takes; `sta` is the address of the station, if the key is a
pairwise one. -/
def Cam.pickCamid (c : Cam) (m : CamMode) (sta : Option MacAddr) (kid : Nat) : Option Nat :=
  match sta with
  | some addr => c.getCamid true addr kid
  | none =>
    if m.master then if kid > 3 then none else some kid
    else if m.assocSuccess then c.getCamid false m.bssid kid
    else none

/-- `rtw_camid_alloc`: the entry, and whether it is in use already. -/
def Cam.camidAlloc (c : Cam) (m : CamMode) (sta : Option MacAddr) (kid : Nat) :
    Cam × Option Nat × Bool :=
  match c.pickCamid m sta kid with
  | none => (c, none, false)
  | some id => ({ c with used := Function.update c.used id true }, some id, c.isUsed id)

/-! ## 3. Setting and clearing keys -/

/-- `while ((id = rtw_camid_search(addr, -1, gk)) >= 0)`, with both kinds of clearing in the
body; `none` if the loop goes on for more rounds than allowed. -/
def Cam.clearLoop (addr : MacAddr) (gk : Option Bool) : Nat → Cam → Option Cam
  | 0, c => if c.camidSearch (some addr) none gk = none then some c else none
  | n + 1, c =>
    match c.camidSearch (some addr) none gk with
    | none => some c
    | some id => Cam.clearLoop addr gk n ((c.clearCamEntry id).camidFree id)

/-- The loop; a round frees an entry, so more rounds than entries are an endless loop. -/
def Cam.clearKeys (c : Cam) (addr : MacAddr) (gk : Option Bool) : Option Cam :=
  Cam.clearLoop addr gk c.num c

/-- `is_wep_enc`. -/
def isWepEnc (algorithm : Nat) : Bool := algorithm = encWep40 ∨ algorithm = encWep104

/-- `struct set_stakey_parm`. -/
structure SetStakeyParm where
  algorithm : Nat
  keyid : Nat
  key : List UInt8
  addr : MacAddr
deriving Repr

/-- `struct setkey_parm`, without `set_tx`. -/
structure SetkeyParm where
  algorithm : Nat
  keyid : Nat
  key : List UInt8
deriving Repr

/-- `ctrl` of a pairwise key. -/
def stakeyCtrl (algorithm keyid : Nat) : BitVec 16 :=
  0x8000 ||| BitVec.ofNat 16 (algorithm <<< 2) ||| BitVec.ofNat 16 keyid

/-- `ctrl` of a group key. -/
def groupkeyCtrl (algorithm keyid : Nat) : BitVec 16 :=
  0x8000 ||| 0x0040 ||| BitVec.ofNat 16 (algorithm <<< 2) ||| BitVec.ofNat 16 keyid

/-- `set_stakey_hdl`; `sta` is the address in the entry that `rtw_get_stainfo` finds. -/
def Cam.setStakey (c : Cam) (m : CamMode) (p : SetStakeyParm) (sta : Option MacAddr) :
    Option Cam :=
  if p.algorithm = noPrivacy then c.clearKeys p.addr none
  else
    match sta with
    | none => some c
    | some addr =>
      let kid := if isWepEnc p.algorithm then p.keyid else 0
      let r := c.camidAlloc m (some addr) kid
      match r.2.1 with
      | none => some r.1
      | some camId =>
        let cleared :=
          if r.2.2 && r.1.camidIsGk camId then
            { r.1 with disBmcSearch := true }.clearKeys p.addr (some true)
          else some r.1
        cleared.map fun c =>
          c.writeCam camId (stakeyCtrl p.algorithm p.keyid) p.addr p.key

/-- The address `setkey_hdl` writes: zero in the entries of the default keys. -/
def CamMode.groupAddr (m : CamMode) (camId : Nat) : MacAddr :=
  if camId ≤ 3 then zeroAddr else if m.master then m.macAddr else m.bssid

/-- `setkey_hdl`; `sta` is what `rtw_get_stainfo` finds for the BSSID. -/
def Cam.setKey (c : Cam) (m : CamMode) (p : SetkeyParm) (sta : Option MacAddr) : Option Cam :=
  let r := c.camidAlloc m none p.keyid
  match r.2.1 with
  | none => some r.1
  | some camId =>
    let addr := m.groupAddr camId
    if r.2.2 && !r.1.camidIsGk camId then
      { r.1 with disBmcSearch := true }.clearKeys addr (some true)
    else
      let c := r.1.writeCam camId (groupkeyCtrl p.algorithm p.keyid) addr p.key
      if isWepEnc p.algorithm && decide (m.role = .station) && c.chkBmc then
        c.setStakey m ⟨p.algorithm, p.keyid, p.key, m.bssid⟩ sta
      else some c

/-! ## 4. Moving keys -/

/-- `rtw_sec_cam_swap`: both entries are remembered and cleared, and then written crosswise. -/
def Cam.secCamSwap (c : Cam) (a b : Nat) : Cam :=
  if a = b then c
  else
    let c₁ := if c.isUsed a then (c.camidFree a).clearCamEntry a else c
    let c₂ := if c.isUsed b then (c₁.camidFree b).clearCamEntry b else c₁
    let c₃ :=
      if c.isUsed a then
        (c₂.writeCam b (c.cache a).ctrl (c.cache a).mac (c.cache a).key).camidSet b
      else c₂
    if c.isUsed b then
      (c₃.writeCam a (c.cache b).ctrl (c.cache b).mac (c.cache b).key).camidSet a
    else c₃

/-- `rtw_get_empty_cam_entry`. -/
def Cam.getEmptyCamEntry (c : Cam) (start : Nat) : Option Nat :=
  (List.range c.num).find? fun i => decide (start ≤ i) && !c.isUsed i

/-- One round of `rtw_clean_dk_section`. -/
def Cam.cleanDk (c : Cam) (i : Nat) : Cam :=
  if c.isUsed i then
    match c.getEmptyCamEntry 4 with
    | some id => if id > 0 then c.secCamSwap i id else c
    | none => c
  else c

/-- `rtw_clean_dk_section`: what is in the entries of the default keys is moved behind them. -/
def Cam.cleanDkSection (c : Cam) : Cam := (List.range 4).foldl Cam.cleanDk c

end Rtl8723bs
