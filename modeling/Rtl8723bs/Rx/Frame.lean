/-
# Received frames: `union recv_frame` and what is done to one frame

A `RecvFrame` is one entry of the receive pool with the data it carries: the attributes taken
from the descriptor and from the 802.11 header, and the buffer `rx_head .. rx_end` with the
frame at `rx_data .. rx_tail` in it.  The pool entries are told apart by `id`.

`wlanhdr_to_ethhdr`, the last step before a frame goes up, is here because it concerns one
frame only; the queues a frame travels through come in the modules after this one.
-/
import Rtl8723bs.Wifi

namespace Rtl8723bs

/-! ## 1. The adapter -/

/-- What the receive path reads of the adapter. -/
structure Adapter where
  bDriverStopped : Bool
  bSurpriseRemoved : Bool
  /-- `mlmepriv.fw_state`. -/
  fwState : Nat
  macAddr : MacAddr
  /-- The address of `mlmepriv.cur_network`, `get_bssid`. -/
  bssid : MacAddr
deriving DecidableEq, Repr, Inhabited

def wifiAsocState : Nat := 0x00000001
def wifiStationState : Nat := 0x00000008
def wifiApState : Nat := 0x00000010
def wifiAdhocState : Nat := 0x00000020
def wifiAdhocMasterState : Nat := 0x00000040
def wifiUnderLinking : Nat := 0x00000080
def wifiMpState : Nat := 0x00010000

/-- `check_fwstate`. -/
def checkFwstate (a : Adapter) (state : Nat) : Bool :=
  (state = 0 ∧ a.fwState = 0) ∨ a.fwState &&& state ≠ 0

/-- `RTW_CANNOT_RUN`. -/
def rtwCannotRun (a : Adapter) : Bool := a.bSurpriseRemoved || a.bDriverStopped

/-- The results of the receive functions: `_FAIL`, `_SUCCESS` and `RTW_RX_HANDLED`. -/
inductive RxStatus where
  | fail
  | success
  | handled
deriving DecidableEq, Repr

/-! ## 2. The frame -/

/-- `struct rx_pkt_attrib`. -/
structure RxPktAttrib where
  hdrlen : Nat
  toFrDs : Nat
  amsdu : Nat
  qos : Nat
  priority : Nat
  seqNum : Nat
  fragNum : Nat
  mfrag : Nat
  order : Nat
  privacy : Nat
  bdecrypted : Nat
  encrypt : Nat
  ivLen : Nat
  icvLen : Nat
  icvErr : Nat
  ackPolicy : Nat
  keyIndex : Nat
  ethType : Nat
  dst : MacAddr
  src : MacAddr
  ta : MacAddr
  ra : MacAddr
  bssid : MacAddr
deriving DecidableEq, Repr, Inhabited

/-- `union recv_frame`.  `rxData` and `rxTail` are offsets from `rx_head` into `buf`. -/
structure RecvFrame where
  id : Nat
  attrib : RxPktAttrib
  buf : List UInt8
  rxData : Nat
  rxTail : Nat
deriving DecidableEq, Repr, Inhabited

namespace RecvFrame

/-- `u.hdr.len`, which every `recvframe_*` call moves along with the two pointers. -/
def len (f : RecvFrame) : Nat := f.rxTail - f.rxData

/-- The frame as the header accessors see it, from `rx_data` on. -/
def mem (f : RecvFrame) : Mem := fun i => f.buf.getD (f.rxData + i) 0

/-- `_rtw_memcpy` to `rx_head + off`. -/
def memcpy (f : RecvFrame) (off : Nat) (bytes : List UInt8) : RecvFrame :=
  { f with buf := (f.buf.take off ++ bytes ++ f.buf.drop (off + bytes.length)).take f.buf.length }

/-- `recvframe_pull`. -/
def pull (f : RecvFrame) (sz : Int) : Option RecvFrame :=
  if (f.rxTail : Int) < f.rxData + sz then none
  else some { f with rxData := (f.rxData + sz).toNat }

/-- `recvframe_put`. -/
def put (f : RecvFrame) (sz : Nat) : Option RecvFrame :=
  if f.buf.length < f.rxTail + sz then none
  else some { f with rxTail := f.rxTail + sz }

/-- `recvframe_pull_tail`. -/
def pullTail (f : RecvFrame) (sz : Nat) : Option RecvFrame :=
  if f.rxTail < f.rxData + sz then none
  else some { f with rxTail := f.rxTail - sz }

/-- A call whose result the source does not look at: on failure the frame is as it was. -/
def orSelf (f : RecvFrame) (r : Option RecvFrame) : RecvFrame := r.getD f

end RecvFrame

/-! ## 3. `wlanhdr_to_ethhdr` -/

def rtwRfc1042Header : List UInt8 := [0xaa, 0xaa, 0x03, 0x00, 0x00, 0x00]
def rtwBridgeTunnelHeader : List UInt8 := [0xaa, 0xaa, 0x03, 0x00, 0x00, 0xf8]
def snapEthTypeIpx : List UInt8 := [0x81, 0x37]
def snapEthTypeAppletalkAarp : List UInt8 := [0x80, 0xf3]
def snapSize : Nat := 6
/-- `sizeof(struct ethhdr)`. -/
def ethHlen : Nat := 14

/-- Is there an encapsulation header to take off? -/
def bsnaphdr (m : Mem) (off : Nat) : Bool :=
  let psnap := readBytes m off snapSize
  let psnapType := readBytes m (off + snapSize) 2
  (psnap = rtwRfc1042Header ∧ psnapType ≠ snapEthTypeIpx ∧
    psnapType ≠ snapEthTypeAppletalkAarp) ∨ psnap = rtwBridgeTunnelHeader

/-- `htons` of a `u16`, as the two bytes stored. -/
def be16Bytes (n : Nat) : List UInt8 := [UInt8.ofNat (n / 256), UInt8.ofNat n]

/-- The Ethernet header is written at `off` from `rx_data`; without an encapsulation header the
type field carries the length. -/
def writeEthhdr (f : RecvFrame) (off : Nat) (snap : Bool) (len : Nat) : RecvFrame :=
  let f := f.memcpy (f.rxData + off) f.attrib.dst.toBytes
  let f := f.memcpy (f.rxData + off + 6) f.attrib.src.toBytes
  if snap then f else f.memcpy (f.rxData + off + 12) (be16Bytes len)

/-- `wlanhdr_to_ethhdr`: `none` is `_FAIL`. -/
def wlanhdrToEthhdr (a : Adapter) (f : RecvFrame) : Option RecvFrame :=
  let f := if f.attrib.encrypt ≠ 0 then f.orSelf (f.pullTail f.attrib.icvLen) else f
  let off := f.attrib.hdrlen + f.attrib.ivLen
  let snap := bsnaphdr f.mem off
  let rmvLen := off + if snap then snapSize else 0
  let len := (((f.len : Int) - rmvLen) % 65536).toNat
  let f := { f with attrib := { f.attrib with ethType := be16 f.mem rmvLen } }
  if checkFwstate a wifiMpState then
    -- the test mode stamps its own type and puts the descriptor before the packet
    let f := f.memcpy (f.rxData + rmvLen) [0x87, 0x12]
    match f.pull ((rmvLen : Int) - ethHlen + 2 - 24) with
    | none => none
    | some f => some (writeEthhdr (f.memcpy f.rxData (f.buf.take 24)) 24 snap len)
  else
    match f.pull ((rmvLen : Int) - ethHlen + if snap then 2 else 0) with
    | none => none
    | some f => some (writeEthhdr f 0 snap len)

/-! ## 4. What stays of a frame -/

/-- Two frames are the same pool entry with the same header attributes: only the bytes, the
pointers and the Ethernet type may differ. -/
def SameFrame (f g : RecvFrame) : Prop :=
  g.id = f.id ∧ g.attrib = { f.attrib with ethType := g.attrib.ethType }

theorem SameFrame.refl (f : RecvFrame) : SameFrame f f := ⟨rfl, rfl⟩

theorem SameFrame.trans {f g h : RecvFrame} (h₁ : SameFrame f g) (h₂ : SameFrame g h) :
    SameFrame f h := by
  obtain ⟨hid₁, hat₁⟩ := h₁
  obtain ⟨hid₂, hat₂⟩ := h₂
  refine ⟨hid₂.trans hid₁, ?_⟩
  rw [hat₁] at hat₂
  exact hat₂

theorem memcpy_same (f : RecvFrame) (off : Nat) (bytes : List UInt8) :
    SameFrame f (f.memcpy off bytes) := ⟨rfl, rfl⟩

theorem pull_same {f g : RecvFrame} {sz : Int} (h : f.pull sz = some g) : SameFrame f g := by
  unfold RecvFrame.pull at h
  split at h
  · cases h
  · cases h
    exact ⟨rfl, rfl⟩

theorem pullTail_same (f : RecvFrame) (sz : Nat) : SameFrame f (f.orSelf (f.pullTail sz)) := by
  unfold RecvFrame.orSelf RecvFrame.pullTail
  split <;> exact ⟨rfl, rfl⟩

theorem writeEthhdr_same (f : RecvFrame) (off : Nat) (snap : Bool) (len : Nat) :
    SameFrame f (writeEthhdr f off snap len) := by
  unfold writeEthhdr
  cases snap <;> exact ⟨rfl, rfl⟩

/-- **The conversion keeps the frame.**  Only its bytes and the Ethernet type change. -/
theorem wlanhdrToEthhdr_same {a : Adapter} {f g : RecvFrame} (h : wlanhdrToEthhdr a f = some g) :
    SameFrame f g := by
  have htail : SameFrame f
      (if f.attrib.encrypt ≠ 0 then f.orSelf (f.pullTail f.attrib.icvLen) else f) := by
    split
    · exact pullTail_same f _
    · exact SameFrame.refl f
  unfold wlanhdrToEthhdr at h
  generalize (if f.attrib.encrypt ≠ 0 then f.orSelf (f.pullTail f.attrib.icvLen) else f) = f₁
    at h htail
  simp only at h
  split at h
  · split at h
    · cases h
    · rename_i f₂ hpull
      cases h
      have h₁ := pull_same hpull
      exact htail.trans (SameFrame.trans ⟨rfl, rfl⟩ (h₁.trans (writeEthhdr_same _ _ _ _)))
  · split at h
    · cases h
    · rename_i f₂ hpull
      cases h
      have h₁ := pull_same hpull
      exact htail.trans (SameFrame.trans ⟨rfl, rfl⟩ (h₁.trans (writeEthhdr_same _ _ _ _)))

end Rtl8723bs
