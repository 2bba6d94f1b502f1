/-
# The 802.11 header, as `include/wifi.h` reads it

A frame is read through a function from offsets to bytes, so the same accessors serve a frame
in a receive buffer, a frame being encrypted in place and a copy of either.  Every accessor is
the macro of the same name: a little-endian 16-bit load and a mask or a shift.
-/
import Mathlib.Algebra.Group.Int.Defs
import Mathlib.Algebra.Group.Nat.Defs
import Mathlib.Data.List.GetD

namespace Rtl8723bs

/-- Memory as the accessors see it: the byte at each offset from the frame's start. -/
abbrev Mem := Nat → UInt8

/-- `u8 addr[ETH_ALEN]`. -/
structure MacAddr where
  b0 : UInt8
  b1 : UInt8
  b2 : UInt8
  b3 : UInt8
  b4 : UInt8
  b5 : UInt8
deriving DecidableEq, Repr, Inhabited

def MacAddr.toBytes (a : MacAddr) : List UInt8 := [a.b0, a.b1, a.b2, a.b3, a.b4, a.b5]

/-- The address a zeroed structure holds. -/
def zeroAddr : MacAddr := ⟨0, 0, 0, 0, 0, 0⟩

/-- `bc_addr` of `rtw_get_stainfo`. -/
def bcAddr : MacAddr := ⟨0xff, 0xff, 0xff, 0xff, 0xff, 0xff⟩

/-- `IS_MCAST`. -/
def isMcast (da : MacAddr) : Bool := da.b0 &&& 0x01 ≠ 0

/-! ## 1. Loads and stores -/

/-- A little-endian 16-bit load. -/
def le16 (m : Mem) (off : Nat) : Nat := (m off).toNat + 256 * (m (off + 1)).toNat

/-- `Fin 6` counts the bytes of an address and of a packet number. -/
instance (priority := 2000) neZeroSix : @NeZero Nat Zero.ofOfNat0 6 := ⟨by decide⟩

/-- A little-endian 64-bit load. -/
def le64 (m : Mem) (off : Nat) : Nat :=
  le16 m off + 2 ^ 16 * le16 m (off + 2) + 2 ^ 32 * le16 m (off + 4) + 2 ^ 48 * le16 m (off + 6)

/-- A big-endian 16-bit load, `RTW_GET_BE16`. -/
def be16 (m : Mem) (off : Nat) : Nat := 256 * (m off).toNat + (m (off + 1)).toNat

def readAddr (m : Mem) (off : Nat) : MacAddr :=
  ⟨m off, m (off + 1), m (off + 2), m (off + 3), m (off + 4), m (off + 5)⟩

def readBytes (m : Mem) (off : Nat) : Nat → List UInt8
  | 0 => []
  | n + 1 => m off :: readBytes m (off + 1) n

@[simp] theorem length_readBytes (m : Mem) : ∀ (off n : Nat), (readBytes m off n).length = n
  | _, 0 => rfl
  | off, n + 1 => by simp [readBytes, length_readBytes m (off + 1) n]

theorem getD_readBytes (m : Mem) : ∀ {off n k : Nat}, k < n →
    (readBytes m off n).getD k 0 = m (off + k)
  | _, _ + 1, 0, _ => rfl
  | off, n + 1, k + 1, hk => by
    have ih : (readBytes m (off + 1) n).getD k 0 = m (off + 1 + k) := getD_readBytes m (by omega)
    rw [readBytes, List.getD_cons_succ, ih]
    congr 1
    omega

/-- Memory that agrees on the bytes read gives the same bytes. -/
theorem readBytes_congr {m m' : Mem} : ∀ {off n : Nat},
    (∀ i, off ≤ i → i < off + n → m' i = m i) → readBytes m' off n = readBytes m off n
  | _, 0, _ => rfl
  | off, n + 1, h => by
    rw [readBytes, readBytes, h off (Nat.le_refl off) (by omega),
      readBytes_congr (fun i hi hn => h i (by omega) (by omega))]

theorem readBytes_take (m : Mem) : ∀ (off : Nat) {i n : Nat}, i ≤ n →
    (readBytes m off n).take i = readBytes m off i
  | _, 0, _, _ => List.take_zero
  | off, i + 1, n + 1, h => by
    rw [readBytes, readBytes, List.take_succ_cons, readBytes_take m (off + 1) (by omega)]

theorem readBytes_drop (m : Mem) : ∀ (off i n : Nat),
    (readBytes m off n).drop i = readBytes m (off + i) (n - i)
  | _, 0, _ => rfl
  | off, i + 1, 0 => by rw [Nat.zero_sub]; rfl
  | off, i + 1, n + 1 => by
    rw [readBytes, List.drop_succ_cons, readBytes_drop m (off + 1) i n, Nat.add_sub_add_right,
      Nat.add_right_comm, Nat.add_assoc]

/-- The same bytes at two places. -/
theorem readBytes_shift {m m' : Mem} {off : Nat} (pframe : Nat) : ∀ {n i : Nat},
    (∀ x, i ≤ x → x < i + n → m' x = m (pframe + x)) → off = pframe + i →
      readBytes m' i n = readBytes m off n
  | 0, _, _, _ => rfl
  | n + 1, i, h, hoff => by
    subst hoff
    rw [readBytes, readBytes, h i (Nat.le_refl i) (by omega)]
    exact congrArg _ (readBytes_shift pframe (fun x hx hxn => h x (by omega) (by omega)) (by omega))

theorem readBytes_add (m : Mem) (off a b : Nat) :
    readBytes m off (a + b) = readBytes m off a ++ readBytes m (off + a) b := by
  have htake := readBytes_take m off (Nat.le_add_right a b)
  have hdrop := readBytes_drop m off a (a + b)
  rw [Nat.add_sub_cancel_left] at hdrop
  rw [← htake, ← hdrop, List.take_append_drop]

/-- A byte string read in one piece is read in two. -/
theorem readBytes_append {m : Mem} {off n : Nat} {a b : List UInt8} (h : readBytes m off n = a ++ b) :
    readBytes m off a.length = a ∧ readBytes m (off + a.length) b.length = b := by
  have hn : n = a.length + b.length := by
    rw [← length_readBytes m off n, h, List.length_append]
  constructor
  · have htake := readBytes_take m off (show a.length ≤ n by omega)
    rwa [h, List.take_left, eq_comm] at htake
  · have hdrop := readBytes_drop m off a.length n
    rwa [h, List.drop_left, hn, Nat.add_sub_cancel_left, eq_comm] at hdrop

/-- The bytes of a byte string that starts with a known one. -/
theorem readBytes_cons {m : Mem} {off n : Nat} {x : UInt8} {l : List UInt8}
    (h : readBytes m off n = x :: l) : m off = x ∧ readBytes m (off + 1) l.length = l := by
  cases n with
  | zero => exact absurd h (by simp [readBytes])
  | succ n =>
    have hl : (readBytes m (off + 1) n).length = n := length_readBytes m (off + 1) n
    rw [readBytes, List.cons.injEq] at h
    rw [← h.2, hl]
    exact ⟨h.1, rfl⟩

/-- A byte string over the bytes at `&m[off]`. -/
def overwrite (m : Mem) (off : Nat) (l : List UInt8) : Mem := fun x =>
  if off ≤ x ∧ x < off + l.length then l.getD (x - off) 0 else m x

theorem overwrite_of_lt {m : Mem} {off x : Nat} {l : List UInt8} (h : x < off) :
    overwrite m off l x = m x := by
  unfold overwrite
  rw [if_neg (by omega)]

theorem overwrite_of_le {m : Mem} {off x : Nat} {l : List UInt8} (h : off + l.length ≤ x) :
    overwrite m off l x = m x := by
  unfold overwrite
  rw [if_neg (by omega)]

/-- What was written is read back. -/
theorem readBytes_overwrite (m : Mem) (off : Nat) (l : List UInt8) :
    readBytes (overwrite m off l) off l.length = l := by
  apply List.ext_getElem
  · rw [length_readBytes]
  · intro k h₁ h₂
    have hread : (readBytes (overwrite m off l) off l.length).getD k 0
        = overwrite m off l (off + k) := getD_readBytes _ h₂
    rw [List.getD_eq_getElem _ _ h₁] at hread
    rw [hread]
    unfold overwrite
    rw [if_pos (by omega), Nat.add_sub_cancel_left, List.getD_eq_getElem _ _ h₂]

theorem overwrite_nil (m : Mem) (off : Nat) : overwrite m off [] = m := by
  funext x
  exact if_neg (by simp only [List.length_nil]; omega)

/-- Bytes stored one after the other. -/
theorem overwrite_cons (m : Mem) (off : Nat) (v : UInt8) (l : List UInt8) :
    overwrite (overwrite m off [v]) (off + 1) l = overwrite m off (v :: l) := by
  funext x
  simp only [overwrite, List.length_cons, List.length_nil]
  by_cases hfirst : x = off
  · rw [if_neg (by omega), if_pos (by omega), if_pos (by omega), hfirst, Nat.sub_self]
    rfl
  · by_cases hin : off + 1 ≤ x ∧ x < off + 1 + l.length
    · obtain ⟨k, rfl⟩ : ∃ k, x = off + 1 + k := ⟨x - (off + 1), by omega⟩
      have hk : off + 1 + k - off = k + 1 := by omega
      rw [if_pos hin, if_pos (by omega), hk, List.getD_cons_succ]
      congr 1
      omega
    · rw [if_neg hin, if_neg (by omega), if_neg (by omega)]

/-! ## 2. The frame control field -/

def wifiMgtType : Nat := 0x00
def wifiCtrlType : Nat := 0x04
def wifiDataType : Nat := 0x08
def wifiQosDataType : Nat := 0x88

/-- `GetToDs`, bit 8. -/
def getToDs (m : Mem) : Bool := le16 m 0 &&& 0x0100 ≠ 0
/-- `GetFrDs`, bit 9. -/
def getFrDs (m : Mem) : Bool := le16 m 0 &&& 0x0200 ≠ 0
/-- `GetMFrag`, bit 10. -/
def getMFrag (m : Mem) : Bool := le16 m 0 &&& 0x0400 ≠ 0
/-- `GetRetry`, bit 11. -/
def getRetry (m : Mem) : Bool := le16 m 0 &&& 0x0800 ≠ 0
/-- `GetPwrMgt`, bit 12. -/
def getPwrMgt (m : Mem) : Bool := le16 m 0 &&& 0x1000 ≠ 0
/-- `GetMData`, bit 13. -/
def getMData (m : Mem) : Bool := le16 m 0 &&& 0x2000 ≠ 0
/-- `GetPrivacy`, bit 14. -/
def getPrivacy (m : Mem) : Bool := le16 m 0 &&& 0x4000 ≠ 0
/-- `GetOrder`, bit 15. -/
def getOrder (m : Mem) : Bool := le16 m 0 &&& 0x8000 ≠ 0

/-- `get_tofr_ds`. -/
def getTofrDs (m : Mem) : Nat := 2 * (getToDs m).toNat + (getFrDs m).toNat

/-- `GetFrameType`, bits 2 and 3. -/
def getFrameType (m : Mem) : Nat := le16 m 0 &&& 0x000c

/-- `get_frame_sub_type`, bits 2 to 7. -/
def getFrameSubType (m : Mem) : Nat := le16 m 0 &&& 0x00fc

/-! ## 3. The rest of the header -/

/-- `WLAN_HDR_A3_LEN`. -/
def wlanHdrA3Len : Nat := 24

/-- `GetSequence`. -/
def getSequence (m : Mem) : Nat := le16 m 22 / 16
/-- `GetFragNum`. -/
def getFragNum (m : Mem) : Nat := le16 m 22 % 16

def getAddr1 (m : Mem) : MacAddr := readAddr m 4
def getAddr2 (m : Mem) : MacAddr := readAddr m 10
def getAddr3 (m : Mem) : MacAddr := readAddr m 16
def getAddr4 (m : Mem) : MacAddr := readAddr m 24

/-- `get_da`. -/
def getDa (m : Mem) : MacAddr := if getToDs m then getAddr3 m else getAddr1 m

/-- `get_sa`. -/
def getSa (m : Mem) : MacAddr :=
  match getToDs m, getFrDs m with
  | false, false => getAddr2 m
  | false, true => getAddr3 m
  | true, false => getAddr2 m
  | true, true => getAddr4 m

/-- `get_hdr_bssid`. -/
def getHdrBssid (m : Mem) : MacAddr :=
  match getToDs m, getFrDs m with
  | false, false => getAddr3 m
  | false, true => getAddr2 m
  | true, _ => getAddr1 m

/-- `GetPriority` of the QoS control field at `off`. -/
def getPriority (m : Mem) (off : Nat) : Nat := le16 m off % 16
/-- `GetAckpolicy`. -/
def getAckpolicy (m : Mem) (off : Nat) : Nat := le16 m off / 32 % 4
/-- `GetAMsdu`. -/
def getAMsdu (m : Mem) (off : Nat) : Nat := le16 m off / 128 % 2

/-! ## 4. Status codes -/

def statsSuccessful : Nat := 0
def statsFailure : Nat := 1
def statsCapFail : Nat := 10
def statsNoSuppAlg : Nat := 13
def statsOutOfAuthSeq : Nat := 14
def statsChallengeFail : Nat := 15
def statsUnableHandleSta : Nat := 17
def wlanStatusApUnable : Nat := 17
def wlanStatusInvalidIe : Nat := 40
def wlanStatusGroupCipherNotValid : Nat := 41
def wlanStatusPairwiseCipherNotValid : Nat := 42

/-! ## 5. Bounds of the fields -/

theorem le16_lt (m : Mem) (off : Nat) : le16 m off < 65536 := by
  have h0 := (m off).toNat_lt
  have h1 := (m (off + 1)).toNat_lt
  unfold le16
  omega

/-- A sequence number has twelve bits. -/
theorem getSequence_lt (m : Mem) : getSequence m < 4096 := by
  have := le16_lt m 22
  unfold getSequence
  omega

theorem getAMsdu_le_one (m : Mem) (off : Nat) : getAMsdu m off ≤ 1 := by
  unfold getAMsdu
  omega

end Rtl8723bs
