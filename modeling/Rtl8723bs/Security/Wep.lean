/-
# WEP, as `rtw_wep_decrypt` runs it

RC4 over the bytes behind the IV, under the first three bytes of the IV followed by the default
key that the IV's last byte selects.  The checksum is computed and looked at by nobody.
-/
import Rtl8723bs.Wifi

namespace Rtl8723bs

/-- `struct arc4context`. -/
structure Arc4Context where
  x : Nat
  y : Nat
  state : List UInt8

/-- One pass of the second loop of `arcfour_init`: the state, `stateindex` and `keyindex`. -/
def arcfourMix (key : List UInt8) (r : List UInt8 × Nat × Nat) (counter : Nat) :
    List UInt8 × Nat × Nat :=
  let t := r.1.getD counter 0
  let stateindex := (r.2.1 + (key.getD r.2.2 0).toNat + t.toNat) % 256
  let u := r.1.getD stateindex 0
  let keyindex := r.2.2 + 1
  ((r.1.set stateindex t).set counter u, stateindex,
    if keyindex ≥ key.length then 0 else keyindex)

/-- `arcfour_init`. -/
def arcfourInit (key : List UInt8) : Arc4Context :=
  ⟨0, 0, ((List.range 256).foldl (arcfourMix key)
    ((List.range 256).map UInt8.ofNat, 0, 0)).1⟩

/-- `arcfour_byte`: the next byte of the key stream. -/
def arcfourByte (c : Arc4Context) : UInt8 × Arc4Context :=
  let x := (c.x + 1) % 256
  let sx := c.state.getD x 0
  let y := (sx.toNat + c.y) % 256
  let sy := c.state.getD y 0
  let state := (c.state.set y sx).set x sy
  (state.getD ((sx.toNat + sy.toNat) % 256) 0, ⟨x, y, state⟩)

/-- `arcfour_encrypt`. -/
def arcfourEncrypt (c : Arc4Context) : List UInt8 → List UInt8
  | [] => []
  | b :: l => (b ^^^ (arcfourByte c).1) :: arcfourEncrypt (arcfourByte c).2 l

theorem length_arcfourEncrypt (c : Arc4Context) (l : List UInt8) :
    (arcfourEncrypt c l).length = l.length := by
  induction l generalizing c with
  | nil => rfl
  | cons b l ih => rw [arcfourEncrypt, List.length_cons, List.length_cons, ih]

/-- Decrypting is encrypting once more. -/
theorem arcfourEncrypt_arcfourEncrypt (c : Arc4Context) (l : List UInt8) :
    arcfourEncrypt c (arcfourEncrypt c l) = l := by
  induction l generalizing c with
  | nil => rfl
  | cons b l ih =>
    rw [arcfourEncrypt, arcfourEncrypt, ih, UInt8.xor_assoc, UInt8.xor_self, UInt8.xor_zero]

/-- `rtw_wep_decrypt` of a management frame: the header is 24 bytes and the IV 4.  `key i` is
the first `dot11DefKeylen[i]` bytes of `dot11DefKey[i]`. -/
def rtwWepDecrypt (key : Nat → List UInt8) (pframe : Mem) (len : Nat) : Mem :=
  let keyindex := (pframe (24 + 3)).toNat / 64 % 4
  let wepkey := readBytes pframe 24 3 ++ key keyindex
  let payload := readBytes pframe 28 (len - 24 - 4)
  overwrite pframe 28 (arcfourEncrypt (arcfourInit wepkey) payload)

/-- The bytes of a state in one number. -/
def packed (l : List UInt8) : Nat := l.foldr (fun b n => b.toNat + 256 * n) 0

/-- A byte of a packed state. -/
def packedGet (s i : Nat) : Nat := Nat.mod (Nat.shiftRight s (Nat.mul 8 i)) 256

/-- A packed state with another byte at a place. -/
def packedSet (s i v : Nat) : Nat :=
  Nat.sub (Nat.add s (Nat.shiftLeft v (Nat.mul 8 i))) (Nat.shiftLeft (packedGet s i) (Nat.mul 8 i))

theorem packedGet_packed (l : List UInt8) (i : Nat) :
    packedGet (packed l) i = (l.getD i 0).toNat := by
  have heq : ∀ s i, packedGet s i = s / 256 ^ i % 256 := fun s i => by
    rw [show (256 : Nat) = 2 ^ 8 from rfl, ← Nat.pow_mul, ← Nat.shiftRight_eq_div_pow]
    rfl
  rw [heq]
  induction l generalizing i with
  | nil => simp [packed]
  | cons b l ih =>
    have hb := b.toNat_lt
    have hcons : packed (b :: l) = b.toNat + 256 * packed l := rfl
    rw [hcons]
    cases i with
    | zero =>
      rw [Nat.pow_zero, Nat.div_one, List.getD_cons_zero]
      omega
    | succ i =>
      have hdiv : (b.toNat + 256 * packed l) / 256 = packed l := by omega
      rw [Nat.pow_succ, Nat.mul_comm (256 ^ i), ← Nat.div_div_eq_div_mul, hdiv, ih,
        List.getD_cons_succ]

theorem packedSet_packed {l : List UInt8} {i : Nat} (hi : i < l.length) (v : UInt8) :
    packedSet (packed l) i v.toNat = packed (l.set i v) := by
  have hset : packed l + v.toNat * 256 ^ i
      = packed (l.set i v) + (l.getD i 0).toNat * 256 ^ i := by
    induction l generalizing i with
    | nil => exact absurd hi (Nat.not_lt_zero i)
    | cons b l ih =>
      cases i with
      | zero =>
        simp only [packed, List.foldr_cons, List.set_cons_zero, List.getD_cons_zero, Nat.pow_zero]
        omega
      | succ i =>
        have h := ih (Nat.lt_of_succ_lt_succ hi)
        have hcons : ∀ b l, packed (b :: l) = b.toNat + 256 * packed l := fun _ _ => rfl
        rw [List.set_cons_succ, List.getD_cons_succ, hcons, hcons, Nat.pow_succ, ← Nat.mul_assoc,
          ← Nat.mul_assoc]
        omega
  have hshift : ∀ x, Nat.shiftLeft x (Nat.mul 8 i) = x * 256 ^ i := fun x => by
    rw [show (256 : Nat) = 2 ^ 8 from rfl, ← Nat.pow_mul]
    exact Nat.shiftLeft_eq x (8 * i)
  rw [packedSet, packedGet_packed, hshift, hshift]
  exact Nat.sub_eq_of_eq_add hset

/-- `arcfourMix` on a packed state. -/
def packedMix (key : List UInt8) (r : Nat × Nat × Nat) (counter : Nat) : Nat × Nat × Nat :=
  let t := packedGet r.1 counter
  let stateindex := (r.2.1 + (key.getD r.2.2 0).toNat + t) % 256
  let u := packedGet r.1 stateindex
  let keyindex := r.2.2 + 1
  (packedSet (packedSet r.1 stateindex t) counter u, stateindex,
    if keyindex ≥ key.length then 0 else keyindex)

theorem packedMix_packed (key : List UInt8) {r : List UInt8 × Nat × Nat} {counter : Nat}
    (hr : r.1.length = 256) (hc : counter < 256) :
    packedMix key (packed r.1, r.2) counter
      = (packed (arcfourMix key r counter).1, (arcfourMix key r counter).2) := by
  have hindex : (r.2.1 + (key.getD r.2.2 0).toNat + (r.1.getD counter 0).toNat) % 256
      < r.1.length := by
    rw [hr]
    exact Nat.mod_lt _ (by decide)
  simp only [packedMix, arcfourMix, packedGet_packed, packedSet_packed hindex]
  rw [packedSet_packed (by rw [List.length_set, hr]; exact hc)]

theorem packedMix_run (key : List UInt8) {l : List Nat} {r : List UInt8 × Nat × Nat}
    (hr : r.1.length = 256) (hl : ∀ c ∈ l, c < 256) :
    l.foldl (packedMix key) (packed r.1, r.2)
      = (packed (l.foldl (arcfourMix key) r).1, (l.foldl (arcfourMix key) r).2)
    ∧ (l.foldl (arcfourMix key) r).1.length = 256 := by
  induction l generalizing r with
  | nil => exact ⟨rfl, hr⟩
  | cons c l ih =>
    have hnext : (arcfourMix key r c).1.length = 256 := by
      simp only [arcfourMix, List.length_set, hr]
    rw [List.foldl_cons, List.foldl_cons, packedMix_packed key hr (hl c List.mem_cons_self)]
    exact ih hnext fun d hd => hl d (List.mem_cons_of_mem c hd)

/-- The bytes of a packed state. -/
def unpacked (s : Nat) : List UInt8 := (List.range 256).map fun i => UInt8.ofNat (packedGet s i)

theorem unpacked_packed {l : List UInt8} (hl : l.length = 256) : unpacked (packed l) = l := by
  apply List.ext_getElem
  · rw [unpacked, List.length_map, List.length_range, hl]
  · intro i h1 h2
    simp only [unpacked, List.getElem_map, List.getElem_range, packedGet_packed,
      UInt8.ofNat_toNat]
    exact List.getD_eq_getElem l 0 h2

/-- **`arcfour_init` with the state as one number**, which the kernel computes at once. -/
theorem arcfourInit_packed (key : List UInt8) : arcfourInit key = ⟨0, 0, unpacked
    ((List.range 256).foldl (packedMix key) (packed ((List.range 256).map UInt8.ofNat), 0, 0)).1⟩ := by
  have hrun := packedMix_run key (l := List.range 256)
    (r := ((List.range 256).map UInt8.ofNat, 0, 0)) (by rw [List.length_map, List.length_range])
    fun _ hc => List.mem_range.mp hc
  rw [hrun.1, unpacked_packed hrun.2]
  rfl

end Rtl8723bs
