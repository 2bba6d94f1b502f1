/-
# The elements of a beacon, and edits of them

The functions that change the beacon of an AP look for an element, put aside what stands behind it,
write at its place, and put back what they put aside.  Where there is no memory for that, what
stood there stays.

Here are the edit, what it leaves of a list of elements, and what `rtw_get_ie` finds in one.
-/
import Rtl8723bs.IesRemove

namespace Rtl8723bs

namespace BcnIes

open IesRemove

/-! ## 1. Lists of elements as bytes -/

/-- `_FIXED_IE_LENGTH_` and `_BEACON_IE_OFFSET_`: timestamp, beacon interval and capabilities. -/
def fixedIeLength : Nat := 12

theorem bytesOf_nil : bytesOf [] = [] := rfl

theorem bytesOf_append (a b : List Element) : bytesOf (a ++ b) = bytesOf a ++ bytesOf b :=
  List.flatMap_append

theorem bytesOf_cons' (e : Element) (es : List Element) : bytesOf (e :: es) = e.bytes ++ bytesOf es :=
  List.flatMap_cons

/-- An element is read off the front of a byte string in one way. -/
theorem bytes_append_inj {e e' : Element} {s s' : List UInt8} (h : e.bytes ++ s = e'.bytes ++ s') :
    e = e' ∧ s = s' := by
  simp only [Element.bytes, List.cons_append, List.cons.injEq] at h
  obtain ⟨heid, hlen, hrest⟩ := h
  have hdata : e.data.length = e'.data.length := by
    have htoNat := congrArg UInt8.toNat hlen
    rwa [toNat_ofNat_short e.short, toNat_ofNat_short e'.short] at htoNat
  obtain ⟨hd, hs⟩ := List.append_inj hrest hdata
  obtain ⟨eid, data, short⟩ := e
  obtain ⟨eid', data', short'⟩ := e'
  obtain rfl : eid = eid' := heid
  obtain rfl : data = data' := hd
  exact ⟨rfl, hs⟩

/-- **The elements in front are those of the list.** -/
theorem bytesOf_prefix {a es : List Element} {s : List UInt8} (h : bytesOf es = bytesOf a ++ s) :
    ∃ b, es = a ++ b ∧ bytesOf b = s := by
  induction a generalizing es with
  | nil => exact ⟨es, rfl, h⟩
  | cons x a ih =>
    cases es with
    | nil => simp [bytesOf, Element.bytes] at h
    | cons y es =>
      rw [bytesOf_cons', bytesOf_cons', List.append_assoc] at h
      obtain ⟨rfl, hrest⟩ := bytes_append_inj h
      obtain ⟨b, rfl, hb⟩ := ih hrest
      exact ⟨b, rfl, hb⟩

/-- A list of elements is read off its bytes in one way. -/
theorem bytesOf_inj {a b : List Element} (h : bytesOf a = bytesOf b) : a = b := by
  obtain ⟨c, rfl, hc⟩ := bytesOf_prefix (s := []) (h.trans (List.append_nil _).symm)
  cases c with
  | nil => exact List.append_nil b
  | cons e c => simp [bytesOf, Element.bytes] at hc

/-! ## 2. What `rtw_get_ie` finds -/

/-- The first element of the kind: its place, where the list starts at `p`, and its length. -/
def placeOf (index : UInt8) : Nat → List Element → Option (Nat × Nat)
  | _, [] => none
  | p, e :: es =>
    if e.eid = index then some (p, e.data.length) else placeOf index (p + e.bytes.length) es

theorem placeOf_append {index : UInt8} {a : List Element} (h : ∀ e ∈ a, e.eid ≠ index) (p : Nat)
    (es : List Element) : placeOf index p (a ++ es) = placeOf index (p + (bytesOf a).length) es := by
  induction a generalizing p with
  | nil => rfl
  | cons e a ih =>
    rw [List.cons_append, placeOf, if_neg (h e List.mem_cons_self),
      ih fun x hx => h x (List.mem_cons_of_mem _ hx), bytesOf_cons', List.length_append,
      Nat.add_assoc]

theorem placeOf_eq_none {index : UInt8} {es : List Element} (h : ∀ e ∈ es, e.eid ≠ index) (p : Nat) :
    placeOf index p es = none := by
  have hnone := placeOf_append h p []
  rwa [List.append_nil] at hnone

section Search

variable {m : Mem} {index : UInt8} {p n : Nat}

/-- The header of an element in memory. -/
theorem header_at {e : Element} {s : List UInt8} (h : readBytes m p n = e.bytes ++ s) :
    m p = e.eid ∧ (m (p + 1)).toNat = e.data.length := by
  obtain ⟨heid, hrest⟩ := readBytes_cons (readBytes_append h).1
  obtain ⟨hlen, -⟩ := readBytes_cons hrest
  exact ⟨heid, by rw [hlen, toNat_ofNat_short e.short]⟩

/-- What stands behind the first bytes. -/
theorem behind_at {a s : List UInt8} (h : readBytes m p n = a ++ s) :
    a.length ≤ n ∧ readBytes m (p + a.length) (n - a.length) = s := by
  have hn := congrArg List.length h
  rw [length_readBytes, List.length_append] at hn
  refine ⟨by omega, ?_⟩
  rw [show n - a.length = s.length by omega]
  exact (readBytes_append h).2

theorem getIeLoop_eq_placeOf {es : List Element} {rounds i : Nat} (hes : es ≠ [])
    (h : readBytes m p (n - i) = bytesOf es) (hi : i ≤ n) (hr : n ≤ i + rounds) :
    getIeLoop m index n rounds p i = placeOf index p es := by
  induction es generalizing rounds i p with
  | nil => exact absurd rfl hes
  | cons e es ih =>
    rw [bytesOf_cons'] at h
    obtain ⟨heid, hlen⟩ := header_at h
    obtain ⟨hle, hbehind⟩ := behind_at h
    have hsize := e.length_bytes
    cases rounds with
    | zero => omega
    | succ rounds =>
      rw [getIeLoop, placeOf, heid]
      split
      · rw [hlen]
      · dsimp only
        rw [hlen]
        have hnext : n - i - e.bytes.length = n - (i + e.data.length + 2) := by omega
        rw [hnext] at hbehind
        cases es with
        | nil =>
          have hend := congrArg List.length hbehind
          rw [length_readBytes, bytesOf_nil, List.length_nil] at hend
          rw [if_pos (by omega)]
          rfl
        | cons e' es =>
          have hmore : i + e.data.length + 2 < n := by
            have hlen' := congrArg List.length hbehind
            rw [length_readBytes, bytesOf_cons', List.length_append, e'.length_bytes] at hlen'
            omega
          rw [if_neg (by omega), Nat.add_assoc p]
          exact ih (by simp) hbehind (by omega) (by omega)

/-- **`rtw_get_ie` finds the first element of the kind.** -/
theorem rtwGetIe_eq_placeOf (index : UInt8) {es : List Element} (h : readBytes m p n = bytesOf es) :
    rtwGetIe m p index n = placeOf index p es := by
  rw [rtwGetIe]
  split
  · rename_i hn
    obtain rfl : n = 0 := by omega
    cases es with
    | nil => rfl
    | cons e es => simp [readBytes, bytesOf, Element.bytes] at h
  · rename_i hn
    refine getIeLoop_eq_placeOf (fun hes => ?_) h (Nat.zero_le n) (by omega)
    have hlen := congrArg List.length h
    rw [hes, length_readBytes, bytesOf_nil, List.length_nil] at hlen
    omega

end Search

/-! ## 3. The edit -/

/-- `IEs` and `IELength` of a `WLAN_BSSID_EX`. -/
structure Bcn where
  ies : Mem
  ieLength : Nat

/-- The bytes in use. -/
def Bcn.bytes (n : Bcn) : List UInt8 := readBytes n.ies 0 n.ieLength

/-- Bytes are written at `dst`; the `rem` bytes at `remAt` are put aside before and put back behind
them, if there is `mem` for that. -/
def splice (mem : Bool) (m : Mem) (dst remAt rem : Nat) (new : List UInt8) : Mem :=
  let backup := if 0 < rem ∧ mem then some (readBytes m remAt rem) else none
  let m := overwrite m dst new
  match backup with
  | some l => overwrite m (dst + new.length) l
  | none => m

/-- What stands behind the bytes written. -/
def remainder (mem : Bool) (m : Mem) (dst remAt rem : Nat) (new : List UInt8) : List UInt8 :=
  if mem then readBytes m remAt rem else readBytes m (dst + new.length) rem

/-- The bytes from `p` on after the edit. -/
theorem readBytes_splice (mem : Bool) (m : Mem) {p dst : Nat} (hp : p ≤ dst) (remAt rem : Nat)
    (new : List UInt8) :
    readBytes (splice mem m dst remAt rem new) p (dst - p + new.length + rem) =
      readBytes m p (dst - p) ++ new ++ remainder mem m dst remAt rem new := by
  obtain ⟨k, rfl⟩ : ∃ k, dst = p + k := ⟨dst - p, by omega⟩
  rw [Nat.add_sub_cancel_left, readBytes_add, readBytes_add, ← Nat.add_assoc p]
  unfold splice remainder
  by_cases hback : 0 < rem ∧ mem = true
  · have hold : (readBytes m remAt rem).length = rem := length_readBytes m remAt rem
    have hput := readBytes_overwrite (overwrite m (p + k) new) (p + k + new.length)
      (readBytes m remAt rem)
    rw [hold] at hput
    have hwritten : readBytes (overwrite (overwrite m (p + k) new) (p + k + new.length)
        (readBytes m remAt rem)) (p + k) new.length = new :=
      (readBytes_congr fun i _ hi => overwrite_of_lt hi).trans (readBytes_overwrite m (p + k) new)
    have hfront : readBytes (overwrite (overwrite m (p + k) new) (p + k + new.length)
        (readBytes m remAt rem)) p k = readBytes m p k :=
      readBytes_congr fun i _ hi =>
        (overwrite_of_lt (by omega)).trans (overwrite_of_lt (by omega))
    obtain ⟨hpos, rfl⟩ := hback
    simp only [hpos, and_self, if_true, hput, hwritten, hfront]
  · have hwritten : readBytes (overwrite m (p + k) new) (p + k) new.length = new :=
      readBytes_overwrite m (p + k) new
    have hfront : readBytes (overwrite m (p + k) new) p k = readBytes m p k :=
      readBytes_congr fun i _ hi => overwrite_of_lt (by omega)
    have hbehind : readBytes (overwrite m (p + k) new) (p + k + new.length) rem =
        readBytes m (p + k + new.length) rem :=
      readBytes_congr fun i hi _ => overwrite_of_le hi
    simp only [if_neg hback, hwritten, hfront, hbehind]
    cases mem with
    | false => rfl
    | true =>
      obtain rfl : rem = 0 := by
        simp only [and_true] at hback
        omega
      rfl

/-- Bytes are written at `dst` in place of `old` bytes, and what stood behind those goes behind
them: with `remainder_ielen` as a 32-bit number. -/
def edit (mem : Bool) (n : Bcn) (dst old : Nat) (new : List UInt8) : Bcn :=
  let rem := (n.ieLength + 2 ^ 32 - dst - old) % 2 ^ 32
  { ies := splice mem n.ies dst (dst + old) rem new
    ieLength := dst + new.length + rem }

/-- What stands at `p` after an edit with `s` behind the place. -/
def behindEdit (mem : Bool) (n : Bcn) (p : Nat) (s : List UInt8) : List UInt8 :=
  if mem then s else readBytes n.ies p s.length

section Edit

variable {n : Bcn} {s₁ s₂ s₃ : List UInt8}

/-- Where the parts lie. -/
theorem Bcn.parts (h : n.bytes = s₁ ++ s₂ ++ s₃) :
    n.ieLength = s₁.length + s₂.length + s₃.length ∧ readBytes n.ies 0 s₁.length = s₁ ∧
      readBytes n.ies (s₁.length + s₂.length) s₃.length = s₃ := by
  have hlen := congrArg List.length h
  rw [Bcn.bytes, length_readBytes, List.length_append, List.length_append] at hlen
  have hback := (readBytes_append h).2
  rw [Nat.zero_add, List.length_append] at hback
  rw [List.append_assoc] at h
  exact ⟨hlen, (readBytes_append h).1, hback⟩

theorem Bcn.remainder_eq (h : n.bytes = s₁ ++ s₂ ++ s₃) (hlt : n.ieLength < 2 ^ 32) :
    (n.ieLength + 2 ^ 32 - s₁.length - s₂.length) % 2 ^ 32 = s₃.length := by
  have hlen := (Bcn.parts h).1
  omega

/-- **What an edit leaves.** -/
theorem bytes_edit (mem : Bool) (h : n.bytes = s₁ ++ s₂ ++ s₃) (hlt : n.ieLength < 2 ^ 32)
    (new : List UInt8) : (edit mem n s₁.length s₂.length new).bytes =
      s₁ ++ new ++ behindEdit mem n (s₁.length + new.length) s₃ := by
  obtain ⟨-, hfront, hback⟩ := Bcn.parts h
  have hsplice := readBytes_splice mem n.ies (p := 0) (Nat.zero_le s₁.length)
    (s₁.length + s₂.length) s₃.length new
  rw [Nat.sub_zero, hfront, remainder, hback] at hsplice
  simp only [Bcn.bytes, edit, Bcn.remainder_eq h hlt]
  exact hsplice

theorem ieLength_edit (mem : Bool) (h : n.bytes = s₁ ++ s₂ ++ s₃) (hlt : n.ieLength < 2 ^ 32)
    (new : List UInt8) : (edit mem n s₁.length s₂.length new).ieLength =
      n.ieLength - s₂.length + new.length := by
  have hlen := (Bcn.parts h).1
  simp only [edit, Bcn.remainder_eq h hlt]
  omega

theorem behindEdit_true (n : Bcn) (p : Nat) (s : List UInt8) : behindEdit true n p s = s := rfl

theorem length_behindEdit (mem : Bool) (n : Bcn) (p : Nat) (s : List UInt8) :
    (behindEdit mem n p s).length = s.length := by
  rw [behindEdit]
  split
  · rfl
  · exact length_readBytes n.ies p s.length

theorem behindEdit_eq_iff {mem : Bool} {p : Nat} {s : List UInt8} :
    behindEdit mem n p s = s ↔ mem = true ∨ readBytes n.ies p s.length = s := by
  cases mem <;> simp [behindEdit]

end Edit

/-! ## 4. Lists with an element less -/

/-- An element less takes bytes less. -/
theorem eq_of_length_bytesOf {es ks : List Element} (hsub : List.Sublist ks es)
    (h : (bytesOf ks).length = (bytesOf es).length) : ks = es := by
  have hbytes : List.Sublist (bytesOf ks) (bytesOf es) := hsub.flatMap Element.bytes
  exact bytesOf_inj (hbytes.eq_of_length h)

theorem filter_same_eq_nil {index : UInt8} {es : List Element} (h : ∀ e ∈ es, e.eid ≠ index) :
    (es.filter fun e => e.eid = index) = [] :=
  List.filter_eq_nil_iff.mpr fun e he => by simpa using h e he

theorem filter_other_eq_self {index : UInt8} {es : List Element} (h : ∀ e ∈ es, e.eid ≠ index) :
    (es.filter fun e => e.eid ≠ index) = es :=
  List.filter_eq_self.mpr fun e he => by simpa using h e he

theorem filter_other_eq_nil {index : UInt8} {es : List Element} (h : ∀ e ∈ es, e.eid = index) :
    (es.filter fun e => e.eid ≠ index) = [] :=
  List.filter_eq_nil_iff.mpr fun e he => by simpa using h e he

end BcnIes

end Rtl8723bs
