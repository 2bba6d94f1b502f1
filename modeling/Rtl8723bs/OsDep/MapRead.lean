/-
# Maps in segments

A map says what stands at its addresses by segments, with one value for the gaps between them.
`map_read8` reads one address and `map_readN` a window of them: it fills its buffer with the value
for gaps and copies what each segment has in the window.

`map_readN_iff` compares the two.  The bytes always agree; what never does is the value that says so,
since nothing is assigned to `ret` behind its initial `_FAIL`.
-/
import Rtl8723bs.Wifi

namespace Rtl8723bs

namespace MapRead

/-! ## 1. The functions -/

/-- `struct map_seg_t`; `c` are the bytes from its pointer on. -/
structure MapSeg where
  sa : UInt16
  len : UInt16
  c : Mem

/-- `struct map_t`; `seg_num` is how many `segs` there are. -/
structure Map where
  len : UInt16
  initValue : UInt8
  segs : List MapSeg

/-- `_SUCCESS` and `_FAIL`. -/
def success : Int := 1

def fail : Int := 0

/-- The segment has nothing of the `len` addresses from `offset` on. -/
def MapSeg.apart (seg : MapSeg) (offset len : Nat) : Bool :=
  seg.sa.toNat + seg.len.toNat ≤ offset ∨ offset + len ≤ seg.sa.toNat

/-- `c_dst`, as a place in `buf`, `c_src`, as a place in the segment, and `c_len`. -/
structure Copy where
  dst : Nat
  src : Nat
  len : UInt16

/-- The copy that is made for a segment, if any. -/
def copyOf (offset len : UInt16) (seg : MapSeg) : Option Copy :=
  let sa := seg.sa.toNat
  let segEnd := sa + seg.len.toNat
  let windowEnd := offset.toNat + len.toNat
  if seg.apart offset.toNat len.toNat then none
  else if offset.toNat ≤ sa then
    some ⟨sa - offset.toNat, 0, if segEnd ≤ windowEnd then seg.len else .ofNat (windowEnd - sa)⟩
  else
    some ⟨0, offset.toNat - sa, if windowEnd ≤ segEnd then len else .ofNat (segEnd - offset.toNat)⟩

/-- One round of the loop of `map_readN`. -/
def copySeg (offset len : UInt16) (buf : Mem) (seg : MapSeg) : Mem :=
  match copyOf offset len seg with
  | none => buf
  | some c => overwrite buf c.dst (readBytes seg.c c.src c.len.toNat)

/-- `map_readN`: the value, and the buffer. -/
def mapReadN (map : Map) (offset len : UInt16) (buf : Mem) : Int × Mem :=
  let ret := fail
  if len = 0 then (ret, buf)
  else if map.len.toNat < offset.toNat + len.toNat then (ret, buf)
  else
    let buf := overwrite buf 0 (List.replicate len.toNat map.initValue)
    (ret, map.segs.foldl (copySeg offset len) buf)

/-- `map_read8`. -/
def mapRead8 (map : Map) (offset : UInt16) : UInt8 :=
  if map.len.toNat < offset.toNat + 1 then map.initValue
  else
    match map.segs.find? fun seg => !seg.apart offset.toNat 1 with
    | none => map.initValue
    | some seg => seg.c (offset.toNat - seg.sa.toNat)

/-! ## 2. What a segment covers -/

namespace MapSeg

/-- The address lies in the segment. -/
def Covers (seg : MapSeg) (a : Nat) : Prop :=
  seg.sa.toNat ≤ a ∧ a < seg.sa.toNat + seg.len.toNat

theorem not_apart_iff {seg : MapSeg} {a : Nat} : (!seg.apart a 1) = true ↔ seg.Covers a := by
  simp only [apart, Covers, Bool.not_eq_eq_eq_not, Bool.not_true, decide_eq_false_iff_not]
  omega

end MapSeg

theorem getD_readBytes_of_lt {m : Mem} {off n k : Nat} (h : k < n) :
    (readBytes m off n).getD k 0 = m (off + k) :=
  getD_readBytes m h

variable {offset len : UInt16} {seg : MapSeg} {buf : Mem}

/-- A copy lies within the window and within the segment, and holds what they share. -/
theorem copyOf_spec {c : Copy} (hfit : offset.toNat + len.toNat < 2 ^ 16)
    (h : copyOf offset len seg = some c) :
    c.dst + c.len.toNat ≤ len.toNat ∧ c.src + c.len.toNat ≤ seg.len.toNat ∧
      c.dst + offset.toNat = c.src + seg.sa.toNat ∧
      ∀ i < len.toNat, seg.Covers (offset.toNat + i) ↔ c.dst ≤ i ∧ i < c.dst + c.len.toNat := by
  have hseg := seg.len.toNat_lt
  have hsa := seg.sa.toNat_lt
  simp only [copyOf, MapSeg.apart, decide_eq_true_eq] at h
  split at h
  · cases h
  · split at h
    · cases h
      split
      · refine ⟨?_, ?_, ?_, fun i hi => ?_⟩ <;> simp only [MapSeg.Covers] <;> omega
      · have hlen : (UInt16.ofNat (offset.toNat + len.toNat - seg.sa.toNat)).toNat =
            offset.toNat + len.toNat - seg.sa.toNat := by
          simp only [UInt16.toNat_ofNat']
          omega
        refine ⟨?_, ?_, ?_, fun i hi => ?_⟩ <;> simp only [MapSeg.Covers, hlen] <;> omega
    · cases h
      split
      · refine ⟨?_, ?_, ?_, fun i hi => ?_⟩ <;> simp only [MapSeg.Covers] <;> omega
      · have hlen : (UInt16.ofNat (seg.sa.toNat + seg.len.toNat - offset.toNat)).toNat =
            seg.sa.toNat + seg.len.toNat - offset.toNat := by
          simp only [UInt16.toNat_ofNat']
          omega
        refine ⟨?_, ?_, ?_, fun i hi => ?_⟩ <;> simp only [MapSeg.Covers, hlen] <;> omega

theorem not_covers_of_none (h : copyOf offset len seg = none) {i : Nat} (hi : i < len.toNat) :
    ¬ seg.Covers (offset.toNat + i) := by
  simp only [copyOf, MapSeg.apart, decide_eq_true_eq] at h
  split at h
  · simp only [MapSeg.Covers]
    omega
  · split at h <;> cases h

/-! ## 3. The loop -/

theorem copySeg_outside (hfit : offset.toNat + len.toNat < 2 ^ 16) {i : Nat}
    (hi : len.toNat ≤ i) : copySeg offset len buf seg i = buf i := by
  unfold copySeg
  cases hc : copyOf offset len seg with
  | none => rfl
  | some c =>
    obtain ⟨hdst, -⟩ := copyOf_spec hfit hc
    exact overwrite_of_le (by rw [length_readBytes]; omega)

theorem copySeg_of_not_covers (hfit : offset.toNat + len.toNat < 2 ^ 16) {i : Nat}
    (hi : i < len.toNat) (h : ¬ seg.Covers (offset.toNat + i)) :
    copySeg offset len buf seg i = buf i := by
  unfold copySeg
  cases hc : copyOf offset len seg with
  | none => rfl
  | some c =>
    obtain ⟨-, -, -, hcovers⟩ := copyOf_spec hfit hc
    rw [hcovers i hi] at h
    simp only [overwrite, length_readBytes, if_neg h]

theorem copySeg_of_covers (hfit : offset.toNat + len.toNat < 2 ^ 16) {i : Nat}
    (hi : i < len.toNat) (h : seg.Covers (offset.toNat + i)) :
    copySeg offset len buf seg i = seg.c (offset.toNat + i - seg.sa.toNat) := by
  unfold copySeg
  cases hc : copyOf offset len seg with
  | none => exact absurd h (not_covers_of_none hc hi)
  | some c =>
    obtain ⟨-, -, hplace, hcovers⟩ := copyOf_spec hfit hc
    have hin := (hcovers i hi).mp h
    simp only [overwrite, length_readBytes, if_pos hin]
    rw [getD_readBytes_of_lt (by omega)]
    congr 1
    omega

variable {segs : List MapSeg}

theorem foldl_outside (hfit : offset.toNat + len.toNat < 2 ^ 16) {i : Nat} (hi : len.toNat ≤ i) :
    segs.foldl (copySeg offset len) buf i = buf i := by
  induction segs generalizing buf with
  | nil => rfl
  | cons seg segs ih => rw [List.foldl_cons, ih, copySeg_outside hfit hi]

theorem foldl_not_covers (hfit : offset.toNat + len.toNat < 2 ^ 16) {i : Nat} (hi : i < len.toNat)
    (h : ∀ seg ∈ segs, ¬ seg.Covers (offset.toNat + i)) :
    segs.foldl (copySeg offset len) buf i = buf i := by
  induction segs generalizing buf with
  | nil => rfl
  | cons seg segs ih =>
    rw [List.foldl_cons, ih fun seg hseg => h seg (List.mem_cons_of_mem _ hseg),
      copySeg_of_not_covers hfit hi (h seg List.mem_cons_self)]

/-- No address lies in two segments. -/
def Disjoint (segs : List MapSeg) : Prop :=
  segs.Pairwise fun s t => ∀ a, ¬ (s.Covers a ∧ t.Covers a)

/-- The loop leaves the byte of the one segment that has the address. -/
theorem foldl_read (hfit : offset.toNat + len.toNat < 2 ^ 16) (hd : Disjoint segs) {i : Nat}
    (hi : i < len.toNat) :
    segs.foldl (copySeg offset len) buf i =
      match segs.find? fun seg => !seg.apart (offset.toNat + i) 1 with
      | none => buf i
      | some seg => seg.c (offset.toNat + i - seg.sa.toNat) := by
  induction segs generalizing buf with
  | nil => rfl
  | cons seg segs ih =>
    obtain ⟨hseg, hrest⟩ := List.pairwise_cons.mp hd
    rw [List.foldl_cons]
    by_cases hcovers : seg.Covers (offset.toNat + i)
    · have hfound : (!seg.apart (offset.toNat + i) 1) = true := MapSeg.not_apart_iff.mpr hcovers
      rw [foldl_not_covers hfit hi fun t ht ht' => hseg t ht _ ⟨hcovers, ht'⟩,
        copySeg_of_covers hfit hi hcovers]
      simp only [List.find?_cons, hfound]
    · have hpassed : (!seg.apart (offset.toNat + i) 1) = false :=
        Bool.eq_false_iff.mpr (mt MapSeg.not_apart_iff.mp hcovers)
      rw [ih hrest, copySeg_of_not_covers hfit hi hcovers]
      simp only [List.find?_cons, hpassed]

/-! ## 4. The two readers -/

/-- The window is one `map_readN` has to read. -/
def Readable (map : Map) (offset len : UInt16) : Prop :=
  len ≠ 0 ∧ offset.toNat + len.toNat ≤ map.len.toNat

theorem not_readable_iff {map : Map} :
    ¬ Readable map offset len ↔ len = 0 ∨ map.len.toNat < offset.toNat + len.toNat := by
  rw [Readable, Decidable.not_and_iff_not_or_not, Decidable.not_not, Nat.not_le]

/-- The bytes of the window are those of `map_read8`; nothing else is written, and only bytes of the
segments are read. -/
structure Fills (map : Map) (offset len : UInt16) (buf : Mem) : Prop where
  bytes : ∀ i < len.toNat,
    (mapReadN map offset len buf).2 i = mapRead8 map (.ofNat (offset.toNat + i))
  outside : ∀ i, len.toNat ≤ i → (mapReadN map offset len buf).2 i = buf i
  within : ∀ seg ∈ map.segs, ∀ c, copyOf offset len seg = some c →
    c.dst + c.len.toNat ≤ len.toNat ∧ c.src + c.len.toNat ≤ seg.len.toNat

/-- `map_readN` agrees with `map_read8`, its value included. -/
def Agrees (map : Map) (offset len : UInt16) (buf : Mem) : Prop :=
  (Readable map offset len →
    (mapReadN map offset len buf).1 = success ∧ Fills map offset len buf) ∧
  (¬ Readable map offset len → mapReadN map offset len buf = (fail, buf))

theorem mapReadN_of_readable {map : Map} (h : Readable map offset len) (buf : Mem) :
    mapReadN map offset len buf =
      (fail, map.segs.foldl (copySeg offset len)
        (overwrite buf 0 (List.replicate len.toNat map.initValue))) := by
  obtain ⟨hlen, hfit⟩ := h
  simp only [mapReadN, if_neg hlen, if_neg (Nat.not_lt.mpr hfit)]

theorem mapReadN_of_not_readable {map : Map} (h : ¬ Readable map offset len) (buf : Mem) :
    mapReadN map offset len buf = (fail, buf) := by
  simp only [mapReadN]
  split
  · rfl
  · rename_i hlen
    rw [if_pos (Nat.lt_of_not_le fun hfit => h ⟨hlen, hfit⟩)]

/-- **The bytes agree** for every window. -/
theorem mapReadN_fills {map : Map} (hd : Disjoint map.segs) (h : Readable map offset len)
    (buf : Mem) : Fills map offset len buf := by
  have hmap := map.len.toNat_lt
  have hend := h.2
  have hfit : offset.toNat + len.toNat < 2 ^ 16 := by omega
  refine ⟨fun i hi => ?_, fun i hi => ?_, fun seg _ c hc => ?_⟩
  · have haddr : (UInt16.ofNat (offset.toNat + i)).toNat = offset.toNat + i := by
      simp only [UInt16.toNat_ofNat']
      omega
    have hin : ¬ map.len.toNat < offset.toNat + i + 1 := by omega
    have hinit : overwrite buf 0 (List.replicate len.toNat map.initValue) i = map.initValue := by
      simp [overwrite, hi]
    rw [mapReadN_of_readable h]
    simp only [foldl_read hfit hd hi, hinit, mapRead8, haddr, if_neg hin]
  · rw [mapReadN_of_readable h]
    simp only [foldl_outside hfit hi]
    exact overwrite_of_le (by rw [List.length_replicate]; omega)
  · obtain ⟨hdst, hsrc, -⟩ := copyOf_spec hfit hc
    exact ⟨hdst, hsrc⟩

/-- **The two readers agree** on the bytes of every window that can be read, and `map_readN` says so
for none: it agrees with `map_read8`, its value included, exactly where there is nothing to read. -/
theorem map_readN_iff (map : Map) (hd : Disjoint map.segs) (offset len : UInt16) (buf : Mem) :
    (Agrees map offset len buf ↔ len = 0 ∨ map.len.toNat < offset.toNat + len.toNat) ∧
      (Readable map offset len → Fills map offset len buf) := by
  rw [← not_readable_iff]
  refine ⟨⟨fun h hread => ?_, fun hread => ?_⟩, fun h => mapReadN_fills hd h buf⟩
  · have hvalue := (h.1 hread).1
    rw [mapReadN_of_readable hread] at hvalue
    exact absurd hvalue (show fail ≠ success by decide)
  · exact ⟨fun h => absurd h hread, fun _ => mapReadN_of_not_readable hread buf⟩

/-- A map of four addresses, with one segment of two. -/
def shortMap : Map := ⟨4, 0xff, [⟨1, 2, fun i => if i = 0 then 0x11 else 0x22⟩]⟩

theorem shortMap_readN :
    (Agrees shortMap 0 4 (fun _ => 0) ↔
      (4 : UInt16) = 0 ∨ shortMap.len.toNat < (0 : UInt16).toNat + (4 : UInt16).toNat) ∧
    (Readable shortMap 0 4 → Fills shortMap 0 4 (fun _ => 0)) :=
  map_readN_iff shortMap (List.pairwise_singleton _ _) 0 4 _

/-- The whole map is read, and the value is `_FAIL`. -/
theorem shortMap_fails :
    Readable shortMap 0 4 ∧ (mapReadN shortMap 0 4 fun _ => 0).1 = fail ∧
      readBytes (mapReadN shortMap 0 4 fun _ => 0).2 0 4 = [0xff, 0x11, 0x22, 0xff] ∧
      ¬ Agrees shortMap 0 4 (fun _ => 0) := by
  have hread : Readable shortMap 0 4 := ⟨by decide, by decide⟩
  exact ⟨hread, by decide, by decide, fun h => absurd (h.1 hread).1 (by decide)⟩

end MapRead

end Rtl8723bs
