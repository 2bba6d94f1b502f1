/-
# Adding and removing beacon elements

`rtw_add_bcn_ie` puts an element into the beacon, where the ids say, or in place of the element of
its id.  It remembers the element it came by last, and its length; a length of zero counts as
nothing found.  `rtw_remove_bcn_ie` takes the element out again.

`bcn_ie_iff` says for which lists and elements this does what it should.
-/
import Rtl8723bs.Ap.IeSplice

namespace Rtl8723bs

namespace BcnIes

open IesRemove

/-! ## 1. The functions -/

/-- The loop of `rtw_add_bcn_ie` from offset `i`, where `last` is `p` with `ielen`: `bmatch`, and
`p` with `ielen` after it. -/
def addLoop (n : Bcn) (index : UInt8) : Nat → Nat → Option (Nat × Nat) → Bool × Option (Nat × Nat)
  | 0, _, last => (false, last)
  | rounds + 1, i, last =>
    if i < n.ieLength then
      let len := (n.ies (i + 1)).toNat
      if index < n.ies i then (false, last)
      else if n.ies i = index then (true, some (i, len))
      else addLoop n index rounds (i + len + 2) (some (i, len))
    else (false, last)

/-- Where the element goes: `dst_ie`, and what it takes the place of. -/
def addPlace (n : Bcn) (index : UInt8) : Option (Nat × Nat) :=
  match addLoop n index n.ieLength fixedIeLength none with
  | (_, none) => none
  | (bmatch, some (p, ielen)) =>
    if 0 < ielen then some (if bmatch then (p, ielen + 2) else (p + (ielen + 2), 0)) else none

/-- `rtw_add_bcn_ie`, with `index`, `len` and `data` as an element. -/
def rtwAddBcnIe (mem : Bool) (n : Bcn) (new : Element) : Bcn :=
  match addPlace n new.eid with
  | some (dst, old) => edit mem n dst old new.bytes
  | none => n

/-- `rtw_remove_bcn_ie`. -/
def rtwRemoveBcnIe (mem : Bool) (n : Bcn) (index : UInt8) : Bcn :=
  match rtwGetIe n.ies fixedIeLength index (n.ieLength - fixedIeLength) with
  | some (p, ielen) => if 0 < ielen then edit mem n p (ielen + 2) [] else n
  | none => n

/-! ## 2. What they should do -/

/-- The elements of other ids. -/
def others (index : UInt8) (es : List Element) : List Element := es.filter fun e => e.eid ≠ index

/-- **The element is added, and removed again.**  The list has the new element behind all smaller
ids, and the others as they were; the array holds it; and without the new element the others are
left. -/
def AddsRemoves (mem mem' : Bool) (n : Bcn) (fixed : List UInt8) (es : List Element)
    (new : Element) : Prop :=
  (∃ a b, others new.eid es = a ++ b ∧
    (rtwAddBcnIe mem n new).bytes = fixed ++ bytesOf (a ++ [new] ++ b) ∧ ∀ e ∈ b, new.eid ≤ e.eid) ∧
  (rtwAddBcnIe mem n new).ieLength ≤ maxIeSz ∧
  (rtwRemoveBcnIe mem' (rtwAddBcnIe mem n new) new.eid).bytes =
    fixed ++ bytesOf (others new.eid es)

/-- The elements of smaller ids, those of the id, and those of greater ids. -/
def smaller (index : UInt8) (es : List Element) : List Element := es.filter fun e => e.eid < index

def same (index : UInt8) (es : List Element) : List Element := es.filter fun e => e.eid = index

def greater (index : UInt8) (es : List Element) : List Element := es.filter fun e => index < e.eid

/-- The ids ascend; the vendor elements are last. -/
def Ascending (es : List Element) : Prop := es.Pairwise fun e e' => e.eid ≤ e'.eid

instance (es : List Element) : Decidable (Ascending es) :=
  inferInstanceAs (Decidable (es.Pairwise fun e e' => e.eid ≤ e'.eid))

/-- **Lists and elements that go well.**  The new element has data, and so has the last one up to
its place, of which there is one; the greater ones stay, when the element is added and when it is
removed; and there is room. -/
structure AddFits (mem mem' : Bool) (n : Bcn) (es : List Element) (new : Element) : Prop where
  data : new.data ≠ []
  last : ∃ e, (smaller new.eid es ++ same new.eid es).getLast? = some e ∧ e.data ≠ []
  stays : mem = true ∨
    readBytes n.ies (fixedIeLength + (bytesOf (smaller new.eid es)).length + new.bytes.length)
      (bytesOf (greater new.eid es)).length = bytesOf (greater new.eid es)
  staysBack : mem' = true ∨
    (new.bytes ++ bytesOf (greater new.eid es)).take (bytesOf (greater new.eid es)).length =
      bytesOf (greater new.eid es)
  room : n.ieLength - (bytesOf (same new.eid es)).length + new.bytes.length ≤ maxIeSz

/-! ## 3. The parts of a list -/

section Parts

variable {index : UInt8} {e : Element} {es : List Element}

theorem id_trichotomy (i j : UInt8) : i < j ∨ i = j ∨ j < i := by
  rw [UInt8.lt_iff_toNat_lt, UInt8.lt_iff_toNat_lt, ← UInt8.toNat_inj]
  omega

/-- What the order says of the tail. -/
theorem Ascending.tail (h : Ascending (e :: es)) : Ascending es := (List.pairwise_cons.mp h).2

theorem Ascending.head_le (h : Ascending (e :: es)) : ∀ x ∈ es, e.eid ≤ x.eid :=
  (List.pairwise_cons.mp h).1

theorem smaller_eq_nil (h : ∀ x ∈ es, index ≤ x.eid) : smaller index es = [] :=
  List.filter_eq_nil_iff.mpr fun x hx => by simpa using h x hx

theorem same_eq_nil (h : ∀ x ∈ es, index < x.eid) : same index es = [] :=
  filter_same_eq_nil fun x hx => Ne.symm (UInt8.ne_of_lt (h x hx))

theorem ne_of_mem_smaller (h : e ∈ smaller index es) : e.eid ≠ index :=
  UInt8.ne_of_lt (by simpa using (List.mem_filter.mp h).2)

theorem ne_of_mem_greater (h : e ∈ greater index es) : e.eid ≠ index :=
  (UInt8.ne_of_lt (by simpa using (List.mem_filter.mp h).2)).symm

theorem eid_of_mem_same (h : e ∈ same index es) : e.eid = index := by
  simpa using (List.mem_filter.mp h).2

/-- The three parts are the list. -/
theorem Ascending.parts (index : UInt8) (h : Ascending es) :
    smaller index es ++ same index es ++ greater index es = es := by
  induction es with
  | nil => rfl
  | cons e es ih =>
    have hparts := ih h.tail
    have hle := h.head_le
    rcases id_trichotomy e.eid index with hlt | heq | hgt
    · have hsmaller : smaller index (e :: es) = e :: smaller index es :=
        List.filter_cons_of_pos (by simpa using hlt)
      have hsame : same index (e :: es) = same index es :=
        List.filter_cons_of_neg (by simpa using UInt8.ne_of_lt hlt)
      have hgreater : greater index (e :: es) = greater index es :=
        List.filter_cons_of_neg (by simpa using UInt8.le_of_lt hlt)
      rw [hsmaller, hsame, hgreater, List.cons_append, List.cons_append, hparts]
    · have hnone : ∀ x ∈ e :: es, index ≤ x.eid := by
        intro x hx
        rcases List.mem_cons.mp hx with rfl | hx
        · exact UInt8.le_of_eq heq.symm
        · exact heq ▸ hle x hx
      have hsame : same index (e :: es) = e :: same index es :=
        List.filter_cons_of_pos (by simpa using heq)
      have hgreater : greater index (e :: es) = greater index es :=
        List.filter_cons_of_neg (by simpa using UInt8.le_of_eq heq)
      rw [smaller_eq_nil fun x hx => hnone x (List.mem_cons_of_mem _ hx)] at hparts
      rw [smaller_eq_nil hnone, hsame, hgreater, List.nil_append, List.cons_append]
      rw [List.nil_append] at hparts
      rw [hparts]
    · have hall : ∀ x ∈ e :: es, index < x.eid := by
        intro x hx
        rcases List.mem_cons.mp hx with rfl | hx
        · exact hgt
        · exact UInt8.lt_of_lt_of_le hgt (hle x hx)
      have hgreater : greater index (e :: es) = e :: es :=
        List.filter_eq_self.mpr fun x hx => by simpa using hall x hx
      rw [smaller_eq_nil fun x hx => UInt8.le_of_lt (hall x hx), same_eq_nil hall, hgreater]
      rfl

theorem others_append (a b : List Element) :
    others index (a ++ b) = others index a ++ others index b := List.filter_append a b

/-- The others are the smaller and the greater ones. -/
theorem Ascending.others_eq (h : Ascending es) :
    others index es = smaller index es ++ greater index es := by
  have hsmaller : others index (smaller index es) = smaller index es :=
    filter_other_eq_self fun _ he => ne_of_mem_smaller he
  have hsame : others index (same index es) = [] := filter_other_eq_nil fun _ he => eid_of_mem_same he
  have hgreater : others index (greater index es) = greater index es :=
    filter_other_eq_self fun _ he => ne_of_mem_greater he
  have hparts := congrArg (others index) (h.parts index)
  rw [others_append, others_append, hsmaller, hsame, hgreater, List.append_nil] at hparts
  exact hparts.symm

end Parts

/-! ## 4. Where the element goes -/

/-- Place and length of the last element of a list that starts at `i`. -/
def lastOf : Nat → Option (Nat × Nat) → List Element → Option (Nat × Nat)
  | _, last, [] => last
  | i, _, e :: es => lastOf (i + e.bytes.length) (some (i, e.data.length)) es

theorem lastOf_concat (i : Nat) (last : Option (Nat × Nat)) (a : List Element) (e : Element) :
    lastOf i last (a ++ [e]) = some (i + (bytesOf a).length, e.data.length) := by
  induction a generalizing i last with
  | nil => rfl
  | cons x a ih =>
    rw [List.cons_append, lastOf, ih, bytesOf_cons', List.length_append, Nat.add_assoc]

section Place

variable {n : Bcn} {index : UInt8} {es : List Element} {fixed : List UInt8}

/-- **What the loop remembers**: the element of the id, or the last smaller one. -/
theorem addLoop_eq (index : UInt8) (hs : Ascending es) {rounds i : Nat} (last : Option (Nat × Nat))
    (h : readBytes n.ies i (n.ieLength - i) = bytesOf es) (hr : n.ieLength ≤ i + rounds) :
    addLoop n index rounds i last =
      (decide (same index es ≠ []), lastOf i last (smaller index es ++ (same index es).take 1)) := by
  induction es generalizing rounds i last with
  | nil =>
    have hend : n.ieLength - i = 0 := by
      have hlen := congrArg List.length h
      rwa [length_readBytes, bytesOf_nil, List.length_nil] at hlen
    cases rounds with
    | zero => rfl
    | succ rounds =>
      rw [addLoop, if_neg (by omega)]
      rfl
  | cons e es ih =>
    rw [bytesOf_cons'] at h
    obtain ⟨heid, hlen⟩ := header_at h
    obtain ⟨hle, hbehind⟩ := behind_at h
    have hsize := e.length_bytes
    cases rounds with
    | zero => omega
    | succ rounds =>
      simp only [addLoop, heid, hlen]
      rw [if_pos (by omega)]
      rcases id_trichotomy e.eid index with hlt | heq | hgt
      · have hsmaller : smaller index (e :: es) = e :: smaller index es :=
          List.filter_cons_of_pos (by simpa using hlt)
        have hsame : same index (e :: es) = same index es :=
          List.filter_cons_of_neg (by simpa using UInt8.ne_of_lt hlt)
        have hnext : n.ieLength - i - e.bytes.length = n.ieLength - (i + e.data.length + 2) := by
          omega
        have hat : i + e.bytes.length = i + e.data.length + 2 := by omega
        rw [hnext, hat] at hbehind
        rw [if_neg (UInt8.not_lt.mpr (UInt8.le_of_lt hlt)), if_neg (UInt8.ne_of_lt hlt),
          ih hs.tail _ hbehind (by omega), hsmaller, hsame, List.cons_append, lastOf, hat]
      · have hnone : ∀ x ∈ e :: es, index ≤ x.eid := by
          intro x hx
          rcases List.mem_cons.mp hx with rfl | hx
          · exact UInt8.le_of_eq heq.symm
          · exact heq ▸ hs.head_le x hx
        have hsame : same index (e :: es) = e :: same index es :=
          List.filter_cons_of_pos (by simpa using heq)
        rw [if_neg (UInt8.not_lt.mpr (UInt8.le_of_eq heq)), if_pos heq, smaller_eq_nil hnone, hsame]
        rfl
      · have hall : ∀ x ∈ e :: es, index < x.eid := by
          intro x hx
          rcases List.mem_cons.mp hx with rfl | hx
          · exact hgt
          · exact UInt8.lt_of_lt_of_le hgt (hs.head_le x hx)
        rw [if_pos hgt, smaller_eq_nil fun x hx => UInt8.le_of_lt (hall x hx), same_eq_nil hall]
        rfl

/-- The elements in memory. -/
theorem list_at (h : n.bytes = fixed ++ bytesOf es) (hfixed : fixed.length = fixedIeLength) :
    readBytes n.ies fixedIeLength (n.ieLength - fixedIeLength) = bytesOf es := by
  obtain ⟨-, hbehind⟩ := behind_at h
  rwa [hfixed, Nat.zero_add] at hbehind

/-- **The place of the element.** -/
theorem addPlace_eq (hs : Ascending es) (hone : (same index es).length ≤ 1)
    (h : n.bytes = fixed ++ bytesOf es) (hfixed : fixed.length = fixedIeLength) :
    addPlace n index =
      match (smaller index es ++ same index es).getLast? with
      | some e => if 0 < e.data.length then
          some (fixedIeLength + (bytesOf (smaller index es)).length, (bytesOf (same index es)).length)
        else none
      | none => none := by
  have hloop := addLoop_eq index hs none (list_at h hfixed)
    (Nat.le_add_left n.ieLength fixedIeLength)
  rw [addPlace, hloop]
  cases hsame : same index es with
  | cons t ts =>
    rw [hsame, List.length_cons] at hone
    obtain rfl : ts = [] := List.length_eq_zero_iff.mp (by omega)
    rw [List.take_of_length_le (Nat.le_refl 1), lastOf_concat, List.getLast?_concat]
    simp [bytesOf_cons', bytesOf_nil, Element.length_bytes]
  | nil =>
    rw [List.take_nil, List.append_nil]
    rcases List.eq_nil_or_concat (smaller index es) with hsmaller | ⟨a, e, hsmaller⟩
    · rw [hsmaller]
      rfl
    · rw [List.concat_eq_append] at hsmaller
      rw [hsmaller, lastOf_concat, List.getLast?_concat]
      simp [bytesOf_append, bytesOf_cons', bytesOf_nil, Element.length_bytes, Nat.add_assoc]

end Place

/-! ## 5. What the functions leave -/

section Edits

variable {mem mem' : Bool} {n : Bcn} {fixed : List UInt8} {es a b : List Element} {new : Element}

theorem Ascending.bytes_eq (hs : Ascending es) (h : n.bytes = fixed ++ bytesOf es)
    (index : UInt8) : n.bytes = (fixed ++ bytesOf (smaller index es)) ++
      bytesOf (same index es) ++ bytesOf (greater index es) := by
  rw [h, List.append_assoc, List.append_assoc, ← bytesOf_append, ← bytesOf_append,
    ← List.append_assoc, hs.parts index]

/-- With something found the element is written between the smaller and the greater ones. -/
theorem add_eq_edit (mem : Bool) (hs : Ascending es) (hone : (same new.eid es).length ≤ 1)
    (h : n.bytes = fixed ++ bytesOf es) (hfixed : fixed.length = fixedIeLength)
    (hlast : ∃ e, (smaller new.eid es ++ same new.eid es).getLast? = some e ∧ e.data ≠ []) :
    rtwAddBcnIe mem n new = edit mem n (fixed ++ bytesOf (smaller new.eid es)).length
      (bytesOf (same new.eid es)).length new.bytes := by
  obtain ⟨e, hlast, he⟩ := hlast
  have hplace := addPlace_eq hs hone h hfixed
  simp only [hlast, if_pos (List.length_pos_iff.mpr he)] at hplace
  simp only [rtwAddBcnIe, hplace, List.length_append, hfixed]

/-- With nothing found nothing is done. -/
theorem add_eq_self (hs : Ascending es) (hone : (same new.eid es).length ≤ 1)
    (h : n.bytes = fixed ++ bytesOf es) (hfixed : fixed.length = fixedIeLength)
    (hlast : ¬ ∃ e, (smaller new.eid es ++ same new.eid es).getLast? = some e ∧ e.data ≠ []) :
    rtwAddBcnIe mem n new = n := by
  have hplace := addPlace_eq hs hone h hfixed
  rw [rtwAddBcnIe, hplace]
  cases hget : (smaller new.eid es ++ same new.eid es).getLast? with
  | none => rfl
  | some e =>
    have hempty : e.data = [] := Decidable.not_not.mp fun hne => hlast ⟨e, hget, hne⟩
    simp only [hempty, List.length_nil, Nat.lt_irrefl, if_false]

/-- What `rtw_remove_bcn_ie` does with a list that has the element. -/
theorem remove_eq (h : n.bytes = fixed ++ bytesOf (a ++ [new] ++ b))
    (hfixed : fixed.length = fixedIeLength) (ha : ∀ e ∈ a, e.eid ≠ new.eid) :
    rtwRemoveBcnIe mem n new.eid = if 0 < new.data.length then
      edit mem n (fixed ++ bytesOf a).length new.bytes.length [] else n := by
  have hget := rtwGetIe_eq_placeOf new.eid (list_at h hfixed)
  have hle : fixedIeLength ≤ n.ieLength := hfixed ▸ (behind_at h).1
  rw [List.append_assoc, placeOf_append ha, List.singleton_append, placeOf, if_pos rfl,
    Int.ofNat_sub hle] at hget
  rw [rtwRemoveBcnIe, hget, List.length_append, hfixed, new.length_bytes]

theorem bytes_split (h : n.bytes = fixed ++ bytesOf (a ++ [new] ++ b)) :
    n.bytes = (fixed ++ bytesOf a) ++ new.bytes ++ bytesOf b := by
  simp only [h, bytesOf_append, bytesOf_cons', bytesOf_nil, List.append_nil, List.append_assoc]

/-- The first bytes from a place on. -/
theorem readBytes_take {s₁ s₂ s₃ : List UInt8} (h : n.bytes = s₁ ++ s₂ ++ s₃) :
    readBytes n.ies s₁.length s₃.length = (s₂ ++ s₃).take s₃.length := by
  rw [Bcn.bytes, List.append_assoc] at h
  have hbehind := (readBytes_append h).2
  rw [Nat.zero_add, List.length_append, Nat.add_comm s₂.length, readBytes_add] at hbehind
  rw [← hbehind, List.take_left' (length_readBytes _ _ _)]

/-- **What `rtw_remove_bcn_ie` leaves.** -/
theorem bytes_remove_iff (h : n.bytes = fixed ++ bytesOf (a ++ [new] ++ b))
    (hfixed : fixed.length = fixedIeLength) (ha : ∀ e ∈ a, e.eid ≠ new.eid)
    (hlt : n.ieLength < 2 ^ 32) :
    (rtwRemoveBcnIe mem n new.eid).bytes = fixed ++ bytesOf (a ++ b) ↔
      new.data ≠ [] ∧
        (mem = true ∨ (new.bytes ++ bytesOf b).take (bytesOf b).length = bytesOf b) := by
  rw [remove_eq h hfixed ha]
  by_cases hdata : new.data = []
  · -- an element without data is not looked at
    rw [hdata, List.length_nil, if_neg (Nat.lt_irrefl 0), h]
    refine iff_of_false (fun hsame => ?_) fun hne => hne.1 rfl
    have hlen := congrArg List.length (bytesOf_inj (List.append_cancel_left hsame))
    simp only [List.length_append, List.length_singleton] at hlen
    omega
  · have hparts := bytes_split h
    rw [if_pos (List.length_pos_iff.mpr hdata), bytes_edit mem hparts hlt, List.append_nil,
      bytesOf_append, ← List.append_assoc, List.append_cancel_left_eq, behindEdit_eq_iff,
      List.length_nil, Nat.add_zero, readBytes_take hparts]
    exact (and_iff_right hdata).symm

end Edits

/-! ## 6. When they do what they should -/

section Fits

variable {mem mem' : Bool} {n : Bcn} {fixed : List UInt8} {es a b : List Element} {new : Element}

/-- The list has room for the new element between the smaller and the greater ones only. -/
theorem split_unique (hs : Ascending es) (hothers : others new.eid es = a ++ b)
    {c : List Element} (h : a ++ [new] ++ b = smaller new.eid es ++ [new] ++ c)
    (hlen : (bytesOf c).length = (bytesOf (greater new.eid es)).length) :
    c = greater new.eid es := by
  have hself : others new.eid (others new.eid es) = others new.eid es :=
    filter_other_eq_self fun e he => by simpa [others] using (List.mem_filter.mp he).2
  have hnew : others new.eid [new] = [] := filter_other_eq_nil fun e he => by
    rw [List.mem_singleton.mp he]
  have hsmaller : others new.eid (smaller new.eid es) = smaller new.eid es :=
    filter_other_eq_self fun _ he => ne_of_mem_smaller he
  have hkept := congrArg (others new.eid) h
  rw [others_append, others_append, others_append, others_append, hnew, List.append_nil,
    List.append_nil, ← others_append, ← hothers, hself, hs.others_eq, hsmaller,
    List.append_cancel_left_eq] at hkept
  rw [hkept] at hlen ⊢
  exact (eq_of_length_bytesOf List.filter_sublist hlen.symm).symm

/-- Where the list is right something was found. -/
theorem last_of_adds (hs : Ascending es) (hone : (same new.eid es).length ≤ 1)
    (h : n.bytes = fixed ++ bytesOf es) (hfixed : fixed.length = fixedIeLength)
    (hdata : new.data ≠ [])
    (hadd : (rtwAddBcnIe mem n new).bytes = fixed ++ bytesOf (a ++ [new] ++ b)) :
    ∃ e, (smaller new.eid es ++ same new.eid es).getLast? = some e ∧ e.data ≠ [] := by
  refine Decidable.byContradiction fun hlast => ?_
  rw [add_eq_self hs hone h hfixed hlast, h, List.append_cancel_left_eq] at hadd
  have hmem : new ∈ same new.eid es := by
    rw [bytesOf_inj hadd]
    exact List.mem_filter.mpr ⟨by simp, by simp⟩
  obtain ⟨t, hsame⟩ := List.length_eq_one_iff.mp
    (Nat.le_antisymm hone (List.length_pos_of_mem hmem))
  rw [hsame, List.mem_singleton] at hmem
  exact hlast ⟨new, by rw [hsame, List.getLast?_concat, hmem], hdata⟩

theorem AddFits.of_addsRemoves (hs : Ascending es) (hone : (same new.eid es).length ≤ 1)
    (h : n.bytes = fixed ++ bytesOf es) (hfixed : fixed.length = fixedIeLength)
    (hlt : n.ieLength < 2 ^ 32) (hadds : AddsRemoves mem mem' n fixed es new) :
    AddFits mem mem' n es new := by
  obtain ⟨⟨a, b, hothers, hadd, -⟩, hroom, hremove⟩ := hadds
  have hsmall : (rtwAddBcnIe mem n new).ieLength < 2 ^ 32 := by
    unfold maxIeSz at hroom
    omega
  have ha : ∀ e ∈ a, e.eid ≠ new.eid := by
    intro e he
    have hmem : e ∈ others new.eid es := hothers ▸ List.mem_append_left b he
    simpa using (List.mem_filter.mp hmem).2
  have hdata : new.data ≠ [] :=
    ((bytes_remove_iff hadd hfixed ha hsmall).mp (hothers ▸ hremove)).1
  have hlast := last_of_adds hs hone h hfixed hdata hadd
  have hedit := add_eq_edit mem hs hone h hfixed hlast
  have hparts := hs.bytes_eq h new.eid
  -- the elements behind the new one are the greater ones
  have hbytes := bytes_edit mem hparts hlt new.bytes
  rw [← hedit, hadd, List.append_assoc fixed, List.append_assoc fixed,
    List.append_cancel_left_eq] at hbytes
  have hfront : bytesOf (smaller new.eid es) ++ new.bytes =
      bytesOf (smaller new.eid es ++ [new]) := by
    rw [bytesOf_append, bytesOf_cons', bytesOf_nil, List.append_nil]
  rw [hfront] at hbytes
  obtain ⟨c, hsplit, hc⟩ := bytesOf_prefix hbytes
  obtain rfl : c = greater new.eid es :=
    split_unique hs hothers hsplit (by rw [hc, length_behindEdit])
  rw [hsplit] at hadd
  rw [hs.others_eq] at hremove
  have hstays := behindEdit_eq_iff.mp hc.symm
  rw [List.length_append, hfixed] at hstays
  refine ⟨hdata, hlast, hstays, ?_, ?_⟩
  · exact ((bytes_remove_iff hadd hfixed (fun _ he => ne_of_mem_smaller he) hsmall).mp hremove).2
  · rwa [hedit, ieLength_edit mem hparts hlt] at hroom

theorem AddFits.addsRemoves (hs : Ascending es) (hone : (same new.eid es).length ≤ 1)
    (h : n.bytes = fixed ++ bytesOf es) (hfixed : fixed.length = fixedIeLength)
    (hlt : n.ieLength < 2 ^ 32) (hfits : AddFits mem mem' n es new) :
    AddsRemoves mem mem' n fixed es new := by
  have hedit := add_eq_edit mem hs hone h hfixed hfits.last
  have hparts := hs.bytes_eq h new.eid
  have hroom : (rtwAddBcnIe mem n new).ieLength ≤ maxIeSz := by
    rw [hedit, ieLength_edit mem hparts hlt]
    exact hfits.room
  have hsmall : (rtwAddBcnIe mem n new).ieLength < 2 ^ 32 := by
    unfold maxIeSz at hroom
    omega
  have hstays := hfits.stays
  rw [← hfixed, ← List.length_append] at hstays
  have hadd : (rtwAddBcnIe mem n new).bytes =
      fixed ++ bytesOf (smaller new.eid es ++ [new] ++ greater new.eid es) := by
    rw [hedit, bytes_edit mem hparts hlt, behindEdit_eq_iff.mpr hstays]
    simp only [bytesOf_append, bytesOf_cons', bytesOf_nil, List.append_nil, List.append_assoc]
  refine ⟨⟨_, _, hs.others_eq, hadd, fun e he => ?_⟩, hroom, ?_⟩
  · exact UInt8.le_of_lt (by simpa using (List.mem_filter.mp he).2)
  · rw [hs.others_eq]
    exact (bytes_remove_iff hadd hfixed (fun _ he => ne_of_mem_smaller he) hsmall).mpr
      ⟨hfits.data, hfits.staysBack⟩

end Fits

/-- **Elements are added and removed** exactly for these lists and elements. -/
theorem bcn_ie_iff (mem mem' : Bool) (n : Bcn) (fixed : List UInt8) (es : List Element)
    (new : Element) (hs : Ascending es) (hone : (same new.eid es).length ≤ 1)
    (h : n.bytes = fixed ++ bytesOf es) (hfixed : fixed.length = fixedIeLength)
    (hlen : n.ieLength ≤ maxIeSz) :
    AddsRemoves mem mem' n fixed es new ↔ AddFits mem mem' n es new := by
  have hlt : n.ieLength < 2 ^ 32 := by
    unfold maxIeSz at hlen
    omega
  exact ⟨AddFits.of_addsRemoves hs hone h hfixed hlt, AddFits.addsRemoves hs hone h hfixed hlt⟩

/-- An SSID, rates and extended rates. -/
def ratesIes (ssid : List UInt8) (short : ssid.length < 256) : List Element :=
  [⟨0, ssid, short⟩, ⟨1, [0x82, 0x84], by decide⟩, ⟨50, [0x0c], by decide⟩]

def bcnOf (es : List Element) : Bcn where
  ies i := (List.replicate fixedIeLength 0 ++ bytesOf es).getD i 0
  ieLength := fixedIeLength + (bytesOf es).length

/-- An ERP element goes between the rates and the extended rates. -/
theorem erp_added_removed :
    AddsRemoves true true (bcnOf (ratesIes [97] (by decide))) (List.replicate fixedIeLength 0)
      (ratesIes [97] (by decide)) ⟨42, [7], by decide⟩ :=
  (bcn_ie_iff true true (bcnOf (ratesIes [97] (by decide))) (List.replicate fixedIeLength 0)
    (ratesIes [97] (by decide)) ⟨42, [7], by decide⟩ (by decide) (by decide) (by decide)
    (by decide) (by decide)).mpr
    ⟨by decide, ⟨⟨1, [0x82, 0x84], by decide⟩, rfl, by decide⟩, .inl rfl, .inl rfl, by decide⟩

/-- An SSID without data is not replaced by one that has some. -/
theorem hidden_ssid_stays :
    ¬ AddsRemoves true true (bcnOf (ratesIes [] (by decide))) (List.replicate fixedIeLength 0)
      (ratesIes [] (by decide)) ⟨0, [97], by decide⟩ := by
  intro hadds
  obtain ⟨e, hlast, hdata⟩ := (AddFits.of_addsRemoves (by decide) (by decide) (by decide)
    (by decide) (by decide) hadds).last
  have hempty : (⟨0, [], by decide⟩ : Element) = e := Option.some.inj hlast
  exact hdata (hempty ▸ rfl)

end BcnIes

end Rtl8723bs
