/-
# Elements taken out of a list

`rtw_ies_remove_ie` takes every element of a kind, of those with an OUI where one is given, out of
the list from `offset` on.  It has `rtw_get_ie_ex` look for one, moves what stands behind it to
its place, and goes on from there with what is left.

`rtw_get_ie_ex` holds neither an element nor the OUI against the length it is given: the OUI may be
compared with what stands behind a short element, and an element that is cut off be found.
`ies_remove_ie_iff` says for which lists no harm is done.
-/
import Mathlib.Data.List.Flatten
import Mathlib.Data.List.Infix
import Rtl8723bs.IeSearch

namespace Rtl8723bs.IesRemove

/-! ## 1. The functions -/

/-- The `n` bytes at `pos`, where they lie in the string. -/
def chunk (s : List UInt8) (pos n : Nat) : Option (List UInt8) :=
  if n = 0 ∨ pos + n ≤ s.length then some ((s.drop pos).take n) else none

section Functions

variable (eid : UInt8) (oui : Option (List UInt8))

/-- Whether the element at `cnt` of the string `s`, of the kind `id`, is the one looked for. -/
def isTarget (s : List UInt8) (cnt : Nat) (id : UInt8) : Option Bool :=
  if id = eid then
    match oui with
    | none => some true
    | some o => (chunk s ((cnt + 2) % 2 ^ 32) o.length).map fun d => decide (d = o)
  else some false

/-- The loop of `rtw_get_ie_ex` over the string `s`: the place and the length of what is found;
`none` where a byte past the end is read, or the loop never ends. -/
def getIeExLoop (s : List UInt8) : Nat → Nat → Option (Option (Nat × Nat))
  | 0, _ => none
  | n + 1, cnt =>
    if cnt < s.length then do
      let id ← s[cnt]?
      let hit ← isTarget eid oui s cnt id
      let l ← s[cnt + 1]?
      if hit then some (some (cnt, l.toNat + 2))
      else getIeExLoop s n ((cnt + (l.toNat + 2)) % 2 ^ 32)
    else some none

/-- `rtw_get_ie_ex`, asked for the length of the element. -/
def rtwGetIeEx (s : List UInt8) : Option (Option (Nat × Nat)) :=
  getIeExLoop eid oui s (s.length + 1) 0

/-- The loop of `rtw_ies_remove_ie`: `front` is what stands in front of `start`, and `s` the
`search_len` bytes from there on.  It gives `ret`, the list and `*ies_len`. -/
def removeLoop : Nat → List UInt8 → List UInt8 → Nat → Bool → Option (Bool × List UInt8 × Nat)
  | 0, _, _, _, _ => none
  | n + 1, front, s, iesLen, ret => do
    -- `target_ielen` is 2 or more where there is a `target_ie`
    match ← rtwGetIeEx eid oui s with
    | none => some (ret, front ++ s, iesLen)
    | some (cnt, targetIelen) => do
      let remainLen := (s.length + 2 ^ 32 - (cnt + targetIelen)) % 2 ^ 32
      let remain ← chunk s (cnt + targetIelen) remainLen
      removeLoop n (front ++ s.take cnt) remain ((iesLen + 2 ^ 32 - targetIelen) % 2 ^ 32) true

/-- `rtw_ies_remove_ie` on the list `ies`: whether it returns `_SUCCESS`, and the list and its
length afterwards; `none` where a byte behind the list is read or moved. -/
def rtwIesRemoveIe (ies : List UInt8) (offset : Nat) : Option (Bool × List UInt8 × Nat) :=
  if ies.length ≤ offset then some (false, ies, ies.length)
  else
    removeLoop eid oui (ies.length + 1) (ies.take offset) (ies.drop offset) ies.length false

end Functions

/-! ## 2. Lists of elements -/

/-- What is no element: the rest of one that is cut off. -/
def Cut : List UInt8 → Prop
  | [] => True
  | [_] => True
  | _ :: l :: d => d.length < l.toNat

/-- The elements of a byte string, and what is left behind the last. -/
structure Ies where
  elems : List Element
  tail : List UInt8
  cut : Cut tail

def bytesOf (es : List Element) : List UInt8 := es.flatMap Element.bytes

def Ies.bytes (l : Ies) : List UInt8 := bytesOf l.elems ++ l.tail

/-- **Every byte string is such a list.** -/
theorem exists_ies (s : List UInt8) : ∃ l : Ies, l.bytes = s := by
  induction hn : s.length using Nat.strong_induction_on generalizing s with
  | _ n ih =>
    match s with
    | [] => exact ⟨⟨[], [], trivial⟩, rfl⟩
    | [id] => exact ⟨⟨[], [id], trivial⟩, rfl⟩
    | id :: l :: d =>
      by_cases hcut : d.length < l.toNat
      · exact ⟨⟨[], id :: l :: d, hcut⟩, rfl⟩
      · have hlen : (d.take l.toNat).length = l.toNat := by
          rw [List.length_take]
          omega
        obtain ⟨rest, hrest⟩ := ih (d.drop l.toNat).length (by
          simp only [List.length_cons, List.length_drop] at hn ⊢
          omega) _ rfl
        have hl := l.toNat_lt
        refine ⟨⟨⟨id, d.take l.toNat, by omega⟩ :: rest.elems, rest.tail, rest.cut⟩, ?_⟩
        have hcons : Ies.bytes ⟨⟨id, d.take l.toNat, by omega⟩ :: rest.elems, rest.tail, rest.cut⟩
            = id :: UInt8.ofNat (d.take l.toNat).length :: (d.take l.toNat ++ rest.bytes) := by
          simp only [Ies.bytes, bytesOf, List.flatMap_cons, Element.bytes, List.cons_append,
            List.append_assoc]
        rw [hcons, hrest, hlen, UInt8.ofNat_toNat, List.take_append_drop]

section Lists

variable (eid : UInt8) (oui : Option (List UInt8))

/-- The element is of the kind, and its data starts with the OUI. -/
def Matches (e : Element) : Prop := e.eid = eid ∧ ∀ o ∈ oui, o <+: e.data

instance (e : Element) : Decidable (Matches eid oui e) :=
  inferInstanceAs (Decidable (_ ∧ _))

/-- **The list without the matching elements.** -/
def Ies.without (l : Ies) : Ies :=
  { l with elems := l.elems.filter fun e => ¬ Matches eid oui e }

/-- **Removing is filtering**: nothing behind the list is read or moved, the elements that match are
gone from `offset` on and all else is in its place, the length is what is left, the call succeeds
exactly if there was one, and a second call finds none. -/
def Removes (ies : List UInt8) (offset : Nat) : Prop :=
  ∃ l : Ies, l.bytes = ies.drop offset ∧
    let kept := ies.take offset ++ (l.without eid oui).bytes
    rtwIesRemoveIe eid oui ies offset
        = some (decide (∃ e ∈ l.elems, Matches eid oui e), kept, kept.length) ∧
      rtwIesRemoveIe eid oui kept offset = some (false, kept, kept.length)

/-- **A list that is searched without harm.**  Behind the last element there is not a single byte,
nor a piece of an element that would be found or whose OUI would lie behind the list; and where the
OUI is compared with an element of the kind, it does not reach behind the list, nor is it found
where the data of the element is not all there is to it. -/
def Clean : List Element → List UInt8 → Prop
  | [], [] => True
  | [], [_] => False
  | [], id :: _ :: d => id = eid → ∃ o ∈ oui, o.length ≤ d.length ∧ ¬ o <+: d
  | e :: es, tail =>
    (e.eid = eid → ∀ o ∈ oui, o.length ≤ (e.data ++ (bytesOf es ++ tail)).length ∧
      (o <+: e.data ++ (bytesOf es ++ tail) → o <+: e.data)) ∧ Clean es tail

end Lists

/-! ## 3. What a call does to a list -/

section Scan

variable {eid : UInt8} {oui : Option (List UInt8)}

/-- Whether an element of this kind, with these bytes behind its header, is found. -/
def looks (eid : UInt8) (oui : Option (List UInt8)) (id : UInt8) (rest : List UInt8) :
    Option Bool :=
  if id = eid then
    match oui with
    | none => some true
    | some o => if o.length ≤ rest.length then some (decide (o <+: rest)) else none
  else some false

/-- The elements a call leaves, looking at one after the other. -/
def scan (eid : UInt8) (oui : Option (List UInt8)) :
    List Element → List UInt8 → Option (List Element)
  | [], [] => some []
  | [], [_] => none
  | [], id :: _ :: d => (looks eid oui id d).bind fun hit => if hit then none else some []
  | e :: es, tail =>
    (looks eid oui e.eid (e.data ++ (bytesOf es ++ tail))).bind fun hit =>
      (scan eid oui es tail).map fun ks => if hit then ks else e :: ks

/-- What is not found does not match. -/
theorem looks_append {e : Element} {rest : List UInt8} {hit : Bool}
    (h : looks eid oui e.eid (e.data ++ rest) = some hit) (hm : Matches eid oui e) :
    hit = true := by
  unfold looks at h
  rw [if_pos hm.1] at h
  cases oui with
  | none => exact (Option.some.inj h).symm
  | some o =>
    have hpre : o <+: e.data ++ rest := (hm.2 o rfl).trans (List.prefix_append _ _)
    dsimp only at h
    rw [if_pos hpre.length_le, decide_eq_true hpre] at h
    exact (Option.some.inj h).symm

/-- **No element that matches is left.** -/
theorem scan_sublist {es ks : List Element} {tail : List UInt8}
    (h : scan eid oui es tail = some ks) :
    List.Sublist ks (es.filter fun e => ¬ Matches eid oui e) := by
  induction es generalizing ks with
  | nil =>
    match tail with
    | [] => exact Option.some.inj h ▸ List.Sublist.slnil
    | [_] => nomatch h
    | id :: _ :: d =>
      obtain ⟨hit, -, h⟩ := Option.bind_eq_some_iff.mp h
      cases hit with
      | false => exact Option.some.inj h ▸ List.Sublist.slnil
      | true => nomatch h
  | cons e es ih =>
    obtain ⟨hit, hlooks, h⟩ := Option.bind_eq_some_iff.mp h
    obtain ⟨ks', hks, h⟩ := Option.map_eq_some_iff.mp h
    subst h
    have hsub := ih hks
    by_cases hm : Matches eid oui e
    · rw [looks_append hlooks hm, if_pos rfl, List.filter_cons_of_neg (by simpa using hm)]
      exact hsub
    · rw [List.filter_cons_of_pos (by simpa using hm)]
      cases hit with
      | false => exact hsub.cons_cons e
      | true => exact hsub.cons e

theorem chunk_append (pre rest : List UInt8) (n : Nat) :
    chunk (pre ++ rest) pre.length n = if n ≤ rest.length then some (rest.take n) else none := by
  unfold chunk
  rw [List.length_append, List.drop_left]
  by_cases h : n ≤ rest.length
  · rw [if_pos (Or.inr (by omega)), if_pos h]
  · rw [if_neg (by omega), if_neg h]

theorem eq_of_chunk {m : Mem} {p len pos n : Nat} {c : List UInt8}
    (h : chunk (readBytes m p len) pos n = some c) : c = readBytes m (p + pos) n := by
  unfold chunk at h
  rw [length_readBytes] at h
  split at h
  · rename_i hin
    rw [← Option.some.inj h, readBytes_drop]
    rcases hin with rfl | hin
    · rfl
    · exact readBytes_take m _ (by omega)
  · nomatch h

/-- **The search is the one over memory**, where it reads nothing past the end. -/
theorem getIeExLoop_search {m : Mem} {p len k cnt : Nat} {r : Option (Nat × Nat)}
    (h : getIeExLoop eid oui (readBytes m p len) k cnt = some r) :
    (getIeExChain m p len eid oui).search k cnt = some (r.map Prod.fst) ∧
      ∀ x ∈ r, x.2 = ieSize m (p + x.1) := by
  induction k generalizing cnt with
  | zero => nomatch h
  | succ k ih =>
    rw [getIeExLoop, length_readBytes] at h
    by_cases hin : cnt < len
    · have hgo : (getIeExChain m p len eid oui).go cnt = true := decide_eq_true hin
      have hat : ∀ i x, (readBytes m p len)[i]? = some x → x = m (p + i) := by
        intro i x hx
        obtain ⟨hi, hx⟩ := List.getElem?_eq_some_iff.mp hx
        rw [length_readBytes] at hi
        have hread : (readBytes m p len).getD i 0 = m (p + i) := getD_readBytes m hi
        rw [List.getD_eq_getElem, hx] at hread
        · exact hread
        · rwa [length_readBytes]
      rw [if_pos hin] at h
      obtain ⟨id, hid, h⟩ := Option.bind_eq_some_iff.mp h
      obtain ⟨hit, hhit, h⟩ := Option.bind_eq_some_iff.mp h
      obtain ⟨l, hl, h⟩ := Option.bind_eq_some_iff.mp h
      obtain rfl := hat _ _ hid
      obtain rfl := hat _ _ hl
      have hchain : (getIeExChain m p len eid oui).hit cnt = hit := by
        unfold isTarget at hhit
        unfold getIeExChain
        by_cases hkind : m (p + cnt) = eid
        · cases oui with
          | none => simpa [hkind] using hhit
          | some o =>
            obtain ⟨c, hc, hhit⟩ := Option.map_eq_some_iff.mp ((if_pos hkind).symm.trans hhit)
            simpa [hkind, eq_of_chunk hc] using hhit
        · simpa [hkind] using hhit
      cases hit with
      | true =>
        rw [Chain.search_hit hgo hchain]
        obtain rfl := Option.some.inj h
        exact ⟨rfl, fun x hx => by cases hx; rfl⟩
      | false =>
        rw [Chain.search_passes ⟨hgo, hchain⟩]
        exact ih h
    · rw [if_neg hin] at h
      obtain rfl := Option.some.inj h
      rw [Chain.search_stop (decide_eq_false hin)]
      exact ⟨rfl, fun x hx => by cases hx⟩

/-- One round of the search. -/
theorem getIeExLoop_step {pre rest : List UInt8} {id l : UInt8} {k : Nat}
    (hlt : pre.length + 2 < 2 ^ 32) :
    getIeExLoop eid oui (pre ++ id :: l :: rest) (k + 1) pre.length
      = (looks eid oui id rest).bind fun hit =>
        if hit then some (some (pre.length, l.toNat + 2))
        else getIeExLoop eid oui (pre ++ id :: l :: rest) k
          ((pre.length + (l.toNat + 2)) % 2 ^ 32) := by
  have hin : pre.length < (pre ++ id :: l :: rest).length := by
    rw [List.length_append, List.length_cons]
    omega
  have hid : (pre ++ id :: l :: rest)[pre.length]? = some id := by simp
  have hl : (pre ++ id :: l :: rest)[pre.length + 1]? = some l := by
    rw [List.getElem?_append_right (Nat.le_succ _)]
    simp
  have hchunk : ∀ n, chunk (pre ++ id :: l :: rest) ((pre.length + 2) % 2 ^ 32) n
      = if n ≤ rest.length then some (rest.take n) else none := fun n => by
    have happ := chunk_append (pre ++ [id, l]) rest n
    rw [List.append_assoc, List.length_append] at happ
    rw [Nat.mod_eq_of_lt hlt]
    exact happ
  have hlooks : isTarget eid oui (pre ++ id :: l :: rest) pre.length id
      = looks eid oui id rest := by
    unfold isTarget looks
    cases oui with
    | none => rfl
    | some o =>
      have hpre : (rest.take o.length = o) ↔ o <+: rest := by
        rw [List.prefix_iff_eq_take, eq_comm]
      dsimp only
      rw [hchunk]
      by_cases hlong : o.length ≤ rest.length
      · simp only [if_pos hlong, Option.map_some, hpre]
      · simp only [if_neg hlong, Option.map_none]
  rw [getIeExLoop, if_pos hin, hid, hl]
  simp only [Option.bind_eq_bind, Option.bind_some, hlooks]

/-- The end of the list ends the search. -/
theorem getIeExLoop_end (s : List UInt8) (k cnt : Nat) (h : s.length ≤ cnt) :
    getIeExLoop eid oui s (k + 1) cnt = some none := by
  rw [getIeExLoop, if_neg (by omega)]

/-- What the loop does with what a search gives. -/
def afterSearch (eid : UInt8) (oui : Option (List UInt8)) (n : Nat) (front s : List UInt8)
    (iesLen : Nat) (ret : Bool) : Option (Nat × Nat) → Option (Bool × List UInt8 × Nat)
  | none => some (ret, front ++ s, iesLen)
  | some (cnt, targetIelen) =>
    (chunk s (cnt + targetIelen) ((s.length + 2 ^ 32 - (cnt + targetIelen)) % 2 ^ 32)).bind fun r =>
      removeLoop eid oui n (front ++ s.take cnt) r ((iesLen + 2 ^ 32 - targetIelen) % 2 ^ 32) true

theorem removeLoop_succ (n : Nat) (front s : List UInt8) (iesLen : Nat) (ret : Bool) :
    removeLoop eid oui (n + 1) front s iesLen ret
      = (getIeExLoop eid oui s (s.length + 1) 0).bind
          (afterSearch eid oui n front s iesLen ret) := by
  rw [removeLoop, rtwGetIeEx, Option.bind_eq_bind]
  congr 1

/-- A single byte has no length byte behind it. -/
theorem getIeExLoop_single (pre : List UInt8) (id : UInt8) (k : Nat) :
    getIeExLoop eid oui (pre ++ [id]) (k + 1) pre.length = none := by
  have hin : pre.length < (pre ++ [id]).length := by simp
  have hid : (pre ++ [id])[pre.length]? = some id := by simp
  have hl : (pre ++ [id])[pre.length + 1]? = none := by simp
  rw [getIeExLoop, if_pos hin, hid, hl]
  simp only [Option.bind_eq_bind, Option.bind_none, Option.bind_fun_none]

/-- What is no element stays, or is run past. -/
theorem afterSearch_tail {tail front pre : List UInt8} {n k iesLen : Nat} {ret : Bool}
    (hcut : Cut tail) (hk : tail.length < k) (hlen : iesLen = (front ++ (pre ++ tail)).length)
    (hbound : iesLen + 256 ≤ 2 ^ 32) :
    (getIeExLoop eid oui (pre ++ tail) k pre.length).bind
        (afterSearch eid oui n front (pre ++ tail) iesLen ret)
      = (scan eid oui [] tail).map fun _ => (ret, front ++ (pre ++ tail), iesLen) := by
  obtain ⟨k, rfl⟩ : ∃ j, k = j + 1 := ⟨k - 1, by omega⟩
  match tail, hcut with
  | [], _ =>
    rw [getIeExLoop_end _ _ _ (by simp), Option.bind_some]
    rfl
  | [id], _ =>
    rw [getIeExLoop_single]
    rfl
  | id :: l :: d, hcut =>
    have hshort : d.length < l.toNat := hcut
    have hl := l.toNat_lt
    simp only [List.length_append, List.length_cons] at hlen hk
    rw [getIeExLoop_step (by omega), scan]
    cases looks eid oui id d with
    | none => rfl
    | some hit =>
      cases hit with
      | false =>
        obtain ⟨k, rfl⟩ : ∃ j, k = j + 1 := ⟨k - 1, by omega⟩
        have hend : (pre ++ id :: l :: d).length ≤ (pre.length + (l.toNat + 2)) % 2 ^ 32 := by
          rw [Nat.mod_eq_of_lt (by omega)]
          simp only [List.length_append, List.length_cons]
          omega
        simp only [Option.bind_some, Bool.false_eq_true, if_false, getIeExLoop_end _ _ _ hend,
          Option.map_some, afterSearch]
      | true =>
        have hpast : chunk (pre ++ id :: l :: d) (pre.length + (l.toNat + 2))
            (((pre ++ id :: l :: d).length + 2 ^ 32 - (pre.length + (l.toNat + 2))) % 2 ^ 32)
              = none := by
          have hlen' : (pre ++ id :: l :: d).length = pre.length + (d.length + 2) := by
            simp only [List.length_append, List.length_cons]
          rw [chunk, hlen', if_neg]
          omega
        rw [Option.bind_some, if_pos rfl, Option.bind_some, afterSearch, hpast]
        rfl

theorem bytesOf_cons (e : Element) (es : List Element) (tail : List UInt8) :
    bytesOf (e :: es) ++ tail
      = e.eid :: UInt8.ofNat e.data.length :: (e.data ++ (bytesOf es ++ tail)) := by
  simp only [bytesOf, List.flatMap_cons, Element.bytes, List.cons_append, List.append_assoc]

theorem length_le_bytesOf (es : List Element) : 2 * es.length ≤ (bytesOf es).length := by
  induction es with
  | nil => exact Nat.le_refl 0
  | cons e es ih =>
    simp only [bytesOf, List.flatMap_cons, List.length_append, e.length_bytes,
      List.length_cons] at ih ⊢
    omega

/-- What stands behind an element is what is moved to its place. -/
theorem chunk_behind (pre : List UInt8) (e : Element) (rest : List UInt8)
    (h : (pre ++ e.bytes ++ rest).length < 2 ^ 32) :
    chunk (pre ++ e.bytes ++ rest) (pre.length + (e.data.length + 2))
      (((pre ++ e.bytes ++ rest).length + 2 ^ 32 - (pre.length + (e.data.length + 2))) % 2 ^ 32)
        = some rest := by
  have hat : (pre ++ e.bytes).length = pre.length + (e.data.length + 2) := by
    rw [List.length_append, e.length_bytes]
  have hrest : ((pre ++ e.bytes ++ rest).length + 2 ^ 32
      - (pre.length + (e.data.length + 2))) % 2 ^ 32 = rest.length := by
    rw [List.length_append, hat] at h ⊢
    omega
  rw [hrest, ← hat, chunk_append, if_pos (Nat.le_refl _), List.take_length]

/-- **A call removes what the scan says**, from a search on that has come to the elements `es`. -/
theorem afterSearch_eq {es : List Element} {tail front pre : List UInt8} {n k iesLen : Nat}
    {ret : Bool} (hcut : Cut tail) (hk : es.length + tail.length < k) (hn : es.length < n)
    (hlen : iesLen = (front ++ (pre ++ (bytesOf es ++ tail))).length)
    (hbound : iesLen + 256 ≤ 2 ^ 32) :
    (getIeExLoop eid oui (pre ++ (bytesOf es ++ tail)) k pre.length).bind
        (afterSearch eid oui n front (pre ++ (bytesOf es ++ tail)) iesLen ret)
      = (scan eid oui es tail).map fun ks =>
        (ret || decide (ks.length < es.length), front ++ (pre ++ (bytesOf ks ++ tail)),
          (front ++ (pre ++ (bytesOf ks ++ tail))).length) := by
  induction es generalizing front pre n k iesLen ret with
  | nil =>
    refine (afterSearch_tail hcut (by simpa using hk) hlen hbound).trans ?_
    subst hlen
    match tail, hcut with
    | [], _ => simp [scan, bytesOf]
    | [id], _ => rfl
    | id :: l :: d, _ =>
      rw [scan]
      cases looks eid oui id d with
      | none => rfl
      | some hit => cases hit <;> simp [bytesOf]
  | cons e es ih =>
    have hl : (UInt8.ofNat e.data.length).toNat = e.data.length := toNat_ofNat_short e.short
    have hsum : iesLen = front.length + (pre.length +
        (e.data.length + 2 + (bytesOf es ++ tail).length)) := by
      rw [hlen, bytesOf_cons]
      simp only [List.length_append, List.length_cons]
      omega
    obtain ⟨k, rfl⟩ : ∃ j, k = j + 1 := ⟨k - 1, by omega⟩
    rw [bytesOf_cons, getIeExLoop_step (by omega), scan, hl]
    cases looks eid oui e.eid (e.data ++ (bytesOf es ++ tail)) with
    | none => rfl
    | some hit =>
      cases hit with
      | false =>
        -- the search goes on behind the element
        have hnext : (pre.length + (e.data.length + 2)) % 2 ^ 32 = (pre ++ e.bytes).length := by
          rw [Nat.mod_eq_of_lt (by omega), List.length_append, e.length_bytes]
        have hs : pre ++ e.eid :: UInt8.ofNat e.data.length :: (e.data ++ (bytesOf es ++ tail))
            = (pre ++ e.bytes) ++ (bytesOf es ++ tail) := by
          rw [List.append_assoc]
          rfl
        rw [Option.bind_some, if_neg Bool.false_ne_true, hnext, hs,
          ih (by simp only [List.length_cons] at hk; omega)
            (by simp only [List.length_cons] at hn; omega) (by rw [hlen, bytesOf_cons, hs]) hbound,
          Option.bind_some, Option.map_map]
        congr 1
        funext ks
        have hkept : (pre ++ e.bytes) ++ (bytesOf ks ++ tail)
            = pre ++ (bytesOf (e :: ks) ++ tail) := by
          rw [bytesOf_cons, List.append_assoc]
          rfl
        simp only [Function.comp_apply, Bool.false_eq_true, if_false, hkept, List.length_cons,
          Nat.add_lt_add_iff_right]
      | true =>
        -- the element is cut out, and a new search starts in its place
        obtain ⟨n, rfl⟩ : ∃ j, n = j + 1 := ⟨n - 1, by omega⟩
        have hs : pre ++ e.eid :: UInt8.ofNat e.data.length :: (e.data ++ (bytesOf es ++ tail))
            = (pre ++ e.bytes) ++ (bytesOf es ++ tail) := by
          rw [List.append_assoc]
          rfl
        have hcut' := chunk_behind pre e (bytesOf es ++ tail) (by
          rw [← hs]
          simp only [List.length_append, List.length_cons] at hsum ⊢
          omega)
        have hleft : (iesLen + 2 ^ 32 - (e.data.length + 2)) % 2 ^ 32
            = (front ++ pre ++ ([] ++ (bytesOf es ++ tail))).length := by
          simp only [List.length_append, List.length_nil] at hsum ⊢
          omega
        have hmore := length_le_bytesOf es
        rw [Option.bind_some, if_pos rfl, Option.bind_some, afterSearch, hs, hcut',
          Option.bind_some, List.append_assoc pre, List.take_left, removeLoop_succ, hleft]
        have hagain := @ih (front ++ pre) [] n ((bytesOf es ++ tail).length + 1) _ true
          (by rw [List.length_append]; omega) (by simp only [List.length_cons] at hn; omega) rfl
          (by rw [← hleft]; omega)
        refine hagain.trans ?_
        rw [Option.bind_some]
        cases hscan : scan eid oui es tail with
        | none => rfl
        | some ks =>
          have hfew := (scan_sublist hscan).length_le.trans (List.length_filter_le _ _)
          have hless : ks.length < (e :: es).length := Nat.lt_succ_of_le hfew
          simp only [Option.map_some, if_true, Bool.true_or, hless, decide_true, Bool.or_true,
            List.nil_append, List.append_assoc]

/-- **What a call gives** is what the scan leaves. -/
theorem rtwIesRemoveIe_eq {ies : List UInt8} {offset : Nat} {l : Ies}
    (hl : l.bytes = ies.drop offset) (hbound : ies.length + 256 ≤ 2 ^ 32) :
    rtwIesRemoveIe eid oui ies offset = (scan eid oui l.elems l.tail).map fun ks =>
      (decide (ks.length < l.elems.length), ies.take offset ++ (bytesOf ks ++ l.tail),
        (ies.take offset ++ (bytesOf ks ++ l.tail)).length) := by
  have hlen := congrArg List.length hl
  rw [Ies.bytes, List.length_append, List.length_drop] at hlen
  have hmore := length_le_bytesOf l.elems
  unfold rtwIesRemoveIe
  by_cases hend : ies.length ≤ offset
  · have helems : l.elems = [] := List.length_eq_zero_iff.mp (by omega)
    have htail : l.tail = [] := List.length_eq_zero_iff.mp (by omega)
    rw [if_pos hend, helems, htail]
    simp [scan, bytesOf, List.take_of_length_le hend]
  · have hsplit : ies.length = (ies.take offset ++ ([] ++ (bytesOf l.elems ++ l.tail))).length := by
      rw [List.nil_append, ← Ies.bytes, hl, List.take_append_drop]
    rw [if_neg hend, removeLoop_succ, ← hl]
    have hrounds : l.elems.length + l.tail.length < l.bytes.length + 1 := by
      rw [Ies.bytes, List.length_append]
      omega
    exact @afterSearch_eq eid oui _ _ _ [] _ _ _ _ l.cut hrounds (by omega) hsplit hbound

/-- What is left is all that should be, exactly if the bytes are. -/
theorem eq_of_sublist_of_bytes {ks es : List Element} (hsub : List.Sublist ks es)
    (h : bytesOf ks = bytesOf es) : ks = es := by
  induction hsub with
  | slnil => rfl
  | @cons ks es e hsub ih =>
    have hle := (hsub.flatMap Element.bytes).length_le
    have hlen := congrArg List.length h
    rw [bytesOf, bytesOf, List.flatMap_cons, List.length_append, e.length_bytes] at hlen
    omega
  | @cons_cons ks es e hsub ih =>
    rw [bytesOf, bytesOf, List.flatMap_cons, List.flatMap_cons, List.append_cancel_left_eq] at h
    rw [ih h]

/-- An element is looked at without harm exactly if it is found where it matches. -/
theorem looks_eq_iff {e : Element} {rest : List UInt8} :
    looks eid oui e.eid (e.data ++ rest) = some (decide (Matches eid oui e)) ↔
      (e.eid = eid → ∀ o ∈ oui, o.length ≤ (e.data ++ rest).length ∧
        (o <+: e.data ++ rest → o <+: e.data)) := by
  unfold looks Matches
  by_cases hid : e.eid = eid
  · cases oui with
    | none => simp [hid]
    | some o =>
      have hpre : o <+: e.data → o <+: e.data ++ rest := fun h => h.trans (List.prefix_append _ _)
      by_cases hlong : o.length ≤ (e.data ++ rest).length
      · simp only [hid, hlong, if_true, Option.some.injEq, decide_eq_decide, Option.mem_some_iff,
          forall_eq', true_and, forall_const]
        exact ⟨fun h => h.mp, fun h => ⟨h, hpre⟩⟩
      · simp only [hid, hlong, if_true, if_false, Option.mem_some_iff, forall_eq', false_and,
          forall_const, reduceCtorEq]
  · simp [hid]

/-- **The scan leaves what does not match** exactly if the list is clean. -/
theorem scan_eq_filter_iff {es : List Element} {tail : List UInt8} :
    scan eid oui es tail = some (es.filter fun e => ¬ Matches eid oui e) ↔
      Clean eid oui es tail := by
  induction es with
  | nil =>
    match tail with
    | [] => simp [scan, Clean]
    | [_] => simp [scan, Clean]
    | id :: _ :: d =>
      unfold scan Clean looks
      by_cases hid : id = eid
      · cases oui with
        | none => simp [hid]
        | some o =>
          by_cases hlong : o.length ≤ d.length
          · by_cases hpre : o <+: d <;> simp [hid, hlong, hpre]
          · simp [hid, hlong]
      · simp [hid]
  | cons e es ih =>
    rw [Clean, ← looks_eq_iff, ← ih, scan]
    constructor
    · intro h
      obtain ⟨hit, hlooks, h⟩ := Option.bind_eq_some_iff.mp h
      obtain ⟨ks, hks, h⟩ := Option.map_eq_some_iff.mp h
      have hsub := scan_sublist hks
      by_cases hm : Matches eid oui e
      · rw [looks_append hlooks hm, if_pos rfl, List.filter_cons_of_neg (by simpa using hm)] at h
        rw [hlooks, looks_append hlooks hm, hks, h]
        simp [hm]
      · rw [List.filter_cons_of_pos (by simpa using hm)] at h
        cases hit with
        | false =>
          rw [hlooks, hks, (List.cons.inj h).2]
          simp [hm]
        | true =>
          -- an element too many is gone
          have hlen := congrArg List.length h
          have hfew := hsub.length_le
          rw [if_pos rfl, List.length_cons] at hlen
          omega
    · rintro ⟨hlooks, hscan⟩
      rw [hlooks, hscan, Option.bind_some, Option.map_some]
      by_cases hm : Matches eid oui e
      · rw [List.filter_cons_of_neg (by simpa using hm), if_pos (decide_eq_true hm)]
      · rw [List.filter_cons_of_pos (by simpa using hm), if_neg (by simpa using hm)]

end Scan

/-! ## 4. When a call removes what it should -/

section Removing

variable {eid : UInt8} {oui : Option (List UInt8)}

/-- A call does its work exactly on a clean list. -/
theorem run_iff {ies : List UInt8} {offset : Nat} {l : Ies} (hl : l.bytes = ies.drop offset)
    (hbound : ies.length + 256 ≤ 2 ^ 32) :
    rtwIesRemoveIe eid oui ies offset
        = some (decide (∃ e ∈ l.elems, Matches eid oui e),
          ies.take offset ++ (l.without eid oui).bytes,
          (ies.take offset ++ (l.without eid oui).bytes).length) ↔
      Clean eid oui l.elems l.tail := by
  rw [rtwIesRemoveIe_eq hl hbound, ← scan_eq_filter_iff, Option.map_eq_some_iff]
  have hfewer : decide ((l.elems.filter fun e => ¬ Matches eid oui e).length < l.elems.length)
      = decide (∃ e ∈ l.elems, Matches eid oui e) := by
    rw [decide_eq_decide, List.length_filter_lt_length_iff_exists]
    simp only [decide_not, Bool.not_eq_true', decide_eq_false_iff_not, not_not]
  constructor
  · rintro ⟨ks, hks, h⟩
    have hbytes : bytesOf ks = bytesOf (l.without eid oui).elems := by
      have happ := (Prod.mk.inj (Prod.mk.inj h).2).1
      rw [List.append_cancel_left_eq, Ies.bytes] at happ
      exact List.append_cancel_right happ
    rw [hks, eq_of_sublist_of_bytes (scan_sublist hks) hbytes]
  · intro h
    exact ⟨_, h, by rw [hfewer]; rfl⟩

/-- Without the matching elements none matches. -/
theorem without_without (l : Ies) : (l.without eid oui).without eid oui = l.without eid oui := by
  simp only [Ies.without, List.filter_filter, Bool.and_self]

theorem not_exists_without (l : Ies) :
    ¬ ∃ e ∈ (l.without eid oui).elems, Matches eid oui e := by
  rintro ⟨e, he, hm⟩
  exact of_decide_eq_true (List.mem_filter.mp he).2 hm

/-- The list with the elements gone, from `offset` on. -/
theorem drop_kept (eid : UInt8) (oui : Option (List UInt8)) {ies : List UInt8} {offset : Nat}
    {l : Ies} (hl : l.bytes = ies.drop offset) :
    (ies.take offset ++ (l.without eid oui).bytes).take offset = ies.take offset ∧
      (l.without eid oui).bytes = (ies.take offset ++ (l.without eid oui).bytes).drop offset := by
  by_cases hend : ies.length ≤ offset
  · have hlen := congrArg List.length hl
    rw [Ies.bytes, List.length_append, List.length_drop] at hlen
    have hmore := length_le_bytesOf l.elems
    have helems : l.elems = [] := List.length_eq_zero_iff.mp (by omega)
    have htail : l.tail = [] := List.length_eq_zero_iff.mp (by omega)
    have hnone : (l.without eid oui).bytes = [] := by
      simp [Ies.bytes, Ies.without, helems, htail, bytesOf]
    rw [hnone, List.append_nil, List.take_of_length_le hend]
    exact ⟨List.take_of_length_le hend, (List.drop_eq_nil_of_le hend).symm⟩
  · have htake : (ies.take offset).length = offset := by
      rw [List.length_take]
      omega
    rw [List.take_left' htake, List.drop_left' htake]
    exact ⟨rfl, rfl⟩

end Removing

/-- **A list of elements**, as long as the counter of an `uint` can run past its last one. -/
structure IeList where
  bytes : List UInt8
  counted : bytes.length + 256 ≤ 2 ^ 32

/-- **Removing elements is filtering** exactly where the list, and what is left of it, are searched
without harm. -/
theorem ies_remove_ie_iff (eid : UInt8) (oui : Option (List UInt8)) (ies : IeList) (offset : Nat) :
    Removes eid oui ies.bytes offset ↔
      ∃ l : Ies, l.bytes = ies.bytes.drop offset ∧ Clean eid oui l.elems l.tail ∧
        Clean eid oui (l.without eid oui).elems l.tail := by
  refine exists_congr fun l => and_congr_right fun hl => ?_
  obtain ⟨htake, hdrop⟩ := drop_kept eid oui hl
  refine and_congr (run_iff hl ies.counted) ?_
  have hbound : (ies.bytes.take offset ++ (l.without eid oui).bytes).length + 256 ≤ 2 ^ 32 := by
    have hsub : List.Sublist (l.without eid oui).elems l.elems := List.filter_sublist
    have hless := hsub.flatMap Element.bytes
    have hlen := congrArg List.length hl
    have hcounted := ies.counted
    rw [Ies.bytes, List.length_append, List.length_drop] at hlen
    have hkept : (bytesOf (l.without eid oui).elems).length ≤ (bytesOf l.elems).length :=
      hless.length_le
    have htail : (l.without eid oui).tail = l.tail := rfl
    rw [Ies.bytes, htail, List.length_append, List.length_append, List.length_take]
    omega
  have hagain := @run_iff eid oui _ offset _ hdrop hbound
  rw [htake, without_without, decide_eq_false (not_exists_without l)] at hagain
  exact hagain

/-- An empty vendor element at the end of the list. -/
def bareVendor : IeList := ⟨[221, 0], by decide⟩

/-- Not for every list: the OUI is compared with what stands behind it. -/
theorem bare_vendor_read : ¬ ∀ eid oui (ies : IeList) offset, Removes eid oui ies.bytes offset := by
  intro hall
  obtain ⟨l, -, hrun, -⟩ := hall 221 (some p2pOui) bareVendor 0
  have hnone : rtwIesRemoveIe 221 (some p2pOui) bareVendor.bytes 0 = none := by decide
  rw [hnone] at hrun
  nomatch hrun

end Rtl8723bs.IesRemove
