/-
# Four walks over the elements of a frame

A frame that `check_ielen` or `rtw_ieee802_11_parse_elems` lets pass is searched by `rtw_get_ie` and
`rtw_get_ie_ex` afterwards.  Each of the four walks over the elements in its own way: two hold an
element against what is left, one with an `int` and one with an `uint`, and two hold only the place
they have come to against a limit, of which one is a `sint`.

`element_parsers_agree` says what they have in common on every buffer.  From 2^31 bytes on the two
that count with a sign see a negative length.
-/
import Mathlib.Data.List.Count
import Rtl8723bs.Ap.IeSplice
import Rtl8723bs.Mlme.BeaconKeys

namespace Rtl8723bs.IeParsers

open IesRemove BcnIes BcnKeys

/-! ## 1. `rtw_ieee802_11_parse_elems` -/

inductive ParseRes
  | parseOK
  | parseUnknown
  | parseFailed
deriving DecidableEq, Repr

/-- The elements that `struct rtw_ieee802_11_elems` has a pointer and a length for. -/
inductive Field
  | ssid
  | suppRates
  | fhParams
  | dsParams
  | cfParams
  | tim
  | ibssParams
  | challenge
  | erpInfo
  | extSuppRates
  | wpaIe
  | rsnIe
  | wme
  | wmeTspec
  | wpsIe
  | powerCap
  | suppChannels
  | mdie
  | ftie
  | timeoutInt
  | htCapabilities
  | htOperation
  | vendorHtCap
  | vhtCapabilities
  | vhtOperation
  | vhtOpModeNotify
deriving DecidableEq, Repr

/-- The cases of the `switch`, apart from `WLAN_EID_VENDOR_SPECIFIC`. -/
def recorded : List (UInt8 × Field) :=
  [(0, .ssid), (1, .suppRates), (2, .fhParams), (3, .dsParams), (4, .cfParams), (5, .tim),
    (6, .ibssParams), (16, .challenge), (42, .erpInfo), (50, .extSuppRates), (48, .rsnIe),
    (33, .powerCap), (36, .suppChannels), (54, .mdie), (55, .ftie), (56, .timeoutInt),
    (45, .htCapabilities), (61, .htOperation), (191, .vhtCapabilities), (192, .vhtOperation),
    (199, .vhtOpModeNotify)]

/-- `rtw_ieee802_11_parse_vendor_specific`: the field that is set; `none` is -1. -/
def rtwIeee80211ParseVendorSpecific (m : Mem) (pos elen : Nat) : Option Field :=
  if elen < 4 then none
  else if readBytes m pos 3 = ouiMicrosoft then
    if m (pos + 3) = 1 then some .wpaIe
    else if m (pos + 3) = 2 then
      if elen < 5 then none
      else if m (pos + 4) = 0 ∨ m (pos + 4) = 1 then some .wme
      else if m (pos + 4) = 2 then some .wmeTspec
      else none
    else if m (pos + 3) = 4 then some .wpsIe
    else none
  else if readBytes m pos 3 = ouiBroadcom then
    if m (pos + 3) = 0x33 then some .vendorHtCap else none
  else none

/-- The `switch` on the kind of an element: the field that is set; `none` is `unknown++`. -/
def fieldFor (m : Mem) (id : UInt8) (pos elen : Nat) : Option Field :=
  if id = wlanEidVendorSpecific then rtwIeee80211ParseVendorSpecific m pos elen
  else recorded.lookup id

/-- `elems`, each pointer with its length, and `unknown`. -/
structure Parsed where
  elems : Field → Option (Nat × Nat)
  unknown : Nat

/-- The body of a round, with the data of the element at `pos`. -/
def Parsed.note (m : Mem) (s : Parsed) (id : UInt8) (pos elen : Nat) : Parsed :=
  match fieldFor m id pos elen with
  | some f => { s with elems := fun g => if g = f then some (pos, elen) else s.elems g }
  | none => { s with unknown := s.unknown + 1 }

/-- The loop of `rtw_ieee802_11_parse_elems`, and what is returned behind it. -/
def parseLoop (m : Mem) (pos left : Nat) (s : Parsed) :
    ParseRes × (Field → Option (Nat × Nat)) :=
  if 2 ≤ left then
    let id := m pos
    let elen := (m (pos + 1)).toNat
    if left - 2 < elen then (.parseFailed, s.elems)
    else parseLoop m (pos + 2 + elen) (left - 2 - elen) (s.note m id (pos + 2) elen)
  else if left ≠ 0 then (.parseFailed, s.elems)
  else (if s.unknown ≠ 0 then .parseUnknown else .parseOK, s.elems)
termination_by left

/-- `rtw_ieee802_11_parse_elems`. -/
def rtwIeee80211ParseElems (m : Mem) (start : Nat) (len : UInt32) :
    ParseRes × (Field → Option (Nat × Nat)) :=
  parseLoop m start len.toNat ⟨fun _ => none, 0⟩

/-! ## 2. `check_ielen` -/

/-- An `uint` taken for an `int`. -/
def sint (n : UInt32) : Int := if n.toNat < 2 ^ 31 then n.toNat else (n.toNat : Int) - 2 ^ 32

/-- The loop of `check_ielen`, and what is returned behind it. -/
def checkIelenLoop (m : Mem) (pos : Nat) (left : Int) : Bool :=
  if 2 ≤ left then
    let id := m pos
    let elen := (m (pos + 1)).toNat
    if left - 2 < elen then false
    else if id = wlanEidVendorSpecific ∧ elen < 4 then false
    else checkIelenLoop m (pos + 2 + elen) (left - 2 - elen)
  else left = 0
termination_by left.toNat

/-- `check_ielen`. -/
def checkIelen (m : Mem) (start : Nat) (len : UInt32) : Bool := checkIelenLoop m start (sint len)

/-- `validate_beacon_len`. -/
def validateBeaconLen (m : Mem) (pframe : Nat) (len : UInt32) : Bool :=
  let ieOffset := beaconIeOffset + wlanHdrA3Len
  if len.toNat < ieOffset then false
  else checkIelen m (pframe + ieOffset) (len - UInt32.ofNat ieOffset)

/-! ## 3. Lists of elements -/

/-- The bytes are exactly the elements. -/
def Lists (m : Mem) (start len : Nat) (es : List Element) : Prop :=
  readBytes m start len = bytesOf es

/-- Where the data of the elements of a list at `pos` lie, and how long they are. -/
def dataOf : Nat → List Element → List (Nat × Nat)
  | _, [] => []
  | pos, e :: es => (pos + 2, e.data.length) :: dataOf (pos + e.bytes.length) es

section Walks

variable {m : Mem} {n pos left : Nat} {es : List Element} {l : List (Nat × Nat)}

/-- The first element of a list is in front of a shorter list. -/
theorem Lists.cons {e : Element} (h : Lists m pos left (e :: es)) :
    m pos = e.eid ∧ (m (pos + 1)).toNat = e.data.length ∧ e.bytes.length ≤ left ∧
      Lists m (pos + e.bytes.length) (left - e.bytes.length) es := by
  unfold Lists at h
  rw [bytesOf_cons'] at h
  obtain ⟨heid, hlen⟩ := header_at h
  obtain ⟨hle, hrest⟩ := behind_at h
  exact ⟨heid, hlen, hle, hrest⟩

theorem Lists.length (h : Lists m pos left es) : (bytesOf es).length = left := by
  rw [← h, length_readBytes]

/-- A list of elements in one walk. -/
theorem ieListFrom_of_lists (h : Lists m pos left es) (hn : left ≤ 2 * n) :
    ieListFrom m n pos left = some (dataOf pos es) := by
  induction es generalizing n pos left with
  | nil =>
    obtain rfl : 0 = left := h.length
    cases n <;> rfl
  | cons e es ih =>
    obtain ⟨-, hlen, hle, hrest⟩ := h.cons
    rw [e.length_bytes] at hle hrest
    cases n with
    | zero => omega
    | succ n =>
      have hleft : left - 2 - e.data.length = left - (e.data.length + 2) := by omega
      have hpos : pos + 2 + e.data.length = pos + (e.data.length + 2) := by omega
      rw [ieListFrom, if_neg (by omega)]
      dsimp only
      rw [hlen, if_neg (by omega), hleft, hpos, ih hrest (by omega), dataOf, e.length_bytes]
      rfl

/-- What the header at a place says is there. -/
def elementAt (m : Mem) (pos : Nat) : Element where
  eid := m pos
  data := readBytes m (pos + 2) (m (pos + 1)).toNat
  short := by
    rw [length_readBytes]
    exact (m (pos + 1)).toNat_lt

theorem bytes_elementAt (m : Mem) (pos : Nat) :
    (elementAt m pos).bytes = readBytes m pos ((m (pos + 1)).toNat + 2) := by
  simp [elementAt, Element.bytes, readBytes]

/-- A walk that comes to the end has gone over a list. -/
theorem exists_lists (h : ieListFrom m n pos left = some l) : ∃ es, Lists m pos left es := by
  induction n generalizing pos left l with
  | zero =>
    unfold ieListFrom at h
    split_ifs at h with hzero
    exact ⟨[], by rw [hzero]; rfl⟩
  | succ n ih =>
    unfold ieListFrom at h
    dsimp only at h
    split_ifs at h with hshort hzero hlong
    · exact ⟨[], by rw [hzero]; rfl⟩
    · obtain ⟨rest, hrest, -⟩ := Option.map_eq_some_iff.mp h
      obtain ⟨es, hes⟩ := ih hrest
      refine ⟨elementAt m pos :: es, ?_⟩
      have hsplit : left = ((m (pos + 1)).toNat + 2) + (left - 2 - (m (pos + 1)).toNat) := by omega
      have hpos : pos + ((m (pos + 1)).toNat + 2) = pos + 2 + (m (pos + 1)).toNat := by omega
      unfold Lists at hes ⊢
      rw [bytesOf_cons', bytes_elementAt, ← hes, hsplit, readBytes_add, hpos, ← hsplit]

/-- **The walk comes to the end of exactly the lists.** -/
theorem ieList_iff : (∃ l, ieList m pos left = some l) ↔ ∃ es, Lists m pos left es :=
  ⟨fun ⟨_, h⟩ => exists_lists h, fun ⟨es, h⟩ => ⟨dataOf pos es, ieListFrom_of_lists h (by omega)⟩⟩

/-- The heads of the elements stand in front of their data. -/
theorem heads_dataOf (h : Lists m pos left es) :
    (dataOf pos es).map (fun q => (m (q.1 - 2), q.2)) = es.map fun e => (e.eid, e.data.length) := by
  induction es generalizing pos left with
  | nil => rfl
  | cons e es ih =>
    obtain ⟨heid, -, -, hrest⟩ := h.cons
    rw [dataOf, List.map_cons, List.map_cons, Nat.add_sub_cancel, heid, ih hrest]

end Walks

/-! ## 4. The two walks that check -/

section Checks

variable {m : Mem} {n pos left : Nat} {es : List Element} {l : List (Nat × Nat)} {s : Parsed}

/-- A round, with the data of the element at `e`. -/
def Parsed.noteAt (m : Mem) (s : Parsed) (e : Nat × Nat) : Parsed := s.note m (m (e.1 - 2)) e.1 e.2

theorem parseLoop_some (h : ieListFrom m n pos left = some l) :
    parseLoop m pos left s = ((if (l.foldl (Parsed.noteAt m) s).unknown ≠ 0 then .parseUnknown
      else .parseOK), (l.foldl (Parsed.noteAt m) s).elems) := by
  induction n generalizing pos left l s with
  | zero =>
    unfold ieListFrom at h
    split_ifs at h with hzero
    cases h
    rw [parseLoop, if_neg (by omega), if_neg (by omega)]
    rfl
  | succ n ih =>
    unfold ieListFrom at h
    dsimp only at h
    split_ifs at h with hshort hzero hlong
    · cases h
      rw [parseLoop, if_neg (by omega), if_neg (by omega)]
      rfl
    · obtain ⟨rest, hrest, rfl⟩ := Option.map_eq_some_iff.mp h
      rw [parseLoop, if_pos (by omega)]
      dsimp only
      rw [if_neg hlong, ih hrest, List.foldl_cons]
      rfl

theorem parseLoop_none (h : ieListFrom m n pos left = none) (hn : left ≤ 2 * n) :
    (parseLoop m pos left s).1 = .parseFailed := by
  induction n generalizing pos left s with
  | zero =>
    unfold ieListFrom at h
    split_ifs at h with hzero
    omega
  | succ n ih =>
    unfold ieListFrom at h
    dsimp only at h
    split_ifs at h with hshort hzero hlong
    · rw [parseLoop, if_neg (by omega), if_pos hzero]
    · rw [parseLoop, if_pos (by omega)]
      dsimp only
      rw [if_pos hlong]
    · rw [parseLoop, if_pos (by omega)]
      dsimp only
      rw [if_neg hlong]
      exact ih (Option.map_eq_none_iff.mp h) (by omega)

/-- A vendor element holds an OUI and a type. -/
def longEnough (e : UInt8 × Nat) : Bool := e.1 = wlanEidVendorSpecific → 4 ≤ e.2

/-- `check_ielen` comes to the end of the lists whose vendor elements are long enough. -/
theorem checkIelenLoop_eq (hn : left ≤ 2 * n) : checkIelenLoop m pos left
    = (ieListFrom m n pos left).any fun l => l.all fun e => longEnough (m (e.1 - 2), e.2) := by
  induction n generalizing pos left with
  | zero =>
    obtain rfl : left = 0 := by omega
    rw [checkIelenLoop]
    rfl
  | succ n ih =>
    rw [checkIelenLoop, ieListFrom]
    by_cases hshort : left < 2
    · rw [if_neg (by omega), if_pos hshort]
      by_cases hzero : left = 0 <;> simp [hzero]
    · rw [if_pos (by omega), if_neg hshort]
      dsimp only
      by_cases hlong : left - 2 < (m (pos + 1)).toNat
      · rw [if_pos (by omega), if_pos hlong]
        rfl
      · have hleft : (left : Int) - 2 - (m (pos + 1)).toNat
            = ((left - 2 - (m (pos + 1)).toNat : Nat) : Int) := by omega
        rw [if_neg (by omega), if_neg hlong, hleft, ih (by omega)]
        by_cases hvendor : m pos = wlanEidVendorSpecific ∧ (m (pos + 1)).toNat < 4
        · have hbad : longEnough (m pos, (m (pos + 1)).toNat) = false := by
            simp [longEnough, hvendor.1, hvendor.2]
          rw [if_pos hvendor]
          cases ieListFrom m n (pos + 2 + (m (pos + 1)).toNat) (left - 2 - (m (pos + 1)).toNat) <;>
            simp [hbad]
        · have hgood : longEnough (m pos, (m (pos + 1)).toNat) = true := by
            simpa [longEnough, imp_iff_not_or] using hvendor
          rw [if_neg hvendor]
          cases ieListFrom m n (pos + 2 + (m (pos + 1)).toNat) (left - 2 - (m (pos + 1)).toNat) <;>
            simp [hgood]

theorem all_longEnough (h : Lists m pos left es) :
    (dataOf pos es).all (fun q => longEnough (m (q.1 - 2), q.2))
      = es.all fun e => longEnough (e.eid, e.data.length) := by
  have hall := congrArg (fun hs => hs.all longEnough) (heads_dataOf h)
  rwa [List.all_map, List.all_map] at hall

end Checks

/-! ## 5. The two walks that search -/

/-- A walk from head to head that stops at an element of the kind, as far as its elements lie below
the limit. -/
structure WalksBy (c : Chain) (m : Mem) (p n : Nat) (id : UInt8) : Prop where
  go : ∀ i, c.go i = true ↔ i < n
  hit : ∀ i, c.hit i = true ↔ m (p + i) = id
  next : ∀ i, i + ieSize m (p + i) ≤ n → c.next i = i + ieSize m (p + i)

section Searches

variable {c : Chain} {m : Mem} {p n i : Nat} {id : UInt8} {es : List Element}

/-- At the head of a list the first element is whole. -/
theorem Lists.ieSize_eq {e : Element} (h : Lists m (p + i) (n - i) (e :: es)) :
    ieSize m (p + i) = e.bytes.length := by
  rw [e.length_bytes, ieSize, h.cons.2.1]

/-- **Each place the walk comes to is the head of the rest of the list.** -/
theorem WalksBy.head (hw : WalksBy c m p n id) (h : Lists m p n es) (hcomes : c.Comes 0 i) :
    i ≤ n ∧ ∃ rest, Lists m (p + i) (n - i) rest := by
  induction hcomes with
  | start => exact ⟨Nat.zero_le n, es, h⟩
  | @next i _ hpass ih =>
    obtain ⟨-, rest, hrest⟩ := ih
    have hlt := (hw.go i).mp hpass.1
    have hlen := hrest.length
    cases rest with
    | nil =>
      rw [bytesOf_nil, List.length_nil] at hlen
      omega
    | cons e rest =>
      have hsize := hrest.ieSize_eq
      obtain ⟨-, -, hle, htail⟩ := hrest.cons
      rw [hw.next i (by omega), hsize]
      rw [Nat.add_assoc, Nat.sub_sub] at htail
      exact ⟨by omega, rest, htail⟩

/-- Every element the walk looks at lies below the limit. -/
theorem WalksBy.whole (hw : WalksBy c m p n id) (h : Lists m p n es) (hcomes : c.Comes 0 i)
    (hi : i < n) : i + ieSize m (p + i) ≤ n := by
  obtain ⟨-, rest, hrest⟩ := hw.head h hcomes
  cases rest with
  | nil =>
    have hlen := hrest.length
    rw [bytesOf_nil, List.length_nil] at hlen
    omega
  | cons e rest =>
    have hsize := hrest.ieSize_eq
    have hle := hrest.cons.2.2.1
    omega

/-- **The walk finds the first element of the kind.** -/
theorem WalksBy.search_eq (hw : WalksBy c m p n id) {rounds : Nat}
    (h : Lists m (p + i) (n - i) es) (hi : i ≤ n) (hr : n < i + rounds) :
    (c.search rounds i).map (foundIe m p)
      = some ((placeOf id (p + i) es).map fun r => (r.1, r.2 + 2)) := by
  induction es generalizing i rounds with
  | nil =>
    have hlen := h.length
    rw [bytesOf_nil, List.length_nil] at hlen
    obtain ⟨k, rfl⟩ : ∃ k, rounds = k + 1 := ⟨rounds - 1, by omega⟩
    have hstop : c.go i = false := Bool.eq_false_iff.mpr fun hgo => by
      have := (hw.go i).mp hgo
      omega
    rw [Chain.search_stop hstop]
    rfl
  | cons e es ih =>
    have hsize := h.ieSize_eq
    have hbytes := e.length_bytes
    obtain ⟨heid, -, hle, hrest⟩ := h.cons
    obtain ⟨k, rfl⟩ : ∃ k, rounds = k + 1 := ⟨rounds - 1, by omega⟩
    have hgo : c.go i = true := (hw.go i).mpr (by omega)
    by_cases hkind : e.eid = id
    · rw [Chain.search_hit hgo ((hw.hit i).mpr (heid.trans hkind)), placeOf, if_pos hkind]
      simp only [Option.map_some, foundIe, hsize, hbytes]
    · have hmiss : c.hit i = false :=
        Bool.eq_false_iff.mpr fun hhit => hkind (heid.symm.trans ((hw.hit i).mp hhit))
      rw [Nat.add_assoc, Nat.sub_sub] at hrest
      rw [Chain.search_passes ⟨hgo, hmiss⟩, hw.next i (by omega), hsize, placeOf, if_neg hkind,
        ih hrest (by omega) (by omega), Nat.add_assoc]

/-- **A search of a list**: it reads and returns nothing outside it, and what it returns is the
first element of the kind with its length, the header included. -/
structure Finds (m : Mem) (p : Nat) (es : List Element) (id : UInt8) (call : IeCall) : Prop where
  inside : call.Inside m p
  run : call.run m p = some ((placeOf id p es).map fun r => (r.1, r.2 + 2))

theorem finds_of_walksBy {call : IeCall} (hw : WalksBy (call.chain m p) m p n id)
    (h : Lists m p n es) (hclean : ∀ i, i + ieSize m (p + i) ≤ n →
      ¬ (call.chain m p).Again i → call.Clean m p i) : Finds m p es id call := by
  have hsearch := @WalksBy.search_eq _ m p n 0 id es hw (n + 1) h (Nat.zero_le n) (by omega)
  obtain ⟨r, hends, hfound⟩ := Option.map_eq_some_iff.mp hsearch
  refine ⟨IeCall.inside_of_clean fun i hcomes hgo => ?_, ?_⟩
  · exact hclean i (hw.whole h hcomes ((hw.go i).mp hgo)) (Chain.not_again_of_ends hends hcomes)
  · rw [call.run_eq hends, hfound]
    rfl

/-- `rtw_get_ie`, as far as its counter goes. -/
theorem getIe_finds (h : Lists m p n es) (hn : n < 2 ^ 31) : Finds m p es id (.getIe id n) := by
  refine finds_of_walksBy (n := n) ⟨fun i => ?_, fun i => ?_, fun i _ => rfl⟩ h fun i hle _ => ?_
  · exact decide_eq_true_iff.trans Int.ofNat_lt
  · exact decide_eq_true_iff
  · have hsize : 2 ≤ ieSize m (p + i) := Nat.le_add_left 2 _
    exact ⟨fun _ => Int.ofNat_le.mpr hle, Int.ofNat_le.mpr (by omega), fun _ => by omega⟩

/-- `rtw_get_ie_ex` without an OUI. -/
theorem getIeEx_finds (h : Lists m p n es) (hn : n < 2 ^ 32) (out : Bool) :
    Finds m p es id (.getIeEx n id none out) := by
  refine finds_of_walksBy (n := n) ⟨fun i => ?_, fun i => ?_, fun i hle => ?_⟩ h
    fun i hle hagain => ?_
  · exact decide_eq_true_iff
  · simp [IeCall.chain, getIeExChain]
  · exact Nat.mod_eq_of_lt (by omega)
  · have hsize : 2 ≤ ieSize m (p + i) := Nat.le_add_left 2 _
    exact ⟨fun _ => Int.ofNat_le.mpr hle, by omega, fun _ => nofun, hagain⟩

end Searches

/-! ## 6. What is recorded -/

section Records

variable {m : Mem} {p n : Nat} {id : UInt8} {f : Field} {es : List Element}

/-- The `switch` has one case for a field. -/
theorem lookup_recorded {id' : UInt8} (h : recorded.lookup id = some f)
    (h' : recorded.lookup id' = some f) : id = id' := by
  have hone : ∀ x ∈ recorded, ∀ y ∈ recorded, x.2 = y.2 → x.1 = y.1 := by decide
  obtain ⟨_, _, hl, -⟩ := List.lookup_eq_some_iff.mp h
  obtain ⟨_, _, hl', -⟩ := List.lookup_eq_some_iff.mp h'
  exact hone (id, f) (by simp [hl]) (id', f) (by simp [hl']) rfl

/-- A vendor element sets no field of another. -/
theorem parseVendorSpecific_ne (h : recorded.lookup id = some f) (pos elen : Nat) :
    rtwIeee80211ParseVendorSpecific m pos elen ≠ some f := by
  have hapart : ∀ x ∈ recorded,
      x.2 ∉ [Field.wpaIe, .wme, .wmeTspec, .wpsIe, .vendorHtCap] := by decide
  obtain ⟨_, _, hl, -⟩ := List.lookup_eq_some_iff.mp h
  have hnot := hapart (id, f) (by simp [hl])
  intro hset
  apply hnot
  unfold rtwIeee80211ParseVendorSpecific at hset
  split_ifs at hset <;> simp [← Option.some.inj hset]

/-- A field of the `switch` is set by the elements of its kind. -/
theorem fieldFor_iff (h : recorded.lookup id = some f) {id' : UInt8} {pos elen : Nat} :
    fieldFor m id' pos elen = some f ↔ id' = id := by
  have hvendor : recorded.lookup wlanEidVendorSpecific = none := by decide
  unfold fieldFor
  split
  · rename_i hid
    refine iff_of_false (parseVendorSpecific_ne h pos elen) fun hsame => ?_
    rw [← hsame, hid, hvendor] at h
    nomatch h
  · exact ⟨fun h' => lookup_recorded h' h, fun hsame => hsame ▸ h⟩

theorem elems_note (s : Parsed) (id : UInt8) (pos elen : Nat) (f : Field) :
    (s.note m id pos elen).elems f
      = if fieldFor m id pos elen = some f then some (pos, elen) else s.elems f := by
  unfold Parsed.note
  cases fieldFor m id pos elen with
  | none => rfl
  | some g => simp only [Option.some.injEq, eq_comm]

/-- Elements of other kinds leave the field as it is. -/
theorem elems_foldl_noteAt (h : recorded.lookup id = some f) (hes : Lists m p n es)
    (hother : ∀ e ∈ es, e.eid ≠ id) (s : Parsed) :
    ((dataOf p es).foldl (Parsed.noteAt m) s).elems f = s.elems f := by
  induction es generalizing p n s with
  | nil => rfl
  | cons e es ih =>
    obtain ⟨heid, -, -, hrest⟩ := hes.cons
    have hne : ¬ fieldFor m (m (p + 2 - 2)) (p + 2) e.data.length = some f := by
      rw [fieldFor_iff h, Nat.add_sub_cancel, heid]
      exact hother e List.mem_cons_self
    rw [dataOf, List.foldl_cons, ih hrest fun x hx => hother x (List.mem_cons_of_mem e hx),
      Parsed.noteAt, elems_note, if_neg hne]

theorem dataOf_append (p : Nat) (a b : List Element) :
    dataOf p (a ++ b) = dataOf p a ++ dataOf (p + (bytesOf a).length) b := by
  induction a generalizing p with
  | nil => rfl
  | cons e a ih =>
    rw [List.cons_append, dataOf, ih, dataOf, bytesOf_cons', List.length_append, Nat.add_assoc]
    rfl

theorem Lists.append {a b : List Element} (h : Lists m p n (a ++ b)) :
    ∃ n₁ n₂, Lists m p n₁ a ∧ Lists m (p + (bytesOf a).length) n₂ b := by
  unfold Lists at h
  rw [bytesOf_append] at h
  obtain ⟨hfront, hbehind⟩ := readBytes_append h
  exact ⟨_, _, hfront, hbehind⟩

/-- **Of a kind that occurs once, what is recorded is what is found.** -/
theorem recorded_of_once (h : recorded.lookup id = some f) (hes : Lists m p n es)
    (honce : es.countP (fun e => e.eid = id) = 1) (s : Parsed) : ∃ q l,
    placeOf id p es = some (q, l) ∧
      ((dataOf p es).foldl (Parsed.noteAt m) s).elems f = some (q + 2, l) := by
  rw [List.countP_eq_length_filter, List.length_eq_one_iff] at honce
  obtain ⟨e, he⟩ := honce
  obtain ⟨a, b, rfl, ha, hkind, hb⟩ := List.filter_eq_cons_iff.mp he
  simp only [decide_eq_true_eq] at ha hkind
  have hb' : ∀ x ∈ b, x.eid ≠ id := by simpa using hb
  obtain ⟨_, _, hfront, hbehind⟩ := hes.append
  obtain ⟨heid, -, -, hrest⟩ := hbehind.cons
  refine ⟨p + (bytesOf a).length, e.data.length, ?_, ?_⟩
  · rw [placeOf_append ha, placeOf, if_pos hkind]
  · have hset : fieldFor m (m (p + (bytesOf a).length + 2 - 2)) (p + (bytesOf a).length + 2)
        e.data.length = some f := by
      rw [fieldFor_iff h, Nat.add_sub_cancel, heid, hkind]
    rw [dataOf_append, dataOf, List.foldl_append, List.foldl_cons, elems_foldl_noteAt h hrest hb',
      Parsed.noteAt, elems_note, if_pos hset]

/-- Of the fields, those that are looked at of a beacon. -/
def bcnElems (elems : Field → Option (Nat × Nat)) : BcnElems where
  rsnIe := elems .rsnIe
  wpaIe := elems .wpaIe
  wpsIe := elems .wpsIe
  ssid := elems .ssid
  dsParams := elems .dsParams
  htCapabilities := elems .htCapabilities
  htOperation := elems .htOperation

/-- The same for a vendor element. -/
theorem parseVendorSpecific_eq (m : Mem) (s : Parsed) {id : UInt8} (e : Nat × Nat)
    (hid : id = wlanEidVendorSpecific) :
    { bcnElems s.elems with toElems := parseVendorSpecific m e.1 e.2 (bcnElems s.elems).toElems }
      = bcnElems (s.note m id e.1 e.2).elems := by
  have hfield : fieldFor m id e.1 e.2 = rtwIeee80211ParseVendorSpecific m e.1 e.2 := if_pos hid
  unfold Parsed.note
  rw [hfield]
  unfold parseVendorSpecific rtwIeee80211ParseVendorSpecific
  split_ifs <;> simp_all [bcnElems]

/-- A round leaves the same in the fields. -/
theorem parseBcnElem_eq (m : Mem) (s : Parsed) (e : Nat × Nat) :
    parseBcnElem m (bcnElems s.elems) e = bcnElems (s.noteAt m e).elems := by
  have hset : ∀ {id : UInt8} {f : Field}, recorded.lookup id = some f → m (e.1 - 2) = id →
      fieldFor m (m (e.1 - 2)) e.1 e.2 = some f := fun h heq => (fieldFor_iff h).mpr heq
  unfold parseBcnElem parseElem Parsed.noteAt
  split_ifs with hssid hds hcap hop hrsn hvendor
  · rw [Parsed.note, @hset 0 .ssid rfl hssid]
    simp [bcnElems]
  · rw [Parsed.note, @hset 3 .dsParams rfl hds]
    simp [bcnElems]
  · rw [Parsed.note, @hset 45 .htCapabilities rfl hcap]
    simp [bcnElems]
  · rw [Parsed.note, @hset 61 .htOperation rfl hop]
    simp [bcnElems]
  · rw [Parsed.note, @hset 48 .rsnIe rfl hrsn]
    simp [bcnElems]
  · exact parseVendorSpecific_eq m s e hvendor
  · have hne : ∀ {id : UInt8} {f : Field}, recorded.lookup id = some f → m (e.1 - 2) ≠ id →
        fieldFor m (m (e.1 - 2)) e.1 e.2 ≠ some f := fun h hid heq => hid ((fieldFor_iff h).mp heq)
    have hother : ∀ f ∈ [Field.wpaIe, .wpsIe], fieldFor m (m (e.1 - 2)) e.1 e.2 ≠ some f := by
      intro f hf hfield
      have hapart : ∀ x ∈ recorded, x.2 ∉ [Field.wpaIe, .wpsIe] := by decide
      rw [fieldFor, if_neg hvendor] at hfield
      obtain ⟨_, _, hl, -⟩ := List.lookup_eq_some_iff.mp hfield
      exact hapart (m (e.1 - 2), f) (by simp [hl]) hf
    simp only [bcnElems, elems_note, @hne 0 .ssid rfl hssid, if_false,
      @hne 3 .dsParams rfl hds, @hne 45 .htCapabilities rfl hcap, @hne 61 .htOperation rfl hop,
      @hne 48 .rsnIe rfl hrsn, hother .wpaIe (by decide), hother .wpsIe (by decide)]

end Records

/-! ## 7. What the four have in common -/

section Agreement

variable (m : Mem) (start : Nat) (len : UInt32)

/-- `rtw_ieee802_11_parse_elems` fails on what is no list. -/
def ParsesLists : Prop :=
  (rtwIeee80211ParseElems m start len).1 ≠ .parseFailed ↔ ∃ es, Lists m start len.toNat es

/-- `check_ielen` also wants four bytes in every vendor element. -/
def ChecksLists : Prop :=
  checkIelen m start len = true ↔ ∃ es, Lists m start len.toNat es ∧
    ∀ e ∈ es, e.eid = wlanEidVendorSpecific → 4 ≤ e.data.length

/-- `rtw_get_ie` searches every list. -/
def GetIeFinds : Prop :=
  ∀ es, Lists m start len.toNat es → ∀ id, Finds m start es id (.getIe id (sint len))

/-- `rtw_get_ie_ex` searches every list, whether or not the caller asks for the length or a copy. -/
def GetIeExFinds : Prop :=
  ∀ es, Lists m start len.toNat es → ∀ id out, Finds m start es id (.getIeEx len.toNat id none out)

/-- Of an element of a kind that is recorded and occurs once, the data is recorded. -/
def RecordsFound : Prop :=
  ∀ es, Lists m start len.toNat es → ∀ id f, recorded.lookup id = some f →
    es.countP (fun e => e.eid = id) = 1 → ∃ p l, placeOf id start es = some (p, l) ∧
      (rtwIeee80211ParseElems m start len).2 f = some (p + 2, l)

/-- **The parsers agree on lists of elements.** -/
structure ParsersAgree : Prop where
  parses : ParsesLists m start len
  checks : ChecksLists m start len
  getIe : GetIeFinds m start len
  getIeEx : GetIeExFinds m start len
  records : RecordsFound m start len

/-- **The parsers agree on what is shorter than 2^31 bytes**; from there on the two that count with
a sign give up at once. -/
structure ParsersAgreeSigned : Prop where
  parses : ParsesLists m start len
  getIeEx : GetIeExFinds m start len
  records : RecordsFound m start len
  short : len.toNat < 2 ^ 31 → ChecksLists m start len ∧ GetIeFinds m start len
  long : 2 ^ 31 ≤ len.toNat →
    checkIelen m start len = false ∧ ∀ id, rtwGetIe m start id (sint len) = none

end Agreement

section Results

variable {m : Mem} {start : Nat} {len : UInt32}

theorem sint_short (h : len.toNat < 2 ^ 31) : sint len = len.toNat :=
  if_pos h

theorem sint_long (h : 2 ^ 31 ≤ len.toNat) : sint len < 0 := by
  have hlt := len.toNat_lt
  rw [sint, if_neg (by omega)]
  omega

theorem parses_lists (m : Mem) (start : Nat) (len : UInt32) : ParsesLists m start len := by
  unfold ParsesLists
  rw [← ieList_iff]
  cases hlist : ieList m start len.toNat with
  | none =>
    have hfailed : (rtwIeee80211ParseElems m start len).1 = .parseFailed :=
      parseLoop_none hlist (by omega)
    simp [hfailed]
  | some l =>
    rw [rtwIeee80211ParseElems, parseLoop_some hlist]
    refine iff_of_true ?_ ⟨l, rfl⟩
    dsimp only
    split <;> nofun

/-- What `check_ielen` lets pass is a list whose vendor elements are long enough. -/
theorem checkIelenLoop_iff {left : Nat} : checkIelenLoop m start left = true ↔
    ∃ es, Lists m start left es ∧ ∀ e ∈ es, e.eid = wlanEidVendorSpecific → 4 ≤ e.data.length := by
  rw [checkIelenLoop_eq (show left ≤ 2 * left by omega)]
  constructor
  · intro h
    cases hlist : ieListFrom m left start left with
    | none => simp [hlist] at h
    | some l =>
      obtain ⟨es, hes⟩ := exists_lists hlist
      refine ⟨es, hes, ?_⟩
      rw [ieListFrom_of_lists hes (by omega), Option.any_some, all_longEnough hes] at h
      simpa [longEnough, imp_iff_not_or] using h
  · rintro ⟨es, hes, hlong⟩
    rw [ieListFrom_of_lists hes (by omega), Option.any_some, all_longEnough hes]
    simpa [longEnough, imp_iff_not_or] using hlong

theorem checks_lists (h : len.toNat < 2 ^ 31) : ChecksLists m start len := by
  unfold ChecksLists
  rw [checkIelen, sint_short h]
  exact checkIelenLoop_iff

theorem checkIelen_long (h : 2 ^ 31 ≤ len.toNat) : checkIelen m start len = false := by
  have hneg := sint_long h
  rw [checkIelen, checkIelenLoop, if_neg (by omega)]
  exact decide_eq_false (by omega)

theorem rtwGetIe_long (h : 2 ^ 31 ≤ len.toNat) (id : UInt8) :
    rtwGetIe m start id (sint len) = none := by
  have hneg := sint_long h
  rw [rtwGetIe, if_pos (by omega)]

theorem records_found (m : Mem) (start : Nat) (len : UInt32) : RecordsFound m start len := by
  intro es hes id f hf honce
  have hlist : ieListFrom m len.toNat start len.toNat = some (dataOf start es) :=
    ieListFrom_of_lists hes (by omega)
  rw [rtwIeee80211ParseElems, parseLoop_some hlist]
  exact recorded_of_once hf hes honce _

/-- **The walk over a beacon is this one**, as far as its fields are looked at. -/
theorem parseBcnElems_eq (m : Mem) (start : Nat) (len : UInt32) :
    parseBcnElems m start len.toNat = if (rtwIeee80211ParseElems m start len).1 = .parseFailed
      then none else some (bcnElems (rtwIeee80211ParseElems m start len).2) := by
  have hrun : ∀ (l : List (Nat × Nat)) (s : Parsed), l.foldl (parseBcnElem m) (bcnElems s.elems)
      = bcnElems (l.foldl (Parsed.noteAt m) s).elems := by
    intro l
    induction l with
    | nil => exact fun s => rfl
    | cons e l ih => exact fun s => by rw [List.foldl_cons, parseBcnElem_eq, ih, List.foldl_cons]
  rw [parseBcnElems]
  cases hlist : ieList m start len.toNat with
  | none =>
    have hfailed : (rtwIeee80211ParseElems m start len).1 = .parseFailed :=
      parseLoop_none hlist (by omega)
    rw [if_pos hfailed]
    rfl
  | some l =>
    have hparses := (parses_lists m start len).mpr (exists_lists hlist)
    rw [if_neg hparses, rtwIeee80211ParseElems, parseLoop_some hlist]
    exact congrArg some (hrun l ⟨fun _ => none, 0⟩)

/-- **What `check_ielen` lets pass, `rtw_ieee802_11_parse_elems` parses**, however long it is. -/
theorem parses_of_checks (h : checkIelen m start len = true) :
    (rtwIeee80211ParseElems m start len).1 ≠ .parseFailed := by
  by_cases hshort : len.toNat < 2 ^ 31
  · obtain ⟨es, hes, -⟩ := (checks_lists hshort).mp h
    exact (parses_lists m start len).mpr ⟨es, hes⟩
  · rw [checkIelen_long (by omega)] at h
    nomatch h

/-- So `rtw_get_bcn_keys` parses the elements of every beacon that `validate_beacon_len` lets pass.
-/
theorem parses_of_validated (h : validateBeaconLen m start len = true) :
    (rtwIeee80211ParseElems m (start + (beaconIeOffset + wlanHdrA3Len))
      (len - UInt32.ofNat (beaconIeOffset + wlanHdrA3Len))).1 ≠ .parseFailed := by
  unfold validateBeaconLen at h
  dsimp only at h
  split_ifs at h
  exact parses_of_checks h

/-- **What the parsers have in common**, on every buffer. -/
theorem element_parsers_agree (m : Mem) (start : Nat) (len : UInt32) :
    ParsersAgreeSigned m start len where
  parses := parses_lists m start len
  getIeEx := fun _ hes _ out => getIeEx_finds hes len.toNat_lt out
  records := records_found m start len
  short := fun h => ⟨checks_lists h, fun _ hes _ => by
    rw [sint_short h]
    exact getIe_finds hes h⟩
  long := fun h => ⟨checkIelen_long h, rtwGetIe_long h⟩

/-- Elements without data, one after the other. -/
theorem lists_zeros (k p : Nat) :
    Lists (fun _ => 0) p (2 * k) (List.replicate k ⟨0, [], Nat.zero_lt_succ 255⟩) := by
  induction k generalizing p with
  | zero => rfl
  | succ k ih =>
    have hk : 2 * (k + 1) = 2 * k + 1 + 1 := by omega
    unfold Lists at ih ⊢
    rw [List.replicate_succ, bytesOf_cons', hk, readBytes, readBytes, ih]
    rfl

/-- They do not agree on every buffer: to `check_ielen` 2^31 bytes are fewer than none. -/
theorem signed_length_differs : ¬ ∀ m start len, ParsersAgree m start len := by
  intro hall
  have hlen : (0x80000000 : UInt32).toNat = 2 * 2 ^ 30 := rfl
  have hlists := lists_zeros (2 ^ 30) 0
  rw [← hlen] at hlists
  have hpass := (hall (fun _ => 0) 0 0x80000000).checks.mpr ⟨_, hlists, fun e he hvendor => by
    rw [List.eq_of_mem_replicate he] at hvendor
    exact absurd hvendor (by decide)⟩
  rw [checkIelen_long (by omega)] at hpass
  nomatch hpass

end Results

end Rtl8723bs.IeParsers
