/-
# Attributes taken out of the elements of a BSS

`rtw_bss_ex_del_p2p_attr` takes every attribute with an identifier out of every P2P element of a
BSS, and `rtw_bss_ex_del_wfd_attr` out of every WFD element.  The inner loop searches the element
from its start again and again, and moves up what stands behind the attribute it finds; the outer
one then moves up the elements behind, and goes on with these.

The search keeps the length of an attribute in 16 bits.  Where what is left in an element behind its
last attribute reads as one of 65533 bytes or more, the search goes on inside of it or stays where
it is: `Quiet` says that it finds nothing there.  `delAttrLoop_spec` is what the inner loop does.
-/
import Mathlib.Data.List.Flatten
import Rtl8723bs.AttrSearch
import Rtl8723bs.Mlme.ScanTable

namespace Rtl8723bs.AttrDel

/-! ## 1. The functions -/

/-- The two families of functions. -/
inductive Kind
  | p2p
  | wfd
deriving DecidableEq, Repr

namespace Kind

def oui : Kind → List UInt8
  | p2p => p2pOui
  | wfd => wfdOui

/-- `rtw_get_p2p_ie` and `rtw_get_wfd_ie`. -/
def getIe (m : Mem) (inIe : Nat) (inLen : Int) : Kind → Option (Nat × Nat)
  | p2p => rtwGetP2pIe m inIe inLen
  | wfd => rtwGetWfdIe m inIe inLen

/-- `rtw_get_p2p_attr` and `rtw_get_wfd_attr`. -/
def getAttr (m : Mem) (ie ielen : Nat) (id : UInt8) : Kind → Option (Option (Nat × Nat))
  | p2p => rtwGetP2pAttr m (some (ie, ielen)) id
  | wfd => rtwGetWfdAttr m ie ielen id

end Kind

/-- `_rtw_memmove` of `remain` bytes to `p`, from `len` bytes behind it, and `_rtw_memset` to zero
of the `len` bytes behind them. -/
def cutOut (m : Mem) (p len remain : Nat) : Mem :=
  overwrite (overwrite m p (readBytes m (p + len) remain)) (p + remain) (List.replicate len 0)

/-- The loop of `rtw_del_p2p_attr` and `rtw_del_wfd_attr`: the memory and `ielen`. -/
def delAttrLoop (k : Kind) (ie : Nat) (attrId : UInt8) : Nat → Mem → Nat → Option (Mem × Nat)
  | 0, _, _ => none
  | n + 1, m, ielen => do
    match ← k.getAttr m ie ielen attrId with
    | none => some (m, ielen)
    | some (targetAttr, targetAttrLen) =>
      if targetAttrLen = 0 then some (m, ielen)
      else
        let remainLen := (ielen + 2 ^ 32 - (targetAttr + targetAttrLen - ie)) % 2 ^ 32
        let m := cutOut m targetAttr targetAttrLen remainLen
        let m := overwrite m (ie + 1) [m (ie + 1) - UInt8.ofNat targetAttrLen]
        delAttrLoop k ie attrId n m ((ielen + 2 ^ 32 - targetAttrLen) % 2 ^ 32)

/-- `rtw_del_p2p_attr` and `rtw_del_wfd_attr`; each round takes a byte or more, and `none` is a
search that never ends. -/
def delAttr (k : Kind) (m : Mem) (ie ielenOri : Nat) (attrId : UInt8) : Option (Mem × Nat) :=
  delAttrLoop k ie attrId (ielenOri + 1) m ielenOri

/-- An `uint` as an `int`. -/
def asInt (n : Nat) : Int := if n < 2 ^ 31 then n else n - 2 ^ 32

/-- The IEs moved up behind an element that is shorter now: these, `ies` and `IELength`. -/
def moveUp (m : Mem) (ie ieLenOri ieLen remainLen ieLength : Nat) : Mem × Nat × Nat :=
  if ieLen ≠ ieLenOri then
    let nextIe := ie + ieLen
    let gone := (ieLenOri + 2 ^ 32 - ieLen) % 2 ^ 32
    (cutOut m nextIe gone remainLen, nextIe, (ieLength + 2 ^ 32 - gone) % 2 ^ 32)
  else (m, ie + ieLenOri, ieLength)

/-- The loop of `rtw_bss_ex_del_p2p_attr` and `rtw_bss_ex_del_wfd_attr`: the IEs, which start at 0,
and `IELength`. -/
def bssDelLoop (k : Kind) (attrId : UInt8) : Nat → Mem → Nat → Nat → Nat → Option (Mem × Nat)
  | 0, _, _, _, _ => none
  | n + 1, m, ies, iesLen, ieLength =>
    match k.getIe m ies (asInt iesLen) with
    | none => some (m, ieLength)
    | some (ie, ieLenOri) => do
      let nextIeOri := ie + ieLenOri
      let remainLen := (ieLength + 2 ^ 32 - nextIeOri) % 2 ^ 32
      let (m, ieLen) ← delAttr k m ie ieLenOri attrId
      let r := moveUp m ie ieLenOri ieLen remainLen ieLength
      bssDelLoop k attrId n r.1 r.2.1 remainLen r.2.2

/-- `BSS_EX_FIXED_IE_OFFSET`. -/
def fixedIeOffset (bss : WlanBssidEx) : Nat := if bss.bssType = bssTypeProbReq then 0 else 12

/-- The two functions; each round takes two bytes or more. -/
def bssExDelAttr (k : Kind) (bss : WlanBssidEx) (attrId : UInt8) : Option WlanBssidEx :=
  (bssDelLoop k attrId (bss.ieLength + 1) bss.ies (fixedIeOffset bss)
    ((bss.ieLength + 2 ^ 32 - fixedIeOffset bss) % 2 ^ 32) bss.ieLength).map fun r =>
      { bss with ies := r.1, ieLength := r.2 }

/-- `rtw_bss_ex_del_p2p_attr`. -/
def rtwBssExDelP2pAttr : WlanBssidEx → UInt8 → Option WlanBssidEx := bssExDelAttr .p2p

/-- `rtw_bss_ex_del_wfd_attr`. -/
def rtwBssExDelWfdAttr : WlanBssidEx → UInt8 → Option WlanBssidEx := bssExDelAttr .wfd

/-! ## 2. Lists of elements, and their attributes -/

namespace Kind

/-- The length of an attribute as it is sent: little-endian in a P2P element, big-endian in a WFD
element. -/
def lenBytes (k : Kind) (n : Nat) : List UInt8 :=
  match k with
  | p2p => [UInt8.ofNat (n % 256), UInt8.ofNat (n / 256)]
  | wfd => [UInt8.ofNat (n / 256), UInt8.ofNat (n % 256)]

def attrBytes (k : Kind) (a : P2pAttr) : List UInt8 :=
  a.id :: (k.lenBytes a.content.length ++ a.content)

/-- The length in the header of the attribute that starts with these bytes. -/
def dataLen (k : Kind) (t : List UInt8) : Nat :=
  match k with
  | p2p => (t.getD 1 0).toNat + 256 * (t.getD 2 0).toNat
  | wfd => 256 * (t.getD 1 0).toNat + (t.getD 2 0).toNat

/-- `attr_len`, of 16 bits. -/
def attrLen (k : Kind) (t : List UInt8) : Nat := (k.dataLen t + 3) % 2 ^ 16

/-- No whole attribute starts here. -/
def Cut (k : Kind) (t : List UInt8) : Prop := t.length < 3 ∨ t.length < k.dataLen t + 3

/-- The element with these attributes and what is left behind them. -/
def ieBytes (k : Kind) (t : List UInt8) : List UInt8 :=
  wlanEidVendorSpecific :: UInt8.ofNat (4 + t.length) :: (k.oui ++ t)

end Kind

/-- An element of the list: one of the kind, with its attributes and what is left behind them, or
another. -/
inductive Ie (k : Kind)
  | vendor (attrs : List P2pAttr) (rest : List UInt8)
    (short : 4 + (attrs.flatMap k.attrBytes ++ rest).length < 256) (cut : k.Cut rest)
  | other (e : Element) (apart : ¬ (e.eid = wlanEidVendorSpecific ∧ k.oui <+: e.data))

namespace Ie

variable {k : Kind}

def bytes : Ie k → List UInt8
  | vendor attrs rest _ _ => k.ieBytes (attrs.flatMap k.attrBytes ++ rest)
  | other e _ => e.bytes

/-- What is left behind the attributes. -/
def rest : Ie k → List UInt8
  | vendor _ rest _ _ => rest
  | other _ _ => []

theorem filter_short {attrs : List P2pAttr} {rest : List UInt8} (p : P2pAttr → Bool)
    (h : 4 + (attrs.flatMap k.attrBytes ++ rest).length < 256) :
    4 + ((attrs.filter p).flatMap k.attrBytes ++ rest).length < 256 := by
  have hsub : List.Sublist (attrs.filter p) attrs := List.filter_sublist
  have hless := (hsub.flatMap k.attrBytes).length_le
  rw [List.length_append] at h ⊢
  omega

/-- **The element without the attributes** with the identifier. -/
def without (id : UInt8) : Ie k → Ie k
  | vendor attrs rest short cut =>
    vendor (attrs.filter fun a => a.id ≠ id) rest (filter_short _ short) cut
  | other e apart => other e apart

end Ie

def bytesOf {k : Kind} (l : List (Ie k)) : List UInt8 := l.flatMap Ie.bytes

/-- **The IEs of the BSS are this list**, behind the fixed ones, and `IELength` is their length. -/
structure Holds {k : Kind} (bss : WlanBssidEx) (front : List UInt8) (l : List (Ie k)) : Prop where
  fixed : front.length = fixedIeOffset bss
  length : bss.ieLength = (front ++ bytesOf l).length
  bytes : readBytes bss.ies 0 bss.ieLength = front ++ bytesOf l
  room : bss.ieLength ≤ maxIeSz

/-- **The attributes are deleted right**: the list is the old one with the attributes gone from the
elements of the kind, and all else as it was. -/
def Deleted (k : Kind) (bss : WlanBssidEx) (front : List UInt8) (l : List (Ie k)) (id : UInt8) :
    Prop :=
  ∃ bss', bssExDelAttr k bss id = some bss' ∧ Holds bss' front (l.map (Ie.without id))

/-- The length in a header, as it is sent. -/
theorem lenBytes_dataLen (k : Kind) (id x y : UInt8) (d : List UInt8) :
    k.lenBytes (k.dataLen (id :: x :: y :: d)) = [x, y] := by
  have hx := x.toNat_lt
  have hy := y.toNat_lt
  cases k <;>
    simp only [Kind.lenBytes, Kind.dataLen, List.getD_cons_succ, List.getD_cons_zero,
      List.cons.injEq, ← UInt8.toNat_inj, UInt8.toNat_ofNat', and_true] <;> omega

/-- Every byte string is attributes with something left behind them. -/
theorem exists_attrs (k : Kind) (t : List UInt8) :
    ∃ (attrs : List P2pAttr) (rest : List UInt8),
      k.Cut rest ∧ t = attrs.flatMap k.attrBytes ++ rest := by
  induction hn : t.length using Nat.strong_induction_on generalizing t with
  | _ n ih =>
    by_cases hcut : k.Cut t
    · exact ⟨[], t, hcut, rfl⟩
    · unfold Kind.Cut at hcut
      match t, hcut with
      | id :: x :: y :: d, hcut =>
        have hlen : k.dataLen (id :: x :: y :: d) ≤ d.length := by
          simp only [List.length_cons] at hcut
          omega
        obtain ⟨attrs, rest, hrest, hd⟩ := ih (d.drop (k.dataLen (id :: x :: y :: d))).length (by
          simp only [List.length_cons, List.length_drop] at hn ⊢
          omega) _ rfl
        refine ⟨⟨id, d.take (k.dataLen (id :: x :: y :: d))⟩ :: attrs, rest, hrest, ?_⟩
        have htake : (d.take (k.dataLen (id :: x :: y :: d))).length
            = k.dataLen (id :: x :: y :: d) := by
          rw [List.length_take]
          omega
        rw [List.flatMap_cons, Kind.attrBytes, htake, lenBytes_dataLen, List.append_assoc,
          ← hd, List.cons_append, List.append_assoc, List.take_append_drop]
        rfl
      | [], hcut | [_], hcut | [_, _], hcut => simp at hcut

/-- **Every list of elements** is one of elements of the kind and others. -/
theorem exists_ies (k : Kind) (es : List Element) :
    ∃ l : List (Ie k), bytesOf l = es.flatMap Element.bytes := by
  induction es with
  | nil => exact ⟨[], rfl⟩
  | cons e es ih =>
    obtain ⟨l, hl⟩ := ih
    by_cases hown : e.eid = wlanEidVendorSpecific ∧ k.oui <+: e.data
    · obtain ⟨hid, t, ht⟩ := hown
      obtain ⟨attrs, rest, hcut, rfl⟩ := exists_attrs k t
      have h4 : k.oui.length = 4 := by cases k <;> rfl
      have hlen : 4 + (attrs.flatMap k.attrBytes ++ rest).length = e.data.length := by
        rw [← ht, @List.length_append _ k.oui, h4]
      refine ⟨.vendor attrs rest (by rw [hlen]; exact e.short) hcut :: l, ?_⟩
      rw [bytesOf, List.flatMap_cons, List.flatMap_cons, ← bytesOf, hl]
      congr 1
      rw [Ie.bytes, Kind.ieBytes, hlen, ht, ← hid]
      rfl
    · exact ⟨.other e hown :: l, by rw [bytesOf, List.flatMap_cons, ← bytesOf, hl]; rfl⟩

/-- What the search for an attribute gives in these bytes: its place and `attr_len`. -/
inductive Finds (k : Kind) (id : UInt8) : List UInt8 → Option (Nat × Nat) → Prop
  | stop {t : List UInt8} (h : t.length < 3 ∨ t.length < k.attrLen t) : Finds k id t none
  | hit {t : List UInt8} (h : 3 ≤ t.length) (hfits : k.attrLen t ≤ t.length)
    (hid : t.getD 0 0 = id) : Finds k id t (some (0, k.attrLen t))
  | next {t : List UInt8} {r : Option (Nat × Nat)} (h : 3 ≤ t.length)
    (hfits : k.attrLen t ≤ t.length) (hid : t.getD 0 0 ≠ id)
    (hr : Finds k id (t.drop (k.attrLen t)) r) :
    Finds k id t (r.map fun x => (k.attrLen t + x.1, x.2))

/-- **Nothing to be found**: the search ends, with no attribute or with one of length 0. -/
def Quiet (k : Kind) (id : UInt8) (t : List UInt8) : Prop :=
  ∃ r, Finds k id t r ∧ ∀ x ∈ r, x.2 = 0

/-! ## 3. The search over the bytes of an element -/

section Search

variable {k : Kind} {id : UInt8} {t u : List UInt8} {r : Option (Nat × Nat)}

/-- A search gives one thing. -/
theorem Finds.unique {r' : Option (Nat × Nat)} (h : Finds k id t r) (h' : Finds k id t r') :
    r = r' := by
  induction h generalizing r' with
  | stop hstop =>
    cases h' with
    | stop => rfl
    | hit h3 hfits | next h3 hfits => omega
  | hit h3 hfits hid =>
    cases h' with
    | stop hstop => omega
    | hit => rfl
    | next _ _ hno => exact absurd hid hno
  | next h3 hfits hid hr ih =>
    cases h' with
    | stop hstop => omega
    | hit _ _ hyes => exact absurd hyes hid
    | next _ _ _ hr' => rw [ih hr']

/-- What is found lies in the bytes. -/
theorem Finds.within {x : Nat × Nat} (h : Finds k id t r) (hx : x ∈ r) : x.1 + x.2 ≤ t.length := by
  induction h generalizing x with
  | stop => nomatch hx
  | hit h3 hfits =>
    obtain rfl := Option.some.inj hx
    omega
  | next h3 hfits hid hr ih =>
    obtain ⟨y, hy, rfl⟩ := Option.mem_map.mp hx
    have hin := ih hy
    rw [List.length_drop] at hin
    dsimp only
    omega

/-- What is found has the length it says. -/
theorem Finds.length {x : Nat × Nat} (h : Finds k id t r) (hx : x ∈ r) :
    3 ≤ (t.drop x.1).length ∧ x.2 = k.attrLen (t.drop x.1) := by
  induction h generalizing x with
  | stop => nomatch hx
  | hit h3 =>
    obtain rfl := Option.some.inj hx
    exact ⟨h3, rfl⟩
  | next h3 hfits hid hr ih =>
    obtain ⟨y, hy, rfl⟩ := Option.mem_map.mp hx
    rw [← List.drop_drop]
    exact ih hy

theorem length_attrBytes (k : Kind) (a : P2pAttr) :
    (k.attrBytes a).length = a.content.length + 3 := by
  cases k <;> simp [Kind.attrBytes, Kind.lenBytes]

/-- The header of an attribute says what it is and how long. -/
theorem attr_header {a : P2pAttr} (ha : a.content.length + 3 < 2 ^ 16) :
    (k.attrBytes a ++ u).getD 0 0 = a.id ∧
      k.attrLen (k.attrBytes a ++ u) = (k.attrBytes a).length := by
  have hlo : (UInt8.ofNat (a.content.length % 256)).toNat = a.content.length % 256 := by
    rw [UInt8.toNat_ofNat']
    exact Nat.mod_eq_of_lt (Nat.mod_lt _ (by decide))
  have hhi : (UInt8.ofNat (a.content.length / 256)).toNat = a.content.length / 256 := by
    rw [UInt8.toNat_ofNat']
    exact Nat.mod_eq_of_lt (by omega)
  have hdata : k.dataLen (k.attrBytes a ++ u) = a.content.length := by
    cases k <;>
      simp only [Kind.dataLen, Kind.attrBytes, Kind.lenBytes, List.cons_append,
        List.getD_cons_succ, List.getD_cons_zero, hlo, hhi] <;> omega
  refine ⟨rfl, ?_⟩
  rw [Kind.attrLen, hdata, length_attrBytes, Nat.mod_eq_of_lt ha]

/-- An attribute with the identifier is found. -/
theorem finds_attr {a : P2pAttr} (ha : a.content.length + 3 < 2 ^ 16) (hid : a.id = id) :
    Finds k id (k.attrBytes a ++ u) (some (0, (k.attrBytes a).length)) := by
  obtain ⟨hhead, hlen⟩ := attr_header (k := k) (u := u) ha
  have h := @Finds.hit k id (k.attrBytes a ++ u)
    (by rw [List.length_append, length_attrBytes]; omega)
    (by rw [hlen, List.length_append]; omega) (hhead.trans hid)
  rwa [hlen] at h

/-- Another is passed over. -/
theorem finds_append_iff {a : P2pAttr} (ha : a.content.length + 3 < 2 ^ 16) (hid : a.id ≠ id) :
    Finds k id (k.attrBytes a ++ u) r ↔
      ∃ r', Finds k id u r' ∧ r = r'.map fun x => ((k.attrBytes a).length + x.1, x.2) := by
  obtain ⟨hhead, hlen⟩ := attr_header (k := k) (u := u) ha
  have h3 : 3 ≤ (k.attrBytes a ++ u).length := by
    rw [List.length_append, length_attrBytes]
    omega
  have hfits : k.attrLen (k.attrBytes a ++ u) ≤ (k.attrBytes a ++ u).length := by
    rw [hlen, List.length_append]
    omega
  constructor
  · intro h
    cases h with
    | stop hstop => omega
    | hit _ _ hyes => exact absurd (hhead.symm.trans hyes) hid
    | next _ _ _ hr =>
      rw [hlen, List.drop_left] at hr
      exact ⟨_, hr, by rw [hlen]⟩
  · rintro ⟨r', hr, rfl⟩
    have h := @Finds.next k id (k.attrBytes a ++ u) r' h3 hfits (by rwa [hhead])
      (by rwa [hlen, List.drop_left])
    rwa [hlen] at h

/-- The bytes of attributes. -/
def attrsBytes (k : Kind) (attrs : List P2pAttr) : List UInt8 := attrs.flatMap k.attrBytes

/-- Attributes that are short enough are passed over if none has the identifier. -/
theorem finds_attrs_iff {attrs : List P2pAttr} (hid : ∀ a ∈ attrs, a.id ≠ id)
    (hlen : ∀ a ∈ attrs, a.content.length + 3 < 2 ^ 16) :
    Finds k id (attrsBytes k attrs ++ u) r ↔
      ∃ r', Finds k id u r' ∧ r = r'.map fun x => ((attrsBytes k attrs).length + x.1, x.2) := by
  induction attrs generalizing r with
  | nil =>
    have hmap : ∀ r' : Option (Nat × Nat),
        (r'.map fun x => ((attrsBytes k []).length + x.1, x.2)) = r' := fun r' => by
      cases r' with
      | none => rfl
      | some x => simp [attrsBytes]
    simp only [hmap, exists_eq_right']
    rfl
  | cons a attrs ih =>
    have hbytes : attrsBytes k (a :: attrs) ++ u = k.attrBytes a ++ (attrsBytes k attrs ++ u) := by
      rw [attrsBytes, List.flatMap_cons, List.append_assoc]
      rfl
    have hsum : (attrsBytes k (a :: attrs)).length
        = (k.attrBytes a).length + (attrsBytes k attrs).length := by
      rw [attrsBytes, List.flatMap_cons, List.length_append]
      rfl
    rw [hbytes, finds_append_iff (hlen a List.mem_cons_self) (hid a List.mem_cons_self)]
    have hshift : ∀ r' : Option (Nat × Nat),
        ((r'.map fun x => ((attrsBytes k attrs).length + x.1, x.2)).map fun x =>
          ((k.attrBytes a).length + x.1, x.2))
          = r'.map fun x => ((attrsBytes k (a :: attrs)).length + x.1, x.2) := fun r' => by
      rw [Option.map_map, hsum]
      cases r' with
      | none => rfl
      | some x => simp [Nat.add_assoc]
    have hattrs := fun {r' : Option (Nat × Nat)} => @ih r'
      (fun b hb => hid b (List.mem_cons_of_mem a hb)) fun b hb => hlen b (List.mem_cons_of_mem a hb)
    constructor
    · rintro ⟨r₁, h, rfl⟩
      obtain ⟨r₂, h', rfl⟩ := hattrs.mp h
      exact ⟨r₂, h', hshift r₂⟩
    · rintro ⟨r₂, h, rfl⟩
      exact ⟨_, hattrs.mpr ⟨r₂, h, rfl⟩, (hshift r₂).symm⟩

/-- In front of what is left, attributes do not count. -/
theorem quiet_attrs_iff {attrs : List P2pAttr} (hid : ∀ a ∈ attrs, a.id ≠ id)
    (hlen : ∀ a ∈ attrs, a.content.length + 3 < 2 ^ 16) :
    Quiet k id (attrsBytes k attrs ++ u) ↔ Quiet k id u := by
  constructor
  · rintro ⟨r, hr, hzero⟩
    obtain ⟨r', hr', rfl⟩ := (finds_attrs_iff hid hlen).mp hr
    exact ⟨r', hr', fun x hx => hzero ((attrsBytes k attrs).length + x.1, x.2)
      (Option.mem_map.mpr ⟨x, hx, rfl⟩)⟩
  · rintro ⟨r, hr, hzero⟩
    refine ⟨_, (finds_attrs_iff hid hlen).mpr ⟨r, hr, rfl⟩, fun x hx => ?_⟩
    obtain ⟨y, hy, rfl⟩ := Option.mem_map.mp hx
    exact hzero y hy

/-! ## 4. Deleting from the bytes of an element -/

/-- What the inner loop makes of the bytes behind the OUI, where it ends. -/
inductive Deletes (k : Kind) (id : UInt8) : List UInt8 → List UInt8 → Prop
  | done {t : List UInt8} (h : Quiet k id t) : Deletes k id t t
  | cut {t t' : List UInt8} {off n : Nat} (h : Finds k id t (some (off, n))) (hn : 0 < n)
    (hrest : Deletes k id (t.take off ++ t.drop (off + n)) t') : Deletes k id t t'

theorem Finds.not_quiet {off n : Nat} (h : Finds k id t (some (off, n))) (hn : 0 < n) :
    ¬ Quiet k id t := by
  rintro ⟨r, hr, hzero⟩
  have hsome := hr.unique h
  have := hzero (off, n) hsome
  dsimp only at this
  omega

/-- What is found is cut out, and all goes on with the rest. -/
theorem deletes_iff_of_finds {t' : List UInt8} {off n : Nat} (h : Finds k id t (some (off, n)))
    (hn : 0 < n) : Deletes k id t t' ↔ Deletes k id (t.take off ++ t.drop (off + n)) t' := by
  constructor
  · intro hd
    cases hd with
    | done hquiet => exact absurd hquiet (h.not_quiet hn)
    | cut h' _ hrest =>
      have heq := Option.some.inj (h'.unique h)
      rw [Prod.mk.injEq] at heq
      rwa [heq.1, heq.2] at hrest
  · exact .cut h hn

theorem length_cut {off n : Nat} (h : Finds k id t (some (off, n))) :
    (t.take off ++ t.drop (off + n)).length + n = t.length := by
  have hin : off + n ≤ t.length := h.within rfl
  rw [List.length_append, List.length_take, List.length_drop]
  omega

/-- Nothing is put in, and where there is something to be found something is taken out. -/
theorem Deletes.length_le {t' : List UInt8} (h : Deletes k id t t') :
    t'.length ≤ t.length ∧ (¬ Quiet k id t → t'.length < t.length) := by
  induction h with
  | done h => exact ⟨Nat.le_refl _, fun hno => absurd h hno⟩
  | cut h hn hrest ih =>
    have hlen := length_cut h
    exact ⟨by omega, fun _ => by omega⟩

/-- An attribute with the identifier is cut out behind others. -/
theorem deletes_attr_iff {pre : List P2pAttr} {a : P2pAttr} {t' : List UInt8}
    (hid : ∀ b ∈ pre, b.id ≠ id) (hlen : ∀ b ∈ pre, b.content.length + 3 < 2 ^ 16)
    (ha : a.content.length + 3 < 2 ^ 16) (hhit : a.id = id) :
    Deletes k id (attrsBytes k pre ++ (k.attrBytes a ++ u)) t' ↔
      Deletes k id (attrsBytes k pre ++ u) t' := by
  have h := (finds_attrs_iff hid hlen).mpr ⟨_, finds_attr (k := k) (u := u) ha hhit, rfl⟩
  rw [Option.map_some, Nat.add_zero] at h
  have hdrop : (attrsBytes k pre ++ (k.attrBytes a ++ u)).drop
      ((attrsBytes k pre).length + (k.attrBytes a).length) = u := by
    rw [← List.append_assoc, ← List.length_append, List.drop_left]
  rw [deletes_iff_of_finds h (by rw [length_attrBytes]; omega), List.take_left, hdrop]

/-- **The loop deletes the attributes with the identifier.** -/
theorem deletes_filter_iff {pre attrs : List P2pAttr} {rest t' : List UInt8}
    (hid : ∀ a ∈ pre, a.id ≠ id)
    (hlen : ∀ a ∈ pre ++ attrs, a.content.length + 3 < 2 ^ 16) :
    Deletes k id (attrsBytes k pre ++ (attrsBytes k attrs ++ rest)) t' ↔
      Deletes k id (attrsBytes k (pre ++ attrs.filter fun a => a.id ≠ id) ++ rest) t' := by
  induction attrs generalizing pre with
  | nil => simp [attrsBytes]
  | cons a attrs ih =>
    have hcons : attrsBytes k (a :: attrs) ++ rest
        = k.attrBytes a ++ (attrsBytes k attrs ++ rest) := by
      rw [attrsBytes, List.flatMap_cons, List.append_assoc]
      rfl
    rw [hcons]
    by_cases hhit : a.id = id
    · rw [List.filter_cons_of_neg (by simpa using hhit), ← ih hid fun b hb => hlen b (by
        rw [List.mem_append] at hb ⊢
        exact hb.imp_right (List.mem_cons_of_mem a))]
      exact deletes_attr_iff hid (fun b hb => hlen b (List.mem_append_left _ hb))
        (hlen a (by simp)) hhit
    · have hpre : attrsBytes k pre ++ (k.attrBytes a ++ (attrsBytes k attrs ++ rest))
          = attrsBytes k (pre ++ [a]) ++ (attrsBytes k attrs ++ rest) := by
        simp [attrsBytes]
      have hsplit : pre ++ [a] ++ attrs = pre ++ a :: attrs := by simp
      rw [List.filter_cons_of_pos (by simpa using hhit), hpre, ih]
      · simp
      · intro b hb
        rcases List.mem_append.mp hb with hb | hb
        · exact hid b hb
        · exact List.mem_singleton.mp hb ▸ hhit
      · rwa [hsplit]

/-- **With nothing left to be found** the attributes go and the rest stays; else more goes. -/
theorem deletes_element {attrs : List P2pAttr} {rest t' : List UInt8}
    (hlen : ∀ a ∈ attrs, a.content.length + 3 < 2 ^ 16)
    (h : Deletes k id (attrsBytes k attrs ++ rest) t') :
    t'.length ≤ (attrsBytes k (attrs.filter fun a => a.id ≠ id) ++ rest).length ∧
      (¬ Quiet k id rest →
        t'.length < (attrsBytes k (attrs.filter fun a => a.id ≠ id) ++ rest).length) := by
  have hfilter := (@deletes_filter_iff k id [] attrs rest t' (by simp) hlen).mp h
  obtain ⟨hle, hlt⟩ := hfilter.length_le
  refine ⟨hle, fun hno => hlt fun hquiet => hno ?_⟩
  refine (quiet_attrs_iff (fun a ha => ?_) fun a ha => ?_).mp hquiet
  · simpa using (List.mem_filter.mp ha).2
  · exact hlen a (List.mem_filter.mp ha).1

theorem deletes_quiet {attrs : List P2pAttr} {rest : List UInt8}
    (hlen : ∀ a ∈ attrs, a.content.length + 3 < 2 ^ 16) (h : Quiet k id rest) :
    Deletes k id (attrsBytes k attrs ++ rest)
      (attrsBytes k (attrs.filter fun a => a.id ≠ id) ++ rest) := by
  refine (@deletes_filter_iff k id [] attrs rest _ (by simp) hlen).mpr (.done ?_)
  refine (quiet_attrs_iff (fun a ha => ?_) fun a ha => ?_).mpr h
  · simpa using (List.mem_filter.mp ha).2
  · exact hlen a (List.mem_filter.mp ha).1

end Search

/-! ## 5. The inner loop -/

section Inner

variable {k : Kind} {id : UInt8} {m : Mem} {t : List UInt8} {N ie : Nat}

/-- Bytes put over as many others. -/
theorem readBytes_splice {A B C L : List UInt8} (h : readBytes m 0 N = A ++ (B ++ C))
    (hL : L.length = B.length) : readBytes (overwrite m A.length L) 0 N = A ++ (L ++ C) := by
  have hlen := congrArg List.length h
  simp only [length_readBytes, List.length_append] at hlen
  have hA := (readBytes_append h).1
  have hC := (readBytes_append (readBytes_append h).2).2
  rw [Nat.zero_add] at hC
  have hread : readBytes (overwrite m A.length L) 0 A.length = A := by
    rw [readBytes_congr (m := m), hA]
    exact fun i _ hi => overwrite_of_lt (by omega)
  have hrest : readBytes (overwrite m A.length L) (A.length + L.length) C.length = C := by
    rw [hL, readBytes_congr (m := m), hC]
    exact fun i hi _ => overwrite_of_le (by omega)
  rw [show N = A.length + (L.length + C.length) by omega, readBytes_add, readBytes_add,
    Nat.zero_add, hread, readBytes_overwrite, hrest]

/-- **What is cut out is gone**, and the end filled with zeros. -/
theorem readBytes_cutOut {A X R C : List UInt8} (h : readBytes m 0 N = A ++ (X ++ (R ++ C))) :
    readBytes (cutOut m A.length X.length R.length) 0 N
      = A ++ (R ++ (List.replicate X.length 0 ++ C)) := by
  have hR : readBytes m (A.length + X.length) R.length = R := by
    have hX := (readBytes_append (readBytes_append h).2).2
    rw [Nat.zero_add] at hX
    exact (readBytes_append hX).1
  -- the bytes moved up, and what they leave behind
  have hsplit : X ++ (R ++ C) = (X ++ R).take R.length ++ ((X ++ R).drop R.length ++ C) := by
    rw [← List.append_assoc, ← List.append_assoc, List.take_append_drop]
  rw [hsplit] at h
  have hmoved := readBytes_splice (L := R) h (by simp)
  rw [← List.append_assoc] at hmoved
  have hzero := readBytes_splice (L := List.replicate X.length 0) hmoved (by simp)
  rw [List.length_append, List.append_assoc] at hzero
  rw [cutOut, hR]
  exact hzero

/-- The search of the kind. -/
def attrCall (id : UInt8) : Kind → AttrCall
  | .p2p => .p2p id
  | .wfd => .wfd id

theorem getAttr_eq (ielen : Nat) : k.getAttr m ie ielen id = (attrCall id k).run m ie ielen := by
  cases k <;> rfl

/-- What the search sees at a place is what the bytes from there on say. -/
theorem attr_place {p : Nat} (h : readBytes m p t.length = t) (h3 : 3 ≤ t.length) :
    (attrCall id k).format.attrLen m p = k.attrLen t ∧
      ((attrCall id k).format.idAt m p = (attrCall id k).id ↔ t.getD 0 0 = id) := by
  have hat : ∀ i < t.length, t.getD i 0 = m (p + i) := fun i hi => by
    have hread : (readBytes m p t.length).getD i 0 = m (p + i) := getD_readBytes m hi
    rwa [h] at hread
  have h0 := hat 0 (by omega)
  have h1 := hat 1 (by omega)
  have h2 := hat 2 (by omega)
  cases k with
  | p2p =>
    refine ⟨?_, ?_⟩
    · simp only [attrCall, AttrCall.format, AttrFormat.attrLen, p2pAttr, Kind.attrLen, Kind.dataLen,
        h1, h2, le16]
    · simp only [attrCall, AttrCall.format, AttrCall.id, p2pAttr, h0, UInt8.toNat_inj, Nat.add_zero]
  | wfd =>
    refine ⟨?_, ?_⟩
    · simp only [attrCall, AttrCall.format, AttrFormat.attrLen, wfdAttr, Kind.attrLen, Kind.dataLen,
        h1, h2, be16]
    · simp only [attrCall, AttrCall.format, AttrCall.id, wfdAttr, h0, UInt8.toNat_inj, Nat.add_zero]

/-- The walk of the search at a place `off` of the element. -/
theorem attr_go (k : Kind) (id : UInt8) {off ielen : Nat} (h : readBytes m (ie + off) t.length = t)
    (hlen : off + t.length = ielen) :
    (((attrCall id k).chain m ie ielen).go off = true ↔
        3 ≤ t.length ∧ k.attrLen t ≤ t.length) ∧
      (3 ≤ t.length → (((attrCall id k).chain m ie ielen).hit off = true ↔ t.getD 0 0 = id) ∧
        ((attrCall id k).chain m ie ielen).next off = off + k.attrLen t) := by
  have hgo : ((attrCall id k).chain m ie ielen).go off
      = decide (off + 3 ≤ ielen ∧
        off + (attrCall id k).format.attrLen m (ie + off) ≤ ielen) := by cases k <;> rfl
  refine ⟨?_, fun h3 => ⟨?_, ?_⟩⟩
  · rw [hgo, decide_eq_true_iff]
    constructor
    · rintro ⟨h3, hfits⟩
      rw [(attr_place h (by omega)).1] at hfits
      omega
    · rintro ⟨h3, hfits⟩
      rw [(attr_place h h3).1]
      omega
  · exact decide_eq_true_iff.trans (attr_place h h3).2
  · exact congrArg (off + ·) (attr_place h h3).1

theorem readBytes_drop_self {off n : Nat} (h : readBytes m (ie + off) t.length = t) :
    readBytes m (ie + (off + n)) (t.drop n).length = t.drop n := by
  have hdrop := readBytes_drop m (ie + off) n t.length
  rw [h, Nat.add_assoc] at hdrop
  rw [List.length_drop, hdrop]

/-- **The search over memory is that over the bytes.** -/
theorem search_iff {off ielen : Nat} {r : Option Nat} (h : readBytes m (ie + off) t.length = t)
    (hlen : off + t.length = ielen) :
    (∃ n, ((attrCall id k).chain m ie ielen).search n off = some r) ↔
      ∃ r', Finds k id t r' ∧ r = r'.map fun x => off + x.1 := by
  constructor
  · rintro ⟨n, hn⟩
    induction n generalizing off t with
    | zero => nomatch hn
    | succ n ih =>
      obtain ⟨hgo, hplace⟩ := attr_go k id h hlen
      by_cases hin : 3 ≤ t.length ∧ k.attrLen t ≤ t.length
      · obtain ⟨hhit, hnext⟩ := hplace hin.1
        by_cases hid : t.getD 0 0 = id
        · rw [Chain.search_hit (hgo.mpr hin) (hhit.mpr hid)] at hn
          exact ⟨_, .hit hin.1 hin.2 hid, (Option.some.inj hn).symm⟩
        · have hpass : ((attrCall id k).chain m ie ielen).Passes off :=
            ⟨hgo.mpr hin, Bool.eq_false_iff.mpr fun hyes => hid (hhit.mp hyes)⟩
          rw [Chain.search_passes hpass, hnext] at hn
          obtain ⟨r', hr, rfl⟩ := ih (readBytes_drop_self h) (by
            rw [List.length_drop]
            omega) hn
          refine ⟨_, .next hin.1 hin.2 hid hr, ?_⟩
          rw [Option.map_map]
          congr 1
          funext x
          exact Nat.add_assoc off _ x.1
      · rw [Chain.search_stop (Bool.eq_false_iff.mpr fun hyes => hin (hgo.mp hyes))] at hn
        exact ⟨none, .stop (by omega), (Option.some.inj hn).symm⟩
  · rintro ⟨r', hr, rfl⟩
    induction hr generalizing off with
    | stop hstop =>
      obtain ⟨hgo, -⟩ := attr_go k id h hlen
      refine ⟨1, Chain.search_stop (Bool.eq_false_iff.mpr fun hyes => ?_)⟩
      have hin := hgo.mp hyes
      omega
    | hit h3 hfits hid =>
      obtain ⟨hgo, hplace⟩ := attr_go k id h hlen
      exact ⟨1, Chain.search_hit (hgo.mpr ⟨h3, hfits⟩) ((hplace h3).1.mpr hid)⟩
    | @next t r h3 hfits hid hr ih =>
      obtain ⟨hgo, hplace⟩ := attr_go k id h hlen
      obtain ⟨hhit, hnext⟩ := hplace h3
      obtain ⟨n, hn⟩ := ih (readBytes_drop_self h) (by
        rw [List.length_drop]
        omega)
      have hpass : ((attrCall id k).chain m ie ielen).Passes off :=
        ⟨hgo.mpr ⟨h3, hfits⟩, Bool.eq_false_iff.mpr fun hyes => hid (hhit.mp hyes)⟩
      refine ⟨n + 1, ?_⟩
      rw [Chain.search_passes hpass, hnext, hn, Option.map_map]
      congr 2
      funext x
      exact Nat.add_assoc off _ x.1

theorem length_ieBytes (t : List UInt8) : (k.ieBytes t).length = t.length + 6 := by
  cases k <;> simp [Kind.ieBytes, Kind.oui, p2pOui, wfdOui]

/-- **The search over an element** is the search over the bytes behind the OUI. -/
theorem getAttr_iff (h : readBytes m ie (t.length + 6) = k.ieBytes t) {x : Option (Nat × Nat)} :
    k.getAttr m ie (t.length + 6) id = some x ↔
      ∃ r, Finds k id t r ∧ x = r.map fun y => (ie + (6 + y.1), y.2) := by
  have hid := readBytes_cons h
  have hl := readBytes_cons hid.2
  have houi := readBytes_append hl.2
  have h4 : k.oui.length = 4 := by cases k <;> rfl
  rw [h4, Nat.add_assoc, Nat.add_assoc] at houi
  have hentered : (attrCall id k).Entered m ie (t.length + 6) ↔ 0 < t.length := by
    cases k <;> exact ⟨fun hin => by have := hin.1; omega, fun hpos => ⟨by omega, hid.1, houi.1⟩⟩
  rw [getAttr_eq]
  by_cases hpos : 0 < t.length
  · -- the place found lies in the bytes, with the length found there
    have hfound : ∀ r, Finds k id t r →
        foundAttr (attrCall id k).format m ie (r.map fun y => 6 + y.1)
          = r.map fun y => (ie + (6 + y.1), y.2) := by
      intro r hr
      cases r with
      | none => rfl
      | some y =>
        obtain ⟨off, n⟩ := y
        obtain ⟨h3, hlen⟩ := hr.length rfl
        have hat : (attrCall id k).format.attrLen m (ie + (6 + off)) = k.attrLen (t.drop off) :=
          (attr_place (readBytes_drop_self houi.2) h3).1
        dsimp only at hlen
        rw [hlen, ← hat]
        rfl
    rw [AttrCall.run_eq_some_iff _ (hentered.mpr hpos)]
    constructor
    · rintro ⟨n, r, hn, rfl⟩
      obtain ⟨r', hr, rfl⟩ := (search_iff houi.2 (Nat.add_comm _ _)).mp ⟨n, hn⟩
      exact ⟨r', hr, hfound r' hr⟩
    · rintro ⟨r', hr, rfl⟩
      obtain ⟨n, hn⟩ : ∃ n, ((attrCall id k).chain m ie (t.length + 6)).search n 6 = some _ :=
        (search_iff houi.2 (Nat.add_comm _ _)).mpr ⟨r', hr, rfl⟩
      exact ⟨n, _, hn, hfound r' hr⟩
  · obtain rfl : t = [] := List.length_eq_zero_iff.mp (by omega)
    have hnone : Finds k id [] none := .stop (.inl (by decide))
    rw [AttrCall.run_of_not_entered _ (mt hentered.mp hpos)]
    constructor
    · intro hx
      exact ⟨none, hnone, (Option.some.inj hx).symm⟩
    · rintro ⟨r, hr, rfl⟩
      rw [hr.unique hnone]
      rfl

/-- The three pieces of the bytes at what is found. -/
theorem split_found {off n : Nat} (h : Finds k id t (some (off, n))) :
    t = t.take off ++ ((t.drop off).take n ++ t.drop (off + n)) ∧ (t.take off).length = off ∧
      ((t.drop off).take n).length = n := by
  have hin : off + n ≤ t.length := h.within rfl
  refine ⟨?_, ?_, ?_⟩
  · rw [← List.drop_drop, List.take_append_drop, List.take_append_drop]
  · rw [List.length_take]
    omega
  · rw [List.length_take, List.length_drop]
    omega

/-- **A round of the inner loop**: what is found is cut out of the element, and the length byte says
so. -/
theorem round_cut {A C : List UInt8} {off n : Nat}
    (h : readBytes m 0 N = A ++ (k.ieBytes t ++ C)) (hshort : 4 + t.length < 256)
    (hfound : Finds k id t (some (off, n))) :
    let m' := cutOut m (A.length + (6 + off)) n (t.length - (off + n))
    readBytes (overwrite m' (A.length + 1) [m' (A.length + 1) - UInt8.ofNat n]) 0 N
      = A ++ (k.ieBytes (t.take off ++ t.drop (off + n)) ++ (List.replicate n 0 ++ C)) := by
  intro m'
  obtain ⟨hsplit, hoff, hn⟩ := split_found hfound
  have hin : off + n ≤ t.length := hfound.within rfl
  have hhead : ∀ u, k.ieBytes u
      = wlanEidVendorSpecific :: UInt8.ofNat (4 + u.length) :: (k.oui ++ u) := fun _ => rfl
  have h4 : k.oui.length = 4 := by cases k <;> rfl
  have hcut : readBytes m' 0 N = A ++ [wlanEidVendorSpecific] ++
      ([UInt8.ofNat (4 + t.length)] ++ (k.oui ++ t.take off ++
        (t.drop (off + n) ++ (List.replicate n 0 ++ C)))) := by
    have hwhole : readBytes m 0 N = (A ++ [wlanEidVendorSpecific] ++ [UInt8.ofNat (4 + t.length)]
        ++ k.oui ++ t.take off) ++ ((t.drop off).take n ++ (t.drop (off + n) ++ C)) := by
      rw [h, hhead]
      nth_rewrite 2 [hsplit]
      simp only [List.cons_append, List.append_assoc, List.nil_append]
    have hgone := readBytes_cutOut hwhole
    have hat : (A ++ [wlanEidVendorSpecific] ++ [UInt8.ofNat (4 + t.length)] ++ k.oui
        ++ t.take off).length = A.length + (6 + off) := by
      simp only [List.length_append, List.length_cons, List.length_nil, h4, hoff]
      omega
    rw [hat, hn, List.length_drop] at hgone
    rw [hgone]
    simp only [List.append_assoc]
  -- the length byte
  have hlen : m' (A.length + 1) = UInt8.ofNat (4 + t.length) := by
    have hbyte := (readBytes_append hcut).2
    rw [Nat.zero_add, List.length_append] at hbyte
    exact (readBytes_cons hbyte).1
  have hless : UInt8.ofNat (4 + t.length) - UInt8.ofNat n
      = UInt8.ofNat (4 + (t.take off ++ t.drop (off + n)).length) := by
    have hsum := length_cut hfound
    rw [← UInt8.toNat_inj, UInt8.toNat_sub, UInt8.toNat_ofNat', UInt8.toNat_ofNat',
      UInt8.toNat_ofNat']
    omega
  have hset := readBytes_splice (L := [m' (A.length + 1) - UInt8.ofNat n]) hcut rfl
  rw [List.length_append, List.length_singleton] at hset
  rw [hset, hlen, hless, hhead]
  simp only [List.cons_append, List.append_assoc, List.nil_append]

/-- **What the inner loop makes of an element**: what it deletes, if it ends. -/
theorem delAttrLoop_spec {A C : List UInt8} {rounds : Nat}
    (h : readBytes m 0 N = A ++ (k.ieBytes t ++ C)) (hshort : 4 + t.length < 256)
    (hrounds : t.length < rounds) :
    (∃ t' m', Deletes k id t t' ∧
      delAttrLoop k A.length id rounds m (t.length + 6) = some (m', t'.length + 6) ∧
      readBytes m' 0 N = A ++ (k.ieBytes t' ++ (List.replicate (t.length - t'.length) 0 ++ C))) ∨
    delAttrLoop k A.length id rounds m (t.length + 6) = none ∧ ∀ t', ¬ Deletes k id t t' := by
  induction rounds generalizing m t C with
  | zero => omega
  | succ rounds ih =>
    have hie : readBytes m A.length (t.length + 6) = k.ieBytes t := by
      have hbytes := (readBytes_append (readBytes_append h).2).1
      rwa [Nat.zero_add, length_ieBytes] at hbytes
    have hends : ∀ r, Finds k id t r → k.getAttr m A.length (t.length + 6) id ≠ none :=
      fun r hr => Option.ne_none_iff_exists'.mpr ⟨_, (getAttr_iff hie).mpr ⟨r, hr, rfl⟩⟩
    rw [delAttrLoop]
    cases hget : k.getAttr m A.length (t.length + 6) id with
    | none =>
      refine .inr ⟨rfl, fun t' hd => ?_⟩
      cases hd with
      | done hquiet =>
        obtain ⟨r, hr, -⟩ := hquiet
        exact hends r hr hget
      | cut hfound => exact hends _ hfound hget
    | some x =>
      obtain ⟨r, hr, rfl⟩ := (getAttr_iff hie).mp hget
      have hkeep : Quiet k id t → ∃ t' m', Deletes k id t t' ∧
          some (m, t.length + 6) = some (m', t'.length + 6) ∧ readBytes m' 0 N
            = A ++ (k.ieBytes t' ++ (List.replicate (t.length - t'.length) 0 ++ C)) := fun hquiet =>
        ⟨t, m, .done hquiet, rfl, by rw [Nat.sub_self]; exact h⟩
      cases r with
      | none => exact .inl (hkeep ⟨none, hr, fun _ hx => nomatch hx⟩)
      | some y =>
        obtain ⟨off, n⟩ := y
        by_cases hzero : n = 0
        · subst hzero
          exact .inl (hkeep ⟨_, hr, fun x hx => by rw [← Option.some.inj hx]⟩)
        · have hsum := length_cut hr
          have hin : off + n ≤ t.length := hr.within rfl
          have hround := round_cut h hshort hr
          have hremain : (t.length + 6 + 2 ^ 32 - (A.length + (6 + off) + n - A.length)) % 2 ^ 32
              = t.length - (off + n) := by omega
          have hielen : (t.length + 6 + 2 ^ 32 - n) % 2 ^ 32
              = (t.take off ++ t.drop (off + n)).length + 6 := by omega
          simp only [Option.map_some, Option.bind_eq_bind, Option.bind_some, if_neg hzero, hremain,
            hielen]
          have hn : 0 < n := Nat.pos_of_ne_zero hzero
          obtain ⟨t', m', hd, hloop, hbytes⟩ | ⟨hloop, hno⟩ := ih hround (by omega) (by omega)
          · refine .inl ⟨t', m', .cut hr hn hd, hloop, ?_⟩
            have hle := hd.length_le.1
            rw [hbytes, ← List.append_assoc (List.replicate _ 0), List.replicate_append_replicate]
            congr 5
            omega
          · exact .inr ⟨hloop, fun t' hd => hno t' ((deletes_iff_of_finds hr hn).mp hd)⟩

/-- Of an element with nothing behind its OUI nothing is deleted. -/
theorem delAttr_short {ielen : Nat} (h : ielen ≤ 6) :
    delAttr k m ie ielen id = some (m, ielen) := by
  have hnone : k.getAttr m ie ielen id = some none := by
    rw [getAttr_eq]
    refine AttrCall.run_of_not_entered _ fun hin => ?_
    cases k <;> exact absurd hin.1 (by omega)
  rw [delAttr, delAttrLoop, hnone]
  rfl

end Inner

end Rtl8723bs.AttrDel
