/-
# P2P attributes

`rtw_get_p2p_ie` walks over information elements to the first vendor element with the P2P OUI, and
`rtw_get_p2p_attr` over the attributes behind that OUI, each an identifier, a length of two bytes
and its content, to the first with the identifier asked for.  The length of an attribute is kept in
16 bits with its three bytes of header included, so that a content of 65533 bytes has length zero
and the walk does not move on.

`rtwGetP2pIe_found` and `content_found` say what the two walks give on elements and attributes that
are there as bytes.
-/
import Rtl8723bs.Wifi

namespace Rtl8723bs

/-! ## 1. The walks -/

/-- `WLAN_EID_VENDOR_SPECIFIC`. -/
def wlanEidVendorSpecific : UInt8 := 221

/-- `P2P_OUI`, with the type. -/
def p2pOui : List UInt8 := [0x50, 0x6F, 0x9A, 0x09]

/-- `MAX_IE_SZ`. -/
def maxIeSz : Nat := 768

/-- The loop of `rtw_get_p2p_ie`, `cnt` bytes behind `in_ie`; each round takes two bytes or more, so
`in_len` rounds are enough.  The element is not held against `in_len`. -/
def getP2pIeLoop (m : Mem) (inIe inLen : Nat) : Nat → Nat → Option (Nat × Nat)
  | 0, _ => none
  | n + 1, cnt =>
    if cnt + 1 + 4 < inLen then
      if maxIeSz ≤ cnt + 1 + 4 then none
      else if m (inIe + cnt) = wlanEidVendorSpecific ∧ readBytes m (inIe + cnt + 2) 4 = p2pOui then
        some (inIe + cnt, (m (inIe + cnt + 1)).toNat + 2)
      else getP2pIeLoop m inIe inLen n (cnt + ((m (inIe + cnt + 1)).toNat + 2))
    else none

/-- `rtw_get_p2p_ie`: the place of the element, and its length with the two bytes in front. -/
def rtwGetP2pIe (m : Mem) (inIe : Nat) (inLen : Int) : Option (Nat × Nat) :=
  if inLen ≤ 0 then none else getP2pIeLoop m inIe inLen.toNat inLen.toNat 0

/-- The loop of `rtw_get_p2p_attr`, `off` bytes behind `p2p_ie`.  A round that does not come to the
end takes a byte or more unless `attr_len` has wrapped to zero, so it is `none` where the loop never
ends. -/
def getP2pAttrLoop (m : Mem) (p2pIe p2pIelen : Nat) (targetAttrId : UInt8) :
    Nat → Nat → Option (Option (Nat × Nat))
  | 0, _ => none
  | n + 1, off =>
    if off + 3 ≤ p2pIelen then
      let attrLen := (le16 m (p2pIe + off + 1) + 3) % 2 ^ 16
      if p2pIelen < off + attrLen then some none
      else if m (p2pIe + off) = targetAttrId then some (some (p2pIe + off, attrLen))
      else getP2pAttrLoop m p2pIe p2pIelen targetAttrId n (off + attrLen)
    else some none

/-- `rtw_get_p2p_attr`; no element is the null pointer. -/
def rtwGetP2pAttr (m : Mem) (ie : Option (Nat × Nat)) (targetAttrId : UInt8) :
    Option (Option (Nat × Nat)) :=
  match ie with
  | none => some none
  | some (p2pIe, p2pIelen) =>
    if p2pIelen ≤ 6 ∨ m p2pIe ≠ wlanEidVendorSpecific ∨ readBytes m (p2pIe + 2) 4 ≠ p2pOui then
      some none
    else getP2pAttrLoop m p2pIe p2pIelen targetAttrId p2pIelen 6

/-- `rtw_get_p2p_attr_content`: the place and the length of the content. -/
def rtwGetP2pAttrContent (m : Mem) (ie : Option (Nat × Nat)) (targetAttrId : UInt8) :
    Option (Option (Nat × Nat)) := do
  match ← rtwGetP2pAttr m ie targetAttrId with
  | none => return none
  | some (attrPtr, attrLen) =>
    if attrLen = 0 then return none
    else return some (attrPtr + 3, (attrLen + 2 ^ 32 - 3) % 2 ^ 32)

/-! ## 2. Elements and attributes as bytes -/

/-- An information element. -/
structure Element where
  eid : UInt8
  data : List UInt8
  short : data.length < 256

/-- The element as bytes. -/
def Element.bytes (e : Element) : List UInt8 := e.eid :: UInt8.ofNat e.data.length :: e.data

/-- An element that fills its vendor part, so that its own bytes decide whether it is taken for the
P2P element, and they say it is not. -/
def Element.Apart (e : Element) : Prop :=
  e.eid = wlanEidVendorSpecific → 4 ≤ e.data.length ∧ e.data.take 4 ≠ p2pOui

instance (e : Element) : Decidable e.Apart := inferInstanceAs (Decidable (_ → _))

/-- A P2P attribute. -/
structure P2pAttr where
  id : UInt8
  content : List UInt8
deriving DecidableEq, Repr

/-- The attribute as bytes, the length little-endian. -/
def P2pAttr.bytes (a : P2pAttr) : List UInt8 :=
  a.id :: UInt8.ofNat (a.content.length % 256) :: UInt8.ofNat (a.content.length / 256) :: a.content

/-- The attributes of an element, one behind the other. -/
def attrBytes (attrs : List P2pAttr) : List UInt8 := attrs.flatMap P2pAttr.bytes

/-- The P2P element with these attributes. -/
def p2pIeBytes (attrs : List P2pAttr) : List UInt8 :=
  wlanEidVendorSpecific :: UInt8.ofNat (4 + (attrBytes attrs).length) :: (p2pOui ++ attrBytes attrs)

/-- The content of the first attribute with this identifier. -/
def contentOf (attrs : List P2pAttr) (id : UInt8) : Option (List UInt8) :=
  (attrs.find? fun a => a.id = id).map P2pAttr.content

theorem Element.length_bytes (e : Element) : e.bytes.length = e.data.length + 2 := rfl

theorem P2pAttr.length_bytes (a : P2pAttr) : a.bytes.length = a.content.length + 3 := rfl

theorem length_p2pIeBytes (attrs : List P2pAttr) :
    (p2pIeBytes attrs).length = (attrBytes attrs).length + 6 := by
  unfold p2pIeBytes
  simp only [List.length_cons, List.length_append]
  have h4 : p2pOui.length = 4 := rfl
  omega

/-! ## 3. What the walks find -/

section Walks

variable {m : Mem}

/-- The length byte of an element gives its length. -/
theorem toNat_ofNat_short {n : Nat} (h : n < 256) : (UInt8.ofNat n).toNat = n := by
  rw [UInt8.toNat_ofNat']
  exact Nat.mod_eq_of_lt h

/-- An element that is not the P2P element is passed over. -/
theorem Element.Apart.passed {e : Element} (he : e.Apart) {off n : Nat} {rest : List UInt8}
    (h : readBytes m off n = e.bytes ++ rest) :
    ¬ (m off = wlanEidVendorSpecific ∧ readBytes m (off + 2) 4 = p2pOui) ∧
      (m (off + 1)).toNat = e.data.length := by
  have hbytes := (readBytes_append h).1
  have hid := readBytes_cons hbytes
  have hlen := readBytes_cons hid.2
  constructor
  · rintro ⟨hvendor, houi⟩
    obtain ⟨hlong, hother⟩ := he (hid.1.symm.trans hvendor)
    apply hother
    have hdata : readBytes m (off + 2) e.data.length = e.data := hlen.2
    rw [← hdata, readBytes_take m (off + 2) hlong, houi]
  · rw [hlen.1]
    exact toNat_ofNat_short e.short

theorem getP2pIeLoop_found {inIe inLen : Nat} {attrs : List P2pAttr} {after : List UInt8}
    (hattrs : (attrBytes attrs).length + 4 < 256) : ∀ {before : List Element} {n cnt : Nat},
    readBytes m (inIe + cnt) (inLen - cnt)
      = before.flatMap Element.bytes ++ (p2pIeBytes attrs ++ after) →
    (∀ e ∈ before, e.Apart) → cnt + (before.flatMap Element.bytes).length + 5 < maxIeSz →
    inLen - cnt ≤ n →
    getP2pIeLoop m inIe inLen n cnt
      = some (inIe + cnt + (before.flatMap Element.bytes).length, (attrBytes attrs).length + 6)
  | [], n, cnt, h, _, hdeep, hn => by
    have hbytes := (readBytes_append (b := after) h).1
    have hlen := congrArg List.length h
    simp only [List.flatMap_nil, List.nil_append, List.length_append, length_readBytes,
      length_p2pIeBytes, List.length_nil] at hlen hdeep
    have hid := readBytes_cons hbytes
    have hie := readBytes_cons hid.2
    have houi := (readBytes_append hie.2).1
    obtain ⟨n, rfl⟩ : ∃ k, n = k + 1 := ⟨n - 1, by omega⟩
    rw [getP2pIeLoop, if_pos (by omega), if_neg (by omega), if_pos ⟨hid.1, houi⟩, hie.1,
      toNat_ofNat_short (by omega)]
    simp only [List.flatMap_nil, List.length_nil]
    congr 2
    omega
  | e :: before, n, cnt, h, hbefore, hdeep, hn => by
    rw [List.flatMap_cons, List.append_assoc] at h
    have hlen := congrArg List.length h
    have hpass := (hbefore e List.mem_cons_self).passed h
    have hrest := (readBytes_append h).2
    simp only [List.flatMap_cons, List.length_append, length_readBytes, length_p2pIeBytes,
      Element.length_bytes] at hlen hdeep hrest
    obtain ⟨n, rfl⟩ : ∃ k, n = k + 1 := ⟨n - 1, by omega⟩
    have hcnt : cnt + ((m (inIe + cnt + 1)).toNat + 2) = cnt + (e.data.length + 2) := by
      rw [hpass.2]
    have hread : readBytes m (inIe + (cnt + (e.data.length + 2)))
        (inLen - (cnt + (e.data.length + 2)))
        = before.flatMap Element.bytes ++ (p2pIeBytes attrs ++ after) := by
      rw [← hrest, ← Nat.add_assoc]
      congr 1
      omega
    have hstep := getP2pIeLoop_found hattrs hread (fun d hd => hbefore d (List.mem_cons_of_mem e hd))
      (by omega) (show _ ≤ n by omega)
    rw [getP2pIeLoop, if_pos (by omega), if_neg (by omega), if_neg hpass.1, hcnt, hstep,
      List.flatMap_cons, List.length_append, Element.length_bytes]
    congr 2
    omega

/-- **The P2P element is found** behind elements that are not taken for it, when it starts early
enough. -/
theorem rtwGetP2pIe_found {inIe inLen : Nat} {before : List Element} {attrs : List P2pAttr}
    {after : List UInt8}
    (h : readBytes m inIe inLen = before.flatMap Element.bytes ++ (p2pIeBytes attrs ++ after))
    (hattrs : (attrBytes attrs).length + 4 < 256) (hbefore : ∀ e ∈ before, e.Apart)
    (hdeep : (before.flatMap Element.bytes).length + 5 < maxIeSz) :
    ∃ p n, rtwGetP2pIe m inIe inLen = some (p, n) ∧ readBytes m p n = p2pIeBytes attrs := by
  have hlen := congrArg List.length h
  simp only [List.length_append, length_readBytes, length_p2pIeBytes] at hlen
  have h0 : readBytes m (inIe + 0) (inLen - 0)
      = before.flatMap Element.bytes ++ (p2pIeBytes attrs ++ after) := h
  have hwalk := getP2pIeLoop_found hattrs h0 hbefore (by omega) (Nat.sub_le inLen 0)
  have hie := (readBytes_append (readBytes_append h).2).1
  rw [length_p2pIeBytes] at hie
  refine ⟨_, _, ?_, hie⟩
  unfold rtwGetP2pIe
  rw [if_neg (by omega), Int.toNat_natCast, hwalk, Nat.add_zero]

/-- The length field of an attribute gives its length. -/
theorem le16_attr {a : P2pAttr} (ha : a.content.length < 2 ^ 16) {off n : Nat} {rest : List UInt8}
    (h : readBytes m off n = a.bytes ++ rest) :
    m off = a.id ∧ le16 m (off + 1) = a.content.length ∧
      readBytes m (off + 3) a.content.length = a.content := by
  have hid := readBytes_cons (readBytes_append h).1
  have hlo := readBytes_cons hid.2
  have hhi := readBytes_cons hlo.2
  refine ⟨hid.1, ?_, hhi.2⟩
  unfold le16
  rw [hlo.1, hhi.1, toNat_ofNat_short (by omega), toNat_ofNat_short (by omega)]
  omega

/-- **The walk over attributes finds the first with the identifier**, and comes to the end where
there is none. -/
theorem getP2pAttrLoop_found {p2pIe p2pIelen : Nat} (id : UInt8) (hle : p2pIelen < 2 ^ 16) :
    ∀ {attrs : List P2pAttr} {n off : Nat},
    readBytes m (p2pIe + off) (p2pIelen - off) = attrBytes attrs → off ≤ p2pIelen →
    p2pIelen - off < n →
    ∃ r : Option (Nat × Nat), getP2pAttrLoop m p2pIe p2pIelen id n off = some r ∧
      r.map (fun x => (x.2, readBytes m (x.1 + 3) (x.2 - 3)))
        = (contentOf attrs id).map fun c => (c.length + 3, c)
  | [], n, off, h, hoff, hn => by
    have hlen := congrArg List.length h
    rw [length_readBytes] at hlen
    have hzero : (attrBytes []).length = 0 := rfl
    obtain ⟨n, rfl⟩ : ∃ k, n = k + 1 := ⟨n - 1, by omega⟩
    rw [getP2pAttrLoop, if_neg (by omega)]
    exact ⟨none, rfl, rfl⟩
  | a :: attrs, n, off, h, hoff, hn => by
    have happ : attrBytes (a :: attrs) = a.bytes ++ attrBytes attrs := rfl
    rw [happ] at h
    have hlen := congrArg List.length h
    rw [length_readBytes, List.length_append, P2pAttr.length_bytes] at hlen
    obtain ⟨hid, hl, hcontent⟩ := le16_attr (by omega) h
    have hrest := (readBytes_append h).2
    rw [P2pAttr.length_bytes] at hrest
    obtain ⟨n, rfl⟩ : ∃ k, n = k + 1 := ⟨n - 1, by omega⟩
    have hattrLen : (le16 m (p2pIe + off + 1) + 3) % 2 ^ 16 = a.content.length + 3 := by
      rw [hl]
      exact Nat.mod_eq_of_lt (by omega)
    rw [getP2pAttrLoop, if_pos (by omega)]
    dsimp only
    rw [hattrLen, if_neg (by omega), hid]
    by_cases heq : a.id = id
    · rw [if_pos heq]
      have hfirst : contentOf (a :: attrs) id = some a.content := by
        unfold contentOf
        rw [List.find?_cons_of_pos (by simpa using heq)]
        rfl
      refine ⟨_, rfl, ?_⟩
      rw [hfirst, Option.map_some, Option.map_some, Nat.add_sub_cancel, hcontent]
    · rw [if_neg heq]
      have hother : contentOf (a :: attrs) id = contentOf attrs id := by
        unfold contentOf
        rw [List.find?_cons_of_neg (by simpa using heq)]
      have hread : readBytes m (p2pIe + (off + (a.content.length + 3)))
          (p2pIelen - (off + (a.content.length + 3))) = attrBytes attrs := by
        rw [← hrest, ← Nat.add_assoc]
        congr 1
        omega
      rw [hother]
      exact getP2pAttrLoop_found id hle hread (by omega) (by omega)

/-- A content is among the bytes of the attributes. -/
theorem length_contentOf {attrs : List P2pAttr} {id : UInt8} {c : List UInt8}
    (h : contentOf attrs id = some c) : c.length + 3 ≤ (attrBytes attrs).length := by
  obtain ⟨a, ha, rfl⟩ := Option.map_eq_some_iff.mp h
  obtain ⟨s, t, rfl⟩ := List.append_of_mem (List.mem_of_find?_eq_some ha)
  unfold attrBytes
  rw [List.flatMap_append, List.flatMap_cons, List.length_append, List.length_append,
    P2pAttr.length_bytes]
  omega

/-- What a search for content gives is the content of the first attribute with the identifier. -/
theorem content_found {p2pIe p2pIelen : Nat} {attrs : List P2pAttr}
    (h : readBytes m p2pIe p2pIelen = p2pIeBytes attrs) (id : UInt8)
    (hattrs : (attrBytes attrs).length + 4 < 256) :
    ∃ r : Option (Nat × Nat), rtwGetP2pAttrContent m (some (p2pIe, p2pIelen)) id = some r ∧
      r.map (fun x => readBytes m x.1 x.2) = contentOf attrs id := by
  have hlen := congrArg List.length h
  rw [length_readBytes, length_p2pIeBytes] at hlen
  have hid := readBytes_cons h
  have hie := readBytes_cons hid.2
  have houi := readBytes_append hie.2
  by_cases h6 : p2pIelen ≤ 6
  · have hnone : rtwGetP2pAttr m (some (p2pIe, p2pIelen)) id = some none := if_pos (Or.inl h6)
    have hempty : attrs = [] := by
      cases attrs with
      | nil => rfl
      | cons a attrs =>
        have happ : (attrBytes (a :: attrs)).length = a.bytes.length + (attrBytes attrs).length :=
          List.length_append
        rw [P2pAttr.length_bytes] at happ
        omega
    refine ⟨none, ?_, by rw [hempty]; rfl⟩
    unfold rtwGetP2pAttrContent
    rw [hnone]
    rfl
  · have hwalk : rtwGetP2pAttr m (some (p2pIe, p2pIelen)) id
        = getP2pAttrLoop m p2pIe p2pIelen id p2pIelen 6 := by
      refine if_neg ?_
      rintro (hshort | hvendor | hother)
      · exact h6 hshort
      · exact hvendor hid.1
      · exact hother houi.1
    have hread : readBytes m (p2pIe + 6) (p2pIelen - 6) = attrBytes attrs := by
      have hn : p2pIelen - 6 = (attrBytes attrs).length := by omega
      rw [hn]
      exact houi.2
    obtain ⟨r, hr, hcontent⟩ :=
      getP2pAttrLoop_found id (by omega) hread (by omega) (show _ < p2pIelen by omega)
    unfold rtwGetP2pAttrContent
    rw [hwalk, hr]
    cases r with
    | none =>
      refine ⟨none, rfl, ?_⟩
      cases hc : contentOf attrs id with
      | none => rfl
      | some c => exact absurd hcontent (by rw [hc]; exact Option.some_ne_none _ ∘ Eq.symm)
    | some x =>
      obtain ⟨q, n⟩ := x
      cases hc : contentOf attrs id with
      | none => exact absurd hcontent (by rw [hc]; exact Option.some_ne_none _)
      | some c =>
        rw [hc] at hcontent
        simp only [Option.map_some, Option.some.injEq, Prod.mk.injEq] at hcontent
        obtain ⟨rfl, hbytes⟩ := hcontent
        rw [Nat.add_sub_cancel] at hbytes
        refine ⟨some (q + 3, c.length), ?_, congrArg some hbytes⟩
        have hle := length_contentOf hc
        have hsmall : (c.length + 3 + 2 ^ 32 - 3) % 2 ^ 32 = c.length := by omega
        change some (some (q + 3, (c.length + 3 + 2 ^ 32 - 3) % 2 ^ 32)) = _
        rw [hsmall]

end Walks

end Rtl8723bs
