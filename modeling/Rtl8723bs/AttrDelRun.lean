/-
# Attributes deleted from a whole BSS

The outer loop of `rtw_bss_ex_del_p2p_attr` and `rtw_bss_ex_del_wfd_attr` finds the elements of its
kind one after the other.  It may take a vendor element that is too short for the OUI for one of
them, as the bytes of the next are compared too, but such an element has no room for an attribute.

`bss_del_attr_iff` says for which lists the attributes are deleted right.
-/
import Mathlib.Data.List.Forall2
import Rtl8723bs.AttrDel

namespace Rtl8723bs.AttrDel

/-! ## 1. The search for an element -/

section Outer

variable {k : Kind} {id : UInt8} {m : Mem} {N : Nat}

namespace Ie

/-- The element is one of the kind. -/
def isVendor : Ie k → Bool
  | vendor .. => true
  | other .. => false

theorem size_ge (it : Ie k) : 2 ≤ it.bytes.length ∧ (it.isVendor = true → 6 ≤ it.bytes.length) := by
  cases it with
  | vendor attrs rest short cut =>
    rw [bytes, length_ieBytes]
    exact ⟨by omega, fun _ => by omega⟩
  | other e apart => exact ⟨by rw [bytes, e.length_bytes]; omega, fun h => absurd h Bool.false_ne_true⟩

/-- The length byte of an element gives its length. -/
theorem ieSize_eq {it : Ie k} {p n : Nat} {u : List UInt8} (h : readBytes m p n = it.bytes ++ u) :
    ieSize m p = it.bytes.length := by
  have hbytes := (readBytes_append h).1
  cases it with
  | vendor attrs rest short cut =>
    have hl := (readBytes_cons (readBytes_cons hbytes).2).1
    rw [ieSize, hl, toNat_ofNat_short short, bytes, length_ieBytes]
    omega
  | other e apart =>
    have hl := (readBytes_cons (readBytes_cons hbytes).2).1
    rw [ieSize, hl, toNat_ofNat_short e.short]
    rfl

end Ie

theorem length_bytesOf (l : List (Ie k)) : 2 * l.length ≤ (bytesOf l).length := by
  induction l with
  | nil => exact Nat.le_refl 0
  | cons it l ih =>
    have hsize := it.size_ge.1
    simp only [bytesOf, List.flatMap_cons, List.length_append, List.length_cons] at ih ⊢
    omega

theorem bytesOf_append (l l' : List (Ie k)) : bytesOf (l ++ l') = bytesOf l ++ bytesOf l' :=
  List.flatMap_append

theorem bytesOf_cons (it : Ie k) (l : List (Ie k)) : bytesOf (it :: l) = it.bytes ++ bytesOf l :=
  List.flatMap_cons

/-- Where an element is taken for one of the kind, it is one, or has no room for an attribute. -/
theorem hit_cases {it : Ie k} {p n : Nat} {u : List UInt8} (h : readBytes m p n = it.bytes ++ u) :
    (it.isVendor = true →
      m p = wlanEidVendorSpecific ∧ readBytes m (p + 2) 4 = k.oui) ∧
      (m p = wlanEidVendorSpecific ∧ readBytes m (p + 2) 4 = k.oui →
        it.isVendor = true ∨ it.bytes.length ≤ 6) := by
  have hbytes := (readBytes_append h).1
  have h4 : k.oui.length = 4 := by cases k <;> rfl
  cases it with
  | vendor attrs rest short cut =>
    have hid := readBytes_cons hbytes
    have hl := readBytes_cons hid.2
    have houi := (readBytes_append hl.2).1
    rw [h4] at houi
    exact ⟨fun _ => ⟨hid.1, houi⟩, fun _ => .inl rfl⟩
  | other e apart =>
    refine ⟨fun hno => (nomatch hno), fun ⟨hvendor, houi⟩ => .inr ?_⟩
    have hid := readBytes_cons hbytes
    have hl := readBytes_cons hid.2
    have hdata : readBytes m (p + 2) e.data.length = e.data := hl.2
    by_contra hlong
    have h4' : 4 ≤ e.data.length := by
      rw [Ie.bytes, e.length_bytes] at hlong
      omega
    refine apart ⟨hid.1.symm.trans hvendor, List.prefix_iff_eq_take.mpr ?_⟩
    rw [h4, ← hdata, readBytes_take m (p + 2) h4', houi]

/-- **What the search for an element gives**: nothing, and there is no element of the kind; or the
first, or one in front of it that has no room for an attribute. -/
theorem search_cases {p L cnt : Nat} {l : List (Ie k)}
    (h : readBytes m (p + cnt) (bytesOf l).length = bytesOf l) (hlen : cnt + (bytesOf l).length = L)
    (hroom : L ≤ maxIeSz) :
    (∃ n, (vendorIeChain k.oui m p L).search n cnt = some none ∧ ∀ it ∈ l, it.isVendor = false) ∨
    ∃ n before it after, l = before ++ it :: after ∧ (∀ i ∈ before, i.isVendor = false) ∧
      (vendorIeChain k.oui m p L).search n cnt = some (some (cnt + (bytesOf before).length)) ∧
        (it.isVendor = true ∨ it.bytes.length ≤ 6) := by
  have hgo : ∀ cnt, (vendorIeChain k.oui m p L).go cnt = true ↔ cnt + 6 ≤ L := fun cnt => by
    refine decide_eq_true_iff.trans ?_
    unfold maxIeSz at *
    omega
  induction l generalizing cnt with
  | nil =>
    refine .inl ⟨1, Chain.search_stop (Bool.eq_false_iff.mpr fun hyes => ?_),
      fun _ hit => nomatch hit⟩
    have hin := (hgo cnt).mp hyes
    have hnil : (bytesOf ([] : List (Ie k))).length = 0 := rfl
    omega
  | cons it l ih =>
    rw [bytesOf_cons, List.length_append] at hlen
    by_cases hin : cnt + 6 ≤ L
    · have hread := h.trans (bytesOf_cons it l)
      obtain ⟨hvendor, hshort⟩ := hit_cases hread
      by_cases hhit : m (p + cnt) = wlanEidVendorSpecific ∧ readBytes m (p + cnt + 2) 4 = k.oui
      · refine .inr ⟨1, [], it, l, rfl, fun i hi => absurd hi List.not_mem_nil, ?_, hshort hhit⟩
        exact Chain.search_hit ((hgo cnt).mpr hin) (decide_eq_true hhit)
      · have hother : it.isVendor = false :=
          Bool.eq_false_iff.mpr fun hyes => hhit (hvendor hyes)
        have hpass : (vendorIeChain k.oui m p L).Passes cnt :=
          ⟨(hgo cnt).mpr hin, decide_eq_false hhit⟩
        have hnext : (vendorIeChain k.oui m p L).next cnt = cnt + it.bytes.length :=
          congrArg (cnt + ·) (Ie.ieSize_eq hread)
        have hrest := (readBytes_append hread).2
        rw [Nat.add_assoc] at hrest
        obtain ⟨n, hn, hall⟩ | ⟨n, before, it', after, rfl, hbefore, hn, hit⟩ :=
          ih hrest (by omega)
        · refine .inl ⟨n + 1, by rw [Chain.search_passes hpass, hnext, hn], fun i hi => ?_⟩
          rcases List.mem_cons.mp hi with rfl | hi
          · exact hother
          · exact hall i hi
        · refine .inr ⟨n + 1, it :: before, it', after, rfl, fun i hi => ?_, ?_, hit⟩
          · rcases List.mem_cons.mp hi with rfl | hi
            · exact hother
            · exact hbefore i hi
          · rw [Chain.search_passes hpass, hnext, hn, bytesOf_cons, List.length_append,
              Nat.add_assoc]
    · -- what is left is too short for an element of the kind
      refine .inl ⟨1, Chain.search_stop (Bool.eq_false_iff.mpr fun hyes => hin ((hgo cnt).mp hyes)),
        fun i hi => Bool.eq_false_iff.mpr fun hyes => ?_⟩
      have hsize := i.size_ge.2 hyes
      have hle : i.bytes.length ≤ (bytesOf (it :: l)).length :=
        (List.sublist_flatten_of_mem (List.mem_map_of_mem hi)).length_le
      rw [bytesOf_cons, List.length_append] at hle
      omega

/-- The function gives what its search finds. -/
theorem getIe_eq {p L n : Nat} {r : Option Nat}
    (h : (vendorIeChain k.oui m p L).search n 0 = some r) : k.getIe m p L = foundIe m p r := by
  cases k with
  | p2p =>
    have hrun : (IeCall.getP2pIe L true).run m p = some (foundIe m p r) := IeCall.run_eq _ h
    exact Option.some.inj hrun
  | wfd =>
    have hrun : (IeCall.getWfdIe L true).run m p = some (foundIe m p r) := IeCall.run_eq _ h
    exact Option.some.inj hrun

/-! ## 2. The outer loop -/

/-- What may become of an element: of one of the kind what the inner loop deletes. -/
def Outcome (id : UInt8) (it : Ie k) (b : List UInt8) : Prop :=
  match it with
  | .vendor attrs rest _ _ => ∃ t', Deletes k id (attrsBytes k attrs ++ rest) t' ∧ b = k.ieBytes t'
  | .other e _ => b = e.bytes

theorem outcome_other {it : Ie k} {b : List UInt8} (h : it.isVendor = false) :
    Outcome id it b ↔ b = it.bytes := by
  cases it with
  | vendor => nomatch h
  | other => rfl

/-- No element grows. -/
theorem outcome_le {it : Ie k} {b : List UInt8} (h : Outcome id it b) :
    b.length ≤ it.bytes.length := by
  cases it with
  | vendor attrs rest short cut =>
    obtain ⟨t', hd, rfl⟩ := h
    have hle := hd.length_le.1
    rw [Ie.bytes, length_ieBytes, length_ieBytes]
    exact Nat.add_le_add_right hle 6
  | other e apart => exact (congrArg List.length h).le

theorem outcomes_le {l : List (Ie k)} {bs : List (List UInt8)}
    (h : List.Forall₂ (Outcome id) l bs) : bs.flatten.length ≤ (bytesOf l).length := by
  induction h with
  | nil => exact Nat.le_refl _
  | cons hb _ ih =>
    rw [List.flatten_cons, bytesOf_cons, List.length_append, List.length_append]
    exact Nat.add_le_add (outcome_le hb) ih

/-- The elements that are no concern stay. -/
theorem forall₂_others {l : List (Ie k)} (h : ∀ i ∈ l, i.isVendor = false) :
    List.Forall₂ (Outcome id) l (l.map Ie.bytes) := by
  induction l with
  | nil => exact .nil
  | cons it l ih =>
    exact .cons ((outcome_other (h it List.mem_cons_self)).mpr rfl)
      (ih fun i hi => h i (List.mem_cons_of_mem it hi))

/-- **What the call for one element does**: there is an outcome, and it takes the place of the
element; or it never ends. -/
theorem delAttr_spec (id : UInt8) {A C : List UInt8} {it : Ie k}
    (h : readBytes m 0 N = A ++ (it.bytes ++ C)) (hit : it.isVendor = true ∨ it.bytes.length ≤ 6) :
    (∃ b m', Outcome id it b ∧ delAttr k m A.length it.bytes.length id = some (m', b.length) ∧
      readBytes m' 0 N = A ++ (b ++ (List.replicate (it.bytes.length - b.length) 0 ++ C))) ∨
    delAttr k m A.length it.bytes.length id = none ∧ ∀ b, ¬ Outcome id it b := by
  cases it with
  | vendor attrs rest short cut =>
    have hlen : (Ie.vendor attrs rest short cut).bytes.length
        = (attrsBytes k attrs ++ rest).length + 6 := length_ieBytes _
    rw [hlen]
    obtain ⟨t', m', hd, hloop, hbytes⟩ | ⟨hloop, hno⟩ :=
      @delAttrLoop_spec k id m (attrsBytes k attrs ++ rest) N A C
        ((attrsBytes k attrs ++ rest).length + 6 + 1) h short (by omega)
    · have hb : (k.ieBytes t').length = t'.length + 6 := length_ieBytes t'
      refine .inl ⟨k.ieBytes t', m', ⟨t', hd, rfl⟩, ?_, ?_⟩
      · rw [delAttr, hloop, hb]
      · rw [hbytes, hb, Nat.add_sub_add_right]
    · refine .inr ⟨hloop, ?_⟩
      rintro b ⟨t', hd, -⟩
      exact hno t' hd
  | other e apart =>
    have hshort : (Ie.other e apart).bytes.length ≤ 6 := hit.resolve_left Bool.false_ne_true
    refine .inl ⟨_, m, rfl, delAttr_short hshort, ?_⟩
    rw [h, Ie.bytes, Nat.sub_self]
    rfl

/-- What stands behind an element that is shorter now is moved up to it. -/
theorem moveUp_spec {A b R C : List UInt8} {size ieLength : Nat}
    (h : readBytes m 0 N = A ++ (b ++ (List.replicate (size - b.length) 0 ++ (R ++ C))))
    (hle : b.length ≤ size) (hlen : ieLength = A.length + (size + R.length))
    (hroom : ieLength < 2 ^ 32) :
    readBytes (moveUp m A.length size b.length R.length ieLength).1 0 N
        = (A ++ b) ++ (R ++ (List.replicate (size - b.length) 0 ++ C)) ∧
      (moveUp m A.length size b.length R.length ieLength).2
        = ((A ++ b).length, (A ++ b).length + R.length) := by
  rw [List.length_append]
  unfold moveUp
  by_cases hsame : b.length = size
  · subst hsame
    rw [if_neg (not_not.mpr rfl), h, Nat.sub_self]
    refine ⟨List.append_assoc A b _ |>.symm, ?_⟩
    rw [hlen, Nat.add_assoc]
  · have hgone : (size + 2 ^ 32 - b.length) % 2 ^ 32 = size - b.length := by omega
    have hleft : (ieLength + 2 ^ 32 - (size - b.length)) % 2 ^ 32
        = A.length + b.length + R.length := by omega
    rw [← List.append_assoc] at h
    have hcut := readBytes_cutOut h
    rw [List.length_append, List.length_replicate] at hcut
    rw [if_pos hsame]
    dsimp only
    rw [hgone, hleft]
    exact ⟨hcut, rfl⟩

/-- **What the outer loop does** with the elements from `ies` on: there is an outcome of each, and
they stand there one behind the other, with zeros up to the old end; or it never ends. -/
theorem bssDelLoop_spec {A C : List UInt8} {l : List (Ie k)} {rounds : Nat}
    (h : readBytes m 0 N = A ++ (bytesOf l ++ C)) (hroom : N ≤ maxIeSz)
    (hrounds : l.length < rounds) :
    (∃ bs m', List.Forall₂ (Outcome id) l bs ∧
      bssDelLoop k id rounds m A.length (bytesOf l).length (A.length + (bytesOf l).length)
        = some (m', A.length + bs.flatten.length) ∧
      readBytes m' 0 N = A ++ (bs.flatten ++
        (List.replicate ((bytesOf l).length - bs.flatten.length) 0 ++ C))) ∨
    bssDelLoop k id rounds m A.length (bytesOf l).length (A.length + (bytesOf l).length) = none ∧
      ∀ bs, ¬ List.Forall₂ (Outcome id) l bs := by
  induction rounds generalizing m A C l with
  | zero => omega
  | succ rounds ih =>
    have hN := congrArg List.length h
    rw [length_readBytes, List.length_append, List.length_append] at hN
    have hread : readBytes m (A.length + 0) (bytesOf l).length = bytesOf l := by
      have hbytes := (readBytes_append (readBytes_append h).2).1
      rwa [Nat.zero_add] at hbytes
    have hint : asInt (bytesOf l).length = ((bytesOf l).length : Nat) := by
      unfold maxIeSz at hroom
      exact if_pos (by omega)
    rw [bssDelLoop, hint]
    obtain ⟨n, hn, hall⟩ | ⟨n, before, it, after, rfl, hbefore, hn, hit⟩ :=
      search_cases hread (Nat.zero_add _) (by omega)
    · rw [getIe_eq hn]
      refine .inl ⟨l.map Ie.bytes, m, forall₂_others hall, rfl, ?_⟩
      rw [← List.flatMap_def, ← bytesOf, Nat.sub_self]
      exact h
    · rw [bytesOf_append, bytesOf_cons] at h hN
      simp only [List.append_assoc] at h
      rw [← List.append_assoc] at h
      simp only [List.length_append] at hN
      have hfound : foundIe m A.length (some (0 + (bytesOf before).length))
          = some ((A ++ bytesOf before).length, it.bytes.length) := by
        have hit := (readBytes_append h).2
        rw [Nat.zero_add] at hit
        rw [foundIe, Option.map_some, Nat.zero_add, ← List.length_append, Ie.ieSize_eq hit]
      have hsum : (bytesOf (before ++ it :: after)).length
          = (bytesOf before).length + (it.bytes.length + (bytesOf after).length) := by
        simp only [bytesOf_append, bytesOf_cons, List.length_append]
      have hA : (A ++ bytesOf before).length = A.length + (bytesOf before).length :=
        List.length_append
      unfold maxIeSz at hroom
      have hremain : (A.length + (bytesOf (before ++ it :: after)).length + 2 ^ 32
          - ((A ++ bytesOf before).length + it.bytes.length)) % 2 ^ 32
            = (bytesOf after).length := by
        omega
      rw [getIe_eq hn, hfound]
      dsimp only
      rw [hremain]
      obtain ⟨b, m', hb, hdel, hbytes⟩ | ⟨hdel, hno⟩ := delAttr_spec id h hit
      · have hle := outcome_le hb
        rw [hdel, Option.bind_eq_bind, Option.bind_some]
        dsimp only
        obtain ⟨hmore, hplace⟩ := @moveUp_spec m' N _ b (bytesOf after) C it.bytes.length
          (A.length + (bytesOf (before ++ it :: after)).length) hbytes hle (by omega) (by omega)
        rw [hplace]
        obtain ⟨bs, m₃, hbs, hrun, hend⟩ | ⟨hrun, hno⟩ := ih hmore (by
          rw [List.length_append, List.length_cons] at hrounds
          omega)
        · have hflat : (before.map Ie.bytes ++ b :: bs).flatten
              = bytesOf before ++ (b ++ bs.flatten) := by
            rw [List.flatten_append, List.flatten_cons, ← List.flatMap_def, ← bytesOf]
          refine .inl ⟨before.map Ie.bytes ++ b :: bs, m₃, ?_, ?_, ?_⟩
          · exact List.rel_append (forall₂_others hbefore) (.cons hb hbs)
          · rw [hrun, hflat]
            simp only [List.length_append, Nat.add_assoc]
          · have hless := outcomes_le hbs
            have hzeros : (bytesOf (before ++ it :: after)).length
                - (before.map Ie.bytes ++ b :: bs).flatten.length
                = ((bytesOf after).length - bs.flatten.length) + (it.bytes.length - b.length) := by
              rw [hflat, hsum]
              simp only [List.length_append]
              omega
            rw [hend, hzeros, hflat, ← List.replicate_append_replicate]
            simp only [List.append_assoc]
        · refine .inr ⟨hrun, fun bs hbs => ?_⟩
          have hrest := List.forall₂_drop before.length hbs
          rw [List.drop_left] at hrest
          generalize bs.drop before.length = bs' at hrest
          cases hrest with
          | cons _ hafter => exact hno _ hafter
      · refine .inr ⟨by rw [hdel]; rfl, fun bs hbs => ?_⟩
        have hrest := List.forall₂_drop before.length hbs
        rw [List.drop_left] at hrest
        generalize bs.drop before.length = bs' at hrest
        cases hrest with
        | cons hb _ => exact hno _ hb

/-! ## 3. When the attributes are deleted right -/

/-- The loops make one thing of an element. -/
theorem Deletes.unique {t t' u : List UInt8} (h : Deletes k id t t') (h' : Deletes k id t u) :
    t' = u := by
  induction h with
  | done hquiet =>
    cases h' with
    | done => rfl
    | cut hfound hn => exact absurd hquiet (hfound.not_quiet hn)
  | cut hfound hn _ ih => exact ih ((deletes_iff_of_finds hfound hn).mp h')

/-- Attributes that lie in an element are short. -/
theorem attr_short {attrs : List P2pAttr} {rest : List UInt8}
    (h : 4 + (attrs.flatMap k.attrBytes ++ rest).length < 256) :
    ∀ a ∈ attrs, a.content.length + 3 < 2 ^ 16 := by
  intro a ha
  have hle := (List.sublist_flatten_of_mem (List.mem_map_of_mem (f := k.attrBytes) ha)).length_le
  rw [← List.flatMap_def, length_attrBytes] at hle
  rw [List.length_append] at h
  omega

/-- An element loses its attributes with the identifier, and more where what is left in it is not
quiet. -/
theorem outcome_without {it : Ie k} {b : List UInt8} (h : Outcome id it b) :
    b.length ≤ (it.without id).bytes.length ∧
      (¬ Quiet k id it.rest → b.length < (it.without id).bytes.length) := by
  cases it with
  | vendor attrs rest short cut =>
    obtain ⟨t', hd, rfl⟩ := h
    obtain ⟨hle, hlt⟩ := deletes_element (attr_short short) hd
    rw [Ie.without, Ie.bytes, length_ieBytes, length_ieBytes]
    exact ⟨Nat.add_le_add_right hle 6, fun hno => Nat.add_lt_add_right (hlt hno) 6⟩
  | other e apart =>
    have hquiet : Quiet k id (Ie.other e apart).rest :=
      ⟨none, .stop (.inl (Nat.zero_lt_succ 2)), by simp⟩
    exact ⟨(congrArg List.length h).le, fun hno => absurd hquiet hno⟩

theorem outcome_quiet {it : Ie k} (h : Quiet k id it.rest) :
    Outcome id it (it.without id).bytes := by
  cases it with
  | vendor attrs rest short cut => exact ⟨_, deletes_quiet (attr_short short) h, rfl⟩
  | other e apart => exact rfl

theorem outcome_unique {it : Ie k} {b b' : List UInt8} (h : Outcome id it b)
    (h' : Outcome id it b') : b = b' := by
  cases it with
  | vendor attrs rest short cut =>
    obtain ⟨t', hd, rfl⟩ := h
    obtain ⟨u, hd', rfl⟩ := h'
    rw [hd.unique hd']
  | other e apart => exact h.trans h'.symm

/-- **Where nothing is left to be found**, and only there, as much stays as should. -/
theorem outcomes_without {l : List (Ie k)} {bs : List (List UInt8)}
    (h : List.Forall₂ (Outcome id) l bs) :
    bs.flatten.length ≤ (bytesOf (l.map (Ie.without id))).length ∧
      ((bytesOf (l.map (Ie.without id))).length ≤ bs.flatten.length →
        ∀ it ∈ l, Quiet k id it.rest) := by
  induction h with
  | nil => exact ⟨Nat.le_refl _, fun _ it hit => absurd hit List.not_mem_nil⟩
  | @cons it b l bs hb _ ih =>
    obtain ⟨hle, hlt⟩ := outcome_without hb
    rw [List.map_cons, bytesOf_cons, List.flatten_cons, List.length_append, List.length_append]
    refine ⟨Nat.add_le_add hle ih.1, fun hall i hi => ?_⟩
    rcases List.mem_cons.mp hi with rfl | hi
    · by_contra hno
      have := hlt hno
      have := ih.1
      omega
    · exact ih.2 (by omega) i hi

theorem outcomes_quiet {l : List (Ie k)} {bs : List (List UInt8)}
    (h : List.Forall₂ (Outcome id) l bs) (hquiet : ∀ it ∈ l, Quiet k id it.rest) :
    bs.flatten = bytesOf (l.map (Ie.without id)) := by
  induction h with
  | nil => rfl
  | @cons it b l bs hb _ ih =>
    rw [List.map_cons, bytesOf_cons, List.flatten_cons,
      outcome_unique hb (outcome_quiet (hquiet it List.mem_cons_self)),
      ih fun i hi => hquiet i (List.mem_cons_of_mem it hi)]

theorem exists_outcomes {l : List (Ie k)} (hquiet : ∀ it ∈ l, Quiet k id it.rest) :
    ∃ bs, List.Forall₂ (Outcome id) l bs := by
  induction l with
  | nil => exact ⟨[], .nil⟩
  | cons it l ih =>
    obtain ⟨bs, hbs⟩ := ih fun i hi => hquiet i (List.mem_cons_of_mem it hi)
    exact ⟨_, .cons (outcome_quiet (hquiet it List.mem_cons_self)) hbs⟩

end Outer

/-- **A BSS whose IEs are a list of elements**, behind the fixed ones. -/
structure Bss (k : Kind) where
  ex : WlanBssidEx
  front : List UInt8
  ies : List (Ie k)
  holds : Holds ex front ies

/-- **The attributes with an identifier are deleted right** from the elements of the kind exactly if
in none of these the search finds something in what is left behind the attributes. -/
theorem bss_del_attr_iff (k : Kind) (bss : Bss k) (id : UInt8) :
    Deleted k bss.ex bss.front bss.ies id ↔ ∀ it ∈ bss.ies, Quiet k id it.rest := by
  obtain ⟨ex, front, l, hfixed, hlength, hbytes, hroom⟩ := bss
  dsimp only
  rw [List.length_append] at hlength
  have hstart : (ex.ieLength + 2 ^ 32 - fixedIeOffset ex) % 2 ^ 32 = (bytesOf l).length := by
    unfold maxIeSz at hroom
    omega
  have hcount := length_bytesOf l
  have hspec := @bssDelLoop_spec k id ex.ies ex.ieLength front [] l (ex.ieLength + 1)
    (by rw [List.append_nil]; exact hbytes) hroom (by omega)
  rw [← hlength, ← hstart, hfixed] at hspec
  constructor
  · rintro ⟨bss', hrun, hholds⟩
    obtain ⟨bs, m', hbs, hloop, -⟩ | ⟨hloop, -⟩ := hspec
    · rw [bssExDelAttr, hloop] at hrun
      obtain rfl := Option.some.inj hrun
      have hlen := hholds.length
      rw [List.length_append] at hlen
      dsimp only at hlen
      exact (outcomes_without hbs).2 (by omega)
    · rw [bssExDelAttr, hloop] at hrun
      nomatch hrun
  · intro hquiet
    obtain ⟨bs, m', hbs, hloop, hend⟩ | ⟨-, hno⟩ := hspec
    · have hle := outcomes_le hbs
      rw [outcomes_quiet hbs hquiet] at hloop hend hle
      refine ⟨{ ex with ies := m', ieLength := _ }, by rw [bssExDelAttr, hloop]; rfl, hfixed, ?_,
        ?_, ?_⟩
      · rw [List.length_append, hfixed]
      · rw [← List.append_assoc] at hend
        have hprefix := (readBytes_append hend).1
        rw [List.length_append, hfixed] at hprefix
        exact hprefix
      · have hfits : fixedIeOffset ex + (bytesOf (l.map (Ie.without id))).length ≤ maxIeSz := by
          omega
        exact hfits
    · obtain ⟨bs, hbs⟩ := exists_outcomes hquiet
      exact absurd hbs (hno bs)

/-- The fixed IEs, and a P2P element. -/
def stuckBytes : List UInt8 :=
  List.replicate 12 0 ++ [221, 7, 0x50, 0x6F, 0x9A, 0x09, 2, 0xFD, 0xFF]

/-- A BSS with one P2P element, and in it one attribute of 65533 bytes by its length. -/
def stuckBss : Bss .p2p where
  ex :=
    { macAddress := zeroAddr
      bssType := 0
      ssid := []
      rssi := 0
      signalStrength := 0
      signalQuality := 0
      ieLength := 21
      ies := fun i => stuckBytes.getD i 0 }
  front := List.replicate 12 0
  ies := [.vendor [] [2, 0xFD, 0xFF] (by decide) (.inr (by decide))]
  holds := ⟨by decide, by decide, by decide, by decide⟩

/-- Not for every list: the search for another attribute stays at that one for ever. -/
theorem del_attr_stuck : ¬ ∀ k (bss : Bss k) id, Deleted k bss.ex bss.front bss.ies id := by
  intro hall
  obtain ⟨bss', hrun, -⟩ := hall .p2p stuckBss 15
  have hnone : (bssExDelAttr .p2p stuckBss.ex 15).isNone = true := by decide +kernel
  rw [hrun] at hnone
  nomatch hnone

end Rtl8723bs.AttrDel
