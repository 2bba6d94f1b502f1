/-
# Does the beacon say what the stations need?

The HT operation element is rewritten whenever the operation mode changes, and the mode is
worked out anew at every join and leave, so it follows the counters.  The ERP element is only
rewritten when the first non-ERP station comes or the last one goes.  That is enough for its
protection bits, as long as no legacy BSS overlaps; it is not enough for its Barker bit, which
the counter of stations without short preambles should decide: the beacon is marked as changed
when that counter reaches an edge, but no element is rewritten.
-/
import Rtl8723bs.Ap.BssCap

namespace Rtl8723bs

open FlagCount

/-! ## 1. Masks -/

theorem getLsbD_putBits {w : Nat} (x m : BitVec w) (on : Bool) {i : Nat} (hi : i < w) :
    (putBits x m on).getLsbD i = if m.getLsbD i then on else x.getLsbD i := by
  unfold putBits
  cases on with
  | true =>
    rw [if_pos rfl, BitVec.getLsbD_or]
    cases m.getLsbD i <;> simp
  | false =>
    rw [if_neg Bool.false_ne_true, BitVec.getLsbD_and, BitVec.getLsbD_not, decide_eq_true hi]
    cases m.getLsbD i <;> simp

/-! ## 2. Spec lemmas of the operations -/

namespace Bss

variable {b b₀ b' : Bss} {psta : StaId} {on : Bool} {s : StaCapab} {S : List StaId}

@[simp] theorem count_fst (b : Bss) (k : CapKind) (psta : StaId) (on : Bool) :
    (b.count k psta on).1 = { b with caps := b.caps.write k psta on } := by
  unfold Bss.count
  split
  · rename_i h
    rw [write_same h]
  · rfl

/-- The write of a flag makes its counter leave zero, or reach it. -/
def Turns (b : Bss) (k : CapKind) (psta : StaId) (on : Bool) : Prop :=
  b.caps.flag k psta ≠ on ∧ b.num k = if on then 0 else 1

instance (b : Bss) (k : CapKind) (psta : StaId) (on : Bool) : Decidable (b.Turns k psta on) :=
  inferInstanceAs (Decidable (_ ∧ _))

theorem count_snd (b : Bss) (k : CapKind) (psta : StaId) (on : Bool) :
    (b.count k psta on).2 = true ↔ b.Turns k psta on := by
  unfold Bss.count Turns
  split
  · rename_i h
    exact ⟨fun hf => absurd hf Bool.false_ne_true, fun hf => absurd h hf.1⟩
  · rename_i h
    simp only [decide_eq_true_eq]
    show (b.caps.write k psta on).num k = _ ↔ _ ∧ b.caps.num k = _
    cases on with
    | true =>
      rw [write_num_true (Bool.eq_false_iff.mpr h), if_pos rfl, if_pos rfl]
      exact ⟨fun hn => ⟨h, by omega⟩, fun hn => by omega⟩
    | false =>
      rw [write_num_false (by simpa using h), if_neg Bool.false_ne_true,
        if_neg Bool.false_ne_true]
      exact ⟨fun hn => ⟨h, by omega⟩, fun hn => by omega⟩

/-- The rewritten first byte of the ERP element. -/
def erpData (b : Bss) (data : BitVec 8) : BitVec 8 :=
  putBits (putBits data erpInfoProtection (b.num .nonErp = 1)) erpInfoBarker
    (b.num .noShortPreamble > 0)

theorem updateBcnErpinfoIe_eq (h : b.erpIe.isSome → b.erpEnable = true) :
    b.updateBcnErpinfoIe = { b with erpIe := b.erpIe.map b.erpData } := by
  unfold Bss.updateBcnErpinfoIe
  cases he : b.erpIe with
  | none =>
    have hsame : b = { b with erpIe := none } := by
      cases b
      cases he
      rfl
    rw [ite_self]
    exact hsame
  | some data =>
    rw [h (by rw [he]; rfl)]
    rfl

theorem updateBeacon_erpInfo (hstart : b.bstartBss = true)
    (hen : b.erpIe.isSome → b.erpEnable = true) :
    b.updateBeacon .erpInfo =
      { b with
        erpIe := b.erpIe.map b.erpData
        updateBcn := true } := by
  unfold Bss.updateBeacon
  rw [if_neg (by rw [hstart]; exact Bool.false_ne_true)]
  show { b.updateBcnErpinfoIe with updateBcn := true } = _
  rw [updateBcnErpinfoIe_eq hen]

/-- What `countNonErp` does: flag and counter move, and at an edge the element is rewritten
from the new counters. -/
theorem countNonErp_eq (psta : StaId) (on : Bool) (hstart : b.bstartBss = true)
    (hen : b.erpIe.isSome → b.erpEnable = true) :
    ∃ u, (b.countNonErp psta on).1 =
      { b with
        caps := b.caps.write .nonErp psta on
        erpIe := if b.Turns .nonErp psta on then
            b.erpIe.map (erpData { b with caps := b.caps.write .nonErp psta on })
          else b.erpIe
        updateBcn := u } := by
  unfold Bss.countNonErp
  dsimp only
  by_cases ht : b.Turns .nonErp psta on
  · rw [if_pos ((count_snd b .nonErp psta on).mpr ht), if_pos ht, count_fst]
    exact ⟨true, updateBeacon_erpInfo hstart hen⟩
  · rw [if_neg fun hs => ht ((count_snd b .nonErp psta on).mp hs), if_neg ht, count_fst]
    exact ⟨b.updateBcn, rfl⟩

/-- `followBit` moves one bit of the operation mode, and counts if it does. -/
theorem followBit_spec (b : Bss) {i : Nat} (hi : i < 16) (on : Bool) :
    ∃ m, (b.followBit (BitVec.twoPow 16 i) on).1 = { b with htOpMode := m } ∧
      m.getLsbD i = on ∧ (∀ j, j ≠ i → m.getLsbD j = b.htOpMode.getLsbD j) ∧
      ((b.followBit (BitVec.twoPow 16 i) on).2 = 0 → m = b.htOpMode) := by
  have hother : ∀ j, j ≠ i → (BitVec.twoPow 16 i).getLsbD j = false := by
    intro j hj
    rw [BitVec.getLsbD_twoPow, decide_eq_false (Ne.symm hj), Bool.and_false]
  have hself : (BitVec.twoPow 16 i).getLsbD i = true := by
    rw [BitVec.getLsbD_twoPow, decide_eq_true hi, decide_eq_true rfl, Bool.and_true]
  have hzero := and_twoPow_eq_zero_iff b.htOpMode hi
  unfold Bss.followBit
  by_cases hset : b.htOpMode.getLsbD i = false ∧ on = true
  · rw [if_pos ⟨hzero.mpr hset.1, hset.2⟩]
    refine ⟨_, rfl, ?_, ?_, fun h => absurd h Nat.one_ne_zero⟩
    · rw [BitVec.getLsbD_or, hself, Bool.or_true, hset.2]
    · intro j hj
      rw [BitVec.getLsbD_or, hother j hj, Bool.or_false]
  · rw [if_neg fun h => hset ⟨hzero.mp h.1, h.2⟩]
    by_cases hclear : ¬b.htOpMode.getLsbD i = false ∧ (!on) = true
    · rw [if_pos ⟨fun h => hclear.1 (hzero.mp h), hclear.2⟩]
      refine ⟨_, rfl, ?_, ?_, fun h => absurd h Nat.one_ne_zero⟩
      · rw [BitVec.getLsbD_and, BitVec.getLsbD_not, hself]
        have hon := hclear.2
        rw [Bool.not_eq_true'] at hon
        rw [hon, Bool.not_true, Bool.and_false, Bool.and_false]
      · intro j hj
        rw [BitVec.getLsbD_and, BitVec.getLsbD_not, hother j hj, Bool.not_false, Bool.and_true]
        by_cases hj16 : j < 16
        · rw [decide_eq_true hj16, Bool.and_true]
        · rw [BitVec.getLsbD_of_ge _ _ (Nat.le_of_not_lt hj16), Bool.false_and]
    · rw [if_neg fun h => hclear ⟨fun hb => h.1 (hzero.mpr hb), h.2⟩]
      refine ⟨b.htOpMode, rfl, ?_, fun _ _ => rfl, fun _ => rfl⟩
      cases hbit : b.htOpMode.getLsbD i <;> cases on <;> simp_all

/-- What `rtw_ht_operation_update` makes of the mode `m₀`: the bit of stations without
greenfield, and the two low bits. -/
structure ModeOk (b : Bss) (m : BitVec 16) : Prop where
  nonGf : m.getLsbD 2 = decide (b.num .htNoGf ≠ 0)
  opMode : m &&& opModeMask = b.newOpMode

theorem newOpMode_low (b : Bss) : b.newOpMode &&& opModeMask = b.newOpMode := by
  unfold Bss.newOpMode
  repeat' split
  all_goals decide

theorem newOpMode_bit2 (b : Bss) : b.newOpMode.getLsbD 2 = false := by
  unfold Bss.newOpMode
  repeat' split
  all_goals decide

/-- **The operation mode is worked out anew**, and no change is reported only if there is
none. -/
theorem htOperationUpdate_spec (hht : b.htOption = true) :
    ∃ m, b.htOperationUpdate.1 = { b with htOpMode := m } ∧ b.ModeOk m ∧
      (b.htOperationUpdate.2 = 0 → m = b.htOpMode) := by
  obtain ⟨m₁, heq₁, hbit₁, -, hsame₁⟩ :=
    followBit_spec b (i := 2) (by decide) (b.num .htNoGf ≠ 0)
  obtain ⟨m₂, heq₂, -, hother₂, hsame₂⟩ :=
    followBit_spec { b with htOpMode := m₁ } (i := 4) (by decide)
      (b.num .noHt ≠ 0 ∨ b.olbcHt)
  have hgf : nonGfDevsPresent = BitVec.twoPow 16 2 := by decide
  have hht' : nonHtStaPresent = BitVec.twoPow 16 4 := by decide
  have hgfbit : m₂.getLsbD 2 = decide (b.num .htNoGf ≠ 0) := by
    rw [hother₂ 2 (by decide)]
    exact hbit₁
  have hmask : opModeMask.getLsbD 2 = false := by decide
  unfold Bss.htOperationUpdate
  rw [if_neg (by rw [hht]; exact Bool.false_ne_true)]
  dsimp only
  rw [hgf, hht', heq₁, heq₂]
  dsimp only
  show ∃ m, (if m₂ &&& opModeMask ≠ b.newOpMode then _ else _ : Bss × Nat).1 = _ ∧ _ ∧ _
  by_cases hmode : m₂ &&& opModeMask ≠ b.newOpMode
  · rw [if_pos hmode]
    refine ⟨_, rfl, ⟨?_, ?_⟩, fun h => absurd h (by simp)⟩
    · rw [BitVec.getLsbD_or, BitVec.getLsbD_and, BitVec.getLsbD_not, hmask, newOpMode_bit2]
      simpa using hgfbit
    · have hcancel : m₂ &&& ~~~opModeMask &&& opModeMask = 0 := by
        rw [BitVec.and_assoc, BitVec.and_comm (~~~opModeMask)]
        simp
      rw [BitVec.and_or_distrib_right, hcancel, newOpMode_low]
      simp
  · rw [if_neg hmode]
    refine ⟨m₂, rfl, ⟨hgfbit, Decidable.not_not.mp hmode⟩, ?_⟩
    intro hzero
    have h₁ := hsame₁ (by dsimp only at hzero; omega)
    have h₂ := hsame₂ (by dsimp only at hzero; omega)
    rw [h₂, h₁]

/-- `update_bcn_htinfo_ie` writes the operation mode into the element, and touches nothing
else but the channel width. -/
theorem updateBcnHtinfoIe_spec
    (hen : b.htInfoIe.isSome → b.htOption = true ∧ b.htInfoEnable = true) :
    ∃ ie sw, b.updateBcnHtinfoIe =
        { b with
          htInfoIe := ie
          swTo20mhz := sw } ∧
      (∀ i, ie = some i → i.opMode = b.htOpMode) ∧ (ie.isSome → b.htInfoIe.isSome) := by
  unfold Bss.updateBcnHtinfoIe
  cases hie : b.htInfoIe with
  | none =>
    refine ⟨none, b.swTo20mhz, ?_, (fun i hi => nomatch hi), id⟩
    rw [ite_self, ite_self]
    cases b
    cases hie
    rfl
  | some ie =>
    obtain ⟨hht, hinfo⟩ := hen (by rw [hie]; rfl)
    rw [if_neg (by rw [hht]; exact Bool.false_ne_true),
      if_neg (by rw [hinfo]; exact Bool.false_ne_true)]
    dsimp only
    have hmode : ∀ (x : BitVec 8) (i : HtInfoIe), some (HtInfoIe.mk x b.htOpMode) = some i →
        i.opMode = b.htOpMode := by
      rintro x i ⟨⟩
      rfl
    split
    · split
      · exact ⟨_, true, rfl, hmode _, fun _ => rfl⟩
      · exact ⟨_, b.swTo20mhz, rfl, hmode _, fun _ => rfl⟩
    · split
      · exact ⟨_, false, rfl, hmode _, fun _ => rfl⟩
      · exact ⟨_, b.swTo20mhz, rfl, hmode _, fun _ => rfl⟩

/-! ## 3. The invariant -/

/-- The ERP bits follow their counters. -/
def ErpOk (b : Bss) : Prop :=
  ∀ data, b.erpIe = some data →
    (data.getLsbD 0 = true ↔ 0 < b.num .nonErp) ∧
      (data.getLsbD 1 = true ↔ 0 < b.num .nonErp) ∧
        (data.getLsbD 2 = true ↔ 0 < b.num .noShortPreamble)

/-- The HT operation element has the current operation mode, and that is the one the counters
imply. -/
structure HtOk (b : Bss) : Prop where
  ie : ∀ i, b.htInfoIe = some i → i.opMode = b.htOpMode
  mode : b.htOption = true → b.ModeOk b.htOpMode

/-- What the start of a BSS settles: it runs, no legacy BSS was seen, and an element that is in
the beacon is one the driver updates. -/
structure On (b : Bss) : Prop where
  start : b.bstartBss = true
  olbc : b.olbc = false
  erp : b.erpIe.isSome → b.erpEnable = true
  ht : b.htInfoIe.isSome → b.htOption = true ∧ b.htInfoEnable = true

/-- The invariant while a station of `S` joins or leaves, before the operation mode is worked
out. -/
structure Mid (S : List StaId) (b : Bss) : Prop where
  on : b.On
  counts : ∀ k, Counts S b.caps k
  erp : b.ErpOk
  ie : ∀ i, b.htInfoIe = some i → i.opMode = b.htOpMode

/-- The invariant between two joins or leaves. -/
structure Ok (S : List StaId) (b : Bss) : Prop where
  on : b.On
  counts : ∀ k, Counts S b.caps k
  erp : b.ErpOk
  ht : b.HtOk

theorem Ok.mid (h : b.Ok S) : b.Mid S := ⟨h.on, h.counts, h.erp, h.ht.ie⟩

/-- The new ERP bits are those of the counters, if the counter of non-ERP stations is at an
edge: the comparison with 1 is right there. -/
theorem erpData_ok (hn : b.num .nonErp = 0 ∨ b.num .nonErp = 1) (data : BitVec 8) :
    ((b.erpData data).getLsbD 0 = true ↔ 0 < b.num .nonErp) ∧
      ((b.erpData data).getLsbD 1 = true ↔ 0 < b.num .nonErp) ∧
        ((b.erpData data).getLsbD 2 = true ↔ 0 < b.num .noShortPreamble) := by
  have hprot : ∀ i, i < 2 → (b.erpData data).getLsbD i = decide (b.num .nonErp = 1) := by
    intro i hi
    have hbarker : erpInfoBarker.getLsbD i = false := by
      rcases Nat.le_one_iff_eq_zero_or_eq_one.mp (Nat.le_of_lt_succ hi) with rfl | rfl <;> decide
    have hmask : erpInfoProtection.getLsbD i = true := by
      rcases Nat.le_one_iff_eq_zero_or_eq_one.mp (Nat.le_of_lt_succ hi) with rfl | rfl <;> decide
    unfold erpData
    rw [getLsbD_putBits _ _ _ (by omega), hbarker, if_neg Bool.false_ne_true,
      getLsbD_putBits _ _ _ (by omega), hmask, if_pos rfl]
  have hbit : (b.erpData data).getLsbD 2 = decide (b.num .noShortPreamble > 0) := by
    unfold erpData
    rw [getLsbD_putBits _ _ _ (by decide), if_pos (by decide)]
  refine ⟨?_, ?_, ?_⟩
  · rw [hprot 0 (by decide), decide_eq_true_iff]
    omega
  · rw [hprot 1 (by decide), decide_eq_true_iff]
    omega
  · rw [hbit, decide_eq_true_iff]

/-- A counter that is not at an edge stays on the same side of zero. -/
theorem pos_iff_of_not_turns {k : CapKind} (hc : Counts S b.caps k) (hS : psta ∈ S)
    (hno : ¬b.Turns k psta on) :
    0 < (b.caps.write k psta on).num k ↔ 0 < b.num k := by
  by_cases hflag : b.caps.flag k psta = on
  · rw [write_same hflag]
    rfl
  · have hnonneg := hc.nonneg
    cases on with
    | true =>
      rw [write_num_true (Bool.eq_false_iff.mpr hflag)]
      have hzero : b.num k ≠ 0 := fun h => hno ⟨hflag, h⟩
      have hn : b.num k = b.caps.num k := rfl
      omega
    | false =>
      have hset : b.caps.flag k psta = true := by simpa using hflag
      rw [write_num_false hset]
      have hone : b.num k ≠ 1 := fun h => hno ⟨hflag, h⟩
      have hpos := hc.pos hS hset
      have hn : b.num k = b.caps.num k := rfl
      omega

/-- At an edge the new value of the counter is 0 or 1. -/
theorem num_of_turns {k : CapKind} (ht : b.Turns k psta on) :
    (b.caps.write k psta on).num k = 0 ∨ (b.caps.write k psta on).num k = 1 := by
  obtain ⟨hflag, hn⟩ := ht
  have hn' : b.num k = b.caps.num k := rfl
  cases on with
  | true =>
    rw [write_num_true (Bool.eq_false_iff.mpr hflag)]
    rw [if_pos rfl] at hn
    omega
  | false =>
    rw [write_num_false (by simpa using hflag)]
    rw [if_neg Bool.false_ne_true] at hn
    omega

/-! ## 4. The steps -/

/-- A flag of another kind is no matter of the ERP element. -/
theorem Mid.count (h : b.Mid S) (hnd : S.Nodup) (hS : psta ∈ S) {k : CapKind}
    (hne : k ≠ .nonErp) (hns : k ≠ .noShortPreamble) (on : Bool) :
    (b.count k psta on).1.Mid S := by
  rw [count_fst]
  refine ⟨⟨h.on.start, h.on.olbc, h.on.erp, h.on.ht⟩,
    fun k' => (h.counts k').write hnd hS k on, ?_, h.ie⟩
  intro data hdata
  have hold := h.erp data hdata
  have hnum : ∀ k', k' ≠ k → (b.caps.write k psta on).num k' = b.num k' := fun k' hk' =>
    write_num_ne psta on hk'
  show (_ ↔ 0 < (b.caps.write k psta on).num .nonErp) ∧
    (_ ↔ 0 < (b.caps.write k psta on).num .nonErp) ∧
      (_ ↔ 0 < (b.caps.write k psta on).num .noShortPreamble)
  rw [hnum _ (Ne.symm hne), hnum _ (Ne.symm hns)]
  exact hold

/-- The two counters the ERP element is about.  If the one of stations without short preambles
is at an edge, the other one has to be, or the element is not rewritten. -/
theorem Mid.countLegacy (h : b.Mid S) (hnd : S.Nodup) (hS : psta ∈ S) {on₁ on₂ : Bool}
    (hcond : b.Turns .noShortPreamble psta on₁ → b.Turns .nonErp psta on₂) :
    ((b.count .noShortPreamble psta on₁).1.countNonErp psta on₂).1.Mid S := by
  rw [count_fst]
  have hc₁ : ∀ k, Counts S (b.caps.write .noShortPreamble psta on₁) k := fun k =>
    (h.counts k).write hnd hS .noShortPreamble on₁
  have hc₂ : ∀ k, Counts S ((b.caps.write .noShortPreamble psta on₁).write .nonErp psta on₂) k :=
    fun k => (hc₁ k).write hnd hS .nonErp on₂
  -- the first write leaves the other counter alone
  have hother : ∀ {k : CapKind}, k ≠ .noShortPreamble →
      (b.caps.write .noShortPreamble psta on₁).num k = b.num k := fun hk =>
    write_num_ne psta on₁ hk
  have hflag : (b.caps.write .noShortPreamble psta on₁).flag .nonErp psta =
      b.caps.flag .nonErp psta := write_flag_ne on₁ (Or.inl (by decide))
  have hturns : Bss.Turns { b with caps := b.caps.write .noShortPreamble psta on₁ } .nonErp psta
      on₂ ↔ b.Turns .nonErp psta on₂ := by
    unfold Bss.Turns
    show _ ∧ (b.caps.write .noShortPreamble psta on₁).num .nonErp = _ ↔ _
    rw [hother (by decide)]
    show ((b.caps.write .noShortPreamble psta on₁).flag .nonErp psta ≠ on₂) ∧ _ ↔ _
    rw [hflag]
  obtain ⟨u, heq⟩ := countNonErp_eq psta on₂
    (b := { b with caps := b.caps.write .noShortPreamble psta on₁ }) h.on.start h.on.erp
  rw [heq]
  refine ⟨⟨h.on.start, h.on.olbc, ?_, h.on.ht⟩, hc₂, ?_, h.ie⟩
  · intro hsome
    refine h.on.erp ?_
    revert hsome
    dsimp only
    split
    · rw [Option.isSome_map]
      exact id
    · exact id
  · intro data hdata
    have hnsp : ((b.caps.write .noShortPreamble psta on₁).write .nonErp psta on₂).num
        .noShortPreamble = (b.caps.write .noShortPreamble psta on₁).num .noShortPreamble :=
      write_num_ne psta on₂ (by decide)
    by_cases ht : b.Turns .nonErp psta on₂
    · -- the element is rewritten
      dsimp only at hdata
      rw [if_pos (hturns.mpr ht), Option.map_eq_some_iff] at hdata
      obtain ⟨old, -, rfl⟩ := hdata
      exact erpData_ok
        (b := { b with
          caps := (b.caps.write .noShortPreamble psta on₁).write .nonErp psta on₂ })
        (num_of_turns (hturns.mpr ht)) old
    · -- it is not, and neither counter crosses zero
      dsimp only at hdata
      rw [if_neg fun hs => ht (hturns.mp hs)] at hdata
      have hold := h.erp data hdata
      have h₁ : 0 < (b.caps.write .noShortPreamble psta on₁).num .noShortPreamble ↔
          0 < b.num .noShortPreamble :=
        pos_iff_of_not_turns (h.counts _) hS fun hs => ht (hcond hs)
      have h₂ := pos_iff_of_not_turns (k := .nonErp) (hc₁ .nonErp) hS fun hs => ht (hturns.mp hs)
      show (_ ↔ 0 < ((b.caps.write .noShortPreamble psta on₁).write .nonErp psta on₂).num
          .nonErp) ∧ (_ ↔ 0 < ((b.caps.write .noShortPreamble psta on₁).write .nonErp psta on₂).num
          .nonErp) ∧ (_ ↔ 0 < ((b.caps.write .noShortPreamble psta on₁).write .nonErp psta on₂).num
          .noShortPreamble)
      rw [hnsp, h₁]
      have hne : 0 < ((b.caps.write .noShortPreamble psta on₁).write .nonErp psta on₂).num .nonErp ↔
          0 < b.num .nonErp := h₂.trans (by
        show 0 < (b.caps.write .noShortPreamble psta on₁).num .nonErp ↔ _
        rw [hother (by decide)])
      rw [hne]
      exact hold

theorem Mid.countHt (h : b.Mid S) (hnd : S.Nodup) (hS : psta ∈ S) (s : StaCapab) :
    (b.countHt psta s).Mid S := by
  have hht : (b.count .noHt psta false).1.Mid S := h.count hnd hS (by decide) (by decide) false
  unfold Bss.countHt
  split
  · dsimp only
    split <;> split
    · exact (hht.count hnd hS (by decide) (by decide) true).count hnd hS (by decide) (by decide)
        true
    · exact hht.count hnd hS (by decide) (by decide) true
    · exact hht.count hnd hS (by decide) (by decide) true
    · exact hht
  · exact h.count hnd hS (by decide) (by decide) true

/-- Once the operation mode is worked out and written, the invariant is back. -/
theorem Mid.updateHtOperation (h : b.Mid S) : b.updateHtOperation.Ok S := by
  unfold Bss.updateHtOperation
  dsimp only
  cases hht : b.htOption with
  | false =>
    have hnone : b.htOperationUpdate = (b, 0) := by
      unfold Bss.htOperationUpdate
      rw [hht]
      rfl
    rw [hnone, if_neg (Nat.lt_irrefl 0)]
    exact ⟨h.on, h.counts, h.erp, h.ie, fun hon => absurd hon (by rw [hht]; decide)⟩
  | true =>
    obtain ⟨m, heq, hmode, hsame⟩ := htOperationUpdate_spec hht
    rw [heq]
    by_cases hpos : b.htOperationUpdate.2 > 0
    · rw [if_pos hpos]
      have hon : (!({ b with htOpMode := m } : Bss).bstartBss) = false := by
        show (!b.bstartBss) = false
        rw [h.on.start]
        rfl
      have hcap : ({ b with htOpMode := m } : Bss).updateBeacon .htCapability =
          { b with
            htOpMode := m
            updateBcn := true } := by
        unfold Bss.updateBeacon
        rw [if_neg (by rw [hon]; exact Bool.false_ne_true)]
      obtain ⟨ie, sw, hie, hieok, hiesome⟩ := updateBcnHtinfoIe_spec
        (b := { b with
          htOpMode := m
          updateBcn := true }) h.on.ht
      have hadd : (({ b with
          htOpMode := m
          updateBcn := true } : Bss).updateBeacon .htAddInfo) =
          { b with
            htOpMode := m
            htInfoIe := ie
            swTo20mhz := sw
            updateBcn := true } := by
        unfold Bss.updateBeacon
        rw [if_neg (by rw [hon]; exact Bool.false_ne_true)]
        dsimp only
        rw [hie]
      rw [hcap, hadd]
      exact ⟨⟨h.on.start, h.on.olbc, h.on.erp, fun hsome => h.on.ht (hiesome hsome)⟩, h.counts,
        h.erp, hieok, fun _ => ⟨hmode.nonGf, hmode.opMode⟩⟩
    · rw [if_neg hpos, hsame (Nat.eq_zero_of_not_pos hpos)]
      have hmode' := hsame (Nat.eq_zero_of_not_pos hpos) ▸ hmode
      exact ⟨h.on, h.counts, h.erp, h.ie, fun _ => hmode'⟩

theorem Ok.updateBeacon_any (h : b.Ok S) : (b.updateBeacon .any).Ok S := by
  unfold Bss.updateBeacon
  split
  · exact h
  · exact ⟨⟨h.on.start, h.on.olbc, h.on.erp, h.on.ht⟩, h.counts, h.erp, h.ht.ie,
      fun hon => ⟨(h.ht.mode hon).nonGf, (h.ht.mode hon).opMode⟩⟩

theorem Ok.join (h : b.Ok S) (hnd : S.Nodup) (hS : psta ∈ S)
    (hcond : b.Turns .noShortPreamble psta (!s.shortPreamble) → b.Turns .nonErp psta s.nonErp) :
    (b.capUpdateOnStaJoin psta s).Ok S := by
  have hlegacy := h.mid.countLegacy hnd hS hcond
  have hslot := hlegacy.count hnd hS (k := .noShortSlotTime) (by decide) (by decide) (!s.shortSlot)
  have hdone := (hslot.countHt hnd hS s).updateHtOperation
  unfold Bss.capUpdateOnStaJoin
  dsimp only
  split
  · exact hdone.updateBeacon_any
  · exact hdone

theorem Ok.leave (h : b.Ok S) (hnd : S.Nodup) (hS : psta ∈ S)
    (hcond : b.Turns .noShortPreamble psta false → b.Turns .nonErp psta false) :
    (b.capUpdateOnStaLeave psta).Ok S := by
  have hlegacy := h.mid.countLegacy hnd hS hcond
  have hslot := hlegacy.count hnd hS (k := .noShortSlotTime) (by decide) (by decide) false
  have hgf := hslot.count hnd hS (k := .htNoGf) (by decide) (by decide) false
  have hht := hgf.count hnd hS (k := .noHt) (by decide) (by decide) false
  have h20 := hht.count hnd hS (k := .ht20mhz) (by decide) (by decide) false
  have hdone := h20.updateHtOperation
  unfold Bss.capUpdateOnStaLeave
  dsimp only
  split
  · exact hdone.updateBeacon_any
  · exact hdone

/-! ## 5. Runs -/

/-- The operation mode that the counters imply. -/
def impliedOpMode (b : Bss) : BitVec 16 :=
  if 0 < b.num .noHt then opModeMixed
  else if b.apHtCapInfo &&& htCapSupWidth ≠ 0 ∧ 0 < b.num .ht20mhz then opMode20mhzHtStaAssoced
  else if b.olbcHt then opModeMayBeLegacyStas
  else opModePure

/-- The beacon says what the stations need: the protection and Barker bits of the ERP element,
and the operation mode and the bit of stations without greenfield of the HT element. -/
structure Advertises (b : Bss) : Prop where
  nonErp : ∀ data, b.erpIe = some data →
    (data.getLsbD 0 = true ↔ 0 < b.num .nonErp ∨ b.olbc = true)
  protection : ∀ data, b.erpIe = some data →
    (data.getLsbD 1 = true ↔ 0 < b.num .nonErp ∨ b.olbc = true)
  barker : ∀ data, b.erpIe = some data → (data.getLsbD 2 = true ↔ 0 < b.num .noShortPreamble)
  opMode : ∀ ie, b.htInfoIe = some ie → ie.opMode &&& opModeMask = b.impliedOpMode
  nonGf : ∀ ie, b.htInfoIe = some ie → (ie.opMode.getLsbD 2 = true ↔ 0 < b.num .htNoGf)

/-- A join or a leave of a station. -/
inductive CapEv
  | join (psta : StaId) (s : StaCapab)
  | leave (psta : StaId)
deriving Repr

def CapEv.sta : CapEv → StaId
  | .join psta _ => psta
  | .leave psta => psta

def capStep (b : Bss) : CapEv → Bss
  | .join psta s => b.capUpdateOnStaJoin psta s
  | .leave psta => b.capUpdateOnStaLeave psta

/-- The event brings the first station without short preambles or takes the last one, and does
not bring the first non-ERP station or take the last one at the same time. -/
def BarkerMissed (b : Bss) : CapEv → Prop
  | .join psta s =>
    b.Turns .noShortPreamble psta (!s.shortPreamble) ∧ ¬b.Turns .nonErp psta s.nonErp
  | .leave psta => b.Turns .noShortPreamble psta false ∧ ¬b.Turns .nonErp psta false

/-- The start of a BSS: no station yet, no legacy BSS in sight, elements the driver updates
where the beacon has them, and what they say is what an empty BSS needs. -/
structure Started (b : Bss) : Prop where
  on : b.On
  empty : b.caps = Flags.empty
  advertises : b.Advertises
  ie : ∀ i, b.htInfoIe = some i → i.opMode = b.htOpMode
  mode : b.htOption = true → b.ModeOk b.htOpMode

/-- Joins and leaves of stations of the pool, none of which misses the Barker bit. -/
inductive CapRun (b₀ : Bss) : Bss → Prop
  | start : CapRun b₀ b₀
  | step {b : Bss} (hrun : CapRun b₀ b) (e : CapEv) (hin : e.sta < numSta)
      (hbarker : ¬b.BarkerMissed e) : CapRun b₀ (b.capStep e)

theorem Started.ok (h : b.Started) : b.Ok (List.range numSta) := by
  refine ⟨h.on, fun k => ?_, ?_, ⟨h.ie, h.mode⟩⟩
  · rw [h.empty]
    exact counts_empty _ k
  · intro data hdata
    have h₀ := h.advertises.nonErp data hdata
    have h₁ := h.advertises.protection data hdata
    have hno : (0 < b.num .nonErp ∨ b.olbc = true) ↔ 0 < b.num .nonErp := by
      rw [h.on.olbc]
      exact ⟨fun hor => hor.resolve_right Bool.false_ne_true, Or.inl⟩
    rw [hno] at h₀ h₁
    exact ⟨h₀, h₁, h.advertises.barker data hdata⟩

theorem Ok.step (h : b.Ok S) (hnd : S.Nodup) (e : CapEv) (hS : e.sta ∈ S)
    (hbarker : ¬b.BarkerMissed e) : (b.capStep e).Ok S := by
  cases e with
  | join psta s =>
    exact h.join hnd hS fun ht => Decidable.byContradiction fun hno => hbarker ⟨ht, hno⟩
  | leave psta =>
    exact h.leave hnd hS fun ht => Decidable.byContradiction fun hno => hbarker ⟨ht, hno⟩

theorem Ok.newOpMode (h : b.Ok S) : b.newOpMode = b.impliedOpMode := by
  have hpos : ∀ k, b.num k ≠ 0 ↔ 0 < b.num k := by
    intro k
    have hnonneg : 0 ≤ b.num k := (h.counts k).nonneg
    omega
  unfold Bss.newOpMode impliedOpMode
  simp only [hpos]

theorem Ok.advertises (h : b.Ok S) : b.Advertises := by
  have holbc : (0 < b.num .nonErp ∨ b.olbc = true) ↔ 0 < b.num .nonErp := by
    rw [h.on.olbc]
    exact ⟨fun hor => hor.resolve_right Bool.false_ne_true, Or.inl⟩
  have hmode : ∀ ie, b.htInfoIe = some ie → b.ModeOk ie.opMode := by
    intro ie hie
    rw [h.ht.ie ie hie]
    exact h.ht.mode (h.on.ht (by rw [hie]; rfl)).1
  refine ⟨?_, ?_, ?_, ?_, ?_⟩
  · intro data hdata
    rw [holbc]
    exact (h.erp data hdata).1
  · intro data hdata
    rw [holbc]
    exact (h.erp data hdata).2.1
  · intro data hdata
    exact (h.erp data hdata).2.2
  · intro ie hie
    rw [(hmode ie hie).opMode, h.newOpMode]
  · intro ie hie
    have hnonneg : 0 ≤ b.num .htNoGf := (h.counts .htNoGf).nonneg
    rw [(hmode ie hie).nonGf, decide_eq_true_iff]
    omega

/-- **The beacon says what the stations need**, as long as no legacy BSS overlaps and the
counter of stations without short preambles comes to an edge only together with the counter of
non-ERP stations. -/
theorem beacon_advertises (h₀ : b₀.Started) (hrun : CapRun b₀ b) : b.Advertises := by
  have hok : b.Ok (List.range numSta) := by
    induction hrun with
    | start => exact h₀.ok
    | step _ e hin hbarker ih =>
      exact ih.step List.nodup_range e (List.mem_range.mpr hin) hbarker
  exact hok.advertises

theorem fresh_started : fresh.Started := by
  refine ⟨⟨rfl, rfl, fun _ => rfl, fun _ => ⟨rfl, rfl⟩⟩, rfl, ?_, ?_, ?_⟩
  · refine ⟨?_, ?_, ?_, ?_, ?_⟩ <;> rintro _ ⟨⟩ <;> decide
  · rintro _ ⟨⟩
    rfl
  · intro _
    exact ⟨by decide, by decide⟩

/-- An 802.11b station that uses long preambles only: both counters come to an edge at once,
and the beacon says so. -/
theorem beacon_advertises_11b :
    (fresh.capStep (.join 0 ⟨false, true, false, false, 0⟩)).Advertises :=
  beacon_advertises fresh_started (CapRun.start.step (.join 0 ⟨false, true, false, false, 0⟩)
    (by decide) fun h => h.2 (by decide))

/-- An 802.11g station that uses long preambles only is counted, but the Barker bit stays
clear. -/
theorem barker_missed :
    (fresh.capStep (.join 0 ⟨false, false, true, true, 0x0032⟩)).num .noShortPreamble = 1 ∧
      (fresh.capStep (.join 0 ⟨false, false, true, true, 0x0032⟩)).erpIe = some 0 ∧
      ¬(fresh.capStep (.join 0 ⟨false, false, true, true, 0x0032⟩)).Advertises := by
  refine ⟨by decide, by decide, fun h => ?_⟩
  exact absurd ((h.barker 0 (by decide)).mpr (by decide)) (by decide)

end Bss

end Rtl8723bs
