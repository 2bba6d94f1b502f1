/-
# Serial numbers: counters compared across wrap-around

A counter of `M` values that wraps has no order, only a distance: `ahead M a b` is how far `b`
lies ahead of `a` on the ring.  A protocol that needs an order takes half of the ring for it:
`b` comes after `a` when it is ahead by at least one and at most `M / 2`.

* `sub_bit_iff_before` -- the usual implementation, "one bit of the machine difference", is
  exactly that relation;
* `before_of_pos` -- on positions of the unwrapped counter the relation is `<`, as long as the
  positions are less than half a ring apart;
* `advance_of_return` -- a counter that only ever moves ahead and comes back to an old value
  has travelled round the whole ring.
-/
import Mathlib.Tactic.Ring
import Mathlib.Data.List.Basic
import Mathlib.Data.Nat.ModEq

namespace Serial

/-! ## 1. Distance on the ring -/

/-- How far `b` is ahead of `a` on the ring of `M` values. -/
def ahead (M a b : Nat) : Nat := (b + (M - a % M)) % M

/-- `b` comes after `a`: ahead of it, by no more than half of the ring. -/
def Before (M a b : Nat) : Prop := 0 < ahead M a b ∧ ahead M a b ≤ M / 2

instance (M a b : Nat) : Decidable (Before M a b) := inferInstanceAs (Decidable (_ ∧ _))

theorem ahead_lt {M : Nat} (hM : 0 < M) (a b : Nat) : ahead M a b < M := Nat.mod_lt _ hM

/-- Moving ahead by the distance lands on `b`. -/
theorem add_ahead {M : Nat} (hM : 0 < M) (a b : Nat) : (a + ahead M a b) % M = b % M := by
  have ha : a % M < M := Nat.mod_lt a hM
  have hsum : a + (b + (M - a % M)) = b + M * (a / M + 1) := by
    have hdiv := Nat.div_add_mod a M
    have hexp : M * (a / M + 1) = M * (a / M) + M := by ring
    omega
  unfold ahead
  rw [Nat.add_mod_mod, hsum, Nat.add_mul_mod_self_left]

/-- The distance is the only step below `M` that lands on `b`. -/
theorem ahead_eq_of_add_mod {M a b d : Nat} (hd : d < M) (h : (a + d) % M = b % M) :
    ahead M a b = d := by
  have hM : 0 < M := by omega
  have hcong : a + ahead M a b ≡ a + d [MOD M] := (add_ahead hM a b).trans h.symm
  have hstep : ahead M a b ≡ d [MOD M] := Nat.ModEq.add_left_cancel' a hcong
  exact Nat.ModEq.eq_of_lt_of_lt hstep (ahead_lt hM a b) hd

theorem ahead_self {M : Nat} (hM : 0 < M) (a : Nat) : ahead M a a = 0 :=
  ahead_eq_of_add_mod hM rfl

/-- Only the value itself is at distance zero. -/
theorem mod_eq_of_ahead_eq_zero {M a b : Nat} (hM : 0 < M) (h : ahead M a b = 0) :
    a % M = b % M := by
  have hadd := add_ahead hM a b
  rwa [h, Nat.add_zero] at hadd

/-- Positions `p ≤ q` less than a ring apart are `q - p` apart on the ring. -/
theorem ahead_of_pos {M p q : Nat} (hle : p ≤ q) (hlt : q < p + M) :
    ahead M (p % M) (q % M) = q - p := by
  apply ahead_eq_of_add_mod (by omega)
  rw [Nat.mod_add_mod, Nat.mod_mod]
  congr 1
  omega

/-- **The unwrapped counter.**  For positions less than half a ring apart, serial order of the
residues is the order of the positions. -/
theorem before_of_pos {M p q : Nat} (hpq : p < q + M / 2) (hqp : q ≤ p + M / 2) :
    Before M (p % M) (q % M) ↔ p < q := by
  by_cases hle : p ≤ q
  · have hd : M = 0 ∨ ahead M (p % M) (q % M) = q - p := by
      by_cases hM : M = 0
      · exact Or.inl hM
      · exact Or.inr (ahead_of_pos hle (by omega))
    rcases hd with hd | hd
    · omega
    · unfold Before
      rw [hd]
      omega
  · have hback : (p + (M - (p - q))) % M = q % M := by
      have : p + (M - (p - q)) = q + M := by omega
      rw [this, Nat.add_mod_right]
    have hd : ahead M (p % M) (q % M) = M - (p - q) := by
      apply ahead_eq_of_add_mod (by omega)
      rw [Nat.mod_add_mod, Nat.mod_mod, hback]
    unfold Before
    rw [hd]
    omega

/-! ## 2. The machine comparison -/

/-- A bit test on a machine word, read on its value. -/
theorem and_twoPow_ne_zero_iff {w k : Nat} (hk : k < w) (x : BitVec w) :
    x &&& BitVec.twoPow w k ≠ 0#w ↔ x.toNat / 2 ^ k % 2 = 1 := by
  rw [BitVec.and_twoPow, BitVec.getLsbD, Nat.testBit_eq_decide_div_mod_eq]
  by_cases h : x.toNat / 2 ^ k % 2 = 1
  · have hpow : 2 ^ k % 2 ^ w ≠ 0 := by
      rw [Nat.mod_eq_of_lt (Nat.pow_lt_pow_right (by omega) hk)]
      exact (Nat.two_pow_pos k).ne'
    have hne : BitVec.twoPow w k ≠ 0#w := by
      intro hzero
      apply hpow
      rw [← BitVec.toNat_twoPow, hzero, BitVec.toNat_ofNat, Nat.zero_mod]
    simp [h, hne]
  · simp [h]

/-- The bit below the top of a residue says whether it is in the upper half. -/
theorem div_mod_two_eq_one_iff {k n : Nat} :
    n / 2 ^ k % 2 = 1 ↔ 2 ^ k ≤ n % 2 ^ (k + 1) := by
  have hpos : 0 < 2 ^ k := Nat.two_pow_pos k
  have hdigit : n % 2 ^ (k + 1) / 2 ^ k = n / 2 ^ k % 2 := by
    rw [Nat.pow_succ, Nat.mod_mul_right_div_self]
  have hlt : n % 2 ^ (k + 1) < 2 ^ k * 2 := by
    rw [← Nat.pow_succ]
    exact Nat.mod_lt _ (Nat.two_pow_pos _)
  rw [← hdigit]
  constructor
  · intro h
    by_contra hsmall
    rw [Nat.div_eq_of_lt (by omega)] at h
    omega
  · intro h
    rw [Nat.div_eq_iff hpos]
    omega

/-- **The machine test.**  "The bit `k` of `a - b` is set" says that `a` comes before `b` in
the serial order of `2 ^ (k + 1)` values, whatever the width of the subtraction. -/
theorem sub_bit_iff_before {w k a b : Nat} (hk : k < w) :
    (BitVec.ofNat w a - BitVec.ofNat w b) &&& BitVec.twoPow w k ≠ 0#w
      ↔ Before (2 ^ (k + 1)) a b := by
  rw [and_twoPow_ne_zero_iff hk, div_mod_two_eq_one_iff, BitVec.toNat_sub, BitVec.toNat_ofNat,
    BitVec.toNat_ofNat]
  have hM : 0 < 2 ^ (k + 1) := Nat.two_pow_pos _
  have hdvd : 2 ^ (k + 1) ∣ 2 ^ w := Nat.pow_dvd_pow 2 (by omega)
  have hhalf : 2 ^ (k + 1) / 2 = 2 ^ k := by
    rw [Nat.pow_succ, Nat.mul_div_cancel _ (by omega)]
  have hlt := ahead_lt hM a b
  -- the machine difference and the distance add up to nothing on the ring
  have hsum : ((2 ^ w - b % 2 ^ w + a % 2 ^ w) % 2 ^ w + ahead (2 ^ (k + 1)) a b)
      % 2 ^ (k + 1) = 0 := by
    have hb : b % 2 ^ w < 2 ^ w := Nat.mod_lt _ (Nat.two_pow_pos w)
    have hdiff : b + (2 ^ w - b % 2 ^ w + a % 2 ^ w) ≡ a [MOD 2 ^ (k + 1)] := by
      have hbig : b + (2 ^ w - b % 2 ^ w + a % 2 ^ w) = a % 2 ^ w + 2 ^ w * (b / 2 ^ w + 1) := by
        have hdiv := Nat.div_add_mod b (2 ^ w)
        have hexp : 2 ^ w * (b / 2 ^ w + 1) = 2 ^ w * (b / 2 ^ w) + 2 ^ w := by ring
        omega
      have hmod : b + (2 ^ w - b % 2 ^ w + a % 2 ^ w) ≡ a [MOD 2 ^ w] := by
        rw [hbig]
        simp [Nat.ModEq]
      exact hmod.of_dvd hdvd
    have hzero : b + ((2 ^ w - b % 2 ^ w + a % 2 ^ w) + ahead (2 ^ (k + 1)) a b)
        ≡ b + 0 [MOD 2 ^ (k + 1)] := by
      have h1 := hdiff.add_right (ahead (2 ^ (k + 1)) a b)
      have h2 : a + ahead (2 ^ (k + 1)) a b ≡ b [MOD 2 ^ (k + 1)] := add_ahead hM a b
      rw [← Nat.add_assoc, Nat.add_zero]
      exact h1.trans h2
    have hcancel := Nat.ModEq.add_left_cancel' b hzero
    have hinner : (2 ^ w - b % 2 ^ w + a % 2 ^ w) % 2 ^ w
        ≡ 2 ^ w - b % 2 ^ w + a % 2 ^ w [MOD 2 ^ (k + 1)] :=
      (Nat.mod_modEq _ (2 ^ w)).of_dvd hdvd
    have := (hinner.add_right (ahead (2 ^ (k + 1)) a b)).trans hcancel
    simpa [Nat.ModEq] using this
  generalize (2 ^ w - b % 2 ^ w + a % 2 ^ w) % 2 ^ w = x at hsum ⊢
  have hx := Nat.mod_lt x hM
  rw [Nat.add_mod, Nat.mod_eq_of_lt hlt] at hsum
  have hdbl : 2 ^ (k + 1) = 2 ^ k * 2 := Nat.pow_succ 2 k
  unfold Before
  rw [hhalf]
  by_cases hwrap : x % 2 ^ (k + 1) + ahead (2 ^ (k + 1)) a b < 2 ^ (k + 1)
  · rw [Nat.mod_eq_of_lt hwrap] at hsum
    omega
  · rw [Nat.mod_eq_sub_mod (by omega), Nat.mod_eq_of_lt (by omega)] at hsum
    omega

/-! ## 3. How far a counter has travelled -/

/-- The total distance travelled by a counter that takes the listed values in turn. -/
def advance (M : Nat) : List Nat → Nat
  | [] => 0
  | [_] => 0
  | a :: b :: t => ahead M a b + advance M (b :: t)

/-- The distance travelled accounts for the last value, up to full turns. -/
theorem add_advance {M : Nat} (hM : 0 < M) : ∀ (a : Nat) (l : List Nat),
    (a + advance M (a :: l)) % M = (a :: l).getLast (by simp) % M
  | a, [] => by simp [advance]
  | a, b :: t => by
    have ih := add_advance hM b t
    rw [advance, ← Nat.add_assoc, Nat.add_mod, add_ahead hM a b, ← Nat.add_mod, ih]
    rfl

theorem ahead_le_advance {M : Nat} (a b : Nat) (l : List Nat) :
    ahead M a b ≤ advance M (a :: b :: l) := Nat.le_add_right _ _

/-- **Coming back means going round.**  A counter that moved at all and is back at the value it
started from has travelled at least the whole ring. -/
theorem advance_of_return {M a b : Nat} (hM : 0 < M) {l : List Nat} (hmove : 0 < ahead M a b)
    (hback : (a :: b :: l).getLast (by simp) % M = a % M) :
    M ≤ advance M (a :: b :: l) := by
  have htotal := add_advance hM a (b :: l)
  rw [hback] at htotal
  have hzero : advance M (a :: b :: l) ≡ 0 [MOD M] :=
    Nat.ModEq.add_left_cancel' a (by simpa [Nat.ModEq] using htotal)
  have hdvd : M ∣ advance M (a :: b :: l) := (Nat.modEq_zero_iff_dvd).mp hzero
  have hpos : 0 < advance M (a :: b :: l) := lt_of_lt_of_le hmove (ahead_le_advance a b l)
  exact Nat.le_of_dvd hpos hdvd

/-- A run of values each after the one before it comes back only after a whole turn. -/
theorem advance_of_chain_return {M a b : Nat} (hM : 0 < M) : ∀ {l : List Nat},
    (a :: (l ++ [b])).IsChain (Before M) → b % M = a % M → M ≤ advance M (a :: (l ++ [b]))
  | [], hchain, hback => by
    have hab := (List.isChain_cons_cons.mp hchain).1
    exact advance_of_return hM hab.1 (by simpa using hback)
  | c :: l, hchain, hback => by
    have hac := (List.isChain_cons_cons.mp hchain).1
    exact advance_of_return hM hac.1 (by simpa using hback)

end Serial
