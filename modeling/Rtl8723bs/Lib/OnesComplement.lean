/-
# Sums in one's complement

The checksums of the internet protocols add the 16-bit words of a message and carry what runs over
back in at the low end.  So they count modulo `0xffff`, and zero has two forms: a message is right
when its sum, the checksum itself included, is the form with all bits set.

The words are taken as a little-endian machine reads them; the sum does not depend on it but for the
order of its two bytes.  A last byte alone is a word with a zero behind it.
-/
import Mathlib.Algebra.Group.Nat.Defs

namespace OnesComplement

variable {m m' : Nat → UInt8} {off n k : Nat}

/-! ## 1. Words -/

/-- The word at `off`. -/
def word (m : Nat → UInt8) (off : Nat) : Nat := (m off).toNat + 256 * (m (off + 1)).toNat

/-- The sum of the words of the `n` bytes from `off` on. -/
def wordSum (m : Nat → UInt8) (off : Nat) : Nat → Nat
  | 0 => 0
  | n + 1 => wordSum m off n + (if n % 2 = 0 then 1 else 256) * (m (off + n)).toNat

/-- The sum of the words of a byte string. -/
def bytesSum (l : List UInt8) : Nat := wordSum (fun i => l.getD i 0) 0 l.length

theorem wordSum_congr (h : ∀ i < n, m' (off + i) = m (off + i)) :
    wordSum m' off n = wordSum m off n := by
  induction n with
  | zero => rfl
  | succ n ih =>
    rw [wordSum, wordSum, ih fun i hi => h i (Nat.lt_succ_of_lt hi), h n (Nat.lt_succ_self n)]

/-- The sum of a byte string that stands in memory. -/
theorem bytesSum_eq {l : List UInt8} (h : ∀ i < l.length, l.getD i 0 = m (off + i)) :
    bytesSum l = wordSum m off l.length := by
  suffices hall : ∀ n ≤ l.length, wordSum (fun i => l.getD i 0) 0 n = wordSum m off n from
    hall _ (Nat.le_refl _)
  intro n hn
  induction n with
  | zero => rfl
  | succ n ih =>
    rw [wordSum, wordSum, ih (Nat.le_of_succ_le hn), Nat.zero_add, h n hn]

/-- Whole words in front are summed apart. -/
theorem wordSum_add (heven : k % 2 = 0) (m : Nat → UInt8) (off n : Nat) :
    wordSum m off (k + n) = wordSum m off k + wordSum m (off + k) n := by
  induction n with
  | zero => rfl
  | succ n ih =>
    have hparity : (k + n) % 2 = n % 2 := by omega
    rw [← Nat.add_assoc, wordSum, wordSum, ih, hparity, Nat.add_assoc off, Nat.add_assoc]

/-- **One word is changed**: the sum changes by as much. -/
theorem wordSum_word (heven : k % 2 = 0) (hk : k + 2 ≤ n)
    (h : ∀ i, i ≠ off + k → i ≠ off + k + 1 → m' i = m i) :
    wordSum m' off n + word m (off + k) = wordSum m off n + word m' (off + k) := by
  induction n with
  | zero => omega
  | succ n ih =>
    rcases Nat.lt_or_ge n (k + 2) with hlast | hbehind
    · -- the second byte of the word is the last one
      obtain rfl : n = k + 1 := by omega
      have hodd : (k + 1) % 2 ≠ 0 := by omega
      have hfront : wordSum m' off k = wordSum m off k :=
        wordSum_congr fun i hi => h _ (by omega) (by omega)
      simp only [wordSum, if_pos heven, if_neg hodd, hfront, word, Nat.add_assoc]
      omega
    · have hsame : m' (off + n) = m (off + n) := h _ (by omega) (by omega)
      have hrest := ih hbehind
      rw [wordSum, wordSum, hsame]
      omega

/-! ## 2. The form with all bits set -/

/-- The sum folds to `0xffff`. -/
def AllOnes (n : Nat) : Prop := 0 < n ∧ n % 65535 = 0

instance (n : Nat) : Decidable (AllOnes n) := inferInstanceAs (Decidable (_ ∧ _))

/-- Carries go back in at the low end. -/
theorem carry_mod (n : Nat) : (n % 2 ^ 16 + n / 2 ^ 16) % 65535 = n % 65535 := by
  omega

end OnesComplement
