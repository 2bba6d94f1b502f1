/-
# Facts about all bytes

There are few bytes, so what is said of all of them is checked on each.
-/

namespace UInt8

/-- What holds of every byte below a bound is checked on the values. -/
theorem forall_lt {k : Nat} {P : UInt8 → Prop} (h : ∀ n : Fin k, P (UInt8.ofNat n)) (x : UInt8)
    (hx : x.toNat < k) : P x := by
  have hn := h ⟨x.toNat, hx⟩
  rwa [UInt8.ofNat_toNat] at hn

theorem forall_byte {P : UInt8 → Prop} (h : ∀ n : Fin 256, P (UInt8.ofNat n)) (x : UInt8) : P x :=
  forall_lt h x x.toNat_lt

end UInt8
