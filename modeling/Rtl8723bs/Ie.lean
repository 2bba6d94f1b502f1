/-
# Information elements

`rtw_get_ie` walks over a string of elements, each a byte for its kind, a byte for its length
and its data, until it meets one of the kind asked for or has walked `limit` bytes.  It looks at
an element before it looks at the limit, so the first one is looked at in any case.
-/
import Rtl8723bs.Wifi

namespace Rtl8723bs

/-- The loop of `rtw_get_ie`: `p` is where it looks and `i` how far it has walked; there are at
most as many rounds as `limit` says, for each walks two bytes or more. -/
def getIeLoop (m : Mem) (index : UInt8) (limit : Int) : Nat → Nat → Nat → Option (Nat × Nat)
  | 0, _, _ => none
  | n + 1, p, i =>
    if m p = index then some (p, (m (p + 1)).toNat)
    else
      let tmp := (m (p + 1)).toNat
      if (i + tmp + 2 : Nat) ≥ limit then none
      else getIeLoop m index limit n (p + tmp + 2) (i + tmp + 2)

/-- `rtw_get_ie`: the place of the element and the length it gives. -/
def rtwGetIe (m : Mem) (pbuf : Nat) (index : UInt8) (limit : Int) : Option (Nat × Nat) :=
  if limit < 1 then none else getIeLoop m index limit limit.toNat pbuf 0

/-- The bound on the rounds is never what ends the walk. -/
theorem getIeLoop_rounds (m : Mem) (index : UInt8) (limit : Int) :
    ∀ (n n' p i : Nat), limit ≤ i + 2 * n → limit ≤ i + 2 * n' → (i : Int) < limit →
      getIeLoop m index limit n p i = getIeLoop m index limit n' p i := by
  intro n
  induction n with
  | zero => intro n' p i hn hn' hi; omega
  | succ n ih =>
    intro n' p i hn hn' hi
    cases n' with
    | zero => omega
    | succ n' =>
      unfold getIeLoop
      split
      · rfl
      · dsimp only
        split
        · rfl
        · rename_i hlt
          exact ih n' _ _ (by omega) (by omega) (by omega)

/-- What is found is an element of the kind asked for. -/
theorem getIeLoop_kind {m : Mem} {index : UInt8} {limit : Int} :
    ∀ {n p i : Nat} {r : Nat × Nat}, getIeLoop m index limit n p i = some r →
      m r.1 = index ∧ r.2 = (m (r.1 + 1)).toNat := by
  intro n
  induction n with
  | zero => intro p i r h; exact absurd h (by simp [getIeLoop])
  | succ n ih =>
    intro p i r h
    unfold getIeLoop at h
    split at h
    · rename_i heq
      cases h
      exact ⟨heq, rfl⟩
    · dsimp only at h
      split at h
      · exact absurd h (by simp)
      · exact ih h

end Rtl8723bs
