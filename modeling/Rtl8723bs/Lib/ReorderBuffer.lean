/-
# A reorder buffer on an unwrapped counter

Items arrive out of order, each with a position, and leave in order.  The buffer holds back
what arrived early: `next` is the position it waits for, `pending` the items beyond it, in
order.  An arrival at most `H - 1` ahead of `next` is inserted; one beyond the window of size
`w` drags the window after it, which gives up on the positions left behind; `force` gives up
on everything before the first item held back.

The invariant is `Good w H out b`, for the history `out` of what has left: the positions of
`out ++ b.pending` increase, by at most `H` at a time.  `arrive_good` and `force_good` say that
the two operations keep it, whatever arrives and whenever the buffer is forced.
-/
import Mathlib.Data.List.Chain
import Mathlib.Data.List.Perm.Basic
import Mathlib.Tactic.ByContra

namespace ReorderBuffer

variable {α : Type}

/-- The buffer: the position waited for, and what was received beyond it. -/
structure Buffer (α : Type) where
  next : Nat
  pending : List (Nat × α)

/-! ## 1. The operations -/

/-- Let go of every item that is not beyond the position waited for. -/
def drain : Nat → List (Nat × α) → List (Nat × α) × Buffer α
  | n, [] => ([], ⟨n, []⟩)
  | n, x :: t =>
    if n < x.1 then ([], ⟨n, x :: t⟩)
    else
      let r := drain (if x.1 = n then n + 1 else n) t
      (x :: r.1, r.2)

/-- Insert in order; a position that is taken is refused. -/
def place (x : Nat × α) : List (Nat × α) → Option (List (Nat × α))
  | [] => some [x]
  | y :: t =>
    if y.1 < x.1 then (place x t).map (y :: ·)
    else if y.1 = x.1 then none
    else some (x :: y :: t)

/-- Where the window starts once position `n` was seen. -/
def shift (w n next : Nat) : Nat :=
  if n = next then next + 1 else if next + w ≤ n then n + 1 - w else next

/-- An arrival at position `n`, not before the window: what leaves, and the buffer after. -/
def arrive (w n : Nat) (a : α) (b : Buffer α) : Option (List (Nat × α) × Buffer α) :=
  (place (n, a) b.pending).map (drain (shift w n b.next))

/-- Give up on the positions before the first item held back. -/
def force (b : Buffer α) : List (Nat × α) × Buffer α :=
  match b.pending with
  | [] => ([], b)
  | x :: t => drain x.1 (x :: t)

/-! ## 2. What one operation does -/

/-- Nothing is lost or made up by draining. -/
theorem drain_append : ∀ (n : Nat) (l : List (Nat × α)),
    (drain n l).1 ++ (drain n l).2.pending = l
  | n, [] => rfl
  | n, x :: t => by
    simp only [drain]
    split
    · rfl
    · simp [drain_append (if x.1 = n then n + 1 else n) t]

theorem le_drain_next : ∀ (n : Nat) (l : List (Nat × α)), n ≤ (drain n l).2.next
  | n, [] => Nat.le_refl n
  | n, x :: t => by
    simp only [drain]
    split
    · exact Nat.le_refl n
    · have ih := le_drain_next (if x.1 = n then n + 1 else n) t
      refine Nat.le_trans ?_ ih
      split <;> omega

/-- What leaves is before the position waited for afterwards. -/
theorem drain_taken_lt : ∀ (n : Nat) (l : List (Nat × α)),
    ∀ x ∈ (drain n l).1, x.1 < (drain n l).2.next
  | n, [], x, hx => by simp [drain] at hx
  | n, y :: t, x, hx => by
    simp only [drain] at hx ⊢
    split at hx
    · simp at hx
    · rename_i hny
      rw [if_neg hny]
      rcases List.mem_cons.mp hx with rfl | hx
      · have hle := le_drain_next (if x.1 = n then n + 1 else n) t
        refine Nat.lt_of_lt_of_le ?_ hle
        split <;> omega
      · exact drain_taken_lt _ t x hx

/-- What stays is beyond it. -/
theorem drain_pending_gt : ∀ (n : Nat) (l : List (Nat × α)), l.Pairwise (·.1 < ·.1) →
    ∀ x ∈ (drain n l).2.pending, (drain n l).2.next < x.1
  | n, [], _, x, hx => by simp [drain] at hx
  | n, y :: t, hs, x, hx => by
    obtain ⟨hyt, ht⟩ := List.pairwise_cons.mp hs
    simp only [drain] at hx ⊢
    split at hx
    · rename_i hny
      rw [if_pos hny]
      rcases List.mem_cons.mp hx with rfl | hx
      · exact hny
      · exact Nat.lt_trans hny (hyt x hx)
    · rename_i hny
      rw [if_neg hny]
      exact drain_pending_gt _ t ht x hx

/-- Draining never runs past the items it lets go. -/
theorem drain_next_le {B : Nat} : ∀ (n : Nat) (l : List (Nat × α)), n ≤ B →
    (∀ x ∈ l, x.1 < B) → (drain n l).2.next ≤ B
  | n, [], hn, _ => hn
  | n, x :: t, hn, hl => by
    simp only [drain]
    split
    · exact hn
    · have hx := hl x List.mem_cons_self
      refine drain_next_le _ t ?_ (fun y hy => hl y (List.mem_cons_of_mem x hy))
      split <;> omega

/-- Inserting cuts the list at the new position. -/
theorem place_eq_some {x : Nat × α} : ∀ {l l' : List (Nat × α)}, l.Pairwise (·.1 < ·.1) →
    place x l = some l' →
    ∃ before after, l = before ++ after ∧ l' = before ++ x :: after ∧
      (∀ y ∈ before, y.1 < x.1) ∧ (∀ y ∈ after, x.1 < y.1)
  | [], l', _, h => by
    simp only [place, Option.some.injEq] at h
    exact ⟨[], [], rfl, by simp [← h], by simp, by simp⟩
  | y :: t, l', hs, h => by
    obtain ⟨hyt, ht⟩ := List.pairwise_cons.mp hs
    simp only [place] at h
    split at h
    · rename_i hyx
      obtain ⟨t', ht', rfl⟩ := Option.map_eq_some_iff.mp h
      obtain ⟨before, after, rfl, rfl, hb, ha⟩ := place_eq_some ht ht'
      refine ⟨y :: before, after, rfl, rfl, ?_, ha⟩
      intro z hz
      rcases List.mem_cons.mp hz with rfl | hz
      · exact hyx
      · exact hb z hz
    · split at h
      · cases h
      · rename_i hyx hne
        have hxy : x.1 < y.1 := by omega
        cases h
        refine ⟨[], y :: t, rfl, rfl, by simp, ?_⟩
        intro z hz
        rcases List.mem_cons.mp hz with rfl | hz
        · exact hxy
        · exact Nat.lt_trans hxy (hyt z hz)

theorem place_perm {x : Nat × α} {l l' : List (Nat × α)} (hs : l.Pairwise (·.1 < ·.1))
    (h : place x l = some l') : l'.Perm (l ++ [x]) := by
  obtain ⟨before, after, rfl, rfl, _, _⟩ := place_eq_some hs h
  refine List.perm_middle.trans ?_
  exact (List.perm_append_singleton x (before ++ after)).symm

/-- A refusal means the position is taken. -/
theorem place_eq_none {x : Nat × α} : ∀ {l : List (Nat × α)}, place x l = none →
    ∃ y ∈ l, y.1 = x.1
  | [], h => by cases h
  | y :: t, h => by
    simp only [place] at h
    split at h
    · rw [Option.map_eq_none_iff] at h
      obtain ⟨z, hz, hzx⟩ := place_eq_none h
      exact ⟨z, List.mem_cons_of_mem y hz, hzx⟩
    · split at h
      · rename_i hyx
        exact ⟨y, List.mem_cons_self, hyx⟩
      · cases h

/-! ## 3. The invariant over a history -/

/-- Consecutive positions increase, by at most `H`. -/
def Step (H : Nat) (x y : Nat × α) : Prop := x.1 < y.1 ∧ y.1 ≤ x.1 + H

/-- **The invariant.**  `out` is what has left so far, in order. -/
structure Good (w H : Nat) (out : List (Nat × α)) (b : Buffer α) : Prop where
  chain : (out ++ b.pending).IsChain (Step H)
  below : ∀ x ∈ out, x.1 < b.next
  beyond : ∀ x ∈ b.pending, b.next < x.1
  window : ∀ x ∈ b.pending, x.1 < b.next + w
  tight : b.pending = [] → ∀ x ∈ out.getLast?, b.next = x.1 + 1

theorem sorted_of_chain {H : Nat} {l : List (Nat × α)} (h : l.IsChain (Step H)) :
    l.Pairwise (·.1 < ·.1) := by
  have hlt : l.IsChain (fun x y => x.1 < y.1) := h.imp (fun _ _ hs => hs.1)
  have : IsTrans (Nat × α) (fun x y => x.1 < y.1) := ⟨fun _ _ _ h₁ h₂ => Nat.lt_trans h₁ h₂⟩
  exact List.isChain_iff_pairwise.mp hlt

/-- In an ordered list the last position is the largest. -/
theorem le_getLast {l : List (Nat × α)} (hs : l.Pairwise (·.1 < ·.1)) {x : Nat × α}
    (hx : x ∈ l.getLast?) : ∀ y ∈ l, y.1 ≤ x.1 := by
  obtain ⟨pre, rfl⟩ := List.getLast?_eq_some_iff.mp hx
  intro y hy
  rcases List.mem_append.mp hy with hy | hy
  · exact Nat.le_of_lt ((List.pairwise_append.mp hs).2.2 y hy x (by simp))
  · rw [List.mem_singleton] at hy
    rw [hy]

theorem Good.sorted {w H : Nat} {out : List (Nat × α)} {b : Buffer α} (h : Good w H out b) :
    b.pending.Pairwise (·.1 < ·.1) :=
  sorted_of_chain (List.isChain_append.mp h.chain).2.1

/-- A buffer that has seen nothing may wait for any position. -/
theorem good_start (w H n : Nat) : Good w H [] (⟨n, []⟩ : Buffer α) where
  chain := List.isChain_nil
  below := by simp
  beyond := by simp
  window := by simp
  tight := by simp

/-- The invariant after draining a list that continues the history. -/
theorem drain_good {w H n : Nat} {out l : List (Nat × α)}
    (hchain : (out ++ l).IsChain (Step H)) (hbelow : ∀ x ∈ out, x.1 < n)
    (hwindow : ∀ x ∈ l, x.1 < n + w) (hne : l ≠ []) (htop : ∀ x ∈ l.getLast?, n ≤ x.1 + 1) :
    Good w H (out ++ (drain n l).1) (drain n l).2 := by
  have hsplit := drain_append n l
  have hle := le_drain_next n l
  have hsorted : l.Pairwise (·.1 < ·.1) := sorted_of_chain (List.isChain_append.mp hchain).2.1
  refine ⟨?_, ?_, drain_pending_gt n l hsorted, ?_, ?_⟩
  · rw [List.append_assoc, hsplit]
    exact hchain
  · intro x hx
    rcases List.mem_append.mp hx with hx | hx
    · exact Nat.lt_of_lt_of_le (hbelow x hx) hle
    · exact drain_taken_lt n l x hx
  · intro x hx
    have hxl : x ∈ l := by
      rw [← hsplit]
      exact List.mem_append_right _ hx
    have := hwindow x hxl
    omega
  · intro hempty x hx
    -- everything left, so the last item to leave is the last of the list
    rw [hempty, List.append_nil] at hsplit
    rw [hsplit, List.getLast?_append_of_ne_nil out hne] at hx
    have hxl : x ∈ l := List.mem_of_getLast? hx
    have hlt : x.1 < (drain n l).2.next := drain_taken_lt n l x (by rw [hsplit]; exact hxl)
    have hmax : ∀ y ∈ l, y.1 < x.1 + 1 := fun y hy =>
      Nat.lt_succ_of_le (le_getLast hsorted hx y hy)
    have := drain_next_le n l (htop x hx) hmax
    omega

/-! ## 4. The operations keep it -/

/-- An insertion at most `H - 1` ahead of the position waited for continues the history. -/
theorem place_chain {w H n : Nat} {a : α} {out l' : List (Nat × α)} {b : Buffer α}
    (h : Good w H out b) (hw : w ≤ H) (hlo : b.next ≤ n) (hhi : n < b.next + H)
    (hins : place (n, a) b.pending = some l') : (out ++ l').IsChain (Step H) := by
  obtain ⟨before, after, hsplit, rfl, hb, ha⟩ := place_eq_some h.sorted hins
  have hchain := h.chain
  rw [hsplit, ← List.append_assoc] at hchain
  obtain ⟨hpre, hpost, hjoin⟩ := List.isChain_append.mp hchain
  rw [← List.append_assoc, List.isChain_append, List.isChain_cons]
  refine ⟨hpre, ⟨?_, hpost⟩, ?_⟩
  · intro y hy
    have hyafter : y ∈ after := List.mem_of_mem_head? hy
    have hwin := h.window y (by rw [hsplit]; exact List.mem_append_right _ hyafter)
    have hlt := ha y hyafter
    exact ⟨hlt, by omega⟩
  · intro x hx y hy
    simp only [List.head?_cons, Option.mem_some_iff] at hy
    subst hy
    have hxmem : x ∈ out ++ before := List.mem_of_getLast? hx
    by_cases hbefore : before = []
    · -- the new item comes right after the history
      subst hbefore
      rw [List.append_nil] at hx hxmem hjoin
      have hlt := h.below x hxmem
      cases hafter : after with
      | nil =>
        have htight := h.tight (by rw [hsplit, hafter]; rfl) x hx
        exact ⟨by simp only; omega, by simp only; omega⟩
      | cons z t =>
        have hz := hjoin x hx z (by rw [hafter]; rfl)
        have hnz := ha z (by rw [hafter]; exact List.mem_cons_self)
        have hz2 := hz.2
        simp only at hnz
        exact ⟨by simp only; omega, by simp only; omega⟩
    · rw [List.getLast?_append_of_ne_nil out hbefore] at hx
      have hxb : x ∈ before := List.mem_of_getLast? hx
      have hgt := h.beyond x (by rw [hsplit]; exact List.mem_append_left _ hxb)
      have hlt := hb x hxb
      exact ⟨hlt, by simp only; omega⟩

/-- **An arrival keeps the invariant**, and what it lets go extends the history. -/
theorem arrive_good {w H n : Nat} {a : α} {out taken : List (Nat × α)} {b b' : Buffer α}
    (h : Good w H out b) (hpos : 0 < w) (hw : w ≤ H) (hlo : b.next ≤ n) (hhi : n < b.next + H)
    (harr : arrive w n a b = some (taken, b')) : Good w H (out ++ taken) b' := by
  obtain ⟨l', hins, hdrain⟩ := Option.map_eq_some_iff.mp harr
  have hchain := place_chain h hw hlo hhi hins
  obtain ⟨before, after, hsplit, rfl, hb, ha⟩ := place_eq_some h.sorted hins
  have hnext : b.next ≤ shift w n b.next := by
    unfold shift
    split
    · omega
    · split <;> omega
  have hmem : ∀ x ∈ before ++ (n, a) :: after, x = (n, a) ∨ x ∈ b.pending := by
    intro x hx
    rw [hsplit]
    rcases List.mem_append.mp hx with hx | hx
    · exact Or.inr (List.mem_append_left _ hx)
    · rcases List.mem_cons.mp hx with hx | hx
      · exact Or.inl hx
      · exact Or.inr (List.mem_append_right _ hx)
  have hres := drain_good (w := w) (n := shift w n b.next) hchain
    (fun x hx => Nat.lt_of_lt_of_le (h.below x hx) hnext)
    (by
      intro x hx
      rcases hmem x hx with rfl | hx
      · simp only [shift]
        split
        · omega
        · split <;> omega
      · have := h.window x hx
        omega)
    (by simp)
    (by
      intro x hx
      have hnx : n ≤ x.1 :=
        le_getLast (sorted_of_chain (List.isChain_append.mp hchain).2.1) hx (n, a) (by simp)
      simp only [shift]
      split
      · omega
      · split <;> omega)
  rw [hdrain] at hres
  exact hres

/-- **Forcing keeps the invariant.** -/
theorem force_good {w H : Nat} {out : List (Nat × α)} {b : Buffer α} (h : Good w H out b) :
    Good w H (out ++ (force b).1) (force b).2 := by
  unfold force
  cases hp : b.pending with
  | nil => simpa using h
  | cons x t =>
    have hx : b.next < x.1 := h.beyond x (by rw [hp]; exact List.mem_cons_self)
    have hchain := h.chain
    have hsorted := h.sorted
    rw [hp] at hchain hsorted
    refine drain_good hchain (fun y hy => Nat.lt_trans (h.below y hy) hx) ?_ (by simp) ?_
    · intro y hy
      have := h.window y (by rw [hp]; exact hy)
      omega
    · intro y hy
      exact Nat.le_succ_of_le (le_getLast hsorted hy x List.mem_cons_self)

/-- Arrivals are conserved: what leaves and what is held back is what was held, and the new
item. -/
theorem arrive_perm {w H n : Nat} {a : α} {out taken : List (Nat × α)} {b b' : Buffer α}
    (h : Good w H out b) (harr : arrive w n a b = some (taken, b')) :
    (taken ++ b'.pending).Perm (b.pending ++ [(n, a)]) := by
  obtain ⟨l', hins, hdrain⟩ := Option.map_eq_some_iff.mp harr
  have hsplit := drain_append (shift w n b.next) l'
  rw [hdrain] at hsplit
  rw [hsplit]
  exact place_perm h.sorted hins

theorem force_append (b : Buffer α) : (force b).1 ++ (force b).2.pending = b.pending := by
  unfold force
  cases hp : b.pending with
  | nil => simp [hp]
  | cons x t => exact drain_append x.1 (x :: t)

/-! ## 5. Starting over with what is held back -/

/-- The buffer without its history. -/
theorem Good.forget {w H : Nat} {out : List (Nat × α)} {b : Buffer α} (h : Good w H out b) :
    Good w H [] b where
  chain := (List.isChain_append.mp h.chain).2.1
  below := by simp
  beyond := h.beyond
  window := h.window
  tight := by simp

/-- The same buffer, counted from further back. -/
def Buffer.renumber (b : Buffer α) (k : Nat) : Buffer α :=
  ⟨b.next + k, b.pending.map fun x => (x.1 + k, x.2)⟩

theorem Good.renumber {w H : Nat} {b : Buffer α} (h : Good w H [] b) (k : Nat) :
    Good w H [] (b.renumber k) := by
  have hmem : ∀ y ∈ (b.renumber k).pending, ∃ x ∈ b.pending, y.1 = x.1 + k := by
    intro y hy
    obtain ⟨x, hx, rfl⟩ := List.mem_map.mp hy
    exact ⟨x, hx, rfl⟩
  refine ⟨?_, by simp, ?_, ?_, by simp⟩
  · refine List.isChain_map_of_isChain _ ?_ h.chain
    intro x y hxy
    unfold Step at hxy ⊢
    simp only
    omega
  · intro y hy
    obtain ⟨x, hx, hyx⟩ := hmem y hy
    have hbeyond := h.beyond x hx
    unfold Buffer.renumber
    simp only
    omega
  · intro y hy
    obtain ⟨x, hx, hyx⟩ := hmem y hy
    have hwindow := h.window x hx
    unfold Buffer.renumber
    simp only
    omega

/-- **A first item that continues what is held back** starts a new history: everything held back
is inside the window that it opens, or at most `H` before it. -/
theorem resume_good {w H n : Nat} {a : α} {l' : List (Nat × α)} {b : Buffer α}
    (h : Good w H [] b) (hw : w ≤ H) (hlo : ∀ x ∈ b.pending, n ≤ x.1 + H)
    (hhi : ∀ x ∈ b.pending, x.1 < n + w) (hpos : 0 < w)
    (hins : place (n, a) b.pending = some l') :
    Good w H (drain (n + 1) l').1 (drain (n + 1) l').2 := by
  obtain ⟨before, after, hsplit, rfl, hb, ha⟩ := place_eq_some h.sorted hins
  have hbmem : ∀ x ∈ before, x ∈ b.pending := by
    intro x hx
    rw [hsplit]
    exact List.mem_append_left _ hx
  have hamem : ∀ x ∈ after, x ∈ b.pending := by
    intro x hx
    rw [hsplit]
    exact List.mem_append_right _ hx
  have hold : (before ++ after).IsChain (Step H) := hsplit ▸ h.chain
  obtain ⟨hpre, hpost, -⟩ := List.isChain_append.mp hold
  have hchain : (before ++ (n, a) :: after).IsChain (Step H) := by
    rw [List.isChain_append, List.isChain_cons]
    refine ⟨hpre, ⟨?_, hpost⟩, ?_⟩
    · intro y hy
      have hyafter := List.mem_of_mem_head? hy
      have hwin := hhi y (hamem y hyafter)
      exact ⟨ha y hyafter, by simp only; omega⟩
    · intro x hx y hy
      simp only [List.head?_cons, Option.mem_some_iff] at hy
      subst hy
      have hxbefore := List.mem_of_getLast? hx
      exact ⟨hb x hxbefore, hlo x (hbmem x hxbefore)⟩
  have hsorted := sorted_of_chain hchain
  have hnil : ([] ++ (before ++ (n, a) :: after)).IsChain (Step H) := hchain
  have hres := drain_good (w := w) (n := n + 1) hnil (by simp) ?_ (by simp) ?_
  · exact hres
  · intro x hx
    rcases List.mem_append.mp hx with hx | hx
    · have hwin := hhi x (hbmem x hx)
      omega
    · rcases List.mem_cons.mp hx with rfl | hx
      · simp only
        omega
      · have hwin := hhi x (hamem x hx)
        omega
  · intro x hx
    have hmax := le_getLast hsorted hx (n, a) (by simp)
    exact Nat.succ_le_succ hmax

/-- What leaves and what stays is the list with the new item in it. -/
theorem arrive_place {w n : Nat} {a : α} {taken : List (Nat × α)} {b b' : Buffer α}
    (harr : arrive w n a b = some (taken, b')) :
    place (n, a) b.pending = some (taken ++ b'.pending) := by
  obtain ⟨l', hins, hdrain⟩ := Option.map_eq_some_iff.mp harr
  have hsplit := drain_append (shift w n b.next) l'
  rw [hdrain] at hsplit
  rw [hins, ← hsplit]

end ReorderBuffer
