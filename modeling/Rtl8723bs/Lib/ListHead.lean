/-
# Circular lists with links both ways

Every node has a link to the next node and one to the node before.  A list is a circle through a
head, which is a node like the others but holds nothing.  `Circle s h l` says that the links of `s`
lead from the head `h` through the nodes of `l` and back, and that no node occurs twice.

Inserting at the tail, deleting and initialising a node that is not linked keep a circle.  A search
that follows the links from the head finds what the list has, and a sweep that may delete the node
it visits, having read the next link before, is a fold over the list as it was at the beginning.
-/
import Mathlib.Data.List.Nodup
import Mathlib.Logic.Function.Basic

namespace ListHead

/-! ## 1. Nodes and links -/

/-- The links of all nodes. -/
structure Links (ι : Type) where
  next : ι → ι
  prev : ι → ι

section Operations

variable {ι : Type} [DecidableEq ι]

/-- A node that is linked with itself. -/
def Links.init (s : Links ι) (x : ι) : Links ι where
  next := Function.update s.next x x
  prev := Function.update s.prev x x

/-- `x` is put in front of `h`, which is the tail of the list with the head `h`. -/
def Links.insertTail (s : Links ι) (x h : ι) : Links ι where
  next := Function.update (Function.update s.next x h) (s.prev h) x
  prev := Function.update (Function.update s.prev h x) x (s.prev h)

/-- `x` is taken out, and initialised. -/
def Links.delete (s : Links ι) (x : ι) : Links ι :=
  Links.init
    { next := Function.update s.next (s.prev x) (s.next x)
      prev := Function.update s.prev (s.next x) (s.prev x) } x

/-- The search from `cur` on; `none` is out of rounds. -/
def Links.find (s : Links ι) (h : ι) (hit : ι → Bool) : Nat → ι → Option (Option ι)
  | 0, _ => none
  | n + 1, cur =>
    if cur = h then some none
    else if hit cur then some (some cur)
    else s.find h hit n (s.next cur)

/-- The sweep from `cur` on: the next link is read before the node is visited. -/
def sweep {σ : Type} (links : σ → Links ι) (h : ι) (visit : ι → σ → σ) : Nat → ι → σ → Option σ
  | 0, _, _ => none
  | n + 1, cur, x =>
    if cur = h then some x
    else sweep links h visit n ((links x).next cur) (visit cur x)

end Operations

/-! ## 2. Circles -/

/-- The links lead from `a` through the nodes of the list to `b`. -/
def Path {ι : Type} (s : Links ι) : ι → List ι → ι → Prop
  | a, [], b => s.next a = b ∧ s.prev b = a
  | a, x :: l, b => s.next a = x ∧ s.prev x = a ∧ Path s x l b

/-- The list with the head `h`. -/
structure Circle {ι : Type} (s : Links ι) (h : ι) (l : List ι) : Prop where
  path : Path s h l h
  head : h ∉ l
  nodup : l.Nodup

section Paths

variable {ι : Type} {s s' : Links ι} {a b x : ι} {l l₁ l₂ : List ι}

theorem Path.congr (h : Path s a l b) (hnext : ∀ y ∈ a :: l, s'.next y = s.next y)
    (hprev : ∀ y, y ∈ l ∨ y = b → s'.prev y = s.prev y) : Path s' a l b := by
  induction l generalizing a with
  | nil =>
    obtain ⟨hnext', hprev'⟩ := h
    exact ⟨(hnext a List.mem_cons_self).trans hnext', (hprev b (.inr rfl)).trans hprev'⟩
  | cons y l ih =>
    obtain ⟨hnext', hprev', hrest⟩ := h
    refine ⟨(hnext a List.mem_cons_self).trans hnext',
      (hprev y (.inl List.mem_cons_self)).trans hprev', ih hrest ?_ ?_⟩
    · exact fun z hz => hnext z (List.mem_cons_of_mem a hz)
    · exact fun z hz => hprev z (hz.imp_left (List.mem_cons_of_mem y))

theorem path_append : Path s a (l₁ ++ x :: l₂) b ↔ Path s a l₁ x ∧ Path s x l₂ b := by
  induction l₁ generalizing a with
  | nil => exact and_assoc.symm
  | cons y l₁ ih => simp only [List.cons_append, Path, ih, and_assoc]

/-- The node a path leads to first. -/
theorem Path.next_eq (h : Path s a l b) : s.next a = l.headD b := by
  cases l with
  | nil => exact h.1
  | cons y l => exact h.1

/-- The node a path comes from last. -/
theorem Path.prev_mem (h : Path s a l b) : s.prev b ∈ a :: l := by
  induction l generalizing a with
  | nil =>
    rw [h.2]
    exact List.mem_cons_self
  | cons y l ih => exact List.mem_cons_of_mem a (ih h.2.2)

theorem Path.next_mem (h : Path s a l b) : s.next a ∈ l ∨ s.next a = b := by
  cases l with
  | nil => exact .inr h.1
  | cons y l =>
    rw [h.1]
    exact .inl List.mem_cons_self

theorem Circle.nodup_cons (hc : Circle s a l) : (a :: l).Nodup :=
  List.nodup_cons.mpr ⟨hc.head, hc.nodup⟩

variable [DecidableEq ι]

/-- **A node is put at the end of a path.** -/
theorem Path.insertTail (h : Path s a l b) (hnodup : (a :: l).Nodup) (hb : b ∉ l) (hx : x ∉ a :: l)
    (hxb : x ≠ b) : Path (s.insertTail x b) a (l ++ [x]) b := by
  induction l generalizing a with
  | nil =>
    obtain ⟨-, hprev⟩ := h
    have hxa : a ≠ x := fun heq => hx (heq ▸ List.mem_cons_self)
    simp [Path, Links.insertTail, hprev, Function.update_of_ne hxa.symm,
      Function.update_of_ne hxb.symm]
  | cons y l ih =>
    obtain ⟨hnext, hprev, hrest⟩ := h
    have hlast : s.prev b ≠ a := fun heq =>
      (List.nodup_cons.mp hnodup).1 (heq ▸ hrest.prev_mem)
    have hxa : a ≠ x := fun heq => hx (heq ▸ List.mem_cons_self)
    have hxy : y ≠ x := fun heq => hx (heq ▸ List.mem_cons_of_mem a List.mem_cons_self)
    have hby : y ≠ b := fun heq => hb (heq ▸ List.mem_cons_self)
    refine ⟨?_, ?_, ih hrest (List.nodup_cons.mp hnodup).2 (fun hmem => hb (List.mem_cons_of_mem y hmem))
      fun hmem => hx (List.mem_cons_of_mem a hmem)⟩
    · simp [Links.insertTail, Function.update_of_ne hlast.symm, Function.update_of_ne hxa, hnext]
    · simp [Links.insertTail, Function.update_of_ne hxy, Function.update_of_ne hby, hprev]

/-- **A node is taken out of a path.** -/
theorem Path.delete (h : Path s a (l₁ ++ x :: l₂) b) (hnodup : (a :: (l₁ ++ x :: l₂)).Nodup)
    (hb : b ∉ l₁ ++ x :: l₂) : Path (s.delete x) a (l₁ ++ l₂) b := by
  have hxb : b ≠ x := fun heq => hb (heq ▸ List.mem_append_right l₁ List.mem_cons_self)
  induction l₁ generalizing a with
  | nil =>
    obtain ⟨hnext, hprev, hrest⟩ := h
    simp only [List.nil_append, List.nodup_cons, List.mem_cons, not_or] at hnodup hb
    obtain ⟨⟨hax, hal⟩, hxl, hl⟩ := hnodup
    cases l₂ with
    | nil =>
      obtain ⟨hnext', -⟩ := hrest
      simp [Path, Links.delete, Links.init, hprev, hnext', Function.update_of_ne hax,
        Function.update_of_ne hxb]
    | cons y l₂ =>
      obtain ⟨hnext', -, hrest⟩ := hrest
      simp only [List.mem_cons, not_or, List.nodup_cons] at hal hxl hl hb
      refine ⟨?_, ?_, hrest.congr (fun z hz => ?_) fun z hz => ?_⟩
      · simp [Links.delete, Links.init, hprev, hnext', Function.update_of_ne hax]
      · simp [Links.delete, Links.init, hprev, hnext', Function.update_of_ne (Ne.symm hxl.1)]
      · have hza : z ≠ a := by
          rintro rfl
          exact (List.mem_cons.mp hz).elim hal.1 hal.2
        have hzx : z ≠ x := by
          rintro rfl
          exact (List.mem_cons.mp hz).elim hxl.1 hxl.2
        simp [Links.delete, Links.init, hprev, Function.update_of_ne hza, Function.update_of_ne hzx]
      · have hzy : z ≠ y := by
          rintro rfl
          exact hz.elim hl.1 fun heq => hb.2.1 heq.symm
        have hzx : z ≠ x := by
          rintro rfl
          exact hz.elim hxl.2 fun heq => hb.1 heq.symm
        simp [Links.delete, Links.init, hnext', Function.update_of_ne hzy,
          Function.update_of_ne hzx]
  | cons c l₁ ih =>
    obtain ⟨hnext, hprev, hrest⟩ := h
    obtain ⟨hleft, hright⟩ := path_append.mp hrest
    rw [List.cons_append, List.nodup_cons] at hnodup
    have hsplit := hnodup.2
    rw [← List.cons_append, List.nodup_append] at hsplit
    obtain ⟨-, -, hapart⟩ := hsplit
    have hxmem : x ∈ x :: l₂ := List.mem_cons_self
    have hax : a ≠ x := by
      rintro rfl
      exact hnodup.1 (List.mem_cons_of_mem c (List.mem_append_right l₁ hxmem))
    have hcx : c ≠ x := hapart c List.mem_cons_self x hxmem
    have hlast : s.prev x ≠ a := by
      intro heq
      have hmem := hleft.prev_mem
      rw [heq] at hmem
      exact hnodup.1 (List.mem_append_left (x :: l₂) hmem)
    have hfirst : s.next x ≠ c := by
      intro heq
      rcases hright.next_mem with hmem | hmem
      · exact hapart c List.mem_cons_self c (List.mem_cons_of_mem x (heq ▸ hmem)) rfl
      · exact hb (List.mem_append_left _ (hmem ▸ heq ▸ List.mem_cons_self))
    refine ⟨?_, ?_, ih hrest hnodup.2 fun hmem => hb (List.mem_cons_of_mem c hmem)⟩
    · simp [Links.delete, Links.init, Function.update_of_ne hax, Function.update_of_ne hlast.symm,
        hnext]
    · simp [Links.delete, Links.init, Function.update_of_ne hcx, Function.update_of_ne hfirst.symm,
        hprev]

end Paths

/-! ## 3. What keeps a circle -/

section Circles

variable {ι : Type} [DecidableEq ι] {s : Links ι} {h x : ι} {l l₁ l₂ : List ι}

/-- A head that is initialised has nothing on its list. -/
theorem circle_init (s : Links ι) (h : ι) : Circle (s.init h) h [] where
  path := by simp [Path, Links.init]
  head := List.not_mem_nil
  nodup := List.nodup_nil

/-- A node that is not on the list may be initialised. -/
theorem Circle.init (hc : Circle s h l) (hx : x ≠ h) (hl : x ∉ l) : Circle (s.init x) h l where
  path := by
    refine hc.path.congr (fun y hy => Function.update_of_ne ?_ ..)
      fun y hy => Function.update_of_ne ?_ ..
    · rintro rfl
      exact (List.mem_cons.mp hy).elim hx hl
    · rintro rfl
      exact hy.elim hl hx
  head := hc.head
  nodup := hc.nodup

/-- **Inserting at the tail.** -/
theorem Circle.insertTail (hc : Circle s h l) (hx : x ≠ h) (hl : x ∉ l) :
    Circle (s.insertTail x h) h (l ++ [x]) where
  path := hc.path.insertTail hc.nodup_cons hc.head
    (fun hmem => (List.mem_cons.mp hmem).elim hx hl) hx
  head hmem := by
    rcases List.mem_append.mp hmem with hmem | hmem
    · exact hc.head hmem
    · exact hx (List.mem_singleton.mp hmem).symm
  nodup := List.nodup_append.mpr ⟨hc.nodup, List.nodup_singleton x, fun y hy z hz => by
    rintro rfl
    exact hl (List.mem_singleton.mp hz ▸ hy)⟩

/-- **Deleting.** -/
theorem Circle.delete (hc : Circle s h (l₁ ++ x :: l₂)) : Circle (s.delete x) h (l₁ ++ l₂) where
  path := hc.path.delete hc.nodup_cons hc.head
  head hmem := hc.head ((List.sublist_cons_self x l₂).append_left l₁ |>.mem hmem)
  nodup := hc.nodup.sublist ((List.sublist_cons_self x l₂).append_left l₁)

/-! ## 4. Searches and sweeps -/

/-- **A search finds the first node of the list that is looked for.** -/
theorem Path.find_eq {a : ι} (hp : Path s a l h) (hh : h ∉ l) (hit : ι → Bool) {n : Nat}
    (hn : l.length < n) : s.find h hit n (s.next a) = some (l.find? hit) := by
  induction l generalizing a n with
  | nil =>
    cases n with
    | zero => omega
    | succ n => rw [hp.1, Links.find, if_pos rfl, List.find?_nil]
  | cons y l ih =>
    cases n with
    | zero => omega
    | succ n =>
      obtain ⟨hnext, -, hrest⟩ := hp
      rw [List.mem_cons, not_or] at hh
      rw [hnext, Links.find, if_neg (Ne.symm hh.1)]
      by_cases hy : hit y = true
      · rw [if_pos hy, List.find?_cons_of_pos hy]
      · rw [if_neg hy, List.find?_cons_of_neg hy]
        exact ih hrest hh.2 (Nat.lt_of_succ_lt_succ hn)

/-- What the visits of a sweep keep: the node that is visited stays on the list or is deleted. -/
def KeepsCircle {σ : Type} (links : σ → Links ι) (h : ι) (visit : ι → σ → σ) : Prop :=
  ∀ x l₁ y l₂, Circle (links x) h (l₁ ++ y :: l₂) →
    Circle (links (visit y x)) h (l₁ ++ l₂) ∨ Circle (links (visit y x)) h (l₁ ++ y :: l₂)

/-- **A sweep is a fold** over the rest of the list as it is at the beginning. -/
theorem sweep_eq {σ : Type} {links : σ → Links ι} {visit : ι → σ → σ}
    (hvisit : KeepsCircle links h visit) {x : σ} (hc : Circle (links x) h (l₁ ++ l₂)) {n : Nat}
    (hn : l₂.length < n) :
    sweep links h visit n (l₂.headD h) x = some (l₂.foldl (fun x y => visit y x) x) := by
  induction l₂ generalizing l₁ x n with
  | nil =>
    cases n with
    | zero => omega
    | succ n => exact if_pos rfl
  | cons y l₂ ih =>
    cases n with
    | zero => omega
    | succ n =>
      have hy : y ≠ h := by
        rintro rfl
        exact hc.head (List.mem_append_right l₁ List.mem_cons_self)
      have hnext : (links x).next y = l₂.headD h := (path_append.mp hc.path).2.next_eq
      rw [List.headD_cons, sweep, if_neg hy, hnext, List.foldl_cons]
      have hlt : l₂.length < n := Nat.lt_of_succ_lt_succ hn
      rcases hvisit x l₁ y l₂ hc with hgone | hkept
      · exact ih hgone hlt
      · rw [List.append_cons] at hkept
        exact ih hkept hlt

/-- The sweep over the whole list. -/
theorem Circle.sweep_eq {σ : Type} {links : σ → Links ι} {visit : ι → σ → σ} {x : σ}
    (hc : Circle (links x) h l) (hvisit : KeepsCircle links h visit) {n : Nat} (hn : l.length < n) :
    sweep links h visit n ((links x).next h) x = some (l.foldl (fun x y => visit y x) x) := by
  rw [hc.path.next_eq]
  exact ListHead.sweep_eq hvisit (show Circle (links x) h ([] ++ l) from hc) hn

end Circles

end ListHead
