/-
# Hash chains with back links

The entries of a chained hash table lie in memory.  A slot is a place that holds a pointer to an
entry: the head of a bucket, or the link out of an entry.  Each entry knows the slot that leads
to it, so that it can be taken out without a walk.

`Rows t rows` says that the links of the table are consistent and that bucket `b` is the list
`rows b`.  Linking puts an entry in front of a row, unlinking takes it out of its row, a walk
over a bucket is a search of its row, and a sweep that may unlink what it visits is a fold over
the row as it was at the beginning.
-/
import Mathlib.Data.List.Nodup
import Mathlib.Data.List.Perm.Subperm
import Mathlib.Logic.Function.Basic

namespace HashList

/-- The address of an entry. -/
abbrev Ptr := Nat

/-- A place that holds a pointer to an entry. -/
inductive Slot (ι : Type) where
  | head (b : ι)
  | next (p : Ptr)
deriving DecidableEq

/-- The memory: what the slots hold, the slot each entry believes to lead to it, what the
entries hold, and the entries that are allocated. -/
structure Table (ι α : Type) where
  cell : Slot ι → Option Ptr
  pprev : Ptr → Option (Slot ι)
  data : Ptr → α
  live : List Ptr

variable {ι α : Type}

namespace Table

/-! ## 1. The operations -/

def setPprev (t : Table ι α) (p : Ptr) (s : Option (Slot ι)) : Table ι α :=
  { t with pprev := Function.update t.pprev p s }

def setData (t : Table ι α) (p : Ptr) (d : α) : Table ι α :=
  { t with data := Function.update t.data p d }

/-- An entry is allocated and filled. -/
def alloc (t : Table ι α) (p : Ptr) (d : α) : Table ι α :=
  { t with data := Function.update t.data p d, live := p :: t.live }

def free (t : Table ι α) (p : Ptr) : Table ι α := { t with live := t.live.erase p }

/-- Whoever follows the entry `next` points to it from `s`. -/
def backLink (t : Table ι α) (next : Option Ptr) (s : Slot ι) : Table ι α :=
  match next with
  | some q => t.setPprev q (some s)
  | none => t

section Ops

variable [DecidableEq ι]

def store (t : Table ι α) (s : Slot ι) (v : Option Ptr) : Table ι α :=
  { t with cell := Function.update t.cell s v }

/-- The entry goes in front of its bucket. -/
def link (t : Table ι α) (b : ι) (p : Ptr) : Table ι α :=
  let next := t.cell (.head b)
  let t := t.store (.next p) next
  let t := t.backLink next (.next p)
  let t := t.store (.head b) (some p)
  t.setPprev p (some (.head b))

/-- The entry leaves its bucket; one whose back link is not set is in none. -/
def unlink (t : Table ι α) (p : Ptr) : Table ι α :=
  match t.pprev p with
  | none => t
  | some s =>
    let next := t.cell (.next p)
    let t := t.store s next
    let t := t.backLink next s
    (t.store (.next p) none).setPprev p none

end Ops

/-- The walk over a chain. -/
def find (t : Table ι α) (hit : α → Bool) : Nat → Option Ptr → Option Ptr
  | _, none => none
  | 0, some _ => none
  | n + 1, some p => if hit (t.data p) then some p else t.find hit n (t.cell (.next p))

/-- The walk over a bucket. -/
def findIn (t : Table ι α) (b : ι) (hit : α → Bool) : Option Ptr :=
  t.find hit t.live.length (t.cell (.head b))

end Table

/-- The walk that does something at each entry, and may unlink it: the pointer to the next is
read before. -/
def sweep {σ : Type} (tab : σ → Table ι α) (visit : Ptr → σ → σ) : Nat → Option Ptr → σ → σ
  | _, none, s => s
  | 0, some _, s => s
  | n + 1, some p, s =>
    let g := (tab s).cell (.next p)
    sweep tab visit n g (visit p s)

open Table

/-! ## 2. Chains -/

/-- From the slot `s` on the links lead over the entries `ps` and back. -/
def Chain (t : Table ι α) : Slot ι → List Ptr → Prop
  | s, [] => t.cell s = none
  | s, p :: ps => t.cell s = some p ∧ t.pprev p = some s ∧ Chain t (.next p) ps

variable {t t' : Table ι α} {s : Slot ι} {ps l₁ l₂ : List Ptr} {p q : Ptr} {b : ι}

theorem Chain.cell_eq (h : Chain t s ps) : t.cell s = ps.head? := by
  cases ps with
  | nil => exact h
  | cons p ps => exact h.1

/-- A chain does not depend on other links. -/
theorem Chain.congr (h : Chain t s ps) (hs : t'.cell s = t.cell s)
    (hps : ∀ p ∈ ps, t'.cell (.next p) = t.cell (.next p) ∧ t'.pprev p = t.pprev p) :
    Chain t' s ps := by
  induction ps generalizing s with
  | nil => exact hs.trans h
  | cons p ps ih =>
    obtain ⟨hcell, hpprev, hrest⟩ := h
    obtain ⟨hnext, hback⟩ := hps p List.mem_cons_self
    exact ⟨hs.trans hcell, hback.trans hpprev,
      ih hrest hnext fun q hq => hps q (List.mem_cons_of_mem p hq)⟩

/-- The slot that leads to an entry is where the chain starts, or an entry before it. -/
theorem Chain.pprev_eq (h : Chain t s (l₁ ++ p :: l₂)) :
    t.pprev p = some s ∧ l₁ = [] ∨ ∃ r ∈ l₁, t.pprev p = some (.next r) := by
  induction l₁ generalizing s with
  | nil => exact .inl ⟨h.2.1, rfl⟩
  | cons r l₁ ih =>
    rcases ih h.2.2 with ⟨hp, -⟩ | ⟨q, hq, hp⟩
    · exact .inr ⟨r, List.mem_cons_self, hp⟩
    · exact .inr ⟨q, List.mem_cons_of_mem r hq, hp⟩

/-- Behind an entry comes the rest. -/
theorem Chain.next_eq (h : Chain t s (l₁ ++ p :: l₂)) : t.cell (.next p) = l₂.head? := by
  induction l₁ generalizing s with
  | nil => exact h.2.2.cell_eq
  | cons r l₁ ih => exact ih h.2.2

theorem Chain.find_eq (h : Chain t s ps) (hit : α → Bool) {n : Nat} (hn : ps.length ≤ n) :
    t.find hit n (t.cell s) = ps.find? fun p => hit (t.data p) := by
  induction ps generalizing s n with
  | nil =>
    rw [show t.cell s = none from h]
    cases n <;> rfl
  | cons p ps ih =>
    obtain ⟨m, rfl⟩ : ∃ m, n = m + 1 := ⟨n - 1, by simp at hn; omega⟩
    rw [h.1, Table.find, ih h.2.2 (by simpa using hn), List.find?_cons]
    cases hit (t.data p) <;> rfl

/-! ## 3. What the operations do to the links -/

theorem setPprev_pprev (t : Table ι α) (p : Ptr) (s : Option (Slot ι)) (q : Ptr) :
    (t.setPprev p s).pprev q = if q = p then s else t.pprev q :=
  Function.update_apply t.pprev p s q

@[simp] theorem setPprev_cell (t : Table ι α) (p : Ptr) (s : Option (Slot ι)) :
    (t.setPprev p s).cell = t.cell := rfl

@[simp] theorem backLink_cell (t : Table ι α) (nx : Option Ptr) (s : Slot ι) :
    (t.backLink nx s).cell = t.cell := by
  cases nx <;> rfl

@[simp] theorem backLink_data (t : Table ι α) (nx : Option Ptr) (s : Slot ι) :
    (t.backLink nx s).data = t.data := by
  cases nx <;> rfl

@[simp] theorem backLink_live (t : Table ι α) (nx : Option Ptr) (s : Slot ι) :
    (t.backLink nx s).live = t.live := by
  cases nx <;> rfl

theorem backLink_pprev (t : Table ι α) (nx : Option Ptr) (s : Slot ι) (q : Ptr) :
    (t.backLink nx s).pprev q = if nx = some q then some s else t.pprev q := by
  cases nx with
  | none => rfl
  | some r =>
    rw [backLink, setPprev_pprev]
    simp [eq_comm]

section Effects

variable [DecidableEq ι]

theorem store_cell (t : Table ι α) (s : Slot ι) (v : Option Ptr) (s' : Slot ι) :
    (t.store s v).cell s' = if s' = s then v else t.cell s' :=
  Function.update_apply t.cell s v s'

@[simp] theorem store_pprev (t : Table ι α) (s : Slot ι) (v : Option Ptr) :
    (t.store s v).pprev = t.pprev := rfl

theorem link_cell (t : Table ι α) (b : ι) (p : Ptr) (s : Slot ι) :
    (t.link b p).cell s = if s = .head b then some p
      else if s = .next p then t.cell (.head b) else t.cell s := by
  simp [Table.link, store_cell]

theorem link_pprev (t : Table ι α) (b : ι) (p q : Ptr) :
    (t.link b p).pprev q = if q = p then some (.head b)
      else if t.cell (.head b) = some q then some (.next p) else t.pprev q := by
  simp [Table.link, setPprev_pprev, backLink_pprev]

@[simp] theorem link_data (t : Table ι α) (b : ι) (p : Ptr) : (t.link b p).data = t.data := by
  simp [link, store, setPprev]

@[simp] theorem link_live (t : Table ι α) (b : ι) (p : Ptr) : (t.link b p).live = t.live := by
  simp [link, store, setPprev]

theorem unlink_cell (hp : t.pprev p = some s) (s' : Slot ι) :
    (t.unlink p).cell s' = if s' = .next p then none
      else if s' = s then t.cell (.next p) else t.cell s' := by
  simp [Table.unlink, hp, store_cell]

theorem unlink_pprev (hp : t.pprev p = some s) (q : Ptr) :
    (t.unlink p).pprev q = if q = p then none
      else if t.cell (.next p) = some q then some s else t.pprev q := by
  simp [Table.unlink, hp, setPprev_pprev, backLink_pprev]

@[simp] theorem unlink_data (t : Table ι α) (p : Ptr) : (t.unlink p).data = t.data := by
  unfold unlink
  split <;> simp [store, setPprev]

@[simp] theorem unlink_live (t : Table ι α) (p : Ptr) : (t.unlink p).live = t.live := by
  unfold unlink
  split <;> simp [store, setPprev]

end Effects

/-! ## 4. Tables -/

/-- The links are consistent and bucket `b` is `rows b`. -/
structure Rows (t : Table ι α) (rows : ι → List Ptr) : Prop where
  chain : ∀ b, Chain t (.head b) (rows b)
  nodup : ∀ b, (rows b).Nodup
  disjoint : ∀ b c p, p ∈ rows b → p ∈ rows c → b = c
  live : ∀ b p, p ∈ rows b → p ∈ t.live
  once : t.live.Nodup

variable {rows : ι → List Ptr}

/-- An entry is in the table. -/
def Linked (rows : ι → List Ptr) (p : Ptr) : Prop := ∃ b, p ∈ rows b

theorem Rows.find_eq (h : Rows t rows) (b : ι) (hit : α → Bool) :
    t.findIn b hit = (rows b).find? fun p => hit (t.data p) := by
  refine (h.chain b).find_eq hit ?_
  exact (List.subperm_of_subset (h.nodup b) fun p hp => h.live b p hp).length_le

theorem Rows.setData (h : Rows t rows) (p : Ptr) (d : α) :
    Rows (t.setData p d) rows :=
  { chain := fun b => (h.chain b).congr rfl fun _ _ => ⟨rfl, rfl⟩
    nodup := h.nodup, disjoint := h.disjoint, live := h.live, once := h.once }

theorem Rows.alloc (h : Rows t rows) (hp : p ∉ t.live) (d : α) :
    Rows (t.alloc p d) rows :=
  { chain := fun b => (h.chain b).congr rfl fun _ _ => ⟨rfl, rfl⟩
    nodup := h.nodup, disjoint := h.disjoint
    live := fun b q hq => List.mem_cons_of_mem p (h.live b q hq)
    once := List.nodup_cons.mpr ⟨hp, h.once⟩ }

theorem Rows.free (h : Rows t rows) (hp : ¬Linked rows p) : Rows (t.free p) rows :=
  { chain := fun b => (h.chain b).congr rfl fun _ _ => ⟨rfl, rfl⟩
    nodup := h.nodup, disjoint := h.disjoint
    live := fun b q hq => by
      refine (List.mem_erase_of_ne ?_).mpr (h.live b q hq)
      rintro rfl
      exact hp ⟨b, hq⟩
    once := h.once.erase p }

section LinkUnlink

variable [DecidableEq ι]

theorem Chain.link (h : Chain t (.head b) ps) (hnodup : ps.Nodup) (hp : p ∉ ps) :
    Chain (t.link b p) (.head b) (p :: ps) := by
  have hnext : (t.link b p).cell (.next p) = ps.head? := by
    simp [link_cell, h.cell_eq]
  refine ⟨by simp [link_cell], by simp [link_pprev], ?_⟩
  cases ps with
  | nil => exact hnext
  | cons q ps =>
    obtain ⟨hcell, -, hrest⟩ := h
    have hq : q ≠ p := fun heq => hp (heq ▸ List.mem_cons_self)
    refine ⟨hnext, by simp [link_pprev, hq, hcell], hrest.congr ?_ fun r hr => ?_⟩
    · simp [link_cell, hq]
    · have hrq : r ≠ q := fun heq => (List.nodup_cons.mp hnodup).1 (heq ▸ hr)
      have hrp : r ≠ p := fun heq => hp (heq ▸ List.mem_cons_of_mem q hr)
      simp [link_cell, link_pprev, hcell, hrp, hrq.symm]

/-- **Linking** puts a live entry that is in no bucket in front of its row. -/
theorem Rows.link (h : Rows t rows) (hp : ¬Linked rows p) (hlive : p ∈ t.live) (b : ι) :
    Rows (t.link b p) (Function.update rows b (p :: rows b)) := by
  have hne : ∀ c, p ∉ rows c := fun c hc => hp ⟨c, hc⟩
  constructor
  case chain =>
    intro c
    by_cases hc : c = b
    · subst hc
      rw [Function.update_self]
      exact (h.chain c).link (h.nodup c) (hne c)
    · rw [Function.update_of_ne hc]
      refine (h.chain c).congr (by simp [link_cell, hc]) fun q hq => ?_
      have hqp : q ≠ p := fun heq => hne c (heq ▸ hq)
      have hfirst : t.cell (.head b) ≠ some q := by
        rw [(h.chain b).cell_eq]
        intro hhead
        exact hc (h.disjoint c b q hq (List.mem_of_mem_head? hhead))
      simp [link_cell, link_pprev, hqp, hfirst]
  case nodup => grind -ring -linarith [h.nodup, Function.update_apply]
  case disjoint => grind -ring -linarith [h.disjoint, Function.update_apply]
  case live => grind -ring -linarith [h.live, Function.update_apply, link_live]
  case once => simpa using h.once

/-- Taking an entry out of a chain.  The slot where the chain starts is not in an entry of it. -/
theorem Chain.unlink (h : Chain t s (l₁ ++ p :: l₂)) (hnodup : (l₁ ++ p :: l₂).Nodup)
    (hs : ∀ r ∈ l₁ ++ p :: l₂, s ≠ .next r) : Chain (t.unlink p) s (l₁ ++ l₂) := by
  induction l₁ generalizing s with
  | nil =>
    obtain ⟨hcell, hback, hrest⟩ := h
    have hsp : s ≠ .next p := hs p List.mem_cons_self
    have hfirst : (t.unlink p).cell s = l₂.head? := by
      rw [unlink_cell hback, if_neg hsp, if_pos rfl, hrest.cell_eq]
    cases l₂ with
    | nil => exact hfirst
    | cons q l₂ =>
      obtain ⟨hnext, -, hrest⟩ := hrest
      have hmem : p ≠ q ∧ p ∉ l₂ ∧ q ∉ l₂ := by grind -ring -linarith
      refine ⟨hfirst, by simp [unlink_pprev hback, hnext, hmem.1.symm], hrest.congr ?_ ?_⟩
      · grind -ring -linarith [unlink_cell hback]
      · grind -ring -linarith [unlink_cell hback, unlink_pprev hback]
  | cons r l₁ ih =>
    obtain ⟨hcell, hback, hrest⟩ := h
    obtain ⟨s', hs', hne⟩ : ∃ s', t.pprev p = some s' ∧ s ≠ s' := by
      rcases hrest.pprev_eq with ⟨hp, -⟩ | ⟨r', hr', hp⟩
      · exact ⟨_, hp, hs r List.mem_cons_self⟩
      · exact ⟨_, hp, hs r' (by grind -ring -linarith)⟩
    have hrp : r ≠ p := by grind -ring -linarith
    have hnext : t.cell (.next p) ≠ some r := by
      rw [hrest.next_eq]
      intro hhead
      have := List.mem_of_mem_head? hhead
      grind -ring -linarith
    refine ⟨?_, ?_, ih hrest (List.nodup_cons.mp hnodup).2 (by grind -ring -linarith)⟩
    · rw [unlink_cell hs', if_neg (hs p (by grind -ring -linarith)), if_neg hne]
      exact hcell
    · rw [unlink_pprev hs', if_neg hrp, if_neg hnext]
      exact hback

/-- **Unlinking** takes a linked entry out of its row. -/
theorem Rows.unlink (h : Rows t rows) (hp : p ∈ rows b) :
    Rows (t.unlink p) (Function.update rows b ((rows b).erase p)) := by
  obtain ⟨l₁, l₂, hsplit⟩ := List.append_of_mem hp
  have hchain := h.chain b
  have hnodup := h.nodup b
  have herase : (rows b).erase p = l₁ ++ l₂ := by
    rw [hsplit, List.erase_append_right _ (by grind -ring -linarith), List.erase_cons_head]
  rw [hsplit] at hchain hnodup
  constructor
  case chain =>
    intro c
    by_cases hc : c = b
    · subst hc
      rw [Function.update_self, herase]
      exact hchain.unlink hnodup (by simp)
    · rw [Function.update_of_ne hc]
      have hother : ∀ q ∈ rows c, q ∉ l₁ ++ p :: l₂ := fun q hq hmem =>
        hc (h.disjoint c b q hq (hsplit ▸ hmem))
      obtain ⟨s, hback, hs, hs'⟩ : ∃ s, t.pprev p = some s ∧ s ≠ .head c ∧
          ∀ q ∈ rows c, s ≠ .next q := by
        rcases hchain.pprev_eq with ⟨hback, -⟩ | ⟨r, hr, hback⟩
        · exact ⟨_, hback, by simpa using Ne.symm hc, by simp⟩
        · exact ⟨_, hback, by simp, fun q hq heq => hother q hq (by grind -ring -linarith)⟩
      refine (h.chain c).congr (by simp [unlink_cell hback, hs.symm]) fun q hq => ?_
      have hfirst : t.cell (.next p) ≠ some q := by
        rw [hchain.next_eq]
        intro hhead
        have := List.mem_of_mem_head? hhead
        exact hother q hq (by grind -ring -linarith)
      have hqp : q ≠ p := fun heq => hother q hq (by grind -ring -linarith)
      simp [unlink_cell hback, unlink_pprev hback, hqp, hfirst, (hs' q hq).symm]
  case nodup => grind -ring -linarith [h.nodup, Function.update_apply]
  case disjoint => grind -ring -linarith [h.disjoint, Function.update_apply]
  case live => grind -ring -linarith [h.live, Function.update_apply, unlink_live]
  case once => simpa using h.once

end LinkUnlink

/-! ## 5. Sweeps -/

/-- A visit leaves the entry in its row or takes it out, and touches no other row. -/
def KeepsRows {σ : Type} (tab : σ → Table ι α) (visit : Ptr → σ → σ) : Prop :=
  ∀ s rows b p, Rows (tab s) rows → p ∈ rows b → ∃ rows', Rows (tab (visit p s)) rows' ∧
    (rows' b = rows b ∨ rows' b = (rows b).erase p) ∧ ∀ c, c ≠ b → rows' c = rows c

section Sweep

variable {σ : Type} {tab : σ → Table ι α} {visit : Ptr → σ → σ}

/-- In the middle of a row: what was visited and is still there, and what comes. -/
theorem sweep_rest (hvisit : KeepsRows tab visit) {x : σ} (kept : List Ptr) {rest : List Ptr}
    {n : Nat} (h : Rows (tab x) rows) (hrow : rows b = kept ++ rest) (hn : rest.length ≤ n) :
    sweep tab visit n rest.head? x = rest.foldl (fun x p => visit p x) x ∧
      ∃ rows', Rows (tab (rest.foldl (fun x p => visit p x) x)) rows' ∧
        ∀ c, c ≠ b → rows' c = rows c := by
  induction rest generalizing x rows kept n with
  | nil =>
    cases n <;> exact ⟨rfl, rows, h, fun _ _ => rfl⟩
  | cons p rest ih =>
    obtain ⟨m, rfl⟩ : ∃ m, n = m + 1 := ⟨n - 1, by simp at hn; omega⟩
    have hnext : (tab x).cell (.next p) = rest.head? := (hrow ▸ h.chain b).next_eq
    have hp : p ∈ rows b := by simp [hrow]
    have hnot : p ∉ kept := by
      have := hrow ▸ h.nodup b
      grind -ring -linarith
    obtain ⟨rows', h', hb, hother⟩ := hvisit x rows b p h hp
    obtain ⟨kept', hrow'⟩ : ∃ kept', rows' b = kept' ++ rest := by
      rcases hb with hb | hb
      · exact ⟨kept ++ [p], by rw [hb, hrow, List.append_assoc, List.singleton_append]⟩
      · refine ⟨kept, ?_⟩
        rw [hb, hrow, List.erase_append_right _ hnot, List.erase_cons_head]
    obtain ⟨hsweep, rows'', h'', hother'⟩ := ih kept' h' hrow' (by simpa using hn)
    refine ⟨?_, rows'', h'', fun c hc => (hother' c hc).trans (hother c hc)⟩
    rw [List.head?_cons, sweep, hnext]
    exact hsweep

/-- **A sweep of the buckets** visits each entry that was there, once. -/
theorem sweep_buckets (hvisit : KeepsRows tab visit) {x : σ} {bs : List ι} (hbs : bs.Nodup)
    (h : Rows (tab x) rows) :
    bs.foldl (fun x b => sweep tab visit (tab x).live.length ((tab x).cell (.head b)) x) x =
      (bs.flatMap rows).foldl (fun x p => visit p x) x := by
  induction bs generalizing x rows with
  | nil => rfl
  | cons b bs ih =>
    obtain ⟨hb, hbs⟩ := List.nodup_cons.mp hbs
    have hlen : (rows b).length ≤ (tab x).live.length :=
      (List.subperm_of_subset (h.nodup b) fun p hp => h.live b p hp).length_le
    obtain ⟨hsweep, rows', h', hother⟩ := sweep_rest hvisit [] h rfl hlen
    rw [List.foldl_cons, List.flatMap_cons, List.foldl_append, (h.chain b).cell_eq, hsweep,
      ih hbs h']
    congr 1
    refine List.flatMap_congr fun c hc => hother c ?_
    rintro rfl
    exact hb hc

end Sweep

/-- A visit that keeps some entries with new data, and unlinks and frees the others. -/
def Table.visit [DecidableEq ι] (keep : α → Bool) (upd : α → α) (p : Ptr) (t : Table ι α) :
    Table ι α :=
  let t' := t.setData p (upd (t.data p))
  if keep (t.data p) then t' else (t'.unlink p).free p

section Visit

variable [DecidableEq ι] {keep : α → Bool} {upd : α → α}

@[simp] theorem visit_data (t : Table ι α) (p : Ptr) :
    (t.visit keep upd p).data = Function.update t.data p (upd (t.data p)) := by
  unfold Table.visit
  split <;> simp [setData, Table.free]

theorem mem_live_visit (hlive : t.live.Nodup) (q : Ptr) :
    q ∈ (t.visit keep upd p).live ↔ q ∈ t.live ∧ (q ≠ p ∨ keep (t.data q) = true) := by
  unfold Table.visit
  split
  · next hkeep =>
    simp only [setData]
    grind -ring -linarith
  · next hkeep =>
    simp only [Table.free, unlink_live, setData, hlive.mem_erase_iff]
    grind -ring -linarith

/-- One visit: the entry stays in its row or leaves it. -/
theorem Rows.visit (h : Rows t rows) (hp : p ∈ rows b) :
    Rows (t.visit keep upd p)
      (fun c => (rows c).filter fun q => q ≠ p || keep (t.data q)) := by
  have hset := h.setData p (upd (t.data p))
  unfold Table.visit
  split
  · next hkeep =>
    have hrows : (fun c => (rows c).filter fun q => q ≠ p || keep (t.data q)) = rows := by
      funext c
      rw [List.filter_eq_self]
      grind -ring -linarith
    rw [hrows]
    exact hset
  · next hkeep =>
    have hrows : (fun c => (rows c).filter fun q => q ≠ p || keep (t.data q)) =
        Function.update rows b ((rows b).erase p) := by
      funext c
      by_cases hc : c = b
      · subst hc
        rw [Function.update_self, (h.nodup c).erase_eq_filter]
        exact List.filter_congr fun q _ => by grind -ring -linarith
      · rw [Function.update_of_ne hc, List.filter_eq_self]
        intro q hq
        have := h.disjoint c b p
        grind -ring -linarith
    rw [hrows]
    refine (hset.unlink hp).free ?_
    rintro ⟨c, hc⟩
    have := h.disjoint c b p
    have := h.nodup b
    grind -ring -linarith

/-- **The visits of a sweep.**  The entries to keep stay, with their new data, the others are
gone. -/
theorem Rows.visits (h : Rows t rows) {ps : List Ptr} (hnodup : ps.Nodup)
    (hps : ∀ p ∈ ps, Linked rows p) :
    Rows (ps.foldl (fun t p => t.visit keep upd p) t)
      (fun c => (rows c).filter fun q => q ∉ ps || keep (t.data q)) ∧
    (∀ q, (ps.foldl (fun t p => t.visit keep upd p) t).data q =
      if q ∈ ps then upd (t.data q) else t.data q) ∧
    ∀ q, q ∈ (ps.foldl (fun t p => t.visit keep upd p) t).live ↔
      q ∈ t.live ∧ (q ∉ ps ∨ keep (t.data q) = true) := by
  induction ps generalizing t rows with
  | nil => simpa using h
  | cons p ps ih =>
    obtain ⟨hp, hnodup⟩ := List.nodup_cons.mp hnodup
    obtain ⟨b, hb⟩ := hps p List.mem_cons_self
    have hvisit : Rows (t.visit keep upd p) _ := h.visit hb
    have hlinked : ∀ q ∈ ps, Linked
        (fun c => (rows c).filter fun q => q ≠ p || keep (t.data q)) q := by
      intro q hq
      obtain ⟨c, hc⟩ := hps q (List.mem_cons_of_mem p hq)
      exact ⟨c, by grind -ring -linarith⟩
    have hsame : ∀ q ∈ ps, (t.visit keep upd p).data q = t.data q := by
      intro q hq
      rw [visit_data, Function.update_of_ne (by grind -ring -linarith)]
    obtain ⟨hrows, hdata, hlive⟩ := ih hvisit hnodup hlinked
    refine ⟨?_, fun q => ?_, fun q => ?_⟩
    · have hfun : (fun c => (rows c).filter fun q => q ∉ p :: ps || keep (t.data q)) =
          fun c => ((rows c).filter fun q => q ≠ p || keep (t.data q)).filter
            fun q => q ∉ ps || keep ((t.visit keep upd p).data q) := by
        funext c
        rw [List.filter_filter]
        refine List.filter_congr fun q _ => ?_
        by_cases hq : q ∈ ps
        · rw [hsame q hq]
          cases keep (t.data q) <;> simp [hq]
        · simp [hq]
      rw [hfun]
      exact hrows
    · rw [List.foldl_cons, hdata]
      by_cases hqp : q = p
      · subst hqp
        simp [hp]
      · simp [hqp]
    · rw [List.foldl_cons, hlive, mem_live_visit h.once]
      by_cases hq : q ∈ ps
      · rw [hsame q hq]
        simp only [hq, List.mem_cons, or_true, not_true_eq_false, false_or]
        grind -ring -linarith
      · simp [hq]

/-! ## 6. Sweeping the whole table -/

theorem keepsRows_visit {σ : Type} {tab : σ → Table ι α} {visit : Ptr → σ → σ}
    (hvisit : ∀ p x, tab (visit p x) = (tab x).visit keep upd p) : KeepsRows tab visit := by
  intro x rows b p h hp
  refine ⟨_, hvisit p x ▸ h.visit hp, ?_, fun c hc => ?_⟩
  · by_cases hkeep : keep ((tab x).data p) = true
    · left
      rw [List.filter_eq_self]
      grind -ring -linarith
    · right
      rw [(h.nodup b).erase_eq_filter]
      exact List.filter_congr fun q _ => by grind -ring -linarith
  · rw [List.filter_eq_self]
    intro q hq
    have := h.disjoint c b p
    grind -ring -linarith

omit [DecidableEq ι] in
theorem Rows.nodup_flatMap (h : Rows t rows) {bs : List ι} (hbs : bs.Nodup) :
    (bs.flatMap rows).Nodup := by
  rw [List.nodup_flatMap]
  refine ⟨fun b _ => h.nodup b, hbs.imp fun {b c} hbc p hb hc => hbc ?_⟩
  exact h.disjoint b c p hb hc

/-- **A sweep of the whole table**, whatever else it does at a visit: the entries to keep stay,
with their new data, the others are gone. -/
theorem Rows.sweep {σ : Type} {tab : σ → Table ι α} {visit : Ptr → σ → σ}
    (hvisit : ∀ p x, tab (visit p x) = (tab x).visit keep upd p) {x : σ} (h : Rows (tab x) rows)
    {bs : List ι} (hbs : bs.Nodup) (hall : ∀ b, b ∈ bs) :
    let x' := bs.foldl
      (fun x b => HashList.sweep tab visit (tab x).live.length ((tab x).cell (.head b)) x) x
    x' = (bs.flatMap rows).foldl (fun x p => visit p x) x ∧
    Rows (tab x') (fun b => (rows b).filter fun q => keep ((tab x).data q)) ∧
    (∀ q, Linked rows q → (tab x').data q = upd ((tab x).data q)) ∧
    ∀ q, q ∈ (tab x').live ↔ q ∈ (tab x).live ∧
      (¬Linked rows q ∨ keep ((tab x).data q) = true) := by
  have hmem : ∀ q, q ∈ bs.flatMap rows ↔ Linked rows q := by
    intro q
    simp [Linked, List.mem_flatMap, hall]
  have hfold := sweep_buckets (keepsRows_visit hvisit) hbs h
  have htab : ∀ ps : List Ptr, tab (ps.foldl (fun x p => visit p x) x) =
      ps.foldl (fun t p => t.visit keep upd p) (tab x) := fun ps =>
    (List.foldl_hom tab fun x p => (hvisit p x).symm).symm
  have hvisits := @Rows.visits ι α (tab x) rows _ keep upd h _ (h.nodup_flatMap hbs)
    fun p hp => (hmem p).mp hp
  rw [← htab] at hvisits
  obtain ⟨hrows, hdata, hlive⟩ := hvisits
  rw [hfold]
  refine ⟨rfl, ?_, fun q hq => ?_, fun q => ?_⟩
  · have hfun : (fun b => (rows b).filter fun q => keep ((tab x).data q)) =
        fun b => (rows b).filter fun q => q ∉ bs.flatMap rows || keep ((tab x).data q) := by
      funext b
      refine List.filter_congr fun q hq => ?_
      have hin : q ∈ bs.flatMap rows := (hmem q).mpr ⟨b, hq⟩
      simp [hin]
    rw [hfun]
    exact hrows
  · rw [hdata, if_pos ((hmem q).mpr hq)]
  · rw [hlive, hmem]

end Visit

end HashList
