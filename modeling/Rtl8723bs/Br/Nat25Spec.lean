/-
# What the functions of the database do

A database is well formed when its links are, every entry is in the bucket of its address, and
no two have the same.  On such a database the walk finds the entry of an address if there is
one, and each function is described by what becomes of the entries.
-/
import Rtl8723bs.Br.Nat25Db
import Mathlib.Data.BitVec
import Mathlib.Tactic.Ring

namespace Rtl8723bs

namespace Nat25

open HashList

variable {c : Clock}

/-! ## 1. Time -/

theorem two_pow_bits (c : Clock) : 2 ^ c.bits = 2 * 2 ^ (c.bits - 1) := by
  obtain ⟨n, hn⟩ : ∃ n, c.bits = n + 1 := ⟨c.bits - 1, by have := c.pos; omega⟩
  rw [hn, Nat.add_sub_cancel, Nat.pow_succ, Nat.mul_comm]

theorem toInt_ofNat_nonneg (c : Clock) (k : Nat) :
    0 ≤ (BitVec.ofNat c.bits k).toInt ↔ k % 2 ^ c.bits < 2 ^ (c.bits - 1) := by
  rw [BitVec.toInt_eq_toNat_cond, BitVec.toNat_ofNat]
  have := two_pow_bits c
  have := Nat.mod_lt k (Nat.two_pow_pos c.bits)
  split <;> omega

theorem toInt_neg_ofNat (c : Clock) {k : Nat} (hk : 0 < k) (hle : k ≤ 2 ^ (c.bits - 1)) :
    (-BitVec.ofNat c.bits k).toInt < 0 := by
  rw [BitVec.toInt_eq_toNat_cond, BitVec.toNat_neg, BitVec.toNat_ofNat]
  have h2 := two_pow_bits c
  have hpos := Nat.two_pow_pos (c.bits - 1)
  have hk' : k % 2 ^ c.bits = k := Nat.mod_eq_of_lt (by omega)
  have hneg : (2 ^ c.bits - k) % 2 ^ c.bits = 2 ^ c.bits - k := Nat.mod_eq_of_lt (by omega)
  rw [hk', hneg]
  split <;> omega

/-- So many ticks after an entry was refreshed its ageing time has passed. -/
def aged (c : Clock) (t now : Nat) : Prop := t + c.ageing ≤ now

/-- The counter has come so far round that an entry whose ageing time has passed reads young. -/
def wrapped (c : Clock) (t now : Nat) : Prop :=
  2 ^ (c.bits - 1) ≤ (now - (t + c.ageing)) % 2 ^ c.bits

/-- **Expiry on the counter.**  An entry reads expired when its ageing time has passed, unless
the counter has come round. -/
theorem hasExpired_iff {e : Entry c} {t now : Nat} (he : e.ageingTimer = c.jiffies t)
    (ht : t ≤ now) :
    hasExpired (c.jiffies now) e = true ↔ aged c t now ∧ ¬wrapped c t now := by
  unfold hasExpired timeBeforeEq nat25Timeout aged wrapped Clock.jiffies
  rw [he, decide_eq_true_iff, Clock.jiffies, not_le]
  by_cases hold : t + c.ageing ≤ now
  · have hdiff : BitVec.ofNat c.bits now - BitVec.ofNat c.bits c.ageing - BitVec.ofNat c.bits t =
        BitVec.ofNat c.bits (now - (t + c.ageing)) := by
      obtain ⟨k, rfl⟩ := Nat.exists_eq_add_of_le hold
      rw [Nat.add_sub_cancel_left, BitVec.ofNat_add, BitVec.ofNat_add]
      ring
    rw [hdiff, toInt_ofNat_nonneg]
    simp [hold]
  · have hdiff : BitVec.ofNat c.bits now - BitVec.ofNat c.bits c.ageing - BitVec.ofNat c.bits t =
        -BitVec.ofNat c.bits (t + c.ageing - now) := by
      obtain ⟨k, hk⟩ := Nat.exists_eq_add_of_le (Nat.le_of_not_le hold)
      rw [hk, Nat.add_sub_cancel_left, sub_sub, ← BitVec.ofNat_add, Nat.add_comm c.ageing t, hk,
        BitVec.ofNat_add]
      ring
    have hneg : (-BitVec.ofNat c.bits (t + c.ageing - now)).toInt < 0 :=
      toInt_neg_ofNat c (by omega) (by have := c.fits; unfold Clock.ageing; omega)
    rw [hdiff]
    omega

/-! ## 2. Well-formed databases -/

/-- The table of a database. -/
abbrev Tab (c : Clock) := Table (Fin nat25HashSize) (Entry c)

/-- The links are consistent, every entry is in the bucket of its address, and no two entries
have the same. -/
structure Db (t : Tab c) (rows : Fin nat25HashSize → List Ptr) : Prop where
  links : Rows t rows
  bucket : ∀ b p, p ∈ rows b → networkHash (t.data p).networkAddr = b
  unique : ∀ p q, Linked rows p → Linked rows q →
    (t.data p).networkAddr = (t.data q).networkAddr → p = q

variable {a : Adapter c} {t : Tab c} {rows : Fin nat25HashSize → List Ptr} {p : Ptr}
  {addr : NetworkAddr}

/-- The walk finds the entry of an address. -/
theorem Db.findEntry_iff (h : Db a.tab rows) :
    a.findEntry addr = some p ↔ Linked rows p ∧ (a.tab.data p).networkAddr = addr := by
  rw [Adapter.findEntry, h.links.find_eq]
  constructor
  · intro hfind
    exact ⟨⟨_, List.mem_of_find?_eq_some hfind⟩, by simpa using List.find?_some hfind⟩
  · rintro ⟨⟨b, hp⟩, haddr⟩
    have hb := h.bucket b p hp
    rw [haddr] at hb
    subst hb
    cases hfind : (rows (networkHash addr)).find? fun p => (a.tab.data p).networkAddr == addr with
    | none =>
      rw [List.find?_eq_none] at hfind
      exact absurd (by simpa using haddr) (hfind p hp)
    | some q =>
      have hq : (a.tab.data q).networkAddr = addr := by simpa using List.find?_some hfind
      rw [h.unique q p ⟨_, List.mem_of_find?_eq_some hfind⟩ ⟨_, hp⟩ (hq.trans haddr.symm)]

theorem Db.findEntry_none (h : Db a.tab rows) :
    a.findEntry addr = none ↔ ∀ p, Linked rows p → (a.tab.data p).networkAddr ≠ addr := by
  rw [Option.eq_none_iff_forall_not_mem]
  refine forall_congr' fun p => ?_
  rw [Option.mem_def, h.findEntry_iff]
  tauto

/-- The entry of a linked pointer is found under its address. -/
theorem Db.findEntry_linked (h : Db a.tab rows) (hp : Linked rows p) :
    a.findEntry (a.tab.data p).networkAddr = some p :=
  h.findEntry_iff.mpr ⟨hp, rfl⟩

/-! ## 3. The functions -/

theorem Db.setData (h : Db t rows) {d : Entry c} (hd : d.networkAddr = (t.data p).networkAddr) :
    Db (t.setData p d) rows := by
  have haddr : ∀ q, ((t.setData p d).data q).networkAddr = (t.data q).networkAddr := by
    intro q
    by_cases hq : q = p
    · subst hq
      simpa [Table.setData] using hd
    · simp [Table.setData, hq]
  refine ⟨h.links.setData p d, fun b q hq => ?_, fun q r hq hr heq => ?_⟩
  · rw [haddr]
    exact h.bucket b q hq
  · rw [haddr, haddr] at heq
    exact h.unique q r hq hr heq

/-- A new entry goes in front of its bucket. -/
theorem Db.insert (h : Db a.tab rows) (hnone : a.findEntry addr = none) (hp : p ∉ a.tab.live)
    {e : Entry c} (he : e.networkAddr = addr) :
    Db ((a.tab.alloc p e).link (networkHash addr) p)
      (Function.update rows (networkHash addr) (p :: rows (networkHash addr))) := by
  have hfree : ¬Linked rows p := fun ⟨b, hb⟩ => hp (h.links.live b p hb)
  have hrows := (h.links.alloc hp e).link hfree List.mem_cons_self (networkHash addr)
  have hother : ∀ q, q ≠ p → ((a.tab.alloc p e).link (networkHash addr) p).data q =
      a.tab.data q := by
    intro q hq
    simp [Table.alloc, hq]
  have hself : (((a.tab.alloc p e).link (networkHash addr) p).data p).networkAddr = addr := by
    simpa [Table.alloc] using he
  have hlinked : ∀ q, Linked (Function.update rows (networkHash addr)
      (p :: rows (networkHash addr))) q → q = p ∨ Linked rows q ∧ q ≠ p := by
    rintro q ⟨b, hb⟩
    by_cases hq : q = p
    · exact .inl hq
    · exact .inr ⟨⟨b, by grind -ring -linarith [Function.update_apply]⟩, hq⟩
  have haddr := h.findEntry_none.mp hnone
  refine ⟨hrows, fun b q hq => ?_, fun q r hq hr heq => ?_⟩
  · by_cases hqp : q = p
    · subst hqp
      rw [hself]
      by_cases hb : b = networkHash addr
      · exact hb.symm
      · rw [Function.update_of_ne hb] at hq
        exact absurd ⟨b, hq⟩ hfree
    · rw [hother q hqp]
      exact h.bucket b q (by grind -ring -linarith [Function.update_apply])
  · rcases hlinked q hq with rfl | ⟨hq', hqp⟩ <;> rcases hlinked r hr with rfl | ⟨hr', hrp⟩
    · rfl
    · rw [hself, hother r hrp] at heq
      exact absurd heq.symm (haddr r hr')
    · rw [hself, hother q hqp] at heq
      exact absurd heq (haddr q hq')
    · rw [hother q hqp, hother r hrp] at heq
      exact h.unique q r hq' hr' heq

/-- What a sweep leaves of a database. -/
theorem Db.filter {t' : Tab c} (h : Db t rows) {keep : Ptr → Bool}
    (hrows : Rows t' fun b => (rows b).filter keep)
    (hdata : ∀ q, Linked rows q → (t'.data q).networkAddr = (t.data q).networkAddr) :
    Db t' fun b => (rows b).filter keep := by
  have hlinked : ∀ {q}, Linked (fun b => (rows b).filter keep) q → Linked rows q :=
    fun ⟨b, hb⟩ => ⟨b, List.mem_of_mem_filter hb⟩
  refine ⟨hrows, fun b q hq => ?_, fun q r hq hr heq => ?_⟩
  · rw [hdata q (hlinked ⟨b, hq⟩)]
    exact h.bucket b q (List.mem_of_mem_filter hq)
  · rw [hdata q (hlinked hq), hdata r (hlinked hr)] at heq
    exact h.unique q r (hlinked hq) (hlinked hr) heq

/-- `nat25_db_expire` leaves an entry in the database. -/
def expireKeeps (jiffies : c.Jiffies) (e : Entry c) : Bool :=
  !(hasExpired jiffies e && e.useCount - 1 == 0)

/-- What it leaves of it. -/
def expireData (jiffies : c.Jiffies) (e : Entry c) : Entry c :=
  if hasExpired jiffies e then { e with useCount := e.useCount - 1 } else e

theorem dbFree_unlink (f : Ptr) (a : Adapter c) : (a.dbFree f).tab = (a.tab.unlink f).free f := by
  unfold Adapter.dbFree
  split <;> rfl

theorem dbFree_tab (f : Ptr) (a : Adapter c) :
    (a.dbFree f).tab = a.tab.visit (fun _ => false) id f := by
  have hset : a.tab.setData f (a.tab.data f) = a.tab := by
    simp [Table.setData]
  rw [dbFree_unlink, Table.visit, id, hset]
  rfl

theorem expireVisit_tab (jiffies : c.Jiffies) (f : Ptr) (a : Adapter c) :
    (a.expireVisit jiffies f).tab =
      a.tab.visit (expireKeeps jiffies) (expireData jiffies) f := by
  unfold Adapter.expireVisit Table.visit expireKeeps expireData
  by_cases hexp : hasExpired jiffies (a.tab.data f) = true
  · simp only [hexp, if_true, Bool.true_and, Bool.not_eq_true', beq_eq_false_iff_ne]
    by_cases hzero : (a.tab.data f).useCount - 1 = 0
    · rw [if_pos (beq_iff_eq.mpr hzero), if_neg (not_not.mpr hzero), dbFree_unlink]
    · rw [if_neg (by simpa using hzero), if_pos hzero]
  · simp [hexp, Table.setData]

/-- The entries of the database, bucket by bucket. -/
def entries (rows : Fin nat25HashSize → List Ptr) : List Ptr :=
  (List.finRange nat25HashSize).flatMap rows

theorem mem_entries : p ∈ entries rows ↔ Linked rows p := by
  simp [entries, Linked, List.mem_flatMap]

theorem Db.sweepBuckets (h : Db a.tab rows) {visit : Ptr → Adapter c → Adapter c}
    {keep : Entry c → Bool} {upd : Entry c → Entry c}
    (hvisit : ∀ f (a : Adapter c), (visit f a).tab = a.tab.visit keep upd f) :
    a.sweepBuckets visit = (entries rows).foldl (fun a f => visit f a) a ∧
    Rows (a.sweepBuckets visit).tab (fun b => (rows b).filter fun q => keep (a.tab.data q)) ∧
    ∀ q, Linked rows q → (a.sweepBuckets visit).tab.data q = upd (a.tab.data q) := by
  have hsweep := h.links.sweep hvisit (List.nodup_finRange nat25HashSize)
    fun b => List.mem_finRange b
  unfold Adapter.sweepBuckets entries
  exact ⟨hsweep.1, hsweep.2.1, hsweep.2.2.1⟩

/-- **`nat25_db_expire`** goes over every entry once. -/
theorem Db.expire (h : Db a.tab rows) (jiffies : c.Jiffies) :
    Db (a.dbExpire jiffies).tab
      (fun b => (rows b).filter fun q => expireKeeps jiffies (a.tab.data q)) ∧
    ∀ q, Linked rows q → (a.dbExpire jiffies).tab.data q = expireData jiffies (a.tab.data q) := by
  obtain ⟨-, hrows, hdata⟩ := h.sweepBuckets (expireVisit_tab jiffies)
  unfold Adapter.dbExpire
  refine ⟨h.filter hrows fun q hq => ?_, hdata⟩
  rw [hdata q hq, expireData]
  split <;> rfl

/-- **`nat25_db_cleanup`** leaves nothing. -/
theorem Db.cleanup (h : Db a.tab rows) : Db a.dbCleanup.tab fun _ => [] := by
  obtain ⟨-, hrows, hdata⟩ := h.sweepBuckets dbFree_tab
  unfold Adapter.dbCleanup
  have hempty : (fun b => (rows b).filter fun _ => false) = fun _ => [] := by
    funext b
    simp
  have hdb := h.filter hrows fun q hq => by rw [hdata q hq, id]
  rwa [hempty] at hdb

end Nat25

end Rtl8723bs
