/-
# Every run of the database

The history of an address is the MAC address last recorded for it and when.  Every entry is what
the history says, and every address recorded less than the ageing time ago has an entry.  That is
all that lookups need; `nat25_db_expire` takes an entry whose time has passed out only when its
use count comes down to zero, and a lookup that hits counts it up for good.
-/
import Rtl8723bs.Br.Nat25Spec

namespace Rtl8723bs

namespace Nat25

open HashList

variable {c : Clock}

/-! ## 1. Runs -/

/-- The database, the time in ticks, and for each address the MAC address last recorded and when,
since the last `nat25_db_cleanup`. -/
structure World (c : Clock) where
  a : Adapter c
  now : Nat
  hist : NetworkAddr → Option (MacAddr × Nat)

/-- What can happen next: time passes, or one of the functions is called. -/
inductive Act where
  | tick (n : Nat)
  | insert (mem : Option Ptr) (macAddr : MacAddr) (networkAddr : NetworkAddr)
  | lookup (dst : MacAddr) (networkAddr : NetworkAddr)
  | expire
  | cleanup

/-- `jiffies`. -/
def World.jiffies (w : World c) : c.Jiffies := c.jiffies w.now

/-- `__nat25_db_network_insert` has an entry to fill. -/
def World.stores (w : World c) (mem : Option Ptr) (networkAddr : NetworkAddr) : Bool :=
  (w.a.findEntry networkAddr).isSome || mem.isSome

/-- One step; `none` where it cannot be taken: `rtw_malloc` gives no memory that is in use. -/
def World.step (w : World c) : Act → Option (World c)
  | .tick n => some { w with now := w.now + n }
  | .insert mem macAddr networkAddr =>
    if mem.all fun p => p ∉ w.a.tab.live then
      some { w with
        a := w.a.dbNetworkInsert w.jiffies mem macAddr networkAddr
        hist := if w.stores mem networkAddr then
          Function.update w.hist networkAddr (some (macAddr, w.now)) else w.hist }
    else none
  | .lookup dst networkAddr =>
    some { w with a := (w.a.dbNetworkLookupAndReplace w.jiffies dst networkAddr).1 }
  | .expire => some { w with a := w.a.dbExpire w.jiffies }
  | .cleanup => some { w with a := w.a.dbCleanup, hist := fun _ => none }

/-- A run, any number of steps in any order. -/
def World.run (w : World c) (acts : List Act) : Option (World c) := acts.foldlM World.step w

/-- An adapter as `rtw_init_drv_sw` leaves it, with nothing in the database, at any time; the
memory holds anything. -/
def World.start (c : Clock) (now : Nat) (garbage : Ptr → Entry c) : World c :=
  { a :=
      { tab := ⟨fun _ => none, fun _ => none, garbage, []⟩
        scdbMac := zeroAddr, scdbIp := Vector.replicate 4 0, scdbEntry := none }
    now := now
    hist := fun _ => none }

/-! ## 2. The invariant -/

/-- Every entry is what the history of its address says, and an address recorded less than the
ageing time ago has an entry. -/
structure Inv (w : World c) (rows : Fin nat25HashSize → List Ptr) : Prop where
  db : Db w.a.tab rows
  entry : ∀ p, Linked rows p → ∃ t, t ≤ w.now ∧ (w.a.tab.data p).ageingTimer = c.jiffies t ∧
    w.hist (w.a.tab.data p).networkAddr = some ((w.a.tab.data p).macAddr, t)
  young : ∀ addr mac t, w.hist addr = some (mac, t) → ¬aged c t w.now →
    ∃ p, Linked rows p ∧ (w.a.tab.data p).networkAddr = addr

variable {w w' : World c} {rows : Fin nat25HashSize → List Ptr} {p : Ptr} {addr : NetworkAddr}

theorem inv_start (now : Nat) (garbage : Ptr → Entry c) :
    Inv (World.start c now garbage) fun _ => [] where
  db :=
    { links :=
        { chain := fun _ => rfl, nodup := fun _ => List.nodup_nil, disjoint := nofun
          live := nofun, once := List.nodup_nil }
      bucket := nofun
      unique := fun _ _ hp => by simp [Linked] at hp }
  entry := fun p hp => by simp [Linked] at hp
  young := nofun

/-- An entry found is linked, and is what the history of its address says. -/
theorem Inv.found (h : Inv w rows) (hfind : w.a.findEntry addr = some p) :
    Linked rows p ∧ (w.a.tab.data p).networkAddr = addr ∧ ∃ t, t ≤ w.now ∧
      w.hist addr = some ((w.a.tab.data p).macAddr, t) ∧
      (hasExpired w.jiffies (w.a.tab.data p) = true ↔ aged c t w.now ∧ ¬wrapped c t w.now) := by
  obtain ⟨hlinked, haddr⟩ := h.db.findEntry_iff.mp hfind
  obtain ⟨t, ht, hage, hhist⟩ := h.entry p hlinked
  rw [haddr] at hhist
  exact ⟨hlinked, haddr, t, ht, hhist, hasExpired_iff hage ht⟩

/-- New data for an entry that changes neither its address nor what the history says of it. -/
theorem Inv.setCount (h : Inv w rows) (p : Ptr) (n : BitVec 32) :
    Inv { w with a := { w.a with
      tab := w.a.tab.setData p { w.a.tab.data p with useCount := n } } } rows := by
  have hdata : ∀ q, let e := (w.a.tab.setData p { w.a.tab.data p with useCount := n }).data q
      e.networkAddr = (w.a.tab.data q).networkAddr ∧ e.macAddr = (w.a.tab.data q).macAddr ∧
        e.ageingTimer = (w.a.tab.data q).ageingTimer := by
    intro q
    by_cases hq : q = p
    · subst hq
      simp [Table.setData]
    · simp [Table.setData, hq]
  refine ⟨h.db.setData rfl, fun q hq => ?_, fun addr mac t hhist hage => ?_⟩
  · obtain ⟨hna, hmac, htimer⟩ := hdata q
    dsimp only at hna hmac htimer ⊢
    rw [hna, hmac, htimer]
    exact h.entry q hq
  · obtain ⟨q, hq, hna⟩ := h.young addr mac t hhist hage
    exact ⟨q, hq, (hdata q).1.trans hna⟩

theorem Inv.lookup (h : Inv w rows) (dst : MacAddr) (addr : NetworkAddr) :
    Inv { w with a := (w.a.dbNetworkLookupAndReplace w.jiffies dst addr).1 } rows := by
  unfold Adapter.dbNetworkLookupAndReplace
  split
  · dsimp only
    split
    · exact h
    · exact h.setCount _ _
  · exact h

theorem Inv.tick (h : Inv w rows) (n : Nat) : Inv { w with now := w.now + n } rows := by
  refine ⟨h.db, fun p hp => ?_, fun addr mac t hhist hage => ?_⟩
  · obtain ⟨t, ht, hentry⟩ := h.entry p hp
    exact ⟨t, Nat.le_add_right_of_le ht, hentry⟩
  · exact h.young addr mac t hhist fun hage' => hage (Nat.le_add_right_of_le hage')

/-- Recording an address that has an entry. -/
theorem Inv.refresh (h : Inv w rows) (hp : Linked rows p) (mac : MacAddr) :
    Inv { w with
      a := { w.a with
        tab := w.a.tab.setData p
          { w.a.tab.data p with macAddr := mac, ageingTimer := w.jiffies } }
      hist := Function.update w.hist (w.a.tab.data p).networkAddr (some (mac, w.now)) } rows := by
  refine ⟨h.db.setData rfl, fun q hq => ?_, fun addr mac' t hhist hage => ?_⟩
  · by_cases hqp : q = p
    · subst hqp
      exact ⟨w.now, Nat.le_refl _, by simp [Table.setData, World.jiffies]⟩
    · have hne : (w.a.tab.data q).networkAddr ≠ (w.a.tab.data p).networkAddr :=
        fun heq => hqp (h.db.unique q p hq hp heq)
      simpa [Table.setData, hqp, hne] using h.entry q hq
  · by_cases haddr : addr = (w.a.tab.data p).networkAddr
    · exact ⟨p, hp, by simp [Table.setData, haddr]⟩
    · simp only [Function.update_of_ne haddr] at hhist
      obtain ⟨q, hq, hna⟩ := h.young addr mac' t hhist hage
      have hqp : q ≠ p := fun heq => haddr (by rw [← hna, heq])
      exact ⟨q, hq, by simpa [Table.setData, hqp] using hna⟩

/-- Recording an address that has none. -/
theorem Inv.add (h : Inv w rows) (hnone : w.a.findEntry addr = none) (hp : p ∉ w.a.tab.live)
    (mac : MacAddr) :
    Inv { w with
      a := { w.a with tab :=
        (w.a.tab.alloc p ⟨1, mac, w.jiffies, addr⟩).link (networkHash addr) p }
      hist := Function.update w.hist addr (some (mac, w.now)) }
      (Function.update rows (networkHash addr) (p :: rows (networkHash addr))) := by
  have hold : ∀ q, Linked rows q → q ≠ p ∧ (w.a.tab.data q).networkAddr ≠ addr := by
    rintro q ⟨b, hb⟩
    refine ⟨?_, h.db.findEntry_none.mp hnone q ⟨b, hb⟩⟩
    rintro rfl
    exact hp (h.db.links.live b q hb)
  refine ⟨h.db.insert hnone hp rfl, fun q hq => ?_, fun addr' mac' t hhist hage => ?_⟩
  · by_cases hqp : q = p
    · subst hqp
      exact ⟨w.now, Nat.le_refl _, by simp [Table.alloc, World.jiffies]⟩
    · have hlinked : Linked rows q := by
        obtain ⟨b, hb⟩ := hq
        exact ⟨b, by grind -ring -linarith [Function.update_apply]⟩
      simpa [Table.alloc, hqp, (hold q hlinked).2] using h.entry q hlinked
  · by_cases haddr : addr' = addr
    · exact ⟨p, ⟨networkHash addr, by simp⟩, by simp [Table.alloc, haddr]⟩
    · simp only [Function.update_of_ne haddr] at hhist
      obtain ⟨q, ⟨b, hb⟩, hna⟩ := h.young addr' mac' t hhist hage
      have hqp := (hold q ⟨b, hb⟩).1
      exact ⟨q, ⟨b, by grind -ring -linarith [Function.update_apply]⟩, by simpa [Table.alloc, hqp] using hna⟩

theorem Inv.insert (h : Inv w rows) {mem : Option Ptr} (hmem : ∀ p ∈ mem, p ∉ w.a.tab.live)
    (mac : MacAddr) (addr : NetworkAddr) :
    ∃ rows', Inv { w with
      a := w.a.dbNetworkInsert w.jiffies mem mac addr
      hist := if w.stores mem addr then Function.update w.hist addr (some (mac, w.now))
        else w.hist } rows' := by
  unfold Adapter.dbNetworkInsert World.stores
  cases hfind : w.a.findEntry addr with
  | some p =>
    obtain ⟨hp, haddr, -⟩ := h.found hfind
    subst haddr
    exact ⟨rows, by simpa using h.refresh hp mac⟩
  | none =>
    cases mem with
    | none => exact ⟨rows, by simpa using h⟩
    | some p => exact ⟨_, by simpa using h.add hfind (hmem p rfl) mac⟩

/-- Only an entry whose ageing time has passed is taken out. -/
theorem Inv.keeps_young (h : Inv w rows) (hp : Linked rows p)
    (hkeep : expireKeeps w.jiffies (w.a.tab.data p) = false) {mac : MacAddr} {t : Nat}
    (hhist : w.hist (w.a.tab.data p).networkAddr = some (mac, t)) : aged c t w.now := by
  obtain ⟨-, -, t', -, hhist', hexp⟩ := h.found (h.db.findEntry_linked hp)
  obtain ⟨-, rfl⟩ : _ ∧ t' = t := by simpa [hhist'] using hhist
  simp only [expireKeeps, Bool.not_eq_false', Bool.and_eq_true] at hkeep
  exact (hexp.mp hkeep.1).1

theorem Inv.expire (h : Inv w rows) :
    Inv { w with a := w.a.dbExpire w.jiffies }
      (fun b => (rows b).filter fun q => expireKeeps w.jiffies (w.a.tab.data q)) := by
  obtain ⟨hdb, hdata⟩ := h.db.expire w.jiffies
  have hsame : ∀ q, Linked rows q → let e := (w.a.dbExpire w.jiffies).tab.data q
      e.networkAddr = (w.a.tab.data q).networkAddr ∧ e.macAddr = (w.a.tab.data q).macAddr ∧
        e.ageingTimer = (w.a.tab.data q).ageingTimer := by
    intro q hq
    rw [hdata q hq, expireData]
    split <;> exact ⟨rfl, rfl, rfl⟩
  refine ⟨hdb, fun q hleft => ?_, fun addr mac t hhist hage => ?_⟩
  · obtain ⟨b, hb⟩ := hleft
    have hq : Linked rows q := ⟨b, List.mem_of_mem_filter hb⟩
    obtain ⟨hna, hmac, htimer⟩ := hsame q hq
    dsimp only at hna hmac htimer ⊢
    rw [hna, hmac, htimer]
    exact h.entry q hq
  · obtain ⟨q, ⟨b, hb⟩, hna⟩ := h.young addr mac t hhist hage
    refine ⟨q, ⟨b, List.mem_filter.mpr ⟨hb, ?_⟩⟩, (hsame q ⟨b, hb⟩).1.trans hna⟩
    by_contra hkeep
    exact hage (h.keeps_young ⟨b, hb⟩ (by simpa using hkeep) (hna ▸ hhist))

theorem Inv.cleanup (h : Inv w rows) :
    Inv { w with a := w.a.dbCleanup, hist := fun _ => none } fun _ => [] :=
  ⟨h.db.cleanup, fun p hp => by simp [Linked] at hp, nofun⟩

/-- **One step keeps the invariant.** -/
theorem Inv.step (h : Inv w rows) {a : Act} (hstep : w.step a = some w') :
    ∃ rows', Inv w' rows' := by
  cases a with
  | tick n =>
    cases hstep
    exact ⟨rows, h.tick n⟩
  | insert mem mac addr =>
    simp only [World.step, Option.ite_none_right_eq_some, Option.some.injEq] at hstep
    obtain ⟨hmem, rfl⟩ := hstep
    exact h.insert (by simpa [Option.all_eq_true] using hmem) mac addr
  | lookup dst addr =>
    cases hstep
    exact ⟨rows, h.lookup dst addr⟩
  | expire =>
    cases hstep
    exact ⟨_, h.expire⟩
  | cleanup =>
    cases hstep
    exact ⟨_, h.cleanup⟩

theorem Inv.run (h : Inv w rows) {acts : List Act} (hrun : w.run acts = some w') :
    ∃ rows', Inv w' rows' := by
  induction acts generalizing w rows with
  | nil =>
    cases hrun
    exact ⟨rows, h⟩
  | cons a acts ih =>
    obtain ⟨w₁, hstep, hrun⟩ := Option.bind_eq_some_iff.mp hrun
    obtain ⟨rows₁, h₁⟩ := h.step hstep
    exact ih h₁ hrun

/-! ## 3. What is asked of the database -/

/-- What a lookup makes of the destination of a frame, and what it returns. -/
def World.lookup (w : World c) (dst : MacAddr) (addr : NetworkAddr) : MacAddr × Bool :=
  (w.a.dbNetworkLookupAndReplace w.jiffies dst addr).2

/-- The database is in order, and each function does what it is there for. -/
structure Kept (w : World c) : Prop where
  /-- the links are consistent, every entry is in its bucket, no address has two -/
  db : ∃ rows, Db w.a.tab rows
  /-- an address recorded less than the ageing time ago is found, with the last MAC address -/
  young : ∀ addr mac t, w.hist addr = some (mac, t) → ¬aged c t w.now →
    ∀ dst, w.lookup dst addr = (mac, true)
  /-- one recorded longer ago changes no frame -/
  old : ∀ addr mac t, w.hist addr = some (mac, t) → aged c t w.now →
    ∀ dst, (w.lookup dst addr).1 = dst
  /-- `nat25_db_expire` takes out the entries whose ageing time has passed, and no other -/
  expire : ∀ addr, ((w.a.dbExpire w.jiffies).findEntry addr).isSome ↔
    (w.a.findEntry addr).isSome ∧ ∀ mac t, w.hist addr = some (mac, t) → ¬aged c t w.now

/-- The entries whose ageing time has passed were not looked up, as far as their use count says,
and read expired on the counter. -/
def ExpiredUnused (w : World c) : Prop :=
  ∀ addr p mac t, w.a.findEntry addr = some p → w.hist addr = some (mac, t) → aged c t w.now →
    ¬wrapped c t w.now ∧ (w.a.tab.data p).useCount = 1

theorem Inv.lookup_young (h : Inv w rows) {mac : MacAddr} {t : Nat}
    (hhist : w.hist addr = some (mac, t)) (hage : ¬aged c t w.now) (dst : MacAddr) :
    w.lookup dst addr = (mac, true) := by
  obtain ⟨p, hp, hna⟩ := h.young addr mac t hhist hage
  have hfind := h.db.findEntry_iff.mpr ⟨hp, hna⟩
  obtain ⟨-, -, t', -, hhist', hexp⟩ := h.found hfind
  obtain ⟨hmac, rfl⟩ : (w.a.tab.data p).macAddr = mac ∧ t' = t := by
    simpa [hhist'] using hhist
  have hnot : hasExpired w.jiffies (w.a.tab.data p) = false := by
    rw [Bool.eq_false_iff]
    exact fun hyes => hage (hexp.mp hyes).1
  simp [World.lookup, Adapter.dbNetworkLookupAndReplace, hfind, hnot, hmac]

/-- A lookup of an entry that reads expired leaves the frame as it is. -/
theorem Inv.lookup_old (h : Inv w rows) {mac : MacAddr} {t : Nat}
    (hhist : w.hist addr = some (mac, t)) (hage : aged c t w.now)
    (hwrap : ∀ p, w.a.findEntry addr = some p → ¬wrapped c t w.now) (dst : MacAddr) :
    (w.lookup dst addr).1 = dst := by
  unfold World.lookup Adapter.dbNetworkLookupAndReplace
  split
  · next p hfind =>
    obtain ⟨-, -, t', -, hhist', hexp⟩ := h.found hfind
    obtain ⟨-, rfl⟩ : _ ∧ t' = t := by simpa [hhist'] using hhist
    have hyes := hexp.mpr ⟨hage, hwrap p hfind⟩
    simp [hyes]
  · rfl

/-- What `nat25_db_expire` leaves under an address. -/
theorem Inv.expire_iff (h : Inv w rows) (addr : NetworkAddr) :
    ((w.a.dbExpire w.jiffies).findEntry addr).isSome ↔
      ∃ p, w.a.findEntry addr = some p ∧ expireKeeps w.jiffies (w.a.tab.data p) = true := by
  obtain ⟨hdb, hdata⟩ := h.db.expire w.jiffies
  have hna : ∀ q, Linked rows q → ((w.a.dbExpire w.jiffies).tab.data q).networkAddr =
      (w.a.tab.data q).networkAddr := by
    intro q hq
    rw [hdata q hq, expireData]
    split <;> rfl
  rw [Option.isSome_iff_exists]
  refine exists_congr fun p => ?_
  rw [hdb.findEntry_iff, h.db.findEntry_iff]
  constructor
  · rintro ⟨⟨b, hb⟩, haddr⟩
    obtain ⟨hb, hkeep⟩ := List.mem_filter.mp hb
    exact ⟨⟨⟨b, hb⟩, (hna p ⟨b, hb⟩).symm.trans haddr⟩, hkeep⟩
  · rintro ⟨⟨⟨b, hb⟩, haddr⟩, hkeep⟩
    exact ⟨⟨b, List.mem_filter.mpr ⟨hb, hkeep⟩⟩, (hna p ⟨b, hb⟩).trans haddr⟩

/-- An entry is kept unless its ageing time has passed, it reads expired, and was not used. -/
theorem Inv.expireKeeps_iff (h : Inv w rows) (hfind : w.a.findEntry addr = some p) {mac : MacAddr}
    {t : Nat} (hhist : w.hist addr = some (mac, t)) :
    expireKeeps w.jiffies (w.a.tab.data p) = false ↔
      aged c t w.now ∧ ¬wrapped c t w.now ∧ (w.a.tab.data p).useCount = 1 := by
  obtain ⟨-, -, t', -, hhist', hexp⟩ := h.found hfind
  obtain ⟨-, rfl⟩ : _ ∧ t' = t := by simpa [hhist'] using hhist
  have hone : (w.a.tab.data p).useCount - 1 = 0 ↔ (w.a.tab.data p).useCount = 1 := by
    bv_omega
  rw [expireKeeps, Bool.not_eq_false', Bool.and_eq_true, hexp, beq_iff_eq, hone, and_assoc]

/-- **The NAT2.5 database.**  In every state that a run reaches, the database is in order and each
function does what it is there for, exactly when the entries whose ageing time has passed have
use count one and read expired on the counter. -/
theorem kept_iff_expired_unused {now : Nat} {garbage : Ptr → Entry c} {acts : List Act}
    (hrun : (World.start c now garbage).run acts = some w) : Kept w ↔ ExpiredUnused w := by
  obtain ⟨rows, h⟩ := (inv_start now garbage).run hrun
  constructor
  · intro hkept addr p mac t hfind hhist hage
    have hgone : ¬((w.a.dbExpire w.jiffies).findEntry addr).isSome := fun hsome =>
      ((hkept.expire addr).mp hsome).2 mac t hhist hage
    rw [h.expire_iff] at hgone
    have hkeep : expireKeeps w.jiffies (w.a.tab.data p) = false := by
      rw [Bool.eq_false_iff]
      exact fun hkeep => hgone ⟨p, hfind, hkeep⟩
    exact ((h.expireKeeps_iff hfind hhist).mp hkeep).2
  · intro hunused
    refine ⟨⟨rows, h.db⟩, fun addr mac t => h.lookup_young, fun addr mac t hhist hage => ?_,
      fun addr => ?_⟩
    · exact h.lookup_old hhist hage fun p hfind => (hunused addr p mac t hfind hhist hage).1
    · rw [h.expire_iff, Option.isSome_iff_exists]
      constructor
      · rintro ⟨p, hfind, hkeep⟩
        refine ⟨⟨p, hfind⟩, fun mac t hhist hage => ?_⟩
        have hout := (h.expireKeeps_iff hfind hhist).mpr
          ⟨hage, hunused addr p mac t hfind hhist hage⟩
        simp [hkeep] at hout
      · rintro ⟨⟨p, hfind⟩, hyoung⟩
        refine ⟨p, hfind, ?_⟩
        obtain ⟨-, -, t, -, hhist, -⟩ := h.found hfind
        by_contra hkeep
        have hout := (h.expireKeeps_iff hfind hhist).mp (by simpa using hkeep)
        exact hyoung _ t hhist hout.1

/-- A machine of 32 bits with 100 jiffies in a second. -/
def clock32 : Clock := ⟨32, 100, by decide, by decide⟩

/-- Its memory, all zero, and nothing in the database. -/
def start32 : World clock32 :=
  World.start clock32 0 fun _ => ⟨0, zeroAddr, 0, Vector.replicate 17 0⟩

/-- The network address of the IPv4 address 192.168.0.2. -/
def addr2 : NetworkAddr := #v[1, 0, 0, 0, 0, 0, 0, 192, 168, 0, 2, 0, 0, 0, 0, 0, 0]

def addr3 : NetworkAddr := #v[1, 0, 0, 0, 0, 0, 0, 192, 168, 0, 3, 0, 0, 0, 0, 0, 0]

/-- `nat25_db_expire` now takes the address out. -/
def takenOut (w : World clock32) (addr : NetworkAddr) : Bool :=
  (w.a.findEntry addr).isSome && ((w.a.dbExpire w.jiffies).findEntry addr).isNone

/-- Two addresses recorded, the second 300 seconds later. -/
def twoAddrs : List Act :=
  [.insert (some 7) ⟨2, 0, 0, 0, 0, 2⟩ addr2, .tick 30000,
    .insert (some 8) ⟨2, 0, 0, 0, 0, 3⟩ addr3, .lookup zeroAddr addr3]

/-- The first is taken out and the second is not. -/
theorem expired_of_two : ∃ w, start32.run twoAddrs = some w ∧
    (takenOut w addr2 = true ∧ takenOut w addr3 = false) ∧ (Kept w ↔ ExpiredUnused w) := by
  obtain ⟨w, hrun, hw⟩ : ∃ w, start32.run twoAddrs = some w ∧
      (takenOut w addr2 && !takenOut w addr3) = true :=
    (Option.any_eq_true _ _).mp (by decide +kernel)
  simp only [Bool.and_eq_true, Bool.not_eq_true'] at hw
  exact ⟨w, hrun, hw, kept_iff_expired_unused hrun⟩

/-- One frame came down for the address, and then nothing for 300 seconds. -/
def lookedUp : List Act :=
  [.insert (some 7) ⟨2, 0, 0, 0, 0, 2⟩ addr2, .lookup zeroAddr addr2, .tick 30000]

/-- Its ageing time has passed and `nat25_db_expire` leaves it where it is. -/
theorem looked_up_not_expired : ∃ w, start32.run lookedUp = some w ∧ ¬Kept w := by
  obtain ⟨w, hrun, hw⟩ : ∃ w, start32.run lookedUp = some w ∧
      (((w.a.dbExpire w.jiffies).findEntry addr2).isSome &&
        (w.hist addr2 == some (⟨2, 0, 0, 0, 0, 2⟩, 0) && 30000 ≤ w.now)) = true :=
    (Option.any_eq_true _ _).mp (by decide +kernel)
  simp only [Bool.and_eq_true, beq_iff_eq, decide_eq_true_eq] at hw
  obtain ⟨hsome, hhist, hnow⟩ := hw
  have hage : aged clock32 0 w.now := by
    simpa [aged, Clock.ageing, clock32] using hnow
  exact ⟨w, hrun, fun hkept => ((hkept.expire addr2).mp hsome).2 _ _ hhist hage⟩

end Nat25

end Rtl8723bs
