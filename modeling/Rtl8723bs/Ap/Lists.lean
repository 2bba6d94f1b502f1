/-
# The two lists of stations

A handler of the access point is a chain of small acts: an entry is changed, linked, unlinked,
freed, counted.  Section 2 names the acts and says what each needs, section 4 takes every
handler apart into them, once and for all invariants.  The first invariant is that of the
lists: a station on `auth_list` or `asoc_list` is allocated, is on one of them only, and each
counter is the length of its list.  It holds after every handler, whatever frame it was for.

What does not hold is that a rejected reassociation changes nothing: the state is traded away
before the checks, and the way out forgets the association ID.
-/
import Rtl8723bs.Ap.Mlme

namespace Rtl8723bs

/-! ## 1. Events -/

/-- What can happen to the stations.  The three loops of `expire_timeout_chk` are taken round
by round; `unlinkAsoc` and `apFreeSta` are the two halves of what the commands do that throw
out stations. -/
inductive ApEv
  | auth (pframe : Mem) (len : Nat)
  | assocReq (r : AssocReq)
  | deAuth (f : LeaveFrame)
  | disassoc (f : LeaveFrame)
  | authTick (psta : StaId)
  | asocTick (psta : StaId) (alive : Bool)
  | keepAlive (psta : StaId) (acked : Bool)
  | unlinkAsoc (psta : StaId)
  | apFreeSta (psta : StaId)
  | bsscoex (f : BssCoex)
  | checkScan (legacySeen : Bool)

namespace Ap

def step (st : Ap) : ApEv → Ap
  | .auth pframe len => (st.onAuth pframe len).1
  | .assocReq r => (st.onAssocReq r).1
  | .deAuth f => st.onDeAuth f
  | .disassoc f => st.onDisassoc f
  | .authTick psta => st.authTick psta
  | .asocTick psta alive => (st.asocTick alive psta).1
  | .keepAlive psta acked => st.keepAliveTick acked psta
  | .unlinkAsoc psta => st.unlinkAsoc psta
  | .apFreeSta psta => st.apFreeSta psta
  | .bsscoex f => st.processPublicActBsscoex f
  | .checkScan legacySeen => st.apCheckScan legacySeen

/-- The loops look at the stations of their list, and whoever frees a station has it from the
table and has taken it off `asoc_list`. -/
def Legal (st : Ap) : ApEv → Prop
  | .authTick psta => psta ∈ st.authList
  | .asocTick psta _ => psta ∈ st.asocList
  | .apFreeSta psta => psta ∈ st.pool.hashed ∧ psta ∉ st.asocList
  | _ => True

/-- Runs from `st₀` in which every event meets the condition `C`. -/
inductive RunOf (C : Ap → ApEv → Prop) (st₀ : Ap) : Ap → Prop
  | start : RunOf C st₀ st₀
  | step {st : Ap} (hrun : RunOf C st₀ st) (ev : ApEv) (hlegal : st.Legal ev) (hC : C st ev) :
      RunOf C st₀ (st.step ev)

/-- The access point when it starts: a pool without anyone on a list, no association ID given,
nothing counted. -/
structure Started (st : Ap) : Prop where
  hwState : st.hwState = hwStateAp
  kept : st.pool.Kept []
  authList : st.authList = []
  authListCnt : st.authListCnt = 0
  asocList : st.asocList = []
  asocListCnt : st.asocListCnt = 0
  staAid : ∀ i, st.staAid i = none
  aid : ∀ psta, (st.sta psta).aid = 0
  caps : st.bss.caps = FlagCount.Flags.empty
  maxNumSta : st.cfg.maxNumSta ≤ numSta

/-! ## 2. Acts -/

/-- What a handler does with the state, one thing at a time. -/
inductive Act
  | upd (psta : StaId) (f : StaInfo → StaInfo)
  | alloc (hwaddr : MacAddr)
  | unlinkAuth (psta : StaId)
  | linkAuth (psta : StaId)
  | unlinkAsoc (psta : StaId)
  | linkAsoc (psta : StaId)
  | free (psta : StaId)
  | clearAid (psta : StaId)
  | takeAid (psta : StaId)
  | join (psta : StaId) (s : StaCapab)
  | leave (psta : StaId)
  | coex (psta : StaId) (f : BssCoex)
  | scan (legacySeen : Bool)

def act (st : Ap) : Act → Ap
  | .upd psta f => st.setSta psta f
  | .alloc hwaddr => (st.allocStainfo hwaddr).1
  | .unlinkAuth psta => st.unlinkAuth psta
  | .linkAuth psta => st.linkAuth psta
  | .unlinkAsoc psta => st.unlinkAsoc psta
  | .linkAsoc psta => st.linkAsoc psta
  | .free psta => st.freeStainfo psta
  | .clearAid psta => st.assocFail psta
  | .takeAid psta => (st.getAid psta).getD st
  | .join psta s => { st with bss := st.bss.capUpdateOnStaJoin psta s }
  | .leave psta => { st with bss := st.bss.capUpdateOnStaLeave psta }
  | .coex psta f => { st with bss := st.bss.processBsscoex psta f }
  | .scan legacySeen => st.apCheckScan legacySeen

/-- What an act needs: an update of an entry does not touch its association ID, other acts are
about an allocated station, and one that goes on a list, or is freed, is not on the other. -/
def Guard (st : Ap) : Act → Prop
  | .upd psta f => (f (st.sta psta)).aid = (st.sta psta).aid
  | .linkAuth psta => psta ∈ st.pool.hashed ∧ psta ∉ st.asocList
  | .linkAsoc psta => psta ∈ st.pool.hashed ∧ psta ∉ st.authList
  | .free psta => psta ∈ st.pool.hashed ∧ psta ∉ st.asocList
  | .takeAid psta => psta ∈ st.pool.hashed
  | .join psta _ => psta ∈ st.pool.hashed
  | .leave psta => psta ∈ st.pool.hashed
  | .coex psta _ => psta ∈ st.pool.hashed
  | _ => True

/-- The acts that no invariant has to fear. -/
def Act.plain : Act → Bool
  | .free _ => false
  | .clearAid _ => false
  | .scan _ => false
  | _ => true

/-- A chain of acts, each with what it needs and with what else `G` knows of it. -/
inductive Acts (G : Ap → Act → Prop) (st : Ap) : Ap → Prop
  | done : Acts G st st
  | more {st₁ : Ap} (h : Acts G st st₁) (a : Act) (hguard : st₁.Guard a) (hG : G st₁ a) :
      Acts G st (st₁.act a)

theorem Acts.refl (G : Ap → Act → Prop) (st : Ap) : Acts G st st := Acts.done

theorem Acts.trans {G : Ap → Act → Prop} {st st₁ st₂ : Ap} (h : Acts G st st₁)
    (h' : Acts G st₁ st₂) : Acts G st st₂ := by
  induction h' with
  | done => exact h
  | more _ a hguard hG ih => exact ih.more a hguard hG

/-- What every act preserves, a chain preserves. -/
theorem Acts.preserves {G : Ap → Act → Prop} {P : Ap → Prop} {st st' : Ap} (h : Acts G st st')
    (hP : P st) (hact : ∀ st₁ a, P st₁ → st₁.Guard a → G st₁ a → P (st₁.act a)) : P st' := by
  induction h with
  | done => exact hP
  | more _ a hguard hG ih => exact hact _ a ih hguard hG

/-! ## 3. The lists -/

variable {st st' : Ap} {psta q : StaId}

/-- Both lists hold allocated stations, none of them twice and none on both, and the counters
are their lengths. -/
structure Lists (st : Ap) : Prop where
  kept : st.pool.Kept []
  authNodup : st.authList.Nodup
  asocNodup : st.asocList.Nodup
  authHashed : ∀ psta ∈ st.authList, psta ∈ st.pool.hashed
  asocHashed : ∀ psta ∈ st.asocList, psta ∈ st.pool.hashed
  apart : ∀ psta ∈ st.authList, psta ∉ st.asocList
  authCnt : st.authListCnt = st.authList.length
  asocCnt : st.asocListCnt = st.asocList.length

theorem Started.lists (h : st.Started) : st.Lists := by
  refine ⟨h.kept, ?_, ?_, ?_, ?_, ?_, ?_, ?_⟩
  · rw [h.authList]
    exact List.nodup_nil
  · rw [h.asocList]
    exact List.nodup_nil
  · rw [h.authList]
    exact fun _ hmem => absurd hmem List.not_mem_nil
  · rw [h.asocList]
    exact fun _ hmem => absurd hmem List.not_mem_nil
  · rw [h.authList]
    exact fun _ hmem => absurd hmem List.not_mem_nil
  · rw [h.authList, h.authListCnt]
    rfl
  · rw [h.asocList, h.asocListCnt]
    rfl

/-- Only the pool, the lists and the counters matter. -/
theorem Lists.congr (h : st.Lists) (hpool : st'.pool = st.pool)
    (hauth : st'.authList = st.authList) (hauthCnt : st'.authListCnt = st.authListCnt)
    (hasoc : st'.asocList = st.asocList) (hasocCnt : st'.asocListCnt = st.asocListCnt) :
    st'.Lists := by
  obtain ⟨h₁, h₂, h₃, h₄, h₅, h₆, h₇, h₈⟩ := h
  constructor
  all_goals rw [← hpool, ← hauth, ← hasoc] at *
  all_goals first | assumption | skip
  · rwa [← hauthCnt] at h₇
  · rwa [← hasocCnt] at h₈

/-- A station off its list is not missed. -/
theorem filter_ne_of_not_mem {l : List StaId} (h : psta ∉ l) : l.filter (· ≠ psta) = l := by
  rw [List.filter_eq_self]
  intro q hq
  exact decide_eq_true fun heq => h (heq ▸ hq)

/-- Off `auth_list` the list is filtered, and the counter knows. -/
theorem unlinkAuth_eq (st : Ap) (psta : StaId) :
    st.unlinkAuth psta =
      { st with
        authList := st.authList.filter (· ≠ psta)
        authListCnt := if psta ∈ st.authList then st.authListCnt - 1 else st.authListCnt } := by
  unfold Ap.unlinkAuth
  split
  · rfl
  · rename_i h
    rw [filter_ne_of_not_mem h]

theorem unlinkAsoc_eq (st : Ap) (psta : StaId) :
    st.unlinkAsoc psta =
      { st with
        asocList := st.asocList.filter (· ≠ psta)
        asocListCnt := if psta ∈ st.asocList then st.asocListCnt - 1 else st.asocListCnt } := by
  unfold Ap.unlinkAsoc
  split
  · rfl
  · rename_i h
    rw [filter_ne_of_not_mem h]

theorem linkAuth_eq (st : Ap) (psta : StaId) :
    st.linkAuth psta =
      { st with
        authList := if psta ∈ st.authList then st.authList else st.authList ++ [psta]
        authListCnt := if psta ∈ st.authList then st.authListCnt else st.authListCnt + 1 } := by
  unfold Ap.linkAuth
  split <;> rfl

theorem releaseAid_eq (st : Ap) (psta : StaId) :
    ∃ sta staAid, st.releaseAid psta =
      { st with
        sta := sta
        staAid := staAid } := by
  unfold Ap.releaseAid
  split
  · dsimp only
    split
    · exact ⟨_, _, rfl⟩
    · exact ⟨_, _, rfl⟩
  · exact ⟨_, _, rfl⟩

/-- `rtw_free_stainfo`, as far as the lists go. -/
theorem freeStainfo_eq (st : Ap) (psta : StaId) :
    ∃ sta staAid, st.freeStainfo psta =
      { st with
        pool := st.pool.freeStainfo (some psta)
        sta := sta
        authList := st.authList.filter (· ≠ psta)
        authListCnt := if psta ∈ st.authList then st.authListCnt - 1 else st.authListCnt
        staAid := staAid } := by
  unfold Ap.freeStainfo
  dsimp only
  rw [unlinkAuth_eq]
  obtain ⟨sta, staAid, heq⟩ := releaseAid_eq _ psta
  rw [heq]
  exact ⟨sta, staAid, rfl⟩

theorem freeStainfo_asocList (st : Ap) (psta : StaId) :
    (st.freeStainfo psta).asocList = st.asocList := by
  obtain ⟨sta, staAid, heq⟩ := freeStainfo_eq st psta
  rw [heq]

theorem getAid_eq {st₁ : Ap} (h : st.getAid psta = some st₁) :
    ∃ sta staAid, st₁ =
      { st with
        sta := sta
        staAid := staAid } := by
  unfold Ap.getAid at h
  split at h
  · exact ⟨_, _, (Option.some.inj h).symm⟩
  · dsimp only at h
    split at h
    · exact ⟨_, _, (Option.some.inj h).symm⟩
    · split at h
      · exact absurd h (by simp)
      · exact ⟨_, _, (Option.some.inj h).symm⟩

/-- The length of a list that one of its members leaves. -/
theorem length_filter_ne {l : List StaId} (hnd : l.Nodup) (cnt : Int) (hcnt : cnt = l.length) :
    (if psta ∈ l then cnt - 1 else cnt) = (l.filter (· ≠ psta)).length := by
  split
  · rename_i hmem
    have hlen := (Buckets.perm_cons_filter hnd hmem).length_eq
    rw [List.length_cons] at hlen
    omega
  · rename_i hmem
    rw [filter_ne_of_not_mem hmem, hcnt]

theorem Lists.alloc (h : st.Lists) (hwaddr : MacAddr) : (st.allocStainfo hwaddr).1.Lists := by
  have hkept := h.kept.allocStainfo hwaddr
  unfold Ap.allocStainfo
  dsimp only
  rcases h.kept.allocStainfo_cases hwaddr with heq | ⟨psta, rest, -, -, heq, hperm⟩
  · rw [heq]
    exact h
  · rw [heq] at hkept ⊢
    have hmem : ∀ q ∈ st.pool.hashed, q ∈ Buckets.filed
        (Buckets.insertTail st.pool.staHash (wifiMacHash hwaddr) psta) numSta := fun q hq =>
      hperm.mem_iff.mpr (List.mem_cons_of_mem psta hq)
    exact ⟨hkept, h.authNodup, h.asocNodup, fun q hq => hmem q (h.authHashed q hq),
      fun q hq => hmem q (h.asocHashed q hq), h.apart, h.authCnt, h.asocCnt⟩

theorem Lists.unlinkAuth (h : st.Lists) (psta : StaId) : (st.unlinkAuth psta).Lists := by
  rw [unlinkAuth_eq]
  exact ⟨h.kept, h.authNodup.filter _, h.asocNodup,
    fun q hq => h.authHashed q (List.mem_filter.mp hq).1, h.asocHashed,
    fun q hq => h.apart q (List.mem_filter.mp hq).1,
    length_filter_ne h.authNodup _ h.authCnt, h.asocCnt⟩

theorem Lists.unlinkAsoc (h : st.Lists) (psta : StaId) : (st.unlinkAsoc psta).Lists := by
  rw [unlinkAsoc_eq]
  exact ⟨h.kept, h.authNodup, h.asocNodup.filter _, h.authHashed,
    fun q hq => h.asocHashed q (List.mem_filter.mp hq).1,
    fun q hq hasoc => h.apart q hq (List.mem_filter.mp hasoc).1, h.authCnt,
    length_filter_ne h.asocNodup _ h.asocCnt⟩

theorem Lists.linkAuth (h : st.Lists) (hmem : psta ∈ st.pool.hashed)
    (hnot : psta ∉ st.asocList) : (st.linkAuth psta).Lists := by
  unfold Ap.linkAuth
  split
  · exact h
  · rename_i hfresh
    refine ⟨h.kept, ?_, h.asocNodup, ?_, h.asocHashed, ?_, ?_, h.asocCnt⟩
    · exact List.nodup_append.mpr ⟨h.authNodup, List.nodup_singleton psta, by
        rintro q hq p hp rfl
        exact hfresh (List.mem_singleton.mp hp ▸ hq)⟩
    · intro q hq
      rcases List.mem_append.mp hq with hold | hnew
      · exact h.authHashed q hold
      · rwa [List.mem_singleton.mp hnew]
    · intro q hq
      rcases List.mem_append.mp hq with hold | hnew
      · exact h.apart q hold
      · rwa [List.mem_singleton.mp hnew]
    · show st.authListCnt + 1 = ((st.authList ++ [psta]).length : Int)
      rw [h.authCnt, List.length_append, List.length_singleton]
      push_cast
      rfl

theorem Lists.linkAsoc (h : st.Lists) (hmem : psta ∈ st.pool.hashed)
    (hnot : psta ∉ st.authList) : (st.linkAsoc psta).Lists := by
  unfold Ap.linkAsoc
  split
  · exact h
  · rename_i hfresh
    refine ⟨h.kept, h.authNodup, ?_, h.authHashed, ?_, ?_, h.authCnt, ?_⟩
    · exact List.nodup_append.mpr ⟨h.asocNodup, List.nodup_singleton psta, by
        rintro q hq p hp rfl
        exact hfresh (List.mem_singleton.mp hp ▸ hq)⟩
    · intro q hq
      rcases List.mem_append.mp hq with hold | hnew
      · exact h.asocHashed q hold
      · rwa [List.mem_singleton.mp hnew]
    · intro q hq hasoc
      rcases List.mem_append.mp hasoc with hold | hnew
      · exact h.apart q hq hold
      · exact hnot (List.mem_singleton.mp hnew ▸ hq)
    · show st.asocListCnt + 1 = ((st.asocList ++ [psta]).length : Int)
      rw [h.asocCnt, List.length_append, List.length_singleton]
      push_cast
      rfl

/-- A freed station leaves `auth_list`; `asoc_list` it must have left before. -/
theorem Lists.free (h : st.Lists) (hmem : psta ∈ st.pool.hashed) (hnot : psta ∉ st.asocList) :
    (st.freeStainfo psta).Lists := by
  obtain ⟨sta, staAid, heq⟩ := freeStainfo_eq st psta
  rw [heq]
  refine ⟨h.kept.freeStainfo hmem, h.authNodup.filter _, h.asocNodup, ?_, ?_, ?_,
    length_filter_ne h.authNodup _ h.authCnt, h.asocCnt⟩
  · intro q hq
    obtain ⟨hq', hne⟩ := List.mem_filter.mp hq
    exact (StaPool.mem_hashed_freeStainfo _ _ _).mpr
      ⟨h.authHashed q hq', of_decide_eq_true hne⟩
  · intro q hq
    refine (StaPool.mem_hashed_freeStainfo _ _ _).mpr ⟨h.asocHashed q hq, ?_⟩
    rintro rfl
    exact hnot hq
  · intro q hq
    exact h.apart q (List.mem_filter.mp hq).1

/-- **Every act keeps the lists.** -/
theorem Lists.act (h : st.Lists) (a : Act) (hguard : st.Guard a) : (st.act a).Lists := by
  cases a with
  | upd psta f => exact h.congr rfl rfl rfl rfl rfl
  | alloc hwaddr => exact h.alloc hwaddr
  | unlinkAuth psta => exact h.unlinkAuth psta
  | linkAuth psta => exact h.linkAuth hguard.1 hguard.2
  | unlinkAsoc psta => exact h.unlinkAsoc psta
  | linkAsoc psta => exact h.linkAsoc hguard.1 hguard.2
  | free psta => exact h.free hguard.1 hguard.2
  | clearAid psta => exact h.congr rfl rfl rfl rfl rfl
  | takeAid psta =>
    show ((st.getAid psta).getD st).Lists
    cases hget : st.getAid psta with
    | none => exact h
    | some st₁ =>
      obtain ⟨sta, staAid, rfl⟩ := getAid_eq hget
      exact h.congr rfl rfl rfl rfl rfl
  | join psta s => exact h.congr rfl rfl rfl rfl rfl
  | leave psta => exact h.congr rfl rfl rfl rfl rfl
  | coex psta f => exact h.congr rfl rfl rfl rfl rfl
  | scan legacySeen => exact h.congr rfl rfl rfl rfl rfl

/-! ## 4. The handlers are chains of acts -/

/-- The frame gets past the first two checks of `OnAuth`. -/
def AuthAdmitted (st : Ap) (pframe : Mem) (len : Nat) : Prop :=
  ¬((st.cfg.authAlgorithm pframe len > 0 ∧ st.cfg.authMode = .open_) ∨
      (st.cfg.authAlgorithm pframe len = 0 ∧ st.cfg.authMode = .shared)) ∧
    st.cfg.accessCtrl (getAddr2 pframe) = true

/-- An authentication frame of a station that has an entry is rejected for its sequence number
or by its algorithm. -/
def AuthRejects (st : Ap) (pframe : Mem) (len : Nat) (psta : StaId) : Prop :=
  st.AuthAdmitted pframe len ∧ st.pool.getStainfo (getAddr2 pframe) = some psta ∧
    ((st.sta psta).authSeq + 1 ≠ st.cfg.authSeq pframe len ∨
      ∃ status, st.cfg.authStep pframe len ((st.sta psta).beginAuth st.cfg.authTo) =
        .error status)

/-- A deauthentication or disassociation frame of a station on `asoc_list`. -/
def LeaveTakes (st : Ap) (f : LeaveFrame) (psta : StaId) : Prop :=
  f.addr3 = st.cfg.bssid ∧ st.pool.getStainfo f.addr2 = some psta ∧ psta ∈ st.asocList

/-- A station on `asoc_list` is too old, and nothing is left to try. -/
def AsocExpires (st : Ap) (psta : StaId) (alive : Bool) : Prop :=
  ((st.sta psta).asocAge alive st.cfg.expireTo).expireTo = 0 ∧ st.cfg.wifiSpec = false ∧
    ¬((st.sta psta).state &&& wifiSleepState ≠ 0 ∧
      (st.sta psta).state &&& wifiStaAliveChkState = 0) ∧ st.cfg.activeKeepAliveCheck = false

/-- The last keep-alive frame of a station on `asoc_list` is not acknowledged. -/
def KeepAliveFails (st : Ap) (psta : StaId) (acked : Bool) : Prop :=
  psta ∈ st.asocList ∧ (st.sta psta).state &&& fwLinked ≠ 0 ∧ acked = false ∧
    (st.sta psta).keepAliveTrycnt ≥ 3

/-- An event frees a station while the flag of kind `k` is set: any flag if `rtw_free_stainfo`
is called directly, only the one of 40 MHz intolerance if `ap_free_sta` is. -/
def FreesFlagged (st : Ap) (ev : ApEv) (psta : StaId) (k : CapKind) : Prop :=
  st.bss.caps.flag k psta = true ∧
    match ev with
    | .auth pframe len => st.AuthRejects pframe len psta
    | .authTick p => p = psta ∧ (st.sta psta).expireTo = 1
    | .deAuth f => k = .intol40mhz ∧ st.LeaveTakes f psta
    | .disassoc f => k = .intol40mhz ∧ st.LeaveTakes f psta
    | .asocTick p alive => k = .intol40mhz ∧ p = psta ∧ st.AsocExpires psta alive
    | .keepAlive p acked => k = .intol40mhz ∧ p = psta ∧ st.KeepAliveFails psta acked
    | .apFreeSta p => k = .intol40mhz ∧ p = psta
    | _ => False

/-- A request of a station that is authenticated or associated fails one of the checks. -/
def AssocRejects (st : Ap) (r : AssocReq) (psta : StaId) : Prop :=
  st.pool.getStainfo r.addr2 = some psta ∧ r.minLen ≤ r.pktLen ∧
    (st.sta psta).assocReady.isSome ∧
      (st.assocChecks r (st.sta psta).capab).2 ≠ statsSuccessful

/-- An event that rejects a request of a station which has an association ID. -/
def RejectsAid (st : Ap) : ApEv → Prop
  | .assocReq r => ∃ psta, st.AssocRejects r psta ∧ (st.sta psta).aid > 0
  | _ => False

/-- What is known of an act in the chain of an event: which flags a freed station still has,
which association ID is forgotten, and that only a scan is a scan. -/
def Ctx (st : Ap) (ev : ApEv) (st₁ : Ap) : Act → Prop
  | .free psta => ∀ k, st₁.bss.caps.flag k psta = true → st.FreesFlagged ev psta k
  | .clearAid psta => (st₁.sta psta).aid > 0 → st.RejectsAid ev
  | .scan legacySeen => ev = .checkScan legacySeen
  | _ => True

section Chains

variable {G : Ap → Act → Prop}

/-- Nothing has to be known of the plain acts. -/
theorem Acts.plain {st₁ : Ap} (h : Acts G st st₁) (hG : ∀ st₂ a, a.plain = true → G st₂ a)
    (a : Act) (hguard : st₁.Guard a) (hplain : a.plain = true) : Acts G st (st₁.act a) :=
  h.more a hguard (hG st₁ a hplain)

theorem apFreeSta_acts (hG : ∀ st₂ a, a.plain = true → G st₂ a) (hmem : psta ∈ st.pool.hashed)
    (hnot : psta ∉ st.asocList)
    (hfree : ∀ st₂ : Ap, (∀ k, st₂.bss.caps.flag k psta = true →
      k = .intol40mhz ∧ st.bss.caps.flag k psta = true) → G st₂ (.free psta)) :
    Acts G st (st.apFreeSta psta) := by
  have hupd := (Acts.refl G st).plain hG
    (.upd psta fun s => { s with state := s.state &&& ~~~fwLinked }) rfl rfl
  have hleave := hupd.plain hG (.leave psta) hmem rfl
  exact hleave.more (.free psta) ⟨hmem, hnot⟩
    (hfree _ fun k hk => capUpdateOnStaLeave_flag st.bss psta hk)

theorem dropAsoc_acts (hG : ∀ st₂ a, a.plain = true → G st₂ a) (hl : st.Lists)
    (hfree : psta ∈ st.asocList → ∀ st₂ : Ap, (∀ k, st₂.bss.caps.flag k psta = true →
      k = .intol40mhz ∧ st.bss.caps.flag k psta = true) → G st₂ (.free psta)) :
    Acts G st (st.dropAsoc psta) := by
  unfold Ap.dropAsoc
  split
  · rename_i hmem
    have hun := (Acts.refl G st).plain hG (.unlinkAsoc psta) trivial rfl
    refine hun.trans (apFreeSta_acts hG ?_ ?_ ?_)
    · rw [Ap.act, unlinkAsoc_eq]
      exact hl.asocHashed psta hmem
    · rw [Ap.act, unlinkAsoc_eq]
      intro hmem'
      exact of_decide_eq_true (List.mem_filter.mp hmem').2 rfl
    · intro st₂ hst₂
      refine hfree hmem st₂ ?_
      rw [Ap.act, unlinkAsoc_eq] at hst₂
      exact hst₂
  · exact Acts.done

theorem authStep_aid {cfg : ApConfig} {pframe : Mem} {len : Nat} {s s' : StaInfo}
    (h : cfg.authStep pframe len s = .ok s') : s'.aid = s.aid := by
  unfold ApConfig.authStep at h
  dsimp only at h
  repeat' split at h
  all_goals first
    | (cases h; rfl)
    | cases h

theorem beginAuth_aid (s : StaInfo) (authTo : Nat) : (s.beginAuth authTo).aid = s.aid := by
  unfold StaInfo.beginAuth
  split <;> rfl

theorem beginAuth_authSeq (s : StaInfo) (authTo : Nat) :
    (s.beginAuth authTo).authSeq = s.authSeq := by
  unfold StaInfo.beginAuth
  split <;> rfl

theorem endAuth_aid (s : StaInfo) : s.endAuth.aid = s.aid := by
  unfold StaInfo.endAuth
  split <;> rfl

@[simp] theorem setSta_self (st : Ap) (psta : StaId) (f : StaInfo → StaInfo) :
    (st.setSta psta f).sta psta = f (st.sta psta) :=
  Function.update_self _ _ _

/-- The exchange with a station that has an entry is on `auth_list` only: the entry is updated,
or freed if the frame is rejected. -/
theorem authExchange_acts (hG : ∀ st₂ a, a.plain = true → G st₂ a)
    (hmem : psta ∈ st.pool.hashed) (hnot : psta ∉ st.asocList) (pframe : Mem) (len : Nat)
    (hfree : ((st.sta psta).authSeq + 1 ≠ st.cfg.authSeq pframe len ∨
        ∃ status, st.cfg.authStep pframe len ((st.sta psta).beginAuth st.cfg.authTo) =
          .error status) →
      ∀ st₂ : Ap, st₂.bss = st.bss → G st₂ (.free psta)) :
    Acts G st (st.authExchange psta pframe len).1 := by
  have hbegin := (Acts.refl G st).plain hG
    (.upd psta fun s => s.beginAuth st.cfg.authTo) (beginAuth_aid _ _) rfl
  unfold Ap.authExchange
  dsimp only
  rw [setSta_self, beginAuth_authSeq]
  split
  · rename_i hseq
    exact hbegin.more (.free psta) ⟨hmem, hnot⟩ (hfree (Or.inl hseq) _ rfl)
  · split
    · rename_i status hstep
      exact hbegin.more (.free psta) ⟨hmem, hnot⟩ (hfree (Or.inr ⟨status, hstep⟩) _ rfl)
    · rename_i s hstep
      have haid : s.aid = ((st.sta psta).beginAuth st.cfg.authTo).aid := authStep_aid hstep
      refine hbegin.plain hG (.upd psta fun _ => _) ?_ rfl
      show (StaInfo.endAuth _).aid = ((st.setSta psta _).sta psta).aid
      rw [endAuth_aid, setSta_self]
      exact haid

/-- The entry of the sender is found and moved to `auth_list`, or it is a new one, all of whose
flags are clear. -/
theorem authEntry_acts (hG : ∀ st₂ a, a.plain = true → G st₂ a) (hl : st.Lists)
    (sa : MacAddr) :
    Acts G st (st.authEntry sa).1 ∧
      ∀ psta, (st.authEntry sa).2 = some psta →
        psta ∈ (st.authEntry sa).1.pool.hashed ∧ psta ∉ (st.authEntry sa).1.asocList ∧
          (st.authEntry sa).1.cfg = st.cfg ∧
            ((st.pool.getStainfo sa = some psta ∧ (st.authEntry sa).1.bss = st.bss ∧
                (st.authEntry sa).1.sta = st.sta) ∨
              ∀ k, (st.authEntry sa).1.bss.caps.flag k psta = false) := by
  unfold Ap.authEntry
  cases hget : st.pool.getStainfo sa with
  | some psta =>
    have hmem := (hl.kept.getStainfo_some hget).1
    have hun := (Acts.refl G st).plain hG (.unlinkAsoc psta) trivial rfl
    have hnot : psta ∉ (st.unlinkAsoc psta).asocList := by
      rw [unlinkAsoc_eq]
      intro hmem'
      exact of_decide_eq_true (List.mem_filter.mp hmem').2 rfl
    have hsame : (st.unlinkAsoc psta).pool = st.pool ∧ (st.unlinkAsoc psta).cfg = st.cfg ∧
        (st.unlinkAsoc psta).bss = st.bss ∧ (st.unlinkAsoc psta).sta = st.sta := by
      rw [unlinkAsoc_eq]
      exact ⟨rfl, rfl, rfl, rfl⟩
    obtain ⟨hpool, hcfg, hbss, hsta⟩ := hsame
    refine ⟨hun.plain hG (.linkAuth psta) ⟨hpool ▸ hmem, hnot⟩ rfl, ?_⟩
    rintro _ ⟨⟩
    have hlink : ∀ st₁ : Ap, (st₁.linkAuth psta).pool = st₁.pool ∧
        (st₁.linkAuth psta).asocList = st₁.asocList ∧ (st₁.linkAuth psta).cfg = st₁.cfg ∧
          (st₁.linkAuth psta).bss = st₁.bss ∧ (st₁.linkAuth psta).sta = st₁.sta := by
      intro st₁
      unfold Ap.linkAuth
      split <;> exact ⟨rfl, rfl, rfl, rfl, rfl⟩
    obtain ⟨h₁, h₂, h₃, h₄, h₅⟩ := hlink (st.unlinkAsoc psta)
    refine ⟨?_, ?_, h₃.trans hcfg, Or.inl ⟨rfl, h₄.trans hbss, h₅.trans hsta⟩⟩
    · show psta ∈ ((st.unlinkAsoc psta).linkAuth psta).pool.hashed
      rw [h₁, hpool]
      exact hmem
    · show psta ∉ ((st.unlinkAsoc psta).linkAuth psta).asocList
      rw [h₂]
      exact hnot
  | none =>
    have halloc := (Acts.refl G st).plain hG (.alloc sa) trivial rfl
    rcases hl.kept.allocStainfo_cases sa with heq | ⟨psta, rest, -, hfresh, heq, hperm⟩
    · have hap : st.allocStainfo sa = (st, none) := by
        unfold Ap.allocStainfo
        rw [heq]
      dsimp only
      rw [hap]
      exact ⟨Acts.done, fun _ h => absurd h (by simp)⟩
    · obtain ⟨hsome, hsta, hflag, hasoc, hauth, hcfg, hpool⟩ :
          (st.allocStainfo sa).2 = some psta ∧
            (st.allocStainfo sa).1.sta psta = StaInfo.init ∧
            (∀ k, (st.allocStainfo sa).1.bss.caps.flag k psta = false) ∧
            (st.allocStainfo sa).1.asocList = st.asocList ∧
            (st.allocStainfo sa).1.authList = st.authList ∧
            (st.allocStainfo sa).1.cfg = st.cfg ∧
            (st.allocStainfo sa).1.pool = (st.pool.allocStainfo sa).1 := by
        unfold Ap.allocStainfo
        rw [heq]
        exact ⟨rfl, Function.update_self _ _ _,
          fun k => FlagCount.wipe_flag_self st.bss.caps k psta, rfl, rfl, rfl, rfl⟩
      have hmem : psta ∈ (st.allocStainfo sa).1.pool.hashed := by
        rw [hpool, heq]
        exact hperm.mem_iff.mpr List.mem_cons_self
      have hnot : psta ∉ (st.allocStainfo sa).1.asocList := by
        rw [hasoc]
        exact fun hin => hfresh (hl.asocHashed psta hin)
      have hnew : psta ∉ st.authList := fun hin => hfresh (hl.authHashed psta hin)
      dsimp only
      rw [hsome]
      dsimp only
      have hupd := halloc.plain hG
        (.upd psta fun s =>
          { s with
            state := wifiFwAuthNull
            authSeq := 0 }) rfl rfl
      refine ⟨hupd.plain hG (.linkAuth psta) ⟨hmem, hnot⟩ rfl, ?_⟩
      rintro _ ⟨⟩
      unfold Ap.linkAuth
      split
      · exact ⟨hmem, hnot, hcfg, Or.inr hflag⟩
      · exact ⟨hmem, hnot, hcfg, Or.inr hflag⟩

/-- `OnAuth`. -/
theorem onAuth_acts (hl : st.Lists) (pframe : Mem) (len : Nat) :
    Acts (st.Ctx (.auth pframe len)) st (st.onAuth pframe len).1 := by
  have hG : ∀ st₂ a, a.plain = true → st.Ctx (.auth pframe len) st₂ a := by
    intro st₂ a ha
    cases a <;> first | exact trivial | cases ha
  unfold Ap.onAuth
  split
  · exact Acts.done
  dsimp only
  split
  · exact Acts.done
  rename_i halg
  split
  · exact Acts.done
  rename_i hacl
  have hadm : st.AuthAdmitted pframe len := ⟨halg, by simpa using hacl⟩
  obtain ⟨hentry, hfound⟩ := authEntry_acts hG hl (getAddr2 pframe)
  cases hr : (st.authEntry (getAddr2 pframe)).2 with
  | none => exact hentry
  | some psta =>
    obtain ⟨hmem, hnot, hcfg, hold⟩ := hfound psta hr
    refine hentry.trans (authExchange_acts hG hmem hnot pframe len ?_)
    intro hrej st₂ hbss k hk
    rcases hold with ⟨hget, hbss', hsta⟩ | hnew
    · rw [hcfg, hsta] at hrej
      rw [hbss, hbss'] at hk
      exact ⟨hk, hadm, hget, hrej⟩
    · rw [hbss, hnew k] at hk
      cases hk

theorem unlinkAuth_pool (st : Ap) (psta : StaId) : (st.unlinkAuth psta).pool = st.pool := by
  rw [unlinkAuth_eq]

theorem not_mem_unlinkAuth (st : Ap) (psta : StaId) : psta ∉ (st.unlinkAuth psta).authList := by
  rw [unlinkAuth_eq]
  intro hin
  exact of_decide_eq_true (List.mem_filter.mp hin).2 rfl

theorem linkAsoc_pool (st : Ap) (psta : StaId) : (st.linkAsoc psta).pool = st.pool := by
  unfold Ap.linkAsoc
  split <;> rfl

/-- A station that is admitted goes from `auth_list` to `asoc_list` and joins. -/
theorem assocSuccess_acts (hG : ∀ st₂ a, a.plain = true → G st₂ a)
    (hmem : psta ∈ st.pool.hashed) : Acts G st (st.assocSuccess psta) := by
  have hstate := (Acts.refl G st).plain hG
    (.upd psta fun s => s.trade wifiFwAssocState wifiFwAssocSuccess) rfl rfl
  have hun := hstate.plain hG (.unlinkAuth psta) trivial rfl
  have hmem₁ : psta ∈ ((st.setSta psta fun s =>
      s.trade wifiFwAssocState wifiFwAssocSuccess).unlinkAuth psta).pool.hashed := by
    rw [unlinkAuth_pool]
    exact hmem
  have hlink := hun.plain hG (.linkAsoc psta) ⟨hmem₁, not_mem_unlinkAuth _ psta⟩ rfl
  have hmem₂ : psta ∈ (((st.setSta psta fun s =>
      s.trade wifiFwAssocState wifiFwAssocSuccess).unlinkAuth psta).linkAsoc
        psta).pool.hashed := by
    rw [linkAsoc_pool]
    exact hmem₁
  have hjoin := hlink.plain hG (.join psta ((((st.setSta psta fun s =>
      s.trade wifiFwAssocState wifiFwAssocSuccess).unlinkAuth psta).linkAsoc psta).sta
        psta).capab) hmem₂ rfl
  exact hjoin.plain hG (.upd psta fun s => { s with state := s.state ||| fwLinked }) rfl rfl

theorem act_takeAid {st₁ : Ap} (h : st.getAid psta = some st₁) : st.act (.takeAid psta) = st₁ := by
  show (st.getAid psta).getD st = st₁
  rw [h]
  rfl

/-- Only a station without an association ID can be refused one. -/
theorem getAid_none (h : st.getAid psta = none) : (st.sta psta).aid = 0 := by
  unfold Ap.getAid at h
  split at h
  · cases h
  · omega

/-- `OnAssocReq`. -/
theorem onAssocReq_acts (hl : st.Lists) (r : AssocReq) :
    Acts (st.Ctx (.assocReq r)) st (st.onAssocReq r).1 := by
  have hG : ∀ st₂ a, a.plain = true → st.Ctx (.assocReq r) st₂ a := by
    intro st₂ a ha
    cases a <;> first | exact trivial | cases ha
  unfold Ap.onAssocReq
  split
  · exact Acts.done
  split
  · exact Acts.done
  rename_i hlen
  cases hget : st.pool.getStainfo r.addr2 with
  | none => exact Acts.done
  | some psta =>
    have hmem := (hl.kept.getStainfo_some hget).1
    cases hready : (st.sta psta).assocReady with
    | none =>
      dsimp only
      rw [hready]
      exact Acts.done
    | some old =>
      dsimp only
      rw [hready]
      have htrade := (Acts.refl (st.Ctx (.assocReq r)) st).plain hG
        (.upd psta fun s => s.trade old wifiFwAssocState) rfl rfl
      have hcapab := htrade.plain hG
        (.upd psta fun s => { s with
          capab := (st.assocChecks r (st.sta psta).capab).1 }) rfl rfl
      dsimp only [Ap.assocRequest]
      rw [setSta_self]
      show Acts _ st (if (st.assocChecks r (st.sta psta).capab).2 ≠ statsSuccessful then _ else _ :
        Ap × Bool).1
      split
      · rename_i hchecks
        refine hcapab.more (.clearAid psta) trivial ?_
        intro haid
        refine ⟨psta, ⟨hget, by omega, by rw [hready]; rfl, hchecks⟩, ?_⟩
        rw [Ap.act, Ap.act, setSta_self, setSta_self] at haid
        exact haid
      · cases haid : Ap.getAid _ psta with
        | none =>
          refine hcapab.more (.clearAid psta) trivial ?_
          intro hpos
          exact absurd (getAid_none haid) (Nat.ne_of_gt hpos)
        | some st₁ =>
          have htake : Acts (st.Ctx (.assocReq r)) st st₁ := by
            rw [← act_takeAid haid]
            exact hcapab.plain hG (.takeAid psta) hmem rfl
          have hmem₁ : psta ∈ st₁.pool.hashed := by
            obtain ⟨sta, staAid, rfl⟩ := getAid_eq haid
            exact hmem
          exact htake.trans (assocSuccess_acts hG hmem₁)

/-- `OnDeAuth` and `OnDisassoc`. -/
theorem onLeave_acts (hG : ∀ st₂ a, a.plain = true → G st₂ a) (hl : st.Lists) (f : LeaveFrame)
    (hfree : ∀ psta, st.LeaveTakes f psta → ∀ st₂ : Ap,
      (∀ k, st₂.bss.caps.flag k psta = true →
        k = .intol40mhz ∧ st.bss.caps.flag k psta = true) → G st₂ (.free psta)) :
    Acts G st (st.onLeave f) := by
  unfold Ap.onLeave
  split
  · exact Acts.done
  rename_i hbssid
  cases hget : st.pool.getStainfo f.addr2 with
  | none => exact Acts.done
  | some psta =>
    exact dropAsoc_acts hG hl fun hmem => hfree psta ⟨Decidable.not_not.mp hbssid, hget, hmem⟩

/-- The first loop of `expire_timeout_chk`. -/
theorem authTick_acts (hG : ∀ st₂ a, a.plain = true → G st₂ a) (hl : st.Lists)
    (hin : psta ∈ st.authList)
    (hfree : (st.sta psta).expireTo = 1 → ∀ st₂ : Ap, st₂.bss = st.bss → G st₂ (.free psta)) :
    Acts G st (st.authTick psta) := by
  unfold Ap.authTick
  split
  · have hage := (Acts.refl G st).plain hG
      (.upd psta fun s => { s with expireTo := s.expireTo - 1 }) rfl rfl
    dsimp only
    rw [setSta_self]
    split
    · rename_i hpos hzero
      have hun := hage.plain hG (.unlinkAuth psta) trivial rfl
      have hfields : ∀ st₁ : Ap, (st₁.unlinkAuth psta).asocList = st₁.asocList ∧
          (st₁.unlinkAuth psta).bss = st₁.bss := by
        intro st₁
        rw [unlinkAuth_eq]
        exact ⟨rfl, rfl⟩
      have hmem₁ : psta ∈ ((st.setSta psta fun s =>
          { s with expireTo := s.expireTo - 1 }).unlinkAuth psta).pool.hashed := by
        rw [unlinkAuth_pool]
        exact hl.authHashed psta hin
      have hnot₁ : psta ∉ ((st.setSta psta fun s =>
          { s with expireTo := s.expireTo - 1 }).unlinkAuth psta).asocList := by
        rw [(hfields _).1]
        exact hl.apart psta hin
      exact hun.more (.free psta) ⟨hmem₁, hnot₁⟩ (hfree (by dsimp only at hzero; omega) _
        (hfields _).2)
    · exact hage
  · exact Acts.done

theorem asocAge_aid (s : StaInfo) (alive : Bool) (expireTo : Nat) :
    (s.asocAge alive expireTo).aid = s.aid := by
  unfold StaInfo.asocAge
  split <;> rfl

theorem asocAge_state (s : StaInfo) (alive : Bool) (expireTo : Nat) :
    (s.asocAge alive expireTo).state = s.state := by
  unfold StaInfo.asocAge
  split <;> rfl

/-- The second loop. -/
theorem asocTick_acts (hG : ∀ st₂ a, a.plain = true → G st₂ a) (hl : st.Lists)
    (hin : psta ∈ st.asocList) (alive : Bool)
    (hfree : st.AsocExpires psta alive → ∀ st₂ : Ap, (∀ k, st₂.bss.caps.flag k psta = true →
      k = .intol40mhz ∧ st.bss.caps.flag k psta = true) → G st₂ (.free psta)) :
    Acts G st (st.asocTick alive psta).1 := by
  have hage := (Acts.refl G st).plain hG
    (.upd psta fun s => s.asocAge alive st.cfg.expireTo) (asocAge_aid _ _ _) rfl
  unfold Ap.asocTick
  dsimp only
  rw [setSta_self]
  split
  · exact hage
  rename_i hold
  split
  · exact hage.plain hG (.upd psta fun s => { s with expireTo := st.cfg.expireTo }) rfl rfl
  rename_i hspec
  rw [asocAge_state]
  split
  · exact hage.plain hG
      (.upd psta fun s =>
        { s with
          expireTo := st.cfg.expireTo
          state := s.state ||| wifiStaAliveChkState }) rfl rfl
  rename_i hsleep
  split
  · exact hage
  rename_i hactive
  have hexp : st.AsocExpires psta alive := by
    refine ⟨by omega, ?_, hsleep, ?_⟩
    · exact Bool.eq_false_iff.mpr hspec
    · exact Bool.eq_false_iff.mpr hactive
  have hlage := hl.act (.upd psta fun s => s.asocAge alive st.cfg.expireTo) (asocAge_aid _ _ _)
  have hdrop : Acts G _ (Ap.dropAsoc _ psta) := dropAsoc_acts hG hlage fun _ => hfree hexp
  have heq : (st.act (.upd psta fun s => s.asocAge alive st.cfg.expireTo)).dropAsoc psta =
      ((st.setSta psta fun s => s.asocAge alive st.cfg.expireTo).unlinkAsoc psta).apFreeSta
        psta := if_pos hin
  rw [heq] at hdrop
  exact hage.trans hdrop

/-- The third loop. -/
theorem keepAliveTick_acts (hG : ∀ st₂ a, a.plain = true → G st₂ a) (hl : st.Lists)
    (psta : StaId) (acked : Bool)
    (hfree : st.KeepAliveFails psta acked → ∀ st₂ : Ap, (∀ k, st₂.bss.caps.flag k psta = true →
      k = .intol40mhz ∧ st.bss.caps.flag k psta = true) → G st₂ (.free psta)) :
    Acts G st (st.keepAliveTick acked psta) := by
  unfold Ap.keepAliveTick
  split
  · exact Acts.done
  rename_i hlinked
  have htry := (Acts.refl G st).plain hG
    (.upd psta fun s => { s with keepAliveTrycnt := s.keepAliveTrycnt + 1 }) rfl rfl
  dsimp only
  split
  · exact htry.plain hG
      (.upd psta fun s =>
        { s with
          expireTo := st.cfg.expireTo
          keepAliveTrycnt := 0 }) rfl rfl
  rename_i hacked
  rw [setSta_self]
  split
  · exact htry.plain hG (.upd psta fun s => { s with expireTo := 1 }) rfl rfl
  rename_i htries
  have hreset := htry.plain hG (.upd psta fun s => { s with keepAliveTrycnt := 0 }) rfl rfl
  have hl₁ := (hl.act (.upd psta fun s => { s with keepAliveTrycnt := s.keepAliveTrycnt + 1 })
    rfl).act (.upd psta fun s => { s with keepAliveTrycnt := 0 }) rfl
  refine hreset.trans (dropAsoc_acts hG hl₁ fun hmem => hfree ⟨hmem, hlinked, ?_, ?_⟩)
  · exact Bool.eq_false_iff.mpr hacked
  · dsimp only at htries
    omega

end Chains

/-- **Every event is a chain of acts**, and the acts that an invariant may have to fear come
with what is known of them. -/
theorem step_acts (hl : st.Lists) (ev : ApEv) (hlegal : st.Legal ev) :
    Acts (st.Ctx ev) st (st.step ev) := by
  have hG : ∀ st₂ a, a.plain = true → st.Ctx ev st₂ a := by
    intro st₂ a ha
    cases a <;> first | exact trivial | cases ha
  cases ev with
  | auth pframe len => exact onAuth_acts hl pframe len
  | assocReq r => exact onAssocReq_acts hl r
  | deAuth f =>
    exact onLeave_acts hG hl f fun psta ht st₂ hk k hflag =>
      ⟨(hk k hflag).2, (hk k hflag).1, ht⟩
  | disassoc f =>
    exact onLeave_acts hG hl f fun psta ht st₂ hk k hflag =>
      ⟨(hk k hflag).2, (hk k hflag).1, ht⟩
  | authTick psta =>
    exact authTick_acts hG hl hlegal fun hone st₂ hbss k hk => ⟨hbss ▸ hk, rfl, hone⟩
  | asocTick psta alive =>
    exact asocTick_acts hG hl hlegal alive fun hexp st₂ hk k hflag =>
      ⟨(hk k hflag).2, (hk k hflag).1, rfl, hexp⟩
  | keepAlive psta acked =>
    exact keepAliveTick_acts hG hl psta acked fun hfail st₂ hk k hflag =>
      ⟨(hk k hflag).2, (hk k hflag).1, rfl, hfail⟩
  | unlinkAsoc psta => exact Acts.done.plain hG (.unlinkAsoc psta) trivial rfl
  | apFreeSta psta =>
    exact apFreeSta_acts hG hlegal.1 hlegal.2 fun st₂ hk k hflag =>
      ⟨(hk k hflag).2, (hk k hflag).1, rfl⟩
  | bsscoex f =>
    show Acts _ st (st.processPublicActBsscoex f)
    unfold Ap.processPublicActBsscoex
    cases hget : st.pool.getStainfo f.addr2 with
    | none => exact Acts.done
    | some psta =>
      exact Acts.done.plain hG (.coex psta f) (hl.kept.getStainfo_some hget).1 rfl
  | checkScan legacySeen => exact Acts.done.more (.scan legacySeen) trivial rfl

/-- What every act preserves, every event preserves. -/
theorem Lists.preserves {P : Ap → Prop} (hl : st.Lists) (hP : P st) (ev : ApEv)
    (hlegal : st.Legal ev)
    (hact : ∀ st₁ a, st₁.Lists → P st₁ → st₁.Guard a → st.Ctx ev st₁ a → P (st₁.act a)) :
    (st.step ev).Lists ∧ P (st.step ev) :=
  (step_acts hl ev hlegal).preserves (P := fun st₁ => st₁.Lists ∧ P st₁) ⟨hl, hP⟩
    fun st₁ a h hguard hctx => ⟨h.1.act a hguard, hact st₁ a h.1 h.2 hguard hctx⟩

/-- **The lists hold in every run**, whatever the frames. -/
theorem RunOf.lists {C : Ap → ApEv → Prop} {st₀ : Ap} (h₀ : st₀.Started)
    (hrun : RunOf C st₀ st) : st.Lists := by
  induction hrun with
  | start => exact h₀.lists
  | step _ ev hlegal _ ih =>
    exact (ih.preserves (P := fun _ => True) trivial ev hlegal fun _ _ _ _ _ _ => trivial).1

/-! ## 5. The loops of `expire_timeout_chk` are rounds -/

/-- A run on which nothing is asked of the events. -/
abbrev Run (st₀ st : Ap) : Prop := RunOf (fun _ _ => True) st₀ st

theorem mem_authList_authTick (hin : q ∈ st.authList) (hne : q ≠ psta) :
    q ∈ (st.authTick psta).authList := by
  unfold Ap.authTick
  split
  · dsimp only
    split
    · obtain ⟨sta, staAid, heq⟩ := freeStainfo_eq ((st.setSta psta fun s =>
        { s with expireTo := s.expireTo - 1 }).unlinkAuth psta) psta
      rw [heq, unlinkAuth_eq]
      exact List.mem_filter.mpr ⟨List.mem_filter.mpr ⟨hin, decide_eq_true hne⟩,
        decide_eq_true hne⟩
    · exact hin
  · exact hin

theorem mem_asocList_asocTick (hin : q ∈ st.asocList) (hne : q ≠ psta) (alive : Bool) :
    q ∈ (st.asocTick alive psta).1.asocList := by
  have hfree : ∀ st₁ : Ap, (st₁.apFreeSta psta).asocList = st₁.asocList := by
    intro st₁
    exact freeStainfo_asocList _ psta
  unfold Ap.asocTick
  dsimp only
  split
  · exact hin
  split
  · exact hin
  split
  · exact hin
  split
  · exact hin
  rw [hfree, unlinkAsoc_eq]
  exact List.mem_filter.mpr ⟨hin, decide_eq_true hne⟩

theorem authTicks_run {st₀ : Ap} {l : List StaId} (hrun : Run st₀ st) (hnd : l.Nodup)
    (hl : ∀ psta ∈ l, psta ∈ st.authList) : Run st₀ (l.foldl Ap.authTick st) := by
  induction l generalizing st with
  | nil => exact hrun
  | cons p l ih =>
    obtain ⟨hp, hnd'⟩ := List.nodup_cons.mp hnd
    refine ih (hrun.step (.authTick p) (hl p List.mem_cons_self) trivial) hnd' ?_
    intro q hq
    exact mem_authList_authTick (hl q (List.mem_cons_of_mem p hq)) (by rintro rfl; exact hp hq)

theorem asocTicks_run {st₀ : Ap} {l : List StaId} (alive : StaId → Bool) (hrun : Run st₀ st)
    (hnd : l.Nodup) (hl : ∀ psta ∈ l, psta ∈ st.asocList) :
    Run st₀ (Ap.asocTicks alive l st).1 := by
  induction l generalizing st with
  | nil => exact hrun
  | cons p l ih =>
    obtain ⟨hp, hnd'⟩ := List.nodup_cons.mp hnd
    refine ih (hrun.step (.asocTick p (alive p)) (hl p List.mem_cons_self) trivial) hnd' ?_
    intro q hq
    exact mem_asocList_asocTick (hl q (List.mem_cons_of_mem p hq)) (by rintro rfl; exact hp hq)
      (alive p)

theorem keepAliveTicks_run {st₀ : Ap} {l : List StaId} (acked : StaId → Bool)
    (hrun : Run st₀ st) :
    Run st₀ (l.foldl (fun st psta => st.keepAliveTick (acked psta) psta) st) := by
  induction l generalizing st with
  | nil => exact hrun
  | cons p l ih => exact ih (hrun.step (.keepAlive p (acked p)) trivial trivial)

/-- The whole of `expire_timeout_chk` is a run of its rounds. -/
theorem expireTimeoutChk_run {st₀ : Ap} (h₀ : st₀.Started) (hrun : Run st₀ st)
    (alive acked : StaId → Bool) (onChannel : Bool) :
    Run st₀ (st.expireTimeoutChk alive acked onChannel) := by
  have hauth := authTicks_run hrun (hrun.lists h₀).authNodup fun _ h => h
  have hasoc := asocTicks_run alive hauth (hauth.lists h₀).asocNodup fun _ h => h
  unfold Ap.expireTimeoutChk
  dsimp only
  split
  · exact keepAliveTicks_run acked hasoc
  · exact hasoc

/-! ## 6. Rejected requests -/

/-- A station is on the same lists, with the same association ID and in the same state. -/
structure SameSta (st st' : Ap) (psta : StaId) : Prop where
  authList : psta ∈ st'.authList ↔ psta ∈ st.authList
  asocList : psta ∈ st'.asocList ↔ psta ∈ st.asocList
  aid : (st'.sta psta).aid = (st.sta psta).aid
  state : (st'.sta psta).state = (st.sta psta).state

/-- The state that is traded away was there, and is not after the trade. -/
theorem trade_state_ne {s : StaInfo} {old : BitVec 32} (h : s.assocReady = some old) :
    (s.trade old wifiFwAssocState).state ≠ s.state := by
  have hbit : ∀ i, i < 32 → old = BitVec.twoPow 32 i → wifiFwAssocState.getLsbD i = false →
      s.state &&& old ≠ 0 → (s.trade old wifiFwAssocState).state ≠ s.state := by
    rintro i hi rfl hassoc hset heq
    have hold : s.state.getLsbD i = true := by
      by_contra hno
      refine hset ?_
      rw [BitVec.and_twoPow, if_neg hno]
      rfl
    have hnew := congrArg (fun x => x.getLsbD i) heq
    simp only [StaInfo.trade, BitVec.getLsbD_or, BitVec.getLsbD_and, BitVec.getLsbD_not,
      BitVec.getLsbD_twoPow, hassoc, hold, hi, decide_true, Bool.and_self, Bool.not_true,
      Bool.and_false, Bool.or_self, Bool.false_eq_true] at hnew
  unfold StaInfo.assocReady at h
  split at h
  · rename_i hset
    cases h
    exact hbit 10 (by decide) (by decide) (by decide) hset
  · split at h
    · rename_i hset
      cases h
      exact hbit 14 (by decide) (by decide) (by decide) hset
    · cases h

/-- A request that is rejected behind the state of the station leaves what is known of the
station, without its association ID. -/
theorem assocRequest_rejected {r : AssocReq} (h : (st.assocRequest psta r).2 = false) :
    (st.assocRequest psta r).1 =
      (st.setSta psta fun s =>
        { s with capab := (st.assocChecks r (st.sta psta).capab).1 }).assocFail psta := by
  revert h
  unfold Ap.assocRequest
  dsimp only
  split
  · exact fun _ => rfl
  · split
    · exact fun _ => rfl
    · exact fun h => nomatch h

/-- **What a rejected request leaves of a station**: everything if it is refused before its
state is looked at, and otherwise not its state. -/
theorem onAssocReq_rejected (hhw : st.hwState = hwStateAp) {r : AssocReq}
    (hget : st.pool.getStainfo r.addr2 = some psta) (hrej : (st.onAssocReq r).2 = false) :
    st.SameSta (st.onAssocReq r).1 psta ↔
      r.pktLen < r.minLen ∨ (st.sta psta).assocReady = none := by
  have hsame : st.SameSta st psta := ⟨Iff.rfl, Iff.rfl, rfl, rfl⟩
  revert hrej
  unfold Ap.onAssocReq
  rw [if_neg (by rw [hhw]; decide)]
  split
  · rename_i hlen
    exact fun _ => ⟨fun _ => Or.inl hlen, fun _ => hsame⟩
  rename_i hlen
  rw [hget]
  dsimp only
  cases hready : (st.sta psta).assocReady with
  | none => exact fun _ => ⟨fun _ => Or.inr rfl, fun _ => hsame⟩
  | some old =>
    intro hrej
    dsimp only at hrej ⊢
    rw [assocRequest_rejected hrej]
    constructor
    · intro h
      have hstate := h.state
      rw [Ap.assocFail, setSta_self, setSta_self, setSta_self] at hstate
      exact absurd hstate (trade_state_ne hready)
    · rintro (hshort | hnone)
      · exact absurd hshort hlen
      · cases hnone

/-! ## 7. The lists in every run -/

/-- No act changes the settings. -/
theorem act_cfg (st : Ap) (a : Act) :
    (st.act a).cfg = st.cfg ∧ (st.act a).hwState = st.hwState := by
  cases a with
  | alloc hwaddr =>
    show (st.allocStainfo hwaddr).1.cfg = _ ∧ (st.allocStainfo hwaddr).1.hwState = _
    unfold Ap.allocStainfo
    dsimp only
    split <;> exact ⟨rfl, rfl⟩
  | unlinkAuth psta =>
    rw [Ap.act, unlinkAuth_eq]
    exact ⟨rfl, rfl⟩
  | linkAuth psta =>
    show (st.linkAuth psta).cfg = _ ∧ (st.linkAuth psta).hwState = _
    unfold Ap.linkAuth
    split <;> exact ⟨rfl, rfl⟩
  | unlinkAsoc psta =>
    rw [Ap.act, unlinkAsoc_eq]
    exact ⟨rfl, rfl⟩
  | linkAsoc psta =>
    show (st.linkAsoc psta).cfg = _ ∧ (st.linkAsoc psta).hwState = _
    unfold Ap.linkAsoc
    split <;> exact ⟨rfl, rfl⟩
  | free psta =>
    obtain ⟨sta, staAid, heq⟩ := freeStainfo_eq st psta
    rw [Ap.act, heq]
    exact ⟨rfl, rfl⟩
  | takeAid psta =>
    show ((st.getAid psta).getD st).cfg = _ ∧ ((st.getAid psta).getD st).hwState = _
    cases hget : st.getAid psta with
    | none => exact ⟨rfl, rfl⟩
    | some st₁ =>
      obtain ⟨sta, staAid, rfl⟩ := getAid_eq hget
      exact ⟨rfl, rfl⟩
  | _ => exact ⟨rfl, rfl⟩

theorem RunOf.cfg {C : Ap → ApEv → Prop} {st₀ : Ap} (h₀ : st₀.Started) (hrun : RunOf C st₀ st) :
    st.cfg = st₀.cfg ∧ st.hwState = hwStateAp := by
  induction hrun with
  | start => exact ⟨rfl, h₀.hwState⟩
  | @step st hrun ev hlegal hC ih =>
    refine ((hrun.lists h₀).preserves
      (P := fun st₁ => st₁.cfg = st₀.cfg ∧ st₁.hwState = hwStateAp) ih ev hlegal ?_).2
    intro st₁ a _ h _ _
    exact ⟨(act_cfg st₁ a).1.trans h.1, (act_cfg st₁ a).2.trans h.2⟩

/-- **The lists of an access point in every run**: whoever is on a list is allocated and on one
list only, the counters are the lengths, a free entry is on neither.  A rejected request of a
station leaves it as it was exactly if it is too short, or if the station is neither
authenticated nor associated. -/
theorem station_lists {st₀ : Ap} (h₀ : st₀.Started) (hrun : Run st₀ st) :
    ((∀ psta ∈ st.authList, psta ∈ st.pool.hashed ∧ psta ∉ st.asocList) ∧
      (∀ psta ∈ st.asocList, psta ∈ st.pool.hashed ∧ psta ∉ st.authList) ∧
      st.authList.Nodup ∧ st.asocList.Nodup ∧
      st.authListCnt = st.authList.length ∧ st.asocListCnt = st.asocList.length ∧
      ∀ psta ∈ st.pool.freeStaQueue, psta ∉ st.authList ∧ psta ∉ st.asocList) ∧
    ∀ r psta, st.pool.getStainfo r.addr2 = some psta → (st.onAssocReq r).2 = false →
      (st.SameSta (st.onAssocReq r).1 psta ↔
        r.pktLen < r.minLen ∨ (st.sta psta).assocReady = none) := by
  have hl := hrun.lists h₀
  have hfree : ∀ psta ∈ st.pool.freeStaQueue, psta ∉ st.pool.hashed := fun _ hmem =>
    hl.kept.free_disjoint hmem
  refine ⟨⟨?_, ?_, hl.authNodup, hl.asocNodup, hl.authCnt, hl.asocCnt, ?_⟩, ?_⟩
  · intro psta hmem
    exact ⟨hl.authHashed psta hmem, hl.apart psta hmem⟩
  · intro psta hmem
    exact ⟨hl.asocHashed psta hmem, fun hauth => hl.apart psta hauth hmem⟩
  · intro psta hmem
    exact ⟨fun hauth => hfree psta hmem (hl.authHashed psta hauth),
      fun hasoc => hfree psta hmem (hl.asocHashed psta hasoc)⟩
  · intro r psta hget hrej
    exact onAssocReq_rejected (hrun.cfg h₀).2 hget hrej

/-- Settings of an open network. -/
def openConfig : ApConfig where
  bssid := ⟨0x02, 0, 0, 0, 0, 0⟩
  ssid := [0x61]
  dot11AuthAlgrthm := .open_
  dot11PrivacyAlgrthm := noPrivacy
  wepKey _ := []
  accessCtrl _ := true
  wpaPsk := 0
  wpaGroupCipher := 0
  wpaPairwiseCipher := 0
  wpa2GroupCipher := 0
  wpa2PairwiseCipher := 0
  wpsBeacon := none
  authTo := 30
  assocTo := 30
  expireTo := 60
  maxNumSta := numSta
  wifiSpec := false
  activeKeepAliveCheck := true

/-- An access point nobody has talked to yet. -/
def idle (cfg : ApConfig) : Ap where
  cfg := cfg
  hwState := hwStateAp
  pool := StaPool.init
  sta _ := StaInfo.init
  bss := Bss.fresh
  authList := []
  authListCnt := 0
  asocList := []
  asocListCnt := 0
  staAid _ := none

theorem idle_started (cfg : ApConfig) (h : cfg.maxNumSta ≤ numSta) : (idle cfg).Started where
  hwState := rfl
  kept := StaPool.kept_init
  authList := rfl
  authListCnt := rfl
  asocList := rfl
  asocListCnt := rfl
  staAid _ := rfl
  aid _ := rfl
  caps := rfl
  maxNumSta := h

/-- The station that the examples are about. -/
def client : MacAddr := ⟨0x02, 0, 0, 0, 0, 1⟩

/-- An authentication frame of it, with the given frame control byte and body. -/
def authFrom (flags : UInt8) (body : List UInt8) : Mem := fun i =>
  ([0xb0, flags, 0, 0, 0x02, 0, 0, 0, 0, 0, 0x02, 0, 0, 0, 0, 1, 0x02, 0, 0, 0, 0, 0, 0, 0] ++
    body).getD i 0

/-- An association request of it, or a reassociation request, for a network. -/
def assocFrom (reassoc : Bool) (ssid : List UInt8) : AssocReq where
  addr2 := client
  reassoc := reassoc
  pktLen := 60
  parsed := true
  capability := 0x0421
  ssid := some ssid
  rates := [0x82, 0x84, 0x8b, 0x96, 0x30, 0x48]
  rsnIe := none
  wpaIe := none
  wpsIe := false
  htCap := some 0x0032
  p2pStatusCode := 0

/-- The station has authenticated. -/
def authed : Ap := (idle openConfig).step (.auth (authFrom 0 [0, 0, 1, 0, 0, 0]) 30)

/-- The station has associated. -/
def associated : Ap := authed.step (.assocReq (assocFrom false [0x61]))

theorem associated_run : Run (idle openConfig) associated :=
  (RunOf.start.step (.auth (authFrom 0 [0, 0, 1, 0, 0, 0]) 30) trivial trivial).step
    (.assocReq (assocFrom false [0x61])) trivial trivial

theorem station_lists_associated :
    associated.SameSta (associated.onAssocReq (assocFrom true [0x61, 0x62])).1 0 ↔
      (assocFrom true [0x61, 0x62]).pktLen < (assocFrom true [0x61, 0x62]).minLen ∨
        (associated.sta 0).assocReady = none :=
  (station_lists (idle_started openConfig (by decide)) associated_run).2 _ 0 (by decide +kernel)
    (by decide +kernel)

/-- A reassociation request for another network, rejected: the station stays on its list, but
its association ID and its state are gone. -/
theorem rejected_reassoc :
    (idle openConfig).Started ∧ Run (idle openConfig) associated ∧ associated.asocList = [0] ∧
      (associated.sta 0).aid = 1 ∧
      (associated.sta 0).assocReady = some wifiFwAssocSuccess ∧
      (associated.onAssocReq (assocFrom true [0x61, 0x62])).2 = false ∧
      (associated.onAssocReq (assocFrom true [0x61, 0x62])).1.asocList = [0] ∧
      ((associated.onAssocReq (assocFrom true [0x61, 0x62])).1.sta 0).aid = 0 ∧
      ((associated.onAssocReq (assocFrom true [0x61, 0x62])).1.sta 0).assocReady = none :=
  ⟨idle_started openConfig (by decide), associated_run, by decide +kernel⟩

end Ap

end Rtl8723bs
