/-
# Shared-key authentication

In shared-key mode a station sends a first frame, is sent a challenge of 128 bytes, and proves
that it has the WEP key by sending the challenge back encrypted.  What `OnAuth` sees to is
that there was a challenge and that the 128 bytes behind the head of the returned element are
those of the challenge.  It does not ask for the Privacy bit, without which nothing is
decrypted, nor for the length of the element.
-/
import Rtl8723bs.Ap.Lists

namespace Rtl8723bs

namespace Ap

variable {st st₀ : Ap} {psta : StaId} {pframe : Mem} {len : Nat}

/-! ## 1. What `OnAuth` does to the entries -/

theorem setSta_ne {q : StaId} (f : StaInfo → StaInfo) (hne : q ≠ psta) :
    (st.setSta psta f).sta q = st.sta q :=
  Function.update_of_ne hne _ _

/-- The algorithms of `OnAuth` in shared-key mode: a first frame is challenged, a third one
succeeds with the text of the challenge. -/
theorem authStep_shared {cfg : ApConfig} {s s' : StaInfo}
    (halg : cfg.authAlgorithm pframe len ≠ 0) (h : cfg.authStep pframe len s = .ok s') :
    (cfg.authSeq pframe len = 1 ∧
        s' = { s.trade wifiFwAuthNull wifiFwAuthState with
          chgTxt := List.replicate 128 78
          authalg := cfg.authAlgorithm pframe len
          authSeq := 2 }) ∨
      (cfg.authSeq pframe len = 3 ∧
        s' = { s.trade wifiFwAuthState wifiFwAuthSuccess with expireTo := cfg.assocTo } ∧
        ∃ p n, cfg.challengeIe pframe len = some (p, n) ∧
          cfg.challengeTxt pframe len p = s.chgTxt) := by
  unfold ApConfig.authStep at h
  dsimp only at h
  rw [if_neg (fun hopen => halg hopen.1)] at h
  split at h
  · rename_i hseq
    cases h
    exact Or.inl ⟨hseq, rfl⟩
  split at h
  · rename_i hseq
    split at h
    · cases h
    · rename_i p n hie
      split at h
      · cases h
      · split at h
        · rename_i htxt
          cases h
          exact Or.inr ⟨hseq, rfl, p, n, hie, htxt⟩
        · cases h
  · cases h

/-- `rtw_free_stainfo` changes the entry it frees, whose state loses a bit. -/
theorem freeStainfo_sta (st : Ap) (psta : StaId) :
    (∀ q, q ≠ psta → (st.freeStainfo psta).sta q = st.sta q) ∧
      ((st.freeStainfo psta).sta psta).state = (st.sta psta).state &&& ~~~fwLinked := by
  have hrelease : ∀ st₁ : Ap, (∀ q, q ≠ psta → (st₁.releaseAid psta).sta q = st₁.sta q) ∧
      ((st₁.releaseAid psta).sta psta).state = (st₁.sta psta).state := by
    intro st₁
    unfold Ap.releaseAid
    split
    · dsimp only
      split
      · refine ⟨fun q hne => Function.update_of_ne hne _ _, ?_⟩
        show ((st₁.setSta psta fun s => { s with aid := 0 }).sta psta).state = _
        rw [setSta_self]
      · exact ⟨fun _ _ => rfl, rfl⟩
    · exact ⟨fun _ _ => rfl, rfl⟩
  unfold Ap.freeStainfo
  dsimp only
  rw [unlinkAuth_eq]
  refine ⟨fun q hne => ?_, ?_⟩
  · rw [(hrelease _).1 q hne]
    exact (Function.update_of_ne hne _ _).trans (Function.update_of_ne hne _ _)
  · rw [(hrelease _).2, setSta_self]
    show ((Ap.setSta { st with pool := st.pool.freeStainfo (some psta) } psta fun s =>
      { s with state := s.state &&& ~~~fwLinked }).sta psta).state = _
    rw [setSta_self]

/-- The exchange with a station: it is freed, or its entry becomes what the algorithm says. -/
theorem authExchange_cases (st : Ap) (psta : StaId) (pframe : Mem) (len : Nat) :
    (∃ status, st.authExchange psta pframe len =
        ((st.setSta psta fun s => s.beginAuth st.cfg.authTo).freeStainfo psta,
          some ⟨getAddr2 pframe, 0, 2, status, none⟩)) ∨
      ∃ s, st.cfg.authStep pframe len ((st.sta psta).beginAuth st.cfg.authTo) = .ok s ∧
        (st.sta psta).authSeq + 1 = st.cfg.authSeq pframe len ∧
        st.authExchange psta pframe len =
          ((st.setSta psta fun s => s.beginAuth st.cfg.authTo).setSta psta fun _ =>
              { s with authSeq := st.cfg.authSeq pframe len + 1 }.endAuth,
            some (issueAuth (st.pool.macAddr psta)
              { s with authSeq := st.cfg.authSeq pframe len + 1 } statsSuccessful)) := by
  unfold Ap.authExchange
  dsimp only
  rw [setSta_self, beginAuth_authSeq]
  split
  · exact Or.inl ⟨statsOutOfAuthSeq, rfl⟩
  · rename_i hseq
    cases hstep : st.cfg.authStep pframe len ((st.sta psta).beginAuth st.cfg.authTo) with
    | error status =>
      have hstep' : (st.setSta psta fun s => s.beginAuth st.cfg.authTo).cfg.authStep pframe len
          ((st.sta psta).beginAuth st.cfg.authTo) = .error status := hstep
      rw [hstep']
      exact Or.inl ⟨status, rfl⟩
    | ok s =>
      have hstep' : (st.setSta psta fun s => s.beginAuth st.cfg.authTo).cfg.authStep pframe len
          ((st.sta psta).beginAuth st.cfg.authTo) = .ok s := hstep
      rw [hstep']
      exact Or.inr ⟨s, rfl, Decidable.not_not.mp hseq, rfl⟩

/-- The entry of the sender is there already, or it is new, or there is none left. -/
theorem authEntry_cases (hl : st.Lists) (sa : MacAddr) :
    st.authEntry sa = (st, none) ∨
      ∃ psta, (st.authEntry sa).2 = some psta ∧ (st.authEntry sa).1.cfg = st.cfg ∧
        ((st.pool.getStainfo sa = some psta ∧ (st.authEntry sa).1.sta = st.sta ∧
            (st.authEntry sa).1.pool = st.pool) ∨
          (st.pool.getStainfo sa = none ∧ psta ∉ st.pool.hashed ∧
            (st.authEntry sa).1.sta = Function.update st.sta psta
              { StaInfo.init with state := wifiFwAuthNull } ∧
            (∀ q ∈ (st.authEntry sa).1.pool.hashed, q ≠ psta → q ∈ st.pool.hashed) ∧
            ∀ q, q ≠ psta → (st.authEntry sa).1.pool.macAddr q = st.pool.macAddr q)) := by
  unfold Ap.authEntry
  cases hget : st.pool.getStainfo sa with
  | some psta =>
    refine Or.inr ⟨psta, rfl, ?_, Or.inl ⟨rfl, ?_, ?_⟩⟩
    all_goals
      dsimp only
      rw [linkAuth_eq, unlinkAsoc_eq]
  | none =>
    rcases hl.kept.allocStainfo_cases sa with heq | ⟨psta, rest, -, hfresh, heq, hperm⟩
    · have hap : st.allocStainfo sa = (st, none) := by
        unfold Ap.allocStainfo
        rw [heq]
      dsimp only
      rw [hap]
      exact Or.inl rfl
    · have hap : st.allocStainfo sa =
          ({ st with
              pool := { st.pool with
                freeStaQueue := rest
                macAddr := Function.update st.pool.macAddr psta sa
                staHash := Buckets.insertTail st.pool.staHash (wifiMacHash sa) psta
                asocStaCount := st.pool.asocStaCount + 1 }
              sta := Function.update st.sta psta StaInfo.init
              bss := { st.bss with caps := st.bss.caps.wipe psta } }, some psta) := by
        unfold Ap.allocStainfo
        rw [heq]
      dsimp only
      rw [hap]
      dsimp only
      rw [linkAuth_eq]
      refine Or.inr ⟨psta, rfl, rfl, Or.inr ⟨rfl, hfresh, ?_, ?_, ?_⟩⟩
      · show Function.update (Function.update st.sta psta StaInfo.init) psta
          { Function.update st.sta psta StaInfo.init psta with
            state := wifiFwAuthNull
            authSeq := 0 } = _
        rw [Function.update_idem, Function.update_self]
        rfl
      · intro q hq hne
        exact (List.mem_cons.mp (hperm.mem_iff.mp hq)).resolve_left hne
      · intro q hne
        exact Function.update_of_ne hne _ _

/-! ## 2. What a frame does in shared-key mode -/

/-- The bit of `WIFI_FW_AUTH_SUCCESS` in a state. -/
theorem authSuccess_iff (state : BitVec 32) :
    state &&& wifiFwAuthSuccess = 0 ↔ state.getLsbD 10 = false := by
  have hmask : wifiFwAuthSuccess = BitVec.twoPow 32 10 := by decide
  rw [hmask]
  exact and_twoPow_eq_zero_iff state (by decide)

/-- A station that was not authenticated is now. -/
def Gains (st st' : Ap) (psta : StaId) : Prop :=
  (st.sta psta).state &&& wifiFwAuthSuccess = 0 ∧ (st'.sta psta).state &&& wifiFwAuthSuccess ≠ 0

theorem beginAuth_state (s : StaInfo) (authTo : Nat) : (s.beginAuth authTo).state = s.state := by
  unfold StaInfo.beginAuth
  split <;> rfl

theorem beginAuth_chgTxt (s : StaInfo) (authTo : Nat) :
    (s.beginAuth authTo).chgTxt = s.chgTxt := by
  unfold StaInfo.beginAuth
  split <;> rfl

theorem endAuth_state (s : StaInfo) : s.endAuth.state = s.state := by
  unfold StaInfo.endAuth
  split <;> rfl

theorem endAuth_chgTxt (s : StaInfo) : s.endAuth.chgTxt = s.chgTxt := by
  unfold StaInfo.endAuth
  split <;> rfl

theorem trade_authSuccess (s : StaInfo) (old new : BitVec 32) :
    (s.trade old new).state.getLsbD 10 =
      ((s.state.getLsbD 10 && !old.getLsbD 10) || new.getLsbD 10) := by
  simp only [StaInfo.trade, BitVec.getLsbD_or, BitVec.getLsbD_and, BitVec.getLsbD_not,
    Nat.reduceLT, decide_true, Bool.true_and]

/-- The end of `OnAuth` keeps the sequence number or starts over. -/
theorem endAuth_authSeq_ne {s : StaInfo} (h : s.authSeq ≠ 2) : s.endAuth.authSeq ≠ 2 := by
  unfold StaInfo.endAuth
  split
  · exact Nat.zero_ne_add_one 1
  · exact h

/-- The answer to a first frame has the challenge. -/
theorem issueAuth_challenge {s : StaInfo} {alg : Nat} (halg : alg ≠ 0) {seq : Nat}
    (hseq : seq = 1) (ra : MacAddr) :
    (issueAuth ra
      { s.trade wifiFwAuthNull wifiFwAuthState with
        chgTxt := List.replicate 128 78
        authalg := alg
        authSeq := seq + 1 } statsSuccessful).challenge = some (List.replicate 128 78) := by
  have hbit : (s.trade wifiFwAuthNull wifiFwAuthState).state &&& wifiFwAuthState ≠ 0 := by
    have hmask : wifiFwAuthState = BitVec.twoPow 32 9 := by decide
    intro hzero
    rw [hmask, and_twoPow_eq_zero_iff _ (by decide), StaInfo.trade, BitVec.getLsbD_or] at hzero
    simp at hzero
  unfold issueAuth
  dsimp only
  rw [if_neg (not_not_intro rfl), if_pos ⟨congrArg (· + 1) hseq, hbit, halg⟩]

/-- What an authentication frame does: nothing, or it goes to the exchange with the entry of
the sender. -/
theorem onAuth_cases (hl : st.Lists) (hmode : st.cfg.authMode = .shared) (pframe : Mem)
    (len : Nat) :
    (st.onAuth pframe len).1 = st ∨
      st.cfg.authAlgorithm pframe len ≠ 0 ∧
        ∃ psta, (st.authEntry (getAddr2 pframe)).2 = some psta ∧
          st.onAuth pframe len = (st.authEntry (getAddr2 pframe)).1.authExchange psta pframe len := by
  unfold Ap.onAuth
  split
  · exact Or.inl rfl
  dsimp only
  split
  · exact Or.inl rfl
  rename_i halg
  split
  · exact Or.inl rfl
  rcases authEntry_cases hl (getAddr2 pframe) with heq | ⟨psta, hentry, -⟩
  · rw [heq]
    exact Or.inl rfl
  · rw [hentry]
    exact Or.inr ⟨fun hzero => halg (Or.inr ⟨hzero, hmode⟩), psta, rfl, rfl⟩

/-- **Who becomes authenticated** has been found for a third frame, in an exchange that waits
for it, and the frame has the text of the challenge. -/
theorem onAuth_gains (hl : st.Lists) (hmode : st.cfg.authMode = .shared)
    (hgain : st.Gains (st.onAuth pframe len).1 psta) :
    st.pool.getStainfo (getAddr2 pframe) = some psta ∧ (st.sta psta).authSeq = 2 ∧
      st.cfg.authSeq pframe len = 3 ∧ ∃ p n, st.cfg.challengeIe pframe len = some (p, n) ∧
        st.cfg.challengeTxt pframe len p = (st.sta psta).chgTxt := by
  obtain ⟨hwas, his⟩ := hgain
  rw [authSuccess_iff] at hwas
  rw [ne_eq, authSuccess_iff, Bool.not_eq_false] at his
  rcases onAuth_cases hl hmode pframe len with heq | ⟨halg, p, hp, heq⟩
  · rw [heq, hwas] at his
    cases his
  rcases authEntry_cases hl (getAddr2 pframe) with hnone | ⟨p', hp', hcfg, hentry⟩
  · rw [hnone] at hp
    cases hp
  cases hp.symm.trans hp'
  rw [heq] at his
  generalize (st.authEntry (getAddr2 pframe)).1 = st₁ at *
  -- the entry as the exchange finds it
  have hbefore : ((st₁.sta psta).state).getLsbD 10 = false := by
    rcases hentry with ⟨-, hsta, -⟩ | ⟨-, -, hsta, -⟩
    · rw [hsta, hwas]
    · rw [hsta]
      rcases eq_or_ne psta p with rfl | hne
      · rw [Function.update_self]
        decide
      · rw [Function.update_of_ne hne, hwas]
  rcases authExchange_cases st₁ p pframe len with ⟨status, hx⟩ | ⟨s, hstep, hseq, hx⟩
  · rw [hx] at his
    have hfree := freeStainfo_sta (st₁.setSta p fun s => s.beginAuth st₁.cfg.authTo) p
    rcases eq_or_ne psta p with rfl | hne
    · rw [hfree.2, setSta_self, beginAuth_state, BitVec.getLsbD_and, hbefore] at his
      cases his
    · rw [hfree.1 psta hne, setSta_ne _ hne, hbefore] at his
      cases his
  · rw [hx] at his
    rcases eq_or_ne psta p with rfl | hne
    · rw [setSta_self, endAuth_state] at his
      rw [hcfg] at hstep hseq
      rcases authStep_shared halg hstep with ⟨-, rfl⟩ | ⟨hthree, -, q, n, hie, htxt⟩
      · rw [trade_authSuccess, beginAuth_state, hbefore] at his
        exact absurd his (by decide)
      · have htwo : (st₁.sta psta).authSeq = 2 := by omega
        rcases hentry with ⟨hget, hsta, -⟩ | ⟨-, -, hsta, -⟩
        · rw [hsta] at htwo htxt
          rw [beginAuth_chgTxt] at htxt
          exact ⟨hget, htwo, hthree, q, n, hie, htxt⟩
        · rw [hsta, Function.update_self] at htwo
          exact absurd htwo (by decide)
    · rw [setSta_ne _ hne, setSta_ne _ hne, hbefore] at his
      cases his

/-- **Who waits for a third frame** did so before, or has just been sent the challenge. -/
theorem onAuth_challenged (hl : st.Lists) (hmode : st.cfg.authMode = .shared)
    (hmem : psta ∈ (st.onAuth pframe len).1.pool.hashed)
    (hwait : ((st.onAuth pframe len).1.sta psta).authSeq = 2) :
    (psta ∈ st.pool.hashed ∧ (st.sta psta).authSeq = 2 ∧
        ((st.onAuth pframe len).1.sta psta).chgTxt = (st.sta psta).chgTxt ∧
        (st.onAuth pframe len).1.pool.macAddr psta = st.pool.macAddr psta) ∨
      st.cfg.authSeq pframe len = 1 ∧ ∃ r, (st.onAuth pframe len).2 = some r ∧
        r.ra = (st.onAuth pframe len).1.pool.macAddr psta ∧
        r.challenge = some ((st.onAuth pframe len).1.sta psta).chgTxt := by
  rcases onAuth_cases hl hmode pframe len with heq | ⟨halg, p, hp, heq⟩
  · rw [heq] at hmem hwait ⊢
    exact Or.inl ⟨hmem, hwait, rfl, rfl⟩
  rcases authEntry_cases hl (getAddr2 pframe) with hnone | ⟨p', hp', hcfg, hentry⟩
  · rw [hnone] at hp
    cases hp
  cases hp.symm.trans hp'
  rw [heq] at hmem hwait ⊢
  generalize (st.authEntry (getAddr2 pframe)).1 = st₁ at *
  -- a station the frame is not from
  have hother : psta ≠ p → psta ∈ st₁.pool.hashed →
      psta ∈ st.pool.hashed ∧ st₁.sta psta = st.sta psta ∧
        st₁.pool.macAddr psta = st.pool.macAddr psta := by
    intro hne hin
    rcases hentry with ⟨-, hsta, hpool⟩ | ⟨-, -, hsta, hhash, hmac⟩
    · rw [hpool] at hin ⊢
      exact ⟨hin, by rw [hsta], rfl⟩
    · exact ⟨hhash psta hin hne, by rw [hsta, Function.update_of_ne hne], hmac psta hne⟩
  rcases authExchange_cases st₁ p pframe len with ⟨status, hx⟩ | ⟨s, hstep, hseq, hx⟩
  · rw [hx] at hmem hwait ⊢
    dsimp only at hmem hwait ⊢
    have hfree := freeStainfo_sta (st₁.setSta p fun s => s.beginAuth st₁.cfg.authTo) p
    obtain ⟨sta, staAid, hst⟩ :=
      freeStainfo_eq (st₁.setSta p fun s => s.beginAuth st₁.cfg.authTo) p
    have hpool := congrArg Ap.pool hst
    dsimp only at hpool
    rw [hpool] at hmem ⊢
    obtain ⟨hin, hne⟩ := (StaPool.mem_hashed_freeStainfo _ _ _).mp hmem
    obtain ⟨hin', hsta, hmac⟩ := hother hne hin
    rw [hfree.1 psta hne, setSta_ne _ hne, hsta] at hwait ⊢
    exact Or.inl ⟨hin', hwait, rfl, hmac⟩
  · rw [hx] at hmem hwait ⊢
    dsimp only at hmem hwait ⊢
    rcases eq_or_ne psta p with rfl | hne
    · rw [setSta_self] at hwait ⊢
      rw [endAuth_chgTxt]
      rw [hcfg] at hstep hwait ⊢
      rcases authStep_shared halg hstep with ⟨hone, rfl⟩ | ⟨hthree, -⟩
      · exact Or.inr ⟨hone, _, rfl, rfl, issueAuth_challenge halg hone _⟩
      · rw [hthree] at hwait
        exact absurd hwait (endAuth_authSeq_ne (show 3 + 1 ≠ 2 by decide))
    · obtain ⟨hin', hsta, hmac⟩ := hother hne hmem
      rw [setSta_ne _ hne, setSta_ne _ hne, hsta] at hwait ⊢
      exact Or.inl ⟨hin', hwait, rfl, hmac⟩

/-! ## 3. Runs -/

/-- An authentication frame that was heard, and what was sent in answer. -/
structure Heard where
  pframe : Mem
  len : Nat
  reply : Option AuthReply

/-- Authentication frames one after the other, with what was heard and sent.  `sends` is
whether `issue_auth` gets a frame to send; the answer to a first frame is sent. -/
inductive AuthRun (st₀ : Ap) : List Heard → Ap → Prop
  | start : AuthRun st₀ [] st₀
  | step {log : List Heard} {st : Ap} (hrun : AuthRun st₀ log st) (pframe : Mem) (len : Nat)
      (sends : Bool) (hsends : st.cfg.authSeq pframe len = 1 → sends = true) :
      AuthRun st₀
        (log ++ [⟨pframe, len, if sends then (st.onAuth pframe len).2 else none⟩])
        (st.onAuth pframe len).1

/-- An access point in shared-key mode where no exchange has begun. -/
structure SharedStart (st : Ap) : Prop where
  started : st.Started
  shared : st.cfg.dot11AuthAlgrthm = .shared
  quiet : ∀ psta ∈ st.pool.hashed, (st.sta psta).authSeq ≠ 2

/-- The station was sent this text as a challenge, in answer to a first frame. -/
def Challenged (log : List Heard) (st : Ap) (psta : StaId) (txt : List UInt8) : Prop :=
  ∃ h ∈ log, st.cfg.authSeq h.pframe h.len = 1 ∧
    ∃ r, h.reply = some r ∧ r.ra = st.pool.macAddr psta ∧ r.challenge = some txt

/-- What shared-key authentication promises of the frame with which a station succeeds: it is
a third frame of that station, has the Privacy bit and was decrypted, and its challenge element
has the 128 bytes that were sent to the station. -/
structure KeyProved (log : List Heard) (st : Ap) (psta : StaId) (pframe : Mem) (len : Nat) :
    Prop where
  sender : st.pool.getStainfo (getAddr2 pframe) = some psta
  seq : st.cfg.authSeq pframe len = 3
  privacy : getPrivacy pframe = true
  decrypted : st.cfg.authFrame pframe len = rtwWepDecrypt st.cfg.wepKey pframe len
  challenge : ∃ p, st.cfg.challengeIe pframe len = some (p, 128) ∧
    Challenged log st psta (st.cfg.challengeTxt pframe len p)

theorem SharedStart.authMode (h : st.SharedStart) : st.cfg.authMode = .shared := by
  unfold ApConfig.authMode
  rw [h.shared]
  rfl

theorem onAuth_lists (hl : st.Lists) (pframe : Mem) (len : Nat) :
    (st.onAuth pframe len).1.Lists ∧ (st.onAuth pframe len).1.cfg = st.cfg := by
  refine hl.preserves (P := fun st₁ => st₁.cfg = st.cfg) rfl (.auth pframe len) trivial ?_
  intro st₁ a _ h _ _
  exact (act_cfg st₁ a).1.trans h

/-- The settings stay, and every station that is waited for has been sent its challenge. -/
theorem AuthRun.challenged {log : List Heard} (h₀ : st₀.SharedStart)
    (hrun : AuthRun st₀ log st) :
    st.Lists ∧ st.cfg = st₀.cfg ∧ ∀ psta ∈ st.pool.hashed, (st.sta psta).authSeq = 2 →
      Challenged log st psta (st.sta psta).chgTxt := by
  induction hrun with
  | start => exact ⟨h₀.started.lists, rfl, fun psta hmem hwait => absurd hwait (h₀.quiet psta hmem)⟩
  | @step log st hrun pframe len sends hsends ih =>
    obtain ⟨hl, hcfg, hsent⟩ := ih
    have hmode : st.cfg.authMode = .shared := hcfg ▸ h₀.authMode
    obtain ⟨hl', hcfg'⟩ := onAuth_lists hl pframe len
    refine ⟨hl', hcfg'.trans hcfg, fun psta hmem hwait => ?_⟩
    rcases onAuth_challenged hl hmode hmem hwait with ⟨hold, htwo, htxt, hmac⟩ | ⟨hone, r, hr, hra, hch⟩
    · obtain ⟨h, hin, hseq, r, hr, hra, hch⟩ := hsent psta hold htwo
      refine ⟨h, List.mem_append_left _ hin, hcfg'.symm ▸ hseq, r, hr, hmac.symm ▸ hra, ?_⟩
      rw [htxt]
      exact hch
    · refine ⟨_, List.mem_append_right _ (List.mem_singleton.mpr rfl), hcfg'.symm ▸ hone, r, ?_, hra,
        hch⟩
      dsimp only
      rw [hsends hone, if_pos rfl, hr]

/-- **Shared-key authentication proves the key** exactly if the frame with which the station
succeeds has the Privacy bit and a challenge element of 128 bytes.  That there was a challenge,
and that the frame has its text, holds in any case. -/
theorem shared_key_iff {log : List Heard} (h₀ : st₀.SharedStart) (hrun : AuthRun st₀ log st)
    (hgain : st.Gains (st.onAuth pframe len).1 psta) :
    KeyProved log st psta pframe len ↔
      getPrivacy pframe = true ∧ ∃ p, st.cfg.challengeIe pframe len = some (p, 128) := by
  obtain ⟨hl, hcfg, hsent⟩ := hrun.challenged h₀
  have hmode : st.cfg.authMode = .shared := hcfg ▸ h₀.authMode
  obtain ⟨hget, htwo, hthree, q, n, hie, htxt⟩ := onAuth_gains hl hmode hgain
  have hmem := (hl.kept.getStainfo_some hget).1
  constructor
  · intro h
    obtain ⟨p, hp, -⟩ := h.challenge
    exact ⟨h.privacy, p, hp⟩
  · rintro ⟨hpriv, p, hp⟩
    refine ⟨hget, hthree, hpriv, if_pos hpriv, p, hp, ?_⟩
    cases hie.symm.trans hp
    rw [htxt]
    exact hsent psta hmem htwo

/-- Settings of a network with shared-key authentication. -/
def sharedConfig : ApConfig :=
  { openConfig with
    dot11AuthAlgrthm := .shared
    dot11PrivacyAlgrthm := encWep40
    wepKey := fun i => if i = 0 then [0x6b, 0x65, 0x79, 0x31, 0x32] else [] }

theorem sharedStart_idle : (idle sharedConfig).SharedStart where
  started := idle_started sharedConfig (by decide)
  shared := rfl
  quiet psta _ := Nat.zero_ne_add_one 1

/-- A first frame of shared-key authentication. -/
def firstFrame : Mem := authFrom 0 [1, 0, 1, 0, 0, 0]

/-- The station is waited for. -/
def waiting : Ap := ((idle sharedConfig).onAuth firstFrame 30).1

theorem waiting_run : AuthRun (idle sharedConfig)
    [⟨firstFrame, 30, ((idle sharedConfig).onAuth firstFrame 30).2⟩] waiting :=
  AuthRun.start.step firstFrame 30 true fun _ => rfl

/-- A third frame in the clear, with the challenge where an encrypted frame has it. -/
def clearFrame : Mem :=
  authFrom 0 ([1, 0, 3, 0, 0, 0, 0, 0, 0, 0, 16, 128] ++ List.replicate 128 78)

theorem clearFrame_gains : waiting.Gains (waiting.onAuth clearFrame 164).1 0 := by
  constructor
  · decide +kernel
  · decide +kernel

theorem shared_key_iff_clear :
    KeyProved [⟨firstFrame, 30, ((idle sharedConfig).onAuth firstFrame 30).2⟩] waiting 0
        clearFrame 164 ↔
      getPrivacy clearFrame = true ∧
        ∃ p, waiting.cfg.challengeIe clearFrame 164 = some (p, 128) :=
  shared_key_iff sharedStart_idle waiting_run clearFrame_gains

/-- The station succeeds without the key: the third frame has no Privacy bit, nothing is
decrypted, and the challenge in the clear is accepted. -/
theorem clear_challenge_accepted :
    (idle sharedConfig).SharedStart ∧
      AuthRun (idle sharedConfig)
        [⟨firstFrame, 30, ((idle sharedConfig).onAuth firstFrame 30).2⟩] waiting ∧
      waiting.Gains (waiting.onAuth clearFrame 164).1 0 ∧ getPrivacy clearFrame = false ∧
      ¬KeyProved [⟨firstFrame, 30, ((idle sharedConfig).onAuth firstFrame 30).2⟩] waiting 0
        clearFrame 164 :=
  ⟨sharedStart_idle, waiting_run, clearFrame_gains, by decide,
    fun h => absurd h.privacy (by decide)⟩

end Ap

end Rtl8723bs
