/-
# Answers to a request to join

`OnAssocRsp` walks over the elements of an association response and hands some of them to their
handlers; `OnAuthClient` looks for the challenge of a shared-key authentication and copies it.  The
walk asks only whether an element begins in the frame, the handlers do not know where it ends, and
the challenge is copied with its own length byte.

`join_rsp_iff` says for which frames both stay in the frame and in what they fill.
-/
import Mathlib.Logic.Relation
import Rtl8723bs.Mlme.IeHandlers

namespace Rtl8723bs

namespace IeHandlers

/-! ## 1. One element of an association response -/

def wlanEidErpInfo : UInt8 := 42

def wlanEidHtCapability : UInt8 := 45

def wlanEidHtExtraInfo : UInt8 := 61

/-- `WMM_PARA_OUI`. -/
def wmmParaOui : List UInt8 := [0x00, 0x50, 0xf2, 0x02, 0x01, 0x01]

/-- What `OnAssocRsp` asks of the adapter: its address, whether it waits for the answer, and has it
already; and what `HT_caps_handler` restricts the rates to. -/
structure AssocEnv extends Env where
  macAddr : MacAddr
  ready : Bool
  assocSuccess : Bool
  supported : Nat → UInt8
  rateMask : Nat → UInt8

/-- What is read of a vendor element; `none` is a search that never ends. -/
def vendorReads (e : Env) (m : Mem) (p : Nat) : Option (List (Nat × Nat)) :=
  if readBytes m (p + 2) 6 = wmmParaOui then some ((p + 2, 6) :: wmmReads e p)
  else if readBytes m (p + 2) 4 = wfdOui then
    (wfdReads e m p).map fun rs => (p + 2, 6) :: (p + 2, 4) :: rs
  else some [(p + 2, 6), (p + 2, 4)]

/-- What is read of the element at `p` between its identifier and the step to the next one. -/
def elemReads (e : Env) (f : HtFlags) (m : Mem) (p : Nat) : Option (List (Nat × Nat)) :=
  if m p = wlanEidVendorSpecific then vendorReads e m p
  else if m p = wlanEidHtCapability then some ((p + 1, 1) :: htCapsReads e f m p)
  else if m p = wlanEidHtExtraInfo then some ((p + 1, 1) :: htInfoReads e m p)
  else if m p = wlanEidErpInfo then some ((p + 1, 1) :: erpReads m p)
  else some []

/-- The flags behind the element. -/
def elemFlags (e : Env) (f : HtFlags) (m : Mem) (p : Nat) : HtFlags :=
  if m p = wlanEidHtCapability then htCapsFlags e f m p else f

/-- The element at `p` goes to the loop of `HT_caps_handler`. -/
def FillsHtCaps (e : Env) (m : Mem) (p : Nat) : Prop :=
  m p = wlanEidHtCapability ∧ e.htOption = true

instance (e : Env) (m : Mem) (p : Nat) : Decidable (FillsHtCaps e m p) :=
  inferInstanceAs (Decidable (_ ∧ _))

/-- What a vendor element has to have in the frame. -/
def VendorFits (e : Env) (m : Mem) (p limit : Nat) : Prop :=
  p + 8 ≤ limit ∧
    if readBytes m (p + 2) 6 = wmmParaOui then e.qosOption → p + 26 ≤ limit
    else readBytes m (p + 2) 4 = wfdOui → e.miracast → WfdFits m p limit

/-- **Elements that go well.**  The header lies in the frame, and so does what the handler reads,
whatever the length byte says; what fills `HT_caps` clears nothing behind it. -/
def ElementFits (e : Env) (f : HtFlags) (m : Mem) (p limit : Nat) : Prop :=
  p + 2 ≤ limit ∧
    if m p = wlanEidVendorSpecific then VendorFits e m p limit
    else if m p = wlanEidHtCapability then
      e.htOption → HtCapsFits e f m p limit ∧
        ∀ j, htCapsSize ≤ j → j < length m p → m (p + 2 + j) = 0xff
    else if m p = wlanEidHtExtraInfo then
      e.htOption → length m p ≤ htInfoSize → p + 2 + length m p ≤ limit
    else if m p = wlanEidErpInfo then length m p ≤ 1 → p + 2 + length m p ≤ limit
    else True

section Element

variable {e : AssocEnv} {f : HtFlags} {m : Mem} {p limit : Nat}

/-- What is wanted of one element. -/
structure ElementStays (e : AssocEnv) (f : HtFlags) (m : Mem) (p limit : Nat) : Prop where
  reads : ∃ rs, elemReads e.toEnv f m p = some rs ∧ Below limit rs
  header : p + 2 ≤ limit
  htCaps : FillsHtCaps e.toEnv m p → HtCapsStays e.supported e.rateMask m p

theorem vendorReads_iff {e : Env} (hkind : m p = wlanEidVendorSpecific) :
    (∃ rs, vendorReads e m p = some rs ∧ Below limit rs) ↔ VendorFits e m p limit := by
  unfold vendorReads VendorFits
  by_cases hwmm : readBytes m (p + 2) 6 = wmmParaOui
  · rw [if_pos hwmm, if_pos hwmm, wmmReads]
    simp only [Option.some.injEq, exists_eq_left', below_cons, below_ite, below_nil, and_true]
    rfl
  · rw [if_neg hwmm, if_neg hwmm]
    by_cases houi : readBytes m (p + 2) 4 = wfdOui
    · rw [if_pos houi]
      constructor
      · rintro ⟨rs, hrs, hbelow⟩
        obtain ⟨rs', hrs', rfl⟩ := Option.map_eq_some_iff.mp hrs
        simp only [below_cons] at hbelow
        exact ⟨hbelow.1, fun _ => (wfdReads_iff hkind houi hbelow.2.1).mp ⟨rs', hrs', hbelow.2.2⟩⟩
      · rintro ⟨hfirst, hfits⟩
        obtain ⟨rs, hrs, hbelow⟩ := (wfdReads_iff hkind houi (by omega)).mpr (hfits houi)
        refine ⟨_, by rw [hrs, Option.map_some], ?_⟩
        simp only [below_cons]
        exact ⟨hfirst, by omega, hbelow⟩
    · rw [if_neg houi]
      simp only [houi, false_imp_iff, and_true, Option.some.injEq, exists_eq_left', below_cons,
        below_nil]
      exact ⟨And.left, fun h => ⟨h, by omega⟩⟩

/-- **An element is handled as it should** exactly if it goes well. -/
theorem elementStays_iff : ElementStays e f m p limit ↔ ElementFits e.toEnv f m p limit := by
  rw [ElementFits]
  by_cases hvendor : m p = wlanEidVendorSpecific
  · rw [if_pos hvendor]
    have hnot : ¬ FillsHtCaps e.toEnv m p := fun h => absurd (hvendor.symm.trans h.1) (by decide)
    have hreads : elemReads e.toEnv f m p = vendorReads e.toEnv m p := if_pos hvendor
    constructor
    · rintro ⟨hstays, hhead, -⟩
      exact ⟨hhead, (vendorReads_iff hvendor).mp (hreads ▸ hstays)⟩
    · rintro ⟨hhead, hfits⟩
      exact ⟨hreads ▸ (vendorReads_iff hvendor).mpr hfits, hhead, fun h => absurd h hnot⟩
  · rw [if_neg hvendor]
    by_cases hcap : m p = wlanEidHtCapability
    · rw [if_pos hcap]
      have hreads : elemReads e.toEnv f m p = some ((p + 1, 1) :: htCapsReads e.toEnv f m p) := by
        rw [elemReads, if_neg hvendor, if_pos hcap]
      constructor
      · rintro ⟨⟨rs, hrs, hbelow⟩, hhead, hstays⟩
        obtain rfl := Option.some.inj (hreads.symm.trans hrs)
        rw [below_cons, below_htCapsReads] at hbelow
        exact ⟨hhead, fun hht => ⟨hbelow.2 hht, (htCapsStays_iff _ _ m p).mp (hstays ⟨hcap, hht⟩)⟩⟩
      · rintro ⟨hhead, hfits⟩
        refine ⟨⟨_, hreads, ?_⟩, hhead, fun h => (htCapsStays_iff _ _ m p).mpr (hfits h.2).2⟩
        rw [below_cons, below_htCapsReads]
        exact ⟨hhead, fun hht => (hfits hht).1⟩
    · rw [if_neg hcap]
      have hnot : ¬ FillsHtCaps e.toEnv m p := fun h => hcap h.1
      have hstays : ElementStays e f m p limit ↔
          p + 2 ≤ limit ∧ ∃ rs, elemReads e.toEnv f m p = some rs ∧ Below limit rs :=
        ⟨fun h => ⟨h.header, h.reads⟩, fun h => ⟨h.2, h.1, fun hfills => absurd hfills hnot⟩⟩
      rw [hstays, elemReads, if_neg hvendor, if_neg hcap]
      refine and_congr_right fun hhead => ?_
      by_cases hinfo : m p = wlanEidHtExtraInfo
      · simp only [if_pos hinfo, Option.some.injEq, exists_eq_left', below_cons, htInfoReads,
          below_ite, below_nil, and_true, and_imp]
        exact and_iff_right hhead
      · by_cases herp : m p = wlanEidErpInfo
        · simp only [if_neg hinfo, if_pos herp, Option.some.injEq, exists_eq_left', below_cons,
            erpReads, below_ite, below_nil, and_true]
          exact and_iff_right hhead
        · simp [if_neg hinfo, if_neg herp]

end Element

/-! ## 2. The walk of `OnAssocRsp` -/

/-- What a walk reads, and which elements go to the loop of `HT_caps_handler`. -/
structure Walked where
  reads : List (Nat × Nat)
  htCaps : List Nat

/-- The loop: an element is looked at if its first byte is below `pktLen`. -/
def walk (e : Env) (m : Mem) (pktLen : Nat) : Nat → HtFlags → Nat → Option Walked
  | 0, _, _ => none
  | n + 1, f, p =>
    if p < pktLen then do
      let rs ← elemReads e f m p
      let w ← walk e m pktLen n (elemFlags e f m p) (p + ieSize m p)
      some {
        reads := (p, 1) :: rs ++ (p + 1, 1) :: w.reads
        htCaps := if FillsHtCaps e m p then p :: w.htCaps else w.htCaps }
    else some ⟨[], []⟩

/-- One round of it, on the flags and the place. -/
def Round (e : Env) (m : Mem) (pktLen : Nat) (s t : HtFlags × Nat) : Prop :=
  s.2 < pktLen ∧ t = (elemFlags e s.1 m s.2, s.2 + ieSize m s.2)

/-- The walk from `s` comes to `t`. -/
abbrev Rounds (e : Env) (m : Mem) (pktLen : Nat) : HtFlags × Nat → HtFlags × Nat → Prop :=
  Relation.ReflTransGen (Round e m pktLen)

section Walk

variable {e : AssocEnv} {f : HtFlags} {m : Mem} {p pktLen n : Nat}

/-- What is wanted of the elements a walk handles. -/
def Walked.Stays (e : AssocEnv) (m : Mem) (pktLen : Nat) (w : Walked) : Prop :=
  Below pktLen w.reads ∧ ∀ p ∈ w.htCaps, HtCapsStays e.supported e.rateMask m p

/-- One round is as it should be if the element is and the rest of the walk is. -/
theorem walk_succ (hp : p < pktLen) :
    (∃ w, walk e.toEnv m pktLen (n + 1) f p = some w ∧ w.Stays e m pktLen) ↔
      ElementStays e f m p pktLen ∧ ∃ w, walk e.toEnv m pktLen n (elemFlags e.toEnv f m p)
        (p + ieSize m p) = some w ∧ w.Stays e m pktLen := by
  rw [walk, if_pos hp]
  simp only [Option.bind_eq_bind, Option.bind_eq_some_iff, Option.some.injEq]
  constructor
  · rintro ⟨w, ⟨rs, hrs, w', hw', rfl⟩, hbelow, hcaps⟩
    simp only [List.cons_append, below_cons, below_append] at hbelow
    obtain ⟨-, hreads, hhead, hrest⟩ := hbelow
    refine ⟨⟨⟨rs, hrs, hreads⟩, by omega, fun hfills => hcaps p ?_⟩, w', hw', hrest, fun q hq => ?_⟩
    · rw [if_pos hfills]
      exact List.mem_cons_self
    · refine hcaps q ?_
      dsimp only
      split
      · exact List.mem_cons_of_mem _ hq
      · exact hq
  · rintro ⟨⟨⟨rs, hrs, hreads⟩, hhead, hhere⟩, w, hw, hrest, hcaps⟩
    refine ⟨_, ⟨rs, hrs, w, hw, rfl⟩, ?_, fun q hq => ?_⟩
    · simp only [List.cons_append, below_cons, below_append]
      exact ⟨by omega, hreads, by omega, hrest⟩
    · dsimp only at hq
      split at hq
      · rename_i hfills
        rcases List.mem_cons.mp hq with rfl | hq
        · exact hhere hfills
        · exact hcaps q hq
      · exact hcaps q hq

/-- **The walk stays in the frame**, and what fills `HT_caps` in it, exactly if every element it
comes to goes well. -/
theorem walk_iff (e : AssocEnv) (f : HtFlags) (m : Mem) (hrounds : pktLen + 1 ≤ p + n)
    (hn : 1 ≤ n) :
    (∃ w, walk e.toEnv m pktLen n f p = some w ∧ w.Stays e m pktLen) ↔
      ∀ t, Rounds e.toEnv m pktLen (f, p) t → t.2 < pktLen →
        ElementFits e.toEnv t.1 m t.2 pktLen := by
  induction n generalizing f p with
  | zero => omega
  | succ n ih =>
    by_cases hp : p < pktLen
    · have hsize : 2 ≤ ieSize m p := Nat.le_add_left 2 _
      rw [walk_succ hp, elementStays_iff, ih _ (by omega) (by omega)]
      constructor
      · rintro ⟨hhere, hrest⟩ t hrun ht
        rcases hrun.cases_head with rfl | ⟨s, ⟨-, rfl⟩, hrun⟩
        · exact hhere
        · exact hrest t hrun ht
      · intro h
        exact ⟨h _ .refl hp, fun t hrun => h t (hrun.head ⟨hp, rfl⟩)⟩
    · rw [walk, if_neg hp]
      refine iff_of_true ⟨_, rfl, below_nil _, nofun⟩ fun t hrun ht => ?_
      rcases hrun.cases_head with rfl | ⟨s, hround, -⟩
      · exact absurd ht hp
      · exact absurd hround.1 hp

end Walk

/-! ## 3. `OnAssocRsp` -/

/-- Where `get_da` looks. -/
def daAt (m : Mem) : Nat := if getToDs m then 16 else 4

theorem four_le_daAt (m : Mem) : 4 ≤ daAt m := by
  unfold daAt
  split <;> omega

/-- `OnAssocRsp`, on the frame at 0, `pktLen` bytes long, with the flags `f`: the check of A1, the
state, the status code, the capabilities, the AID and the elements.  The frame is kept if the AID is
not zero. -/
def onAssocRsp (e : AssocEnv) (f : HtFlags) (m : Mem) (pktLen : Nat) : Option Walked :=
  let rs := [(0, 2), (daAt m, 6)]
  if getDa m ≠ e.macAddr ∨ e.ready = false ∨ e.assocSuccess then some ⟨rs, []⟩
  else if le16 m (wlanHdrA3Len + 2) > 0 then some ⟨rs ++ [(wlanHdrA3Len + 2, 2)], []⟩
  else (walk e.toEnv m pktLen (pktLen + 1) f (6 + wlanHdrA3Len)).map fun w =>
    { w with
      reads := rs ++ [(wlanHdrA3Len + 2, 2), (wlanHdrA3Len, 2), (wlanHdrA3Len + 4, 2)] ++ w.reads ++
        if le16 m (wlanHdrA3Len + 4) &&& 0x3fff > 0 then [(0, pktLen)] else [] }

/-- What is wanted: the elements are walked over to the end, nothing behind the frame is read, and
`HT_caps_handler` leaves what is behind `HT_caps`. -/
def AssocStays (e : AssocEnv) (f : HtFlags) (m : Mem) (pktLen : Nat) : Prop :=
  ∃ w, onAssocRsp e f m pktLen = some w ∧ w.Stays e m pktLen

/-- **Association responses that go well.**  The addresses lie in the frame; where the frame is for
this adapter and is waited for, so does the status code; where that is zero, so does the AID, and
every element the walk comes to goes well. -/
def AssocFits (e : AssocEnv) (f : HtFlags) (m : Mem) (pktLen : Nat) : Prop :=
  daAt m + 6 ≤ pktLen ∧
    (getDa m = e.macAddr → e.ready → e.assocSuccess = false → 28 ≤ pktLen ∧
      (le16 m 26 = 0 → 30 ≤ pktLen ∧ ∀ t, Rounds e.toEnv m pktLen (f, 30) t → t.2 < pktLen →
        ElementFits e.toEnv t.1 m t.2 pktLen))

section Assoc

variable {e : AssocEnv} {f : HtFlags} {m : Mem} {pktLen : Nat}

theorem stays_of_reads {rs : List (Nat × Nat)} :
    (Walked.mk rs []).Stays e m pktLen ↔ Below pktLen rs :=
  and_iff_left nofun

/-- **A response is handled as it should** exactly if it goes well. -/
theorem assocStays_iff : AssocStays e f m pktLen ↔ AssocFits e f m pktLen := by
  unfold AssocStays AssocFits onAssocRsp
  have hda := four_le_daAt m
  have hhdr : wlanHdrA3Len = 24 := rfl
  by_cases hskip : getDa m ≠ e.macAddr ∨ e.ready = false ∨ e.assocSuccess
  · simp only [if_pos hskip, Option.some.injEq, exists_eq_left', stays_of_reads,
      below_cons, below_nil, and_true]
    constructor
    · rintro ⟨-, hfits⟩
      refine ⟨hfits, fun hmac hready hsucc => ?_⟩
      rcases hskip with hmac' | hready' | hsucc'
      · exact absurd hmac hmac'
      · exact absurd (hready.symm.trans hready') (by decide)
      · exact absurd (hsucc'.symm.trans hsucc) (by decide)
    · rintro ⟨hfits, -⟩
      exact ⟨by omega, hfits⟩
  · have hgo := hskip
    simp only [not_or, Decidable.not_not, Bool.not_eq_false, Bool.not_eq_true] at hgo
    obtain ⟨hmac, hready, hsucc⟩ := hgo
    simp only [if_neg hskip]
    simp only [hmac, hready, hsucc, forall_const]
    by_cases hstatus : le16 m 26 = 0
    · have hpos : ¬ le16 m (wlanHdrA3Len + 2) > 0 := Nat.not_lt.mpr hstatus.le
      have hwalk := walk_iff e f m (show pktLen + 1 ≤ 30 + (pktLen + 1) by omega) (by omega)
      simp only [if_neg hpos]
      simp only [hstatus, forall_const, ← hwalk]
      constructor
      · rintro ⟨w, hw, hbelow, hcaps⟩
        obtain ⟨w', hw', rfl⟩ := Option.map_eq_some_iff.mp hw
        simp only [List.cons_append, List.nil_append, below_cons, below_append] at hbelow
        obtain ⟨-, hda, hst, -, haid, hreads, -⟩ := hbelow
        exact ⟨hda, by omega, by omega, w', hw', hreads, hcaps⟩
      · rintro ⟨hda, hst, haid, w, hw, hreads, hcaps⟩
        refine ⟨_, Option.map_eq_some_iff.mpr ⟨w, hw, rfl⟩, ?_, hcaps⟩
        simp only [List.cons_append, List.nil_append, below_cons, below_append, below_ite,
          below_nil, and_true]
        exact ⟨by omega, hda, by omega, by omega, by omega, hreads, fun _ => by omega⟩
    · have hpos : le16 m (wlanHdrA3Len + 2) > 0 := Nat.pos_of_ne_zero hstatus
      simp only [if_pos hpos]
      simp only [hstatus, false_imp_iff, and_true, Option.some.injEq, exists_eq_left',
        stays_of_reads, List.cons_append, List.nil_append, below_cons, below_nil]
      omega

end Assoc

/-! ## 4. `OnAuthClient` -/

/-- What `OnAuthClient` asks of the adapter: its address, `WIFI_FW_AUTH_STATE`, and whether
`auth_algo` is the one with a shared key. -/
structure AuthEnv where
  macAddr : MacAddr
  authState : Bool
  shared : Bool

def wlanEidChallenge : UInt8 := 16

/-- The size of `chg_txt`. -/
def chgTxtSize : Nat := 128

/-- `_AUTH_IE_OFFSET_`. -/
def authIeOffset : Nat := 6

/-- `offset`: the IV of a protected frame. -/
def authOffset (m : Mem) : Nat := if getPrivacy m then 4 else 0

/-- The elements behind the three fields of an authentication frame. -/
def authElemLen (pktLen : Nat) : Int := pktLen - wlanHdrA3Len - authIeOffset

/-- The frame is asked for its challenge. -/
def AsksChallenge (e : AuthEnv) (m : Mem) : Prop :=
  let fields := wlanHdrA3Len + authOffset m
  le16 m (fields + 4) = 0 ∧ le16 m (fields + 2) = 2 ∧ e.shared

instance (e : AuthEnv) (m : Mem) : Decidable (AsksChallenge e m) :=
  inferInstanceAs (Decidable (_ ∧ _ ∧ _))

/-- The copy to `chg_txt`, with the length that was found. -/
def challengeCopy : Option (Nat × Nat) → List (Nat × Nat) × Nat
  | some (q, len) => ([(q + 2, len)], len)
  | none => ([], 0)

/-- What `OnAuthClient` reads, and how many bytes it copies to `chg_txt`. -/
def onAuthClient (e : AuthEnv) (m : Mem) (pktLen : Nat) : List (Nat × Nat) × Nat :=
  let rs := [(0, 2), (daAt m, 6)]
  let fields := wlanHdrA3Len + authOffset m
  if getDa m ≠ e.macAddr ∨ e.authState = false then (rs, 0)
  else
    let rs := rs ++ [(fields, 2), (fields + 2, 2), (fields + 4, 2)]
    if AsksChallenge e m then
      let elems := wlanHdrA3Len + authIeOffset
      let copy := challengeCopy (rtwGetIe m elems wlanEidChallenge (authElemLen pktLen))
      (rs ++ getIeReads m elems wlanEidChallenge (authElemLen pktLen) ++ copy.1, copy.2)
    else (rs, 0)

/-- What is wanted: nothing behind the frame is read, and the challenge fits. -/
def AuthStays (e : AuthEnv) (m : Mem) (pktLen : Nat) : Prop :=
  Below pktLen (onAuthClient e m pktLen).1 ∧ (onAuthClient e m pktLen).2 ≤ chgTxtSize

/-- **Authentication frames that go well.**  The addresses lie in the frame; where the frame is for
this adapter and is waited for, so do the three fields; where they ask for a challenge, so does the
header of every element up to the challenge, and the challenge, of at most 128 bytes. -/
def AuthFits (e : AuthEnv) (m : Mem) (pktLen : Nat) : Prop :=
  daAt m + 6 ≤ pktLen ∧
    (getDa m = e.macAddr → e.authState → 30 + authOffset m ≤ pktLen ∧
      (AsksChallenge e m → ∀ i,
        (getIeChain m 30 wlanEidChallenge (authElemLen pktLen)).Comes 0 i → 30 + i < pktLen →
          30 + i + 2 ≤ pktLen ∧ (m (30 + i) = wlanEidChallenge →
            30 + i + 2 + length m (30 + i) ≤ pktLen ∧ length m (30 + i) ≤ chgTxtSize)))

section Auth

variable {e : AuthEnv} {m : Mem} {pktLen : Nat}

theorem lt_authElemLen {i : Nat} : (i : Int) < authElemLen pktLen ↔ 30 + i < pktLen := by
  unfold authElemLen wlanHdrA3Len authIeOffset
  omega

theorem challengeCopy_stays {found : Option (Nat × Nat)} :
    (Below pktLen (challengeCopy found).1 ∧ (challengeCopy found).2 ≤ chgTxtSize) ↔
      ∀ q len, found = some (q, len) → q + 2 + len ≤ pktLen ∧ len ≤ chgTxtSize := by
  cases found with
  | none => simp [challengeCopy]
  | some r => simp [challengeCopy, Prod.ext_iff]

/-- **The challenge is copied as it should** exactly if it is found well. -/
theorem challenge_iff : (Below pktLen (getIeReads m 30 wlanEidChallenge (authElemLen pktLen)) ∧
      ∀ q len, rtwGetIe m 30 wlanEidChallenge (authElemLen pktLen) = some (q, len) →
        q + 2 + len ≤ pktLen ∧ len ≤ chgTxtSize) ↔
    ∀ i, (getIeChain m 30 wlanEidChallenge (authElemLen pktLen)).Comes 0 i → 30 + i < pktLen →
      30 + i + 2 ≤ pktLen ∧ (m (30 + i) = wlanEidChallenge →
        30 + i + 2 + length m (30 + i) ≤ pktLen ∧ length m (30 + i) ≤ chgTxtSize) := by
  rw [below_getIeReads]
  constructor
  · rintro ⟨hreads, hcopy⟩ i hcomes hi
    refine ⟨hreads i hcomes (lt_authElemLen.mpr hi), fun hkind => ?_⟩
    exact hcopy _ _ (rtwGetIe_eq_some_iff.mpr ⟨i, hcomes, lt_authElemLen.mpr hi, hkind, rfl, rfl⟩)
  · intro h
    refine ⟨fun i hcomes hi => (h i hcomes (lt_authElemLen.mp hi)).1, fun q len hfound => ?_⟩
    obtain ⟨i, hcomes, hi, hkind, rfl, rfl⟩ := rtwGetIe_eq_some_iff.mp hfound
    exact (h i hcomes (lt_authElemLen.mp hi)).2 hkind

/-- **A frame is handled as it should** exactly if it goes well. -/
theorem authStays_iff : AuthStays e m pktLen ↔ AuthFits e m pktLen := by
  unfold AuthStays AuthFits onAuthClient
  have hda := four_le_daAt m
  have hhdr : wlanHdrA3Len = 24 := rfl
  by_cases hskip : getDa m ≠ e.macAddr ∨ e.authState = false
  · simp only [if_pos hskip, below_cons, below_nil, and_true]
    constructor
    · rintro ⟨⟨-, hfits⟩, -⟩
      refine ⟨hfits, fun hmac hstate => ?_⟩
      rcases hskip with hmac' | hstate'
      · exact absurd hmac hmac'
      · exact absurd (hstate.symm.trans hstate') (by decide)
    · rintro ⟨hfits, -⟩
      exact ⟨⟨by omega, hfits⟩, Nat.zero_le _⟩
  · have hgo := hskip
    simp only [not_or, Decidable.not_not, Bool.not_eq_false] at hgo
    obtain ⟨hmac, hstate⟩ := hgo
    simp only [if_neg hskip]
    simp only [hmac, hstate, forall_const]
    by_cases hasks : AsksChallenge e m
    · rw [if_pos hasks]
      simp only [hasks, forall_const, ← challenge_iff, ← challengeCopy_stays, List.cons_append,
        List.nil_append, below_cons, below_append, hhdr, authIeOffset]
      constructor
      · rintro ⟨⟨-, hda, -, -, hfields, hreads, hcopy⟩, hlen⟩
        exact ⟨hda, by omega, hreads, hcopy, hlen⟩
      · rintro ⟨hda, hfields, hreads, hcopy, hlen⟩
        exact ⟨⟨by omega, hda, by omega, by omega, by omega, hreads, hcopy⟩, hlen⟩
    · rw [if_neg hasks]
      simp only [hasks, false_imp_iff, and_true, List.cons_append, List.nil_append, below_cons,
        below_nil, hhdr, Nat.zero_le]
      omega

end Auth

/-! ## 5. Both -/

/-- **Answers to a request to join.**  `OnAssocRsp` and the handlers it calls come to an end, read
nothing behind the frame and leave what is behind `HT_caps`, exactly if every element the walk comes
to has in the frame what its handler reads, and an HT capabilities element nothing behind its
twenty-six bytes that clears a bit.  `OnAuthClient` reads nothing behind the frame and copies no
more than `chg_txt` has room for exactly if the challenge it finds, and the headers before it, lie
in the frame, and its length byte is at most 128. -/
theorem join_rsp_iff (e : AssocEnv) (f : HtFlags) (e' : AuthEnv) (m : Mem) (pktLen : Nat) :
    (AssocStays e f m pktLen ↔ AssocFits e f m pktLen) ∧
      (AuthStays e' m pktLen ↔ AuthFits e' m pktLen) :=
  ⟨assocStays_iff, authStays_iff⟩

/-- A station that waits for both answers. -/
def joiner : AssocEnv where
  htOption := true
  qosOption := true
  apState := false
  miracast := false
  macAddr := ⟨2, 0, 0, 0, 0, 1⟩
  ready := true
  assocSuccess := false
  supported := fun _ => 0xff
  rateMask := fun _ => 0xff

def sharedJoiner : AuthEnv := ⟨⟨2, 0, 0, 0, 0, 1⟩, true, true⟩

/-- An association response with thirty bytes of HT capabilities. -/
def longHtCaps : Mem := fun i =>
  if i = 0 then 0x10 else if i = 4 then 2 else if i = 9 then 1
  else if i = 30 then 45 else if i = 31 then 30 else 0

/-- The second frame of a shared-key authentication, with a challenge of two hundred bytes. -/
def longChallenge : Mem := fun i =>
  if i = 0 then 0xb0 else if i = 4 then 2 else if i = 9 then 1
  else if i = 24 then 1 else if i = 26 then 2 else if i = 30 then 16 else if i = 31 then 200 else 0

/-- The first clears four bytes behind `HT_caps`, the second writes past `chg_txt`. -/
theorem peer_lengths_pass : ¬ AssocStays joiner ⟨false, false⟩ longHtCaps 62 ∧
    ¬ AuthStays sharedJoiner longChallenge 232 := by
  rw [assocStays_iff, authStays_iff]
  constructor
  · rintro ⟨-, hfits⟩
    have helement := ((hfits rfl rfl rfl).2 rfl).2 _ .refl (by decide)
    rw [ElementFits, if_neg (by decide), if_pos (by decide)] at helement
    exact absurd ((helement.2 rfl).2 26 (by decide) (by decide)) (by decide)
  · rintro ⟨-, hfits⟩
    have hchallenge := (hfits rfl rfl).2 ⟨rfl, rfl, rfl⟩ 0 .start (by decide)
    exact absurd (hchallenge.2 rfl).2 (by decide)

end IeHandlers

end Rtl8723bs
