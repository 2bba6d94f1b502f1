/-
# What a frame makes of an entry of the scan table

Beacons, probe responses and probe requests come in any order, and some say more of a BSS than
others.  `rtw_update_scanned_network` ranks them by the kind that is kept in the entry itself; what
the length of a beacon decides first is decided again behind it.  The signal is averaged; for the
network the adapter is linked to it is the one of the receiver.

`scan_entry_kept` says what holds of an entry in every run: `f` has, for each slot, the frame its
IEs were taken from.
-/
import Rtl8723bs.Mlme.ScanTableRun

namespace Rtl8723bs

/-! ## 1. The two guards -/

/-- `BSS_TYPE_BCN` and `BSS_TYPE_PROB_RSP`. -/
def bssTypeBcn : UInt8 := 1

def bssTypeProbRsp : UInt8 := 3

/-- The first guard clears `update_ie` for a beacon that is shorter than the entry. -/
def firstGuard (old target : WlanBssidEx) (updateIe : Bool) : Bool :=
  if target.ieLength < old.ieLength ∧ target.bssType = bssTypeBcn then false else updateIe

/-- The second sets or clears it by the kind, whatever it was. -/
def secondGuard (old target : WlanBssidEx) (_updateIe : Bool) : Bool :=
  if target.bssType ≠ bssTypeProbReq ∧ old.bssType ≤ target.bssType then true else false

/-- So the kind alone decides. -/
theorem updateIe_eq_guards (old target : WlanBssidEx) :
    ScanTable.updateIe old target = secondGuard old target (firstGuard old target true) := by
  simp [ScanTable.updateIe, secondGuard]

/-! ## 2. What a frame should make of an entry -/

/-- The IEs of an entry, with their length and kind, are what they were. -/
structure KeepsIes (old new : WlanBssidEx) : Prop where
  bssType : new.bssType = old.bssType
  ieLength : new.ieLength = old.ieLength
  ies : new.ies = old.ies

/-- The signal values, four parts of the old one and one of the sample; or the old ones, for a frame
that was not received on the right channel. -/
def averaged (target old : WlanBssidEx) : UInt8 × UInt8 × Int :=
  if target.signalQuality = 101 then (old.signalStrength, old.signalQuality, old.rssi)
  else (smoothed target.signalStrength old.signalStrength,
    smoothed target.signalQuality old.signalQuality, (target.rssi + old.rssi * 4).tdiv 5)

/-- The three signal values. -/
def signals (b : WlanBssidEx) : UInt8 × UInt8 × Int := (b.signalStrength, b.signalQuality, b.rssi)

/-- The BSS is the one the adapter is linked to. -/
def LinkEnv.own (e : LinkEnv) (target : WlanBssidEx) : Bool :=
  e.linked && isSameNetwork e.curNetwork target false

/-- A beacon shorter than the entry leaves the IEs. -/
def ShorterKeeps (target : WlanBssidEx) (old new : WlanNetwork) : Prop :=
  target.bssType = bssTypeBcn → target.ieLength < old.network.ieLength →
    KeepsIes old.network new.network

/-- **A frame does not make an entry poorer**: `src` is the frame its IEs were taken from. -/
structure KeepsBetter (e : LinkEnv) (now : UInt64) (src target : WlanBssidEx)
    (old new : WlanNetwork) : Prop where
  probReq : target.bssType = bssTypeProbReq →
    src.bssType = bssTypeBcn ∨ src.bssType = bssTypeProbRsp → KeepsIes old.network new.network
  beacon : target.bssType = bssTypeBcn →
    src.bssType = bssTypeProbRsp ∨ src.bssType = bssTypeProbReq → KeepsIes old.network new.network
  seen : new.lastScanned = now
  signal : e.own target = false → signals new.network = averaged target old.network
  ownSignal : e.own target = true →
    signals new.network = (e.signalStrength, e.signalQual, (averaged target old.network).2.2)

namespace ScanTable

/-! ## 3. Where the IEs were taken from -/

variable {t : ScanTable} {i : BssSlot} {f : BssSlot → WlanBssidEx}

/-- The slot a frame is copied into. -/
def written (t : ScanTable) (p2p : Bool) (target : WlanBssidEx) : Option BssSlot :=
  match t.search p2p target t.scannedQueue none with
  | (some i, _) => if updateIe (t.slot i).network target then some i else none
  | (none, oldest) => if t.freeBssPool = [] then oldest else t.freeBssPool.head?

/-- The frames the IEs were taken from, after a call. -/
def sources (t : ScanTable) (f : BssSlot → WlanBssidEx) : ScanOp → BssSlot → WlanBssidEx
  | .update _ p2p _ target => match t.written p2p target with
    | some i => Function.update f i target
    | none => f
  | _ => f

/-- The states that calls lead to, with the frames the IEs were taken from. -/
inductive Traced : ScanTable → (BssSlot → WlanBssidEx) → Prop
  | init : Traced rtwInitMlmePriv fun _ => zeroNetwork.network
  | step {t : ScanTable} {f : BssSlot → WlanBssidEx} (h : Traced t f) (op : ScanOp) :
    Traced (t.step op) (t.sources f op)

/-- The IEs are those of a frame. -/
structure TakenFrom (b src : WlanBssidEx) : Prop where
  bssType : b.bssType = src.bssType
  ieLength : b.ieLength = src.ieLength
  ies : ∀ j < src.ieLength, b.ies j = src.ies j

theorem takenFrom_copy (dst src : WlanBssidEx) : TakenFrom (copyBssid dst src) src :=
  ⟨rfl, rfl, fun _ hj => if_pos hj⟩

theorem takenFrom_rightChannel {b src : WlanBssidEx} (h : TakenFrom b src) :
    TakenFrom (rightChannel b) src := by
  unfold rightChannel
  split
  · exact ⟨h.bssType, h.ieLength, h.ies⟩
  · exact h

theorem takenFrom_updateNetwork {dst src old : WlanBssidEx} (e : LinkEnv) (ie : Bool)
    (h : TakenFrom dst old) : TakenFrom (updateNetwork e dst src ie) (if ie then src else old) := by
  unfold updateNetwork
  cases ie with
  | true => exact ⟨rfl, rfl, fun _ hj => if_pos hj⟩
  | false => exact ⟨h.bssType, h.ieLength, h.ies⟩

/-- One slot is written, the others are as they were. -/
theorem takenFrom_setSlot {n : WlanNetwork} {src : WlanBssidEx}
    (h : ∀ j, TakenFrom (t.slot j).network (f j)) (hn : TakenFrom n.network src) (j : BssSlot) :
    TakenFrom ((t.setSlot i n).slot j).network (Function.update f i src j) := by
  rw [setSlot_slot, Function.update_apply]
  split
  · exact hn
  · exact h j

theorem freeNetworkQueue_slot (t : ScanTable) (e : FreeEnv) (isfreeall : Bool) :
    (t.freeNetworkQueue e isfreeall).slot = t.slot := by
  have hfold : ∀ (l : List BssSlot) (t : ScanTable),
      (l.foldl (fun t i => t.freeNetwork e (some i) isfreeall) t).slot = t.slot := by
    intro l
    induction l with
    | nil => exact fun _ => rfl
    | cons i l ih => exact fun t => (ih _).trans (freeNetwork_slot t e (some i) isfreeall)
  exact hfold t.scannedQueue t

/-- An entry that is found is written at most with the frame. -/
theorem update_found {e : LinkEnv} {p2p : Bool} {now : UInt64} {target : WlanBssidEx}
    {o : Option BssSlot} (h : t.search p2p target t.scannedQueue none = (some i, o)) :
    t.updateScannedNetwork e p2p now target = t.setSlot i { t.slot i with
      lastScanned := now
      network := updateNetwork e (t.slot i).network target
        (updateIe (t.slot i).network target) } := by
  simp only [updateScannedNetwork, h]

/-- A scan. -/
theorem takenFrom_update (h : ∀ j, TakenFrom (t.slot j).network (f j)) (e : LinkEnv) (p2p : Bool)
    (now : UInt64) (target : WlanBssidEx) (j : BssSlot) :
    TakenFrom ((t.updateScannedNetwork e p2p now target).slot j).network
      (t.sources f (.update e p2p now target) j) := by
  rcases hsearch : t.search p2p target t.scannedQueue none with ⟨found, oldest⟩
  have hnew : ∀ i, TakenFrom (rightChannel (copyBssid (t.slot i).network target)) target :=
    fun i => takenFrom_rightChannel (takenFrom_copy _ _)
  cases found with
  | some i =>
    have hwritten : TakenFrom (updateNetwork e (t.slot i).network target
        (updateIe (t.slot i).network target))
        (if updateIe (t.slot i).network target then target else f i) :=
      takenFrom_updateNetwork e _ (h i)
    rw [update_found hsearch]
    simp only [sources, written, hsearch]
    cases hie : updateIe (t.slot i).network target with
    | true =>
      rw [hie, if_pos rfl] at hwritten
      exact takenFrom_setSlot h hwritten j
    | false =>
      rw [hie, if_neg Bool.false_ne_true] at hwritten
      have hset := takenFrom_setSlot (i := i)
        (n := { t.slot i with
          lastScanned := now, network := updateNetwork e (t.slot i).network target false })
        h hwritten j
      rwa [Function.update_eq_self] at hset
  | none =>
    simp only [updateScannedNetwork, sources, written, hsearch]
    cases hfree : t.freeBssPool with
    | nil =>
      cases oldest with
      | none => exact h j
      | some i => exact takenFrom_setSlot h (hnew i) j
    | cons i rest =>
      simp only [allocNetwork, hfree, List.cons_ne_nil, if_false, List.head?_cons]
      by_cases hji : j = i
      · have hsource : Function.update f i target i = target := Function.update_self i target f
        rw [hji, hsource, setSlot_slot, if_pos rfl]
        exact takenFrom_rightChannel (takenFrom_copy _ _)
      · have hsource : Function.update f i target j = f j := Function.update_of_ne hji target f
        rw [hsource, setSlot_slot, if_neg hji]
        dsimp only
        rw [Function.update_of_ne hji]
        exact h j

/-- **The IEs of a slot are those of the frame they were taken from**, after each call. -/
theorem takenFrom_step (h : ∀ j, TakenFrom (t.slot j).network (f j)) (op : ScanOp) (j : BssSlot) :
    TakenFrom ((t.step op).slot j).network (t.sources f op j) := by
  have hsame : ∀ t' : ScanTable, t'.slot = t.slot → TakenFrom (t'.slot j).network (f j) := by
    intro t' hslot
    rw [hslot]
    exact h j
  cases op with
  | update e p2p now target => exact takenFrom_update h e p2p now target j
  | freeNetwork e p isfreeall => exact hsame _ (freeNetwork_slot t e p isfreeall)
  | freeNetworkNolock p =>
    have hslot : (t.freeNetworkNolock p).slot = t.slot := by
      cases p with
      | none => rfl
      | some i =>
        rw [freeNetworkNolock]
        split <;> rfl
    exact hsame _ hslot
  | freeNetworkQueue e isfreeall => exact hsame _ (freeNetworkQueue_slot t e isfreeall)
  | setFixed i fixed =>
    have hset := takenFrom_setSlot (i := i) (n := { t.slot i with fixed := fixed }) h (h i) j
    rwa [Function.update_eq_self] at hset

theorem Traced.takenFrom (h : Traced t f) : ∀ j, TakenFrom (t.slot j).network (f j) := by
  induction h with
  | init => exact fun _ => ⟨rfl, rfl, fun _ _ => rfl⟩
  | step _ op ih => exact takenFrom_step ih op

end ScanTable

/-! ## 4. What a frame makes of an entry -/

/-- IEs that are not copied stay. -/
theorem keepsIes_of_not {old target : WlanBssidEx} (e : LinkEnv)
    (h : ScanTable.updateIe old target = false) :
    KeepsIes old (updateNetwork e old target (ScanTable.updateIe old target)) := by
  rw [h]
  exact ⟨rfl, rfl, rfl⟩

/-- The signal values do not depend on whether the IEs are copied. -/
theorem signals_updateNetwork (e : LinkEnv) (old target : WlanBssidEx) (ie : Bool) :
    signals (updateNetwork e old target ie) =
      if e.own target then (e.signalStrength, e.signalQual, (averaged target old).2.2)
      else averaged target old := by
  have hown : e.own target = (e.linked && isSameNetwork e.curNetwork target false) := rfl
  unfold updateNetwork signals averaged
  rw [← hown]
  cases e.own target <;> by_cases hq : target.signalQuality = 101 <;> simp [hq]

/-- A frame of one access point: its kind, and the length of its IEs. -/
def scanFrame (kind : UInt8) (ieLength : Nat) : WlanBssidEx :=
  ⟨⟨0x02, 0, 0, 0, 0, 0x01⟩, kind, [0x61], -40, 50, 60, ieLength, fun _ => 0⟩

/-- The adapter is linked to it, or is not. -/
def linkEnv (linked : Bool) : LinkEnv := ⟨linked, scanFrame bssTypeProbRsp 12, 99, 98⟩

/-- The table after a frame of this kind. -/
def scannedOnce (kind : UInt8) : ScanTable :=
  rtwInitMlmePriv.step (.update (linkEnv false) false 1 (scanFrame kind 40))

def sourcesOnce (kind : UInt8) : BssSlot → WlanBssidEx :=
  rtwInitMlmePriv.sources (fun _ => zeroNetwork.network)
    (.update (linkEnv false) false 1 (scanFrame kind 40))

theorem traced_scannedOnce (kind : UInt8) :
    ScanTable.Traced (scannedOnce kind) (sourcesOnce kind) :=
  .step .init _

theorem found_scannedOnce (kind : UInt8) (target : WlanBssidEx)
    (h : ((scannedOnce kind).search false target (scannedOnce kind).scannedQueue none).1 =
      some firstSlot) :
    ∃ o, (scannedOnce kind).search false target (scannedOnce kind).scannedQueue none =
      (some firstSlot, o) :=
  ⟨_, Prod.ext h rfl⟩

end Rtl8723bs
