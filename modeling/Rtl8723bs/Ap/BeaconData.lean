/-
# Starting an AP from a beacon template

`rtw_check_beacon_data` copies the template, looks up its elements one by one, fills the SSID, the
rates and the HT capabilities from them with the length each element says it has, takes over the
ciphers, and only at the end asks for the `sta_info` of the AP itself, without which it fails.

`check_beacon_data_iff` says for which templates nothing behind the template is read, nothing is
written past what is filled, and a failure leaves the ciphers.
-/
import Rtl8723bs.Ap.VendorSearch

namespace Rtl8723bs

namespace BeaconData

open IeHandlers (Below below_cons below_nil below_append below_ite HtFlags htCapsReads htInfoReads
  HtCapsFits below_htCapsReads htInfoSize
  erpReads htCapsSize HtCapsStays htCapsStays_iff)

/-! ## 1. What the function asks for, and what it leaves -/

/-- The ciphers of `securitypriv`. -/
structure Ciphers where
  wpa2Group : Nat
  wpa2Pairwise : Nat
  wpaGroup : Nat
  wpaPairwise : Nat
deriving DecidableEq, Repr

/-- What `rtw_check_beacon_data` asks of the adapter: its mode, the registry, the HT capabilities of
the device, and whether there is a `sta_info` for the AP or room for one. -/
structure BeaconEnv where
  isAp : Bool
  apMode : Bool
  wmmEnable : Bool
  htEnable : Bool
  wifiSpec : Bool
  apState : Bool
  sgi20 : Bool
  sgi40 : Bool
  ldpcRx : Bool
  stbcRx : Bool
  ht : HtFlags
  maxRxAmpduFactor : UInt8
  rxRateMask : Nat → UInt8
  txRateMask : Nat → UInt8
  supported : Nat → UInt8
  extCapab : Mem
  ownSta : Bool
  allocSta : Bool

/-- What is left: whether it succeeded, the ciphers, `IELength`, what was read of the template
before it grew and behind, how many bytes were copied to `IEs`, `Ssid`, `supportRate` and `ht_cap`,
and the element `HT_caps_handler` was given. -/
structure BeaconOut where
  success : Bool
  ciphers : Ciphers
  ieLength : Nat
  reads : List (Nat × Nat)
  lateReads : List (Nat × Nat)
  copied : Nat
  ssidLen : Nat
  rateNum : Nat
  htCapLen : Nat
  htCaps : Option (Mem × Nat)

/-- `MAX_IE_SZ`. -/
def maxIeSz : Nat := 768

/-- The size of `Ssid`. -/
def ssidSize : Nat := 32

/-- `NDIS_802_11_LENGTH_RATES_EX`, the size of `supportRate`. -/
def ratesSize : Nat := 16

/-- `IELength`, a length in 32 bits. -/
def toIeLength (len : Int) : Nat := (len % 2 ^ 32).toNat

/-- `IEs`: cleared, and then as many bytes of the template as are given. -/
def fillIes (pbuf behind : Mem) (n : Nat) : Mem := fun i =>
  if i < n then pbuf i else if i < maxIeSz then 0 else behind i

/-! ## 2. The elements before the ciphers -/

def ssidIe : UInt8 := 0
def supportedRatesIe : UInt8 := 1
def dssetIe : UInt8 := 3
def erpInfoIe : UInt8 := 42
def htCapabilityIe : UInt8 := 45
def rsnIe2 : UInt8 := 48
def extSupportedRatesIe : UInt8 := 50
def htAddInfoIe : UInt8 := 61
def extCapabilityIe : UInt8 := 127

/-- `IELength - _BEACON_IE_OFFSET_`. -/
def elemsLen (n : Nat) : Int := n - 12

/-- `rtw_get_ie` on the elements of the template. -/
def getElem (m : Mem) (n : Nat) (kind : UInt8) : Option (Nat × Nat) :=
  rtwGetIe m 12 kind (elemsLen n)

/-- An element that counts only if it has a content. -/
def getFilled (m : Mem) (n : Nat) (kind : UInt8) : Option (Nat × Nat) :=
  (getElem m n kind).filter fun r => 0 < r.2

/-- `ie_len` of the element found. -/
def lenOf : Option (Nat × Nat) → Nat
  | some (_, len) => len
  | none => 0

/-- The first bytes of the content, if there is one. -/
def contentUse (k : Nat) : Use := fun q len => if 0 < len then [(q + 2, k)] else []

/-- The content. -/
def wholeUse : Use := fun q len => [(q + 2, len)]

def ssidUse : Use := fun q len => if 0 < len then [(q + 2, len)] else []

def erpUse (m : Mem) : Use := fun q len => if 0 < len then erpReads m q else []

/-- `rtw_parse_wpa2_ie`: the header, and the suites. -/
def rsnUse (m : Mem) : Use := fun q len =>
  if 0 < len then (q, 2) :: suiteReads m (q + 4) ((len : Int) - 2) else []

/-- `rtw_parse_wpa_ie`. -/
def wpaUse (m : Mem) : Use := fun q len => (q, 6) :: suiteReads m (q + 8) ((len : Int) - 6)

/-- `OUI1` and `WMM_PARA_IE`. -/
def wpaOui1 : List UInt8 := [0x00, 0x50, 0xf2, 0x01]

def wmmParaIe : List UInt8 := [0x00, 0x50, 0xf2, 0x02, 0x01, 0x01]

/-- The QoS Info, and the first byte of the parameters of each access category. -/
def wmmUse : Use := fun q _ => [(q + 8, 1), (q + 10, 1), (q + 14, 1), (q + 18, 1), (q + 22, 1)]

/-- U-APSD is claimed, and ACM cleared. -/
def wmmUpdate (m : Mem) : Option (Nat × Nat) → Mem
  | some (q, _) => fun i =>
    if i = q + 8 then m i ||| 0x80
    else if i = q + 10 ∨ i = q + 14 ∨ i = q + 18 ∨ i = q + 22 then m i &&& 0xef
    else m i
  | none => m

/-- What is read of the elements from the SSID to the RSN element. -/
def earlyReads (m : Mem) (n : Nat) : List (Nat × Nat) :=
  searchReads m 12 ssidIe (elemsLen n) ssidUse ++
    searchReads m 12 dssetIe (elemsLen n) (contentUse 1) ++
    searchReads m 12 supportedRatesIe (elemsLen n) wholeUse ++
    searchReads m 12 extSupportedRatesIe (elemsLen n) wholeUse ++
    searchReads m 12 erpInfoIe (elemsLen n) (erpUse m) ++
    searchReads m 12 rsnIe2 (elemsLen n) (rsnUse m)

/-- The ciphers the RSN element and the WPA element give; none for an element that is not there, or
not parsed. -/
def newCiphers (m : Mem) (n : Nat) (wpa : Option (Nat × Nat)) : Ciphers :=
  let rsn := ((getFilled m n rsnIe2).bind fun (q, len) => rtwParseWpa2Ie m q (len + 2)).getD (0, 0)
  let wpa := (wpa.bind fun (q, len) => rtwParseWpaIe m q (len + 2)).getD (0, 0)
  ⟨rsn.1, rsn.2, wpa.1, wpa.2⟩

/-! ## 3. The HT capabilities, and what is behind -/

/-- `WPA_CIPHER_CCMP`. -/
def wpaCipherCcmp : Nat := 16

/-- The bits of `cap_info` that are cleared, of the lower and the upper byte. -/
def capInfoMask (e : BeaconEnv) : UInt8 × UInt8 :=
  ((if e.sgi20 then 0 else 0x20) ||| (if e.sgi40 then 0 else 0x40) |||
      (if e.ldpcRx then 0 else 0x01) ||| (if e.ht.stbcTx then 0 else 0x80),
    if e.stbcRx then 0 else 0x03)

/-- `ampdu_params_info`: a density for CCMP, and the factor of the device. -/
def ampduParams (e : BeaconEnv) (c : Ciphers) (old : UInt8) : UInt8 :=
  let ccmp := (c.wpaPairwise ||| c.wpa2Pairwise) &&& wpaCipherCcmp ≠ 0
  old &&& 0xe0 ||| (if ccmp then 0x1c else 0) ||| 0x03 &&& e.maxRxAmpduFactor

/-- What is done to the HT capabilities at `q` in the template: `cap_info`, `ampdu_params_info`, and
ten bytes of `supp_mcs_set`, the first four of them for the receive paths there are. -/
def htCapUpdate (e : BeaconEnv) (c : Ciphers) (m : Mem) (q : Nat) : Mem := fun i =>
  let mcs := i - (q + 5)
  if i = q + 2 then m i &&& ~~~(capInfoMask e).1
  else if i = q + 3 then m i &&& ~~~(capInfoMask e).2
  else if i = q + 4 then ampduParams e c (m i)
  else if q + 5 ≤ i ∧ i < q + 9 then m i &&& e.rxRateMask mcs &&& e.supported mcs
  else if q + 9 ≤ i ∧ i < q + 15 then m i &&& e.supported mcs
  else m i

/-- The changes and the first copy take a whole record, the second the length of the element. -/
def htCapUse : Use := fun q len => if 0 < len then [(q + 2, htCapsSize), (q + 2, len)] else []

/-- The template behind the changes. -/
def htCapMem (e : BeaconEnv) (c : Ciphers) (m : Mem) (n : Nat) : Mem :=
  match getFilled m n htCapabilityIe with
  | some (q, _) => htCapUpdate e c m q
  | none => m

/-- The adapter the two handlers see. -/
def handlerEnv (e : BeaconEnv) : IeHandlers.Env where
  htOption := true
  qosOption := true
  apState := e.apState
  miracast := false

/-- What the handlers are given: the HT capabilities, with HT enabled. -/
def handledCap (e : BeaconEnv) (m : Mem) (n : Nat) : Option (Nat × Nat) :=
  if e.htEnable then getFilled m n htCapabilityIe else none

/-- What the two handlers read, of the template `m'` behind the changes. -/
def handlerReads (e : BeaconEnv) (m m' : Mem) (n : Nat) : List (Nat × Nat) :=
  match handledCap e m n with
  | some (q, _) => htCapsReads (handlerEnv e) e.ht m' q ++
    useReads (fun q' _ => htInfoReads (handlerEnv e) m' q') (getFilled m' n htAddInfoIe)
  | none => []

/-- `DSConfig`. -/
def dsConfig (m : Mem) (n : Nat) : UInt8 :=
  match getFilled m n dssetIe with
  | some (q, _) => m (q + 2)
  | none => 0

/-- The extended capabilities are added. -/
def AddsExtCapab (e : BeaconEnv) (m : Mem) (n : Nat) : Prop := dsConfig m n ≤ 14 ∧ e.wifiSpec = true

instance (e : BeaconEnv) (m : Mem) (n : Nat) : Decidable (AddsExtCapab e m n) :=
  inferInstanceAs (Decidable (_ ∧ _))

/-- What `rtw_ies_get_chbw` reads: the channel, the width, and the primary channel and the offset.
-/
def chbwReads (m : Mem) (n : Nat) : List (Nat × Nat) :=
  searchReads m 12 dssetIe (elemsLen n) (contentUse 1) ++
    searchReads m 12 htCapabilityIe (elemsLen n) (contentUse 1) ++
    searchReads m 12 htAddInfoIe (elemsLen n) (contentUse 2)

/-- The template and its length behind that. -/
def extCapabMem (e : BeaconEnv) (m m' : Mem) (n : Nat) : Mem × Nat :=
  if AddsExtCapab e m n then
    (overwrite m' n (extCapabilityIe :: 8 :: readBytes e.extCapab 0 8), n + 10)
  else (m', n)

/-- All of this, with the WPA and the WMM element that were found. -/
def lateStep (e : BeaconEnv) (m : Mem) (n : Nat) (wpa wmm : Option (Nat × Nat))
    (rs : List (Nat × Nat)) : BeaconOut :=
  let c := newCiphers m n wpa
  let m' := wmmUpdate m wmm
  let m'' := htCapMem e c m' n
  let ext := extCapabMem e m m'' n
  { success := e.ownSta || e.allocSta
    ciphers := c
    ieLength := ext.2
    reads := rs ++ searchReads m' 12 htCapabilityIe (elemsLen n) htCapUse ++
      searchReads m'' 12 htAddInfoIe (elemsLen n) (fun _ _ => []) ++ handlerReads e m' m'' n
    lateReads := chbwReads ext.1 ext.2
    copied := n
    ssidLen := lenOf (getElem m n ssidIe)
    rateNum := lenOf (getElem m n supportedRatesIe) + lenOf (getElem m n extSupportedRatesIe)
    htCapLen := lenOf (getElem m' n htCapabilityIe)
    htCaps := (handledCap e m' n).map fun r => (m'', r.1) }

/-! ## 4. `rtw_check_beacon_data` -/

/-- The loop for WMM, where it is enabled. -/
def wmmSearch (e : BeaconEnv) (m : Mem) (n rounds : Nat) :
    Option (List (Nat × Nat) × Option (Nat × Nat)) :=
  if e.wmmEnable then vendorSearch m wmmParaIe wmmUse n rounds 12 0 else some ([], none)

/-- `rtw_check_beacon_data` on `len` bytes at `pbuf`, with the ciphers `old`; `none` is out of
rounds. -/
def rtwCheckBeaconData (e : BeaconEnv) (old : Ciphers) (pbuf behind : Mem) (len : Int)
    (rounds : Nat) : Option BeaconOut :=
  let n := toIeLength len
  let failed : BeaconOut := ⟨false, old, n, [], [], 0, 0, 0, 0, none⟩
  if e.isAp = false ∨ len > maxIeSz then some failed
  else if e.apMode = false then some { failed with copied := n }
  else do
    let m := fillIes pbuf behind n
    let wpa ← vendorSearch m wpaOui1 (wpaUse m) n rounds 12 0
    let wmm ← wmmSearch e m n rounds
    some (lateStep e m n wpa.2 wmm.2 (earlyReads m n ++ wpa.1 ++ wmm.1))

/-- What is wanted, where a buffer that holds `IELength` bytes ends at `bufEnd`. -/
structure BeaconOut.Stays (e : BeaconEnv) (old : Ciphers) (bufEnd : Nat → Nat) (n : Nat)
    (out : BeaconOut) : Prop where
  copied : out.copied ≤ maxIeSz
  reads : Below (bufEnd n) out.reads
  lateReads : Below (bufEnd out.ieLength) out.lateReads
  ssid : out.ssidLen ≤ ssidSize
  rates : out.rateNum ≤ ratesSize
  htCap : out.htCapLen ≤ htCapsSize
  htCaps : ∀ m q, out.htCaps = some (m, q) → HtCapsStays e.supported e.txRateMask m q
  ciphers : out.success = false → out.ciphers = old

/-- The function comes to an end, reads only the template, fills nothing past its end, and leaves
the ciphers when it fails. -/
def BeaconStays (e : BeaconEnv) (old : Ciphers) (pbuf behind : Mem) (len : Int)
    (bufEnd : Nat → Nat) : Prop :=
  ∃ rounds out, rtwCheckBeaconData e old pbuf behind len rounds = some out ∧
    out.Stays e old bufEnd (toIeLength len)

/-! ## 5. Templates that go well -/

/-- The searches up to the RSN element go well. -/
structure EarlyFits (m : Mem) (n limit : Nat) : Prop where
  ssid : SearchFits m 12 ssidIe (elemsLen n) ssidUse limit
  dsset : SearchFits m 12 dssetIe (elemsLen n) (contentUse 1) limit
  rates : SearchFits m 12 supportedRatesIe (elemsLen n) wholeUse limit
  extRates : SearchFits m 12 extSupportedRatesIe (elemsLen n) wholeUse limit
  erp : SearchFits m 12 erpInfoIe (elemsLen n) (erpUse m) limit
  rsn : SearchFits m 12 rsnIe2 (elemsLen n) (rsnUse m) limit

/-- The elements the two HT handlers are given have in the template what they read. -/
def HandlersFit (e : BeaconEnv) (m m' : Mem) (n limit : Nat) : Prop :=
  ∀ q len, handledCap e m n = some (q, len) → HtCapsFits (handlerEnv e) e.ht m' q limit ∧
    ∀ q' len', getFilled m' n htAddInfoIe = some (q', len') →
      IeHandlers.length m' q' ≤ htInfoSize → q' + 2 + IeHandlers.length m' q' ≤ limit

/-- So do the searches of `rtw_ies_get_chbw`. -/
structure ChbwFits (m : Mem) (n limit : Nat) : Prop where
  dsset : SearchFits m 12 dssetIe (elemsLen n) (contentUse 1) limit
  htCap : SearchFits m 12 htCapabilityIe (elemsLen n) (contentUse 1) limit
  htInfo : SearchFits m 12 htAddInfoIe (elemsLen n) (contentUse 2) limit

/-- And those behind the loops, of the template `m` with the changes made before each. -/
structure LateFits (e : BeaconEnv) (m : Mem) (n : Nat) (wpa wmm : Option (Nat × Nat))
    (bufEnd : Nat → Nat) : Prop where
  htCap : SearchFits (wmmUpdate m wmm) 12 htCapabilityIe (elemsLen n) htCapUse (bufEnd n)
  htCapLen : lenOf (getElem (wmmUpdate m wmm) n htCapabilityIe) ≤ htCapsSize
  htInfo : SearchFits (htCapMem e (newCiphers m n wpa) (wmmUpdate m wmm) n) 12 htAddInfoIe
    (elemsLen n) (fun _ _ => []) (bufEnd n)
  handlers : HandlersFit e (wmmUpdate m wmm) (htCapMem e (newCiphers m n wpa) (wmmUpdate m wmm) n) n
    (bufEnd n)
  chbw : let ext := extCapabMem e m (htCapMem e (newCiphers m n wpa) (wmmUpdate m wmm) n) n
    ChbwFits ext.1 ext.2 (bufEnd ext.2)

section Late

variable {e : BeaconEnv} {old : Ciphers} {bufEnd : Nat → Nat} {m m' : Mem} {n limit : Nat}
  {wpa wmm : Option (Nat × Nat)} {rs : List (Nat × Nat)}

theorem below_earlyReads : Below limit (earlyReads m n) ↔ EarlyFits m n limit := by
  simp only [earlyReads, below_append, below_searchReads]
  constructor
  · rintro ⟨⟨⟨⟨⟨h1, h2⟩, h3⟩, h4⟩, h5⟩, h6⟩
    exact ⟨h1, h2, h3, h4, h5, h6⟩
  · rintro ⟨h1, h2, h3, h4, h5, h6⟩
    exact ⟨⟨⟨⟨⟨h1, h2⟩, h3⟩, h4⟩, h5⟩, h6⟩

theorem below_chbwReads : Below limit (chbwReads m n) ↔ ChbwFits m n limit := by
  simp only [chbwReads, below_append, below_searchReads]
  constructor
  · rintro ⟨⟨h1, h2⟩, h3⟩
    exact ⟨h1, h2, h3⟩
  · rintro ⟨h1, h2, h3⟩
    exact ⟨⟨h1, h2⟩, h3⟩

theorem below_handlerReads :
    Below limit (handlerReads e m m' n) ↔ HandlersFit e m m' n limit := by
  unfold handlerReads HandlersFit
  cases handledCap e m n with
  | none => simp
  | some r =>
    have hht : (handlerEnv e).htOption = true := rfl
    simp only [below_append, below_htCapsReads, below_useReads, htInfoReads, below_ite, below_cons,
      below_nil, and_true, hht, true_and, forall_const, Option.some.injEq]
    constructor
    · rintro h q len rfl
      exact h
    · exact fun h => h r.1 r.2 rfl

theorem getFilled_eq_some {kind : UInt8} {q len : Nat} (h : getFilled m n kind = some (q, len)) :
    getElem m n kind = some (q, len) ∧ len = IeHandlers.length m q := by
  obtain ⟨hfound, -⟩ := Option.filter_eq_some_iff.mp h
  obtain ⟨i, -, -, -, rfl, rfl⟩ := IeHandlers.rtwGetIe_eq_some_iff.mp hfound
  exact ⟨hfound, rfl⟩

/-- The changes leave the length byte of the HT capabilities. -/
theorem length_htCapMem {c : Ciphers} {q len : Nat}
    (h : getFilled m n htCapabilityIe = some (q, len)) :
    IeHandlers.length (htCapMem e c m n) q = len := by
  rw [(getFilled_eq_some h).2, htCapMem, h]
  unfold IeHandlers.length htCapUpdate
  simp

/-- HT capabilities that fit in the record do not make `HT_caps_handler` leave it. -/
theorem htCapsStays_of_len {c : Ciphers} (hlen : lenOf (getElem m n htCapabilityIe) ≤ htCapsSize)
    {q : Nat} (h : ((handledCap e m n).map fun r => (htCapMem e c m n, r.1)) = some (m', q)) :
    HtCapsStays e.supported e.txRateMask m' q := by
  obtain ⟨⟨q', len⟩, hcap, heq⟩ := Option.map_eq_some_iff.mp h
  obtain ⟨rfl, rfl⟩ := Prod.mk.inj heq
  have hfilled : getFilled m n htCapabilityIe = some (q', len) := by
    unfold handledCap at hcap
    split at hcap
    · exact hcap
    · exact absurd hcap (by simp)
  refine (htCapsStays_iff _ _ _ _).mpr fun j hj hlt => ?_
  rw [length_htCapMem hfilled] at hlt
  rw [(getFilled_eq_some hfilled).1] at hlen
  exact absurd hlt (Nat.not_lt.mpr (Nat.le_trans hlen hj))

/-- **Behind the loops all is well** exactly if the template is. -/
theorem lateStep_stays : (lateStep e m n wpa wmm rs).Stays e old bufEnd n ↔
    n ≤ maxIeSz ∧ Below (bufEnd n) rs ∧ lenOf (getElem m n ssidIe) ≤ ssidSize ∧
      lenOf (getElem m n supportedRatesIe) + lenOf (getElem m n extSupportedRatesIe) ≤ ratesSize ∧
      LateFits e m n wpa wmm bufEnd ∧
      (e.ownSta = false → e.allocSta = false → newCiphers m n wpa = old) := by
  have hfail : (e.ownSta || e.allocSta) = false ↔ e.ownSta = false ∧ e.allocSta = false :=
    Bool.or_eq_false_iff
  constructor
  · rintro ⟨hcopied, hreads, hlate, hssid, hrates, hcap, -, hciphers⟩
    simp only [lateStep, below_append, below_searchReads, below_handlerReads] at hreads
    obtain ⟨⟨⟨hrs, hcapReads⟩, hinfo⟩, hhandlers⟩ := hreads
    refine ⟨hcopied, hrs, hssid, hrates, ⟨hcapReads, hcap, hinfo, hhandlers, ?_⟩, fun h h' => ?_⟩
    · exact below_chbwReads.mp hlate
    · exact hciphers (hfail.mpr ⟨h, h'⟩)
  · rintro ⟨hcopied, hrs, hssid, hrates, ⟨hcapReads, hcap, hinfo, hhandlers, hchbw⟩, hciphers⟩
    refine ⟨hcopied, ?_, below_chbwReads.mpr hchbw, hssid, hrates, hcap,
      fun m' q h => htCapsStays_of_len hcap h, fun h => hciphers (hfail.mp h).1 (hfail.mp h).2⟩
    simp only [lateStep, below_append, below_searchReads, below_handlerReads]
    exact ⟨⟨⟨hrs, hcapReads⟩, hinfo⟩, hhandlers⟩

end Late

/-! ## 6. The result -/

/-- What the WPA loop finds. -/
def FindsWpa (m : Mem) (n : Nat) (wpa : Option (Nat × Nat)) : Prop :=
  ∃ rounds rs, vendorSearch m wpaOui1 (wpaUse m) n rounds 12 0 = some (rs, wpa)

/-- What the WMM loop finds. -/
def FindsWmm (e : BeaconEnv) (m : Mem) (n : Nat) (wmm : Option (Nat × Nat)) : Prop :=
  ∃ rounds rs, wmmSearch e m n rounds = some (rs, wmm)

/-- **Templates that go well**, of `n` bytes in `IEs`.  The searches and the two loops do; the SSID,
the rates and the HT capabilities fit in what they fill; and where there is no `sta_info` for the AP
to be had, the ciphers are the ones of before. -/
structure TemplateFits (e : BeaconEnv) (old : Ciphers) (m : Mem) (n : Nat) (bufEnd : Nat → Nat) :
    Prop where
  early : EarlyFits m n (bufEnd n)
  wpa : VendorFits m wpaOui1 (wpaUse m) n (bufEnd n) (12, 0)
  wmm : e.wmmEnable = true → VendorFits m wmmParaIe wmmUse n (bufEnd n) (12, 0)
  ssid : lenOf (getElem m n ssidIe) ≤ ssidSize
  rates : lenOf (getElem m n supportedRatesIe) + lenOf (getElem m n extSupportedRatesIe) ≤ ratesSize
  late : ∀ wpa wmm, FindsWpa m n wpa → FindsWmm e m n wmm → LateFits e m n wpa wmm bufEnd
  ciphers : e.ownSta = false → e.allocSta = false → ∀ wpa, FindsWpa m n wpa →
    newCiphers m n wpa = old

/-- A call goes well if the length is not one that passes `IEs`, and the template, where the adapter
takes it, goes well. -/
def BeaconFits (e : BeaconEnv) (old : Ciphers) (pbuf behind : Mem) (len : Int)
    (bufEnd : Nat → Nat) : Prop :=
  e.isAp = true → len ≤ maxIeSz → toIeLength len ≤ maxIeSz ∧ (e.apMode = true →
    TemplateFits e old (fillIes pbuf behind (toIeLength len)) (toIeLength len) bufEnd)

section Result

variable {e : BeaconEnv} {old : Ciphers} {bufEnd : Nat → Nat} {m pbuf behind : Mem}
  {n rounds rounds' limit : Nat} {len : Int} {out out' : List (Nat × Nat) × Option (Nat × Nat)}

theorem wmmSearch_unique (h : wmmSearch e m n rounds = some out)
    (h' : wmmSearch e m n rounds' = some out') : out = out' := by
  unfold wmmSearch at h h'
  split at h
  · rename_i hwmm
    rw [if_pos hwmm] at h'
    exact vendorSearch_unique h h'
  · rename_i hwmm
    rw [if_neg hwmm] at h'
    exact Option.some.inj (h.symm.trans h')

/-- The WMM loop, where it is enabled, reads below the limit exactly if it goes well. -/
theorem wmmSearch_fits (h : wmmSearch e m n rounds = some out) (hbelow : Below limit out.1) :
    e.wmmEnable = true → VendorFits m wmmParaIe wmmUse n limit (12, 0) := by
  intro hwmm
  rw [wmmSearch, if_pos hwmm] at h
  exact vendorFits_of_search h hbelow

theorem wmmSearch_of_fits (rounds : Nat)
    (h : e.wmmEnable = true → VendorFits m wmmParaIe wmmUse n limit (12, 0))
    (hrounds : limit < 12 + rounds) (hpos : 0 < rounds) :
    ∃ out, wmmSearch e m n rounds = some out ∧ Below limit out.1 := by
  unfold wmmSearch
  split
  · rename_i hwmm
    exact search_of_vendorFits (h hwmm) hrounds hpos
  · exact ⟨_, rfl, IeHandlers.below_nil limit⟩

/-- **A template is taken as it should** exactly if it goes well. -/
theorem template_stays : (∃ rounds wpa wmm,
      vendorSearch m wpaOui1 (wpaUse m) n rounds 12 0 = some wpa ∧
      wmmSearch e m n rounds = some wmm ∧
      (lateStep e m n wpa.2 wmm.2 (earlyReads m n ++ wpa.1 ++ wmm.1)).Stays e old bufEnd n) ↔
    n ≤ maxIeSz ∧ TemplateFits e old m n bufEnd := by
  constructor
  · rintro ⟨rounds, wpa, wmm, hwpa, hwmm, hstays⟩
    obtain ⟨hcopied, hreads, hssid, hrates, hlate, hciphers⟩ := lateStep_stays.mp hstays
    simp only [below_append, below_earlyReads] at hreads
    obtain ⟨⟨hearly, hwpaReads⟩, hwmmReads⟩ := hreads
    have hfound : ∀ wpa', FindsWpa m n wpa' → wpa' = wpa.2 := by
      rintro wpa' ⟨k, rs, hk⟩
      exact congrArg Prod.snd (vendorSearch_unique hk hwpa)
    refine ⟨hcopied, hearly, vendorFits_of_search hwpa hwpaReads, wmmSearch_fits hwmm hwmmReads,
      hssid, hrates, ?_, ?_⟩
    · rintro wpa' wmm' hfinds ⟨k, rs, hk⟩
      obtain rfl := hfound wpa' hfinds
      obtain rfl := congrArg Prod.snd (wmmSearch_unique hk hwmm)
      exact hlate
    · rintro hown halloc wpa' hfinds
      obtain rfl := hfound wpa' hfinds
      exact hciphers hown halloc
  · rintro ⟨hcopied, hfits⟩
    obtain ⟨wpa, hwpa, hwpaReads⟩ :=
      search_of_vendorFits hfits.wpa (n := bufEnd n + 1) (by omega) (by omega)
    obtain ⟨wmm, hwmm, hwmmReads⟩ :=
      wmmSearch_of_fits (bufEnd n + 1) hfits.wmm (by omega) (by omega)
    refine ⟨bufEnd n + 1, wpa, wmm, hwpa, hwmm, lateStep_stays.mpr ?_⟩
    refine ⟨hcopied, ?_, hfits.ssid, hfits.rates, hfits.late _ _ ⟨_, _, hwpa⟩ ⟨_, _, hwmm⟩,
      fun hown halloc => hfits.ciphers hown halloc _ ⟨_, _, hwpa⟩⟩
    simp only [below_append, below_earlyReads]
    exact ⟨⟨hfits.early, hwpaReads⟩, hwmmReads⟩

/-- **A call is as it should be** exactly if it goes well. -/
theorem beaconStays_iff :
    BeaconStays e old pbuf behind len bufEnd ↔ BeaconFits e old pbuf behind len bufEnd := by
  unfold BeaconStays BeaconFits rtwCheckBeaconData
  by_cases hearly : e.isAp = false ∨ len > maxIeSz
  · simp only [if_pos hearly]
    refine iff_of_true ⟨0, _, rfl, ?_⟩ fun hap hlen => ?_
    · exact ⟨Nat.zero_le _, IeHandlers.below_nil _, IeHandlers.below_nil _, Nat.zero_le _,
        Nat.zero_le _, Nat.zero_le _, nofun, fun _ => rfl⟩
    · rcases hearly with hnot | hlong
      · exact absurd (hap.symm.trans hnot) (by decide)
      · exact absurd hlong (by omega)
  · have hgo := hearly
    simp only [not_or, Bool.not_eq_false] at hgo
    simp only [if_neg hearly]
    have hlen : len ≤ maxIeSz := by omega
    simp only [hgo.1, hlen, forall_const]
    by_cases hmode : e.apMode = false
    · simp only [if_pos hmode]
      have hnot : ¬ e.apMode = true := fun h => absurd (h.symm.trans hmode) (by decide)
      constructor
      · rintro ⟨-, out, hout, hstays⟩
        obtain rfl := Option.some.inj hout
        exact ⟨hstays.copied, fun h => absurd h hnot⟩
      · rintro ⟨hcopied, -⟩
        exact ⟨0, _, rfl, hcopied, IeHandlers.below_nil _, IeHandlers.below_nil _, Nat.zero_le _,
          Nat.zero_le _, Nat.zero_le _, nofun, fun _ => rfl⟩
    · have hmode' : e.apMode = true := by simpa using hmode
      simp only [if_neg hmode]
      simp only [hmode', forall_const, Option.bind_eq_bind,
        Option.bind_eq_some_iff, Option.some.injEq]
      constructor
      · rintro ⟨rounds, out, ⟨wpa, hwpa, wmm, hwmm, rfl⟩, hstays⟩
        have htemplate := template_stays.mp ⟨rounds, wpa, wmm, hwpa, hwmm, hstays⟩
        exact ⟨htemplate.1, htemplate.2⟩
      · rintro ⟨hcopied, hfits⟩
        obtain ⟨rounds, wpa, wmm, hwpa, hwmm, hstays⟩ := template_stays.mpr ⟨hcopied, hfits⟩
        exact ⟨rounds, _, ⟨wpa, hwpa, wmm, hwmm, rfl⟩, hstays⟩

end Result

/-- **Starting an AP from a template.**  For every template, length and adapter, the searches of
`rtw_check_beacon_data` end and read only the buffer, nothing is written past `IEs`, `Ssid`,
`supportRate`, `ht_cap` and `HT_caps`, and a failure leaves the ciphers, exactly if the call goes
well; `bufEnd` is where a buffer that holds `IELength` bytes is taken to end. -/
theorem check_beacon_data_iff (e : BeaconEnv) (old : Ciphers) (pbuf behind : Mem) (len : Int)
    (bufEnd : Nat → Nat) :
    BeaconStays e old pbuf behind len bufEnd ↔ BeaconFits e old pbuf behind len bufEnd :=
  beaconStays_iff

/-- An AP. -/
def apEnv : BeaconEnv where
  isAp := true
  apMode := true
  wmmEnable := true
  htEnable := true
  wifiSpec := false
  apState := true
  sgi20 := true
  sgi40 := true
  ldpcRx := true
  stbcRx := true
  ht := ⟨false, false⟩
  maxRxAmpduFactor := 3
  rxRateMask := fun _ => 0xff
  txRateMask := fun _ => 0xff
  supported := fun _ => 0xff
  extCapab := fun _ => 0
  ownSta := true
  allocSta := true

/-- The fixed fields, and twenty supported rates. -/
def twentyRates : Mem := fun i => if i = 12 then 1 else if i = 13 then 20 else 0x82

/-- The ciphers of a BSS with WPA2. -/
def ccmpCiphers : Ciphers := ⟨wpaCipherCcmp, wpaCipherCcmp, 0, 0⟩

/-- Twenty rates pass `supportRate`, wherever the buffer ends; and a template without elements takes
the ciphers of a BSS, though there is no `sta_info` to be had for the AP. -/
theorem template_goes_wrong :
    (∀ bufEnd, ¬ BeaconStays apEnv ccmpCiphers twentyRates (fun _ => 0) 34 bufEnd) ∧
      ∀ bufEnd, ¬ BeaconStays { apEnv with ownSta := false, allocSta := false } ccmpCiphers
        (fun _ => 0) (fun _ => 0) 12 bufEnd := by
  constructor
  · intro bufEnd h
    have hrates := ((beaconStays_iff.mp h rfl (by decide)).2 rfl).rates
    have hfound : getElem (fillIes twentyRates (fun _ => 0) 34) 34 supportedRatesIe =
        some (12, 20) := by decide
    change lenOf (getElem (fillIes twentyRates (fun _ => 0) 34) 34 _) + _ ≤ _ at hrates
    rw [hfound] at hrates
    exact absurd (Nat.le_trans (Nat.le_add_right 20 _) hrates) (by decide)
  · intro bufEnd h
    have hciphers := ((beaconStays_iff.mp h rfl (by decide)).2 rfl).ciphers rfl rfl none
      ⟨1, _, rfl⟩
    exact absurd hciphers (by decide)

end BeaconData

end Rtl8723bs
