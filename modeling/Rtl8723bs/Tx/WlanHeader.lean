/-
# The header that `rtw_make_wlanhdr` makes

What a receiver reads in it: destination, source, the DS bits and the subtype.  A station sends its
own address and puts the destination third; an access point puts the source third; a member of an
IBSS sends destination and its own address.  The fragment loop changes More Fragments in the
first header and nothing else.
-/
import Rtl8723bs.Tx.CoalesceBounds
import Rtl8723bs.Tx.FragComplete

namespace Rtl8723bs

/-! ## 1. Bits and addresses in memory -/

section Memory

variable {m : Mem} {off : Nat}

/-- A flag of the frame control field is a bit of it. -/
theorem flag_eq_testBit (k : Nat) : decide (le16 m 0 &&& 2 ^ k ≠ 0) = (le16 m 0).testBit k := by
  rw [Nat.and_two_pow]
  cases (le16 m 0).testBit k <;> simp

theorem orLe16_testBit {bits k : Nat} (hk : k < 16) :
    (le16 (orLe16 m off bits) off).testBit k = ((le16 m off).testBit k || bits.testBit k) := by
  unfold orLe16
  rw [le16_setLe16, show (65536 : Nat) = 2 ^ 16 from rfl, Nat.testBit_mod_two_pow,
    Nat.testBit_or, decide_eq_true hk, Bool.true_and]

theorem andLe16_testBit {bits k : Nat} (hk : k < 16) :
    (le16 (andLe16 m off bits) off).testBit k = ((le16 m off).testBit k && bits.testBit k) := by
  unfold andLe16
  rw [le16_setLe16, show (65536 : Nat) = 2 ^ 16 from rfl, Nat.testBit_mod_two_pow,
    Nat.testBit_and, decide_eq_true hk, Bool.true_and]

/-- An address that was written is read. -/
theorem readAddr_writeAddr (x : MacAddr) : readAddr (writeAddr m off x) off = x := by
  have hread := readBytes_overwrite m off [x.b0, x.b1, x.b2, x.b3, x.b4, x.b5]
  simp only [readBytes, List.length_cons, List.length_nil, List.cons.injEq, and_true] at hread
  obtain ⟨h0, h1, h2, h3, h4, h5⟩ := hread
  unfold readAddr writeAddr
  rw [h0, h1, h2, h3, h4, h5]

theorem readAddr_congr {m' : Mem} {off' : Nat} (h : ∀ i < 6, m' (off' + i) = m (off + i)) :
    readAddr m' off' = readAddr m off := by
  unfold readAddr
  rw [h 1 (by decide), h 2 (by decide), h 3 (by decide), h 4 (by decide), h 5 (by decide),
    show m' off' = m off from h 0 (by decide)]

end Memory

/-! ## 2. What a header says -/

/-- The DS bits of a mode. -/
def dsBits (a : Adapter) : Nat :=
  if checkFwstate a wifiStationState then 0x0100
  else if checkFwstate a wifiApState then 0x0200
  else 0

/-- The source that a header carries: only an access point sends for others. -/
def sentSource (adapter : Adapter) (a : PktAttrib) : MacAddr :=
  if checkFwstate adapter wifiStationState then a.ta
  else if checkFwstate adapter wifiApState then a.src
  else a.ta

/-- **The header at `off`**: subtype and DS bits, whatever Retry, More Data, Protected Frame and
More Fragments may be, and the addresses in the places the DS bits give them. -/
structure HeaderSays (adapter : Adapter) (a : PktAttrib) (m : Mem) (off : Nat) : Prop where
  bits : ∀ k < 16, k ∉ [10, 13, 14] →
    (le16 m off).testBit k = (a.subtype ||| dsBits adapter).testBit k
  dst : readAddr m (off + if checkFwstate adapter wifiStationState then 16 else 4) = a.dst
  src : readAddr m (off + if checkFwstate adapter wifiStationState = false ∧
    checkFwstate adapter wifiApState = true then 16 else 10) = sentSource adapter a

section Says

variable {adapter : Adapter} {a : PktAttrib} {m : Mem} {off : Nat}

/-- A copy of the header says the same. -/
theorem HeaderSays.congr (h : HeaderSays adapter a m off) {m' : Mem} {off' : Nat}
    (hbits : ∀ k < 16, k ∉ [10, 13, 14] → (le16 m' off').testBit k = (le16 m off).testBit k)
    (hrest : ∀ i, 4 ≤ i → i < 22 → m' (off' + i) = m (off + i)) : HeaderSays adapter a m' off' := by
  refine ⟨fun k hk hne => (hbits k hk hne).trans (h.bits k hk hne), ?_, ?_⟩
  · rw [← h.dst]
    refine readAddr_congr fun i hi => ?_
    rw [Nat.add_assoc, Nat.add_assoc]
    split <;> exact hrest _ (by omega) (by omega)
  · rw [← h.src]
    refine readAddr_congr fun i hi => ?_
    rw [Nat.add_assoc, Nat.add_assoc]
    split <;> exact hrest _ (by omega) (by omega)

/-- What a receiver makes of it. -/
theorem HeaderSays.read (h : HeaderSays adapter a m 0)
    (hsub : a.subtype = wifiDataType ∨ a.subtype = wifiQosDataType) :
    getDa m = a.dst ∧ getSa m = sentSource adapter a ∧ getOrder m = false ∧
      (getFrameSubType m &&& 0x80 ≠ 0 ↔ a.subtype = wifiQosDataType) := by
  have hbit : ∀ k < 16, k ∉ [10, 13, 14] →
      (le16 m 0).testBit k = (a.subtype ||| dsBits adapter).testBit k := h.bits
  have hto : getToDs m = checkFwstate adapter wifiStationState := by
    have hflag := (flag_eq_testBit 8).trans (hbit 8 (by decide) (by decide))
    refine hflag.trans ?_
    unfold dsBits
    rcases hsub with hsub | hsub <;> rw [hsub] <;>
      cases checkFwstate adapter wifiStationState <;>
      cases checkFwstate adapter wifiApState <;> rfl
  have hfrom : getFrDs m = (!checkFwstate adapter wifiStationState &&
      checkFwstate adapter wifiApState) := by
    have hflag := (flag_eq_testBit 9).trans (hbit 9 (by decide) (by decide))
    refine hflag.trans ?_
    unfold dsBits
    rcases hsub with hsub | hsub <;> rw [hsub] <;>
      cases checkFwstate adapter wifiStationState <;>
      cases checkFwstate adapter wifiApState <;> rfl
  have hdst := h.dst
  have hsrc := h.src
  rw [Nat.zero_add] at hdst hsrc
  refine ⟨?_, ?_, ?_, ?_⟩
  · unfold getDa
    rw [hto, ← hdst]
    cases checkFwstate adapter wifiStationState <;> rfl
  · unfold getSa
    rw [hto, hfrom, ← hsrc]
    cases checkFwstate adapter wifiStationState <;>
      cases checkFwstate adapter wifiApState <;> rfl
  · have hflag := (flag_eq_testBit 15).trans (hbit 15 (by decide) (by decide))
    refine hflag.trans ?_
    unfold dsBits
    rcases hsub with hsub | hsub <;> rw [hsub] <;>
      cases checkFwstate adapter wifiStationState <;>
      cases checkFwstate adapter wifiApState <;> rfl
  · have hseven : (getFrameSubType m &&& 0x80 ≠ 0) ↔ (le16 m 0).testBit 7 = true := by
      unfold getFrameSubType
      rw [Nat.and_assoc, ← flag_eq_testBit, decide_eq_true_iff]
      rfl
    rw [hseven, hbit 7 (by decide) (by decide)]
    unfold dsBits
    rcases hsub with hsub | hsub <;> rw [hsub] <;>
      cases checkFwstate adapter wifiStationState <;>
      cases checkFwstate adapter wifiApState <;> decide

end Says

/-! ## 3. `rtw_make_wlanhdr` -/

section Made

variable {t : StaTable} {env : TxEnv} {stas stas' : StaId → TxSta} {m m' : Mem} {hdr : Nat}
  {a a' : PktAttrib}

/-- The addresses lie where `HeaderSays` looks for them. -/
theorem wlanhdrAddrs_told {qos : Bool} (hstart : le16 m hdr = a.subtype)
    (h : wlanhdrAddrs env m hdr a = some (m', qos)) : HeaderSays env.adapter a m' hdr := by
  have hwrite : ∀ (m₁ : Mem) (x y z : MacAddr),
      let w := writeAddr (writeAddr (writeAddr m₁ (hdr + 4) x) (hdr + 10) y) (hdr + 16) z
      le16 w hdr = le16 m₁ hdr ∧ readAddr w (hdr + 4) = x ∧ readAddr w (hdr + 10) = y ∧
        readAddr w (hdr + 16) = z := by
    intro m₁ x y z
    refine ⟨?_, ?_, ?_, readAddr_writeAddr z⟩
    · unfold writeAddr
      refine le16_congr ?_ ?_ <;>
        rw [overwrite_of_lt (by omega), overwrite_of_lt (by omega), overwrite_of_lt (by omega)]
    · refine Eq.trans (readAddr_congr fun i hi => ?_) (@readAddr_writeAddr m₁ (hdr + 4) x)
      exact (overwrite_of_lt (by omega)).trans (overwrite_of_lt (by omega))
    · refine Eq.trans (readAddr_congr fun i hi => ?_)
        (@readAddr_writeAddr (writeAddr m₁ (hdr + 4) x) (hdr + 10) y)
      exact overwrite_of_lt (by omega)
  unfold wlanhdrAddrs at h
  dsimp only at h
  split at h
  · rename_i hsta
    cases h
    obtain ⟨hfc, h4, h10, h16⟩ := hwrite (orLe16 m hdr 0x0100) env.adapter.bssid a.ta a.dst
    refine ⟨fun k hk _ => ?_, ?_, ?_⟩
    · rw [hfc, orLe16_testBit hk, hstart, ← Nat.testBit_or]
      unfold dsBits
      rw [if_pos hsta]
    · rw [if_pos hsta]
      exact h16
    · unfold sentSource
      rw [if_neg (by simp [hsta]), if_pos hsta]
      exact h10
  · rename_i hsta
    rw [Bool.not_eq_true] at hsta
    split at h
    · rename_i hap
      cases h
      obtain ⟨hfc, h4, h10, h16⟩ := hwrite (orLe16 m hdr 0x0200) a.dst env.adapter.bssid a.src
      refine ⟨fun k hk _ => ?_, ?_, ?_⟩
      · rw [hfc, orLe16_testBit hk, hstart, ← Nat.testBit_or]
        unfold dsBits
        rw [if_neg (by simp [hsta]), if_pos hap]
      · rw [if_neg (by simp [hsta])]
        exact h4
      · unfold sentSource
        rw [if_pos ⟨hsta, hap⟩, if_neg (by simp [hsta]), if_pos hap]
        exact h16
    · rename_i hap
      rw [Bool.not_eq_true] at hap
      split at h
      · cases h
        obtain ⟨hfc, h4, h10, h16⟩ := hwrite m a.dst a.ta env.adapter.bssid
        refine ⟨fun k hk _ => ?_, ?_, ?_⟩
        · rw [hfc, hstart]
          unfold dsBits
          rw [if_neg (by simp [hsta]), if_neg (by simp [hap]), Nat.or_zero]
        · rw [if_neg (by simp [hsta])]
          exact h4
        · unfold sentSource
          rw [if_neg (by simp [hap]), if_neg (by simp [hsta]), if_neg (by simp [hap])]
          exact h10
      · cases h

/-- More Data, Protected Frame, the QoS field and the sequence control field are elsewhere. -/
theorem wlanhdrFlags_told (hlen : a.hdrlen = 24 ∨ a.hdrlen = 26) {qos : Bool}
    (h : HeaderSays env.adapter a m hdr) :
    HeaderSays env.adapter a (wlanhdrFlags m hdr a qos) hdr := by
  have hbit : ∀ (b : Prop) [Decidable b] (m₁ : Mem) (bits k : Nat), k < 16 →
      bits.testBit k = false →
      (le16 (if b then orLe16 m₁ hdr bits else m₁) hdr).testBit k = (le16 m₁ hdr).testBit k := by
    intro b _ m₁ bits k hk hbits
    split
    · rw [orLe16_testBit hk, hbits, Bool.or_false]
    · rfl
  have hbehind : ∀ (b : Prop) [Decidable b] (m₁ : Mem) (bits x : Nat), hdr + 2 ≤ x →
      (if b then orLe16 m₁ hdr bits else m₁) x = m₁ x := by
    intro b _ m₁ bits x hx
    split
    · exact setLe16_of_le hx
    · rfl
  have hqos : ∀ (m₁ : Mem) (x : Nat), x < hdr + 22 →
      (if qos = true then wlanhdrQos m₁ (hdr + a.hdrlen - 2) a else m₁) x = m₁ x := by
    intro m₁ x hx
    have hconf := @wlanhdrQos_confined m₁ a _ _ _ (Nat.le_refl (hdr + a.hdrlen - 2)) (Nat.le_refl _)
    exact hconf.ite x (.inl (by omega))
  refine h.congr (fun k hk hne => ?_) (fun i hi hi' => ?_)
  · have hflag : ∀ j ∈ [13, 14], (2 ^ j).testBit k = false := by
      intro j hj
      rw [Nat.testBit_two_pow, decide_eq_false]
      rintro rfl
      simp only [List.mem_cons, List.not_mem_nil, or_false] at hne hj
      omega
    unfold wlanhdrFlags
    dsimp only
    rw [le16_congr (hqos _ hdr (by omega)) (hqos _ (hdr + 1) (by omega)),
      hbit _ _ 0x4000 k hk (hflag 14 (by decide)), hbit _ _ 0x2000 k hk (hflag 13 (by decide))]
  · unfold wlanhdrFlags
    rw [hqos _ _ (by omega), hbehind _ _ _ _ (by omega), hbehind _ _ _ _ (by omega)]

/-- A header is made in a mode that has one. -/
theorem rtwMakeWlanhdr_mode (hsub : a.subtype = wifiDataType ∨ a.subtype = wifiQosDataType)
    (h : rtwMakeWlanhdr t env stas m hdr a = some (m', a', stas')) :
    checkFwstate env.adapter wifiStationState = true ∨ checkFwstate env.adapter wifiApState = true ∨
      checkFwstate env.adapter wifiAdhocState = true ∨
      checkFwstate env.adapter wifiAdhocMasterState = true := by
  have hdata : ¬ a.subtype &&& wifiDataType = 0 := by
    rcases hsub with hsub | hsub <;> rw [hsub] <;> decide
  unfold rtwMakeWlanhdr at h
  dsimp only at h
  rw [if_neg hdata] at h
  obtain ⟨_, haddrs, -⟩ := Option.bind_eq_some_iff.mp h
  unfold wlanhdrAddrs at haddrs
  dsimp only at haddrs
  split_ifs at haddrs with hsta hap hadhoc
  · exact .inl hsta
  · exact .inr (.inl hap)
  · exact .inr (.inr hadhoc)

/-- **A header that was made says where the packet goes and where it is from.** -/
theorem rtwMakeWlanhdr_told (hlen : a.hdrlen = 24 ∨ a.hdrlen = 26)
    (hsub : a.subtype = wifiDataType ∨ a.subtype = wifiQosDataType)
    (h : rtwMakeWlanhdr t env stas m hdr a = some (m', a', stas')) :
    HeaderSays env.adapter a m' hdr := by
  have hdata : ¬ a.subtype &&& wifiDataType = 0 := by
    rcases hsub with hsub | hsub <;> rw [hsub] <;> decide
  have hstart : le16 (orLe16 (andLe16 (overwrite m hdr (List.replicate wlanhdrOffset 0)) hdr 0xff03)
      hdr a.subtype) hdr = a.subtype := by
    unfold orLe16 andLe16
    rw [le16_setLe16, le16_setLe16, show le16 (overwrite m hdr (List.replicate wlanhdrOffset 0)) hdr
      = 0 from le16_zeroed m hdr (by decide : 0 + 1 < wlanhdrOffset), Nat.zero_and]
    rcases hsub with hsub | hsub <;> rw [hsub] <;> rfl
  unfold rtwMakeWlanhdr at h
  dsimp only at h
  rw [if_neg hdata] at h
  obtain ⟨⟨m₁, qos⟩, haddrs, h⟩ := Option.bind_eq_some_iff.mp h
  dsimp only at h
  split at h
  · cases h
  · cases h
    have htold : HeaderSays env.adapter a (wlanhdrFlags m₁ hdr a qos) hdr :=
      wlanhdrFlags_told hlen (wlanhdrAddrs_told hstart haddrs)
    -- the sequence control field is behind the addresses
    have hseq : ∀ (v : Nat), ∀ x < hdr + 22, setLe16 (wlanhdrFlags m₁ hdr a qos) (hdr + 22) v x
        = wlanhdrFlags m₁ hdr a qos x := fun v x hx => setLe16_of_lt hx
    exact htold.congr
      (fun k _ _ => congrArg (·.testBit k)
        (le16_congr (hseq _ hdr (by omega)) (hseq _ (hdr + 1) (by omega))))
      fun i _ hi => hseq _ _ (by omega)

/-- Is there a QoS field to fill in? -/
def wlanQos (env : TxEnv) (a : PktAttrib) : Bool :=
  if checkFwstate env.adapter wifiStationState then env.qosOption else a.qosEn

theorem wlanhdrAddrs_qos {qos : Bool} (h : wlanhdrAddrs env m hdr a = some (m', qos)) :
    qos = wlanQos env a := by
  unfold wlanhdrAddrs at h
  unfold wlanQos
  dsimp only at h
  split_ifs at h ⊢ <;> cases h <;> rfl

/-- The priority is in the low bits of the QoS field. -/
theorem wlanhdrQos_priority {qc : Nat} (h : le16 m qc % 16 = 0) :
    le16 (wlanhdrQos m qc a) qc % 16 = a.priority % 16 := by
  have hlow : ∀ (m₁ : Mem) (bits : Nat),
      le16 (orLe16 m₁ qc bits) qc % 16 = le16 m₁ qc % 16 ||| bits % 16 := by
    intro m₁ bits
    unfold orLe16
    rw [le16_setLe16, or_low]
  have hhigh : ∀ (b : Prop) [Decidable b] (m₁ : Mem) (bits : Nat), bits % 16 = 0 →
      le16 (if b then orLe16 m₁ qc bits else m₁) qc % 16 = le16 m₁ qc % 16 := by
    intro b _ m₁ bits hbits
    split
    · rw [hlow, hbits, Nat.or_zero]
    · rfl
  unfold wlanhdrQos
  dsimp only
  rw [hhigh _ _ (a.amsdu % 2 * 128) (by omega), hlow, show a.ackPolicy % 4 * 32 % 16 = 0 by omega,
    Nat.or_zero, hlow, show a.eosp % 2 * 16 % 16 = 0 by omega, Nat.or_zero]
  split
  · rw [hlow, h, Nat.zero_or, Nat.mod_mod]
  · rename_i hzero
    rw [h, not_not.mp hzero]

/-- **The priority in a QoS header.** -/
theorem rtwMakeWlanhdr_priority (hlen : a.hdrlen = 26) (hsub : a.subtype = wifiQosDataType)
    (h : rtwMakeWlanhdr t env stas m hdr a = some (m', a', stas')) :
    le16 m' (hdr + 24) % 16 = if wlanQos env a then a.priority % 16 else 0 := by
  have hdata : ¬ a.subtype &&& wifiDataType = 0 := by
    rw [hsub]
    decide
  have hstart : le16 (orLe16 (andLe16 (overwrite m hdr (List.replicate wlanhdrOffset 0)) hdr 0xff03)
      hdr a.subtype) (hdr + 24) = 0 := by
    rw [le16_orLe16_ne (.inr (by omega)),
      ← le16_zeroed m hdr (by decide : 24 + 1 < wlanhdrOffset)]
    exact le16_congr (setLe16_of_le (by omega)) (setLe16_of_le (by omega))
  unfold rtwMakeWlanhdr at h
  dsimp only at h
  rw [if_neg hdata] at h
  obtain ⟨⟨m₁, qos⟩, haddrs, h⟩ := Option.bind_eq_some_iff.mp h
  have hq := wlanhdrAddrs_qos haddrs
  have hconf := wlanhdrAddrs_confined (Nat.le_refl (hdr + 22)) haddrs
  have h₁ : le16 m₁ (hdr + 24) = 0 := by
    rw [← hstart]
    exact le16_congr (hconf _ (.inr (by omega))) (hconf _ (.inr (by omega)))
  dsimp only at h
  split at h
  · cases h
  · cases h
    have hflag : ∀ (b : Prop) [Decidable b] (m₂ : Mem) (bits : Nat), le16 m₂ (hdr + 24) = 0 →
        le16 (if b then orLe16 m₂ hdr bits else m₂) (hdr + 24) = 0 := by
      intro b _ m₂ bits h₂
      split
      · exact (le16_orLe16_ne (.inr (by omega))).trans h₂
      · exact h₂
    have hflags := hflag (a.encrypt ≠ 0) _ 0x4000 (hflag (a.mdata = true) m₁ 0x2000 h₁)
    rw [le16_congr (setLe16_of_le (by omega)) (setLe16_of_le (by omega)), ← hq, hlen,
      show hdr + 26 - 2 = hdr + 24 from rfl]
    split
    · exact wlanhdrQos_priority (by rw [hflags])
    · rw [hflags]

end Made

/-! ## 4. The first fragment -/

section First

variable {adapter : Adapter} {a : PktAttrib} {fragLen B : Nat}

/-- The loop goes forward only. -/
theorem coalesceLoop_below : ∀ {fuel : Nat} {m : Mem} {memStart i : Nat} {pk : List UInt8}
    {l : Laid}, coalesceLoop a fragLen B fuel m memStart i pk = some l →
    ∀ x < memStart, l.mem x = m x
  | 0, _, _, _, _, _, h, _, _ => by cases h
  | fuel + 1, m, memStart, i, pk, l, h, x, hx => by
    rcases coalesceLoop_round h with ⟨-, hmem, -, -⟩ | ⟨-, l', hl', rfl⟩
    · rw [hmem]
      exact (setLe16_of_lt hx).trans (laidFrag_below hx)
    · have hnext := @le_nextHdr a fragLen memStart i pk
      exact (coalesceLoop_below hl' x (by omega)).trans
        ((overwrite_of_lt (by omega)).trans (laidFrag_below hx))

/-- Behind the frame control field, the first header stays as it was made. -/
theorem coalesceLoop_header {fuel : Nat} {m : Mem} {memStart i : Nat} {pk : List UInt8} {l : Laid}
    (h : coalesceLoop a fragLen B fuel m memStart i pk = some l) {x : Nat} (hx : memStart + 2 ≤ x)
    (hhdr : x < memStart + a.hdrlen) : l.mem x = m x := by
  cases fuel with
  | zero => cases h
  | succ fuel =>
    rcases coalesceLoop_round h with ⟨-, hmem, -, -⟩ | ⟨-, l', hl', rfl⟩
    · rw [hmem]
      exact (setLe16_of_le hx).trans (laidFrag_header hx hhdr)
    · have hnext := @le_nextHdr a fragLen memStart i pk
      exact (coalesceLoop_below hl' x (by omega)).trans
        ((overwrite_of_lt (by omega)).trans (laidFrag_header hx hhdr))

/-- **The first header is the one that was made**, but for More Fragments. -/
theorem coalesceLoop_told (hlen : a.hdrlen = 24 ∨ a.hdrlen = 26) {fuel : Nat} {m : Mem}
    {memStart i : Nat} {pk : List UInt8} {l : Laid}
    (h : coalesceLoop a fragLen B fuel m memStart i pk = some l)
    (htold : HeaderSays adapter a m memStart) : HeaderSays adapter a l.mem memStart := by
  have hten : ∀ k < 16, k ∉ [10, 13, 14] →
      (0x0400 : Nat).testBit k = false ∧ (0xfbff : Nat).testBit k = true := by decide
  refine htold.congr (fun k hk hne => ?_) fun j hj hj' =>
    coalesceLoop_header h (by omega) (by omega)
  have hlaid : (le16 (laidFrag a fragLen m memStart i pk) memStart).testBit k
      = (le16 m memStart).testBit k := by
    unfold laidFrag
    rw [le16_congr (overwrite_of_lt (by omega)) (overwrite_of_lt (by omega))]
    unfold setMFrag
    rw [orLe16_testBit hk, (hten k hk hne).1, Bool.or_false]
  cases fuel with
  | zero => cases h
  | succ fuel =>
    rcases coalesceLoop_round h with ⟨-, hmem, -, -⟩ | ⟨-, l', hl', rfl⟩
    · rw [hmem, ← hlaid]
      unfold clearMFrag
      rw [andLe16_testBit hk, (hten k hk hne).2, Bool.and_true]
    · have hnext := @le_nextHdr a fragLen memStart i pk
      have hkept : ∀ x < memStart + a.hdrlen, l'.mem x = laidFrag a fragLen m memStart i pk x :=
        fun x hx => (coalesceLoop_below hl' x (by omega)).trans (overwrite_of_lt (by omega))
      rw [← hlaid]
      exact congrArg (·.testBit k)
        (le16_congr (hkept memStart (by omega)) (hkept (memStart + 1) (by omega)))

end First

end Rtl8723bs
