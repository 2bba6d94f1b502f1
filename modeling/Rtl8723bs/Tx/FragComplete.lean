/-
# Is a packet in its fragments?

`rtw_xmitframe_coalesce` copies the header of the first fragment in front of each further one, sets
More Fragments and clears it again on the last.  The bodies of the fragments are the LLC header and
the packet, whole and in order, and the counts are right.  But the sequence control field goes
along with the header, and nobody writes a fragment number into it: all fragments carry number 0
(`well_laid_iff`).

What is looked at is the buffer as the loop leaves it, before MIC and encryption.
-/
import Mathlib.Data.Nat.Bitwise
import Mathlib.Tactic.SplitIfs
import Rtl8723bs.Tx.FragLayout

namespace Rtl8723bs

/-! ## 1. What is asked of the fragments -/

/-- The body of a fragment, between IV and ICV. -/
def Frag.body (f : Frag) (a : PktAttrib) (m : Mem) : List UInt8 :=
  readBytes m (f.hdr + a.hdrlen + a.ivLen) f.len

/-- The frame control field's More Fragments. -/
def Frag.moreFrag (f : Frag) (m : Mem) : Bool := getMFrag fun x => m (f.hdr + x)

/-- The sequence control field, number and fragment number. -/
def Frag.seqCtrl (f : Frag) (m : Mem) : Nat := le16 m (f.hdr + 22)

/-- **The packet is complete in its fragments**: nothing is lost or doubled, the ends are marked,
and what is counted is what was written. -/
structure PktInFrags (a : PktAttrib) (pkt : List UInt8) (l : Laid) : Prop where
  bodies : l.frags.flatMap (·.body a l.mem) = rtwPutSnap a.etherType ++ pkt.drop a.pktHdrlen
  more : l.frags.map (·.moreFrag l.mem) = List.replicate (l.frags.length - 1) true ++ [false]
  oneSeq : ∃ seq, ∀ f ∈ l.frags, f.seqCtrl l.mem / 16 = seq
  count : l.nrFrags = l.frags.length
  size : ∃ f, l.frags.getLast? = some f ∧
    l.lastTxcmdsz = a.hdrlen + a.ivLen + f.len + if a.bswenc then a.icvLen else 0

/-- **And they are numbered from 0 on.** -/
structure WellLaid (a : PktAttrib) (pkt : List UInt8) (l : Laid) : Prop
    extends PktInFrags a pkt l where
  numbers : l.frags.map (·.seqCtrl l.mem % 16) = List.range l.frags.length

/-! ## 2. Bits and bytes -/

section Bits

variable {m : Mem}

theorem le16_congr {m' : Mem} {off off' : Nat} (h0 : m' off' = m off)
    (h1 : m' (off' + 1) = m (off + 1)) : le16 m' off' = le16 m off := by
  unfold le16
  rw [h0, h1]

/-- More Fragments is bit 10. -/
theorem getMFrag_iff : getMFrag m = (le16 m 0).testBit 10 := by
  unfold getMFrag
  rw [show (0x0400 : Nat) = 2 ^ 10 from rfl, Nat.and_two_pow]
  cases (le16 m 0).testBit 10 <;> decide

theorem le16_shift (f : Nat) : le16 (fun x => m (f + x)) 0 = le16 m f := rfl

theorem testBit_of_mod {v : Nat} : (v % 65536).testBit 10 = v.testBit 10 := by
  rw [show (65536 : Nat) = 2 ^ 16 from rfl, Nat.testBit_mod_two_pow]
  simp

theorem le16_setMFrag (pbuf : Nat) : (le16 (setMFrag m pbuf) pbuf).testBit 10 = true := by
  unfold setMFrag orLe16
  rw [le16_setLe16, testBit_of_mod, Nat.testBit_or, show (0x0400 : Nat).testBit 10 = true by decide,
    Bool.or_true]

theorem le16_clearMFrag (pbuf : Nat) : (le16 (clearMFrag m pbuf) pbuf).testBit 10 = false := by
  unfold clearMFrag andLe16
  rw [le16_setLe16, testBit_of_mod, Nat.testBit_and,
    show (0xfbff : Nat).testBit 10 = false by decide, Bool.and_false]

/-- A piece in the middle of what was written. -/
theorem readBytes_inside {off : Nat} (pre mid post : List UInt8) :
    readBytes (overwrite m off (pre ++ mid ++ post)) (off + pre.length) mid.length = mid := by
  have hall := readBytes_overwrite m off (pre ++ mid ++ post)
  have hrest := (readBytes_append (hall.trans (List.append_assoc pre mid post))).2
  rw [List.length_append] at hrest
  rw [readBytes_add] at hrest
  exact (List.append_inj hrest (length_readBytes _ _ _)).1

end Bits

/-! ## 3. The loop -/

section Loop

variable {a : PktAttrib} {fragLen B : Nat}

/-- The buffer with a fragment in it. -/
def laidFrag (a : PktAttrib) (fragLen : Nat) (m : Mem) (memStart i : Nat) (pk : List UInt8) : Mem :=
  overwrite (setMFrag m memStart) (memStart + a.hdrlen) (fragBody a fragLen i pk)

/-- The place of the next header. -/
def nextHdr (a : PktAttrib) (fragLen memStart i : Nat) (pk : List UInt8) : Nat :=
  rnd4 (memStart + a.hdrlen + (fragBody a fragLen i pk).length) + txdescOffset

/-- The fragment of a round. -/
def roundFrag (a : PktAttrib) (fragLen memStart i : Nat) (pk : List UInt8) : Frag :=
  ⟨memStart, (fragSnap a i).length + (fragData a fragLen i pk).length⟩

/-- One round, in full. -/
theorem coalesceLoop_round {fuel : Nat} {m : Mem} {memStart i : Nat} {pk : List UInt8} {l : Laid}
    (h : coalesceLoop a fragLen B (fuel + 1) m memStart i pk = some l) :
    ((isMcast a.ra = true ∨ pk.drop (fragData a fragLen i pk).length = []) ∧
      l.mem = clearMFrag (laidFrag a fragLen m memStart i pk) memStart ∧
      l.frags = [roundFrag a fragLen memStart i pk] ∧
      l.lastTxcmdsz = a.hdrlen + a.ivLen + (if i + 1 = 1 then (fragSnap a i).length else 0) +
        (if a.bswenc then a.icvLen else 0) + (fragData a fragLen i pk).length) ∨
    (isMcast a.ra = false ∧ ∃ l',
      coalesceLoop a fragLen B fuel
        (overwrite (laidFrag a fragLen m memStart i pk) (nextHdr a fragLen memStart i pk)
          (readBytes (laidFrag a fragLen m memStart i pk) (B + txdescOffset) a.hdrlen))
        (nextHdr a fragLen memStart i pk) (i + 1)
        (pk.drop (fragData a fragLen i pk).length) = some l' ∧
      l = { l' with frags := roundFrag a fragLen memStart i pk :: l'.frags }) := by
  rw [coalesceLoop] at h
  dsimp only at h
  split at h
  · rename_i hlast
    cases h
    exact .inl ⟨hlast, rfl, rfl, rfl⟩
  · rename_i hlast
    obtain ⟨l', hl', hl⟩ := Option.map_eq_some_iff.mp h
    rw [not_or, Bool.not_eq_true] at hlast
    exact .inr ⟨hlast.1, l', hl', hl.symm⟩

variable {m : Mem} {memStart i : Nat} {pk : List UInt8}

/-- A fragment is written from its header on. -/
theorem laidFrag_below {x : Nat} (hx : x < memStart) :
    laidFrag a fragLen m memStart i pk x = m x := by
  unfold laidFrag setMFrag orLe16
  rw [overwrite_of_lt (by omega), setLe16_of_lt hx]

/-- Of the header only the frame control field is written. -/
theorem laidFrag_header {x : Nat} (hx : memStart + 2 ≤ x) (hhdr : x < memStart + a.hdrlen) :
    laidFrag a fragLen m memStart i pk x = m x := by
  unfold laidFrag setMFrag orLe16
  rw [overwrite_of_lt hhdr, setLe16_of_le hx]

theorem laidFrag_moreFrag (hhdr : 2 ≤ a.hdrlen) :
    (le16 (laidFrag a fragLen m memStart i pk) memStart).testBit 10 = true := by
  have hsame : le16 (laidFrag a fragLen m memStart i pk) memStart
      = le16 (setMFrag m memStart) memStart :=
    le16_congr (overwrite_of_lt (by omega)) (overwrite_of_lt (by omega))
  rw [hsame]
  exact le16_setMFrag memStart

/-- The body is where it is looked for. -/
theorem laidFrag_body : readBytes (laidFrag a fragLen m memStart i pk)
    (memStart + a.hdrlen + a.ivLen) (roundFrag a fragLen memStart i pk).len
      = fragSnap a i ++ fragData a fragLen i pk := by
  have hread := @readBytes_inside (setMFrag m memStart) (memStart + a.hdrlen)
    (readBytes a.iv 0 a.ivLen) (fragSnap a i ++ fragData a fragLen i pk) (swIcv a)
  rw [length_readBytes, List.length_append, ← List.append_assoc (readBytes a.iv 0 a.ivLen)] at hread
  exact hread

theorem le_nextHdr : memStart + a.hdrlen + a.ivLen + (roundFrag a fragLen memStart i pk).len + 40
    ≤ nextHdr a fragLen memStart i pk := by
  have hrnd := le_rnd4 (memStart + a.hdrlen + (fragBody a fragLen i pk).length)
  have hbody : (fragBody a fragLen i pk).length
      = a.ivLen + (roundFrag a fragLen memStart i pk).len + (swIcv a).length := by
    unfold fragBody roundFrag
    rw [List.length_append, List.length_append, List.length_append, length_readBytes]
    dsimp only
    omega
  unfold nextHdr txdescOffset
  omega

/-- **What the loop leaves**, from a round at `memStart` on, in a buffer with the first header at
`B + TXDESC_OFFSET`. -/
structure LaidFrom (a : PktAttrib) (B : Nat) (m : Mem) (memStart i : Nat) (data : List UInt8)
    (l : Laid) : Prop where
  below : ∀ x < memStart, l.mem x = m x
  bodies : l.frags.flatMap (·.body a l.mem) = fragSnap a i ++ data
  more : l.frags.map (·.moreFrag l.mem) = List.replicate (l.frags.length - 1) true ++ [false]
  seqCtrl : ∀ f ∈ l.frags, f.seqCtrl l.mem = le16 m (B + txdescOffset + 22)
  size : ∃ f, l.frags.getLast? = some f ∧
    l.lastTxcmdsz = a.hdrlen + a.ivLen + f.len + if a.bswenc then a.icvLen else 0

/-- The last round. -/
theorem laidFrom_last {l : Laid} (hhdr : 24 ≤ a.hdrlen)
    (hseq : le16 m (memStart + 22) = le16 m (B + txdescOffset + 22))
    (hall : fragData a fragLen i pk = pk)
    (hmem : l.mem = clearMFrag (laidFrag a fragLen m memStart i pk) memStart)
    (hfrags : l.frags = [roundFrag a fragLen memStart i pk])
    (hlast : l.lastTxcmdsz = a.hdrlen + a.ivLen +
      (if i + 1 = 1 then (fragSnap a i).length else 0) + (if a.bswenc then a.icvLen else 0) +
        (fragData a fragLen i pk).length) : LaidFrom a B m memStart i pk l := by
  have habove : ∀ x, memStart + 2 ≤ x → l.mem x = laidFrag a fragLen m memStart i pk x := by
    intro x hx
    rw [hmem]
    exact setLe16_of_le hx
  refine ⟨fun x hx => ?_, ?_, ?_, ?_,
    ⟨roundFrag a fragLen memStart i pk, by rw [hfrags]; rfl, ?_⟩⟩
  · rw [hmem]
    exact (setLe16_of_lt hx).trans (laidFrag_below hx)
  · have hbody : Frag.body (roundFrag a fragLen memStart i pk) a l.mem = fragSnap a i ++ pk := by
      have hread := @laidFrag_body a fragLen m memStart i pk
      rw [hall] at hread
      rw [← hread]
      exact readBytes_congr fun x hx _ => habove x (by
        change memStart + a.hdrlen + a.ivLen ≤ x at hx
        omega)
    rw [hfrags, List.flatMap_cons, List.flatMap_nil, List.append_nil, hbody]
  · rw [hfrags]
    have hclear : Frag.moreFrag (roundFrag a fragLen memStart i pk) l.mem = false := by
      unfold Frag.moreFrag
      rw [getMFrag_iff, le16_shift, hmem]
      exact le16_clearMFrag memStart
    rw [List.map_cons, List.map_nil, hclear]
    rfl
  · intro f hf
    rw [hfrags, List.mem_singleton] at hf
    have hkept : ∀ k, 2 ≤ k → k < 24 → l.mem (memStart + k) = m (memStart + k) := fun k h2 h24 =>
      (habove _ (by omega)).trans (laidFrag_header (by omega) (by omega))
    rw [hf, ← hseq]
    exact le16_congr (hkept 22 (by decide) (by decide)) (hkept 23 (by decide) (by decide))
  · have hllc : (if i + 1 = 1 then (fragSnap a i).length else 0) = (fragSnap a i).length := by
      unfold fragSnap
      by_cases hi : i = 0
      · rw [if_pos (by omega)]
      · rw [if_neg (by omega), if_neg hi, List.length_nil]
    have hlen : (roundFrag a fragLen memStart i pk).len
        = (fragSnap a i).length + (fragData a fragLen i pk).length := rfl
    rw [hlast, hllc, hlen]
    omega

/-- **The loop**: the bodies are the rest of the packet, More Fragments is set but on the last one,
and the sequence control field of the first header is in all of them. -/
theorem coalesceLoop_laid (hhdr : 24 ≤ a.hdrlen) : ∀ {fuel : Nat} {m : Mem} {memStart i : Nat}
    {pk : List UInt8} {l : Laid}, (isMcast a.ra = true → pk.length ≤ a.pktlen) →
    (memStart = B + txdescOffset ∨ B + txdescOffset + 24 ≤ memStart) →
    le16 m (memStart + 22) = le16 m (B + txdescOffset + 22) →
    coalesceLoop a fragLen B fuel m memStart i pk = some l → LaidFrom a B m memStart i pk l
  | fuel + 1, m, memStart, i, pk, l, hmc, hplace, hseq, h => by
    rcases coalesceLoop_round h with ⟨hend, hmem, hfrags, hlast⟩ | ⟨hno, l', hl', rfl⟩
    · refine laidFrom_last hhdr hseq ?_ hmem hfrags hlast
      rcases hend with hmc' | hend
      · unfold fragData
        rw [if_pos hmc', List.take_of_length_le (hmc hmc')]
      · have hle := List.drop_eq_nil_iff.mp hend
        unfold fragData at hle ⊢
        rw [List.length_take] at hle
        exact List.take_of_length_le (by omega)
    · have hnext := @le_nextHdr a fragLen memStart i pk
      -- what is written later lies at the next header or behind it
      have hcopied : ∀ k < a.hdrlen, overwrite (laidFrag a fragLen m memStart i pk)
          (nextHdr a fragLen memStart i pk)
          (readBytes (laidFrag a fragLen m memStart i pk) (B + txdescOffset) a.hdrlen)
          (nextHdr a fragLen memStart i pk + k)
          = laidFrag a fragLen m memStart i pk (B + txdescOffset + k) := by
        intro k hk
        unfold overwrite
        rw [if_pos (by rw [length_readBytes]; omega), Nat.add_sub_cancel_left, getD_readBytes _ hk]
      have hkept : ∀ k, 2 ≤ k → k < 24 →
          laidFrag a fragLen m memStart i pk (B + txdescOffset + k) = m (B + txdescOffset + k) := by
        intro k h2 h24
        rcases hplace with rfl | hplace
        · exact laidFrag_header (by omega) (by omega)
        · exact laidFrag_below (by omega)
      have hfirst : ∀ k, 2 ≤ k → k < 24 → overwrite (laidFrag a fragLen m memStart i pk)
          (nextHdr a fragLen memStart i pk)
          (readBytes (laidFrag a fragLen m memStart i pk) (B + txdescOffset) a.hdrlen)
          (B + txdescOffset + k) = m (B + txdescOffset + k) := by
        intro k h2 h24
        rw [overwrite_of_lt (by omega)]
        exact hkept k h2 h24
      have hplace' : B + txdescOffset + 24 ≤ nextHdr a fragLen memStart i pk := by omega
      have hseq' : le16 (overwrite (laidFrag a fragLen m memStart i pk)
          (nextHdr a fragLen memStart i pk)
          (readBytes (laidFrag a fragLen m memStart i pk) (B + txdescOffset) a.hdrlen))
          (nextHdr a fragLen memStart i pk + 22) = le16 m (B + txdescOffset + 22) :=
        le16_congr ((hcopied 22 (by omega)).trans (hkept 22 (by decide) (by decide)))
          ((hcopied 23 (by omega)).trans (hkept 23 (by decide) (by decide)))
      have hfirst' := le16_congr (hfirst 22 (by decide) (by decide))
        (hfirst 23 (by decide) (by decide))
      have ih := coalesceLoop_laid hhdr (fun hmc' => absurd (hno.symm.trans hmc') (by decide))
        (.inr hplace') (hseq'.trans hfirst'.symm) hl'
      have hbelow : ∀ x < nextHdr a fragLen memStart i pk,
          l'.mem x = laidFrag a fragLen m memStart i pk x :=
        fun x hx => (ih.below x hx).trans (overwrite_of_lt hx)
      have hheader : ∀ k, 2 ≤ k → k < 24 → l'.mem (memStart + k) = m (memStart + k) :=
        fun k h2 h24 => (hbelow _ (by omega)).trans (laidFrag_header (by omega) (by omega))
      obtain ⟨g, hg, hgsize⟩ := ih.size
      have hne : l'.frags ≠ [] := by
        rintro hnil
        rw [hnil] at hg
        cases hg
      refine ⟨fun x hx => (hbelow x (by omega)).trans (laidFrag_below hx), ?_, ?_, ?_,
        ⟨g, ?_, hgsize⟩⟩
      · have hbody : Frag.body (roundFrag a fragLen memStart i pk) a l'.mem
            = fragSnap a i ++ fragData a fragLen i pk := by
          rw [← @laidFrag_body a fragLen m memStart i pk]
          refine readBytes_congr fun x _ hx => hbelow x ?_
          change x < memStart + a.hdrlen + a.ivLen + (roundFrag a fragLen memStart i pk).len at hx
          omega
        have hdata : fragData a fragLen i pk ++ pk.drop (fragData a fragLen i pk).length = pk :=
          List.prefix_iff_eq_append.mp (List.take_prefix _ _)
        dsimp only
        rw [List.flatMap_cons, hbody, ih.bodies, List.append_assoc]
        exact congrArg (fragSnap a i ++ ·) hdata
      · have hmore : Frag.moreFrag (roundFrag a fragLen memStart i pk) l'.mem = true := by
          unfold Frag.moreFrag
          rw [getMFrag_iff, le16_shift]
          have hsame : le16 l'.mem memStart = le16 (laidFrag a fragLen m memStart i pk) memStart :=
            le16_congr (hbelow _ (by omega)) (hbelow _ (by omega))
          exact (congrArg (Nat.testBit · 10) hsame).trans (laidFrag_moreFrag (by omega))
        have hlen : l'.frags.length = l'.frags.length - 1 + 1 := by
          have hpos := List.length_pos_iff.mpr hne
          omega
        dsimp only
        rw [List.map_cons, hmore, ih.more, List.length_cons, Nat.add_sub_cancel]
        nth_rewrite 2 [hlen]
        rfl
      · intro f hf
        rcases List.mem_cons.mp hf with rfl | hf
        · rw [← hseq]
          exact le16_congr (hheader 22 (by decide) (by decide)) (hheader 23 (by decide) (by decide))
        · exact (ih.seqCtrl f hf).trans hfirst'
      · dsimp only
        rw [List.getLast?_cons, hg]
        rfl

end Loop

/-! ## 4. The header -/

section Header

variable {m : Mem} {off hdr : Nat}

theorem le16_orLe16_ne {at_ bits : Nat} (h : off + 2 ≤ at_ ∨ at_ + 2 ≤ off) :
    le16 (orLe16 m at_ bits) off = le16 m off := by
  unfold orLe16
  rcases h with h | h
  · exact le16_congr (setLe16_of_lt (by omega)) (setLe16_of_lt (by omega))
  · exact le16_congr (setLe16_of_le h) (setLe16_of_le (by omega))

theorem or_low (x y : Nat) : (x ||| y) % 65536 % 16 = x % 16 ||| y % 16 := by
  rw [Nat.mod_mod_of_dvd _ (by decide : 16 ∣ 65536), show (16 : Nat) = 2 ^ 4 from rfl,
    Nat.or_mod_two_pow]

/-- Bits above the fourth do not touch a fragment number of 0. -/
theorem orLe16_low {bits : Nat} (hbits : bits % 16 = 0) (h : le16 m off % 16 = 0) :
    le16 (orLe16 m off bits) off % 16 = 0 := by
  unfold orLe16
  rw [le16_setLe16, or_low, h, hbits]
  rfl

theorem le16_writeAddr {at_ : Nat} (x : MacAddr) (h : at_ + 6 ≤ off) :
    le16 (writeAddr m at_ x) off = le16 m off := by
  unfold writeAddr
  exact le16_congr (overwrite_of_le (by exact h)) (overwrite_of_le (by exact Nat.le_succ_of_le h))

/-- The QoS field is behind the sequence control field, or has no priority in it. -/
theorem wlanhdrQos_low {a : PktAttrib} (hlen : a.hdrlen = 24 ∨ a.hdrlen = 26)
    (hpri : a.hdrlen = 24 → a.priority = 0) (h : le16 m (hdr + 22) % 16 = 0) :
    le16 (wlanhdrQos m (hdr + a.hdrlen - 2) a) (hdr + 22) % 16 = 0 := by
  rcases hlen with h24 | h26
  · have hqc : hdr + a.hdrlen - 2 = hdr + 22 := by omega
    unfold wlanhdrQos
    dsimp only
    rw [hqc, if_neg (not_not.mpr (hpri h24))]
    have heosp := @orLe16_low _ _ (a.eosp % 2 * 16) (by omega) h
    have hack := @orLe16_low _ _ (a.ackPolicy % 4 * 32) (by omega) heosp
    split_ifs
    · exact orLe16_low (by omega) hack
    · exact hack
  · have hqc : hdr + 22 + 2 ≤ hdr + a.hdrlen - 2 := by omega
    unfold wlanhdrQos
    dsimp only
    split_ifs <;> simp only [le16_orLe16_ne (.inl hqc), h]

/-- The addresses and the DS bits are in front of the sequence control field. -/
theorem wlanhdrAddrs_seqCtrl {env : TxEnv} {a : PktAttrib} {m' : Mem} {qos : Bool}
    (h : wlanhdrAddrs env m hdr a = some (m', qos)) : le16 m' (hdr + 22) = le16 m (hdr + 22) := by
  have hwrite : ∀ (m₁ : Mem) (x y z : MacAddr), le16 m₁ (hdr + 22) = le16 m (hdr + 22) →
      le16 (writeAddr (writeAddr (writeAddr m₁ (hdr + 4) x) (hdr + 10) y) (hdr + 16) z) (hdr + 22)
        = le16 m (hdr + 22) := by
    intro m₁ x y z h₁
    rw [le16_writeAddr z (by omega), le16_writeAddr y (by omega), le16_writeAddr x (by omega), h₁]
  have hbits : ∀ b, le16 (orLe16 m hdr b) (hdr + 22) = le16 m (hdr + 22) :=
    fun b => le16_orLe16_ne (.inr (by omega))
  unfold wlanhdrAddrs at h
  dsimp only at h
  split at h
  · cases h
    exact hwrite _ _ _ _ (hbits _)
  · split at h
    · cases h
      exact hwrite _ _ _ _ (hbits _)
    · split at h
      · cases h
        exact hwrite _ _ _ _ rfl
      · cases h

/-- **`rtw_make_wlanhdr` leaves fragment number 0.** -/
theorem rtwMakeWlanhdr_low {t : StaTable} {env : TxEnv} {stas stas' : StaId → TxSta} {m' : Mem}
    {a a' : PktAttrib} (hlen : a.hdrlen = 24 ∨ a.hdrlen = 26)
    (hpri : a.hdrlen = 24 → a.priority = 0)
    (h : rtwMakeWlanhdr t env stas m hdr a = some (m', a', stas')) :
    le16 m' (hdr + 22) % 16 = 0 := by
  have hzero : le16 (overwrite m hdr (List.replicate wlanhdrOffset 0)) (hdr + 22) = 0 :=
    le16_zeroed m hdr (by decide : 22 + 1 < wlanhdrOffset)
  have hstart : le16 (orLe16 (andLe16 (overwrite m hdr (List.replicate wlanhdrOffset 0)) hdr 0xff03)
      hdr a.subtype) (hdr + 22) = 0 := by
    rw [le16_orLe16_ne (.inr (by omega)), ← hzero]
    exact le16_congr (setLe16_of_le (by omega)) (setLe16_of_le (by omega))
  unfold rtwMakeWlanhdr at h
  dsimp only at h
  split at h
  · cases h
    rw [hstart]
  · obtain ⟨⟨m₁, qos⟩, haddrs, h⟩ := Option.bind_eq_some_iff.mp h
    have h₁ : le16 m₁ (hdr + 22) = 0 := (wlanhdrAddrs_seqCtrl haddrs).trans hstart
    dsimp only at h
    split at h
    · cases h
    · cases h
      have hflag : ∀ (b : Prop) [Decidable b] (m₂ : Mem) (bits : Nat), le16 m₂ (hdr + 22) = 0 →
          le16 (if b then orLe16 m₂ hdr bits else m₂) (hdr + 22) = 0 := by
        intro b _ m₂ bits h₂
        split
        · exact (le16_orLe16_ne (.inr (by omega))).trans h₂
        · exact h₂
      have hflags := hflag (a.encrypt ≠ 0) _ 0x4000 (hflag (a.mdata = true) m₁ 0x2000 h₁)
      rw [le16_setLe16, or_low, Nat.mul_mod_left, Nat.or_zero, show (16 : Nat) = 2 ^ 4 from rfl,
        Nat.and_mod_two_pow]
      suffices hlow : le16 (if qos = true then wlanhdrQos _ (hdr + a.hdrlen - 2) a else _)
          (hdr + 22) % 16 = 0 from (congrArg (· &&& (0x000f : Nat) % 2 ^ 4) hlow).trans
            (Nat.zero_and _)
      split
      · exact wlanhdrQos_low hlen hpri (congrArg (· % 16) hflags)
      · exact congrArg (· % 16) hflags

/-- A header of 24 bytes is one without priority. -/
theorem updateAttrib_priority {sec : SecurityPriv} {t : StaTable} {env : TxEnv}
    {stas stas' : StaId → TxSta} {pkt : List UInt8} {a : PktAttrib}
    (h : updateAttrib sec t env stas pkt = some (a, stas')) (hlen : a.hdrlen = 24) :
    a.priority = 0 := by
  obtain ⟨a₁, i, pn, _, _, rfl, _⟩ := updateAttrib_cases h
  unfold attribQos at hlen ⊢
  split at hlen
  · split at hlen
    · exact absurd hlen (by decide : (26 : Nat) ≠ 24)
    · rename_i hap hqos
      rw [if_pos hap, if_neg hqos]
      rfl
  · split at hlen
    · dsimp only at hlen
      split at hlen
      · exact absurd hlen (by decide : (26 : Nat) ≠ 24)
      · exact absurd hlen (by decide : (26 : Nat) ≠ 24)
    · rename_i hap hqos
      rw [if_neg hap, if_neg hqos]
      rfl

end Header

/-! ## 5. The function -/

/-- All numbers are 0: a count from 0 on is right only for one. -/
theorem zeros_eq_range_iff {n : Nat} (hn : n ≠ 0) : List.replicate n 0 = List.range n ↔ n = 1 := by
  constructor
  · intro h
    by_contra hne
    have hget := congrArg (·[1]?) h
    rw [List.getElem?_replicate, if_pos (by omega), List.getElem?_range (by omega)] at hget
    cases hget
  · rintro rfl
    rfl

/-- `rtw_xmitframe_coalesce` hands on what the loop counted, with the MIC on top. -/
theorem rtwXmitframeCoalesce_laid {c : SwCrypto} {sec : SecurityPriv} {t : StaTable} {env : TxEnv}
    {stas stas₁ : StaId → TxSta} {fragLen bufAddr : Nat} {m m₁ : Mem} {pkt : List UInt8}
    {a a₁ : PktAttrib} {laid : Laid} {r : Coalesced}
    (hhdr : rtwMakeWlanhdr t env stas m (bufAddr + txdescOffset) a = some (m₁, a₁, stas₁))
    (hlaid : coalesceLoop a fragLen bufAddr ((pkt.drop a.pktHdrlen).length + 1) m₁
      (bufAddr + txdescOffset) 0 (pkt.drop a.pktHdrlen) = some laid)
    (hr : rtwXmitframeCoalesce c sec t env stas fragLen bufAddr m pkt a = some r) :
    r.frags = laid.frags ∧ r.attrib = { a with
      seqnum := a₁.seqnum
      nrFrags := laid.nrFrags
      lastTxcmdsz := laid.lastTxcmdsz + micLen a } := by
  obtain ⟨m₂, a₂, laid₂, hhdr₂, hlaid₂, hfrags, hmic, _⟩ := rtwXmitframeCoalesce_parts hr
  obtain ⟨rfl, rfl, _⟩ : m₁ = m₂ ∧ a₁ = a₂ ∧ stas₁ = r.stas := by
    have hsame := Option.some.inj (hhdr.symm.trans hhdr₂)
    exact ⟨congrArg (·.1) hsame, congrArg (·.2.1) hsame, congrArg (·.2.2) hsame⟩
  obtain rfl : laid = laid₂ := Option.some.inj (hlaid.symm.trans hlaid₂)
  exact ⟨hfrags, (xmitframeAddmic_cases hmic).1⟩

/-- **A packet is well laid exactly when it fits one fragment.**  It is complete in its fragments in
any case. -/
theorem well_laid_iff (c : SwCrypto) (sec : SecurityPriv) (t : StaTable) (env : TxEnv)
    (stas stas₁ : StaId → TxSta) {fragLen : Nat} (bufAddr : Nat) (m m₁ : Mem) {pkt : List UInt8}
    {a a₁ : PktAttrib} (ha : a.Sound pkt) (hpri : a.hdrlen = 24 → a.priority = 0)
    (hfrag : 256 ≤ fragLen)
    (hhdr : rtwMakeWlanhdr t env stas m (bufAddr + txdescOffset) a = some (m₁, a₁, stas₁)) :
    ∃ laid, coalesceLoop a fragLen bufAddr ((pkt.drop a.pktHdrlen).length + 1) m₁
        (bufAddr + txdescOffset) 0 (pkt.drop a.pktHdrlen) = some laid ∧
      PktInFrags a pkt laid ∧ (WellLaid a pkt laid ↔ a.FitsOne fragLen) ∧
      ∀ r, rtwXmitframeCoalesce c sec t env stas fragLen bufAddr m pkt a = some r →
        r.frags = laid.frags ∧ r.attrib.nrFrags = laid.nrFrags ∧
        r.attrib.lastTxcmdsz = laid.lastTxcmdsz + micLen a := by
  have hhdrlen := ha.hdrlen
  have hroom : ∀ i, 0 < mpduLen a fragLen i := by
    intro i
    have hicv := length_swIcv a
    have hsnap : (fragSnap a i).length ≤ 8 := by
      unfold fragSnap
      split
      · exact (by decide : 8 ≤ 8)
      · exact Nat.zero_le 8
    have hivLen := ha.ivLen
    have hicvLen := ha.icvLen
    unfold mpduLen
    split at hicv <;> omega
  obtain ⟨laid, hlaid⟩ := Option.isSome_iff_exists.mp (@coalesceLoop_isSome _ _ bufAddr hroom
    _ m₁ (bufAddr + txdescOffset) 0 _ (Nat.lt_succ_self (pkt.drop a.pktHdrlen).length))
  have hfrom := coalesceLoop_laid (by omega) (fun _ => Nat.le_of_eq ha.pktlen.symm) (.inl rfl) rfl
    hlaid
  obtain ⟨hcount, hne⟩ := coalesceLoop_nrFrags hlaid
  rw [Nat.zero_add] at hcount
  have hin : PktInFrags a pkt laid :=
    ⟨hfrom.bodies, hfrom.more, ⟨_, fun f hf => congrArg (· / 16) (hfrom.seqCtrl f hf)⟩, hcount,
      hfrom.size⟩
  refine ⟨laid, hlaid, hin, ?_, fun r hr => ?_⟩
  · have hnumbers : laid.frags.map (·.seqCtrl laid.mem % 16)
        = List.replicate laid.frags.length 0 := by
      refine List.eq_replicate_iff.mpr ⟨List.length_map _, fun n hn => ?_⟩
      obtain ⟨f, hf, rfl⟩ := List.mem_map.mp hn
      rw [hfrom.seqCtrl f hf]
      exact rtwMakeWlanhdr_low hhdrlen hpri hhdr
    have hone : WellLaid a pkt laid ↔ laid.frags.length = 1 := by
      rw [← zeros_eq_range_iff (mt List.length_eq_zero_iff.mp hne), ← hnumbers]
      exact ⟨fun h => h.numbers, fun h => ⟨hin, h⟩⟩
    rw [hone]
    constructor
    · intro hlen
      by_contra hmore
      obtain ⟨f, fs, hfs, hfsne, _⟩ := coalesceLoop_more ha ha.pktlen hfrag hmore hlaid
      rw [hfs, List.length_cons] at hlen
      exact hfsne (List.length_eq_zero_iff.mp (Nat.succ_injective hlen))
    · intro hfits
      rw [(coalesceLoop_one ha.pktlen hfits hlaid).1]
      rfl
  · obtain ⟨hfrags, hattr⟩ := rtwXmitframeCoalesce_laid hhdr hlaid hr
    rw [hattr]
    exact ⟨hfrags, rfl, rfl⟩

/-- A packet of `n` bytes behind the header `rtw_make_wlanhdr` gives it, laid out with `frag_len`
256. -/
def laidAes (n : Nat) : Option Laid := do
  let (m, a, _) ← rtwMakeWlanhdr peerTable staEnv (fun _ => peerSta 1) (fun _ => 0)
    (4096 + txdescOffset) (aesAttrib n)
  coalesceLoop a 256 4096 (n + 1) m (4096 + txdescOffset) 0 ((ethPkt n).drop 14)

theorem well_laid_204 :
    ∃ m₁ a₁ stas₁ laid,
      rtwMakeWlanhdr peerTable staEnv (fun _ => peerSta 1) (fun _ => 0) (4096 + txdescOffset)
          (aesAttrib 204) = some (m₁, a₁, stas₁) ∧
        coalesceLoop (aesAttrib 204) 256 4096 (((ethPkt 204).drop 14).length + 1) m₁
          (4096 + txdescOffset) 0 ((ethPkt 204).drop 14) = some laid ∧
        WellLaid (aesAttrib 204) (ethPkt 204) laid := by
  have hsome : (rtwMakeWlanhdr peerTable staEnv (fun _ => peerSta 1) (fun _ => 0)
      (4096 + txdescOffset) (aesAttrib 204)).isSome = true := by decide +kernel
  obtain ⟨⟨m₁, a₁, stas₁⟩, hhdr⟩ := Option.isSome_iff_exists.mp hsome
  obtain ⟨laid, hlaid, _, hwell, _⟩ := well_laid_iff plainCrypto swAesSec peerTable staEnv
    (fun _ => peerSta 1) stas₁ 4096 (fun _ => 0) m₁ (aesAttrib_sound 204) (fun _ => rfl)
    (by decide : 256 ≤ 256) hhdr
  exact ⟨m₁, a₁, stas₁, laid, hhdr, hlaid, hwell.mpr (Or.inr (by decide))⟩

/-- 300 bytes need two fragments, and both carry number 0. -/
theorem both_numbered_zero :
    ∃ laid, laidAes 300 = some laid ∧ laid.nrFrags = 2 ∧
      laid.frags.map (·.seqCtrl laid.mem) = [16, 16] ∧
      ¬ WellLaid (aesAttrib 300) (ethPkt 300) laid := by
  have hrun : (laidAes 300).map (fun l => (l.nrFrags, l.frags.map (·.seqCtrl l.mem)))
      = some (2, [16, 16]) := by decide +kernel
  obtain ⟨laid, hlaid, hres⟩ := Option.map_eq_some_iff.mp hrun
  obtain ⟨hnr, hseq⟩ := Prod.mk.inj hres
  refine ⟨laid, hlaid, hnr, hseq, fun hwell => ?_⟩
  have hlen : laid.frags.length = 2 := hwell.count.symm.trans hnr
  have hnumbers : (laid.frags.map (·.seqCtrl laid.mem)).map (· % 16)
      = List.range laid.frags.length := (List.map_map ..).trans hwell.numbers
  rw [hlen, hseq] at hnumbers
  exact absurd hnumbers (by decide)

end Rtl8723bs
