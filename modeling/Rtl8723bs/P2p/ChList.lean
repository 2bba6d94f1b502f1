/-
# The channel list of a P2P element

The channel list attribute is a country string of three bytes and behind it entries, each an
operating class, a number of channels and the channels.  `dump_p2p_attr_ch_list` notes the distinct
channels in an array of 40 and writes them out as text; it is called for every P2P action frame.
`rtw_change_p2pie_ch_list` sets all channels of all P2P elements of a frame to one.

Both walk over the entries with what is left of the attribute in 32 bits without sign, take three
and then the length of each entry from it, and stop when nothing is left.  An attribute of fewer
than three bytes, or an entry longer than what is left, makes the count wrap, and the walk goes on
behind the attribute.  The array is not held against its size.

`p2p_ch_list_walks` says for which elements the walks are right.
-/
import Rtl8723bs.AttrSearch
import Rtl8723bs.P2p.CheckFrames

namespace Rtl8723bs.ChList

/-! ## 1. The walk over the entries -/

/-- `P2P_ATTR_CH_LIST`. -/
def p2pAttrChList : UInt8 := 0x0B

/-- `2 + num_of_ch` of the entry at `p`. -/
def entryLen (m : Mem) (p : Nat) : Nat := 2 + (m (p + 1)).toNat

/-- The bytes of the entry at `p` that a walk touches: the number and the channels. -/
def entryPlaces (m : Mem) (p : Nat) : List Nat :=
  (p + 1) :: (List.range (m (p + 1)).toNat).map (p + 2 + ·)

/-- What a walk does at an entry.  It comes to the entry at its place, touches its bytes, and leaves
what is not its channels as it is. -/
structure ChBody (σ : Type) where
  mem : σ → Mem
  visited : σ → List Nat
  touched : σ → List Nat
  body : Nat → σ → σ
  keeps : ∀ p s x, x < p + 2 ∨ p + entryLen (mem s) p ≤ x → mem (body p s) x = mem s x
  visits : ∀ p s, visited (body p s) = visited s ++ [p]
  touches : ∀ p s, touched (body p s) = touched s ++ entryPlaces (mem s) p

/-- `while (attr_contentlen > 0)`, in at most so many rounds; `none` where these are too few. -/
def ChBody.run {σ : Type} (b : ChBody σ) : Nat → Nat → UInt32 → σ → Option σ
  | 0, _, _, _ => none
  | n + 1, pattrTemp, attrContentlen, s =>
    if 0 < attrContentlen then
      b.run n (pattrTemp + entryLen (b.mem s) pattrTemp)
        (attrContentlen - UInt32.ofNat (entryLen (b.mem s) pattrTemp)) (b.body pattrTemp s)
    else some s

/-- What a walk over a channel list has come to: the content of the attribute and its length, the
entries, and the bytes of the frame that were read or written. -/
structure Visit where
  attr : Option (Nat × Nat)
  visited : List Nat
  touched : List Nat
deriving DecidableEq, Repr

/-! ## 2. `dump_p2p_attr_ch_list` -/

/-- `ch_list` and `ch_cnt`, and the entries of `ch_list` that were read or written.  Nothing stops
at entry 40, so `ch_list` is the stack from its start on. -/
structure ChNote where
  chList : Nat → UInt8
  chCnt : UInt8
  listed : List Nat

/-- The loop over `j`: the first entry that is `x`, or the count. -/
def searchCh (chList : Nat → UInt8) (cnt : Nat) (x : UInt8) : Nat :=
  ((List.range cnt).find? fun j => chList j = x).getD cnt

/-- The body of the loop over `i`: a channel that is not there is put at the end. -/
def noteCh (s : ChNote) (x : UInt8) : ChNote :=
  let j := searchCh s.chList s.chCnt.toNat x
  if s.chCnt.toNat ≤ j then
    { chList := fun k => if k = s.chCnt.toNat then x else s.chList k
      chCnt := s.chCnt + 1
      listed := s.listed ++ List.range (s.chCnt.toNat + 1) }
  else { s with listed := s.listed ++ List.range (j + 1) }

/-- The state of the walk. -/
structure DumpState where
  visited : List Nat
  touched : List Nat
  note : ChNote

/-- The channels of the entry at `p`. -/
def channels (m : Mem) (p : Nat) : List UInt8 := readBytes m (p + 2) (m (p + 1)).toNat

def dumpBody (m : Mem) : ChBody DumpState where
  mem _ := m
  visited := DumpState.visited
  touched := DumpState.touched
  body p s :=
    { visited := s.visited ++ [p]
      touched := s.touched ++ entryPlaces m p
      note := (channels m p).foldl noteCh s.note }
  keeps _ _ _ _ := rfl
  visits _ _ := rfl
  touches _ _ := rfl

/-- `INT_MAX`. -/
def intMax : Nat := 2 ^ 31 - 1

/-- `%u` of a byte. -/
def decimal (x : UInt8) : List UInt8 :=
  let digit (n : Nat) : UInt8 := UInt8.ofNat (0x30 + n % 10)
  if 100 ≤ x.toNat then [digit (x.toNat / 100), digit (x.toNat / 10), digit x.toNat]
  else if 10 ≤ x.toNat then [digit (x.toNat / 10), digit x.toNat]
  else [digit x.toNat]

/-- The text written so far: the buffer, `w_sz`, and the places of the buffer written. -/
structure ChText where
  buf : Mem
  wSz : Nat
  written : List Nat

/-- `w_sz += snprintf(buf + w_sz, buf_len - w_sz, ..)`, with the size in 32 bits without sign.
`snprintf` turns down a size above `INT_MAX`; else it writes what fits with a zero behind it, and
returns the length of the text as if all of it did. -/
def ChText.snprintf (t : ChText) (bufLen : UInt32) (s : List UInt8) : ChText :=
  let size := (bufLen - UInt32.ofNat t.wSz).toNat
  if intMax < size then t
  else if size = 0 then { t with wSz := t.wSz + s.length }
  else
    { buf := overwrite t.buf t.wSz (s.take (size - 1) ++ [0])
      wSz := t.wSz + s.length
      written := t.written ++ (List.range ((s.take (size - 1)).length + 1)).map (t.wSz + ·) }

/-- `ch_list[j + 1] - ch_list[j] == 1`. -/
def follows (chList : Nat → UInt8) (j : Nat) : Bool :=
  ((chList (j + 1)).toNat : Int) - (chList j).toNat = 1

/-- The loop over `j` that writes the text: a run of channels is written as its ends. -/
def printCh (bufLen : UInt32) (note : ChNote) (t : ChText) (j : Nat) : ChText :=
  if j = 0 then t.snprintf bufLen (decimal (note.chList j))
  else if ¬ follows note.chList (j - 1) then
    t.snprintf bufLen (0x2c :: 0x20 :: decimal (note.chList j))
  else if j ≠ note.chCnt.toNat - 1 ∧ follows note.chList j then t
  else t.snprintf bufLen (0x2d :: decimal (note.chList j))

/-- What `dump_p2p_attr_ch_list` leaves. -/
structure DumpOut where
  visit : Visit
  listed : List Nat
  text : ChText

/-- `dump_p2p_attr_ch_list`, with at most `n` entries; writing the text reads `ch_list` up to
`ch_cnt`. -/
def dumpP2pAttrChList (n : Nat) (m : Mem) (ie : Option (Nat × Nat)) (buf : Mem) (bufLen : UInt32) :
    Option DumpOut := do
  match ← rtwGetP2pAttrContent m ie p2pAttrChList with
  | none => return ⟨⟨none, [], []⟩, [], ⟨buf, 0, []⟩⟩
  | some (pattr, attrContentlen) =>
    let s ← (dumpBody m).run n (pattr + 3) (UInt32.ofNat attrContentlen - 3)
      ⟨[], [], ⟨fun _ => 0, 0, []⟩⟩
    let places := List.range s.note.chCnt.toNat
    return ⟨⟨some (pattr, attrContentlen), s.visited, s.touched⟩, s.note.listed ++ places,
      places.foldl (printCh bufLen s.note) ⟨buf, 0, []⟩⟩

/-! ## 3. `rtw_change_p2pie_ch_list` -/

structure ChangeState where
  mem : Mem
  visited : List Nat
  touched : List Nat

theorem overwrite_channels (m : Mem) (p x : Nat) (ch : UInt8)
    (h : x < p + 2 ∨ p + entryLen m p ≤ x) :
    overwrite m (p + 2) (List.replicate (m (p + 1)).toNat ch) x = m x := by
  unfold entryLen at h
  rcases h with h | h
  · exact overwrite_of_lt h
  · exact overwrite_of_le (by rw [List.length_replicate]; omega)

/-- The loop over `i` sets the channels of an entry to `ch`. -/
def changeBody (ch : UInt8) : ChBody ChangeState where
  mem := ChangeState.mem
  visited := ChangeState.visited
  touched := ChangeState.touched
  body p s :=
    { mem := overwrite s.mem (p + 2) (List.replicate (s.mem (p + 1)).toNat ch)
      visited := s.visited ++ [p]
      touched := s.touched ++ entryPlaces s.mem p }
  keeps p s x h := overwrite_channels s.mem p x ch h
  visits _ _ := rfl
  touches _ _ := rfl

/-- What is done in one P2P element. -/
def changeAttr (n : Nat) (m : Mem) (ie : Nat × Nat) (ch : UInt8) : Option (Mem × Visit) := do
  match ← rtwGetP2pAttrContent m (some ie) p2pAttrChList with
  | none => return (m, ⟨none, [], []⟩)
  | some (pattr, attrContentlen) =>
    let s ← (changeBody ch).run n (pattr + 3) (UInt32.ofNat attrContentlen - 3) ⟨m, [], []⟩
    return (s.mem, ⟨some (pattr, attrContentlen), s.visited, s.touched⟩)

/-- The P2P element behind the one at `ie`. -/
def nextP2pIe (m : Mem) (ies : Nat) (iesLen : UInt32) (ie : Nat × Nat) : Option (Nat × Nat) :=
  rtwGetP2pIe m (ie.1 + ie.2) (int32 ((iesLen.toNat : Int) - (ie.1 - ies + ie.2)))

/-- `while (p2p_ie)`: each element is visited with what was found in it. -/
def changeLoop (n : Nat) (ies : Nat) (iesLen : UInt32) (ch : UInt8) :
    Nat → Mem → Option (Nat × Nat) → Option (Mem × List ((Nat × Nat) × Visit))
  | _, m, none => some (m, [])
  | 0, _, some _ => none
  | k + 1, m, some ie => do
    let (m', v) ← changeAttr n m ie ch
    let (m'', vs) ← changeLoop n ies iesLen ch k m' (nextP2pIe m' ies iesLen ie)
    return (m'', (ie, v) :: vs)

/-- `rtw_change_p2pie_ch_list`, with at most `n` entries in an element and `n` elements. -/
def rtwChangeP2pieChList (n : Nat) (m : Mem) (frameBody : Nat) (len : UInt32) (ch : UInt8) :
    Option (Mem × List ((Nat × Nat) × Visit)) :=
  let ies := frameBody + 8
  let iesLen := len - 8
  changeLoop n ies iesLen ch n m (rtwGetP2pIe m ies (int32 iesLen.toNat))

/-! ## 4. What the walks are for -/

/-- The complete entries from `p` on below `limit`, and where the last of them ends. -/
def chEntries (m : Mem) (limit : Nat) : Nat → Nat → List Nat × Nat
  | 0, p => ([], p)
  | n + 1, p =>
    if p + entryLen m p ≤ limit then
      (p :: (chEntries m limit n (p + entryLen m p)).1,
        (chEntries m limit n (p + entryLen m p)).2)
    else ([], p)

/-- **The well-formed prefix of the entries** between `p` and `limit`. -/
def wellFormed (m : Mem) (p limit : Nat) : List Nat × Nat := chEntries m limit (limit - p) p

/-- Where the attribute with its content at `pattr` ends: where its length says, and not behind the
element. -/
def attrEnd (m : Mem) (ie : Nat × Nat) (pattr : Nat) : Nat :=
  min (pattr + le16 m (pattr - 2)) (ie.1 + ie.2)

/-- **What a walk is for**: it touches bytes of the attribute only, and comes to the entries of the
well-formed prefix. -/
def Visit.Right (m : Mem) (ie : Nat × Nat) (v : Visit) : Prop :=
  match v.attr with
  | none => v.visited = [] ∧ v.touched = []
  | some (pattr, _) =>
    (∀ x ∈ v.touched, pattr ≤ x ∧ x < attrEnd m ie pattr) ∧
      v.visited = (wellFormed m (pattr + 3) (attrEnd m ie pattr)).1

/-- The element at `ie` with the length its second byte gives. -/
def ieAt (m : Mem) (ie : Nat) : Nat × Nat := (ie, (m (ie + 1)).toNat + 2)

/-- `dump_p2p_attr_ch_list` ends, its walk is right, and it stays in `ch_list` and in the buffer. -/
def DumpRight (m : Mem) (ie : Option Nat) (buf : Mem) (bufLen : UInt32) : Prop :=
  ∃ n out, dumpP2pAttrChList n m (ie.map (ieAt m)) buf bufLen = some out ∧
    out.visit.Right m (((ie.map (ieAt m)).getD (0, 0))) ∧
    (∀ k ∈ out.listed, k < 40) ∧ ∀ i ∈ out.text.written, i < bufLen.toNat

/-- `rtw_change_p2pie_ch_list` ends, and its walk in each P2P element is right. -/
def ChangeRight (m : Mem) (frameBody : Nat) (len : UInt32) (ch : UInt8) : Prop :=
  ∃ n m' vs, rtwChangeP2pieChList n m frameBody len ch = some (m', vs) ∧
    ∀ v ∈ vs, v.2.Right m v.1

/-! ## 5. The well-formed prefix -/

section Prefix

variable {m m' : Mem} {limit p n k : Nat}

theorem two_le_entryLen (m : Mem) (p : Nat) : 2 ≤ entryLen m p := Nat.le_add_right 2 _

theorem entryLen_lt (m : Mem) (p : Nat) : entryLen m p < 258 := by
  have h := (m (p + 1)).toNat_lt
  unfold entryLen
  omega

/-- Each entry has two bytes or more, so a round for each byte is enough. -/
theorem chEntries_fuel (hn : limit - p ≤ n) (hk : limit - p ≤ k) :
    chEntries m limit n p = chEntries m limit k p := by
  have h2 := two_le_entryLen m p
  induction n generalizing p k with
  | zero =>
    cases k with
    | zero => rfl
    | succ k => rw [chEntries, chEntries, if_neg (by omega)]
  | succ n ih =>
    by_cases hfits : p + entryLen m p ≤ limit
    · obtain ⟨k, rfl⟩ : ∃ j, k = j + 1 := ⟨k - 1, by omega⟩
      have hrest : chEntries m limit n (p + entryLen m p) = chEntries m limit k (p + entryLen m p) :=
        ih (by omega) (by omega) (two_le_entryLen m _)
      rw [chEntries, chEntries, if_pos hfits, if_pos hfits, hrest]
    · cases k with
      | zero => rw [chEntries, chEntries, if_neg hfits]
      | succ k => rw [chEntries, chEntries, if_neg hfits, if_neg hfits]

theorem wellFormed_cons (h : p + entryLen m p ≤ limit) :
    wellFormed m p limit = (p :: (wellFormed m (p + entryLen m p) limit).1,
      (wellFormed m (p + entryLen m p) limit).2) := by
  have h2 := two_le_entryLen m p
  have hrest : chEntries m limit (limit - p - 1) (p + entryLen m p)
      = wellFormed m (p + entryLen m p) limit := chEntries_fuel (by omega) (Nat.le_refl _)
  have hlen : limit - p = limit - p - 1 + 1 := by omega
  rw [← hrest, wellFormed, hlen, chEntries, if_pos h, Nat.add_sub_cancel]

theorem wellFormed_end (m : Mem) (p : Nat) : wellFormed m p p = ([], p) := by
  rw [wellFormed, Nat.sub_self]
  rfl

theorem wellFormed_stop (h : limit < p + entryLen m p) : wellFormed m p limit = ([], p) := by
  unfold wellFormed
  cases limit - p with
  | zero => rfl
  | succ n => rw [chEntries, if_neg (by omega)]

/-- The prefix is up to the bytes from its start on. -/
theorem chEntries_congr (h : ∀ x, p ≤ x → m' x = m x) :
    chEntries m' limit n p = chEntries m limit n p := by
  induction n generalizing p with
  | zero => rfl
  | succ n ih =>
    have hlen : entryLen m' p = entryLen m p := by
      unfold entryLen
      rw [h _ (Nat.le_succ p)]
    have hrest : chEntries m' limit n (p + entryLen m p) = chEntries m limit n (p + entryLen m p) :=
      ih fun x hx => h x (by omega)
    rw [chEntries, chEntries, hlen, hrest]

theorem wellFormed_congr (h : ∀ x, p ≤ x → m' x = m x) :
    wellFormed m' p limit = wellFormed m p limit := chEntries_congr h

/-- The places touched at an entry are in it. -/
theorem mem_entryPlaces {x : Nat} (h : x ∈ entryPlaces m p) : p ≤ x ∧ x < p + entryLen m p := by
  simp only [entryPlaces, List.mem_cons, List.mem_map, List.mem_range] at h
  unfold entryLen
  rcases h with rfl | ⟨i, hi, rfl⟩ <;> omega

/-- Where all places touched at an entry are below a limit, the entry is. -/
theorem entry_le (h : ∀ x ∈ entryPlaces m p, x < limit) : p + entryLen m p ≤ limit := by
  have hhead : p + 1 < limit := h (p + 1) List.mem_cons_self
  unfold entryLen
  by_cases hnum : (m (p + 1)).toNat = 0
  · omega
  · have hlast := h (p + 2 + ((m (p + 1)).toNat - 1))
      (List.mem_cons_of_mem _ (List.mem_map.mpr ⟨_, List.mem_range.mpr (by omega), rfl⟩))
    omega

end Prefix

/-! ## 6. When a walk stays in the attribute -/

namespace ChBody

variable {σ : Type} {b : ChBody σ} {n p limit : Nat} {len : UInt32} {s s' : σ}

theorem run_done : b.run (n + 1) p 0 s = some s := if_neg (by decide)

theorem run_round (h : len ≠ 0) : b.run (n + 1) p len s
    = b.run n (p + entryLen (b.mem s) p) (len - UInt32.ofNat (entryLen (b.mem s) p))
      (b.body p s) :=
  if_pos (UInt32.pos_iff_ne_zero.mpr h)

/-- What has been touched stays touched. -/
theorem touched_mono (h : b.run n p len s = some s') {x : Nat} (hx : x ∈ b.touched s) :
    x ∈ b.touched s' := by
  induction n generalizing p len s with
  | zero => simp [run] at h
  | succ n ih =>
    by_cases hlen : len = 0
    · rw [hlen, run_done] at h
      exact Option.some.inj h ▸ hx
    · rw [run_round hlen] at h
      refine ih h ?_
      rw [b.touches]
      exact List.mem_append_left _ hx

/-- An entry that is not longer than what is left does not make it wrap. -/
theorem toNat_sub_entry {m : Mem} (h : entryLen m p ≤ len.toNat) :
    (len - UInt32.ofNat (entryLen m p)).toNat = len.toNat - entryLen m p := by
  have hlt := len.toNat_lt
  have hsmall := entryLen_lt m p
  rw [UInt32.toNat_sub, UInt32.toNat_ofNat_of_lt' (by simp only [UInt32.size]; omega)]
  omega

/-- Behind an entry the bytes are as they were. -/
theorem behind (p : Nat) (s : σ) :
    ∀ x, p + entryLen (b.mem s) p ≤ x → b.mem (b.body p s) x = b.mem s x :=
  fun x hx => b.keeps p s x (.inr hx)

/-- The entries of a list of places, one after the other. -/
def steps (b : ChBody σ) (l : List Nat) (s : σ) : σ := l.foldl (fun s p => b.body p s) s

theorem steps_cons (l : List Nat) : b.steps (p :: l) s = b.steps l (b.body p s) := rfl

/-- **A walk that ends and touches nothing from the limit on**, with as much left as there is to the
limit or more, has come to entries that end at the limit. -/
theorem exact_of_run (h : b.run n p len s = some s') (hin : ∀ x ∈ b.touched s', x < limit)
    (hle : limit ≤ p + len.toNat) (hzero : len = 0 → p ≤ limit) :
    p + len.toNat = limit ∧ (wellFormed (b.mem s) p limit).2 = limit ∧
      s' = b.steps (wellFormed (b.mem s) p limit).1 s := by
  induction n generalizing p len s with
  | zero => simp [run] at h
  | succ n ih =>
    by_cases hlen : len = 0
    · subst hlen
      have hp : p = limit := Nat.le_antisymm (hzero rfl) hle
      rw [run_done] at h
      rw [hp, wellFormed_end]
      exact ⟨rfl, rfl, (Option.some.inj h).symm⟩
    · rw [run_round hlen] at h
      have hentry : p + entryLen (b.mem s) p ≤ limit := entry_le fun x hx => by
        refine hin x (touched_mono h ?_)
        rw [b.touches]
        exact List.mem_append_right _ hx
      have hsub := toNat_sub_entry (show entryLen (b.mem s) p ≤ len.toNat by omega)
      obtain ⟨hend, hrest, hstate⟩ := ih h (by omega) (fun _ => hentry)
      rw [wellFormed_congr (behind p s)] at hrest hstate
      rw [wellFormed_cons hentry]
      exact ⟨by omega, hrest, hstate⟩

/-- **A walk over entries that end at the limit**, with as much left as there is to the limit, comes
to them and ends. -/
theorem run_exact (hend : (wellFormed (b.mem s) p limit).2 = limit)
    (hlen : p + len.toNat = limit) (hn : len.toNat < n) :
    b.run n p len s = some (b.steps (wellFormed (b.mem s) p limit).1 s) := by
  induction n generalizing p len s with
  | zero => omega
  | succ n ih =>
    have h2 := two_le_entryLen (b.mem s) p
    by_cases hzero : len = 0
    · have hp : p = limit := by simpa [hzero] using hlen
      rw [hp, wellFormed_end, hzero]
      exact run_done
    · have hpos : 0 < len.toNat := UInt32.pos_iff_ne_zero.mpr hzero
      have hentry : p + entryLen (b.mem s) p ≤ limit := by
        by_contra hstop
        rw [wellFormed_stop (Nat.lt_of_not_le hstop)] at hend
        omega
      have hsub := toNat_sub_entry (show entryLen (b.mem s) p ≤ len.toNat by omega)
      rw [wellFormed_cons hentry] at hend ⊢
      rw [← wellFormed_congr (behind p s)] at hend
      rw [run_round hzero, ih hend (by omega) (by omega), steps_cons,
        wellFormed_congr (behind p s)]

/-- What the entries up to a limit leave. -/
theorem steps_spec (b : ChBody σ) (n p limit : Nat) (s : σ) :
    let l := (chEntries (b.mem s) limit n p).1
    b.visited (b.steps l s) = b.visited s ++ l ∧
      (∀ x ∈ b.touched (b.steps l s), x ∈ b.touched s ∨ p ≤ x ∧ x < limit) ∧
      ∀ x, x < p ∨ limit ≤ x → b.mem (b.steps l s) x = b.mem s x := by
  induction n generalizing p s with
  | zero => exact ⟨(List.append_nil _).symm, fun x hx => .inl hx, fun _ _ => rfl⟩
  | succ n ih =>
    by_cases hfits : p + entryLen (b.mem s) p ≤ limit
    · simp only [chEntries, if_pos hfits, steps_cons]
      have h2 := two_le_entryLen (b.mem s) p
      have hrest := ih (p + entryLen (b.mem s) p) (b.body p s)
      rw [chEntries_congr (behind p s)] at hrest
      obtain ⟨hvisited, htouched, hmem⟩ := hrest
      refine ⟨?_, fun x hx => ?_, fun x hx => ?_⟩
      · rw [hvisited, b.visits, List.append_assoc, List.singleton_append]
      · rcases htouched x hx with hx | hx
        · rw [b.touches, List.mem_append] at hx
          rcases hx with hx | hx
          · exact .inl hx
          · have := mem_entryPlaces hx
            exact .inr (by omega)
        · exact .inr (by omega)
      · rw [hmem x (by omega)]
        exact b.keeps p s x (by omega)
    · simp only [chEntries, if_neg hfits]
      exact ⟨(List.append_nil _).symm, fun x hx => .inl hx, fun _ _ => rfl⟩

end ChBody

/-! ## 7. The attribute that is found -/

/-- The search for the channel list of an element. -/
abbrev searchChain (m : Mem) (e : Nat × Nat) : Chain :=
  (AttrCall.p2p p2pAttrChList).chain m e.1 e.2

/-- An attribute with another identifier, passed on the way to the channel list, does not have
`attr_len` 0, which makes the search stay where it is. -/
def Moves (m : Mem) (e : Nat × Nat) : Prop :=
  (AttrCall.p2p p2pAttrChList).Entered m e.1 e.2 → ∀ off, (searchChain m e).Comes 6 off →
    (searchChain m e).Passes off → p2pAttr.attrLen m (e.1 + off) ≠ 0

/-- The content of the channel list of an element. -/
def Found (m : Mem) (e : Nat × Nat) (pattr len : Nat) : Prop :=
  rtwGetP2pAttrContent m (some e) p2pAttrChList = some (some (pattr, len))

section Search

variable {m : Mem} {e : Nat × Nat} {pattr len : Nat}

/-- **The search ends** exactly if it never stays. -/
theorem content_ends_iff :
    rtwGetP2pAttrContent m (some e) p2pAttrChList ≠ none ↔ Moves m e := by
  have hrun : rtwGetP2pAttrContent m (some e) p2pAttrChList ≠ none ↔
      (AttrCall.p2p p2pAttrChList).run m e.1 e.2 ≠ none := by
    simp only [rtwGetP2pAttrContent, AttrCall.run]
    cases rtwGetP2pAttr m (some e) p2pAttrChList with
    | none => simp
    | some r =>
      rcases r with _ | ⟨a, l⟩
      · simp
      · by_cases hl : l = 0 <;> simp [hl]
  rw [hrun]
  constructor
  · intro h hin off hcomes hpass hzero
    obtain ⟨x, hx⟩ := Option.ne_none_iff_exists'.mp h
    obtain ⟨n, r, hr, -⟩ := (AttrCall.run_eq_some_iff _ hin).mp hx
    refine Chain.not_again_of_ends hr hcomes
      ((Chain.again_iff (AttrCall.chain_up _)).mpr ⟨hpass, ?_⟩)
    exact (congrArg (off + ·) hzero).trans (Nat.add_zero off)
  · intro h
    by_cases hin : (AttrCall.p2p p2pAttrChList).Entered m e.1 e.2
    · exact AttrCall.ends_of_moves _ hin (h hin)
    · rw [AttrCall.run_of_not_entered _ hin]
      exact Option.some_ne_none _

/-- An attribute that is found is in the element as far as `attr_len` says. -/
theorem Found.attr (h : Found m e pattr len) :
    ∃ attrLen, attrLen = (le16 m (pattr - 2) + 3) % 2 ^ 16 ∧ attrLen ≠ 0 ∧ e.1 + 3 ≤ pattr ∧
      pattr ≤ e.1 + e.2 ∧ pattr + attrLen ≤ e.1 + e.2 + 3 ∧
      len = (attrLen + 2 ^ 32 - 3) % 2 ^ 32 := by
  cases hattr : rtwGetP2pAttr m (some e) p2pAttrChList with
  | none => simp [Found, rtwGetP2pAttrContent, hattr] at h
  | some r =>
    rcases r with _ | ⟨a, l⟩
    · simp [Found, rtwGetP2pAttrContent, hattr] at h
    · by_cases hl : l = 0
      · simp [Found, rtwGetP2pAttrContent, hattr, hl] at h
      · simp only [Found, rtwGetP2pAttrContent, hattr, Option.pure_def, Option.bind_eq_bind,
          Option.bind_some, if_neg hl, Option.some.injEq, Prod.mk.injEq] at h
        have hin : (AttrCall.p2p p2pAttrChList).Entered m e.1 e.2 := by
          by_contra hno
          have hnone : rtwGetP2pAttr m (some e) p2pAttrChList = some none :=
            AttrCall.run_of_not_entered _ hno
          simp [hattr] at hnone
        obtain ⟨n, r, hr, hx⟩ := (AttrCall.run_eq_some_iff _ hin).mp hattr
        cases r with
        | none => simp [foundAttr] at hx
        | some off =>
          obtain ⟨-, hgo, -⟩ := Chain.comes_of_search hr
          have hfits : off + 3 ≤ e.2 ∧ off + p2pAttr.attrLen m (e.1 + off) ≤ e.2 :=
            of_decide_eq_true hgo
          simp only [foundAttr, Option.map_some, Option.some.injEq, Prod.mk.injEq] at hx
          obtain ⟨ha, hlen⟩ := hx
          obtain ⟨hp, hcount⟩ := h
          have hplace : pattr - 2 = e.1 + off + 1 := by omega
          have hattrLen : l = (le16 m (pattr - 2) + 3) % 2 ^ 16 := by
            rw [hplace]
            exact hlen.symm
          have hin' : off + l ≤ e.2 := hlen ▸ hfits.2
          exact ⟨l, hattrLen, hl, by omega, by omega, by omega, hcount.symm⟩

end Search

/-! ## 8. When a walk is right -/

/-- **A content the walk is right for**: the attribute is in the element as a whole, and behind the
country string come entries that end where the attribute does. -/
structure ContentFits (m : Mem) (e : Nat × Nat) (pattr : Nat) : Prop where
  inside : pattr + le16 m (pattr - 2) ≤ e.1 + e.2
  country : 3 ≤ le16 m (pattr - 2)
  entries : (wellFormed m (pattr + 3) (pattr + le16 m (pattr - 2))).2 = pattr + le16 m (pattr - 2)

theorem ContentFits.attrEnd_eq {m : Mem} {e : Nat × Nat} {pattr : Nat}
    (h : ContentFits m e pattr) : attrEnd m e pattr = pattr + le16 m (pattr - 2) :=
  Nat.min_eq_left h.inside

/-- **An element the walks are right for.** -/
structure ChListFits (m : Mem) (e : Nat × Nat) : Prop where
  moves : Moves m e
  content : ∀ pattr len, Found m e pattr len → ContentFits m e pattr

section Walk

variable {m : Mem} {e : Nat × Nat} {pattr len : Nat} {σ : Type} {b : ChBody σ} {s : σ}

/-- A walk that ends in the attribute says that the content fits. -/
theorem fits_of_run (hfound : Found m e pattr len) (hshort : e.2 < 258) (hm : b.mem s = m) {n : Nat}
    {s' : σ} (hrun : b.run n (pattr + 3) (UInt32.ofNat len - 3) s = some s')
    (hin : ∀ x ∈ b.touched s', x < attrEnd m e pattr) :
    ContentFits m e pattr ∧ s' = b.steps (wellFormed m (pattr + 3) (attrEnd m e pattr)).1 s := by
  obtain ⟨attrLen, hattrLen, hne, hlo, hhi, hend, hlen⟩ := hfound.attr
  have h16 := le16_lt m (pattr - 2)
  have hlimit : attrEnd m e pattr = min (pattr + le16 m (pattr - 2)) (e.1 + e.2) := rfl
  have hcount : (UInt32.ofNat len - 3).toNat = (attrLen + 2 ^ 32 - 6) % 2 ^ 32 := by
    rw [UInt32.toNat_sub, UInt32.toNat_ofNat', hlen]
    simp only [UInt32.reduceToNat]
    omega
  obtain ⟨hexact, hentries, hstate⟩ := b.exact_of_run hrun hin (by omega) fun hz => by
    have hzero : (UInt32.ofNat len - 3).toNat = 0 := congrArg UInt32.toNat hz
    omega
  rw [hm] at hentries hstate
  have hplace : attrEnd m e pattr = pattr + le16 m (pattr - 2) := by omega
  refine ⟨⟨by omega, by omega, ?_⟩, hstate⟩
  rw [← hplace]
  exact hentries

/-- For a content that fits, the walk comes to its entries. -/
theorem run_of_fits (hfound : Found m e pattr len) (hshort : e.2 < 258) (hm : b.mem s = m)
    (hfits : ContentFits m e pattr) {n : Nat} (hn : 258 ≤ n) :
    b.run n (pattr + 3) (UInt32.ofNat len - 3) s
      = some (b.steps (wellFormed m (pattr + 3) (attrEnd m e pattr)).1 s) := by
  subst hm
  obtain ⟨attrLen, hattrLen, hne, hlo, hhi, hend, hlen⟩ := hfound.attr
  have hcountry := hfits.country
  have hinside := hfits.inside
  have hcount : (UInt32.ofNat len - 3).toNat = le16 (b.mem s) (pattr - 2) - 3 := by
    rw [UInt32.toNat_sub, UInt32.toNat_ofNat', hlen]
    simp only [UInt32.reduceToNat]
    omega
  rw [hfits.attrEnd_eq]
  exact b.run_exact hfits.entries (by omega) (by omega)

end Walk

/-! ## 9. The array of channels -/

/-- The channels noted are those of `l`, in order. -/
structure Noted (s : ChNote) (l : List UInt8) : Prop where
  room : l.length ≤ 40
  count : s.chCnt.toNat = l.length
  list : ∀ k (h : k < l.length), s.chList k = l[k]
  inside : ∀ k ∈ s.listed, k < 40

/-- The array has been left: there are more than 40 channels. -/
structure Overrun (s : ChNote) (l : List UInt8) : Prop where
  many : 40 < l.length
  outside : ∃ k ∈ s.listed, 40 ≤ k

/-- A channel that is not there is put at the end. -/
def putCh (l : List UInt8) (x : UInt8) : List UInt8 := if x ∈ l then l else l ++ [x]

section Note

variable {s : ChNote} {l : List UInt8} {x : UInt8} {k : Nat}

theorem mem_putCh {y : UInt8} : y ∈ putCh l x ↔ y ∈ l ∨ y = x := by
  unfold putCh
  split
  · rename_i h
    constructor
    · exact .inl
    · rintro (hy | rfl)
      · exact hy
      · exact h
  · simp

theorem nodup_putCh (h : l.Nodup) : (putCh l x).Nodup := by
  unfold putCh
  split
  · exact h
  · rename_i hx
    exact List.nodup_append.mpr ⟨h, List.nodup_singleton x, fun a ha b hb heq =>
      hx (List.mem_singleton.mp hb ▸ heq ▸ ha)⟩

theorem length_le_putCh : l.length ≤ (putCh l x).length := by
  unfold putCh
  split <;> simp

/-- The search stops at the first entry that is `x`, or there is none. -/
theorem searchCh_cases (f : Nat → UInt8) (cnt : Nat) (x : UInt8) :
    (searchCh f cnt x < cnt ∧ f (searchCh f cnt x) = x) ∨
      (searchCh f cnt x = cnt ∧ ∀ k < cnt, f k ≠ x) := by
  unfold searchCh
  cases hfind : (List.range cnt).find? fun j => f j = x with
  | none =>
    refine .inr ⟨rfl, fun k hk => ?_⟩
    simpa using List.find?_eq_none.mp hfind k (List.mem_range.mpr hk)
  | some j =>
    have hhit := List.find?_some hfind
    exact .inl ⟨List.mem_range.mp (List.mem_of_find?_eq_some hfind), of_decide_eq_true hhit⟩

/-- What a channel does to the array: it is there, or it is put at the end. -/
theorem noteCh_cases (s : ChNote) (x : UInt8) :
    (∃ j < s.chCnt.toNat, s.chList j = x ∧
      noteCh s x = { s with listed := s.listed ++ List.range (j + 1) }) ∨
    ((∀ k < s.chCnt.toNat, s.chList k ≠ x) ∧
      noteCh s x = { chList := fun k => if k = s.chCnt.toNat then x else s.chList k
                     chCnt := s.chCnt + 1
                     listed := s.listed ++ List.range (s.chCnt.toNat + 1) }) := by
  rcases searchCh_cases s.chList s.chCnt.toNat x with ⟨hlt, hhit⟩ | ⟨heq, hmiss⟩
  · exact .inl ⟨_, hlt, hhit, if_neg (Nat.not_le_of_lt hlt)⟩
  · exact .inr ⟨hmiss, if_pos (Nat.le_of_eq heq.symm)⟩

theorem mem_listed (h : k ∈ s.listed) : k ∈ (noteCh s x).listed := by
  rcases noteCh_cases s x with ⟨j, -, -, heq⟩ | ⟨-, heq⟩ <;>
    · rw [heq]
      exact List.mem_append_left _ h

theorem Overrun.noteCh (h : Overrun s l) : Overrun (noteCh s x) (putCh l x) := by
  obtain ⟨k, hk, hout⟩ := h.outside
  exact ⟨Nat.lt_of_lt_of_le h.many length_le_putCh, k, mem_listed hk, hout⟩

/-- The places looked at below the count are in the array. -/
theorem Noted.listed (h : Noted s l) {n : Nat} (hn : n ≤ 40) :
    ∀ k ∈ s.listed ++ List.range n, k < 40 := by
  intro k hk
  rw [List.mem_append, List.mem_range] at hk
  rcases hk with hk | hk
  · exact h.inside k hk
  · omega

/-- **A channel is noted**, or does not fit. -/
theorem Noted.noteCh (h : Noted s l) : Noted (noteCh s x) (putCh l x) ∨
    Overrun (noteCh s x) (putCh l x) := by
  have hroom := h.room
  have hcount := h.count
  rcases noteCh_cases s x with ⟨j, hj, hhit, heq⟩ | ⟨hmiss, heq⟩
  · have hmem : x ∈ l := by
      rw [← hhit, h.list j (by omega)]
      exact List.getElem_mem _
    rw [heq, putCh, if_pos hmem]
    exact .inl ⟨hroom, hcount, h.list, h.listed (by omega)⟩
  · have hnew : x ∉ l := fun hx => by
      obtain ⟨k, hk, hget⟩ := List.getElem_of_mem hx
      exact hmiss k (by omega) ((h.list k hk).trans hget)
    have hlen : (l ++ [x]).length = l.length + 1 := List.length_append
    rw [heq, putCh, if_neg hnew]
    by_cases hlast : l.length < 40
    · refine .inl ⟨by omega, ?_, fun k hk => ?_, h.listed (by omega)⟩
      · rw [UInt8.toNat_add, hlen, hcount]
        simp only [UInt8.reduceToNat]
        omega
      · by_cases hk' : k < l.length
        · rw [List.getElem_append_left hk', ← h.list k hk']
          exact if_neg (by omega)
        · rw [List.getElem_append_right (Nat.le_of_not_lt hk'), List.getElem_singleton]
          exact if_pos (by omega)
    · refine .inr ⟨by omega, 40, ?_, Nat.le_refl 40⟩
      exact List.mem_append_right _ (List.mem_range.mpr (by omega))

/-- The channels of a walk, one after the other. -/
theorem foldl_noteCh (xs : List UInt8) :
    (Noted s l → Noted (xs.foldl noteCh s) (xs.foldl putCh l) ∨
      Overrun (xs.foldl noteCh s) (xs.foldl putCh l)) ∧
    (Overrun s l → Overrun (xs.foldl noteCh s) (xs.foldl putCh l)) := by
  induction xs generalizing s l with
  | nil => exact ⟨.inl, id⟩
  | cons x xs ih =>
    refine ⟨fun h => ?_, fun h => ih.2 h.noteCh⟩
    rcases h.noteCh (x := x) with hnoted | hover
    · exact ih.1 hnoted
    · exact .inr (ih.2 hover)

theorem foldl_putCh (xs : List UInt8) (h : l.Nodup) :
    (xs.foldl putCh l).Nodup ∧ ∀ y, y ∈ xs.foldl putCh l ↔ y ∈ l ∨ y ∈ xs := by
  induction xs generalizing l with
  | nil => exact ⟨h, fun y => by simp⟩
  | cons x xs ih =>
    obtain ⟨hnodup, hmem⟩ := ih (nodup_putCh (x := x) h)
    refine ⟨hnodup, fun y => ?_⟩
    rw [List.foldl_cons, hmem, mem_putCh, List.mem_cons, or_assoc]

/-- **The array is left** exactly if there are more than 40 distinct channels. -/
theorem listed_iff (xs : List UInt8) :
    (∀ k ∈ (xs.foldl noteCh ⟨fun _ => 0, 0, []⟩).listed ++
      List.range (xs.foldl noteCh ⟨fun _ => 0, 0, []⟩).chCnt.toNat, k < 40) ↔
    xs.toFinset.card ≤ 40 := by
  obtain ⟨hnodup, hmem⟩ := foldl_putCh xs List.nodup_nil
  have hcard : xs.toFinset.card = (xs.foldl putCh []).length := by
    rw [← List.toFinset_card_of_nodup hnodup]
    refine congrArg _ (Finset.ext fun y => ?_)
    simp [hmem]
  have hstart : Noted ⟨fun _ => 0, 0, []⟩ [] := ⟨Nat.zero_le 40, rfl, nofun, nofun⟩
  rw [hcard]
  rcases (foldl_noteCh xs).1 hstart with h | h
  · have hcount := h.count
    have hroom := h.room
    exact iff_of_true (h.listed (by omega)) hroom
  · obtain ⟨k, hk, hout⟩ := h.outside
    have hmany := h.many
    refine iff_of_false (fun hall => ?_) (by omega)
    have := hall k (List.mem_append_left _ hk)
    omega

end Note

/-! ## 10. The text -/

section Text

variable {t : ChText} {bufLen : UInt32} {note : ChNote}

theorem length_decimal (x : UInt8) : (decimal x).length ≤ 3 := by
  unfold decimal
  split
  · exact Nat.le_refl 3
  · split
    · exact Nat.le_succ 2
    · exact Nat.le_add_left 1 2

/-- The text is in the buffer, and not much longer for `j` channels. -/
structure Written (bufLen : UInt32) (j : Nat) (t : ChText) : Prop where
  inside : ∀ i ∈ t.written, i < bufLen.toNat
  short : t.wSz ≤ 5 * j

/-- **What `snprintf` writes is in the buffer**, also when `w_sz` has passed its end: the size is
then above `INT_MAX`. -/
theorem Written.snprintf {j : Nat} (h : Written bufLen j t) (hj : j < 256) {s : List UInt8}
    (hs : s.length ≤ 5) : Written bufLen (j + 1) (t.snprintf bufLen s) := by
  have hshort := h.short
  have hlt := bufLen.toNat_lt
  have hsize : (bufLen - UInt32.ofNat t.wSz).toNat = (2 ^ 32 - t.wSz + bufLen.toNat) % 2 ^ 32 := by
    rw [UInt32.toNat_sub, UInt32.toNat_ofNat_of_lt' (by simp only [UInt32.size]; omega)]
  simp only [ChText.snprintf]
  split
  · exact ⟨h.inside, by omega⟩
  · rename_i hmax
    split
    · exact ⟨h.inside, by simp only; omega⟩
    · refine ⟨fun i hi => ?_, by simp only; omega⟩
      simp only [intMax] at hmax
      simp only [List.mem_append, List.mem_map, List.mem_range, List.length_take] at hi
      rcases hi with hi | ⟨k, hk, rfl⟩
      · exact h.inside i hi
      · omega

theorem Written.printCh {j : Nat} (h : Written bufLen j t) (hj : j < 256) (k : Nat) :
    Written bufLen (j + 1) (printCh bufLen note t k) := by
  have hdec := length_decimal (note.chList k)
  have hshort := h.short
  unfold ChList.printCh
  split
  · exact h.snprintf hj (by omega)
  · split
    · exact h.snprintf hj (by simp only [List.length_cons]; omega)
    · split
      · exact ⟨h.inside, by omega⟩
      · exact h.snprintf hj (by simp only [List.length_cons]; omega)

/-- **The text of up to 255 channels** is in the buffer. -/
theorem written_foldl (note : ChNote) (buf : Mem) (bufLen : UInt32) (n : Nat) (hn : n < 256) :
    Written bufLen n ((List.range n).foldl (printCh bufLen note) ⟨buf, 0, []⟩) := by
  induction n with
  | zero => exact ⟨nofun, Nat.le_refl 0⟩
  | succ n ih =>
    rw [List.range_succ, List.foldl_append]
    exact (ih (by omega)).printCh (by omega) n

end Text

/-! ## 11. `dump_p2p_attr_ch_list` -/

/-- The entries of the channel list have at most 40 distinct channels. -/
def FewChannels (m : Mem) (e : Nat × Nat) : Prop :=
  ∀ pattr len, Found m e pattr len →
    ((wellFormed m (pattr + 3) (attrEnd m e pattr)).1.flatMap (channels m)).toFinset.card ≤ 40

section Dump

variable {m : Mem} {e : Nat × Nat} {pattr len : Nat}

theorem steps_note (l : List Nat) (s : DumpState) :
    ((dumpBody m).steps l s).note = (l.flatMap (channels m)).foldl noteCh s.note := by
  induction l generalizing s with
  | nil => rfl
  | cons p l ih =>
    rw [ChBody.steps_cons, ih, List.flatMap_cons, List.foldl_append]
    rfl

/-- Where a walk stays in the attribute, what it leaves is right. -/
theorem steps_right {σ : Type} {b : ChBody σ} {s : σ} (hm : b.mem s = m) (hv : b.visited s = [])
    (ht : b.touched s = []) :
    (⟨some (pattr, len), b.visited (b.steps (wellFormed m (pattr + 3) (attrEnd m e pattr)).1 s),
      b.touched (b.steps (wellFormed m (pattr + 3) (attrEnd m e pattr)).1 s)⟩ : Visit).Right m e := by
  obtain ⟨hvisited, htouched, -⟩ := b.steps_spec (attrEnd m e pattr - (pattr + 3)) (pattr + 3)
    (attrEnd m e pattr) s
  rw [hm, hv, List.nil_append] at hvisited
  rw [hm, ht] at htouched
  refine ⟨fun x hx => ?_, hvisited⟩
  rcases htouched x hx with hx | hx
  · simp at hx
  · omega

/-- The state the walk starts in. -/
def dumpStart : DumpState := ⟨[], [], ⟨fun _ => 0, 0, []⟩⟩

/-- What is left once the walk has ended. -/
def dumpEnd (pattr len : Nat) (buf : Mem) (bufLen : UInt32) (s : DumpState) : DumpOut :=
  ⟨⟨some (pattr, len), s.visited, s.touched⟩,
    s.note.listed ++ List.range s.note.chCnt.toNat,
    (List.range s.note.chCnt.toNat).foldl (printCh bufLen s.note) ⟨buf, 0, []⟩⟩

theorem dump_found (h : Found m e pattr len) (n : Nat) (buf : Mem) (bufLen : UInt32) :
    dumpP2pAttrChList n m (some e) buf bufLen
      = ((dumpBody m).run n (pattr + 3) (UInt32.ofNat len - 3) dumpStart).map
          (dumpEnd pattr len buf bufLen) := by
  unfold Found at h
  simp only [dumpP2pAttrChList, h, Option.pure_def, Option.bind_eq_bind, Option.bind_some]
  cases hrun : (dumpBody m).run n (pattr + 3) (UInt32.ofNat len - 3) dumpStart with
  | none =>
    unfold dumpStart at hrun
    simp [hrun]
  | some s =>
    unfold dumpStart at hrun
    simp [hrun, dumpEnd]

/-- **`dump_p2p_attr_ch_list` is right** exactly for an element that fits and has few channels. -/
theorem dumpRight_iff (m : Mem) (ie : Option Nat) (buf : Mem) (bufLen : UInt32) :
    DumpRight m ie buf bufLen ↔
      ∀ p, ie = some p → ChListFits m (ieAt m p) ∧ FewChannels m (ieAt m p) := by
  cases ie with
  | none =>
    exact iff_of_true ⟨0, _, rfl, ⟨rfl, rfl⟩, nofun, nofun⟩ nofun
  | some p =>
    have hshort : (ieAt m p).2 < 258 := by
      have := (m (p + 1)).toNat_lt
      simp only [ieAt]
      omega
    constructor
    · rintro ⟨n, out, hdump, hright, hlisted, -⟩ p' hp
      obtain rfl : p = p' := Option.some.inj hp
      have key : ∀ pattr len, Found m (ieAt m p) pattr len → ContentFits m (ieAt m p) pattr ∧
          ((wellFormed m (pattr + 3) (attrEnd m (ieAt m p) pattr)).1.flatMap
            (channels m)).toFinset.card ≤ 40 := fun pattr len hfound => by
        rw [Option.map_some, dump_found hfound, Option.map_eq_some_iff] at hdump
        obtain ⟨s, hrun, rfl⟩ := hdump
        obtain ⟨hfits, rfl⟩ := fits_of_run hfound hshort rfl hrun fun x hx => (hright.1 x hx).2
        refine ⟨hfits, (listed_iff _).mp ?_⟩
        simp only [dumpEnd, steps_note] at hlisted
        exact hlisted
      refine ⟨⟨content_ends_iff.mp fun hnone => ?_, fun pattr len h => (key pattr len h).1⟩,
        fun pattr len h => (key pattr len h).2⟩
      simp [dumpP2pAttrChList, hnone] at hdump
    · intro h
      obtain ⟨hfits, hfew⟩ := h p rfl
      obtain ⟨x, hx⟩ := Option.ne_none_iff_exists'.mp (content_ends_iff.mpr hfits.moves)
      rcases x with _ | ⟨pattr, len⟩
      · refine ⟨0, ⟨⟨none, [], []⟩, [], ⟨buf, 0, []⟩⟩, ?_, ⟨rfl, rfl⟩, nofun, nofun⟩
        simp [dumpP2pAttrChList, hx]
      · have hfound : Found m (ieAt m p) pattr len := hx
        have hrun := run_of_fits (b := dumpBody m) (s := dumpStart) hfound hshort rfl
          (hfits.content pattr len hfound) (Nat.le_refl 258)
        refine ⟨258, dumpEnd pattr len buf bufLen _, ?_,
          steps_right (b := dumpBody m) (s := dumpStart) rfl rfl rfl, ?_, ?_⟩
        · rw [Option.map_some, dump_found hfound, hrun]
          rfl
        · simp only [dumpEnd, steps_note]
          exact (listed_iff _).mpr (hfew pattr len hfound)
        · exact (written_foldl _ buf bufLen _ (UInt8.toNat_lt _)).inside

end Dump

/-! ## 12. Bytes that do not matter -/

section Congr

variable {m m' : Mem} {a p : Nat} {e : Nat × Nat}

/-- The memories are the same from a place on. -/
def SameFrom (a : Nat) (m' m : Mem) : Prop := ∀ x, a ≤ x → m' x = m x

theorem SameFrom.mono {b : Nat} (h : SameFrom a m' m) (hab : a ≤ b) : SameFrom b m' m :=
  fun x hx => h x (Nat.le_trans hab hx)

theorem SameFrom.le16 (h : SameFrom a m' m) (hp : a ≤ p) : le16 m' p = le16 m p := by
  unfold Rtl8723bs.le16
  rw [h p hp, h (p + 1) (by omega)]

theorem SameFrom.readBytes (h : SameFrom a m' m) (hp : a ≤ p) (n : Nat) :
    readBytes m' p n = readBytes m p n :=
  readBytes_congr fun i hi _ => h i (Nat.le_trans hp hi)

theorem SameFrom.content (h : SameFrom e.1 m' m) :
    rtwGetP2pAttrContent m' (some e) p2pAttrChList
      = rtwGetP2pAttrContent m (some e) p2pAttrChList := by
  have hloop : ∀ n off, getP2pAttrLoop m' e.1 e.2 p2pAttrChList n off
      = getP2pAttrLoop m e.1 e.2 p2pAttrChList n off := by
    intro n
    induction n with
    | zero => exact fun _ => rfl
    | succ n ih =>
      intro off
      have hlen : Rtl8723bs.le16 m' (e.1 + off + 1) = Rtl8723bs.le16 m (e.1 + off + 1) :=
        h.le16 (by omega)
      simp only [getP2pAttrLoop, hlen, h (e.1 + off) (Nat.le_add_right _ _), ih]
  simp only [rtwGetP2pAttrContent, rtwGetP2pAttr, h e.1 (Nat.le_refl _),
    h.readBytes (Nat.le_add_right e.1 2), hloop]

theorem SameFrom.found (h : SameFrom e.1 m' m) {pattr len : Nat} :
    Found m' e pattr len ↔ Found m e pattr len := by
  unfold Found
  rw [h.content]

theorem SameFrom.moves (h : SameFrom e.1 m' m) : Moves m' e ↔ Moves m e := by
  rw [← content_ends_iff, ← content_ends_iff, h.content]

theorem SameFrom.contentFits (h : SameFrom e.1 m' m) {pattr : Nat} (hp : e.1 + 3 ≤ pattr) :
    ContentFits m' e pattr ↔ ContentFits m e pattr := by
  have hlen : Rtl8723bs.le16 m' (pattr - 2) = Rtl8723bs.le16 m (pattr - 2) := h.le16 (by omega)
  have hwell : ∀ limit, wellFormed m' (pattr + 3) limit = wellFormed m (pattr + 3) limit :=
    fun limit => wellFormed_congr (h.mono (by omega))
  constructor
  · rintro ⟨hin, hcountry, hentries⟩
    rw [hlen] at hin hcountry hentries
    exact ⟨hin, hcountry, hwell _ ▸ hentries⟩
  · rintro ⟨hin, hcountry, hentries⟩
    rw [← hlen] at hin hcountry hentries
    exact ⟨hin, hcountry, hwell _ ▸ hentries⟩

/-- An element fits for its own bytes. -/
theorem SameFrom.fits (h : SameFrom e.1 m' m) : ChListFits m' e ↔ ChListFits m e := by
  constructor
  · rintro ⟨hmoves, hcontent⟩
    refine ⟨h.moves.mp hmoves, fun pattr len hfound => ?_⟩
    obtain ⟨-, -, -, hp, -⟩ := hfound.attr
    exact (h.contentFits hp).mp (hcontent pattr len (h.found.mpr hfound))
  · rintro ⟨hmoves, hcontent⟩
    refine ⟨h.moves.mpr hmoves, fun pattr len hfound => ?_⟩
    obtain ⟨-, -, -, hp, -⟩ := hfound.attr
    exact (h.contentFits hp).mpr (hcontent pattr len (h.found.mp hfound))

theorem SameFrom.rtwGetP2pIe (h : SameFrom a m' m) (inLen : Int) :
    rtwGetP2pIe m' a inLen = rtwGetP2pIe m a inLen := by
  have hloop : ∀ n cnt, getP2pIeLoop m' a inLen.toNat n cnt = getP2pIeLoop m a inLen.toNat n cnt := by
    intro n
    induction n with
    | zero => exact fun _ => rfl
    | succ n ih =>
      intro cnt
      have hlen : m' (a + cnt + 1) = m (a + cnt + 1) := h _ (by omega)
      have houi : Rtl8723bs.readBytes m' (a + cnt + 2) 4 = Rtl8723bs.readBytes m (a + cnt + 2) 4 :=
        h.readBytes (by omega) 4
      simp only [getP2pIeLoop, hlen, houi, h (a + cnt) (Nat.le_add_right _ _), ih]
  simp only [Rtl8723bs.rtwGetP2pIe, hloop]

end Congr

/-! ## 13. `rtw_change_p2pie_ch_list` -/

/-- The P2P elements the walk comes to from `cur` on. -/
def p2pIesFrom (m : Mem) (ies : Nat) (iesLen : UInt32) : Nat → Option (Nat × Nat) → List (Nat × Nat)
  | _, none => []
  | 0, some _ => []
  | k + 1, some e => e :: p2pIesFrom m ies iesLen k (nextP2pIe m ies iesLen e)

/-- **The P2P elements of the frame** behind the first eight bytes of its body. -/
def p2pIes (m : Mem) (frameBody : Nat) (len : UInt32) : List (Nat × Nat) :=
  p2pIesFrom m (frameBody + 8) (len - 8) (len - 8).toNat
    (rtwGetP2pIe m (frameBody + 8) (int32 (len - 8).toNat))

/-- A P2P element in the elements of the frame, up to its header and the OUI. -/
structure InIes (ies : Nat) (iesLen : UInt32) (e : Nat × Nat) : Prop where
  small : iesLen.toNat < 2 ^ 31
  front : ies ≤ e.1
  header : e.1 + 5 < ies + iesLen.toNat
  low : 2 ≤ e.2
  high : e.2 < 258

section Change

variable {m m' m'' : Mem} {ies n k : Nat} {iesLen : UInt32} {e : Nat × Nat} {ch : UInt8} {v : Visit}

/-- Where `rtw_get_p2p_ie` finds an element. -/
theorem getP2pIeLoop_place {inIe inLen cnt : Nat} (h : getP2pIeLoop m inIe inLen n cnt = some e) :
    inIe + cnt ≤ e.1 ∧ e.1 + 5 < inIe + inLen ∧ e.2 = (m (e.1 + 1)).toNat + 2 := by
  induction n generalizing cnt with
  | zero => simp [getP2pIeLoop] at h
  | succ n ih =>
    rw [getP2pIeLoop] at h
    split at h
    · split at h
      · cases h
      · split at h
        · cases h
          refine ⟨Nat.le_refl _, ?_, rfl⟩
          simp only
          omega
        · have := ih h
          omega
    · cases h

theorem rtwGetP2pIe_place {inIe : Nat} {inLen : Int} (h : rtwGetP2pIe m inIe inLen = some e) :
    0 < inLen ∧ inIe ≤ e.1 ∧ e.1 + 5 < inIe + inLen.toNat ∧ e.2 = (m (e.1 + 1)).toNat + 2 := by
  unfold rtwGetP2pIe at h
  split at h
  · cases h
  · have := getP2pIeLoop_place h
    omega

theorem first_inIes (h : rtwGetP2pIe m ies (int32 iesLen.toNat) = some e) : InIes ies iesLen e := by
  obtain ⟨hpos, hfront, hheader, hlen⟩ := rtwGetP2pIe_place h
  have hlt := iesLen.toNat_lt
  have hbyte := (m (e.1 + 1)).toNat_lt
  unfold int32 at hpos hheader
  exact ⟨by omega, hfront, by omega, by omega, by omega⟩

/-- The next element is behind the one before. -/
theorem InIes.next (h : InIes ies iesLen e) {e' : Nat × Nat}
    (hnext : nextP2pIe m ies iesLen e = some e') :
    InIes ies iesLen e' ∧ e.1 + e.2 ≤ e'.1 := by
  obtain ⟨hpos, hfront, hheader, hlen⟩ := rtwGetP2pIe_place hnext
  obtain ⟨hsmall, hfront', hheader', hlow, hhigh⟩ := h
  have hbyte := (m (e'.1 + 1)).toNat_lt
  unfold int32 at hpos hheader
  exact ⟨⟨hsmall, by omega, by omega, by omega, by omega⟩, hfront⟩

theorem nextP2pIe_congr (h : SameFrom (e.1 + e.2) m' m) :
    nextP2pIe m' ies iesLen e = nextP2pIe m ies iesLen e := h.rtwGetP2pIe _

theorem changeAttr_found {pattr len : Nat} (h : Found m e pattr len) :
    changeAttr n m e ch = ((changeBody ch).run n (pattr + 3) (UInt32.ofNat len - 3) ⟨m, [], []⟩).map
      fun s => (s.mem, ⟨some (pattr, len), s.visited, s.touched⟩) := by
  unfold Found at h
  simp only [changeAttr, h, Option.pure_def, Option.bind_eq_bind, Option.bind_some]
  cases (changeBody ch).run n (pattr + 3) (UInt32.ofNat len - 3) ⟨m, [], []⟩ <;> rfl

/-- Entries in an attribute are in the element. -/
theorem steps_behind {pattr : Nat} :
    SameFrom (e.1 + e.2) ((changeBody ch).steps (wellFormed m (pattr + 3) (attrEnd m e pattr)).1
      ⟨m, [], []⟩).mem m := by
  intro x hx
  obtain ⟨-, -, hmem⟩ := (changeBody ch).steps_spec (attrEnd m e pattr - (pattr + 3)) (pattr + 3)
    (attrEnd m e pattr) ⟨m, [], []⟩
  have hend : attrEnd m e pattr ≤ e.1 + e.2 := Nat.min_le_right _ _
  exact hmem x (.inr (by omega))

/-- A visit that is right says that the element fits, and leaves the bytes behind it. -/
theorem fits_of_changeAttr (hshort : e.2 < 258) (h : changeAttr n m e ch = some (m', v))
    (hright : v.Right m e) : ChListFits m e ∧ SameFrom (e.1 + e.2) m' m := by
  cases hcontent : rtwGetP2pAttrContent m (some e) p2pAttrChList with
  | none => simp [changeAttr, hcontent] at h
  | some x =>
    have hmoves : Moves m e := content_ends_iff.mp (by simp [hcontent])
    rcases x with _ | ⟨pattr, len⟩
    · simp only [changeAttr, hcontent, Option.pure_def, Option.bind_eq_bind, Option.bind_some,
        Option.some.injEq, Prod.mk.injEq] at h
      refine ⟨⟨hmoves, fun pattr len hfound => ?_⟩, fun x _ => by rw [h.1]⟩
      rw [Found, hcontent] at hfound
      simp at hfound
    · rw [changeAttr_found hcontent, Option.map_eq_some_iff] at h
      obtain ⟨s, hrun, heq⟩ := h
      obtain ⟨rfl, rfl⟩ := Prod.mk.inj heq
      obtain ⟨hfits, rfl⟩ := fits_of_run hcontent hshort rfl hrun fun x hx => (hright.1 x hx).2
      refine ⟨⟨hmoves, fun pattr' len' hfound => ?_⟩, steps_behind⟩
      rw [Found, hcontent] at hfound
      simp only [Option.some.injEq, Prod.mk.injEq] at hfound
      exact hfound.1 ▸ hfits

/-- For an element that fits, the visit is right. -/
theorem changeAttr_of_fits (hshort : e.2 < 258) (hfits : ChListFits m e) (hn : 258 ≤ n) :
    ∃ m' v, changeAttr n m e ch = some (m', v) ∧ v.Right m e ∧ SameFrom (e.1 + e.2) m' m := by
  obtain ⟨x, hx⟩ := Option.ne_none_iff_exists'.mp (content_ends_iff.mpr hfits.moves)
  rcases x with _ | ⟨pattr, len⟩
  · refine ⟨m, ⟨none, [], []⟩, ?_, ⟨rfl, rfl⟩, fun _ _ => rfl⟩
    simp [changeAttr, hx]
  · have hrun := run_of_fits (b := changeBody ch) (s := ⟨m, [], []⟩) hx hshort rfl
      (hfits.content pattr len hx) hn
    have hattr := @changeAttr_found m n e ch _ _ hx
    rw [hrun, Option.map_some] at hattr
    exact ⟨_, _, hattr, steps_right (b := changeBody ch) (s := ⟨m, [], []⟩) rfl rfl rfl,
      steps_behind⟩

/-- What a visit is for depends on the bytes of the element. -/
theorem SameFrom.right (h : SameFrom e.1 m' m) (hrun : changeAttr n m' e ch = some (m'', v)) :
    v.Right m' e ↔ v.Right m e := by
  cases hcontent : rtwGetP2pAttrContent m' (some e) p2pAttrChList with
  | none => simp [changeAttr, hcontent] at hrun
  | some x =>
    rcases x with _ | ⟨pattr, len⟩
    · simp only [changeAttr, hcontent, Option.pure_def, Option.bind_eq_bind, Option.bind_some,
        Option.some.injEq, Prod.mk.injEq] at hrun
      rw [← hrun.2]
      exact Iff.rfl
    · rw [changeAttr_found hcontent, Option.map_eq_some_iff] at hrun
      obtain ⟨s, -, heq⟩ := hrun
      obtain ⟨-, rfl⟩ := Prod.mk.inj heq
      obtain ⟨-, -, -, hp, -⟩ := Found.attr hcontent
      have hend : attrEnd m' e pattr = attrEnd m e pattr := by
        unfold attrEnd
        rw [h.le16 (by omega)]
      simp only [Visit.Right, hend, wellFormed_congr (h.mono (show e.1 ≤ pattr + 3 by omega))]

/-- **A walk over the elements that is right** has come to elements that fit. -/
theorem fits_of_changeLoop {cur : Option (Nat × Nat)} {vs : List ((Nat × Nat) × Visit)} {j : Nat}
    (hcur : ∀ e, cur = some e → InIes ies iesLen e ∧ SameFrom e.1 m' m)
    (h : changeLoop n ies iesLen ch k m' cur = some (m'', vs)) (hright : ∀ v ∈ vs, v.2.Right m v.1) :
    ∀ e ∈ p2pIesFrom m ies iesLen j cur, ChListFits m e := by
  induction k generalizing j cur m' vs with
  | zero =>
    cases cur with
    | none =>
      cases j <;> exact nofun
    | some e => simp [changeLoop] at h
  | succ k ih =>
    cases cur with
    | none => cases j <;> exact nofun
    | some e =>
      obtain ⟨hin, hsame⟩ := hcur e rfl
      cases j with
      | zero => exact nofun
      | succ j =>
        simp only [changeLoop, Option.pure_def, Option.bind_eq_bind, Option.bind_eq_some_iff,
          Option.some.injEq, Prod.mk.injEq, Prod.exists] at h
        obtain ⟨m₁, v, hattr, m₂, vs', hloop, rfl, rfl⟩ := h
        have hv := (hsame.right hattr).mpr (hright (e, v) List.mem_cons_self)
        obtain ⟨hfits, hbehind⟩ := fits_of_changeAttr hin.high hattr hv
        have hsame' : SameFrom (e.1 + e.2) m₁ m := fun x hx =>
          (hbehind x hx).trans (hsame x (by omega))
        rw [nextP2pIe_congr hsame'] at hloop
        have hrest := ih (j := j) (fun e' he' => ⟨(hin.next he').1, hsame'.mono (hin.next he').2⟩)
          hloop fun v hv => hright v (List.mem_cons_of_mem _ hv)
        intro e' he'
        rcases List.mem_cons.mp he' with rfl | he'
        · exact hsame.fits.mp hfits
        · exact hrest e' he'

/-- **Where all elements fit**, the walk over them ends and is right. -/
theorem changeLoop_of_fits {cur : Option (Nat × Nat)} {j : Nat}
    (hcur : ∀ e, cur = some e → InIes ies iesLen e ∧ SameFrom e.1 m' m ∧
      ies + iesLen.toNat ≤ e.1 + k ∧ ies + iesLen.toNat ≤ e.1 + j)
    (hn : 258 ≤ n) (hfits : ∀ e ∈ p2pIesFrom m ies iesLen j cur, ChListFits m e) :
    ∃ m'' vs, changeLoop n ies iesLen ch k m' cur = some (m'', vs) ∧
      ∀ v ∈ vs, v.2.Right m v.1 := by
  induction k generalizing j cur m' with
  | zero =>
    cases cur with
    | none => exact ⟨m', [], rfl, nofun⟩
    | some e =>
      obtain ⟨hin, -, hk, -⟩ := hcur e rfl
      have := hin.header
      omega
  | succ k ih =>
    cases cur with
    | none => exact ⟨m', [], rfl, nofun⟩
    | some e =>
      obtain ⟨hin, hsame, hk, hj⟩ := hcur e rfl
      have hheader := hin.header
      have hlow := hin.low
      obtain ⟨j, rfl⟩ : ∃ i, j = i + 1 := ⟨j - 1, by omega⟩
      have hfit := hfits e List.mem_cons_self
      obtain ⟨m₁, v, hattr, hv, hbehind⟩ :=
        @changeAttr_of_fits _ n _ ch hin.high (hsame.fits.mpr hfit) hn
      have hsame' : SameFrom (e.1 + e.2) m₁ m := fun x hx =>
        (hbehind x hx).trans (hsame x (by omega))
      obtain ⟨m₂, vs, hloop, hvs⟩ := @ih m₁ (nextP2pIe m ies iesLen e) j
        (fun e' he' => by
          obtain ⟨hin', hle⟩ := hin.next he'
          exact ⟨hin', hsame'.mono hle, by omega, by omega⟩)
        fun e' he' => hfits e' (List.mem_cons_of_mem _ he')
      refine ⟨m₂, (e, v) :: vs, ?_, fun w hw => ?_⟩
      · simp only [changeLoop, hattr, nextP2pIe_congr hsame', hloop, Option.pure_def,
          Option.bind_eq_bind, Option.bind_some]
      · rcases List.mem_cons.mp hw with rfl | hw
        · exact (hsame.right hattr).mp hv
        · exact hvs w hw

/-- **`rtw_change_p2pie_ch_list` is right** exactly for a frame all of whose P2P elements fit. -/
theorem changeRight_iff (m : Mem) (frameBody : Nat) (len : UInt32) (ch : UInt8) :
    ChangeRight m frameBody len ch ↔ ∀ e ∈ p2pIes m frameBody len, ChListFits m e := by
  constructor
  · rintro ⟨n, m', vs, h, hright⟩
    simp only [rtwChangeP2pieChList] at h
    exact fits_of_changeLoop (fun e he => ⟨first_inIes he, fun _ _ => rfl⟩) h hright
  · intro hfits
    have hstart : ∀ e, rtwGetP2pIe m (frameBody + 8) (int32 (len - 8).toNat) = some e →
        InIes (frameBody + 8) (len - 8) e ∧ SameFrom e.1 m m ∧
          frameBody + 8 + (len - 8).toNat ≤ e.1 + ((len - 8).toNat + 258) ∧
          frameBody + 8 + (len - 8).toNat ≤ e.1 + (len - 8).toNat := fun e he => by
      have hin := first_inIes he
      have hfront := hin.front
      exact ⟨hin, fun _ _ => rfl, by omega, by omega⟩
    obtain ⟨m'', vs, hloop, hvs⟩ := @changeLoop_of_fits _ _ _ _ _ _ ch _ _ hstart
      (Nat.le_add_left 258 (len - 8).toNat) hfits
    refine ⟨(len - 8).toNat + 258, m'', vs, ?_, hvs⟩
    simp only [rtwChangeP2pieChList]
    exact hloop

end Change

/-! ## 14. When the walks are right -/

/-- **The walks over the channel list** are right exactly for elements that fit: no attribute in
front of it makes the search stay, it lies in the element, and it is a country string and entries
that end where it does; and for the text there are at most 40 distinct channels. -/
theorem p2p_ch_list_walks (m : Mem) (ie : Option Nat) (buf : Mem) (bufLen : UInt32)
    (frameBody : Nat) (len : UInt32) (ch : UInt8) :
    (DumpRight m ie buf bufLen ↔
      ∀ p, ie = some p → ChListFits m (ieAt m p) ∧ FewChannels m (ieAt m p)) ∧
    (ChangeRight m frameBody len ch ↔ ∀ e ∈ p2pIes m frameBody len, ChListFits m e) :=
  ⟨dumpRight_iff m ie buf bufLen, changeRight_iff m frameBody len ch⟩

/-- A P2P element whose channel list is two bytes long. -/
def shortChList : Mem := fun i =>
  [221, 9, 0x50, 0x6F, 0x9A, 0x09, 0x0B, 2, 0, 0x55, 0x53].getD i 0

/-- Not so for every element: the walk over a channel list of two bytes goes on behind it. -/
theorem short_ch_list_leaves : ¬ ∀ m ie buf bufLen, DumpRight m ie buf bufLen := by
  intro hall
  have hright := hall shortChList (some 0) (fun _ => 0) 128
  obtain ⟨hfits, -⟩ := (dumpRight_iff _ _ _ _).mp hright 0 rfl
  have hfound : Found shortChList (ieAt shortChList 0) 9 2 := by
    unfold Found
    decide
  have hcountry := (hfits.content 9 2 hfound).country
  revert hcountry
  decide

end Rtl8723bs.ChList
