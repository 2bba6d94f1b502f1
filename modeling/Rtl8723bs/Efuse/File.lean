/-
# EFUSE contents from a file

A file holds the EFUSE map as bytes of two hexadecimal digits.  `rtw_read_efuse_from_file` reads it
for the driver: a loop over the bytes of the map, in it a loop over characters with a position that
both share.  It passes over blanks, line ends and zeros in front of a byte, and turns down anything
else, also half a byte at the end of the file; the map is copied to the caller only if all is well.
`rtw_efuse_file_read` reads such files for the tools: it cuts the text at blanks and line ends and
leaves the digits to `sscanf`.

`read_efuse_iff` says which files the first accepts and with what map, and `file_read_same` that the
second gives the same bytes where each is a token of its own.
-/
import Rtl8723bs.Wifi

namespace Rtl8723bs.EfuseFile

/-! ## 1. Characters -/

/-- `is_null`. -/
def isNull (c : UInt8) : Bool := c = 0

/-- `is_eol`. -/
def isEol (c : UInt8) : Bool := c = 0x0D ∨ c = 0x0A

/-- `is_space`. -/
def isSpace (c : UInt8) : Bool := c = 0x20 ∨ c = 0x09

/-- `IsHexDigit`. -/
def isHexDigit (c : UInt8) : Bool :=
  (0x30 ≤ c ∧ c ≤ 0x39) ∨ (0x61 ≤ c ∧ c ≤ 0x66) ∨ (0x41 ≤ c ∧ c ≤ 0x46)

/-- The value of a digit. -/
def digitVal (c : UInt8) : Nat :=
  if c ≤ 0x39 then c.toNat - 0x30 else if c ≤ 0x46 then c.toNat - 0x37 else c.toNat - 0x57

/-- What the kernel's `isspace` takes for a space. -/
def kernelSpace (c : UInt8) : Bool := (0x09 ≤ c ∧ c ≤ 0x0D) ∨ c = 0x20 ∨ c = 0xA0

/-- The digits behind `0x`, where that is in front. -/
def strip0x : List UInt8 → List UInt8
  | 0x30 :: 0x78 :: l => l
  | 0x30 :: 0x58 :: l => l
  | l => l

/-- `sscanf(s, "%hhx", &v)` of a buffer that holds `s` up to its end: `none` if it is read to the
end, `some none` if there is no number. -/
def sscanfHhx (s : List UInt8) : Option (Option UInt8) :=
  match s.dropWhile kernelSpace with
  | [] => none
  | c :: l =>
    if isHexDigit c then
      let number := strip0x (c :: l)
      let digits := number.takeWhile isHexDigit
      if digits.length = number.length then none
      else some (some (UInt8.ofNat (digits.foldl (fun v d => 16 * v + digitVal d) 0)))
    else some none

/-! ## 2. `rtw_read_efuse_from_file` -/

/-- How the inner loop is left: with a byte and the characters behind it, at the end of the file
with so many digits of a byte read, or at a character that does not belong there. -/
inductive Scanned
  | byte (v : UInt8) (rest : List UInt8)
  | ends (tempI : Nat)
  | invalid
deriving DecidableEq, Repr

/-- `while (1)` over the characters from `file_data[pos]` on, with those in `temp`. -/
def scanByte : List UInt8 → List UInt8 → Scanned
  | [], temp => .ends temp.length
  | c :: rest, temp =>
    if temp.length = 0 ∧ (isEol c ∨ isSpace c ∨ isNull c) then scanByte rest temp
    else if ¬ isHexDigit c then .invalid
    else if (temp ++ [c]).length = 2 then
      match sscanfHhx (temp ++ [c, 0]) with
      | some (some v) => .byte v rest
      | _ => .invalid
    else scanByte rest (temp ++ [c])

/-- `for (i = 0 ; i < map_size ; i++)` with so many rounds left; `none` is `goto exit`. -/
def parseMap : Nat → Nat → List UInt8 → Mem → Option Mem
  | 0, _, _, map => some map
  | n + 1, i, data, map =>
    match scanByte data [] with
    | .byte v rest => parseMap n (i + 1) rest (overwrite map i [v])
    | .ends tempI => if tempI ≠ 0 then none else some map
    | .invalid => none

/-- A file, as it is found at the path: whether it can be read, the size it says it has, and what is
read from it. -/
structure File where
  readable : Bool
  size : UInt32
  content : List UInt8

/-- What `rtw_read_efuse_from_file` leaves; the buffers by their sizes. -/
structure FileOut where
  success : Bool
  buf : Mem
  vmallocs : List Nat
  vmfrees : List Nat

/-- `file_data` up to `read_size`. -/
def File.data (f : File) : List UInt8 := f.content.take f.size.toNat

/-- `rtw_read_efuse_from_file`; `map_size` is an `int` that is used without its sign. -/
def rtwReadEfuseFromFile (f : File) (vmallocOk : Nat → Bool) (buf : Mem) (mapSize : UInt32) :
    FileOut :=
  let fileSize := f.size.toNat
  if ¬ f.readable then ⟨false, buf, [], []⟩
  else if ¬ vmallocOk fileSize then ⟨false, buf, [], []⟩
  else if f.data.length = 0 then ⟨false, buf, [fileSize], [fileSize]⟩
  else if ¬ vmallocOk mapSize.toNat then ⟨false, buf, [fileSize], [fileSize]⟩
  else
    let sizes := [fileSize, mapSize.toNat]
    match parseMap mapSize.toNat 0 f.data fun _ => 0xFF with
    | none => ⟨false, buf, sizes, sizes⟩
    | some map => ⟨true, overwrite buf 0 (readBytes map 0 mapSize.toNat), sizes, sizes⟩

/-! ## 3. `rtw_efuse_file_read` -/

/-- `bufsize`. -/
def bufsize : Nat := 4096

/-- `strpbrk(&ptmpbuf[i], " \t\n\r")` with `n` bytes to the end of the buffer: `none` if it is read
to the end, `some none` if there is no such character. -/
def strpbrk (m : Mem) : Nat → Nat → Option (Option Nat)
  | 0, _ => none
  | n + 1, i =>
    if m i = 0 then some none
    else if isSpace (m i) ∨ isEol (m i) then some (some i)
    else strpbrk m n (i + 1)

/-- The body of the loop from `sscanf` on. -/
def storeByte (ptmpbuf buf : Mem) (i j : Nat) : Option (Mem × Nat) :=
  match sscanfHhx (readBytes ptmpbuf i (bufsize - i)) with
  | none => none
  | some none => some (buf, j)
  | some (some val8) => some (overwrite buf j [val8], j + 1)

/-- `while ((j < len) && (i < count))`, in at most so many rounds; it is `none` if a byte behind the
buffer is read, or the rounds are too few. -/
def fileReadLoop (len count : Nat) : Nat → Mem → Mem → Nat → Nat → Option Mem
  | 0, _, _, _, _ => none
  | n + 1, ptmpbuf, buf, i, j =>
    if j < len ∧ i < count then
      if ptmpbuf i = 0 then some buf
      else
        match strpbrk ptmpbuf (bufsize - i) i with
        | none => none
        | some (some ptr) =>
          if ptr = i then fileReadLoop len count n ptmpbuf buf (i + 1) j
          else
            let ptmpbuf := overwrite ptmpbuf ptr [0]
            match storeByte ptmpbuf buf i j with
            | none => none
            | some (buf, j) => fileReadLoop len count n ptmpbuf buf (ptr + 1) j
        | some none =>
          match storeByte ptmpbuf buf i j with
          | none => none
          | some (buf, j) => fileReadLoop len count n ptmpbuf buf (count - 1 + 1) j
    else some buf

/-- `rtw_efuse_file_read`: whether it succeeds, and the caller's buffer.  The temporary buffer is
filled with zeros first. -/
def rtwEfuseFileRead (f : File) (zmallocOk : Bool) (buf : Mem) (len : Nat) : Option (Bool × Mem) :=
  if ¬ zmallocOk then some (false, buf)
  else
    let content := f.content.take bufsize
    let count := content.length
    if ¬ f.readable ∨ count ≤ 100 then some (false, buf)
    else
      (fileReadLoop len count (count + 1) (overwrite (fun _ => 0) 0 content) buf 0 0).map
        fun buf => (true, buf)

/-! ## 4. The grammar -/

/-- A character that may stand in front of a byte. -/
def Gap (c : UInt8) : Prop := isEol c ∨ isSpace c ∨ isNull c

instance (c : UInt8) : Decidable (Gap c) := inferInstanceAs (Decidable (_ ∨ _))

/-- The byte with these two digits. -/
def hexByte (a b : UInt8) : UInt8 := UInt8.ofNat (16 * digitVal a + digitVal b)

/-- **The grammar**: content that holds these bytes, of which there are at most `n`: each of two
digits, with blanks, line ends or zeros in front; and, where there are fewer, a tail. -/
inductive Grammar (tail : List UInt8 → Prop) : Nat → List UInt8 → List UInt8 → Prop
  | full (rest : List UInt8) : Grammar tail 0 rest []
  | ends (n : Nat) {rest : List UInt8} : tail rest → Grammar tail (n + 1) rest []
  | byte {n : Nat} {gap rest bytes : List UInt8} {a b : UInt8} : (∀ c ∈ gap, Gap c) →
      isHexDigit a → isHexDigit b → Grammar tail n rest bytes →
      Grammar tail (n + 1) (gap ++ a :: b :: rest) (hexByte a b :: bytes)

/-- Behind the last byte there may again be blanks, line ends and zeros. -/
abbrev Accepted (mapSize : Nat) (content bytes : List UInt8) : Prop :=
  Grammar (fun rest => ∀ c ∈ rest, Gap c) mapSize content bytes

/-- The bytes with `0xFF` behind them up to the size of the map. -/
def mapOf (mapSize : Nat) (bytes : List UInt8) : List UInt8 :=
  bytes ++ List.replicate (mapSize - bytes.length) 0xFF

/-- **Content with one byte for each token**: the digits of a byte stand together, and what follows
them is a blank or a line end, or nothing. -/
inductive TokenWise : List UInt8 → List UInt8 → Prop
  | nil : TokenWise [] []
  | blank {c : UInt8} {rest bytes : List UInt8} : (isSpace c ∨ isEol c) → TokenWise rest bytes →
      TokenWise (c :: rest) bytes
  | byte {rest bytes : List UInt8} {a b : UInt8} : isHexDigit a → isHexDigit b →
      (∀ c ∈ rest.head?, isSpace c ∨ isEol c) → TokenWise rest bytes →
      TokenWise (a :: b :: rest) (hexByte a b :: bytes)

/-! ## 5. Digits -/

section Digits

variable {a b c : UInt8} {rest gap data : List UInt8}

/-- The codes of the digits. -/
theorem isHexDigit_iff : isHexDigit c = true ↔ (0x30 ≤ c.toNat ∧ c.toNat ≤ 0x39) ∨
    (0x61 ≤ c.toNat ∧ c.toNat ≤ 0x66) ∨ (0x41 ≤ c.toNat ∧ c.toNat ≤ 0x46) := by
  simp [isHexDigit, UInt8.le_iff_toNat_le]

theorem gap_iff : Gap c ↔ c.toNat = 0x0D ∨ c.toNat = 0x0A ∨ c.toNat = 0x20 ∨ c.toNat = 0x09 ∨
    c.toNat = 0 := by
  simp [Gap, isEol, isSpace, isNull, ← UInt8.toNat_inj, or_assoc]

theorem not_gap_of_digit (h : isHexDigit c) : ¬ Gap c := by
  rw [isHexDigit_iff] at h
  rw [gap_iff]
  omega

theorem not_space_of_digit (h : isHexDigit c) : kernelSpace c = false := by
  rw [isHexDigit_iff] at h
  simp only [kernelSpace, UInt8.le_iff_toNat_le, ← UInt8.toNat_inj, decide_eq_false_iff_not,
    UInt8.reduceToNat]
  omega

theorem strip0x_digits (ha : isHexDigit b) : strip0x (a :: b :: rest) = a :: b :: rest := by
  rw [isHexDigit_iff] at ha
  unfold strip0x
  split
  · rename_i l heq
    simp only [List.cons.injEq] at heq
    obtain ⟨-, rfl, -⟩ := heq
    simp at ha
  · rename_i l heq
    simp only [List.cons.injEq] at heq
    obtain ⟨-, rfl, -⟩ := heq
    simp at ha
  · rfl

/-- `sscanf` takes two digits with a zero behind them for their byte. -/
theorem sscanfHhx_digits (ha : isHexDigit a) (hb : isHexDigit b) :
    sscanfHhx (a :: b :: 0 :: rest) = some (some (hexByte a b)) := by
  have hzero : isHexDigit 0 = false := by decide
  have hval : 16 * (16 * 0 + digitVal a) + digitVal b = 16 * digitVal a + digitVal b := by omega
  simp [sscanfHhx, not_space_of_digit ha, ha, strip0x_digits hb, hb, hzero, hexByte]

end Digits

/-! ## 6. What the inner loop makes of the file -/

section Scan

variable {a b c : UInt8} {rest gap data : List UInt8}

/-- What may stand in front of a byte is passed over. -/
theorem scanByte_gap (h : ∀ c ∈ gap, Gap c) : scanByte (gap ++ rest) [] = scanByte rest [] := by
  induction gap with
  | nil => rfl
  | cons c gap ih =>
    have hc : Gap c := h c List.mem_cons_self
    rw [List.cons_append, scanByte, if_pos ⟨rfl, hc⟩]
    exact ih fun d hd => h d (List.mem_cons_of_mem c hd)

/-- The first digit is kept. -/
theorem scanByte_first (ha : isHexDigit a) : scanByte (a :: rest) [] = scanByte rest [a] := by
  have hgap : ¬ (isEol a ∨ isSpace a ∨ isNull a) := not_gap_of_digit ha
  rw [scanByte, if_neg fun h => hgap h.2, if_neg (not_not.mpr ha)]
  exact if_neg (by simp)

/-- Behind the first digit there must be another. -/
theorem scanByte_second : scanByte (b :: rest) [a] =
    if ¬ isHexDigit b then .invalid
    else match sscanfHhx [a, b, 0] with
      | some (some v) => .byte v rest
      | _ => .invalid := by
  rw [scanByte, if_neg fun h => absurd h.1 (by simp)]
  rfl

/-- Two digits are a byte. -/
theorem scanByte_digits (ha : isHexDigit a) (hb : isHexDigit b) :
    scanByte (a :: b :: rest) [] = .byte (hexByte a b) rest := by
  rw [scanByte_first ha, scanByte_second, if_neg (not_not.mpr hb), sscanfHhx_digits ha hb]

/-- **The inner loop** comes to the end of the file with nothing but gaps, or finds a byte behind
them, or is left for something else. -/
theorem scanByte_cases (data : List UInt8) :
    (∀ c ∈ data, Gap c) ∧ scanByte data [] = .ends 0 ∨
    (∃ gap a b rest, data = gap ++ a :: b :: rest ∧ (∀ c ∈ gap, Gap c) ∧ isHexDigit a ∧
      isHexDigit b ∧ scanByte data [] = .byte (hexByte a b) rest) ∨
    scanByte data [] = .ends 1 ∨ scanByte data [] = .invalid := by
  induction data with
  | nil => exact .inl ⟨nofun, rfl⟩
  | cons c data ih =>
    by_cases hgap : Gap c
    · have hstep : scanByte (c :: data) [] = scanByte data [] := by
        rw [scanByte]
        exact if_pos ⟨rfl, hgap⟩
      rw [hstep]
      rcases ih with ⟨hall, hends⟩ | ⟨gap, a, b, rest, rfl, hall, ha, hb, hbyte⟩ | hother
      · exact .inl ⟨List.forall_mem_cons.mpr ⟨hgap, hall⟩, hends⟩
      · exact .inr (.inl ⟨c :: gap, a, b, rest, rfl, List.forall_mem_cons.mpr ⟨hgap, hall⟩, ha, hb,
          hbyte⟩)
      · exact .inr (.inr hother)
    · by_cases hc : isHexDigit c
      · cases data with
        | nil =>
          exact .inr (.inr (.inl (scanByte_first hc)))
        | cons d data =>
          by_cases hd : isHexDigit d
          · exact .inr (.inl ⟨[], c, d, data, rfl, nofun, hc, hd, scanByte_digits hc hd⟩)
          · refine .inr (.inr (.inr ?_))
            rw [scanByte_first hc, scanByte_second, if_pos hd]
      · refine .inr (.inr (.inr ?_))
        rw [scanByte, if_neg fun h => hgap h.2, if_pos hc]

/-- What the outer loop accepts is in the grammar. -/
theorem accepted_of_parseMap {n i : Nat} {map map' : Mem} (h : parseMap n i data map = some map') :
    ∃ bytes, Accepted n data bytes ∧ map' = overwrite map i bytes := by
  induction n generalizing i data map with
  | zero =>
    refine ⟨[], .full data, ?_⟩
    rw [overwrite_nil]
    exact (Option.some.inj h).symm
  | succ n ih =>
    rw [parseMap] at h
    rcases scanByte_cases data with ⟨hall, hends⟩ | ⟨gap, a, b, rest, rfl, hall, ha, hb, hbyte⟩ |
      hends | hinvalid
    · rw [hends] at h
      refine ⟨[], .ends n hall, ?_⟩
      rw [overwrite_nil]
      exact (Option.some.inj h).symm
    · rw [hbyte] at h
      obtain ⟨bytes, hrest, rfl⟩ := ih h
      exact ⟨_, .byte hall ha hb hrest, overwrite_cons map i _ bytes⟩
    · simp [hends] at h
    · simp [hinvalid] at h

/-- What is in the grammar the outer loop accepts. -/
theorem parseMap_of_accepted {n i : Nat} {map : Mem} {bytes : List UInt8}
    (h : Accepted n data bytes) : parseMap n i data map = some (overwrite map i bytes) := by
  induction h generalizing i map with
  | full rest => rw [overwrite_nil, parseMap]
  | ends n hall =>
    have hscan : scanByte _ [] = .ends 0 := @scanByte_gap [] _ hall
    rw [List.append_nil] at hscan
    rw [parseMap, hscan, overwrite_nil]
    rfl
  | byte hall ha hb _ ih =>
    rw [parseMap, scanByte_gap hall, scanByte_digits ha hb]
    exact ih.trans (congrArg some (overwrite_cons map i _ _))

theorem length_le_of_grammar {tail : List UInt8 → Prop} {n : Nat} {bytes : List UInt8}
    (h : Grammar tail n data bytes) : bytes.length ≤ n := by
  induction h with
  | full rest => exact Nat.le_refl 0
  | ends n _ => exact Nat.zero_le _
  | byte _ _ _ _ ih => exact Nat.succ_le_succ ih

/-- The map is the bytes with `0xFF` behind them. -/
theorem readBytes_map {n : Nat} {bytes : List UInt8} (h : bytes.length ≤ n) :
    readBytes (overwrite (fun _ => 0xFF) 0 bytes) 0 n = mapOf n bytes := by
  have hsplit : n = bytes.length + (n - bytes.length) := by omega
  have hrest : ∀ (k off : Nat), bytes.length ≤ off →
      readBytes (overwrite (fun _ => 0xFF) 0 bytes) off k = List.replicate k 0xFF := by
    intro k
    induction k with
    | zero => exact fun _ _ => rfl
    | succ k ih =>
      intro off hoff
      rw [readBytes, overwrite_of_le (by omega), ih (off + 1) (by omega), List.replicate_succ]
  rw [hsplit, readBytes_add, readBytes_overwrite, Nat.zero_add, hrest _ _ (Nat.le_refl _), ← hsplit]
  rfl

end Scan

/-! ## 7. What the tools make of the file -/

section Tokens

variable {m buf : Mem} {a b c : UInt8} {i j n len count : Nat} {l rest bytes : List UInt8}

/-- A blank or a line end, where `strpbrk` stops. -/
theorem gap_of_blank (h : isSpace c ∨ isEol c) : Gap c := h.elim (.inr ∘ .inl) .inl

theorem ne_zero_of_blank (h : isSpace c ∨ isEol c) : c ≠ 0 := by
  rintro rfl
  revert h
  decide

/-- A digit is neither the end of the text nor a place to cut it. -/
theorem digit_passed (h : isHexDigit c) : c ≠ 0 ∧ ¬ (isSpace c ∨ isEol c) := by
  refine ⟨?_, fun hblank => not_gap_of_digit h (gap_of_blank hblank)⟩
  rintro rfl
  revert h
  decide

theorem strpbrk_stop (h : isSpace (m i) ∨ isEol (m i)) : strpbrk m (n + 1) i = some (some i) := by
  rw [strpbrk, if_neg (ne_zero_of_blank h), if_pos h]

theorem strpbrk_digit (h : isHexDigit (m i)) : strpbrk m (n + 1) i = strpbrk m n (i + 1) := by
  rw [strpbrk, if_neg (digit_passed h).1, if_neg (digit_passed h).2]

/-- Two digits and a zero in the buffer are stored as their byte. -/
theorem storeByte_digits (ha : isHexDigit (m i)) (hb : isHexDigit (m (i + 1))) (hz : m (i + 2) = 0)
    (hi : i + 3 ≤ bufsize) :
    storeByte m buf i j = some (overwrite buf j [hexByte (m i) (m (i + 1))], j + 1) := by
  obtain ⟨k, hk⟩ : ∃ k, bufsize - i = k + 1 + 1 + 1 := ⟨bufsize - i - 3, by omega⟩
  have hread : readBytes m i (bufsize - i) = m i :: m (i + 1) :: 0 :: readBytes m (i + 3) k := by
    rw [hk, readBytes, readBytes, readBytes, hz]
  rw [storeByte, hread, sscanfHhx_digits ha hb]

/-- Behind a blank the tokens go on. -/
theorem TokenWise.tail (h : TokenWise (c :: rest) bytes) (hc : isSpace c ∨ isEol c) :
    TokenWise rest bytes := by
  cases h with
  | blank _ hrest => exact hrest
  | byte ha _ _ _ => exact absurd hc (digit_passed ha).2

/-- **The loop over the tokens** stores their bytes as far as there is room, and stays in the
buffer. -/
theorem fileReadLoop_tokens (h : TokenWise l bytes) (hread : readBytes m i l.length = l)
    (hzero : ∀ x, count ≤ x → m x = 0) (hcount : i + l.length = count) (hfit : count < bufsize)
    (hn : l.length < n) :
    fileReadLoop len count n m buf i j = some (overwrite buf j (bytes.take (len - j))) := by
  induction hk : l.length using Nat.strongRecOn generalizing l bytes m buf i j n with
  | _ k ih =>
    obtain ⟨n, rfl⟩ : ∃ p, n = p + 1 := ⟨n - 1, by omega⟩
    rw [fileReadLoop]
    by_cases hj : j < len
    · cases h with
      | nil =>
        have hend : ¬ i < count := by
          simp only [List.length_nil] at hcount
          omega
        rw [if_neg fun h => hend h.2, List.take_nil, overwrite_nil]
      | @blank c rest bytes hc hrest =>
        rw [List.length_cons] at hcount hn hk hread
        obtain ⟨hi, hread⟩ := readBytes_cons hread
        obtain ⟨p, hp⟩ : ∃ p, bufsize - i = p + 1 := ⟨bufsize - i - 1, by omega⟩
        have hstop : strpbrk m (bufsize - i) i = some (some i) := by
          rw [hp]
          exact strpbrk_stop (hi ▸ hc)
        rw [if_pos ⟨hj, by omega⟩, if_neg (hi ▸ ne_zero_of_blank hc), hstop]
        simp only [if_pos]
        exact ih rest.length (by omega) hrest hread hzero (by omega) (by omega) rfl
      | @byte rest bytes a b ha hb hnext hrest =>
        rw [List.length_cons, List.length_cons] at hcount hn hk hread
        obtain ⟨hi, hread⟩ := readBytes_cons hread
        rw [List.length_cons] at hread
        obtain ⟨hi', hread⟩ := readBytes_cons hread
        obtain ⟨p, hp⟩ : ∃ p, bufsize - i = p + 1 + 1 + 1 := ⟨bufsize - i - 3, by omega⟩
        have hdigits : strpbrk m (bufsize - i) i = strpbrk m (p + 1) (i + 2) := by
          rw [hp, strpbrk_digit (hi ▸ ha), strpbrk_digit (hi' ▸ hb)]
        have hroom : len - j = len - (j + 1) + 1 := by omega
        rw [if_pos ⟨hj, by omega⟩, if_neg (hi ▸ (digit_passed ha).1), hdigits]
        cases rest with
        | nil =>
          -- the last token: `strpbrk` finds the zero behind the text
          simp only [List.length_nil] at hcount
          have hz : m (i + 2) = 0 := hzero _ (by omega)
          have hend : strpbrk m (p + 1) (i + 2) = some none := by rw [strpbrk, if_pos hz]
          rw [hend, storeByte_digits (hi ▸ ha) (hi' ▸ hb) hz (by omega), hi, hi']
          simp only
          rw [ih 0 (by omega) hrest rfl hzero (by simp only [List.length_nil]; omega)
            (by simp only [List.length_nil]; omega) rfl, overwrite_cons, ← List.take_succ_cons,
            ← hroom]
        | cons c rest =>
          rw [List.length_cons] at hcount hn hk hread
          have hc : isSpace c ∨ isEol c := hnext c rfl
          obtain ⟨hi₂, hread⟩ := readBytes_cons hread
          have hcut : ∀ x, x ≠ i + 2 → overwrite m (i + 2) [0] x = m x := fun x hx => by
            rcases Nat.lt_or_gt_of_ne hx with hlt | hgt
            · exact overwrite_of_lt hlt
            · exact overwrite_of_le hgt
          have hz : overwrite m (i + 2) [0] (i + 2) = 0 :=
            (readBytes_cons (readBytes_overwrite m (i + 2) [0])).1
          have ha' : overwrite m (i + 2) [0] i = a := (hcut i (by omega)).trans hi
          have hb' : overwrite m (i + 2) [0] (i + 1) = b := (hcut (i + 1) (by omega)).trans hi'
          rw [strpbrk_stop (show isSpace (m (i + 2)) ∨ isEol (m (i + 2)) from hi₂ ▸ hc)]
          simp only
          rw [if_neg (by omega), storeByte_digits (ha'.symm ▸ ha) (hb'.symm ▸ hb) hz (by omega), ha', hb']
          simp only
          rw [ih rest.length (by omega) (hrest.tail hc)
            (Eq.trans (readBytes_congr fun x hx _ => hcut x (by omega)) hread)
            (fun x hx => (hcut x (by omega)).trans (hzero x hx)) (by omega) (by omega) rfl,
            overwrite_cons, ← List.take_succ_cons, ← hroom]
    · have hfull : len - j = 0 := by omega
      rw [if_neg fun h => hj h.1, hfull, List.take_zero, overwrite_nil]

/-- **`rtw_efuse_file_read`** gives the bytes of the tokens. -/
theorem rtwEfuseFileRead_tokens {f : File} (h : TokenWise f.content bytes) (hr : f.readable)
    (hlong : 100 < f.content.length) (hfit : f.content.length < bufsize) :
    rtwEfuseFileRead f true buf len = some (true, overwrite buf 0 (bytes.take len)) := by
  have htake : f.content.take bufsize = f.content := List.take_of_length_le (Nat.le_of_lt hfit)
  have hloop := @fileReadLoop_tokens (overwrite (fun _ => 0) 0 f.content) buf 0 0
    (f.content.length + 1) len f.content.length _ _ h (readBytes_overwrite _ 0 _)
    (fun x hx => overwrite_of_le (by omega)) (Nat.zero_add _) hfit (Nat.lt_succ_self _)
  rw [rtwEfuseFileRead, if_neg (by decide)]
  simp only [htake]
  rw [if_neg (by simp only [hr, not_true, false_or]; omega), hloop]
  rfl

/-- Content of tokens is in the grammar. -/
theorem TokenWise.accepted (h : TokenWise l bytes) (n : Nat) : Accepted n l (bytes.take n) := by
  induction h generalizing n with
  | nil =>
    cases n with
    | zero => exact .full []
    | succ n => exact .ends n nofun
  | @blank c rest bytes hc _ ih =>
    cases n with
    | zero => exact .full _
    | succ n =>
      have hrest := ih (n + 1)
      generalize hbytes : bytes.take (n + 1) = bs at hrest ⊢
      cases hrest with
      | ends n hall => exact .ends n (List.forall_mem_cons.mpr ⟨gap_of_blank hc, hall⟩)
      | @byte n gap rest' bs a b hall ha hb hrest =>
        exact .byte (List.forall_mem_cons.mpr ⟨gap_of_blank hc, hall⟩) ha hb hrest
  | @byte rest bytes a b ha hb _ _ ih =>
    cases n with
    | zero => exact .full _
    | succ n => exact @Grammar.byte _ n [] _ _ _ _ nofun ha hb (ih n)

end Tokens

/-! ## 8. What is accepted -/

section Read

variable {f : File} {vmallocOk : Nat → Bool} {buf : Mem} {mapSize : UInt32} {bytes : List UInt8}

/-- The file can be read and is not empty, and there is memory for its content and for the map. -/
structure Readable (f : File) (vmallocOk : Nat → Bool) (mapSize : UInt32) : Prop where
  readable : f.readable
  memory : vmallocOk f.size.toNat
  content : f.data ≠ []
  map : vmallocOk mapSize.toNat

/-- The ways out: the file is not parsed, or it is. -/
theorem rtwReadEfuseFromFile_cases (f : File) (vmallocOk : Nat → Bool) (buf : Mem)
    (mapSize : UInt32) :
    (¬ Readable f vmallocOk mapSize ∧ ∃ sizes,
      rtwReadEfuseFromFile f vmallocOk buf mapSize = ⟨false, buf, sizes, sizes⟩) ∨
    (Readable f vmallocOk mapSize ∧ ∃ sizes, rtwReadEfuseFromFile f vmallocOk buf mapSize =
      match parseMap mapSize.toNat 0 f.data fun _ => 0xFF with
      | none => ⟨false, buf, sizes, sizes⟩
      | some map => ⟨true, overwrite buf 0 (readBytes map 0 mapSize.toNat), sizes, sizes⟩) := by
  simp only [rtwReadEfuseFromFile]
  by_cases hr : f.readable
  · rw [if_neg (not_not.mpr hr)]
    by_cases hm : vmallocOk f.size.toNat
    · rw [if_neg (not_not.mpr hm)]
      by_cases hc : f.data.length = 0
      · rw [if_pos hc]
        exact .inl ⟨fun h => h.content (List.eq_nil_of_length_eq_zero hc), _, rfl⟩
      · rw [if_neg hc]
        by_cases hm' : vmallocOk mapSize.toNat
        · rw [if_neg (not_not.mpr hm')]
          exact .inr ⟨⟨hr, hm, fun hnil => hc (hnil ▸ rfl), hm'⟩, _, rfl⟩
        · rw [if_pos hm']
          exact .inl ⟨fun h => hm' h.map, _, rfl⟩
    · rw [if_pos hm]
      exact .inl ⟨fun h => hm h.memory, _, rfl⟩
  · rw [if_pos hr]
    exact .inl ⟨fun h => hr h.readable, _, rfl⟩

/-- **What `rtw_read_efuse_from_file` is for.** -/
structure ReadRight (f : File) (vmallocOk : Nat → Bool) (buf : Mem) (mapSize : UInt32) : Prop where
  success : (rtwReadEfuseFromFile f vmallocOk buf mapSize).success ↔
    Readable f vmallocOk mapSize ∧ ∃ bytes, Accepted mapSize.toNat f.data bytes
  map : (rtwReadEfuseFromFile f vmallocOk buf mapSize).success → ∀ bytes,
    Accepted mapSize.toNat f.data bytes → (rtwReadEfuseFromFile f vmallocOk buf mapSize).buf
      = overwrite buf 0 (mapOf mapSize.toNat bytes)
  fail : ¬ (rtwReadEfuseFromFile f vmallocOk buf mapSize).success →
    (rtwReadEfuseFromFile f vmallocOk buf mapSize).buf = buf
  released : (rtwReadEfuseFromFile f vmallocOk buf mapSize).vmfrees
    = (rtwReadEfuseFromFile f vmallocOk buf mapSize).vmallocs

theorem readRight (f : File) (vmallocOk : Nat → Bool) (buf : Mem) (mapSize : UInt32) :
    ReadRight f vmallocOk buf mapSize := by
  rcases rtwReadEfuseFromFile_cases f vmallocOk buf mapSize with
    ⟨hnot, sizes, hout⟩ | ⟨hread, sizes, hout⟩
  · constructor
    all_goals rw [hout]
    · exact iff_of_false (by simp) fun h => hnot h.1
    · exact fun h => absurd h (by simp)
    · exact fun _ => rfl
  · cases hparse : parseMap mapSize.toNat 0 f.data fun _ => 0xFF with
    | none =>
      simp only [hparse] at hout
      constructor
      all_goals rw [hout]
      · refine iff_of_false (by simp) fun h => ?_
        obtain ⟨-, bytes, hbytes⟩ := h
        simp [parseMap_of_accepted hbytes] at hparse
      · exact fun h => absurd h (by simp)
      · exact fun _ => rfl
    | some map =>
      simp only [hparse] at hout
      constructor
      all_goals rw [hout]
      · obtain ⟨bytes, hbytes, -⟩ := accepted_of_parseMap hparse
        exact iff_of_true rfl ⟨hread, bytes, hbytes⟩
      · intro _ bytes hbytes
        rw [parseMap_of_accepted hbytes, Option.some.injEq] at hparse
        rw [← hparse, readBytes_map (length_le_of_grammar hbytes)]
      · exact fun h => absurd rfl h

/-- **`rtw_read_efuse_from_file`** accepts the content of the grammar and nothing else, and leaves
its bytes with `0xFF` behind them; and where each byte is a token of its own,
`rtw_efuse_file_read` gives the same bytes. -/
theorem efuse_file_grammar (f : File) (vmallocOk : Nat → Bool) (buf : Mem) (mapSize : UInt32) :
    ReadRight f vmallocOk buf mapSize ∧
    ∀ bytes buf', TokenWise f.content bytes → f.readable → 100 < f.content.length →
      f.content.length < bufsize →
      rtwEfuseFileRead f true buf' mapSize.toNat
        = some (true, overwrite buf' 0 (bytes.take mapSize.toNat)) ∧
      (f.content.length ≤ f.size.toNat →
        (rtwReadEfuseFromFile f vmallocOk buf mapSize).success →
        (rtwReadEfuseFromFile f vmallocOk buf mapSize).buf
          = overwrite buf 0 (mapOf mapSize.toNat (bytes.take mapSize.toNat))) := by
  refine ⟨readRight f vmallocOk buf mapSize, fun bytes buf' htokens hr hlong hfit => ?_⟩
  refine ⟨rtwEfuseFileRead_tokens htokens hr hlong hfit, fun hsize hsuccess => ?_⟩
  have hdata : f.data = f.content := List.take_of_length_le hsize
  refine (readRight f vmallocOk buf mapSize).map hsuccess _ ?_
  rw [hdata]
  exact htokens.accepted _

/-- With no tail allowed, content of fewer bytes than the map has ends with a digit. -/
theorem strict_last {n : Nat} {data : List UInt8} (h : Grammar (· = []) n data bytes)
    (hn : bytes.length < n) : ∀ c ∈ data.getLast?, isHexDigit c := by
  induction h with
  | full rest => exact absurd hn (Nat.lt_irrefl 0)
  | ends n hnil => exact hnil ▸ nofun
  | @byte n gap rest bytes a b _ _ hb _ ih =>
    have hrest := ih (Nat.lt_of_succ_lt_succ hn)
    intro c hc
    rw [List.getLast?_append, List.getLast?_cons_cons] at hc
    cases rest with
    | nil => exact Option.some.inj hc ▸ hb
    | cons d rest =>
      rw [List.getLast?_cons_cons, List.getLast?_cons, Option.some_or] at hc
      exact hrest c (List.getLast?_cons.trans hc)

/-- A byte takes two digits. -/
theorem two_mul_length_le {tail : List UInt8 → Prop} {n : Nat} {data : List UInt8}
    (h : Grammar tail n data bytes) : 2 * bytes.length ≤ data.length := by
  induction h with
  | full rest => exact Nat.zero_le _
  | ends n _ => exact Nat.zero_le _
  | byte _ _ _ _ ih =>
    simp only [List.length_append, List.length_cons]
    omega

/-- A file of the text `12` and a line end, and one without content. -/
def lineFile : File := ⟨true, 3, [0x31, 0x32, 0x0A]⟩
def emptyFile : File := ⟨true, 0, []⟩

/-- Nothing else is accepted: with no tail allowed, a line end behind the last byte is too much; and
a file without bytes is not accepted, although it has none that are wrong. -/
theorem efuse_file_tail :
    (¬ ((rtwReadEfuseFromFile lineFile (fun _ => true) (fun _ => 0) 2).success ↔
      ∃ bytes, Grammar (· = []) 2 lineFile.data bytes)) ∧
    ¬ ((rtwReadEfuseFromFile emptyFile (fun _ => true) (fun _ => 0) 2).success ↔
      ∃ bytes, Grammar (· = []) 2 emptyFile.data bytes) := by
  constructor
  · intro h
    obtain ⟨bytes, hgrammar⟩ := h.mp (by decide)
    have hlen : 2 * bytes.length ≤ 3 := two_mul_length_le hgrammar
    exact absurd (strict_last hgrammar (by omega) 0x0A rfl) (by decide)
  · intro h
    exact absurd (h.mpr ⟨[], .ends 1 rfl⟩) (by decide)

end Read

end Rtl8723bs.EfuseFile
