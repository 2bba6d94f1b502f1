/-
# The WPA and the RSN element

`rtw_parse_wpa_ie` and `rtw_parse_wpa2_ie` take an element apart: behind the version stand the suite
of the group cipher, the counted suites of the pairwise ciphers and those of the key management, of
which only the first is looked at.  An element may end in front of each.  The functions read the
header before they ask how long the element is, and do not ask whether the version is there; and
they hold the length byte against eight bits of the length.

`sec_ie_parsed_iff` says which byte strings they get right.
-/
import Rtl8723bs.Ap.SecurityIe

namespace Rtl8723bs.SecIe

/-! ## 1. The functions -/

/-- What the two functions differ in: `_WPA_IE_ID_` or `_WPA2_IE_ID_`, what they ask for in front of
the version, the OUI of the cipher suites, and `SUITE_1X`. -/
structure Format where
  eid : UInt8
  oui : List UInt8
  cipherOui : List UInt8
  suite1x : List UInt8

def wpa : Format where
  eid := wlanEidVendorSpecific
  oui := [0x00, 0x50, 0xF2, 1]
  cipherOui := [0x00, 0x50, 0xF2]
  suite1x := [0x00, 0x50, 0xF2, 1]

def rsn : Format where
  eid := wlanEidRsn
  oui := []
  cipherOui := [0x00, 0x0F, 0xAC]
  suite1x := [0x00, 0x0F, 0xAC, 1]

/-- `*group_cipher`, `*pairwise_cipher`, and `*is_8021x` unless that pointer is null. -/
structure Out where
  group : Nat
  pairwise : Nat
  is8021x : Option Nat
deriving DecidableEq, Repr

/-- The `n` bytes at `pos`, where they lie below `len`. -/
def readIn (m : Mem) (len : Int) (pos n : Nat) : Option (List UInt8) :=
  if n = 0 ∨ ((pos + n : Nat) : Int) ≤ len then some (readBytes m pos n) else none

/-- `rtw_get_wpa_cipher_suite` and `rtw_get_wpa2_cipher_suite`, of a selector of four bytes. -/
def Format.cipherSuite (f : Format) (s : List UInt8) : Nat :=
  if s.take 3 = f.cipherOui then cipherBit (s.getD 3 0) else 0

/-- `RTW_GET_LE16`. -/
def getLe16 (c : List UInt8) : Nat := (c.getD 0 0).toNat + 256 * (c.getD 1 0).toNat

/-- The loop over the pairwise suites. -/
def Format.orSuites (f : Format) (m : Mem) (len : Int) : Nat → Nat → Nat → Option Nat
  | 0, _, c => some c
  | count + 1, pos, c => do
    let s ← readIn m len pos 4
    f.orSuites m len count (pos + 4) (c ||| f.cipherSuite s)

/-- What is done with the `left` bytes behind the pairwise suites; nothing if nobody asks. -/
def Format.parseAkm (f : Format) (m : Mem) (len : Int) (pos : Nat) (left : Int) (o : Out) :
    Option (Bool × Out) :=
  match o.is8021x with
  | none => some (true, o)
  | some flag =>
    if 6 ≤ left then do
      let s ← readIn m len (pos + 2) 4
      some (true, { o with is8021x := some (if s = f.suite1x then 1 else flag) })
    else some (true, o)

/-- The same behind the group suite. -/
def Format.parsePairwise (f : Format) (m : Mem) (len : Int) (pos : Nat) (left : Int) (o : Out) :
    Option (Bool × Out) :=
  if 2 ≤ left then do
    let c ← readIn m len pos 2
    let count := getLe16 c
    if count = 0 ∨ left - 2 < count * 4 then some (false, o)
    else do
      let p ← f.orSuites m len count (pos + 2) o.pairwise
      f.parseAkm m len (pos + 2 + 4 * count) (left - 2 - 4 * count) { o with pairwise := p }
  else if left = 1 then some (false, o)
  else f.parseAkm m len pos left o

/-- The same behind the version. -/
def Format.parseGroup (f : Format) (m : Mem) (len : Int) (pos : Nat) (left : Int) (o : Out) :
    Option (Bool × Out) :=
  if 4 ≤ left then do
    let s ← readIn m len pos 4
    f.parsePairwise m len (pos + 4) (left - 4) { o with group := f.cipherSuite s }
  else if 0 < left then some (false, o)
  else f.parsePairwise m len pos left o

/-- The two functions, with the `len` bytes of `m`: whether they return `_SUCCESS`, and what they
leave; `none` where they read a byte past these. -/
def Format.parse (f : Format) (m : Mem) (len : Int) (o : Out) : Option (Bool × Out) :=
  if len ≤ 0 then some (false, o)
  else do
    let id ← readIn m len 0 1
    if id ≠ [f.eid] then some (false, o)
    else do
      let l ← readIn m len 1 1
      -- `(u8)(wpa_ie_len - 2)`
      if l ≠ [UInt8.ofInt (len - 2)] then some (false, o)
      else do
        let oui ← readIn m len 2 f.oui.length
        if oui ≠ f.oui then some (false, o)
        else
          let pos := f.oui.length + 4
          f.parseGroup m len pos (len - pos) o

/-- `rtw_parse_wpa_ie`. -/
def rtwParseWpaIe : Mem → Int → Out → Option (Bool × Out) := wpa.parse

/-- `rtw_parse_wpa2_ie`. -/
def rtwParseWpa2Ie : Mem → Int → Out → Option (Bool × Out) := rsn.parse

/-! ## 2. Elements -/

/-- The selector of a suite. -/
structure Suite where
  bytes : List UInt8
  four : bytes.length = 4

/-- What may stand behind the version: nothing, the group suite, or also a counted list of pairwise
suites, and then `rest`. -/
inductive Body
  | version
  | group (g : Suite)
  | pairwise (g : Suite) (suites : List Suite) (rest : List UInt8)

def Body.bytes : Body → List UInt8
  | version => []
  | group g => g.bytes
  | pairwise g suites rest =>
    g.bytes ++ ([UInt8.ofNat suites.length, UInt8.ofNat (suites.length / 256)] ++
      (suites.flatMap Suite.bytes ++ rest))

/-- A list has a suite, and its count two bytes. -/
def Body.Counted : Body → Prop
  | pairwise _ suites _ => 0 < suites.length ∧ suites.length < 65536
  | _ => True

/-- **A well-formed element**, whose length byte holds its length. -/
structure Elem (f : Format) where
  version : UInt8 × UInt8
  body : Body
  counted : body.Counted
  short : f.oui.length + 2 + body.bytes.length < 256

def Elem.bytes {f : Format} (e : Elem f) : List UInt8 :=
  f.eid :: UInt8.ofNat (f.oui.length + 2 + e.body.bytes.length) ::
    (f.oui ++ ([e.version.1, e.version.2] ++ e.body.bytes))

/-- What there is to report: the group cipher, the pairwise ciphers together, and whether the suite
behind the count of the key managements is `SUITE_1X`. -/
def Body.report (f : Format) (o : Out) : Body → Out
  | version => o
  | group g => { o with group := f.cipherSuite g.bytes }
  | pairwise g suites rest =>
    { group := f.cipherSuite g.bytes
      pairwise := suites.foldl (fun c s => c ||| f.cipherSuite s.bytes) o.pairwise
      is8021x := o.is8021x.map fun flag =>
        if (rest.drop 2).take 4 = f.suite1x then 1 else flag }

/-- **A byte string is parsed right**: no byte past its end is read, the call succeeds exactly if
the string is an element, and reports what that element says. -/
def Parsed (f : Format) (m : Mem) (len : Int) (o : Out) : Prop :=
  ∃ ok out, f.parse m len o = some (ok, out) ∧
    (ok = true ↔ ∃ e : Elem f, e.bytes = readBytes m 0 len.toNat) ∧
    ∀ e : Elem f, e.bytes = readBytes m 0 len.toNat → out = e.body.report f o

/-- The count of the pairwise suites is not 0, and they fit in. -/
def CountFits (f : Format) (m : Mem) (len : Int) : Prop :=
  le16 m (f.oui.length + 8) ≠ 0 ∧ (f.oui.length + 10 + 4 * le16 m (f.oui.length + 8) : Nat) ≤ len

/-- **The strings that are parsed right.**  One of the kind asked for has a length byte; if that
agrees with eight bits of the length, the bytes in front of the version are there; and if these are
the ones asked for, so is the version, and a string too long for its length byte holds no list
that fits in. -/
def Sound (f : Format) (m : Mem) (len : Int) : Prop :=
  0 < len → m 0 = f.eid → len ≠ 1 ∧
    (m 1 = UInt8.ofInt (len - 2) → (f.oui.length + 2 : Nat) ≤ len ∧
      (readBytes m 2 f.oui.length = f.oui → (f.oui.length + 4 : Nat) ≤ len ∧
        (258 ≤ len → ¬ CountFits f m len)))

/-! ## 3. What the functions make of an element -/

section Parse

variable {f : Format} {m : Mem} {len : Int} {pos n : Nat} {a b : List UInt8} {o : Out}

theorem readIn_append (h : readBytes m pos n = a ++ b) (hn : ((pos + n : Nat) : Int) ≤ len) :
    readIn m len pos a.length = some a := by
  have hlen := congrArg List.length h
  rw [length_readBytes, List.length_append] at hlen
  unfold readIn
  rw [if_pos (Or.inr (by omega)), (readBytes_append h).1]

/-- What is left to read of a byte string. -/
theorem readBytes_rest (h : readBytes m pos n = a ++ b) :
    readBytes m (pos + a.length) b.length = b ∧ n = a.length + b.length := by
  have hlen := congrArg List.length h
  rw [length_readBytes, List.length_append] at hlen
  exact ⟨(readBytes_append h).2, hlen⟩

/-- The loop takes the suites one after the other. -/
theorem orSuites_eq {suites : List Suite} {rest : List UInt8} {c : Nat}
    (h : readBytes m pos n = suites.flatMap Suite.bytes ++ rest)
    (hn : ((pos + n : Nat) : Int) ≤ len) :
    f.orSuites m len suites.length pos c
      = some (suites.foldl (fun c s => c ||| f.cipherSuite s.bytes) c) := by
  induction suites generalizing pos n c with
  | nil => rfl
  | cons s suites ih =>
    rw [List.flatMap_cons, List.append_assoc] at h
    have hread := readIn_append h hn
    obtain ⟨hrest, hsum⟩ := readBytes_rest h
    rw [s.four] at hread hrest hsum
    rw [List.length_cons, Format.orSuites, hread]
    exact ih hrest (by omega)

theorem length_flatMap_suites (suites : List Suite) :
    (suites.flatMap Suite.bytes).length = 4 * suites.length := by
  induction suites with
  | nil => rfl
  | cons s suites ih =>
    rw [List.flatMap_cons, List.length_append, ih, s.four, List.length_cons]
    omega

/-- With less than six bytes left nothing is looked at. -/
theorem parseAkm_short {left : Int} (h : left < 6) :
    f.parseAkm m len pos left o = some (true, o) := by
  unfold Format.parseAkm
  cases o.is8021x with
  | none => rfl
  | some flag => exact if_neg (by omega)

/-- Only the first suite of the key management counts. -/
theorem parseAkm_eq {rest : List UInt8} (hx : f.suite1x.length = 4)
    (h : readBytes m pos rest.length = rest) (hn : ((pos + rest.length : Nat) : Int) ≤ len) :
    f.parseAkm m len pos rest.length o = some (true, { o with
      is8021x := o.is8021x.map fun flag =>
        if (rest.drop 2).take 4 = f.suite1x then 1 else flag }) := by
  by_cases h6 : 6 ≤ rest.length
  · have hread : readIn m len (pos + 2) 4 = some ((rest.drop 2).take 4) := by
      have hdrop := readBytes_drop m pos 2 rest.length
      rw [h] at hdrop
      rw [hdrop, readBytes_take m (pos + 2) (by omega)]
      exact if_pos (Or.inr (by omega))
    obtain ⟨group, pairwise, ask⟩ := o
    cases ask with
    | none => rfl
    | some flag =>
      simp only [Format.parseAkm, hread, if_pos (show (6 : Int) ≤ rest.length by omega)]
      rfl
  · have hshort : (rest.drop 2).take 4 ≠ f.suite1x := by
      intro heq
      have hlen := congrArg List.length heq
      rw [List.length_take, List.length_drop, hx] at hlen
      omega
    rw [parseAkm_short (by omega)]
    simp only [if_neg hshort, Option.map_id']

theorem getLe16_count {k : Nat} (h : k < 65536) :
    getLe16 [UInt8.ofNat k, UInt8.ofNat (k / 256)] = k := by
  have hhi : (UInt8.ofNat (k / 256)).toNat = k / 256 := by
    rw [UInt8.toNat_ofNat']
    exact Nat.mod_eq_of_lt (by omega)
  have hlo : (UInt8.ofNat k).toNat = k % 256 := UInt8.toNat_ofNat'
  simp only [getLe16, List.getD_cons_zero, List.getD_cons_succ, hhi, hlo]
  omega

/-- **What stands behind the version is reported** as the element says. -/
theorem parseGroup_eq {b : Body} (hx : f.suite1x.length = 4) (hb : b.Counted)
    (h : readBytes m pos n = b.bytes) (hn : ((pos + n : Nat) : Int) = len) :
    f.parseGroup m len pos n o = some (true, b.report f o) := by
  have hlen := congrArg List.length h
  rw [length_readBytes] at hlen
  cases b with
  | version =>
    obtain rfl : n = 0 := hlen
    exact parseAkm_short (by decide)
  | group g =>
    obtain rfl : n = 4 := hlen.trans g.four
    have hread : readIn m len pos 4 = some g.bytes :=
      (if_pos (Or.inr hn.le)).trans (congrArg some h)
    simp only [Format.parseGroup, hread]
    exact parseAkm_short (by decide)
  | pairwise g suites rest =>
    have hread := readIn_append h hn.le
    obtain ⟨hlist, hsum⟩ := readBytes_rest h
    rw [g.four] at hread hlist hsum
    have hcount : readIn m len (pos + 4) _ = some _ := readIn_append hlist (by omega)
    obtain ⟨hsuites, hsum'⟩ := readBytes_rest hlist
    rw [List.length_cons, List.length_cons, List.length_nil] at hcount hsuites hsum'
    have hloop : f.orSuites m len suites.length _ o.pairwise = some _ :=
      orSuites_eq hsuites (by omega)
    obtain ⟨hrest, hsum''⟩ := readBytes_rest hsuites
    rw [length_flatMap_suites] at hrest hsum''
    have hakm : f.parseAkm m len _ rest.length ⟨f.cipherSuite g.bytes,
        suites.foldl (fun c s => c ||| f.cipherSuite s.bytes) o.pairwise, o.is8021x⟩ = some _ :=
      parseAkm_eq hx hrest (by omega)
    have hfits : ¬ (suites.length = 0 ∨ (n : Int) - 4 - 2 < suites.length * 4) := by
      have := hb.1
      omega
    have hleft : (n : Int) - 4 - 2 - 4 * suites.length = rest.length := by omega
    simp only [Format.parseGroup, Format.parsePairwise, if_pos (show (4 : Int) ≤ n by omega),
      if_pos (show (2 : Int) ≤ n - 4 by omega), hread, hcount, Option.bind_eq_bind,
      Option.bind_some, getLe16_count hb.2, if_neg hfits, hloop, hleft]
    exact hakm

/-- Bytes enough for `k` suites are those of `k` suites. -/
theorem exists_suites (m : Mem) (k pos n : Nat) (h : 4 * k ≤ n) : ∃ (suites : List Suite)
    (rest : List UInt8), suites.length = k ∧
      readBytes m pos n = suites.flatMap Suite.bytes ++ rest := by
  induction k generalizing pos n with
  | zero => exact ⟨[], readBytes m pos n, rfl, rfl⟩
  | succ k ih =>
    obtain ⟨suites, rest, hk, hrest⟩ := ih (pos + 4) (n - 4) (by omega)
    refine ⟨⟨readBytes m pos 4, length_readBytes m pos 4⟩ :: suites, rest, ?_, ?_⟩
    · rw [List.length_cons, hk]
    · rw [show n = 4 + (n - 4) by omega, readBytes_add, hrest, List.flatMap_cons, List.append_assoc]

/-- The `n` bytes behind the version end in front of a suite or a list, or are a list that fits. -/
def Fits (m : Mem) (pos n : Nat) : Prop :=
  n = 0 ∨ n = 4 ∨ 6 ≤ n ∧ le16 m (pos + 4) ≠ 0 ∧ 6 + 4 * le16 m (pos + 4) ≤ n

theorem getLe16_readBytes (m : Mem) (pos : Nat) : getLe16 (readBytes m pos 2) = le16 m pos := rfl

/-- The two bytes of the count. -/
theorem readBytes_count (m : Mem) (pos : Nat) :
    readBytes m pos 2 = [UInt8.ofNat (le16 m pos), UInt8.ofNat (le16 m pos / 256)] := by
  have hlo := (m pos).toNat_lt
  have hhi := (m (pos + 1)).toNat_lt
  simp only [readBytes, List.cons.injEq, ← UInt8.toNat_inj, UInt8.toNat_ofNat', le16, and_true]
  omega

theorem exists_body (h : Fits m pos n) : ∃ b : Body, b.Counted ∧ b.bytes = readBytes m pos n := by
  obtain rfl | rfl | ⟨h6, hzero, hfits⟩ := h
  · exact ⟨.version, trivial, rfl⟩
  · exact ⟨.group ⟨readBytes m pos 4, length_readBytes m pos 4⟩, trivial, rfl⟩
  · obtain ⟨suites, rest, hk, hrest⟩ :=
      exists_suites m (le16 m (pos + 4)) (pos + 4 + 2) (n - 6) (by omega)
    refine ⟨.pairwise ⟨readBytes m pos 4, length_readBytes m pos 4⟩ suites rest, ?_, ?_⟩
    · have hlt := le16_lt m (pos + 4)
      exact ⟨by omega, by omega⟩
    · rw [Body.bytes, hk, ← hrest, ← readBytes_count, ← readBytes_add, ← readBytes_add]
      congr 1
      omega

/-- Where they are not, the call fails. -/
theorem parseGroup_fails (h : ¬ Fits m pos n) (hn : ((pos + n : Nat) : Int) = len) :
    ∃ out, f.parseGroup m len pos n o = some (false, out) := by
  unfold Fits at h
  by_cases h4 : 4 ≤ n
  · have hread : readIn m len pos 4 = some (readBytes m pos 4) := if_pos (Or.inr (by omega))
    simp only [Format.parseGroup, Format.parsePairwise, if_pos (show (4 : Int) ≤ n by omega), hread,
      Option.bind_eq_bind, Option.bind_some]
    by_cases h6 : 6 ≤ n
    · have hcount : readIn m len (pos + 4) 2 = some (readBytes m (pos + 4) 2) :=
        if_pos (Or.inr (by omega))
      rw [if_pos (by omega), hcount, Option.bind_some, getLe16_readBytes, if_pos (by omega)]
      exact ⟨_, rfl⟩
    · rw [if_neg (by omega), if_pos (by omega)]
      exact ⟨_, rfl⟩
  · refine ⟨o, ?_⟩
    rw [Format.parseGroup, if_neg (by omega), if_pos (by omega)]

end Parse

/-! ## 4. Which strings are parsed right -/

section Whole

variable {f : Format} {m : Mem} {len : Int} {o : Out}

theorem ofInt_natCast (k : Nat) : UInt8.ofInt k = UInt8.ofNat k := by
  rw [← UInt8.toNat_inj, UInt8.ofInt, UInt8.toNat_ofNat', UInt8.toNat_ofNat']
  omega

theorem readIn_one {pos : Nat} (h : (pos : Int) < len) : readIn m len pos 1 = some [m pos] :=
  if_pos (Or.inr (by omega))

/-- The header is the one asked for. -/
structure Header (f : Format) (m : Mem) (len : Int) : Prop where
  id : m 0 = f.eid
  length : m 1 = UInt8.ofInt (len - 2)
  oui : readBytes m 2 f.oui.length = f.oui

/-- The first byte is there. -/
theorem parse_of_pos (h0 : 0 < len) : f.parse m len o =
    if [m 0] ≠ [f.eid] then some (false, o)
    else (readIn m len 1 1).bind fun l =>
      if l ≠ [UInt8.ofInt (len - 2)] then some (false, o)
      else (readIn m len 2 f.oui.length).bind fun oui =>
        if oui ≠ f.oui then some (false, o)
        else f.parseGroup m len (f.oui.length + 4) (len - (f.oui.length + 4 : Nat)) o := by
  have hread : readIn m len 0 1 = some [m 0] := readIn_one h0
  simp only [Format.parse, if_neg (Int.not_le.mpr h0), hread, Option.bind_eq_bind, Option.bind_some]

/-- With the header asked for, all is up to what stands behind the version. -/
theorem parse_of_header (h : Header f m len) (hlen : 2 ≤ len)
    (hin : (f.oui.length + 2 : Nat) ≤ len) :
    f.parse m len o = f.parseGroup m len (f.oui.length + 4) (len - (f.oui.length + 4 : Nat)) o := by
  have hone : readIn m len 1 1 = some [m 1] := readIn_one (by omega)
  have hoid : readIn m len 2 f.oui.length = some f.oui :=
    (if_pos (Or.inr (by omega))).trans (congrArg some h.oui)
  simp only [parse_of_pos (show 0 < len by omega), hone, hoid, Option.bind_some, h.id, h.length,
    ne_eq, not_true_eq_false, if_false]

/-- With another, the call fails as soon as it sees it. -/
theorem parse_of_not_header (h : ¬ Header f m len) (h0 : 0 < len) (hone : m 0 = f.eid → len ≠ 1)
    (hin : m 0 = f.eid → m 1 = UInt8.ofInt (len - 2) → (f.oui.length + 2 : Nat) ≤ len) :
    f.parse m len o = some (false, o) := by
  rw [parse_of_pos h0]
  by_cases hid : m 0 = f.eid
  · have hlen := hone hid
    have hread : readIn m len 1 1 = some [m 1] := readIn_one (by omega)
    rw [if_neg (by simp [hid]), hread, Option.bind_some]
    by_cases hl : m 1 = UInt8.ofInt (len - 2)
    · have hread : readIn m len 2 f.oui.length = some (readBytes m 2 f.oui.length) :=
        if_pos (Or.inr (by have := hin hid hl; omega))
      rw [if_neg (by simp [hl]), hread, Option.bind_some, if_pos fun ho => h ⟨hid, hl, ho⟩]
    · rw [if_pos (by simp [hl])]
  · rw [if_pos (by simp [hid])]

/-- An element has the header, and its body behind the version. -/
theorem Elem.header (e : Elem f) (h : e.bytes = readBytes m 0 len.toNat) :
    Header f m len ∧ len = (f.oui.length + 4 + e.body.bytes.length : Nat) ∧
      readBytes m (f.oui.length + 4) e.body.bytes.length = e.body.bytes := by
  have hlen := congrArg List.length h
  simp only [length_readBytes, Elem.bytes, List.length_cons, List.length_append,
    List.length_nil] at hlen
  have hid := readBytes_cons h.symm
  have hl := readBytes_cons hid.2
  have hoff : 0 + 1 + 1 = 2 := rfl
  rw [hoff] at hl
  have houi := readBytes_append hl.2
  have hver := readBytes_append houi.2
  have hsum : 2 + f.oui.length + [e.version.1, e.version.2].length = f.oui.length + 4 := by
    rw [List.length_cons, List.length_cons, List.length_nil]
    omega
  rw [hsum] at hver
  refine ⟨⟨hid.1, ?_, houi.1⟩, by omega, hver.2⟩
  rw [hl.1, ← ofInt_natCast]
  congr 1
  omega

/-- **An element is parsed right.** -/
theorem parse_bytes (hx : f.suite1x.length = 4) (e : Elem f)
    (h : e.bytes = readBytes m 0 len.toNat) :
    f.parse m len o = some (true, e.body.report f o) := by
  obtain ⟨hhead, hlen, hbody⟩ := e.header h
  have hleft : len - (f.oui.length + 4 : Nat) = (e.body.bytes.length : Nat) := by omega
  rw [parse_of_header hhead (by omega) (by omega), hleft]
  exact parseGroup_eq hx e.counted hbody (by omega)

/-- What has the header, the version and a body that fits is an element if it is short enough. -/
theorem exists_elem (h : Header f m len) {n : Nat} (hlen : len = (f.oui.length + 4 + n : Nat))
    (hfits : Fits m (f.oui.length + 4) n) (hshort : len < 258) :
    ∃ e : Elem f, e.bytes = readBytes m 0 len.toNat := by
  obtain ⟨b, hb, hbytes⟩ := exists_body hfits
  have hn : b.bytes.length = n := by rw [hbytes, length_readBytes]
  refine ⟨⟨(m (f.oui.length + 2), m (f.oui.length + 3)), b, hb, by omega⟩, ?_⟩
  have hsplit : len.toNat = 1 + (1 + (f.oui.length + (2 + n))) := by omega
  have hl : m 1 = UInt8.ofNat (f.oui.length + 2 + n) := by
    rw [h.length, ← ofInt_natCast]
    congr 1
    omega
  have hver : readBytes m (0 + 1 + 1 + f.oui.length) 2
      = [m (f.oui.length + 2), m (f.oui.length + 3)] := by
    rw [show 0 + 1 + 1 + f.oui.length = f.oui.length + 2 by omega]
    rfl
  rw [hsplit, readBytes_add, readBytes_add, readBytes_add, readBytes_add, h.oui, hver,
    show 0 + 1 + 1 + f.oui.length + 2 = f.oui.length + 4 by omega, ← hbytes]
  simp only [Elem.bytes, hn, readBytes, h.id, hl, List.cons_append, List.nil_append]

theorem countFits_iff {n : Nat} (hlen : len = (f.oui.length + 4 + n : Nat)) (h6 : 6 ≤ n) :
    CountFits f m len ↔ Fits m (f.oui.length + 4) n := by
  unfold CountFits Fits
  rw [show f.oui.length + 4 + 4 = f.oui.length + 8 by omega]
  omega

/-- A string that ends in its header is read past its end. -/
theorem parse_reads_past (h0 : 0 < len) (hid : m 0 = f.eid)
    (h : len = 1 ∨ 2 ≤ len ∧ m 1 = UInt8.ofInt (len - 2) ∧ len < (f.oui.length + 2 : Nat)) :
    f.parse m len o = none := by
  have hpast : ∀ {pos n : Nat}, n ≠ 0 → len < (pos + n : Nat) → readIn m len pos n = none :=
    fun hn hlt => if_neg (by omega)
  rw [parse_of_pos h0, if_neg (by simp [hid])]
  obtain hone | ⟨h2, hl, hlt⟩ := h
  · rw [hpast (by decide) (by omega)]
    rfl
  · have hread : readIn m len 1 1 = some [m 1] := readIn_one (by omega)
    rw [hread, hl, Option.bind_some, if_neg (not_not.mpr rfl), hpast (by omega) (by omega)]
    rfl

/-- A string without the version, and one too long for its length byte, is taken for an element. -/
theorem parse_takes (hx : f.suite1x.length = 4) (houi : f.oui.length ≤ 248) (hhead : Header f m len)
    (h2 : 2 ≤ len) (hin : (f.oui.length + 2 : Nat) ≤ len)
    (h : len < (f.oui.length + 4 : Nat) ∨ 258 ≤ len ∧ CountFits f m len) :
    ∃ out, f.parse m len o = some (true, out) := by
  rw [parse_of_header hhead h2 hin]
  obtain hver | ⟨hlong, hfits⟩ := h
  · refine ⟨o, ?_⟩
    rw [Format.parseGroup, if_neg (by omega), if_neg (by omega), Format.parsePairwise,
      if_neg (by omega), if_neg (by omega), parseAkm_short (by omega)]
  · obtain ⟨n, hn⟩ : ∃ n : Nat, len = (f.oui.length + 4 + n : Nat) :=
      ⟨(len - (f.oui.length + 4 : Nat)).toNat, by omega⟩
    obtain ⟨b, hb, hbytes⟩ := exists_body ((countFits_iff hn (by omega)).mp hfits)
    rw [show len - (f.oui.length + 4 : Nat) = (n : Int) by omega]
    exact ⟨_, parseGroup_eq hx hb hbytes.symm hn.symm⟩

/-- Nothing is an element that does not start like one. -/
theorem parsed_of_fails {out : Out} (hx : f.suite1x.length = 4)
    (h : f.parse m len o = some (false, out)) : Parsed f m len o := by
  have hno : ∀ e : Elem f, e.bytes ≠ readBytes m 0 len.toNat := fun e he => by
    rw [parse_bytes hx e he] at h
    simp at h
  exact ⟨false, out, h, by simp [hno], fun e he => absurd he (hno e)⟩

theorem parsed_iff (hx : f.suite1x.length = 4) (houi : f.oui.length ≤ 248) :
    Parsed f m len o ↔ Sound f m len := by
  constructor
  · rintro ⟨ok, out, hparse, hok, -⟩ h0 hid
    have hread : ¬ (len = 1 ∨ 2 ≤ len ∧ m 1 = UInt8.ofInt (len - 2) ∧
        len < (f.oui.length + 2 : Nat)) := fun hpast => by
      rw [parse_reads_past h0 hid hpast] at hparse
      nomatch hparse
    refine ⟨fun hone => hread (.inl hone), fun hl => ?_⟩
    have hin : (f.oui.length + 2 : Nat) ≤ len := by
      by_contra hlt
      exact hread (.inr ⟨by omega, hl, by omega⟩)
    refine ⟨hin, fun ho => ?_⟩
    have hhead : Header f m len := ⟨hid, hl, ho⟩
    -- a string that is taken is an element, and so of an element's length
    have htaken : ¬ (len < (f.oui.length + 4 : Nat) ∨ 258 ≤ len ∧ CountFits f m len) := by
      intro hbad
      obtain ⟨out', hout⟩ := parse_takes (o := o) hx houi hhead (by omega) hin hbad
      rw [hout] at hparse
      obtain ⟨e, he⟩ := hok.mp (by simp at hparse; exact hparse.1)
      have hlen := (e.header he).2.1
      have hshort := e.short
      omega
    exact ⟨by omega, fun hlong hfits => htaken (.inr ⟨hlong, hfits⟩)⟩
  · intro h
    by_cases h0 : 0 < len
    · by_cases hhead : Header f m len
      · obtain ⟨hone, hrest⟩ := h h0 hhead.id
        obtain ⟨hin, hrest⟩ := hrest hhead.length
        obtain ⟨hver, hlong⟩ := hrest hhead.oui
        obtain ⟨n, hn⟩ : ∃ n : Nat, len = (f.oui.length + 4 + n : Nat) :=
          ⟨(len - (f.oui.length + 4 : Nat)).toNat, by omega⟩
        have hgroup := parse_of_header (o := o) hhead (by omega) hin
        rw [show len - (f.oui.length + 4 : Nat) = (n : Int) by omega] at hgroup
        by_cases hfits : Fits m (f.oui.length + 4) n
        · have hshort : len < 258 := by
            by_contra hge
            exact hlong (by omega) ((countFits_iff hn (by omega)).mpr hfits)
          obtain ⟨e, he⟩ := exists_elem hhead hn hfits hshort
          refine ⟨true, e.body.report f o, parse_bytes hx e he, by simp; exact ⟨e, he⟩, ?_⟩
          intro e' he'
          have h' := parse_bytes (o := o) hx e' he'
          rw [parse_bytes hx e he] at h'
          simpa using h'
        · obtain ⟨out, hout⟩ : ∃ out, f.parseGroup m len _ n o = some (false, out) :=
            parseGroup_fails hfits (by omega)
          exact parsed_of_fails hx (hgroup.trans hout)
      · exact parsed_of_fails hx (parse_of_not_header hhead h0 (fun hid => (h h0 hid).1)
          fun hid hl => ((h h0 hid).2 hl).1)
    · have hnone : f.parse m len o = some (false, o) := if_pos (by omega)
      exact parsed_of_fails hx hnone

end Whole

/-! ## 5. As an association request is judged -/

section Judged

variable {f : Format} {suite : Mem → Nat → Nat} {m : Mem} {len : Int} {pos : Nat} {ok : Bool}
  {out : Out}

theorem eq_of_readIn {n : Nat} {c : List UInt8} (h : readIn m len pos n = some c) :
    c = readBytes m pos n := by
  unfold readIn at h
  split at h
  · exact (Option.some.inj h).symm
  · nomatch h

/-- The loop gives the suites together, wherever they stand. -/
theorem orSuites_range (hsuite : ∀ p, suite m p = f.cipherSuite (readBytes m p 4)) {k c p : Nat}
    (h : f.orSuites m len k pos c = some p) :
    p = (List.range k).foldl (fun c i => c ||| suite m (pos + 4 * i)) c := by
  induction k generalizing pos c with
  | zero => exact (Option.some.inj h).symm
  | succ k ih =>
    obtain ⟨s, hs, h⟩ := Option.bind_eq_some_iff.mp h
    obtain rfl := eq_of_readIn hs
    rw [List.range_succ_eq_map, List.foldl_cons, List.foldl_map, ih h, hsuite, Nat.mul_zero,
      Nat.add_zero]
    congr 1
    funext c i
    rw [show pos + 4 + 4 * i = pos + 4 * (i + 1) by omega]

/-- The list and what follows, likewise. -/
theorem parsePairwise_judged (hsuite : ∀ p, suite m p = f.cipherSuite (readBytes m p 4))
    {left : Int} {group : Nat}
    (h : f.parsePairwise m len pos left ⟨group, 0, none⟩ = some (ok, out)) :
    (if 2 ≤ left then
      if le16 m pos = 0 ∨ left - 2 < le16 m pos * 4 then none
      else some (group,
        (List.range (le16 m pos)).foldl (fun c i => c ||| suite m (pos + 2 + 4 * i)) 0)
    else if left = 1 then none else some (group, 0))
      = if ok then some (out.group, out.pairwise) else none := by
  unfold Format.parsePairwise at h
  by_cases h2 : 2 ≤ left
  · obtain ⟨c, hc, h⟩ := Option.bind_eq_some_iff.mp ((if_pos h2).symm.trans h)
    obtain rfl := eq_of_readIn hc
    rw [getLe16_readBytes] at h
    rw [if_pos h2]
    dsimp only at h
    split at h
    · rename_i hbad
      obtain ⟨rfl, -⟩ := Prod.mk.inj (Option.some.inj h)
      exact if_pos hbad
    · rename_i hgood
      obtain ⟨p, hp, h⟩ := Option.bind_eq_some_iff.mp h
      obtain ⟨rfl, rfl⟩ := Prod.mk.inj (Option.some.inj h)
      rw [if_neg hgood, if_pos rfl, ← orSuites_range hsuite hp]
  · rw [if_neg h2] at h ⊢
    split at h <;> obtain ⟨rfl, rfl⟩ := Prod.mk.inj (Option.some.inj h)
    · rename_i hone
      exact if_pos hone
    · rename_i hone
      exact if_neg hone

/-- **A call that reads nothing past the end** gives what the request is judged by. -/
theorem parseSuites_eq (hsuite : ∀ p, suite m p = f.cipherSuite (readBytes m p 4)) {left : Int}
    (h : f.parseGroup m len pos left ⟨0, 0, none⟩ = some (ok, out)) :
    parseSuites suite m pos left = if ok then some (out.group, out.pairwise) else none := by
  unfold Format.parseGroup at h
  unfold parseSuites
  by_cases h4 : 4 ≤ left
  · obtain ⟨s, hs, h⟩ := Option.bind_eq_some_iff.mp ((if_pos h4).symm.trans h)
    obtain rfl := eq_of_readIn hs
    rw [← hsuite pos] at h
    simp only [if_neg (show ¬ (0 < left ∧ left < 4) by omega), if_pos h4]
    exact parsePairwise_judged hsuite h
  · rw [if_neg h4] at h
    simp only [if_neg h4]
    split at h
    · obtain ⟨rfl, -⟩ := Prod.mk.inj (Option.some.inj h)
      exact if_pos (by omega)
    · rw [if_neg (by omega)]
      exact parsePairwise_judged hsuite h

/-- A call either fails at the header or goes on behind the version. -/
theorem parse_cases {o : Out} (h2 : 2 ≤ len) (h : f.parse m len o = some (ok, out)) :
    Header f m len ∧
        f.parseGroup m len (f.oui.length + 4) (len - (f.oui.length + 4 : Nat)) o = some (ok, out) ∨
      ¬ Header f m len ∧ ok = false := by
  have hread : ¬ (len = 1 ∨ 2 ≤ len ∧ m 1 = UInt8.ofInt (len - 2) ∧
      len < (f.oui.length + 2 : Nat)) ∨ m 0 ≠ f.eid := by
    by_contra hpast
    rw [not_or, not_not, not_not] at hpast
    rw [parse_reads_past (by omega) hpast.2 hpast.1] at h
    nomatch h
  by_cases hhead : Header f m len
  · have hpast := hread.resolve_right (not_not.mpr hhead.id)
    rw [parse_of_header hhead h2
      (Int.not_lt.mp fun hlt => hpast (.inr ⟨h2, hhead.length, hlt⟩))] at h
    exact .inl ⟨hhead, h⟩
  · have hin : m 0 = f.eid → m 1 = UInt8.ofInt (len - 2) → (f.oui.length + 2 : Nat) ≤ len :=
      fun hid hl => Int.not_lt.mp fun hlt =>
        (hread.resolve_right (not_not.mpr hid)) (.inr ⟨h2, hl, hlt⟩)
    rw [parse_of_not_header hhead (by omega) (fun _ => by omega) hin] at h
    exact .inr ⟨hhead, (Prod.mk.inj (Option.some.inj h)).1.symm⟩

/-- The length byte, as a request's element is held against it. -/
theorem length_byte_iff (h2 : 2 ≤ len) :
    m 1 = UInt8.ofInt (len - 2) ↔ (m (0 + 1)).toNat = (len.toNat - 2) % 256 := by
  have hlen : len - 2 = ((len.toNat - 2 : Nat) : Int) := by omega
  rw [hlen, ofInt_natCast, ← UInt8.toNat_inj, UInt8.toNat_ofNat']

/-- **A request's WPA element** is judged by what the call gives. -/
theorem rtwParseWpaIe_judged (h2 : 2 ≤ len)
    (h : rtwParseWpaIe m len ⟨0, 0, none⟩ = some (ok, out)) :
    Rtl8723bs.rtwParseWpaIe m 0 len.toNat
      = if ok then some (out.group, out.pairwise) else none := by
  have hcond : (m 0 ≠ wlanEidVendorSpecific ∨ (m (0 + 1)).toNat ≠ (len.toNat - 2) % 256 ∨
      readBytes m (0 + 2) 4 ≠ [0x00, 0x50, 0xF2, 1]) ↔ ¬ Header wpa m len := by
    rw [← not_and_or, ← not_and_or, ← length_byte_iff h2]
    exact not_congr ⟨fun hh => ⟨hh.1, hh.2.1, hh.2.2⟩, fun hh => ⟨hh.id, hh.length, hh.oui⟩⟩
  have hsuite : ∀ p, rtwGetWpaCipherSuite m p = wpa.cipherSuite (readBytes m p 4) := fun _ => rfl
  unfold Rtl8723bs.rtwParseWpaIe
  obtain ⟨hhead, hgroup⟩ | ⟨hhead, rfl⟩ := parse_cases h2 h
  · rw [if_neg (mt hcond.mp (not_not.mpr hhead)), ← parseSuites_eq hsuite hgroup]
    have hoff : wpa.oui.length = 4 := rfl
    congr 1
    omega
  · exact if_pos (hcond.mpr hhead)

/-- **A request's RSN element**, likewise. -/
theorem rtwParseWpa2Ie_judged (h2 : 2 ≤ len)
    (h : rtwParseWpa2Ie m len ⟨0, 0, none⟩ = some (ok, out)) :
    Rtl8723bs.rtwParseWpa2Ie m 0 len.toNat
      = if ok then some (out.group, out.pairwise) else none := by
  have hcond : (m 0 ≠ wlanEidRsn ∨ (m (0 + 1)).toNat ≠ (len.toNat - 2) % 256) ↔
      ¬ Header rsn m len := by
    rw [← not_and_or, ← length_byte_iff h2]
    exact not_congr ⟨fun hh => ⟨hh.1, hh.2, rfl⟩, fun hh => ⟨hh.id, hh.length⟩⟩
  have hsuite : ∀ p, rtwGetWpa2CipherSuite m p = rsn.cipherSuite (readBytes m p 4) := fun _ => rfl
  unfold Rtl8723bs.rtwParseWpa2Ie
  obtain ⟨hhead, hgroup⟩ | ⟨hhead, rfl⟩ := parse_cases h2 h
  · rw [if_neg (mt hcond.mp (not_not.mpr hhead)), ← parseSuites_eq hsuite hgroup]
    have hoff : rsn.oui.length = 0 := rfl
    congr 1
    omega
  · exact if_pos (hcond.mpr hhead)

end Judged

/-! ## 6. The result -/

/-- **The two functions parse a byte string right exactly if it is sound.** -/
theorem sec_ie_parsed_iff (m : Mem) (len : Int) (o : Out) :
    (Parsed wpa m len o ↔ Sound wpa m len) ∧ (Parsed rsn m len o ↔ Sound rsn m len) :=
  ⟨parsed_iff rfl (by decide), parsed_iff rfl (by decide)⟩

/-- An RSN element with nothing in it. -/
def bareRsn : Mem := fun i => [48, 0].getD i 0

/-- Not every string is parsed right: an element without a version is taken. -/
theorem bare_rsn_taken : ¬ ∀ m len o, Parsed wpa m len o ∧ Parsed rsn m len o := by
  intro hall
  obtain ⟨-, ok, out, hparse, hok, -⟩ := hall bareRsn 2 ⟨0, 0, none⟩
  have htaken : rsn.parse bareRsn 2 ⟨0, 0, none⟩ = some (true, ⟨0, 0, none⟩) := by decide
  rw [htaken] at hparse
  obtain ⟨e, he⟩ := hok.mp (Prod.mk.inj (Option.some.inj hparse)).1.symm
  have hlen := (e.header he).2.1
  omega

end Rtl8723bs.SecIe
