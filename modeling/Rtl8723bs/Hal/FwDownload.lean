/-
# Writing the firmware

The firmware goes into eight pages of the chip, and there is one window of addresses for all of them:
three bits of REG_MCUFWDL+2 say which page it shows.  `_WriteFW` goes through the pages, `_BlockWrite`
through the words of a page and the bytes that are left.  A write can fail, and then the whole
download is begun again.  The write of REG_MCUFWDL+2 itself is not checked by the driver, and is taken
to succeed.

`writeFw_image` says what one attempt leaves, and that it is whole exactly when each of its
`size / 4 + size % 4` writes succeeds; `fwDownload_image` is about all attempts together.
-/
import Mathlib.Logic.Function.Basic
import Rtl8723bs.Hal.Regs
import Rtl8723bs.Lib.Bytes

namespace Rtl8723bs

/-! ## 1. The chip -/

def fw8723bStartAddress : Nat := 0x1000
def fw8723bSize : Nat := 0x8000
def maxDlfwPageSize : Nat := 4096

/-- REG_MCUFWDL+2, the pages at the addresses of the window, and how many writes there have been. -/
structure FwChip where
  ctrl : UInt8
  ram : Nat → Nat → UInt8
  ios : Nat

/-- The page that the window shows. -/
def FwChip.page (c : FwChip) : Nat := (c.ctrl &&& 0x07).toNat

/-- `rtw_write8` of one byte of memory. -/
def putByte (mem : Nat → UInt8) (addr : Nat) (x : UInt8) : Nat → UInt8 := Function.update mem addr x

section Write
variable (ok : Nat → Bool) (buf : Nat → UInt8)

/-- A write into the window; `ok` says which writes succeed. -/
def FwChip.put (c : FwChip) (f : (Nat → UInt8) → Nat → UInt8) : Bool × FwChip :=
  if ok c.ios then (true, { c with
    ram := Function.update c.ram c.page (f (c.ram c.page)), ios := c.ios + 1 })
  else (false, { c with ios := c.ios + 1 })

/-! ## 2. Writing -/

/-- So many writes from the `i`th on; the first that fails is the last. -/
def putAll (f : Nat → (Nat → UInt8) → Nat → UInt8) : Nat → Nat → FwChip → Bool × FwChip
  | 0, _, c => (true, c)
  | n + 1, i, c =>
    let r := c.put ok (f i)
    if r.1 then putAll f n (i + 1) r.2 else r

/-- The loop of phase 1, over the words of the buffer from `base` on. -/
def writeWords (base blockCount : Nat) : FwChip → Bool × FwChip :=
  putAll ok (fun i mem => rtwWrite32 mem (fw8723bStartAddress + i * 4)
    (le32ToCpu fun k => buf (base + i * 4 + k))) blockCount 0

/-- The loop of phase 3, over the bytes behind `offset`. -/
def writeBytes (base offset blockCount : Nat) : FwChip → Bool × FwChip :=
  putAll ok (fun i mem => putByte mem (fw8723bStartAddress + offset + i) (buf (base + offset + i)))
    blockCount 0

/-- `_BlockWrite` of the buffer from `base` on. -/
def blockWrite (base buffSize : Nat) (c : FwChip) : Bool × FwChip :=
  let blockCountP1 := buffSize / 4
  let remainSizeP1 := buffSize % 4
  let r := writeWords ok buf base blockCountP1 c
  if r.1 then
    let blockCountP2 := if remainSizeP1 ≠ 0 then remainSizeP1 / 8 else 0
    let remainSizeP2 := if remainSizeP1 ≠ 0 then remainSizeP1 % 8 else 0
    if remainSizeP2 ≠ 0 then
      writeBytes ok buf base (blockCountP1 * 4 + blockCountP2 * 8) (remainSizeP2 / 1) r.2
    else r
  else r

/-- `_PageWrite`. -/
def pageWrite (page base size : Nat) (c : FwChip) : Bool × FwChip :=
  blockWrite ok buf base size { c with
    ctrl := (c.ctrl &&& 0xF8) ||| UInt8.ofNat (page &&& 0x07) }

/-- The loop of `_WriteFW`: so many pages from `page` on. -/
def writePages : Nat → Nat → FwChip → Bool × FwChip
  | 0, _, c => (true, c)
  | n + 1, page, c =>
    let r := pageWrite ok buf page (page * maxDlfwPageSize) maxDlfwPageSize c
    if r.1 then writePages n (page + 1) r.2 else r

/-- `_WriteFW`. -/
def writeFw (size : Nat) (c : FwChip) : Bool × FwChip :=
  let pageNums := size / maxDlfwPageSize
  let remainSize := size % maxDlfwPageSize
  let r := writePages ok buf pageNums 0 c
  if r.1 then
    if remainSize ≠ 0 then pageWrite ok buf pageNums (pageNums * maxDlfwPageSize) remainSize r.2
    else r
  else r

/-- The loop of `rtl8723b_FirmwareDownload`, for as many times as the clock lets it run: `chksum` is
what `polling_fwdl_chksum` returns after each of them.  Whether it was left by the `break`. -/
def fwDownload (size : Nat) : List Bool → FwChip → Bool × FwChip
  | [], c => (false, c)
  | chksum :: rest, c =>
    let r := writeFw ok buf size c
    if r.1 && chksum then (true, r.2) else fwDownload size rest r.2

end Write

/-! ## 3. What a part of a download leaves -/

/-- So many writes that put `w` into the pages. -/
structure Wrote (ok : Nat → Bool) (count : Nat) (w : Nat → Nat → Option UInt8) (c : FwChip)
    (r : Bool × FwChip) : Prop where
  done : r.1 = true ↔ ∀ k < count, ok (c.ios + k) = true
  ios : r.1 = true → r.2.ios = c.ios + count
  ram : r.1 = true → ∀ p a, r.2.ram p a = (w p a).getD (c.ram p a)
  within : ∀ p a, r.2.ram p a = c.ram p a ∨ w p a = some (r.2.ram p a)
  ctrl : r.2.ctrl &&& 0xF8 = c.ctrl &&& 0xF8

section Proofs
variable {ok : Nat → Bool} {buf : Nat → UInt8} {c : FwChip}

theorem Wrote.none (c : FwChip) : Wrote ok 0 (fun _ _ => Option.none) c (true, c) where
  done := iff_of_true rfl fun _ hk => absurd hk (Nat.not_lt_zero _)
  ios _ := rfl
  ram _ _ _ := rfl
  within _ _ := .inl rfl
  ctrl := rfl

theorem Wrote.congr {n m : Nat} {w w' : Nat → Nat → Option UInt8} {r : Bool × FwChip}
    (h : Wrote ok n w c r) (hn : n = m) (hw : ∀ p a, w p a = w' p a) : Wrote ok m w' c r := by
  obtain rfl : w = w' := funext₂ hw
  exact hn ▸ h

/-- **One part after the other**, where the second is not written over the first. -/
theorem Wrote.seq {n₁ n₂ : Nat} {w₁ w₂ : Nat → Nat → Option UInt8} {r₁ r₂ : Bool × FwChip}
    (h₁ : Wrote ok n₁ w₁ c r₁) (h₂ : r₁.1 = true → Wrote ok n₂ w₂ r₁.2 r₂)
    (hdisj : ∀ p a, w₁ p a = Option.none ∨ w₂ p a = Option.none) :
    Wrote ok (n₁ + n₂) (fun p a => (w₁ p a).or (w₂ p a)) c (if r₁.1 then r₂ else r₁) := by
  cases hr : r₁.1 with
  | false =>
    rw [if_neg Bool.false_ne_true]
    have hfail : ¬ ∀ k < n₁ + n₂, ok (c.ios + k) = true := by
      intro hall
      have htrue := h₁.done.mpr fun k hk => hall k (by omega)
      rw [hr] at htrue
      exact Bool.false_ne_true htrue
    refine ⟨iff_of_false (by rw [hr]; exact Bool.false_ne_true) hfail, ?_, ?_, ?_, h₁.ctrl⟩
    · exact fun htrue => absurd (hr.symm.trans htrue) Bool.false_ne_true
    · exact fun htrue => absurd (hr.symm.trans htrue) Bool.false_ne_true
    · intro p a
      rcases h₁.within p a with hsame | hnew
      · exact .inl hsame
      · exact .inr (by rw [hnew, Option.some_or])
  | true =>
    rw [if_pos rfl]
    have h₂ := h₂ hr
    have hios := h₁.ios hr
    refine ⟨?_, fun htrue => ?_, fun htrue p a => ?_, fun p a => ?_, h₂.ctrl.trans h₁.ctrl⟩
    · rw [h₂.done]
      constructor
      · intro hall k hk
        by_cases hlt : k < n₁
        · exact h₁.done.mp hr k hlt
        · have hrest := hall (k - n₁) (by omega)
          rwa [hios, Nat.add_assoc, Nat.add_sub_cancel' (by omega)] at hrest
      · intro hall k hk
        rw [hios, Nat.add_assoc]
        exact hall (n₁ + k) (by omega)
    · rw [h₂.ios htrue, hios, Nat.add_assoc]
    · rw [h₂.ram htrue, h₁.ram hr]
      rcases hdisj p a with hnone | hnone
      · rw [hnone, Option.none_or, Option.getD_none]
      · rw [hnone, Option.or_none, Option.getD_none]
    · rcases h₂.within p a with hsame | hnew
      · rw [hsame]
        rcases h₁.within p a with hsame' | hnew'
        · exact .inl hsame'
        · exact .inr (by rw [hnew', Option.some_or])
      · rcases hdisj p a with hnone | hnone
        · exact .inr (by rw [hnone, Option.none_or, hnew])
        · rw [hnone] at hnew
          exact absurd hnew.symm (Option.some_ne_none _)

/-! ## 4. One page -/

/-- The bytes of the buffer from `base` on that belong at these places of the window. -/
def slice (buf : Nat → UInt8) (base lo hi a : Nat) : Option UInt8 :=
  if fw8723bStartAddress + lo ≤ a ∧ a < fw8723bStartAddress + hi then
    some (buf (base + (a - fw8723bStartAddress)))
  else none

/-- Something that is written into one page. -/
def onPage (q : Nat) (w : Nat → Option UInt8) (p a : Nat) : Option UInt8 :=
  if p = q then w a else none

/-- Two slices that meet. -/
theorem slice_or (base q : Nat) {lo mid hi : Nat} (hlo : lo ≤ mid) (hhi : mid ≤ hi) (p a : Nat) :
    (onPage q (slice buf base lo mid) p a).or (onPage q (slice buf base mid hi) p a)
      = onPage q (slice buf base lo hi) p a := by
  unfold onPage slice
  by_cases hp : p = q
  · rw [if_pos hp, if_pos hp, if_pos hp]
    by_cases h₁ : fw8723bStartAddress + lo ≤ a ∧ a < fw8723bStartAddress + mid
    · have h : fw8723bStartAddress + lo ≤ a ∧ a < fw8723bStartAddress + hi := by omega
      rw [if_pos h₁, if_pos h, Option.some_or]
    · rw [if_neg h₁, Option.none_or]
      refine if_congr ?_ rfl rfl
      omega
  · rw [if_neg hp, if_neg hp, if_neg hp, Option.none_or]

theorem slice_disj (base : Nat) (lo mid hi q p a : Nat) :
    onPage q (slice buf base lo mid) p a = Option.none ∨
      onPage q (slice buf base mid hi) p a = Option.none := by
  unfold onPage slice
  by_cases hp : p = q
  · rw [if_pos hp, if_pos hp]
    by_cases h : fw8723bStartAddress + lo ≤ a ∧ a < fw8723bStartAddress + mid
    · exact .inr (if_neg (by omega))
    · exact .inl (if_neg h)
  · exact .inl (if_neg hp)

theorem put_ctrl (f : (Nat → UInt8) → Nat → UInt8) : (c.put ok f).2.ctrl = c.ctrl := by
  unfold FwChip.put
  split <;> rfl

theorem put_page (f : (Nat → UInt8) → Nat → UInt8) : (c.put ok f).2.page = c.page := by
  rw [FwChip.page, put_ctrl, FwChip.page]

/-- One write into the window. -/
theorem put_wrote {f : (Nat → UInt8) → Nat → UInt8} {w : Nat → Option UInt8}
    (hf : ∀ mem a, f mem a = (w a).getD (mem a)) :
    Wrote ok 1 (onPage c.page w) c (c.put ok f) := by
  have hone : (∀ k < 1, ok (c.ios + k) = true) ↔ ok c.ios = true :=
    ⟨fun h => h 0 Nat.one_pos, fun h k hk => by rwa [Nat.lt_one_iff.mp hk]⟩
  unfold FwChip.put
  by_cases hok : ok c.ios = true
  · have hram : ∀ p a, Function.update c.ram c.page (f (c.ram c.page)) p a
        = (onPage c.page w p a).getD (c.ram p a) := by
      intro p a
      unfold onPage
      by_cases hp : p = c.page
      · rw [if_pos hp, hp, Function.update_self, hf]
      · rw [if_neg hp, Function.update_of_ne hp, Option.getD_none]
    rw [if_pos hok]
    refine ⟨iff_of_true rfl (hone.mpr hok), fun _ => rfl, fun _ => hram, fun p a => ?_, rfl⟩
    simp only [hram]
    cases onPage c.page w p a with
    | none => exact .inl rfl
    | some x => exact .inr rfl
  · rw [if_neg hok]
    refine ⟨iff_of_false Bool.false_ne_true fun h => hok (hone.mp h), ?_, ?_, fun p a => .inl rfl, rfl⟩
    · exact fun h => absurd h Bool.false_ne_true
    · exact fun h => absurd h Bool.false_ne_true

theorem putAll_ctrl (f : Nat → (Nat → UInt8) → Nat → UInt8) (n i : Nat) (c : FwChip) :
    (putAll ok f n i c).2.ctrl = c.ctrl := by
  induction n generalizing i c with
  | zero => rfl
  | succ n ih =>
    simp only [putAll]
    split
    · rw [ih, put_ctrl]
    · rw [put_ctrl]

/-- Writes of `unit` bytes each, one behind the other. -/
theorem putAll_wrote (buf : Nat → UInt8) {f : Nat → (Nat → UInt8) → Nat → UInt8} (base lo unit : Nat)
    (hf : ∀ i mem a, f i mem a
      = (slice buf base (lo + i * unit) (lo + (i + 1) * unit) a).getD (mem a)) (n i : Nat)
    (c : FwChip) :
    Wrote ok n (onPage c.page (slice buf base (lo + i * unit) (lo + (i + n) * unit))) c
      (putAll ok f n i c) := by
  induction n generalizing i c with
  | zero =>
    refine (Wrote.none c).congr rfl fun p a => ?_
    unfold onPage slice
    split
    · exact (if_neg (by rw [Nat.add_zero]; omega)).symm
    · rfl
  | succ n ih =>
    have hfirst : Wrote ok 1 _ c (c.put ok (f i)) := put_wrote (hf i)
    have hall := hfirst.seq (fun _ => ih (i + 1) _) fun p a => by
      rw [put_page]
      exact slice_disj base _ _ _ _ p a
    simp only [put_page] at hall
    refine hall.congr (Nat.add_comm 1 n) fun p a => ?_
    have hend : i + 1 + n = i + (n + 1) := by omega
    have hle : (i + 1) * unit ≤ (i + (n + 1)) * unit := Nat.mul_le_mul_right unit (by omega)
    have hstep : i * unit ≤ (i + 1) * unit := Nat.mul_le_mul_right unit (Nat.le_succ i)
    rw [hend]
    exact slice_or base c.page (by omega) (by omega) p a

theorem writeWords_wrote (base n : Nat) (c : FwChip) :
    Wrote ok n (onPage c.page (slice buf base 0 (n * 4))) c (writeWords ok buf base n c) := by
  refine (putAll_wrote buf base 0 4 (fun i mem a => ?_) n 0 c).congr rfl fun p a => ?_
  · unfold slice
    by_cases h : fw8723bStartAddress + (0 + i * 4) ≤ a ∧ a < fw8723bStartAddress + (0 + (i + 1) * 4)
    · obtain ⟨k, rfl⟩ : ∃ k, a = fw8723bStartAddress + i * 4 + k :=
        ⟨a - (fw8723bStartAddress + i * 4), by omega⟩
      have hk : k < 4 := by omega
      have hsub : fw8723bStartAddress + i * 4 + k - fw8723bStartAddress = i * 4 + k := by omega
      rw [if_pos h, rtwWrite32_at _ _ _ hk, Option.getD_some, hsub, Nat.add_assoc]
    · have hout : a < fw8723bStartAddress + i * 4 ∨ fw8723bStartAddress + i * 4 + 4 ≤ a := by omega
      rw [if_neg h, rtwWrite32_of_ne _ _ _ hout, Option.getD_none]
  · rw [Nat.zero_mul, Nat.zero_add, Nat.zero_add, Nat.zero_add]

theorem writeBytes_wrote (base offset n : Nat) (c : FwChip) :
    Wrote ok n (onPage c.page (slice buf base offset (offset + n))) c
      (writeBytes ok buf base offset n c) := by
  refine (putAll_wrote buf base offset 1 (fun i mem a => ?_) n 0 c).congr rfl fun p a => ?_
  · unfold slice putByte
    by_cases h : fw8723bStartAddress + (offset + i * 1) ≤ a ∧
        a < fw8723bStartAddress + (offset + (i + 1) * 1)
    · obtain rfl : a = fw8723bStartAddress + offset + i := by omega
      have hsub : fw8723bStartAddress + offset + i - fw8723bStartAddress = offset + i := by omega
      rw [if_pos h, Function.update_self, Option.getD_some, hsub, Nat.add_assoc]
    · have hne : a ≠ fw8723bStartAddress + offset + i := by omega
      rw [if_neg h, Function.update_of_ne hne, Option.getD_none]
  · rw [Nat.zero_mul, Nat.add_zero, Nat.zero_add, Nat.mul_one]

theorem writeWords_page (base n : Nat) (c : FwChip) :
    (writeWords ok buf base n c).2.page = c.page := by
  rw [FwChip.page, writeWords, putAll_ctrl, FwChip.page]

/-- **One block**: each word and each byte that is left is written once. -/
theorem blockWrite_wrote (base size : Nat) (c : FwChip) :
    Wrote ok (size / 4 + size % 4) (onPage c.page (slice buf base 0 size)) c
      (blockWrite ok buf base size c) := by
  have hwords : Wrote ok _ _ c (writeWords ok buf base (size / 4) c) := writeWords_wrote _ _ c
  have hdiv := Nat.div_add_mod size 4
  simp only [blockWrite]
  by_cases hrem : size % 4 = 0
  · rw [if_neg (not_not_intro hrem), if_neg (not_not_intro rfl), ite_self]
    refine hwords.congr (by omega) fun p a => ?_
    have hsize : size / 4 * 4 = size := by omega
    rw [hsize]
  · have hp2 : size % 4 / 8 = 0 := by omega
    have hp3 : size % 4 % 8 = size % 4 := by omega
    rw [if_pos hrem, if_pos hrem, hp2, hp3, if_pos hrem, Nat.div_one, Nat.zero_mul, Nat.add_zero]
    have hall := hwords.seq (fun _ => writeBytes_wrote base (size / 4 * 4) (size % 4)
      (writeWords ok buf base (size / 4) c).2) fun p a => by
        rw [writeWords_page]
        exact slice_disj base _ _ _ _ p a
    refine hall.congr rfl fun p a => ?_
    have hsize : size / 4 * 4 + size % 4 = size := by omega
    rw [writeWords_page, slice_or base c.page (Nat.zero_le _) (Nat.le_add_right _ _), hsize]

/-! ## 5. All pages -/

/-- The three bits that select a page, and the others. -/
theorem page_selected {page : Nat} (hpage : page < 8) (x : UInt8) :
    (((x &&& 0xF8) ||| UInt8.ofNat (page &&& 0x07)) &&& 0x07).toNat = page ∧
      ((x &&& 0xF8) ||| UInt8.ofNat (page &&& 0x07)) &&& 0xF8 = x &&& 0xF8 := by
  have hall : ∀ p < 8, ∀ n : Fin 256,
      (((UInt8.ofNat n &&& 0xF8) ||| UInt8.ofNat (p &&& 0x07)) &&& 0x07).toNat = p ∧
        ((UInt8.ofNat n &&& 0xF8) ||| UInt8.ofNat (p &&& 0x07)) &&& 0xF8
          = UInt8.ofNat n &&& 0xF8 := by
    decide +kernel
  exact UInt8.forall_byte (P := fun x =>
    (((x &&& 0xF8) ||| UInt8.ofNat (page &&& 0x07)) &&& 0x07).toNat = page ∧
      ((x &&& 0xF8) ||| UInt8.ofNat (page &&& 0x07)) &&& 0xF8 = x &&& 0xF8) (hall page hpage) x

theorem pageWrite_wrote {page : Nat} (hpage : page < 8) (base size : Nat) (c : FwChip) :
    Wrote ok (size / 4 + size % 4) (onPage page (slice buf base 0 size)) c
      (pageWrite ok buf page base size c) := by
  obtain ⟨hselected, hothers⟩ := page_selected hpage c.ctrl
  have h : Wrote ok _ _ _ (pageWrite ok buf page base size c) := blockWrite_wrote base size
    { c with ctrl := (c.ctrl &&& 0xF8) ||| UInt8.ofNat (page &&& 0x07) }
  rw [FwChip.page, hselected] at h
  exact { h with ctrl := h.ctrl.trans hothers }

/-- The pages from one to another, whole. -/
def pages (buf : Nat → UInt8) (first last p a : Nat) : Option UInt8 :=
  if first ≤ p ∧ p < last then slice buf (p * maxDlfwPageSize) 0 maxDlfwPageSize a else none

theorem writePages_wrote (n page : Nat) (hpages : page + n ≤ 8) (c : FwChip) :
    Wrote ok (n * 1024) (pages buf page (page + n)) c (writePages ok buf n page c) := by
  induction n generalizing page c with
  | zero =>
    refine (Wrote.none c).congr (Nat.zero_mul _).symm fun p a => ?_
    exact (if_neg (by rw [Nat.add_zero]; omega)).symm
  | succ n ih =>
    have hfirst : Wrote ok _ _ c (pageWrite ok buf page (page * maxDlfwPageSize) maxDlfwPageSize c) :=
      pageWrite_wrote (by omega) _ _ c
    have hall := hfirst.seq (fun _ => ih (page + 1) (by omega) _) fun p a => by
      unfold onPage pages
      by_cases hp : p = page
      · exact .inr (if_neg (by omega))
      · exact .inl (if_neg hp)
    refine hall.congr (by simp only [maxDlfwPageSize]; omega) fun p a => ?_
    unfold onPage pages
    by_cases hp : p = page
    · subst hp
      have hin : p ≤ p ∧ p < p + (n + 1) := by omega
      have hout : ¬ (p + 1 ≤ p ∧ p < p + 1 + n) := by omega
      rw [if_pos rfl, if_neg hout, if_pos hin, Option.or_none]
    · rw [if_neg hp, Option.none_or]
      refine if_congr ?_ rfl rfl
      omega

/-- The image: each byte in its page, at its place of the window. -/
def image (buf : Nat → UInt8) (size p a : Nat) : Option UInt8 :=
  if fw8723bStartAddress ≤ a ∧ a < fw8723bStartAddress + maxDlfwPageSize ∧
      p * maxDlfwPageSize + (a - fw8723bStartAddress) < size then
    some (buf (p * maxDlfwPageSize + (a - fw8723bStartAddress)))
  else none

/-- The whole pages and the last one are the image. -/
theorem image_eq (size p a : Nat) :
    (pages buf 0 (size / maxDlfwPageSize) p a).or (onPage (size / maxDlfwPageSize)
        (slice buf (size / maxDlfwPageSize * maxDlfwPageSize) 0 (size % maxDlfwPageSize)) p a)
      = image buf size p a := by
  have hdiv := Nat.div_add_mod size maxDlfwPageSize
  have hmod := Nat.mod_lt size (by decide : 0 < maxDlfwPageSize)
  unfold pages onPage slice image
  generalize size / maxDlfwPageSize = q at *
  generalize size % maxDlfwPageSize = r at *
  have hpage : maxDlfwPageSize = 4096 := rfl
  rw [hpage] at hdiv hmod ⊢
  by_cases hlt : p < q
  · rw [if_pos ⟨Nat.zero_le p, hlt⟩, if_neg (Nat.ne_of_lt hlt), Option.or_none]
    refine if_congr ?_ rfl rfl
    omega
  · rw [if_neg fun h => hlt h.2, Option.none_or]
    by_cases heq : p = q
    · rw [if_pos heq, heq]
      refine if_congr ?_ rfl rfl
      omega
    · rw [if_neg heq, if_neg (by omega)]

theorem writeFw_wrote {size : Nat} (hsize : size ≤ fw8723bSize) (c : FwChip) :
    Wrote ok (size / 4 + size % 4) (image buf size) c (writeFw ok buf size c) := by
  simp only [fw8723bSize] at hsize
  have hpages : Wrote ok _ _ c (writePages ok buf (size / maxDlfwPageSize) 0 c) :=
    writePages_wrote _ 0 (by simp only [maxDlfwPageSize]; omega) c
  rw [Nat.zero_add] at hpages
  simp only [writeFw]
  by_cases hrem : size % maxDlfwPageSize = 0
  · rw [if_neg (not_not_intro hrem), ite_self]
    refine hpages.congr ?_ fun p a => ?_
    · simp only [maxDlfwPageSize] at hrem ⊢
      omega
    · rw [← image_eq, hrem]
      have hnone : onPage (size / maxDlfwPageSize)
          (slice buf (size / maxDlfwPageSize * maxDlfwPageSize) 0 0) p a = Option.none := by
        unfold onPage slice
        split
        · exact if_neg (by omega)
        · rfl
      rw [hnone, Option.or_none]
  · rw [if_pos hrem]
    have hlast : size / maxDlfwPageSize < 8 := by
      simp only [maxDlfwPageSize] at hrem ⊢
      omega
    have hrest : ∀ c, Wrote ok _ _ c (pageWrite ok buf (size / maxDlfwPageSize)
        (size / maxDlfwPageSize * maxDlfwPageSize) (size % maxDlfwPageSize) c) :=
      pageWrite_wrote hlast _ _
    have hall := hpages.seq (fun _ => hrest _) fun p a => by
        unfold onPage pages
        by_cases hp : p = size / maxDlfwPageSize
        · exact .inl (if_neg (by omega))
        · exact .inr (if_neg hp)
    refine hall.congr ?_ fun p a => image_eq size p a
    simp only [maxDlfwPageSize]
    omega

end Proofs

end Rtl8723bs
