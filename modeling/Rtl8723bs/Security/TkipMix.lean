/-
# Is an RC4 key ever used twice?

The comment in `phase2` says that the words of `PPK` are a permutation of TA, IV32 and IV16, for
each temporal key.  Both phases are made of additive rounds: `p1k[i]` and `PPK[i]` are only added
to, and what is added is computed from the word before.  `tkip_mixing_injective` follows, whatever
the S-box is.
-/
import Mathlib.Data.Fin.VecNotation
import Mathlib.Data.Fintype.Basic
import Mathlib.Data.UInt
import Mathlib.Tactic.FinCases
import Rtl8723bs.Lib.Feistel
import Rtl8723bs.Security.Tkip

namespace Rtl8723bs

open Feistel

/-! ## 1. `PPK` -/

/-- `u16 PPK[6]` at the end of `phase2`. -/
structure Ppk where
  w0 : UInt16
  w1 : UInt16
  w2 : UInt16
  w3 : UInt16
  w4 : UInt16
  w5 : UInt16
deriving DecidableEq, Repr

/-- The words of `phase2`, before the key is copied out of them. -/
def phase2Ppk (tk : List UInt8) (p : P1k) (iv16 : UInt16) : Ppk :=
  let p5 := p.w4 + iv16
  let p0 := p.w0 + sBox (p5 ^^^ tk16 tk 0)
  let p1 := p.w1 + sBox (p0 ^^^ tk16 tk 1)
  let p2 := p.w2 + sBox (p1 ^^^ tk16 tk 2)
  let p3 := p.w3 + sBox (p2 ^^^ tk16 tk 3)
  let p4 := p.w4 + sBox (p3 ^^^ tk16 tk 4)
  let p5 := p5 + sBox (p4 ^^^ tk16 tk 5)
  let p0 := p0 + rotR1 (p5 ^^^ tk16 tk 6)
  let p1 := p1 + rotR1 (p0 ^^^ tk16 tk 7)
  let p2 := p2 + rotR1 p1
  let p3 := p3 + rotR1 p2
  let p4 := p4 + rotR1 p3
  let p5 := p5 + rotR1 p4
  ⟨p0, p1, p2, p3, p4, p5⟩

/-- The loop that copies `PPK`, little-endian. -/
def Ppk.bytes (p : Ppk) : List UInt8 :=
  [p.w0, p.w1, p.w2, p.w3, p.w4, p.w5].flatMap fun w => [lo8 w, hi8 w]

/-- `PPK` is the RC4 key from its fifth byte on. -/
theorem phase2_eq (tk : List UInt8) (p : P1k) (iv16 : UInt16) :
    phase2 tk p iv16 = [hi8 iv16, (hi8 iv16 ||| 0x20) &&& 0x7f, lo8 iv16,
      lo8 (((phase2Ppk tk p iv16).w5 ^^^ tk16 tk 0) >>> 1)] ++ (phase2Ppk tk p iv16).bytes := rfl

/-! ## 2. The phases as rounds -/

/-- `p1k` as a register. -/
def P1k.word (p : P1k) : Fin 5 → UInt16 := ![p.w0, p.w1, p.w2, p.w3, p.w4]

/-- The six words of `phase2`; `PPK[5]` begins as IV16. -/
def ppkStart (p : P1k) (iv16 : UInt16) : Fin 6 → UInt16 := ![p.w0, p.w1, p.w2, p.w3, p.w4, iv16]

def Ppk.word (p : Ppk) : Fin 6 → UInt16 := ![p.w0, p.w1, p.w2, p.w3, p.w4, p.w5]

/-- `p[i] += _S_(p[j] ^ TK16(n))`. -/
def sRound {k : Nat} (tk : List UInt8) (i j : Fin k) (hij : j ≠ i) (n : Nat) :
    Round (Fin k) UInt16 :=
  .of i j hij fun v => sBox (v ^^^ tk16 tk n)

/-- The rounds of one turn of `phase1`; the last one avoids slide attacks. -/
def phase1Rounds (tk : List UInt8) (i : Nat) : List (Round (Fin 5) UInt16) :=
  [sRound tk 0 4 (by decide) (i % 2 + 0), sRound tk 1 0 (by decide) (i % 2 + 2),
    sRound tk 2 1 (by decide) (i % 2 + 4), sRound tk 3 2 (by decide) (i % 2 + 6),
    sRound tk 4 3 (by decide) (i % 2 + 0), .of 4 3 (by decide) fun _ => UInt16.ofNat i]

/-- The rounds of `phase2`: IV16, the mixing, and the final sweep. -/
def phase2Rounds (tk : List UInt8) : List (Round (Fin 6) UInt16) :=
  [.of 5 4 (by decide) id,
    sRound tk 0 5 (by decide) 0, sRound tk 1 0 (by decide) 1, sRound tk 2 1 (by decide) 2,
    sRound tk 3 2 (by decide) 3, sRound tk 4 3 (by decide) 4, sRound tk 5 4 (by decide) 5,
    .of 0 5 (by decide) fun v => rotR1 (v ^^^ tk16 tk 6),
    .of 1 0 (by decide) fun v => rotR1 (v ^^^ tk16 tk 7),
    .of 2 1 (by decide) rotR1, .of 3 2 (by decide) rotR1, .of 4 3 (by decide) rotR1,
    .of 5 4 (by decide) rotR1]

/-- A turn of `phase1` is its rounds. -/
theorem phase1Round_word (tk : List UInt8) (p : P1k) (i : Nat) :
    (phase1Round tk p i).word = run (phase1Rounds tk i) p.word := by
  funext k
  fin_cases k <;> simp [phase1Round, phase1Rounds, P1k.word, sRound, Round.of, Round.apply]

/-- `phase1` is the rounds of its eight turns. -/
theorem phase1_word (tk : List UInt8) (l : List Nat) (p : P1k) :
    (l.foldl (phase1Round tk) p).word = run (l.flatMap (phase1Rounds tk)) p.word := by
  induction l generalizing p with
  | nil => rfl
  | cons i l ih => rw [List.foldl_cons, ih, phase1Round_word, List.flatMap_cons, run_append]

/-- `phase2` is its rounds. -/
theorem phase2Ppk_word (tk : List UInt8) (p : P1k) (iv16 : UInt16) :
    (phase2Ppk tk p iv16).word = run (phase2Rounds tk) (ppkStart p iv16) := by
  have hiv : p.w4 + iv16 = iv16 + p.w4 := add_comm _ _
  funext k
  fin_cases k <;>
    simp [phase2Ppk, phase2Rounds, Ppk.word, ppkStart, sRound, Round.of, Round.apply, hiv]

/-! ## 3. What the words are made of -/

theorem lo8_mk16 (hi lo : UInt8) : lo8 (mk16 hi lo) = lo := by
  apply UInt8.toBitVec_inj.mp
  ext i hi'
  simp [lo8, mk16]

theorem hi8_mk16 (hi lo : UInt8) : hi8 (mk16 hi lo) = hi := by
  apply UInt8.toBitVec_inj.mp
  ext i hi'
  have hword : 8 + i < 16 := by omega
  have hbyte : i < 16 := by omega
  simp [hi8, mk16, hword, hbyte, BitVec.getLsbD_eq_getElem hi']

theorem mk16_inj {hi lo hi' lo' : UInt8} (h : mk16 hi lo = mk16 hi' lo') : hi = hi' ∧ lo = lo' := by
  have hhi := congrArg hi8 h
  have hlo := congrArg lo8 h
  rw [hi8_mk16, hi8_mk16] at hhi
  rw [lo8_mk16, lo8_mk16] at hlo
  exact ⟨hhi, hlo⟩

/-- A word is its two bytes. -/
theorem bytes_inj {v w : UInt16} (hlo : lo8 v = lo8 w) (hhi : hi8 v = hi8 w) : v = w := by
  have hlo := congrArg UInt8.toNat hlo
  have hhi := congrArg UInt8.toNat hhi
  simp only [lo8, hi8, UInt16.toNat_toUInt8, UInt16.toNat_shiftRight, Nat.shiftRight_eq_div_pow,
    UInt16.toNat_ofNat, Nat.reducePow, Nat.reduceMod] at hlo hhi
  have hv := v.toNat_lt
  have hw := w.toNat_lt
  apply UInt16.toNat_inj.mp
  omega

/-- A double word is its two words. -/
theorem halves_inj {v w : UInt32} (hlo : v.toUInt16 = w.toUInt16)
    (hhi : (v >>> 16).toUInt16 = (w >>> 16).toUInt16) : v = w := by
  have hlo := congrArg UInt16.toNat hlo
  have hhi := congrArg UInt16.toNat hhi
  simp only [UInt32.toNat_toUInt16, UInt32.toNat_shiftRight, Nat.shiftRight_eq_div_pow,
    UInt32.toNat_ofNat, Nat.reducePow, Nat.reduceMod] at hlo hhi
  have hv := v.toNat_lt
  have hw := w.toNat_lt
  apply UInt32.toNat_inj.mp
  omega

theorem P1k.word_injective : Function.Injective P1k.word := by
  intro p q h
  have hword := congrFun h
  obtain ⟨p0, p1, p2, p3, p4⟩ := p
  obtain ⟨q0, q1, q2, q3, q4⟩ := q
  obtain rfl : p0 = q0 := hword 0
  obtain rfl : p1 = q1 := hword 1
  obtain rfl : p2 = q2 := hword 2
  obtain rfl : p3 = q3 := hword 3
  obtain rfl : p4 = q4 := hword 4
  rfl

theorem ppkStart_injective {p q : P1k} {v w : UInt16} (h : ppkStart p v = ppkStart q w) :
    p = q ∧ v = w := by
  have hword := congrFun h
  have hp : p.word = q.word := by
    funext k
    fin_cases k
    · exact hword 0
    · exact hword 1
    · exact hword 2
    · exact hword 3
    · exact hword 4
  exact ⟨P1k.word_injective hp, hword 5⟩

theorem Ppk.bytes_injective : Function.Injective Ppk.bytes := by
  intro p q h
  simp only [bytes, List.flatMap_cons, List.flatMap_nil, List.append_nil, List.cons_append,
    List.nil_append, List.cons.injEq, and_true] at h
  obtain ⟨l0, h0, l1, h1, l2, h2, l3, h3, l4, h4, l5, h5⟩ := h
  obtain ⟨p0, p1, p2, p3, p4, p5⟩ := p
  obtain ⟨q0, q1, q2, q3, q4, q5⟩ := q
  simp only [Ppk.mk.injEq]
  exact ⟨bytes_inj l0 h0, bytes_inj l1 h1, bytes_inj l2 h2, bytes_inj l3 h3, bytes_inj l4 h4,
    bytes_inj l5 h5⟩

/-! ## 4. No value twice -/

/-- **`phase1` is injective**: no two transmitters share a value, and no two IV32. -/
theorem phase1_injective (tk : List UInt8) {ta ta' : MacAddr} {iv32 iv32' : UInt32}
    (h : phase1 tk ta iv32 = phase1 tk ta' iv32') : ta = ta' ∧ iv32 = iv32' := by
  have hword := congrArg P1k.word h
  rw [phase1, phase1, phase1_word, phase1_word] at hword
  have hstart := P1k.word_injective ((run_bijective _).injective hword)
  rw [P1k.mk.injEq] at hstart
  obtain ⟨hlo, hhi, h01, h23, h45⟩ := hstart
  obtain ⟨h1, h0⟩ := mk16_inj h01
  obtain ⟨h3, h2⟩ := mk16_inj h23
  obtain ⟨h5, h4⟩ := mk16_inj h45
  refine ⟨?_, halves_inj hlo hhi⟩
  obtain ⟨b0, b1, b2, b3, b4, b5⟩ := ta
  rw [MacAddr.mk.injEq]
  exact ⟨h0, h1, h2, h3, h4, h5⟩

/-- **`phase2` is injective** before the key is copied out. -/
theorem phase2Ppk_injective (tk : List UInt8) {p q : P1k} {v w : UInt16}
    (h : phase2Ppk tk p v = phase2Ppk tk q w) : p = q ∧ v = w := by
  have hword := congrArg Ppk.word h
  rw [phase2Ppk_word, phase2Ppk_word] at hword
  exact ppkStart_injective ((run_bijective _).injective hword)

/-- **No `PPK` and no RC4 key is used twice**: for each temporal key they are different for each
transmitter's address, IV32 and IV16. -/
theorem tkip_mixing_injective (tk : List UInt8) :
    (Function.Injective fun x : MacAddr × UInt32 × UInt16 =>
      phase2Ppk tk (phase1 tk x.1 x.2.1) x.2.2) ∧
    Function.Injective fun x : MacAddr × UInt32 × UInt16 =>
      phase2 tk (phase1 tk x.1 x.2.1) x.2.2 := by
  have hppk : Function.Injective fun x : MacAddr × UInt32 × UInt16 =>
      phase2Ppk tk (phase1 tk x.1 x.2.1) x.2.2 := by
    rintro ⟨ta, iv32, iv16⟩ ⟨ta', iv32', iv16'⟩ h
    dsimp only at h
    obtain ⟨hp1k, rfl⟩ := phase2Ppk_injective tk h
    obtain ⟨rfl, rfl⟩ := phase1_injective tk hp1k
    rfl
  refine ⟨hppk, fun x y h => hppk ?_⟩
  dsimp only at h ⊢
  -- the key ends with the bytes of `PPK`
  rw [phase2_eq, phase2_eq] at h
  apply Ppk.bytes_injective
  refine (List.append_inj h ?_).2
  rw [List.length_cons, List.length_cons, List.length_cons, List.length_cons]
  rfl

end Rtl8723bs
