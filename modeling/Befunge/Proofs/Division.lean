import Mathlib.Data.Rat.Floor
import Befunge.Proofs.TwosComplement

/-!
# Division and remainders

The quotient of two cells is the exact quotient, a rational number, rounded toward zero and then
wrapped.  The remainder is what the wrapped quotient leaves, wrapped once more.  Wrapping changes a
quotient by a multiple of 2^32 and so a remainder by another, which the second wrap takes away
(`Cell.remainder_eq_wrap_tmod`).

On words the remainder is therefore exact.  The quotient is exact as well, but for the least word
divided by minus one (`Cell.isWord_tdiv_iff`).  Three letters give other remainders, and all five
agree on a divisor of zero (`Execute.division_fits_together`).
-/

namespace Befunge

namespace Cell

/-- A rational number without its fraction. -/
def towardZero (q : ℚ) : Int := if 0 ≤ q then ⌊q⌋ else ⌈q⌉

/-! ## Exact quotients -/

theorem towardZero_div_natCast (a : Int) {n : Nat} (hn : 0 < n) :
    towardZero (a / n) = a.tdiv n := by
  have hpos : (0 : ℚ) < n := Nat.cast_pos.mpr hn
  rw [towardZero]
  rcases le_or_gt 0 a with ha | ha
  · rw [if_pos (div_nonneg (Int.cast_nonneg ha) hpos.le), Rat.floor_intCast_div_natCast,
      Int.tdiv_eq_ediv_of_nonneg ha]
  · have hneg : (a : ℚ) / n < 0 := div_neg_of_neg_of_pos (Int.cast_lt_zero.mpr ha) hpos
    have hquot : (-a).tdiv n = -a / n := Int.tdiv_eq_ediv_of_nonneg (by omega)
    rw [if_neg (not_le.mpr hneg), Rat.ceil_intCast_div_natCast, ← hquot, Int.neg_tdiv, Int.neg_neg]

theorem towardZero_div (a : Int) {b : Int} (hb : b ≠ 0) : towardZero (a / b) = a.tdiv b := by
  obtain ⟨n, rfl | rfl⟩ := b.eq_nat_or_neg
  · rw [Int.cast_natCast, towardZero_div_natCast a (by omega)]
  · have hflip : (a : ℚ) / ((-n : Int) : ℚ) = ((-a : Int) : ℚ) / n := by
      rw [Int.cast_neg, Int.cast_neg, Int.cast_natCast, div_neg, neg_div]
    rw [hflip, towardZero_div_natCast (-a) (by omega), Int.neg_tdiv, Int.tdiv_neg]

theorem natAbs_tmod_lt (a : Int) {b : Int} (hb : b ≠ 0) : (a.tmod b).natAbs < b.natAbs := by
  rw [Int.natAbs_tmod]
  exact Nat.mod_lt _ (Int.natAbs_pos.mpr hb)

theorem tmod_eq_zero_or_sign (a b : Int) : a.tmod b = 0 ∨ (a.tmod b).sign = a.sign := by
  have hsign := a.sign_tmod b
  split at hsign
  next => exact .inl (Int.sign_eq_zero_iff_zero.mp hsign)
  next => exact .inr hsign

/-! ## Quotients and remainders of cells -/

theorem wrap_eq_self_iff (v : Int) : wrap v = v ↔ IsWord v :=
  ⟨fun h => h ▸ isWord_wrap v, wrap_of_isWord⟩

theorem divide_eq_wrap (a : Int) {b : Int} (hb : b ≠ 0) :
    divide a b = wrap (towardZero (a / b)) := by
  rw [divide, if_neg hb, towardZero_div a hb]

/-- The remainder is computed with the wrapped quotient, whose word is that of the exact one. -/
theorem remainder_eq_wrap_tmod (a : Int) {b : Int} (hb : b ≠ 0) :
    remainder a b = wrap (a.tmod b) := by
  have hword : word (a - b * wrap (a.tdiv b)) = word (a - b * a.tdiv b) := by
    rw [word_sub, word_mul, word_wrap, ← word_mul, ← word_sub]
  rw [remainder, if_neg hb, divide, if_neg hb, wrap_eq_toInt, hword, ← wrap_eq_toInt, Int.tmod_def]

theorem tmod_eq_sub (a : Int) {b : Int} (hb : b ≠ 0) :
    a.tmod b = a - b * towardZero (a / b) := by
  rw [towardZero_div a hb, Int.tmod_def]

/-- What is multiplied back and added up has the word of the dividend. -/
theorem wrap_divide_remainder (a : Int) {b : Int} (hb : b ≠ 0) :
    wrap (b * divide a b + remainder a b) = wrap a := by
  have hword : word (b * divide a b + remainder a b) = word (b * a.tdiv b + a.tmod b) := by
    rw [remainder_eq_wrap_tmod a hb, divide, if_neg hb, word_add, word_mul, word_wrap, word_wrap,
      ← word_mul, ← word_add]
  rw [wrap_eq_toInt, hword, ← wrap_eq_toInt, Int.mul_tdiv_add_tmod]

section

variable {a b : Int}

theorem isWord_of_natAbs_lt (hb : IsWord b) {v : Int} (h : v.natAbs < b.natAbs) : IsWord v := by
  rw [IsWord] at hb ⊢
  omega

theorem remainder_eq_tmod (hb : IsWord b) (hzero : b ≠ 0) : remainder a b = a.tmod b := by
  rw [remainder_eq_wrap_tmod a hzero]
  exact wrap_of_isWord (isWord_of_natAbs_lt hb (natAbs_tmod_lt a hzero))

/-- Of all quotients of words a single one is no word. -/
theorem isWord_tdiv_iff (ha : IsWord a) (hzero : b ≠ 0) :
    IsWord (a.tdiv b) ↔ ¬ (a = -2 ^ 31 ∧ b = -1) := by
  rw [IsWord] at ha ⊢
  by_cases hunit : b.natAbs = 1
  · obtain rfl | rfl : b = 1 ∨ b = -1 := by omega
    · rw [Int.tdiv_one]
      omega
    · rw [Int.tdiv_neg, Int.tdiv_one]
      omega
  · -- A divisor of two or more leaves at most half of the dividend.
    have hquot : (a.tdiv b).natAbs = a.natAbs / b.natAbs := Int.natAbs_tdiv a b
    have hhalf : a.natAbs / b.natAbs ≤ a.natAbs / 2 := Nat.div_le_div_left (by omega) (by decide)
    omega

theorem divide_eq_iff (ha : IsWord a) (hzero : b ≠ 0) :
    divide a b = towardZero (a / b) ↔ ¬ (a = -2 ^ 31 ∧ b = -1) := by
  rw [divide_eq_wrap a hzero, wrap_eq_self_iff, towardZero_div a hzero, isWord_tdiv_iff ha hzero]

/-! ## Other remainders -/

theorem fmod_modEq (a b : Int) : a.fmod b ≡ a [ZMOD b] :=
  Int.modEq_iff_dvd.mpr Int.dvd_self_sub_fmod

theorem fmod_signed (a : Int) (hzero : b ≠ 0) :
    (a.fmod b).natAbs < b.natAbs ∧ (a.fmod b = 0 ∨ (a.fmod b).sign = b.sign) := by
  rcases Int.lt_or_gt_of_ne hzero with hneg | hpos
  · have hlt := Int.fmod_lt_of_pos (-a) (Int.neg_pos_of_neg hneg)
    have hle := Int.fmod_nonneg_of_pos (-a) (Int.neg_pos_of_neg hneg)
    rw [Int.neg_fmod_neg] at hlt hle
    rw [Int.sign_eq_neg_one_of_neg hneg, Int.sign_eq_neg_one_iff_neg]
    omega
  · have hlt := Int.fmod_lt_of_pos a hpos
    have hle := Int.fmod_nonneg_of_pos a hpos
    rw [Int.sign_eq_one_of_pos hpos, Int.sign_eq_one_iff_pos]
    omega

theorem isWord_floored (a b : Int) : IsWord (floored a b) := by
  rw [floored]
  split
  · exact isWord_zero
  · exact isWord_wrap _

theorem floored_eq_fmod (hb : IsWord b) (hzero : b ≠ 0) : floored a b = a.fmod b := by
  rw [floored, if_neg hzero]
  exact wrap_of_isWord (isWord_of_natAbs_lt hb (fmod_signed a hzero).1)

/-- The remainder without its sign is a word.  The least word has no magnitude that is one, but a
remainder is less than what is divided by. -/
theorem wrap_magnitude (hb : IsWord b) : wrap (magnitude a b) = magnitude a b := by
  apply wrap_of_isWord
  by_cases hzero : b = 0
  · subst hzero
    rw [magnitude, remainder, if_pos rfl]
    decide
  · refine isWord_of_natAbs_lt hb ?_
    rw [magnitude, remainder_eq_tmod hb hzero]
    exact natAbs_tmod_lt a hzero

end

end Cell

/-! ## Commands -/

/-- The commands that divide, where letters mean what the fingerprint of remainders says. -/
def Command.divisions : List (Char × (Int → Int → Int)) :=
  [('/', Cell.divide), ('%', Cell.remainder), ('M', Cell.floored), ('U', Cell.magnitude),
    ('R', Cell.remainder)]

/-- A character means to a pointer what the fingerprint of remainders says of it, if it is a
letter. -/
def Pointer.IsModular (ip : Pointer) (c : Char) : Prop :=
  c ∈ Fingerprint.alphabet → ip.overlay.active c = Fingerprint.modu.meaning? c

namespace Execute

theorem cell_modular {c : Char} {m : Meaning} (hc : c ∈ Fingerprint.alphabet)
    (hm : Fingerprint.modu.meaning? c = some m) {ip : Pointer} (h : ip.IsModular c) (w : World) :
    cell (Cell.ofChar c) ip w = ⟨mean ip m, w, none⟩ := by
  rw [cell_letter hc, h hc, hm]
  rfl

theorem cell_division {c : Char} {f : Int → Int → Int} (hc : (c, f) ∈ Command.divisions)
    {ip popped rest : Pointer} {a b : Int} (h : ip.IsModular c) (hpop : ip.pop = (b, popped))
    (hpop' : popped.pop = (a, rest)) (hb : Cell.IsWord b) (w : World) :
    cell (Cell.ofChar c) ip w = ⟨rest.push (f a b), w, none⟩ := by
  simp only [Command.divisions, List.mem_cons, Prod.mk.injEq, List.not_mem_nil, or_false] at hc
  rcases hc with ⟨rfl, rfl⟩ | ⟨rfl, rfl⟩ | ⟨rfl, rfl⟩ | ⟨rfl, rfl⟩ | ⟨rfl, rfl⟩
  · rw [cell_compute .divide (by decide +kernel), combine_of_pop hpop hpop', Arithmetic.apply]
  · rw [cell_compute .remainder (by decide +kernel), combine_of_pop hpop hpop', Arithmetic.apply]
  · rw [cell_modular (m := .floored) (by decide) rfl h, mean, combine_of_pop hpop hpop',
      Cell.wrap_of_isWord (Cell.isWord_floored a b)]
  · rw [cell_modular (m := .magnitude) (by decide) rfl h, mean, combine_of_pop hpop hpop',
      Cell.wrap_magnitude hb]
  · rw [cell_modular (m := .truncated) (by decide) rfl h, mean, combine_of_pop hpop hpop',
      Cell.wrap_of_isWord (Cell.isWord_remainder a b)]

/-- Division and the remainders fit together.

* For all cells with a divisor other than zero the quotient is the exact one rounded toward zero and
  wrapped, and the remainder is what the rounded quotient leaves, wrapped.
* For words the remainder is exact, smaller than the divisor and zero or of the sign of the
  dividend.  The quotient is exact but for the least word divided by minus one, which is the least
  word again.  The divisor times the quotient and the remainder give the dividend, up to wrapping.
* For words the three letters give the remainder with the sign of the divisor, the one without a
  sign, and the one with the sign of the dividend.
* A divisor of zero gives zero. -/
theorem division_fits_together :
    (∀ a b : Int, b ≠ 0 →
      Cell.divide a b = Cell.wrap (Cell.towardZero (a / b)) ∧
      Cell.remainder a b = Cell.wrap (a - b * Cell.towardZero (a / b))) ∧
    (∀ a b : Int, Cell.IsWord a → Cell.IsWord b → b ≠ 0 →
      (Cell.remainder a b = a - b * Cell.towardZero (a / b) ∧
        (Cell.remainder a b).natAbs < b.natAbs ∧
        (Cell.remainder a b = 0 ∨ (Cell.remainder a b).sign = a.sign)) ∧
      (Cell.divide a b = Cell.towardZero (a / b) ↔ ¬ (a = -2 ^ 31 ∧ b = -1)) ∧
      Cell.wrap (b * Cell.divide a b + Cell.remainder a b) = a ∧
      (Cell.floored a b ≡ a [ZMOD b] ∧ (Cell.floored a b).natAbs < b.natAbs ∧
        (Cell.floored a b = 0 ∨ (Cell.floored a b).sign = b.sign)) ∧
      Cell.magnitude a b = (a - b * Cell.towardZero (a / b)).natAbs) ∧
    Cell.divide (-2 ^ 31) (-1) = -2 ^ 31 ∧
    (∀ c f, (c, f) ∈ Command.divisions → ∀ a, f a 0 = 0) ∧
    ∀ (c : Char) (f : Int → Int → Int) (ip popped rest : Pointer) (a b : Int) (w : World),
      (c, f) ∈ Command.divisions → ip.IsModular c → ip.pop = (b, popped) →
      popped.pop = (a, rest) → Cell.IsWord b →
      cell (Cell.ofChar c) ip w = ⟨rest.push (f a b), w, none⟩ := by
  refine ⟨fun a b hb => ⟨Cell.divide_eq_wrap a hb, ?_⟩, fun a b ha hb hzero => ?_, by decide, ?_,
    fun c f ip popped rest a b w hc h hpop hpop' hb => cell_division hc h hpop hpop' hb w⟩
  · rw [Cell.remainder_eq_wrap_tmod a hb, Cell.tmod_eq_sub a hb]
  · have hremainder : Cell.remainder a b = a.tmod b := Cell.remainder_eq_tmod hb hzero
    have hfloored : Cell.floored a b = a.fmod b := Cell.floored_eq_fmod hb hzero
    refine ⟨?_, Cell.divide_eq_iff ha hzero, ?_, ?_, ?_⟩
    · rw [hremainder, ← Cell.tmod_eq_sub a hzero]
      exact ⟨rfl, Cell.natAbs_tmod_lt a hzero, Cell.tmod_eq_zero_or_sign a b⟩
    · rw [Cell.wrap_divide_remainder a hzero, Cell.wrap_of_isWord ha]
    · rw [hfloored]
      exact ⟨Cell.fmod_modEq a b, Cell.fmod_signed a hzero⟩
    · rw [Cell.magnitude, hremainder, Cell.tmod_eq_sub a hzero]
      rfl
  · intro c f hc a
    simp only [Command.divisions, List.mem_cons, Prod.mk.injEq, List.not_mem_nil, or_false] at hc
    rcases hc with ⟨-, rfl⟩ | ⟨-, rfl⟩ | ⟨-, rfl⟩ | ⟨-, rfl⟩ | ⟨-, rfl⟩ <;> rfl

/-- A pointer with the three remainders over numerals, about to divide the least word. -/
def sharer : Pointer where
  id := 0
  pile := ⟨⟨[-3, -2 ^ 31, 5]⟩, []⟩
  overlay := (Overlay.load {} .roma).load .modu

theorem division_fits_together_least :
    Cell.divide (-2 ^ 31) (-3) = 715827882 ∧ Cell.remainder (-2 ^ 31) (-3) = -2 ∧
    Cell.wrap (-3 * Cell.divide (-2 ^ 31) (-3) + Cell.remainder (-2 ^ 31) (-3)) = -2 ^ 31 ∧
    (cell (Cell.ofChar '/') sharer void).pointer.pile.top = ⟨[715827882, 5]⟩ ∧
    (cell (Cell.ofChar 'M') sharer void).pointer.pile.top = ⟨[-2, 5]⟩ ∧
    (cell (Cell.ofChar 'U') sharer void).pointer.pile.top = ⟨[2, 5]⟩ := by
  obtain ⟨-, hwords, -, -, hcell⟩ := division_fits_together
  have hback := (hwords (-2 ^ 31) (-3) (by decide) (by decide) (by decide)).2.2.1
  have hquot := hcell '/' Cell.divide sharer _ _ _ _ void (by simp [Command.divisions])
    (fun hletter => absurd hletter (by decide)) rfl rfl (by decide)
  have hfloored := hcell 'M' Cell.floored sharer _ _ _ _ void (by simp [Command.divisions])
    (fun _ => rfl) rfl rfl (by decide)
  have hmagnitude := hcell 'U' Cell.magnitude sharer _ _ _ _ void (by simp [Command.divisions])
    (fun _ => rfl) rfl rfl (by decide)
  refine ⟨by decide, by decide, hback, ?_, ?_, ?_⟩
  · rw [hquot]
    decide
  · rw [hfloored]
    decide
  · rw [hmagnitude]
    decide

end Execute

end Befunge
