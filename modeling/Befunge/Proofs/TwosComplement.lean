import Mathlib.Data.Int.ModEq
import Befunge.Proofs.Brackets
import Befunge.Proofs.Words

/-!
# Arithmetic on 32-bit words

A cell is an integer of any size, and computing with cells wraps the exact result.  The word of a
cell is its residue modulo 2^32 as a row of bits, and wrapping reads that row as a signed number
(`Cell.wrap_eq_toInt`).  Taking the word commutes with sums, differences and products, and with the
bitwise operations, whose operands are endless rows of bits (`Bits.word_and` and its siblings).

So the commands that compute are operations on words (`Execute.computes_on_words`), and whether
their operands were words before makes no difference.
-/

namespace Befunge

/-! ## Words of cells -/

namespace Cell

/-- The residue of a cell as a row of 32 bits. -/
def word (v : Int) : BitVec 32 := BitVec.ofInt 32 v

theorem wrap_eq_toInt (v : Int) : wrap v = (word v).toInt := by
  rw [word, BitVec.toInt_ofInt, wrap]

@[simp] theorem word_wrap (v : Int) : word (wrap v) = word v := by
  rw [wrap_eq_toInt, word, BitVec.ofInt_toInt]

theorem wrap_of_isWord {v : Int} (h : IsWord v) : wrap v = v := by
  rw [IsWord] at h
  exact Int.bmod_eq_of_le (by omega) (by omega)

/-- Two cells have the same word exactly if they are congruent. -/
theorem wrap_eq_wrap_iff (u v : Int) : wrap u = wrap v ↔ u ≡ v [ZMOD 2 ^ 32] := by
  constructor
  · intro h
    have hmod : wrap u % (0x100000000 : Nat) = wrap v % (0x100000000 : Nat) := by rw [h]
    rwa [wrap, wrap, Int.bmod_emod, Int.bmod_emod] at hmod
  · intro h
    have hmod : u % (0x100000000 : Nat) = v % (0x100000000 : Nat) := h
    rw [wrap, wrap, ← Int.emod_bmod u, hmod, Int.emod_bmod]

theorem word_add (a b : Int) : word (a + b) = word a + word b := BitVec.ofInt_add a b

theorem word_mul (a b : Int) : word (a * b) = word a * word b := BitVec.ofInt_mul a b

theorem word_sub (a b : Int) : word (a - b) = word a - word b := by
  rw [Int.sub_eq_add_neg, word_add, BitVec.sub_eq_add_neg, word, word, BitVec.ofInt_neg]
  rfl

end Cell

/-! ## Bits -/

namespace Bits

open Cell

theorem word_ofNat (n : Nat) : word (.ofNat n) = BitVec.ofNat 32 n := BitVec.ofInt_natCast 32 n

theorem word_negSucc (n : Nat) : word (.negSucc n) = ~~~ BitVec.ofNat 32 n :=
  BitVec.ofInt_negSucc_eq_not_ofNat

theorem ofNat_without (m n : Nat) :
    BitVec.ofNat 32 (without m n) = BitVec.ofNat 32 m &&& ~~~ BitVec.ofNat 32 n := by
  rw [without, BitVec.ofNat_xor, BitVec.ofNat_and]
  ext i hi
  simp only [BitVec.getElem_xor, BitVec.getElem_and, BitVec.getElem_not]
  cases (BitVec.ofNat 32 m)[i] <;> simp

theorem word_and (a b : Int) : word (and a b) = word a &&& word b := by
  cases a <;> cases b
  case ofNat.ofNat m n => simp only [and, word_ofNat, BitVec.ofNat_and]
  case ofNat.negSucc m n => simp only [and, word_ofNat, word_negSucc, ofNat_without]
  case negSucc.ofNat m n =>
    simp only [and, word_ofNat, word_negSucc, ofNat_without, BitVec.and_comm]
  case negSucc.negSucc m n => simp only [and, word_negSucc, BitVec.ofNat_or, BitVec.not_or]

theorem word_or (a b : Int) : word (or a b) = word a ||| word b := by
  cases a <;> cases b
  case ofNat.ofNat m n => simp only [or, word_ofNat, BitVec.ofNat_or]
  case ofNat.negSucc m n =>
    simp only [or, word_ofNat, word_negSucc, ofNat_without, BitVec.not_and, BitVec.not_not,
      BitVec.or_comm]
  case negSucc.ofNat m n =>
    simp only [or, word_ofNat, word_negSucc, ofNat_without, BitVec.not_and, BitVec.not_not]
  case negSucc.negSucc m n => simp only [or, word_negSucc, BitVec.ofNat_and, BitVec.not_and]

theorem word_xor (a b : Int) : word (xor a b) = word a ^^^ word b := by
  cases a <;> cases b
  case ofNat.ofNat m n => simp only [xor, word_ofNat, BitVec.ofNat_xor]
  case ofNat.negSucc m n =>
    simp only [xor, word_ofNat, word_negSucc, BitVec.ofNat_xor, BitVec.not_xor_right]
  case negSucc.ofNat m n =>
    simp only [xor, word_ofNat, word_negSucc, BitVec.ofNat_xor, BitVec.not_xor_left]
  case negSucc.negSucc m n =>
    simp only [xor, word_ofNat, word_negSucc, BitVec.ofNat_xor, ← BitVec.not_xor_left,
      ← BitVec.not_xor_right, BitVec.not_not]

theorem word_not (a : Int) : word (not a) = ~~~ word a := by
  have hone : word 1 = 1#32 := rfl
  have hneg : word (-a) = -word a := BitVec.ofInt_neg
  rw [not, word_sub, hneg, hone, BitVec.not_eq_neg_add]

end Bits

/-! ## Commands -/

/-- What a command on two cells computes with their words, where letters mean what bitwise logic
says. -/
def Command.onTwoWords : List (Char × (BitVec 32 → BitVec 32 → BitVec 32)) :=
  [('+', (· + ·)), ('-', (· - ·)), ('*', (· * ·)),
    ('A', (· &&& ·)), ('O', (· ||| ·)), ('X', (· ^^^ ·))]

/-- A character means to a pointer what bitwise logic says of it, if it is a letter. -/
def Pointer.IsLogical (ip : Pointer) (c : Char) : Prop :=
  c ∈ Fingerprint.alphabet → ip.overlay.active c = Fingerprint.bool.meaning? c

theorem Pointer.pop_push (ip : Pointer) (v : Int) : (ip.push v).pop = (v, ip) := rfl

namespace Execute

theorem combine_of_pop {f : Int → Int → Int} {ip popped rest : Pointer} {a b : Int}
    (hb : ip.pop = (b, popped)) (ha : popped.pop = (a, rest)) :
    combine f ip = rest.push (f a b) := by
  simp only [combine, hb, ha]

theorem transform_of_pop {f : Int → Int} {ip rest : Pointer} {a : Int} (ha : ip.pop = (a, rest)) :
    transform f ip = rest.push (f a) := by
  rw [transform, ha]

theorem cell_compute {c : Char} (op : Arithmetic)
    (hc : Command.ofCell? (Cell.ofChar c) = some (.compute op)) (ip : Pointer) (w : World) :
    cell (Cell.ofChar c) ip w = ⟨combine op.apply ip, w, none⟩ := by
  rw [cell, obey, hc]
  rfl

theorem cell_logical {c : Char} {m : Meaning} (hc : c ∈ Fingerprint.alphabet)
    (hm : Fingerprint.bool.meaning? c = some m) {ip : Pointer} (h : ip.IsLogical c) (w : World) :
    cell (Cell.ofChar c) ip w = ⟨mean ip m, w, none⟩ := by
  rw [cell_letter hc, h hc, hm]
  rfl

/-- Wrapping what an operation makes of two cells is an operation on their words, if taking the
word commutes with it. -/
theorem combine_wrap {f : Int → Int → Int} {op : BitVec 32 → BitVec 32 → BitVec 32}
    (h : ∀ a b, Cell.word (f a b) = op (Cell.word a) (Cell.word b)) (ip : Pointer) :
    combine (fun a b => Cell.wrap (f a b)) ip =
      combine (fun a b => (op (Cell.word a) (Cell.word b)).toInt) ip := by
  simp only [Cell.wrap_eq_toInt, h]

theorem cell_onTwoWords {c : Char} {op : BitVec 32 → BitVec 32 → BitVec 32}
    (hc : (c, op) ∈ Command.onTwoWords) {ip : Pointer} (h : ip.IsLogical c) (w : World) :
    cell (Cell.ofChar c) ip w =
      ⟨combine (fun a b => (op (Cell.word a) (Cell.word b)).toInt) ip, w, none⟩ := by
  simp only [Command.onTwoWords, List.mem_cons, Prod.mk.injEq, List.not_mem_nil, or_false] at hc
  rcases hc with ⟨rfl, rfl⟩ | ⟨rfl, rfl⟩ | ⟨rfl, rfl⟩ | ⟨rfl, rfl⟩ | ⟨rfl, rfl⟩ | ⟨rfl, rfl⟩
  · rw [cell_compute .add (by decide +kernel), ← combine_wrap Cell.word_add]
    rfl
  · rw [cell_compute .subtract (by decide +kernel), ← combine_wrap Cell.word_sub]
    rfl
  · rw [cell_compute .multiply (by decide +kernel), ← combine_wrap Cell.word_mul]
    rfl
  · rw [cell_logical (m := .bitAnd) (by decide) rfl h, ← combine_wrap Bits.word_and]
    rfl
  · rw [cell_logical (m := .bitOr) (by decide) rfl h, ← combine_wrap Bits.word_or]
    rfl
  · rw [cell_logical (m := .bitXor) (by decide) rfl h, ← combine_wrap Bits.word_xor]
    rfl

theorem cell_not {ip : Pointer} (h : ip.IsLogical 'N') (w : World) :
    cell (Cell.ofChar 'N') ip w =
      ⟨transform (fun a => (~~~ Cell.word a).toInt) ip, w, none⟩ := by
  rw [cell_logical (m := .bitNot) (by decide) rfl h]
  simp only [← Bits.word_not, ← Cell.wrap_eq_toInt]
  rfl

/-- Wrapping is the identity on words, always gives a word, and gives the same one for congruent
cells.  The sum, the difference and the product of two cells, whatever their size, are the signed
values of the sum, the difference and the product of their words, and so it is with the bitwise
letters.  So it makes no difference whether the operands are wrapped first. -/
theorem computes_on_words :
    (∀ v, Cell.IsWord v → Cell.wrap v = v) ∧
    (∀ v, Cell.IsWord (Cell.wrap v)) ∧
    (∀ u v, u ≡ v [ZMOD 2 ^ 32] → Cell.wrap u = Cell.wrap v) ∧
    (∀ (c : Char) (op : BitVec 32 → BitVec 32 → BitVec 32) (ip popped rest : Pointer) (a b : Int)
        (w : World), (c, op) ∈ Command.onTwoWords → ip.IsLogical c →
        ip.pop = (b, popped) → popped.pop = (a, rest) →
      cell (Cell.ofChar c) ip w =
        ⟨rest.push (op (BitVec.ofInt 32 a) (BitVec.ofInt 32 b)).toInt, w, none⟩ ∧
      cell (Cell.ofChar c) ((rest.push (Cell.wrap a)).push (Cell.wrap b)) w =
        cell (Cell.ofChar c) ip w) ∧
    ∀ (ip rest : Pointer) (a : Int) (w : World), ip.IsLogical 'N' → ip.pop = (a, rest) →
      cell (Cell.ofChar 'N') ip w = ⟨rest.push (~~~ BitVec.ofInt 32 a).toInt, w, none⟩ ∧
      cell (Cell.ofChar 'N') (rest.push (Cell.wrap a)) w = cell (Cell.ofChar 'N') ip w := by
  refine ⟨fun v => Cell.wrap_of_isWord, Cell.isWord_wrap,
    fun u v => (Cell.wrap_eq_wrap_iff u v).mpr, ?_, ?_⟩
  · rintro c op ip popped rest a b w hc h hb ha
    have hpushed : ((rest.push (Cell.wrap a)).push (Cell.wrap b)).IsLogical c := by
      cases hb
      cases ha
      exact h
    have hcell : cell (Cell.ofChar c) ip w =
        ⟨rest.push (op (Cell.word a) (Cell.word b)).toInt, w, none⟩ := by
      rw [cell_onTwoWords hc h, combine_of_pop hb ha]
    refine ⟨hcell, ?_⟩
    rw [cell_onTwoWords hc hpushed, combine_of_pop (Pointer.pop_push _ _) (Pointer.pop_push _ _),
      Cell.word_wrap, Cell.word_wrap, hcell]
  · rintro ip rest a w h ha
    have hpushed : (rest.push (Cell.wrap a)).IsLogical 'N' := by
      cases ha
      exact h
    have hcell : cell (Cell.ofChar 'N') ip w =
        ⟨rest.push (~~~ Cell.word a).toInt, w, none⟩ := by
      rw [cell_not h, transform_of_pop ha]
    refine ⟨hcell, ?_⟩
    rw [cell_not hpushed, transform_of_pop (Pointer.pop_push _ _), Cell.word_wrap, hcell]

/-- A pointer with bitwise logic over numerals and two cells that are no words. -/
def reckoner : Pointer where
  id := 0
  pile := ⟨⟨[2 ^ 32 + 6, -2 ^ 40 - 3, 7]⟩, []⟩
  overlay := (Overlay.load {} .roma).load .bool

/-- A world without a program. -/
def void : World where
  memory := { space := Space.empty }
  console := { input := .ofText [] }
  clock := ⟨2000, 1, 1, 0, 0, 0⟩

theorem computes_on_words_beyond :
    Cell.wrap (-0x80000000) = -0x80000000 ∧ Cell.wrap (2 ^ 40 + 5) = Cell.wrap 5 ∧
    (cell (Cell.ofChar '*') reckoner void).pointer.pile.top = ⟨[-18, 7]⟩ ∧
    (cell (Cell.ofChar 'X') reckoner void).pointer.pile.top = ⟨[-5, 7]⟩ ∧
    (cell (Cell.ofChar 'N') reckoner void).pointer.pile.top = ⟨[-7, -2 ^ 40 - 3, 7]⟩ := by
  obtain ⟨hfixed, -, hclass, htwo, hone⟩ := computes_on_words
  have hproduct := (htwo '*' (· * ·) reckoner _ _ _ _ void (by simp [Command.onTwoWords])
    (fun hletter => absurd hletter (by decide)) rfl rfl).1
  have hxor := (htwo 'X' (· ^^^ ·) reckoner _ _ _ _ void (by simp [Command.onTwoWords])
    (fun _ => rfl) rfl rfl).1
  have hnot := (hone reckoner _ _ void (fun _ => rfl) rfl).1
  refine ⟨hfixed _ (by decide), hclass _ _ (by decide), ?_, ?_, ?_⟩
  · rw [hproduct]
    decide
  · rw [hxor]
    decide
  · rw [hnot]
    decide

end Execute

end Befunge
