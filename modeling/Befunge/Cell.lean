import Befunge.Bits

/-!
# Cells

A cell is what a stack or the program space holds at one place.  Arithmetic is
that of signed 32-bit words, reached by wrapping the exact result.  Storing and
pushing do not wrap, so a cell is kept as an integer of any size.

A cell stands for a character if it is a Unicode scalar value.
-/

namespace Befunge.Cell

/-! ## Characters -/

/-- The cell of a blank. -/
def blank : Int := 32

/-- The cell of the mark that opens and closes a comment. -/
def semicolon : Int := 59

/-- The cell of the mark that opens and closes a string. -/
def quote : Int := 34

/-- The cell of a character. -/
def ofChar (c : Char) : Int := Int.ofNat c.toNat

theorem ofChar_ne {c d : Char} (h : c ≠ d) : ofChar c ≠ ofChar d :=
  fun hsame => h (Char.toNat_inj.mp (Int.ofNat.inj hsame))

/-- The character a cell stands for, if it is a Unicode scalar value. -/
def char? (v : Int) : Option Char :=
  match v with
  | .ofNat n => if n.isValidChar then some (Char.ofNat n) else none
  | .negSucc _ => none

/-- The character shown for a cell: a cell that is no character shows as the
replacement character. -/
def shown (v : Int) : Char := (char? v).getD (Char.ofNat 0xFFFD)

@[simp] theorem char?_ofChar (c : Char) : char? (ofChar c) = some c := by
  have hvalid : c.toNat.isValidChar := c.valid
  rw [ofChar, char?, if_pos hvalid, Char.ofNat_toNat]

@[simp] theorem shown_ofChar (c : Char) : shown (ofChar c) = c := by
  rw [shown, char?_ofChar, Option.getD_some]

/-! ## Words -/

/-- A signed 32-bit word. -/
def IsWord (v : Int) : Prop := -0x80000000 ≤ v ∧ v < 0x80000000

instance (v : Int) : Decidable (IsWord v) := inferInstanceAs (Decidable (_ ∧ _))

/-- The word congruent to `v`. -/
def wrap (v : Int) : Int := v.bmod 0x100000000

/-- The quotient rounded toward zero.  Division by zero gives zero. -/
def divide (a b : Int) : Int :=
  if b = 0 then 0 else wrap (a.tdiv b)

/-- What the wrapped quotient leaves of `a`.  Division by zero leaves zero. -/
def remainder (a b : Int) : Int :=
  if b = 0 then 0 else wrap (a - b * divide a b)

/-- The remainder with the sign of `b`. -/
def floored (a b : Int) : Int :=
  if b = 0 then 0 else wrap (a.fmod b)

/-- The remainder without its sign. -/
def magnitude (a b : Int) : Int :=
  Int.ofNat (remainder a b).natAbs

/-- A truth value as a cell. -/
def ofBool (b : Bool) : Int := if b then 1 else 0

example : wrap 0x80000000 = -0x80000000 ∧ wrap (-0x80000000) = -0x80000000 ∧
    wrap 0x100000005 = 5 := by decide

/-- The one quotient of words that is not a word wraps to the least word. -/
example : divide (-0x80000000) (-1) = -0x80000000 ∧ remainder (-0x80000000) (-1) = 0 := by decide

example : divide (-7) 2 = -3 ∧ remainder (-7) 2 = -1 ∧ floored (-7) 2 = 1 ∧
    magnitude (-7) 2 = 1 := by decide

example : char? 0xD800 = none ∧ char? (-1) = none ∧ char? 0x110000 = none ∧
    char? 65 = some 'A' := by decide

end Befunge.Cell
