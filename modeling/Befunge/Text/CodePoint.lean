/-!
# Code points

A text that comes from outside is a row of code points.  Most of them are characters.  The
surrogates are not: they stand in a text for what could not be read as characters.
-/

namespace Befunge

/-- A code point. -/
abbrev CodePoint := Fin 0x110000

namespace CodePoint

/-- A code point that is no character. -/
def IsSurrogate (p : CodePoint) : Prop := 0xD800 ≤ p.val ∧ p.val < 0xE000

instance (p : CodePoint) : Decidable p.IsSurrogate := inferInstanceAs (Decidable (_ ∧ _))

/-- The code point of a character. -/
def ofChar (c : Char) : CodePoint :=
  ⟨c.toNat, by
    have hvalid := c.valid
    simp only [UInt32.isValidChar, Nat.isValidChar] at hvalid
    show c.val.toNat < 0x110000
    omega⟩

/-- The code points of a text without surrogates. -/
def ofChars (text : List Char) : List CodePoint := text.map ofChar

/-- The cell of a code point. -/
def cell (p : CodePoint) : Int := Int.ofNat p.val

end CodePoint

end Befunge
