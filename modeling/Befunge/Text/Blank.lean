/-!
# White space

White space is every character that separates words in any script: the ASCII controls
that move the carriage, the four ASCII separators, and the blanks of Unicode.
-/

namespace Befunge.Blank

/-- The first and last code points of the ranges of white space. -/
def ranges : List (Nat × Nat) :=
  [(0x9, 0xD), (0x1C, 0x20), (0x85, 0x85), (0xA0, 0xA0), (0x1680, 0x1680), (0x2000, 0x200A),
    (0x2028, 0x2029), (0x202F, 0x202F), (0x205F, 0x205F), (0x3000, 0x3000)]

/-- Whether a character is white space. -/
def isBlank (c : Char) : Bool :=
  ranges.any fun (lo, hi) => lo ≤ c.toNat && c.toNat ≤ hi

/-- Whether white space may stand around a number.  The four ASCII separators may not. -/
def isPadding (c : Char) : Bool :=
  isBlank c && !(0x1C ≤ c.toNat && c.toNat ≤ 0x1F)

/-- A text without the characters of a class at its two ends. -/
def stripBy (p : Char → Bool) (text : List Char) : List Char :=
  ((text.dropWhile p).reverse.dropWhile p).reverse

/-- A text without the white space at its two ends. -/
def strip (text : List Char) : List Char := stripBy isBlank text

/-- Every blank of core is white space here. -/
example (c : Char) (h : c.isWhitespace = true) : isBlank c = true := by
  simp only [Char.isWhitespace, Bool.or_eq_true, decide_eq_true_eq] at h
  rcases h with ((rfl | rfl) | rfl) | rfl <;> decide

example : strip "\u3000 a b\n\u00A0".toList = "a b".toList := by decide +kernel

end Befunge.Blank
