/-!
# Bitwise logic on integers

An integer is read as an endless row of bits, negative ones with a tail of ones.
A negative number `-(n + 1)` has the bits of `n` inverted, so every operation on
integers is one on natural numbers up to inverting operands or results.
-/

namespace Befunge.Bits

/-- The bits of `m` that `n` does not have. -/
def without (m n : Nat) : Nat := m ^^^ (m &&& n)

/-- Every bit inverted. -/
def not (a : Int) : Int := -a - 1

/-- The bits both numbers have. -/
def and : Int → Int → Int
  | .ofNat m, .ofNat n => .ofNat (m &&& n)
  | .ofNat m, .negSucc n => .ofNat (without m n)
  | .negSucc m, .ofNat n => .ofNat (without n m)
  | .negSucc m, .negSucc n => .negSucc (m ||| n)

/-- The bits either number has. -/
def or : Int → Int → Int
  | .ofNat m, .ofNat n => .ofNat (m ||| n)
  | .ofNat m, .negSucc n => .negSucc (without n m)
  | .negSucc m, .ofNat n => .negSucc (without m n)
  | .negSucc m, .negSucc n => .negSucc (m &&& n)

/-- The bits exactly one of the numbers has. -/
def xor : Int → Int → Int
  | .ofNat m, .ofNat n => .ofNat (m ^^^ n)
  | .ofNat m, .negSucc n => .negSucc (m ^^^ n)
  | .negSucc m, .ofNat n => .negSucc (m ^^^ n)
  | .negSucc m, .negSucc n => .ofNat (m ^^^ n)

example : and (-1) 12 = 12 ∧ and (-2) 7 = 6 ∧ and (-4) (-6) = -8 := by decide

example : or (-8) 3 = -5 ∧ or 12 3 = 15 ∧ or (-4) (-6) = -2 := by decide

example : xor (-1) 5 = -6 ∧ xor 6 3 = 5 ∧ xor (-1) (-6) = 5 := by decide

example : not 0 = -1 ∧ not (-6) = 5 := by decide

end Befunge.Bits
