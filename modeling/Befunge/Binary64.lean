/-!
# Floating-point rounding

Durations are held as binary floating-point numbers with 53 significant bits.  Rounding
goes to the nearest such number, and a tie to the one with an even last bit.  All
arithmetic here is exact on natural numbers, so a result is a significand with the
power of two it is scaled by.
-/

namespace Befunge.Binary64

/-- A quotient rounded to the nearest integer, a tie to the even one. -/
def roundDiv (a b : Nat) : Nat :=
  let q := a / b
  let r := a % b
  if 2 * r < b then q
  else if b < 2 * r then q + 1
  else q + q % 2

/-- A number `significand * 2 ^ exponent`. -/
structure Scaled where
  /-- The significand. -/
  significand : Nat
  /-- The power of two. -/
  exponent : Int
deriving DecidableEq, Repr

namespace Scaled

/-- The number as a fraction. -/
def fraction (v : Scaled) : Nat × Nat :=
  (v.significand <<< v.exponent.toNat, 1 <<< (-v.exponent).toNat)

/-- The nearest integer, a tie to the even one. -/
def round (v : Scaled) : Nat := roundDiv v.fraction.1 v.fraction.2

/-- The least integer that is not less. -/
def ceil (v : Scaled) : Nat := (v.fraction.1 + (v.fraction.2 - 1)) / v.fraction.2

end Scaled

/-- A positive fraction scaled by a power of two and rounded to an integer. -/
def scaledBy (num den : Nat) (exponent : Int) : Scaled :=
  ⟨roundDiv (num <<< (-exponent).toNat) (den <<< exponent.toNat), exponent⟩

/-- The nearest number with 53 significant bits to a fraction.  Only the range of exponents is
left out of account. -/
def ofFraction (num den : Nat) : Scaled :=
  if num = 0 then ⟨0, 0⟩
  else
    let guess : Int := Int.ofNat num.log2 - Int.ofNat den.log2 - 52
    let exact := num <<< (-guess).toNat
    let unit := den <<< guess.toNat
    if exact < unit <<< 52 then scaledBy num den (guess - 1) else scaledBy num den guess

/-- Whether an integer has a nearest finite number. -/
def isFinite (n : Nat) : Bool :=
  let v := ofFraction n 1
  v.significand <<< v.exponent.toNat < 1 <<< (1024 + (-v.exponent).toNat)

/-- A number multiplied by an integer and rounded. -/
def times (v : Scaled) (n : Nat) : Scaled := ofFraction (v.fraction.1 * n) v.fraction.2

/-- An integer as a number, which is then divided by a thousand and rounded again. -/
def thousandth (n : Nat) : Scaled :=
  let v := ofFraction n 1
  ofFraction v.fraction.1 (v.fraction.2 * 1000)

end Befunge.Binary64
