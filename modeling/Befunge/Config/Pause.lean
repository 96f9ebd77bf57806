import Befunge.Binary64

/-!
# Pauses

The length of a pause is a floating-point number of seconds.  So it may be negative, infinite
or no number at all, and a pause of such a length is refused when it is to be made.

A pause is made in whole nanoseconds, and none of it is cut short.  These are counted in a signed
64-bit word, which a long pause does not fit into.
-/

namespace Befunge

/-- Why a pause is not made. -/
inductive PauseError where
  /-- Its length is no number. -/
  | undefined
  /-- Its nanoseconds are too many to be counted. -/
  | tooLong
  /-- Its length is negative. -/
  | negative
deriving DecidableEq, Repr

/-- The wording of a refusal. -/
def PauseError.message : PauseError → String
  | .undefined => "Invalid value NaN (not a number)"
  | .tooLong => "timestamp out of range for platform time_t"
  | .negative => "sleep length must be non-negative"

/-- The length of a pause in seconds. -/
inductive Pause where
  /-- A number of seconds and its sign. -/
  | finite (negative : Bool) (seconds : Binary64.Scaled)
  /-- Either infinity. -/
  | infinite (negative : Bool)
  /-- No number. -/
  | undefined
deriving DecidableEq, Repr

namespace Pause

/-- The pause of no length. -/
def none : Pause := .finite false ⟨0, 0⟩

instance : Inhabited Pause := ⟨none⟩

/-- A number of thousandths of a second. -/
def ofThousandths (n : Int) : Pause := .finite (n < 0) (Binary64.thousandth n.natAbs)

/-- Whether an integer of thousandths of a second can be held as seconds. -/
def isHoldable (thousandths : Int) : Bool := Binary64.isFinite thousandths.natAbs

/-- Whether there is no pause to make. -/
def isNone : Pause → Bool
  | .finite _ seconds => seconds.significand = 0
  | _ => false

/-- The nearest number of thousandths of a second.  A length that is not finite has none. -/
def thousandths : Pause → Int
  | .finite negative seconds =>
      let n := (Binary64.times seconds 1000).round
      if negative then -n else n
  | _ => 0

/-- The whole nanoseconds of a finite length, rounded away from zero. -/
def nanoseconds? : Pause → Option Int
  | .finite negative seconds =>
      let n := (Binary64.times seconds 1000000000).ceil
      some (if negative then -n else n)
  | _ => Option.none

/-- Why a pause is refused, if it is. -/
def refusal? (p : Pause) : Option PauseError :=
  match p, p.nanoseconds? with
  | .undefined, _ => some .undefined
  | _, Option.none => some .tooLong
  | _, some n =>
      if n < -0x8000000000000000 ∨ 0x8000000000000000 ≤ n then some .tooLong
      else if n < 0 then some .negative
      else Option.none

example : (ofThousandths 250).thousandths = 250 ∧ (ofThousandths (-7)).thousandths = -7 ∧
    ofThousandths 0 = none := by decide +kernel

/-- Past 53 bits not every integer comes back. -/
example : (ofThousandths 99999999999999999999).thousandths = 100000000000000000000 := by
  decide +kernel

/-- Three hundred years are too long, in either direction. -/
example : (ofThousandths 9223372036854).refusal? = Option.none ∧
    (ofThousandths 9223372036855).refusal? = some .tooLong ∧
    (ofThousandths (-9223372036854)).refusal? = some .negative ∧
    (ofThousandths (-9223372036856)).refusal? = some .tooLong := by decide +kernel

end Pause

end Befunge
