import Befunge.Text.Blank
import Befunge.Text.Digit
import Befunge.Text.Quoted

/-!
# Decimal numbers

Two forms of decimal number are read.  A *run* is a string of digits as it is found in
running text.  A *literal* is a whole text that is one number: digits with single
underscores between them, a sign before them, and white space around it all.
Neither may have more than `maxDigits` digits, and no longer number is written.
-/

namespace Befunge.Decimal

/-- The greatest number of digits that is read or written. -/
def maxDigits : Nat := 4300

/-- Why a number is not read or not written. -/
inductive Error where
  /-- A run holds a digit that is not decimal. -/
  | notDecimal (run : List Char)
  /-- A run starts with more decimal digits than are read. -/
  | tooLong (digits : Nat)
  /-- A number has more digits than are written. -/
  | tooGreat
deriving DecidableEq, Repr

/-- The wording of a refusal.  A run is quoted up to two hundred characters. -/
def Error.message : Error → String
  | .notDecimal run =>
      "invalid literal for int() with base 10: " ++ String.ofList ((Quoted.encode run).take 200)
  | .tooLong digits =>
      "Exceeds the limit (" ++ toString maxDigits ++
        " digits) for integer string conversion: value has " ++ toString digits ++
        " digits; use sys.set_int_max_str_digits() to increase the limit"
  | .tooGreat =>
      "Exceeds the limit (" ++ toString maxDigits ++ " digits) for integer string conversion" ++
        "; use sys.set_int_max_str_digits() to increase the limit"

/-- Whether a number can be written. -/
def isWritable (n : Int) : Bool := (toString n.natAbs).length ≤ maxDigits

/-- A number as it is written. -/
def written (n : Int) : Except Error String :=
  if isWritable n then .ok (toString n) else .error .tooGreat

/-- The number with the given digits, the greatest place first. -/
def ofDigits (digits : List Nat) : Nat :=
  digits.foldl (fun n d => 10 * n + d) 0

/-- The value of a run of digits. -/
def ofRun (run : List Char) : Except Error Nat :=
  let leading := run.takeWhile fun c => (Digit.decimal? c).isSome
  if maxDigits < leading.length then .error (.tooLong leading.length)
  else
    match run.mapM Digit.decimal? with
    | some digits => .ok (ofDigits digits)
    | none => .error (.notDecimal run)

/-- Digits with single underscores between them.  The flag says that a digit has to come
next. -/
def digitsAfter (due : Bool) : List Char → Option (List Nat)
  | [] => if due then none else some []
  | c :: r =>
      if c = '_' then (if due then none else digitsAfter true r)
      else do
        let d ← Digit.decimal? c
        let ds ← digitsAfter false r
        return d :: ds

/-- The value of a literal without its sign. -/
def unsigned? (text : List Char) : Option Nat := do
  let digits ← digitsAfter true text
  if maxDigits < digits.length then none else some (ofDigits digits)

/-- The value of a literal. -/
def literal? (text : List Char) : Option Int :=
  match Blank.stripBy Blank.isPadding text with
  | '-' :: r => (unsigned? r).map fun n => -Int.ofNat n
  | '+' :: r => (unsigned? r).map Int.ofNat
  | r => (unsigned? r).map Int.ofNat

example : literal? " -1_000\n".toList = some (-1000) ∧ literal? "+٣".toList = some 3 := by
  decide +kernel

example : literal? "1__0".toList = none ∧ literal? "_1".toList = none ∧
    literal? "1_".toList = none ∧ literal? "- 5".toList = none ∧ literal? [] = none := by
  decide +kernel

end Befunge.Decimal
