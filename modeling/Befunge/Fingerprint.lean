import Befunge.Cell

/-!
# Fingerprints

The letters `A` to `Z` mean nothing until a fingerprint is loaded.  A fingerprint
gives a meaning to some of them.  Loading one lays its meanings over those that were
loaded before, letter by letter, and unloading lifts one meaning off each of its
letters again.  Besides the meanings that are built in, a letter may be given any
change of the topmost stack.

A fingerprint is named by a text.  Its code is the number whose digits to the base
256 are the characters of the name, cut to 32 bits.
-/

namespace Befunge

/-- What a letter does. -/
inductive Meaning where
  /-- Turns the pointer round. -/
  | reflect
  /-- Pushes a number. -/
  | literal (value : Int)
  /-- The common bits of two cells. -/
  | bitAnd
  /-- The bits of either of two cells. -/
  | bitOr
  /-- The bits in which two cells differ. -/
  | bitXor
  /-- The bits of a cell inverted. -/
  | bitNot
  /-- The remainder with the sign of the divisor. -/
  | floored
  /-- The remainder without its sign. -/
  | magnitude
  /-- The remainder with the sign of the dividend. -/
  | truncated
  /-- Any other change of the cells of the topmost stack, the top first.  Where there is none the
  pointer is turned round. -/
  | other (change : List Int → Option (List Int))

/-- A named set of meanings. -/
structure Fingerprint where
  /-- The name the code is made from. -/
  name : String
  /-- The letters it defines, each once. -/
  letters : List (Char × Meaning)

namespace Fingerprint

/-- The code spelled by cells in reading order. -/
def codeOfCells (cells : List Int) : Int :=
  cells.foldl (fun code v => (code * 256 + v) % 0x100000000) 0

/-- The code of a name. -/
def codeOfName (name : String) : Int := codeOfCells (name.toList.map Cell.ofChar)

/-- The code of a fingerprint. -/
def code (f : Fingerprint) : Int := codeOfName f.name

/-- The letters that can have a meaning. -/
def alphabet : List Char := "ABCDEFGHIJKLMNOPQRSTUVWXYZ".toList

/-- Every letter turns the pointer round. -/
def null : Fingerprint := ⟨"NULL", alphabet.map (·, .reflect)⟩

/-- Bitwise logic. -/
def bool : Fingerprint :=
  ⟨"BOOL", [('A', .bitAnd), ('N', .bitNot), ('O', .bitOr), ('X', .bitXor)]⟩

/-- Roman numerals. -/
def roma : Fingerprint :=
  ⟨"ROMA", [('C', .literal 100), ('D', .literal 500), ('I', .literal 1), ('L', .literal 50),
    ('M', .literal 1000), ('V', .literal 5), ('X', .literal 10)]⟩

/-- Three kinds of remainder. -/
def modu : Fingerprint :=
  ⟨"MODU", [('M', .floored), ('R', .truncated), ('U', .magnitude)]⟩

example : codeOfName "BOOL" = 0x424F4F4C := by decide +kernel

/-- Only the last four characters of a name made of single bytes count. -/
example : codeOfName "xxROMA" = codeOfName "ROMA" := by decide +kernel

end Fingerprint

/-- The fingerprints a machine knows.  Of two with the same code the first counts. -/
abbrev Registry := List Fingerprint

namespace Registry

/-- The fingerprints every machine knows. -/
def builtin : Registry := [.bool, .modu, .null, .roma]

/-- The fingerprint of a code. -/
def find (r : Registry) (code : Int) : Option Fingerprint := r.find? (·.code = code)

end Registry

/-- The meanings laid over each letter. -/
structure Overlay where
  /-- The letters that ever had a meaning, each with its meanings, the latest first. -/
  entries : List (Char × List Meaning) := []
deriving Inhabited

namespace Overlay

/-- The meanings laid over a letter, the latest first. -/
def layers (o : Overlay) (c : Char) : List Meaning := (o.entries.lookup c).getD []

/-- The meaning a letter has now. -/
def active (o : Overlay) (c : Char) : Option Meaning := (o.layers c).head?

/-- Changes the meanings laid over one letter. -/
def alter (o : Overlay) (c : Char) (f : List Meaning → List Meaning) : Overlay :=
  ⟨go o.entries⟩
where
  /-- The entries with the one of `c` changed, or added at the end. -/
  go : List (Char × List Meaning) → List (Char × List Meaning)
    | [] => [(c, f [])]
    | (d, ms) :: r => if c = d then (d, f ms) :: r else (d, ms) :: go r

/-- Lays the meanings of a fingerprint over its letters. -/
def load (o : Overlay) (f : Fingerprint) : Overlay :=
  f.letters.foldl (fun o (c, m) => o.alter c (m :: ·)) o

/-- Lifts one meaning off each letter of a fingerprint. -/
def unload (o : Overlay) (f : Fingerprint) : Overlay :=
  f.letters.foldl (fun o (c, _) => o.alter c List.tail) o

/-- How many meanings are laid over each letter that has any. -/
def depths (o : Overlay) : List (Char × Nat) :=
  o.entries.filterMap fun (c, ms) => if ms.isEmpty then none else some (c, ms.length)

/-- The later meaning covers the earlier one until it is unloaded. -/
example : ((load {} .roma).load .bool).active 'X' = some .bitXor ∧
    (((load {} .roma).load .bool).unload .bool).active 'X' = some (.literal 10) := ⟨rfl, rfl⟩

end Overlay

end Befunge
