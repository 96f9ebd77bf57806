import Befunge.Text.Printable

/-!
# Quoted text

Text is quoted in messages so that every character of it can be told.  The marks are
single ones, or double ones where the text holds single marks and no double ones.
A backslash stands before a backslash and before a mark like the outer ones.
Characters that are not printable are written by their code.
-/

namespace Befunge.Quoted

/-- The lower-case hexadecimal digits of a number, with zeros up to a width. -/
def hex (width n : Nat) : List Char :=
  let digits := Nat.toDigits 16 n
  List.replicate (width - digits.length) '0' ++ digits

/-- The mark a text is quoted with. -/
def mark (text : List Char) : Char :=
  if text.contains '\x27' && !text.contains '\x22' then '\x22' else '\x27'

/-- A character as it stands between the given marks. -/
def escape (mark c : Char) : List Char :=
  if c = mark ∨ c = '\\' then ['\\', c]
  else if c = '\t' then ['\\', 't']
  else if c = '\n' then ['\\', 'n']
  else if c = '\r' then ['\\', 'r']
  else if Printable.isPrintable c then [c]
  else if c.toNat ≤ 0xFF then '\\' :: 'x' :: hex 2 c.toNat
  else if c.toNat ≤ 0xFFFF then '\\' :: 'u' :: hex 4 c.toNat
  else '\\' :: 'U' :: hex 8 c.toNat

/-- A text between its marks. -/
def encode (text : List Char) : List Char :=
  let mark := mark text
  mark :: text.flatMap (escape mark) ++ [mark]

/-- A quoted text. -/
def text (s : String) : String := String.ofList (encode s.toList)

/-- A list of quoted texts. -/
def listing (items : List String) : String :=
  "[" ++ ", ".intercalate (items.map text) ++ "]"

example : text "it's" = "\"it's\"" ∧ text "a\\b\t" = "'a\\\\b\\t'" := by decide +kernel

example : text "'\"" = "'\\'\"'" := by decide +kernel

end Befunge.Quoted
