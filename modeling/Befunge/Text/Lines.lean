/-!
# Lines of text

Program text and files are laid out line by line.  A line ends at a line feed, at a
carriage return, or at the two in that order, and a break at the very end of a
text opens no further line.

Input is consumed in another way: a chunk is a line together with the line feed
that ends it, so the chunks of a text concatenate to the text.
-/

namespace Befunge.Lines

/-- Every kind of line break turned into a line feed. -/
def unify : List Char → List Char
  | '\r' :: '\n' :: r => '\n' :: unify r
  | '\r' :: r => '\n' :: unify r
  | c :: r => c :: unify r
  | [] => []

/-- The pieces between line feeds.  There is always at least one. -/
def split : List Char → List (List Char)
  | [] => [[]]
  | c :: r =>
      if c = '\n' then [] :: split r
      else
        match split r with
        | [] => [[c]]
        | line :: lines => (c :: line) :: lines

/-- A list of lines without its last one, if that is empty. -/
def dropFinalEmpty (lines : List (List Char)) : List (List Char) :=
  if lines.getLast? = some [] then lines.dropLast else lines

/-- The lines of a text. -/
def ofText (text : List Char) : List (List Char) :=
  dropFinalEmpty (split (unify text))

/-- The length of the longest line. -/
def width (lines : List (List Char)) : Nat :=
  lines.foldr (fun line w => max line.length w) 0

/-- A line without the blanks at its end. -/
def trimEnd (line : List Char) : List Char :=
  (line.reverse.dropWhile (· = ' ')).reverse

/-- A list of lines without the empty ones at its end. -/
def dropEmptyEnd (lines : List (List Char)) : List (List Char) :=
  (lines.reverse.dropWhile (· = [])).reverse

/-- The lines with a line feed between any two. -/
def join (lines : List (List Char)) : List Char := ['\n'].intercalate lines

/-- The lines with a line feed after each. -/
def terminated (lines : List (List Char)) : List Char :=
  lines.flatMap (· ++ ['\n'])

/-- The pieces of a text that end with a line feed, and what is left at the end. -/
def chunks : List Char → List (List Char)
  | [] => []
  | c :: r =>
      if c = '\n' then [c] :: chunks r
      else
        match chunks r with
        | [] => [[c]]
        | chunk :: rest => (c :: chunk) :: rest

example : ofText "a\r\nb\rc\n".toList = [['a'], ['b'], ['c']] := by decide

example : ofText [] = [] ∧ ofText ['\n', '\n'] = [[], []] := by decide

example : chunks "a\nb".toList = [['a', '\n'], ['b']] := by decide

example : trimEnd "a b  ".toList = "a b".toList := by decide

end Befunge.Lines
