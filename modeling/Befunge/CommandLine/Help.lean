import Befunge.CommandLine.Options
import Befunge.Config.Environment

/-!
# Help

What the program says about its arguments, laid out for a terminal.  Words fill lines from left to
right, and a line is never wider than the terminal, unless it would then have room for very
little.  The usage names all arguments in their short form.  The help lists them below each
other, each with what it does beside it, or under it where there is no room.
-/

namespace Befunge

namespace CliOption

/-- The word that stands for the value of an option. -/
def placeholder? : CliOption → Option String
  | .expr => some "EXPR"
  | .sleep => some "MS"
  | .maxTicks => some "N"
  | .seed => some "SEED"
  | _ => none

/-- What an option does. -/
def about : CliOption → String
  | .help => "show this help message and exit"
  | .expr => "Program text to run instead of a file"
  | .trace => "Print every executed instruction to stderr"
  | .sleep => "Pause after every instruction"
  | .time => "Report execution time and counters when done"
  | .maxTicks => "Stop with exit code 1 after N ticks"
  | .seed => "Seed for the ? instruction"
  | .noFiles => "Make i and o fail instead of touching files"
  | .noExec => "Make = fail instead of running commands"
  | .verbose => "Log interpreter events"
  | .quiet => "Only log errors"

/-- The names of an option, each with the word for its value. -/
def forms (o : CliOption) : List String :=
  o.names.map (· ++ (o.placeholder?.map (" " ++ ·)).getD "")

end CliOption

namespace Help

/-! ## Lines -/

/-- Lines, each with a line feed after it. -/
def lines (texts : List String) : String := String.join (texts.map (· ++ "\n"))

/-- So many blanks. -/
def blanks (n : Nat) : String := String.ofList (List.replicate n ' ')

/-- A text with blanks after it up to a width. -/
def padded (text : String) (width : Nat) : String := text ++ blanks (width - text.length)

/-- A line with words added to it, and the lines after it, which are indented. -/
def fillAfter (width : Int) (indent line : String) : List String → List String
  | [] => [line]
  | word :: words =>
      if line.length + 1 + word.length ≤ width then
        fillAfter width indent (line ++ " " ++ word) words
      else line :: fillAfter width indent (indent ++ word) words

/-- The indented lines that words fill. -/
def fill (width : Int) (indent : String) : List String → List String
  | [] => []
  | word :: words => fillAfter width indent (indent ++ word) words

/-- The words of a text. -/
def words (text : String) : List String :=
  ((text.toList.splitBy fun a b => (a == ' ') == (b == ' ')).filter (!·.contains ' ')).map
    String.ofList

/-- The lines that a text fills. -/
def wrap (width : Int) (text : String) : List String := fill width "" (words text)

example : wrap 12 "Only log errors" = ["Only log", "errors"] := by decide +kernel

/-- A word that is wider than the line stands alone. -/
example : wrap 3 "Only log errors" = ["Only", "log", "errors"] := by decide +kernel

/-! ## The terminal -/

/-- How many columns a terminal has that does not tell. -/
def defaultColumns : Int := 80

/-- How many columns the terminal has.  The environment tells, if it tells a positive number. -/
def columns (env : Environment) : Int :=
  ((Decimal.literal? (env.value "COLUMNS").toList).filter (0 < ·)).getD defaultColumns

/-- How wide lines are.  Two columns stay free. -/
def lineWidth (columns : Int) : Int := columns - 2

/-- The least width that is filled with words. -/
def leastWidth : Int := 11

/-! ## Usage -/

/-- The name of the program. -/
def program : String := "funge"

/-- The start of the usage. -/
def usageStart : String := "usage: " ++ program

/-- The options in their short form. -/
def optionParts : List String := CliOption.all.map fun o => "[" ++ o.forms.headD "" ++ "]"

/-- The plain arguments in their short form. -/
def plainParts : List String := ["[source]", "[args ...]"]

/-- The lines of the usage.  On a narrow terminal the name of the program stands alone. -/
def usageLines (width : Int) : List String :=
  let whole := " ".intercalate (usageStart :: optionParts ++ plainParts)
  if whole.length ≤ width then [whole]
  else if 4 * usageStart.length ≤ 3 * width then
    let indent := blanks (usageStart.length + 1)
    fillAfter width indent usageStart optionParts ++ fill width indent plainParts
  else
    let indent := blanks (usageStart.length - program.length)
    usageStart :: fill width indent optionParts ++ fill width indent plainParts

/-- How to use the program. -/
def usage (columns : Int) : String := lines (usageLines (lineWidth columns))

/-! ## The list of arguments -/

/-- An argument in the list. -/
structure Entry where
  /-- How it is written. -/
  heading : String
  /-- What it does. -/
  about : String
deriving DecidableEq, Repr

/-- The plain arguments. -/
def plainEntries : List Entry := [
  ⟨"source", "Path to the Befunge-98 program"⟩,
  ⟨"args", "Arguments passed to the program (reported by y)"⟩]

/-- The options. -/
def optionEntries : List Entry := CliOption.all.map fun o => ⟨", ".intercalate o.forms, o.about⟩

/-- How far the list is indented. -/
def listIndent : Nat := 2

/-- The column at which it says what arguments do: two blanks after the widest of them, but
further to the left on a narrow terminal. -/
def aboutColumn (width : Int) : Nat :=
  let widest := ((plainEntries ++ optionEntries).map (·.heading.length)).foldl max 0
  min (listIndent + widest + 2) (max (width - 20) 4).toNat

/-- The lines of an argument. -/
def entryLines (width : Int) (e : Entry) : List String :=
  let column := aboutColumn width
  let room := column - listIndent - 2
  let start := blanks listIndent ++ e.heading
  let texts := wrap (max (width - column) leastWidth) e.about
  if e.heading.length ≤ room then
    match texts with
    | [] => [start]
    | first :: rest => (padded start column ++ first) :: rest.map (blanks column ++ ·)
  else start :: texts.map (blanks column ++ ·)

/-- On a wide terminal it says beside an option what that does, on a narrow one under it. -/
example : entryLines 78 ⟨"-q, --quiet", CliOption.quiet.about⟩ =
      ["  -q, --quiet           Only log errors"] ∧
    entryLines 20 ⟨"-q, --quiet", CliOption.quiet.about⟩ =
      ["  -q, --quiet", "    Only log errors"] := by decide +kernel

/-- The text of the help. -/
def text (columns : Int) : String :=
  let width := lineWidth columns
  lines (usageLines width ++ [""] ++ wrap (max width leastWidth) "Befunge-98 interpreter" ++
    ["", "positional arguments:"] ++ plainEntries.flatMap (entryLines width) ++
    ["", "options:"] ++ optionEntries.flatMap (entryLines width))

end Help

end Befunge
