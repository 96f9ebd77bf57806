import Befunge.FileTree
import Befunge.Text.Blank

/-!
# Shell commands

A command interpreter gives every text a status, or cannot be reached for it.  Running a text can
change the files.

The one that programs reach, unless they are given another, knows a handful of commands:
`true`, `false`, `exit` with a status, `kill` of the interpreter itself with a signal, several
of them with semicolons or line feeds between, and a group of them in parentheses.  Anything
else is an unknown command.  None of these changes a file.
-/

namespace Befunge

/-- Why a text is not run in the command interpreter. -/
inductive CommandError where
  /-- The command interpreter is out of reach. -/
  | denied (text : String)
  /-- The text has a null character in it. -/
  | nullCharacter
deriving DecidableEq, Repr

/-- The wording of a refused command. -/
def CommandError.message : CommandError → String
  | .denied text => "command execution denied: " ++ text
  | .nullCharacter => FileFailure.nullCharacter.reason

/-- A command interpreter. -/
structure Interpreter where
  /-- The status of a text that is run, or why it is not run, and what becomes of the files. -/
  run : String → FileTree → Except CommandError Int × FileTree
deriving Inhabited

namespace Shell

/-- What running a command does to the interpreter. -/
inductive Effect where
  /-- It goes on after a command with this status. -/
  | status (n : Nat)
  /-- It ends with this status. -/
  | exit (n : Nat)
  /-- It is killed by this signal. -/
  | killed (signal : Nat)
deriving DecidableEq, Repr

/-- The status of an unknown command. -/
def unknown : Nat := 127

/-- The status of a command that is used in a wrong way. -/
def misused : Nat := 2

/-- Whether a character divides the words of a command. -/
def isGap (c : Char) : Bool := c = ' ' || c = '\t'

/-- The words of a command. -/
def words (text : List Char) : List (List Char) :=
  (text.splitBy fun a b => isGap a == isGap b).filter fun w => !w.any isGap

/-- The number that a word is, if it is below `bound`. -/
def number? (bound : Nat) (word : List Char) : Option Nat :=
  if word ≠ [] ∧ word.all Char.isDigit then
    let n := word.foldl (fun n c => 10 * n + (c.toNat - '0'.toNat)) 0
    if n < bound then some n else none
  else none

/-- The least number that is no signed 32-bit word. -/
def statusBound : Nat := 0x80000000

/-- The least number that is no signal. -/
def signalBound : Nat := 65

/-- The signals that kill nothing. -/
def harmless : List Nat := [0, 17, 18, 23, 28]

/-- Runs a single command that is no group, after a command with status `last`. -/
def simple (last : Nat) (text : List Char) : Effect :=
  match (words text).map String.ofList with
  | [] => .status 0
  | ["true"] => .status 0
  | ["false"] => .status 1
  | ["exit"] => .exit last
  | ["exit", n] =>
      match number? statusBound n.toList with
      | some n => .exit (n % 256)
      | none => .exit misused
  | ["kill", signal, "$$"] =>
      match signal.toList with
      | '-' :: digits =>
          match number? signalBound digits with
          | some n => if harmless.contains n then .status 0 else .killed n
          | none => .status misused
      | _ => .status misused
  | _ => .status unknown

/-- The commands between the semicolons and line feeds that stand outside of parentheses. -/
def commands (depth : Nat) : List Char → List (List Char)
  | [] => [[]]
  | c :: r =>
      if (c = ';' ∨ c = '\n') ∧ depth = 0 then [] :: commands 0 r
      else
        let depth := if c = '(' then depth + 1 else if c = ')' then depth - 1 else depth
        match commands depth r with
        | [] => [[c]]
        | first :: rest => (c :: first) :: rest

/-- The inside of a group. -/
def group? (text : List Char) : Option (List Char) :=
  match Blank.stripBy isGap text with
  | '(' :: r => if r.getLast? = some ')' then some r.dropLast else none
  | _ => none

/-- Runs commands one after the other until one of them ends the interpreter. -/
def sequence (run : Nat → List Char → Effect) (last : Nat) : List (List Char) → Effect
  | [] => .status last
  | text :: rest =>
      match run last text with
      | .status n => sequence run n rest
      | ended => ended

/-- Runs a text of commands whose groups are nested at most `depth` deep. -/
def runNested : Nat → Nat → List Char → Effect
  | 0, last, text => simple last text
  | depth + 1, last, text =>
      sequence (fun last text =>
        match group? text with
        | none => simple last text
        | some inside =>
            match runNested depth last inside with
            | .exit n => .status n
            | other => other) last (commands 0 text)

/-- The status of a text of commands: that of its last command or of the exit, and the
negated signal where it was killed. -/
def status (text : String) : Int :=
  match runNested text.length 0 text.toList with
  | .status n => n
  | .exit n => n
  | .killed signal => -signal

example : status "exit 300" = 44 ∧ status "exit 1; exit 2" = 1 ∧ status "(exit 5)" = 5 := by
  decide +kernel

/-- Some signals kill nothing, and some numbers are no signals. -/
example : status "kill -17 $$" = 0 ∧ status "kill -65 $$" = 2 := by decide +kernel

example : status "kill -9 $$" = -9 ∧ status "" = 0 ∧ status "false" = 1 := by decide +kernel

end Shell

/-- The interpreter that knows a handful of commands. -/
def Interpreter.plain : Interpreter := ⟨fun text files => (.ok (Shell.status text), files)⟩

end Befunge
