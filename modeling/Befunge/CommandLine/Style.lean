import Befunge.Event

/-!
# Colours

Messages on a terminal are coloured by escape sequences.
-/

namespace Befunge.Style

/-- The escape sequence of a number. -/
def sequence (n : Nat) : String := "\x1b[" ++ toString n ++ "m"

/-- Back to plain text. -/
def reset : String := sequence 0

/-- Bright text. -/
def bright : String := sequence 1

/-- Dim text. -/
def dim : String := sequence 2

/-- Red text. -/
def red : String := sequence 31

/-- Green text. -/
def green : String := sequence 32

/-- Yellow text. -/
def yellow : String := sequence 33

/-- Blue text. -/
def blue : String := sequence 34

/-- Cyan text. -/
def cyan : String := sequence 36

/-- A text between a colour and the return to plain text. -/
def coloured (colour text : String) : String := colour ++ text ++ reset

/-- The colour of a level.  Most numbers between the levels have none. -/
def ofRank (rank : Int) : Option String :=
  if rank = Level.debug.rank then some dim
  else if rank = Level.warning.rank then some yellow
  else if rank = Level.error.rank then some red
  else if rank = Level.critical.rank then some (red ++ bright)
  else none

/-- A message of a channel in the colour of its level. -/
def logLine (rank : Int) (channel message : String) : String :=
  let line := channel ++ ": " ++ message
  match ofRank rank with
  | some colour => coloured colour line
  | none => line

/-- An executed command. -/
def traceLine (r : TraceRecord) : String :=
  coloured cyan "funge:" ++ " IP " ++ coloured green (toString r.id) ++ " hit " ++
    coloured yellow (Command.shown r.command) ++
    (if r.stringMode then " " ++ coloured dim "(string)" else "") ++
    " at " ++ r.position.text ++ "; stacks: " ++ coloured blue (Listing.ofRows r.rows)

/-- An error message. -/
def errorLine (message : String) : String := coloured red "error:" ++ " " ++ message

/-- What an event writes on the terminal. -/
def eventText (trace : Bool) (threshold : Level) (e : Event) : String :=
  match e with
  | .executed record => if trace && record.isWritable then traceLine record ++ "\n" else ""
  | _ =>
      if threshold.rank ≤ e.level.rank then
        logLine e.level.rank e.channel.name e.message ++ "\n"
      else ""

end Befunge.Style
