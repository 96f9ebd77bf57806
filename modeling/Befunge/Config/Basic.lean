import Befunge.Config.Pause

/-!
# Settings

What a program may touch, how long it may run, and what it is told of its arguments.
-/

namespace Befunge

/-- Whether a program reaches a part of the outside world. -/
inductive Access where
  /-- It does. -/
  | real
  /-- Every attempt fails. -/
  | deny
deriving DecidableEq, Repr, Inhabited

namespace Access

/-- The word for an access. -/
def word : Access → String
  | .real => "real"
  | .deny => "deny"

/-- All accesses. -/
def all : List Access := [.real, .deny]

/-- The access a word stands for. -/
def ofWord? (w : String) : Option Access := all.find? (·.word = w)

end Access

/-- The settings of a machine. -/
structure Config where
  /-- Access to files. -/
  files : Access := .real
  /-- Access to the command interpreter. -/
  commands : Access := .real
  /-- Whether executed commands are reported. -/
  trace : Bool := false
  /-- The pause after every command. -/
  pause : Pause := .none
  /-- How many ticks the program may take.  Without a limit it runs until it ends. -/
  maxTicks : Option Int := none
  /-- The seed of random directions. -/
  seed : Option Int := none
  /-- The program's name and its arguments. -/
  args : List String := []
deriving DecidableEq, Repr, Inhabited

end Befunge
