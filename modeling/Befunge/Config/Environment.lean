import Befunge.Config.Basic
import Befunge.Text.Case
import Befunge.Text.Decimal

/-!
# Settings from the environment

Variables of the environment give the settings their values, and values given
explicitly win over them.  A variable that is not set, or that is blank, leaves its
setting at the default.  Every variable has to be valid, also one whose setting is
given explicitly, and the first that is not is reported.
-/

namespace Befunge

/-- The variables of a process with their values. -/
abbrev Environment := List (String × String)

namespace Environment

/-- The value of a variable.  A variable that is not set is empty. -/
def value (env : Environment) (name : String) : String := (env.lookup name).getD ""

/-- The variables in the order of their names. -/
def sorted (env : Environment) : Environment :=
  env.mergeSort fun a b => a.1 ≤ b.1

end Environment

/-- Why the settings cannot be taken from the environment. -/
inductive ConfigError where
  /-- A variable has none of the words it may have. -/
  | notAChoice (name value : String)
  /-- A variable is no integer. -/
  | notAnInteger (name value : String)
  /-- The pause has too many thousandths of a second to be held. -/
  | pauseTooLong
deriving DecidableEq, Repr

/-- The wording of a refusal. -/
def ConfigError.message : ConfigError → String
  | .notAChoice name value =>
      name ++ " must be one of " ++ ", ".intercalate (Access.all.map Access.word) ++ ", got " ++
        Quoted.text value
  | .notAnInteger name value => name ++ " must be an integer, got " ++ Quoted.text value
  | .pauseTooLong => "int too large to convert to float"

namespace Environment

/-- The value of a variable without the white space around it. -/
def stripped (env : Environment) (name : String) : List Char :=
  Blank.strip (env.value name).toList

/-- A setting that is one of two words, in any case. -/
def access (env : Environment) (name : String) : Except ConfigError Access :=
  let word := Case.lower (env.stripped name)
  if word = [] then .ok .real
  else
    match Access.ofWord? (String.ofList word) with
    | some a => .ok a
    | none => .error (.notAChoice name (String.ofList word))

/-- A setting that is an integer. -/
def integer (env : Environment) (name : String) : Except ConfigError (Option Int) :=
  let word := env.stripped name
  if word = [] then .ok none
  else
    match Decimal.literal? word with
    | some n => .ok (some n)
    | none => .error (.notAnInteger name (String.ofList word))

/-- A setting that is on or off.  Only four words, in any case, turn it on. -/
def switch (env : Environment) (name : String) : Bool :=
  let word := String.ofList (Case.lower (env.value name).toList)
  ["1", "true", "yes", "on"].contains word

end Environment

/-- Settings that are given explicitly. -/
structure Overrides where
  /-- Access to files. -/
  files : Option Access := none
  /-- Access to the command interpreter. -/
  commands : Option Access := none
  /-- Whether executed commands are reported. -/
  trace : Option Bool := none
  /-- The pause after every command. -/
  pause : Option Pause := none
  /-- How many ticks the program may take. -/
  maxTicks : Option Int := none
  /-- The seed of random directions. -/
  seed : Option Int := none
  /-- The program's name and its arguments. -/
  args : Option (List String) := none
deriving DecidableEq, Repr, Inhabited

namespace Config

/-- A pause of so many thousandths of a second, if it can be held. -/
def holdPause (thousandths : Int) : Except ConfigError Pause :=
  if Pause.isHoldable thousandths then .ok (.ofThousandths thousandths) else .error .pauseTooLong

/-- The settings that the environment gives. -/
def ofEnvironment (env : Environment) : Except ConfigError Config := do
  let files ← env.access "FUNGE_FILE_VIEW"
  let commands ← env.access "FUNGE_EXEC"
  let trace := env.switch "FUNGE_TRACE"
  let pause ← env.integer "FUNGE_SLEEP_MS"
  let pause ← holdPause (pause.getD 0)
  let maxTicks ← env.integer "FUNGE_MAX_TICKS"
  let seed ← env.integer "FUNGE_SEED"
  return { files, commands, trace, pause, maxTicks, seed }

/-- Settings with some of them given explicitly. -/
def override (c : Config) (o : Overrides) : Config where
  files := o.files.getD c.files
  commands := o.commands.getD c.commands
  trace := o.trace.getD c.trace
  pause := o.pause.getD c.pause
  maxTicks := o.maxTicks <|> c.maxTicks
  seed := o.seed <|> c.seed
  args := o.args.getD c.args

/-- The settings of a process: those given explicitly, then those of the environment. -/
def resolve (env : Environment) (o : Overrides) : Except ConfigError Config := do
  return (← ofEnvironment env).override o

end Config

end Befunge
