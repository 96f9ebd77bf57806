import Befunge.CommandLine.Help
import Befunge.CommandLine.Style
import Befunge.Setup

/-!
# Running from the command line

The arguments and the environment give the settings, and the program is then run to its
end.  What the program writes goes to the standard output.  Events and executed
commands go to the standard error in the order in which they happen.
-/

namespace Befunge.CommandLine

/-- Why there is nothing to run. -/
inductive Refusal where
  /-- The settings are not valid. -/
  | config (e : ConfigError)
  /-- The program cannot be read. -/
  | load (e : LoadError)
  /-- The program is to be given as text, and the text is left out. -/
  | textLeftOut
deriving DecidableEq, Repr

namespace Refusal

/-- The wording of a refusal. -/
def message : Refusal → String
  | .config e => e.message
  | .load e => e.message
  | .textLeftOut => "\x27list\x27 object has no attribute \x27replace\x27"

/-- Whether a refusal is shown as an error message. -/
def isShown : Refusal → Bool
  | .config e => e ≠ .pauseTooLong
  | .load e => e.isFileSystem
  | .textLeftOut => false

end Refusal

/-- The least level that is shown. -/
def threshold (opts : Options) : Level :=
  if opts.verbose then .debug else if opts.quiet then .error else .warning

/-- The name the program is known by. -/
def programName (opts : Options) : String :=
  match opts.expr with
  | .absent => opts.source.getD ""
  | _ => "-e"

/-- The arguments the program is told of.  Where the program is given as text, all plain
arguments are its arguments, but for an empty first one. -/
def programArgs (opts : Options) : List String :=
  match opts.expr with
  | .absent => opts.args
  | _ => (opts.source.toList.filter (· ≠ "")) ++ opts.args

/-- The pause that is asked for, in thousandths of a second.  Asking for none is the same as not
asking. -/
def askedPause (opts : Options) : Option Int := opts.sleep.value?.filter (· ≠ 0)

/-- The settings that are given by options. -/
def overrides (opts : Options) : Overrides where
  files := if opts.noFiles then some .deny else none
  commands := if opts.noExec then some .deny else none
  trace := if opts.trace then some true else none
  pause := (askedPause opts).map .ofThousandths
  maxTicks := opts.maxTicks.value?
  seed := opts.seed.value?
  args := some (programName opts :: programArgs opts)

/-- The settings of a run. -/
def config (env : Environment) (opts : Options) : Except ConfigError Config := do
  let _ ← Config.holdPause ((askedPause opts).getD 0)
  Config.resolve env (overrides opts)

/-- The program of a run. -/
def source (files : FileTree) (opts : Options) : Except Refusal Source :=
  match opts.expr with
  | .absent => (Source.ofFile files (programName opts)).mapError .load
  | .blank => .error .textLeftOut
  | .value text => .ok (.text text)

/-- The machine of a run. -/
def prepare (setup : Setup) (console : Console) (opts : Options) : Except Refusal Machine := do
  let config ← (config setup.environment opts).mapError .config
  let source ← source setup.files opts
  let (space, events) := source.load
  let events := .started (programName opts) (programArgs opts) :: events
  return Machine.start ({ setup with config := config }.world space console events)

/-! ## What is shown -/

/-- What events write, in order. -/
def eventsText (opts : Options) (config : Config) (events : List Event) : String :=
  String.join (events.map (Style.eventText config.trace (threshold opts)))

/-- A number with zeros up to three places. -/
def threePlaces (n : Nat) : String :=
  (if n < 10 then "00" else if n < 100 then "0" else "") ++ toString n

/-- Thousandths of a second as seconds. -/
def seconds (thousandths : Nat) : String :=
  toString (thousandths / 1000) ++ "." ++ threePlaces (thousandths % 1000)

/-- What is written at the end of a run that took so many thousandths of a second. -/
def closing (opts : Options) (m : Machine) (thousandths : Nat) : String :=
  (if m.world.status = .halted then
    Style.errorLine ("stopped after " ++ toString m.world.tally.ticks ++ " ticks") ++ "\n"
  else "") ++
  (if opts.time then
    "Executed in " ++ seconds thousandths ++ "s\n" ++ m.stats.text ++ "\n"
  else "")

/-- What is written for wrong arguments on a terminal with so many columns. -/
def usageText (columns : Int) (e : UsageError) : String :=
  Help.usage columns ++ Help.program ++ ": error: " ++ e.message ++ "\n"

/-! ## Whole runs -/

/-- The wording where the number of ticks is left out. -/
def limitLeftOutMessage : String :=
  "\x27>=\x27 not supported between instances of \x27int\x27 and \x27list\x27"

/-- The wording where the seed is left out. -/
def seedLeftOutMessage : String :=
  "The only supported seed types are: None,\nint, float, str, bytes, and bytearray."

/-- How the program ended. -/
inductive Ending where
  /-- It came back with a code. -/
  | returned (code : Option Int)
  /-- It left early, with a code. -/
  | left (code : Nat)
  /-- There was nothing to run, and no error message shows that. -/
  | refused (r : Refusal)
  /-- It was to be limited to some ticks, and their number is left out. -/
  | limitLeftOut
  /-- Random directions were to be drawn for a seed, and the seed is left out. -/
  | seedLeftOut
  /-- A fault ended it. -/
  | faulted (f : Fault)
  /-- It was cut off. -/
  | cut
deriving DecidableEq, Repr

/-- All that a run shows. -/
structure Report where
  /-- How it ended. -/
  ending : Ending
  /-- What was written to the standard output. -/
  stdout : String := ""
  /-- What was written to the standard error. -/
  stderr : String := ""
  /-- The working directory at the end. -/
  files : FileTree
  /-- How many pauses were made. -/
  pauses : Nat := 0

/-- What a machine shows. -/
def report (opts : Options) (m : Machine) (ending : Ending) : Report where
  ending := ending
  stdout := m.output.getD ""
  stderr := eventsText opts m.world.config m.world.journal.reverse
  files := m.world.files
  pauses := m.world.pauses

/-- Runs the program on a prepared machine for at most `limit` ticks. -/
def runMachine (opts : Options) (m : Machine) (limit thousandths : Nat) : Report :=
  if opts.seed = .blank && m.world.dice.seeded then report opts m .seedLeftOut
  else if opts.maxTicks = .blank then report opts m .limitLeftOut
  else
    match m.run limit with
    | (.cut, m) => report opts m .cut
    | (.faulted f, m) => report opts m (.faulted f)
    | (.finished, m) =>
        let shown := report opts m (.returned m.world.exitCode)
        { shown with stderr := shown.stderr ++ closing opts m thousandths }

/-- Runs the command line for at most `limit` ticks.  The run counts as taking so many
thousandths of a second. -/
def run (args : List String) (setup : Setup) (input : String) (limit thousandths : Nat) : Report :=
  let columns := Help.columns setup.environment
  match Options.parse args with
  | .error e => { ending := .left 2, stderr := usageText columns e, files := setup.files }
  | .ok .help => { ending := .left 0, stdout := Help.text columns, files := setup.files }
  | .ok (.run opts) =>
      match prepare setup { input := .ofText input.toList } opts with
      | .error e =>
          if e.isShown then
            { ending := .returned (some 1), stderr := Style.errorLine e.message ++ "\n",
              files := setup.files }
          else { ending := .refused e, files := setup.files }
      | .ok m => runMachine opts m limit thousandths

end Befunge.CommandLine
