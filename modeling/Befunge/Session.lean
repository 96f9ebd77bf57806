import Befunge.Setup

/-!
# Sessions

A session runs programs tick by tick, one after the other, and shows what they did so far.
The working directory is the same for all of them.  So are the streams of the console,
if the session was given any.  Otherwise each program has an input of its own.
-/

namespace Befunge

/-- How far the program of a session is. -/
inductive Phase where
  /-- No program was loaded. -/
  | idle
  /-- It is running. -/
  | running
  /-- A tick found that it had ended. -/
  | done
deriving DecidableEq, Repr, Inhabited

/-- The word for a phase. -/
def Phase.word : Phase → String
  | .idle => "idle"
  | .running => "running"
  | .done => "done"

/-- A session. -/
structure Session where
  /-- What its machines are built from. -/
  setup : Setup
  /-- The streams all programs share, where there are any. -/
  streams : Option (Input × Output) := none
  /-- The machine of the program that was loaded last. -/
  machine : Option Machine := none
  /-- How far that program is. -/
  phase : Phase := .idle
  /-- What happened before that program was loaded, the latest first. -/
  past : List Event := []
deriving Inhabited

namespace Session

/-- The working directory as the programs so far left it. -/
def files (s : Session) : FileTree :=
  match s.machine with
  | some m => m.world.files
  | none => s.setup.files

/-- The console for the next program. -/
def nextConsole (s : Session) (input : String) : Console :=
  match s.streams, s.machine with
  | none, _ => { input := .ofText input.toList }
  | some (input, output), none => { input := input, output := output }
  | some _, some m => { input := m.world.console.input, output := m.world.console.output }

/-- All that happened, the latest first. -/
def journal (s : Session) : List Event :=
  match s.machine with
  | some m => m.world.journal ++ s.past
  | none => s.past

/-- What the machine of the next program is built from.  Executed commands are kept and not
shown. -/
def nextSetup (s : Session) : Setup :=
  { s.setup with files := s.files, config := { s.setup.config with trace := false } }

/-- Loads a program. -/
def load (s : Session) (source : Source) (input : String) : Session :=
  { s with
    machine := some (s.nextSetup.load source (s.nextConsole input))
    phase := .running
    past := s.journal }

/-- Loads the program in a file. -/
def loadFile (s : Session) (path input : String) : Except LoadError Session := do
  return s.load (← Source.ofFile s.files path) input

/-- The session after its program ended, with what was written flushed. -/
def finish (s : Session) (m : Machine) : Except Fault Bool × Session :=
  match m.flush with
  | .ok m => (.ok false, { s with machine := some m, phase := .done })
  | .error f => (.error f, { s with machine := some m, phase := .done })

/-- Advances the program by one tick.  Tells whether it is still running. -/
def tick (s : Session) : Except Fault Bool × Session :=
  match s.phase, s.machine with
  | .running, some m =>
      match m.tick with
      | (.ok true, m) => (.ok true, { s with machine := some m })
      | (.ok false, m) => s.finish m
      | (.error f, m) => (.error f, { s with machine := some m })
  | _, _ => (.ok false, s)

/-- Advances the program by at most `n` ticks.  Tells whether it is still running. -/
def advance : Nat → Session → Except Fault Bool × Session
  | 0, s => (.ok true, s)
  | n + 1, s =>
      match s.tick with
      | (.ok true, s) => advance n s
      | ended => ended

/-- The commands that the program has executed, in order. -/
def trace (s : Session) : List TraceRecord :=
  match s.machine with
  | some m => m.trace
  | none => []

/-- How many commands were executed by all programs. -/
def executed (s : Session) : Nat := (s.journal.filterMap Event.record?).length

/-- Advances the program by at most `n` ticks, and gives the commands they executed. -/
def runTicks (s : Session) (n : Nat) : Except Fault (List TraceRecord) × Session :=
  let (result, after) := s.advance n
  (result.map fun _ => after.trace.drop s.trace.length, after)

/-- Runs the program to its end, for at most `limit` ticks. -/
def run (s : Session) (limit : Nat) : Except Fault Bool × Session := s.advance limit

/-- Whether the machine goes on. -/
def isRunning (s : Session) : Bool :=
  match s.machine with
  | some m => m.world.status = .running
  | none => false

/-- The exit code of a program that has ended. -/
def exitCode (s : Session) : Option Int := s.machine.bind fun m => m.world.exitCode

/-- What the program has written so far. -/
def output (s : Session) : String := (s.machine.bind Machine.output).getD ""

/-- The commands that one pointer has executed. -/
def recordsFor (s : Session) (id : Int) : List TraceRecord := s.trace.filter (·.id = id)

end Session

end Befunge
