import Befunge.Machine
import Befunge.Source

/-!
# Setting up machines

A setup is everything a machine is built from besides its program and its console.
-/

namespace Befunge

/-- The surroundings of a machine. -/
structure Setup where
  /-- The settings. -/
  config : Config := {}
  /-- The working directory. -/
  files : FileTree := {}
  /-- The command interpreter. -/
  interpreter : Interpreter := .plain
  /-- The variables of the process. -/
  environment : Environment := []
  /-- The moment at which the clock will be read first. -/
  clock : Clock
  /-- The moments at which it will be read after that. -/
  later : List Clock := []
  /-- The random directions to come. -/
  dice : Dice := {}
  /-- The fingerprints that can be loaded. -/
  registry : Registry := Registry.builtin
deriving Inhabited

/-- What a run came to. -/
structure RunResult where
  /-- Whether the program ended, rather than having used up its ticks. -/
  ok : Bool
  /-- The exit code. -/
  exitCode : Option Int
  /-- What was written. -/
  output : Option String
  /-- What was counted. -/
  stats : Stats
deriving DecidableEq, Repr

/-- What a run came to, as told by the machine at its end. -/
def Machine.result (m : Machine) : RunResult where
  ok := m.world.status = .done
  exitCode := m.world.exitCode
  output := m.output
  stats := m.stats

namespace Setup

/-- A world with nothing but these surroundings. -/
def world (s : Setup) (space : Space) (console : Console) (journal : List Event) : World where
  config := s.config
  memory := { space := space }
  console := console
  files := s.files
  interpreter := s.interpreter
  environment := s.environment
  clock := s.clock
  later := s.later
  dice := s.dice
  registry := s.registry
  journal := journal

/-- The machine that is about to run a program. -/
def load (s : Setup) (source : Source) (console : Console) : Machine :=
  let (space, events) := source.load
  Machine.start (s.world space console events)

/-- Runs a program for at most `limit` ticks. -/
def run (s : Setup) (source : Source) (console : Console) (limit : Nat) :
    Machine.RunEnd × Machine :=
  (s.load source console).run limit

/-- A program of five commands, run to its end. -/
example :
    (Setup.run { clock := ⟨2000, 1, 1, 0, 0, 0⟩ } (.text "12+.@")
      { input := .ofText [] } 9).2.result =
    { ok := true, exitCode := some 0, output := some "3 ",
      stats := { ticks := 5, instructions := 5, spawned := 0, retired := 1, peak := 1, reads := 10,
                 writes := 0, cells := 5 } } := by
  decide +kernel

end Setup

end Befunge
