import Befunge.CommandLine.Live
import Std.Time

/-!
# The program

This is the only module that acts on the outside.  It fetches what a machine asks for, and
carries out what the machine leaves to do.
-/

namespace Befunge.CommandLine

/-- The path of a place. -/
def diskPath : List String → String
  | "/" :: names => "/" ++ "/".intercalate names
  | names => "/".intercalate names

/-- What stands at a place. -/
def look (place : List String) : IO (Option FileNode) := do
  let path := diskPath place
  match ← (IO.FS.readBinFile path).toBaseIO with
  | .ok data => return some (.file data)
  | .error _ =>
      match ← (IO.FS.withFile path .read fun _ => pure ()).toBaseIO with
      | .ok _ => return some .directory
      | .error (.noFileOrDirectory ..) => return none
      | .error _ => return some .broken

/-- The variables of the process. -/
def environment : IO Environment := do
  let data ← IO.FS.readBinFile "/proc/self/environ"
  let text := String.ofList (Utf8.decode data)
  return (text.splitOn "\x00").filterMap fun entry =>
    match entry.splitOn "=" with
    | name :: value :: rest => some (name, "=".intercalate (value :: rest))
    | _ => none

/-- The present moment. -/
def clock : IO Clock := do
  let now ← Std.Time.PlainDateTime.now
  return {
    year := now.year.toInt, month := now.month.toInt, day := now.day.toInt
    hour := now.hour.toInt, minute := now.minute.toInt, second := now.second.toInt }

/-- How many random directions are drawn at once. -/
def drawn : Nat := 64

/-- Random directions, those that follow the ones drawn before. -/
def dice : IO Dice := do
  return { faces := ← (List.range drawn).mapM fun _ => IO.rand 0 3, seeded := true }

/-- Carries out what a tick left to do. -/
def perform (opts : Options) (config : Config) (e : Effects) : IO Unit := do
  (← IO.getStdout).putStr e.output
  (← IO.getStdout).flush
  (← IO.getStderr).putStr (eventsText opts config e.events)
  for (path, data) in e.files do
    IO.FS.writeBinFile path data
  if 0 < e.pauses then
    IO.sleep (UInt32.ofNat (e.pauses * config.pause.thousandths.toNat))

/-- Ticks until the machine has ended. -/
partial def loop (opts : Options) (l : Live) : IO (Except Fault Live) := do
  match l.tick with
  | .error .line => loop opts (l.addLine (← (← IO.getStdin).getLine))
  | .error (.places places) =>
      let mut l := l
      for place in places do
        l := l.addPlace place (← look place)
      loop opts l
  | .error .moment => loop opts (l.setClock (← clock))
  | .ok (result, effects, l) =>
      perform opts l.machine.world.config effects
      match result with
      | .error f => return .error f
      | .ok false => return .ok l
      | .ok true =>
          if l.machine.world.dice.rolls = 0 then loop opts l
          else
            let world := { l.machine.world with dice := ← dice }
            loop opts { l with machine := { l.machine with world := world } }

/-- The working directory as far as the program has to be read from it. -/
def sourceFiles (opts : Options) : IO FileTree := do
  let mut files : FileTree := {}
  if opts.expr = .absent then
    for place in (PathName.ofText (programName opts)).places do
      if let some node ← look place then
        files := files.insert place node
  return files

/-- Runs a program, and gives the status to end with. -/
def execute (opts : Options) : IO UInt8 := do
  let setup : Setup :=
    { files := ← sourceFiles opts, environment := ← environment, clock := ← clock }
  match prepare setup { input := .ofText [] } opts with
  | .error e =>
      IO.eprintln (Style.errorLine e.message)
      return 1
  | .ok m =>
      if opts.seed = .blank then
        IO.eprint (eventsText opts m.world.config m.world.journal.reverse)
        IO.eprintln (Style.errorLine seedLeftOutMessage)
        return 1
      if opts.maxTicks = .blank then
        IO.eprint (eventsText opts m.world.config m.world.journal.reverse)
        IO.eprintln (Style.errorLine limitLeftOutMessage)
        return 1
      if let some seed := m.world.config.seed then
        IO.setRandSeed seed.natAbs
      let world := { m.world with dice := ← dice }
      let started ← IO.monoMsNow
      match ← loop opts { machine := { m with world := world } } with
      | .error f =>
          IO.eprintln (Style.errorLine f.message)
          return 1
      | .ok l =>
          IO.eprint (closing opts l.machine ((← IO.monoMsNow) - started))
          return exitStatus l.machine.world.exitCode

end Befunge.CommandLine

open Befunge Befunge.CommandLine in
/-- Runs the program that the arguments name. -/
def main (args : List String) : IO UInt32 := do
  let columns := Help.columns (← environment)
  match Options.parse args with
  | .error e =>
      IO.eprint (usageText columns e)
      return 2
  | .ok .help =>
      IO.print (Help.text columns)
      return 0
  | .ok (.run opts) => return (← execute opts).toUInt32
