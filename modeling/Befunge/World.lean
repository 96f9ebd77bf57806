import Befunge.Clock
import Befunge.Config.Environment
import Befunge.Event
import Befunge.Pointer
import Befunge.Shell

/-!
# What pointers share

All pointers of a machine act on one world: the program space, the devices, the registry of
fingerprints, and the books of the scheduler.  Whatever happens in it that is worth
telling is kept in its journal.
-/

namespace Befunge

/-- Whether a machine goes on. -/
inductive Status where
  /-- It does. -/
  | running
  /-- All pointers stopped, or one of them ended the program. -/
  | done
  /-- The program used up its ticks. -/
  | halted
deriving DecidableEq, Repr, Inhabited

/-- Random directions, as a row of numbers that is gone through again and again. -/
structure Dice where
  /-- The numbers. -/
  faces : List Nat := [0, 1, 2, 3]
  /-- How many numbers were taken. -/
  rolls : Nat := 0
  /-- Whether the numbers were drawn for a seed, and are not the same for every one. -/
  seeded : Bool := false
deriving DecidableEq, Repr, Inhabited

/-- The next direction. -/
def Dice.roll (d : Dice) : Vec × Dice :=
  (Vec.cardinal (d.faces.getD (d.rolls % d.faces.length) 0), { d with rolls := d.rolls + 1 })

/-- What a machine counts. -/
structure Tally where
  /-- The ticks that began. -/
  ticks : Nat := 0
  /-- The commands that were executed. -/
  instructions : Nat := 0
  /-- The pointers that were made by other pointers. -/
  spawned : Nat := 0
  /-- The pointers that stopped. -/
  retired : Nat := 0
  /-- The greatest number of pointers at the end of a tick. -/
  peak : Nat := 0
deriving DecidableEq, Repr, Inhabited

/-- What pointers share. -/
structure World where
  /-- The settings. -/
  config : Config := {}
  /-- The program space. -/
  memory : Memory
  /-- The console. -/
  console : Console
  /-- The working directory. -/
  files : FileTree := {}
  /-- The command interpreter. -/
  interpreter : Interpreter := .plain
  /-- The variables of the process. -/
  environment : Environment := []
  /-- The moment at which the clock will be read next. -/
  clock : Clock
  /-- The moments at which it will be read after that.  Past the last of them it stands still. -/
  later : List Clock := []
  /-- The random directions to come. -/
  dice : Dice := {}
  /-- The fingerprints that can be loaded. -/
  registry : Registry := Registry.builtin
  /-- The pointers that were made in this tick, the latest first. -/
  spawned : List Pointer := []
  /-- The number of the next pointer. -/
  nextId : Int := 0
  /-- Whether the machine goes on. -/
  status : Status := .running
  /-- The exit code of a machine that has ended. -/
  exitCode : Option Int := none
  /-- What was counted. -/
  tally : Tally := {}
  /-- How many pauses were made. -/
  pauses : Nat := 0
  /-- What happened, the latest first. -/
  journal : List Event := []
deriving Inhabited

namespace World

/-- Enters an event into the journal. -/
def note (w : World) (e : Event) : World := { w with journal := e :: w.journal }

/-- The program space. -/
def space (w : World) : Space := w.memory.space

/-- The world with another memory. -/
def withMemory (w : World) (memory : Memory) : World := { w with memory := memory }

/-- The world with another console. -/
def withConsole (w : World) (console : Console) : World := { w with console := console }

/-- The world with other counts. -/
def withTally (w : World) (tally : Tally) : World := { w with tally := tally }

/-! ## Scheduling -/

/-- Makes a second pointer that goes the other way.  It takes part from the next tick on. -/
def split (w : World) (parent : Pointer) : World :=
  let (child, memory) := (parent.clone w.nextId).reflect.advance w.memory false
  { w with
    memory := memory
    nextId := w.nextId + 1
    spawned := child :: w.spawned
    tally := { w.tally with spawned := w.tally.spawned + 1 } }.note
      (.spawned parent.id child.id child.position)

/-- Stops a pointer. -/
def retire (w : World) (ip : Pointer) : Pointer × World :=
  (ip.stopped,
    (w.withTally { w.tally with retired := w.tally.retired + 1 }).note (.stopped ip.id ip.position))

/-- The world of a machine that no longer goes on. -/
def ended (w : World) (status : Status) (code : Int) : World :=
  { w with exitCode := some code, status := status }

/-- Ends the program. -/
def quit (w : World) (code : Int) : World := (w.ended .done code).note (.quit code)

/-- Takes the next random direction. -/
def roll (w : World) : Vec × World := (w.dice.roll.1, { w with dice := w.dice.roll.2 })

/-- Reads the clock. -/
def readClock (w : World) : Clock × World :=
  (w.clock, { w with clock := w.later.headD w.clock, later := w.later.drop 1 })

/-- The world after a report, for which the clock is read twice. -/
def afterReport (w : World) : World := w.readClock.2.readClock.2

/-! ## Devices -/

/-- Reads a file. -/
def loadFile (w : World) (name : String) : Except FileError ByteArray × World :=
  match w.config.files with
  | .deny => (.error (.denied name), w)
  | .real =>
      ((w.files.read name).mapError (.failed · (PathName.ofText name).text), w.note (.reading name))

/-- Writes a file from a place on. -/
def saveFile (w : World) (name : String) (data : ByteArray) (offset : Int) :
    Except FileError Unit × World :=
  match w.config.files with
  | .deny => (.error (.denied name), w)
  | .real =>
      let (result, files) := w.files.write name data offset
      (result.mapError (.failed · (PathName.ofText name).text),
        { w with files := files }.note (.writing data.size name offset))

/-- Runs a text in the command interpreter. -/
def runCommand (w : World) (text : String) : Except CommandError Int × World :=
  match w.config.commands with
  | .deny => (.error (.denied text), w)
  | .real =>
      if text.toList.any (·.toNat = 0) then (.error .nullCharacter, w.note (.executing text))
      else
        let (result, files) := w.interpreter.run text w.files
        (result, { w with files := files }.note (.executing text))

end World

end Befunge
