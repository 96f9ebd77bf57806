import Befunge.CommandLine.Run

/-!
# Ticks on demand

Lines of input, files and the time are fetched only when the program asks for them.  A tick has no
effect outside of its machine, so it can be tried with what is there.  A tick that asked for
something else is dropped, and is tried again once that is there.
-/

namespace Befunge.CommandLine

/-- What a tick asked for that was not there. -/
inductive Need where
  /-- The next line of the input. -/
  | line
  /-- What stands at these places. -/
  | places (places : List (List String))
  /-- The present moment. -/
  | moment
deriving DecidableEq, Repr

/-- A machine whose surroundings are fetched as it asks for them. -/
structure Live where
  /-- The machine. -/
  machine : Machine
  /-- Whether the input has no more lines than those that are there. -/
  atEnd : Bool := false
  /-- The places that were looked at. -/
  known : List (List String) := []
  /-- Whether the clock shows the present moment. -/
  timely : Bool := false

/-- What is left to do outside after a tick. -/
structure Effects where
  /-- What goes to the standard output. -/
  output : String
  /-- What happened, in order. -/
  events : List Event
  /-- The files to write, by their paths. -/
  files : List (String × ByteArray)
  /-- How many pauses to make. -/
  pauses : Nat

namespace Live

/-- The machine with an allowance of one more line than there is, unless the input has no
more, and with one moment after the present one. -/
def limited (l : Live) : Machine :=
  let input := l.machine.world.console.input
  let allowance := if l.atEnd then none else some (input.lines.length + 1)
  { l.machine with
    world := { l.machine.world with
      console := { l.machine.world.console with input := { input with allowance } }
      later := [l.machine.world.clock] } }

/-- Whether a machine used up its allowance. -/
def lacksLine (m : Machine) : Bool := m.world.console.input.allowance = some 0

/-- Whether a machine used up its moments. -/
def readsClock (m : Machine) : Bool := m.world.later.isEmpty

/-- The path that an event is about. -/
def path? : Event → Option PathName
  | .reading name => some (.ofText name)
  | .writing _ name _ => some (.ofText name)
  | _ => none

/-- The places that events ask for and that were not looked at. -/
def unknownPlaces (l : Live) (events : List Event) : List (List String) :=
  (events.filterMap path?).flatMap fun p => p.places.filter (!l.known.contains ·)

/-- The files that were written in the course of events. -/
def writtenFiles (t : FileTree) (events : List Event) : List (String × ByteArray) :=
  events.filterMap fun
    | .writing _ name _ =>
        match t.read name with
        | .ok data => some ((PathName.ofText name).text, data)
        | .error _ => none
    | _ => none

/-- The effects that a machine has gathered. -/
def effects (m : Machine) : Effects where
  output := m.output.getD ""
  events := m.world.journal.reverse
  files := writtenFiles m.world.files m.world.journal.reverse
  pauses := m.world.pauses

/-- The machine without the effects it has gathered. -/
def settled (m : Machine) : Machine :=
  let console := { m.world.console with
    input := { m.world.console.input with allowance := none }, output := {} }
  { m with world := { m.world with console := console, later := [], journal := [], pauses := 0 } }

/-- Tries a tick. -/
def tick (l : Live) : Except Need (Except Fault Bool × Effects × Live) :=
  let (result, m) := l.limited.tick
  if lacksLine m then .error .line
  else if !l.timely && readsClock m then .error .moment
  else
    match l.unknownPlaces m.world.journal with
    | [] => .ok (result, effects m, { l with machine := settled m, timely := false })
    | places => .error (.places places)

/-- The machine with one more line of input.  An empty line is the end of the input. -/
def addLine (l : Live) (line : String) : Live :=
  if line = "" then { l with atEnd := true }
  else
    let input := l.machine.world.console.input
    let input := { input with lines := input.lines ++ [line.toList] }
    { l with
      machine := { l.machine with
        world := { l.machine.world with console := { l.machine.world.console with input } } } }

/-- The machine with a place looked at. -/
def addPlace (l : Live) (place : List String) (node : Option FileNode) : Live :=
  let files := l.machine.world.files
  let files := match node with
    | some node => files.insert place node
    | none => files
  { l with
    machine := { l.machine with world := { l.machine.world with files } }
    known := place :: l.known }

/-- The machine at the present moment. -/
def setClock (l : Live) (now : Clock) : Live :=
  { l with
    machine := { l.machine with world := { l.machine.world with clock := now } }
    timely := true }

end Live

/-- The status that the process ends with. -/
def exitStatus (code : Option Int) : UInt8 := UInt8.ofNat ((code.getD 0) % 256).toNat

end Befunge.CommandLine
