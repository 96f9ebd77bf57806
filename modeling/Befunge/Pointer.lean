import Befunge.Course
import Befunge.Fingerprint
import Befunge.Memory
import Befunge.StackStack

/-!
# Instruction pointers

A pointer is one thread of a program.  It stands on a cell, moves by its delta, and has
a pile of stacks, a storage offset and meanings for the letters of its own.
-/

namespace Befunge

/-- One thread of a program. -/
structure Pointer where
  /-- The number the pointer was given when it was made. -/
  id : Int
  /-- The cell it stands on. -/
  position : Vec := Vec.zero
  /-- Its displacement in one step. -/
  delta : Vec := Vec.east
  /-- The origin of the coordinates it reads and writes at. -/
  storage : Vec := Vec.zero
  /-- Its stacks. -/
  pile : StackStack := StackStack.empty
  /-- Whether cells are pushed and not executed. -/
  stringMode : Bool := false
  /-- Whether it has not been stopped. -/
  alive : Bool := true
  /-- What the letters mean to it. -/
  overlay : Overlay := {}
deriving Inhabited

namespace Pointer

/-- A living copy under another number. -/
def clone (ip : Pointer) (id : Int) : Pointer := { ip with id := id, alive := true }

/-- The pointer on another cell. -/
def moveTo (ip : Pointer) (p : Vec) : Pointer := { ip with position := p }

/-- The pointer with another delta. -/
def head (ip : Pointer) (delta : Vec) : Pointer := { ip with delta := delta }

/-- The pointer with other stacks. -/
def withPile (ip : Pointer) (pile : StackStack) : Pointer := { ip with pile := pile }

/-- The pointer with another storage offset. -/
def withStorage (ip : Pointer) (storage : Vec) : Pointer := { ip with storage := storage }

/-- The pointer with string mode on or off. -/
def withStringMode (ip : Pointer) (on : Bool) : Pointer := { ip with stringMode := on }

/-- The pointer with other meanings for the letters. -/
def withOverlay (ip : Pointer) (overlay : Overlay) : Pointer := { ip with overlay := overlay }

/-- The pointer after it was stopped. -/
def stopped (ip : Pointer) : Pointer := { ip with alive := false }

/-! ## Stacks -/

/-- Pushes a cell. -/
def push (ip : Pointer) (v : Int) : Pointer := ip.withPile (ip.pile.push v)

/-- Pops a cell. -/
def pop (ip : Pointer) : Int × Pointer := (ip.pile.pop.1, ip.withPile ip.pile.pop.2)

/-- Pushes a vector. -/
def pushVec (ip : Pointer) (p : Vec) : Pointer := ip.withPile (ip.pile.pushVec p)

/-- Pops a vector. -/
def popVec (ip : Pointer) : Vec × Pointer := (ip.pile.popVec.1, ip.withPile ip.pile.popVec.2)

/-- Pops a text. -/
def popText (ip : Pointer) : Option (List Char) × Pointer :=
  (ip.pile.popText.1, ip.withPile ip.pile.popText.2)

/-! ## Direction -/

/-- Turns round. -/
def reflect (ip : Pointer) : Pointer := ip.head (-ip.delta)

/-- Turns left. -/
def turnLeft (ip : Pointer) : Pointer := ip.head ip.delta.turnLeft

/-- Turns right. -/
def turnRight (ip : Pointer) : Pointer := ip.head ip.delta.turnRight

/-- A vector counted from the storage offset. -/
def offset (ip : Pointer) (p : Vec) : Vec := p + ip.storage

/-! ## Movement -/

/-- One step along the delta. -/
def step (ip : Pointer) (s : Space) : Pointer := ip.moveTo (s.bounds.next ip.position ip.delta)

/-- Goes on to the next command, which may be the one under the pointer. -/
def findCommand (ip : Pointer) (m : Memory) : Pointer × Memory :=
  let (p, reads) := Course.findCommand m.space ip.delta ip.position
  (ip.moveTo p, m.countReads reads)

/-- Goes on to the next cell that is not blank. -/
def skipBlanks (ip : Pointer) (m : Memory) : Pointer × Memory :=
  let (p, reads) := Course.skipBlanks m.space ip.delta ip.position
  (ip.moveTo p, m.countReads reads)

/-- Moves to the next cell to execute.  In string mode that is the next cell, or, where
a run of blanks is to be collapsed, the next one that is not blank. -/
def advance (ip : Pointer) (m : Memory) (collapse : Bool) : Pointer × Memory :=
  let ip := ip.step m.space
  if ip.stringMode = false then ip.findCommand m
  else if collapse then ip.skipBlanks m
  else (ip, m)

/-- Where the next command after this one stands, and which it is. -/
def peekCommand (ip : Pointer) (m : Memory) : (Vec × Int) × Memory :=
  let (ahead, m) := (ip.step m.space).findCommand m
  let (command, m) := m.get ahead.position
  ((ahead.position, command), m)

/-- A pointer as it is shown in messages. -/
def text (ip : Pointer) : String :=
  "InstructionPointer(id=" ++ toString ip.id ++ ", pos=" ++ ip.position.text ++
    ", delta=" ++ ip.delta.text ++ ")"

end Pointer

end Befunge
