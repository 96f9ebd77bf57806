import Befunge.SystemReport
import Befunge.Text.Utf8

/-!
# Executing commands

What each command does to a pointer and to the world.  Most anomalies are turned into a
turn of the pointer, a zero, or a status of minus one on the stack.  The few that are
not are faults: they end the tick they occur in, and everything that was done before
them stays done.

The pointer that executes a command does not move on to the next one.  `World.step`
does both.
-/

namespace Befunge

/-- An anomaly that ends a tick or a run. -/
inductive Fault where
  /-- A cell that is to be written as a character is not even a word. -/
  | notAWord
  /-- A number cannot be read or written. -/
  | number (e : Decimal.Error)
  /-- A pause cannot be made. -/
  | pause (e : PauseError)
  /-- Repetitions are nested too deep. -/
  | nestedTooDeep
  /-- What was written cannot be flushed at the end of a run. -/
  | unflushed (e : StreamError)
deriving DecidableEq, Repr

/-- The wording of a fault. -/
def Fault.message : Fault → String
  | .notAWord => CharError.notAWord.message
  | .number e => e.message
  | .pause e => e.message
  | .nestedTooDeep => "maximum recursion depth exceeded in comparison"
  | .unflushed e => e.message

/-- What is left after a pointer acted on the world. -/
structure Outcome where
  /-- The pointer. -/
  pointer : Pointer
  /-- The world. -/
  world : World
  /-- The anomaly it ended in. -/
  fault : Option Fault := none

namespace Outcome

/-- Whether nothing more is to be done for the pointer in this tick. -/
def isOver (r : Outcome) : Bool :=
  r.fault.isSome || !r.pointer.alive || r.world.exitCode.isSome

end Outcome

namespace Execute

/-- The status that is pushed when a device fails. -/
def failureStatus : Int := -1

/-- How deep repetitions may be nested. -/
def maxNesting : Nat := 490

/-! ## The stack -/

/-- Replaces the two top cells by one. -/
def combine (f : Int → Int → Int) (ip : Pointer) : Pointer :=
  let (b, ip) := ip.pop
  let (a, ip) := ip.pop
  ip.push (f a b)

/-- Replaces the top cell. -/
def transform (f : Int → Int) (ip : Pointer) : Pointer :=
  let (a, ip) := ip.pop
  ip.push (f a)

/-- Pushes the top cell once more. -/
def duplicate (ip : Pointer) : Pointer :=
  let (a, ip) := ip.pop
  (ip.push a).push a

/-- Exchanges the two top cells. -/
def swap (ip : Pointer) : Pointer :=
  let (b, ip) := ip.pop
  let (a, ip) := ip.pop
  (ip.push b).push a

/-- Begins a block, whose storage offset is the next cell. -/
def beginBlock (ip : Pointer) : Pointer :=
  let (n, ip) := ip.pop
  (ip.withPile (ip.pile.beginBlock n ip.storage)).withStorage (ip.position + ip.delta)

/-- Ends a block.  Without a block to end the pointer turns round. -/
def endBlock (ip : Pointer) : Pointer :=
  if ip.pile.isSingle then ip.reflect
  else
    let (n, popped) := ip.pop
    match popped.pile.endBlock n with
    | .ok (offset, pile) => (popped.withPile pile).withStorage offset
    | .error _ => ip.reflect

/-- Moves cells between the two topmost stacks.  With a single stack the pointer turns
round. -/
def under (ip : Pointer) : Pointer :=
  if ip.pile.isSingle then ip.reflect
  else
    let (n, popped) := ip.pop
    match popped.pile.under n with
    | .ok pile => popped.withPile pile
    | .error _ => ip.reflect

/-! ## Direction and flow -/

/-- Takes one of two directions, the first on zero. -/
def choose (onZero otherwise : Vec) (ip : Pointer) : Pointer :=
  let (a, ip) := ip.pop
  ip.head (if a = 0 then onZero else otherwise)

/-- Turns toward the lesser of two cells. -/
def compare (ip : Pointer) : Pointer :=
  let (b, ip) := ip.pop
  let (a, ip) := ip.pop
  if a < b then ip.turnLeft else if b < a then ip.turnRight else ip

/-- Sets the delta. -/
def setDelta (ip : Pointer) : Pointer :=
  let (delta, ip) := ip.popVec
  ip.head delta

/-- Makes one step of so many deltas. -/
def jump (ip : Pointer) (s : Space) : Pointer :=
  let (n, ip) := ip.pop
  if n = 0 then ip else ip.moveTo (s.bounds.next ip.position (ip.delta.scale n))

/-- Acts `n` times, or until nothing more is to be done for the pointer. -/
def repeated (act : Pointer → World → Outcome) : Nat → Pointer → World → Outcome
  | 0, ip, w => ⟨ip, w, none⟩
  | n + 1, ip, w =>
      let r := act ip w
      if r.isOver then r else repeated act n r.pointer r.world

/-- How often a command is executed that is to be repeated `n` times. -/
def times (command n : Int) : Nat := if Command.onceOnly.contains command then 1 else n.toNat

/-- Puts a pointer on the command that was repeated, unless that moved or turned it, or nothing
more is to be done for it. -/
def passOver (ip : Pointer) (target : Vec) (r : Outcome) : Outcome :=
  if r.isOver then r
  else if r.pointer.position = ip.position ∧ r.pointer.delta = ip.delta then
    { r with pointer := r.pointer.moveTo target }
  else r

/-- Refuses to repeat the next command.  How often it was to be repeated is gone from the stack. -/
def refuse (ip : Pointer) (w : World) : Outcome := ⟨ip.pop.2, w, some .nestedTooDeep⟩

/-- Repeats the next command as often as the stack says, without going there.  Afterwards the
pointer stands on that command, so that moving on passes over it, unless the
repetitions moved or turned it. -/
def iterate (execute : Int → Pointer → World → Outcome) (ip : Pointer) (w : World) : Outcome :=
  let (n, ip) := ip.pop
  let ((target, command), memory) := ip.peekCommand w.memory
  let w := w.withMemory memory
  if n = 0 then ⟨ip.moveTo target, w, none⟩
  else if n < 0 then ⟨ip, w, none⟩
  else passOver ip target (repeated (execute command) (times command n) ip w)

/-! ## Program space -/

/-- Pushes the next cell and goes there. -/
def fetch (ip : Pointer) (w : World) : Outcome :=
  let ip := ip.step w.space
  let (v, memory) := w.memory.get ip.position
  ⟨ip.push v, w.withMemory memory, none⟩

/-- Stores the top cell in the next cell and goes there. -/
def store (ip : Pointer) (w : World) : Outcome :=
  let (v, ip) := (ip.step w.space).pop
  ⟨ip, w.withMemory (w.memory.put ip.position v), none⟩

/-- Pushes a cell of program space. -/
def get (ip : Pointer) (w : World) : Outcome :=
  let (p, ip) := ip.popVec
  let (v, memory) := w.memory.get (ip.offset p)
  ⟨ip.push v, w.withMemory memory, none⟩

/-- Writes a cell of program space. -/
def put (ip : Pointer) (w : World) : Outcome :=
  let (p, ip) := ip.popVec
  let (v, ip) := ip.pop
  ⟨ip, w.withMemory (w.memory.put (ip.offset p) v), none⟩

/-! ## The console -/

/-- What is left after a pointer wrote a cell.  A cell that is no character turns the pointer
round, and so does a failing console. -/
def afterWriting (ip : Pointer) (w : World) : Except WriteError Console → Outcome
  | .ok console => ⟨ip, w.withConsole console, none⟩
  | .error (.character .notAWord) => ⟨ip, w, some .notAWord⟩
  | .error (.character _) => ⟨ip.reflect, w, none⟩
  | .error (.number e) => ⟨ip, w, some (.number e)⟩
  | .error (.stream e) => ⟨ip.reflect, w.note (.outputFailed ip.id e), none⟩

/-- Writes a character. -/
def writeChar (ip : Pointer) (w : World) : Outcome :=
  let (v, ip) := ip.pop
  afterWriting ip w (w.console.writeChar v)

/-- Writes a number. -/
def writeInteger (ip : Pointer) (w : World) : Outcome :=
  let (v, ip) := ip.pop
  afterWriting ip w (w.console.writeInteger v)

/-- Reads a character. -/
def readChar (ip : Pointer) (w : World) : Outcome :=
  let (result, console) := w.console.readChar
  let w := w.withConsole console
  match result with
  | .ok v => ⟨ip.push v, w, none⟩
  | .error e => ⟨ip.push failureStatus, w.note (.inputFailed ip.id e), none⟩

/-- Reads a number. -/
def readInteger (ip : Pointer) (w : World) : Outcome :=
  let (result, console) := w.console.readInteger
  let w := w.withConsole console
  match result with
  | .ok v => ⟨ip.push (Cell.wrap v), w, none⟩
  | .error (.stream e) => ⟨ip.push failureStatus, w.note (.inputFailed ip.id e), none⟩
  | .error (.number e) => ⟨ip, w, some (.number e)⟩

/-! ## Files and commands -/

/-- Whether the lowest bit of some flags is set. -/
def lowBit (flags : Int) : Bool := flags % 2 = 1

/-- Reads a file into program space and pushes its size and where it was placed.  With the
low bit set every byte is one cell of a single row. -/
def inputFile (ip : Pointer) (w : World) : Outcome :=
  let (name, ip) := ip.popText
  let (flags, ip) := ip.pop
  let (p, ip) := ip.popVec
  let origin := ip.offset p
  match name with
  | none => ⟨ip.push failureStatus, w, none⟩
  | some name =>
      let name := String.ofList name
      match w.loadFile name with
      | (.error e, w) => ⟨ip.push failureStatus, w.note (.readFailed ip.id name e), none⟩
      | (.ok data, w) =>
          let linear := lowBit flags
          let text := if linear then Utf8.bytewise data else Utf8.decode data
          let (size, memory) := w.memory.place text origin linear
          ⟨(ip.pushVec size).pushVec origin, w.withMemory memory, none⟩

/-- The bytes that are written for a region.  With trimming, blanks at the end of a row and
empty rows at the end are left out. -/
def regionBytes (s : Space) (p : Vec) (width height : Nat) (trim : Bool) : ByteArray :=
  let rows := s.region p width height
  let rows := if trim then Lines.dropEmptyEnd (rows.map Lines.trimEnd) else rows
  Utf8.encode (Lines.terminated rows)

/-- Writes a region of program space to a file. -/
def outputFile (ip : Pointer) (w : World) : Outcome :=
  let (name, ip) := ip.popText
  let (flags, ip) := ip.pop
  let (p, ip) := ip.popVec
  let (size, ip) := ip.popVec
  match name with
  | none => ⟨ip.push failureStatus, w, none⟩
  | some name =>
      if size.x < 0 ∨ size.y < 0 then ⟨ip.push failureStatus, w, none⟩
      else
        let name := String.ofList name
        let data := regionBytes w.space (ip.offset p) size.x.toNat size.y.toNat (lowBit flags)
        match w.saveFile name data 0 with
        | (.error e, w) => ⟨ip.push failureStatus, w.note (.writeFailed ip.id name e), none⟩
        | (.ok _, w) => ⟨ip, w, none⟩

/-- Runs a text in the command interpreter and pushes its status. -/
def execute (ip : Pointer) (w : World) : Outcome :=
  let (text, ip) := ip.popText
  match text with
  | none => ⟨ip.push failureStatus, w, none⟩
  | some text =>
      let text := String.ofList text
      match w.runCommand text with
      | (.error e, w) => ⟨ip.push failureStatus, w.note (.executeFailed ip.id text e), none⟩
      | (.ok status, w) => ⟨ip.push (Cell.wrap status), w, none⟩

/-! ## The report and fingerprints -/

/-- Pushes the report, or only one of its cells where a positive number asks for that.  Numbers
past the report count on into the stack under it. -/
def report (ip : Pointer) (w : World) : Pointer :=
  let (n, ip) := ip.pop
  let cells := SystemReport.cells w ip
  let pile := ip.pile.pushAll cells
  if 0 < n then
    ip.withPile ((pile.discard cells.length).push (pile.nth n))
  else ip.withPile pile

/-- Removes the spelling of a fingerprint's code from the stack.  Without characters there is
no code. -/
def popCode (ip : Pointer) : Option Int × Pointer :=
  let (count, ip) := ip.pop
  if count ≤ 0 then (none, ip)
  else
    let (cells, top) := ip.pile.top.take count
    (some (Fingerprint.codeOfCells cells), ip.withPile { ip.pile with top := top })

/-- Loads a fingerprint and pushes its code and a one.  An unknown one turns the pointer
round. -/
def loadFingerprint (ip : Pointer) (w : World) : Outcome :=
  let (code, ip) := popCode ip
  match code with
  | none => ⟨ip.reflect, w, none⟩
  | some code =>
      match w.registry.find code with
      | none => ⟨ip.reflect, w, none⟩
      | some f =>
          let ip := ip.withOverlay (ip.overlay.load f)
          ⟨(ip.push code).push 1, w.note (.fingerprintLoaded ip.id f.name), none⟩

/-- Unloads a fingerprint.  An unknown one turns the pointer round. -/
def unloadFingerprint (ip : Pointer) (w : World) : Outcome :=
  let (code, ip) := popCode ip
  match code.bind w.registry.find with
  | none => ⟨ip.reflect, w, none⟩
  | some f =>
      ⟨ip.withOverlay (ip.overlay.unload f), w.note (.fingerprintUnloaded ip.id f.name), none⟩

/-- Does what a meaning says. -/
def mean (ip : Pointer) : Meaning → Pointer
  | .reflect => ip.reflect
  | .literal v => ip.push v
  | .bitAnd => combine (fun a b => Cell.wrap (Bits.and a b)) ip
  | .bitOr => combine (fun a b => Cell.wrap (Bits.or a b)) ip
  | .bitXor => combine (fun a b => Cell.wrap (Bits.xor a b)) ip
  | .bitNot => transform (fun a => Cell.wrap (Bits.not a)) ip
  | .floored => combine (fun a b => Cell.wrap (Cell.floored a b)) ip
  | .magnitude => combine (fun a b => Cell.wrap (Cell.magnitude a b)) ip
  | .truncated => combine (fun a b => Cell.wrap (Cell.remainder a b)) ip
  | .other change =>
      match change ip.pile.top.cells with
      | some cells => ip.withPile { ip.pile with top := ⟨cells⟩ }
      | none => ip.reflect

/-- Does what the loaded fingerprints say of a letter.  A letter without a meaning turns the
pointer round. -/
def letter (c : Char) (ip : Pointer) : Pointer :=
  match ip.overlay.active c with
  | some m => mean ip m
  | none => ip.reflect

/-- Does what a command says, where `repetition` is what repeating the next command does. -/
def run (repetition : Pointer → World → Outcome) (c : Command) (ip : Pointer) (w : World) :
    Outcome :=
  match c with
  | .literal v => ⟨ip.push v, w, none⟩
  | .compute op => ⟨combine op.apply ip, w, none⟩
  | .logicalNot => ⟨transform (fun a => Cell.ofBool (a = 0)) ip, w, none⟩
  | .duplicate => ⟨duplicate ip, w, none⟩
  | .drop => ⟨ip.pop.2, w, none⟩
  | .swap => ⟨swap ip, w, none⟩
  | .clear => ⟨ip.withPile ip.pile.clear, w, none⟩
  | .beginBlock => ⟨beginBlock ip, w, none⟩
  | .endBlock => ⟨endBlock ip, w, none⟩
  | .under => ⟨under ip, w, none⟩
  | .go delta => ⟨ip.head delta, w, none⟩
  | .goAway => ⟨ip.head w.roll.1, w.roll.2, none⟩
  | .eastWestIf => ⟨choose Vec.east Vec.west ip, w, none⟩
  | .northSouthIf => ⟨choose Vec.south Vec.north ip, w, none⟩
  | .turnLeft => ⟨ip.turnLeft, w, none⟩
  | .turnRight => ⟨ip.turnRight, w, none⟩
  | .compare => ⟨compare ip, w, none⟩
  | .reflect => ⟨ip.reflect, w, none⟩
  | .setDelta => ⟨setDelta ip, w, none⟩
  | .trampoline => ⟨ip.step w.space, w, none⟩
  | .jump => ⟨jump ip w.space, w, none⟩
  | .iterate => repetition ip w
  | .noOperation => ⟨ip, w, none⟩
  | .stop => ⟨(w.retire ip).1, (w.retire ip).2, none⟩
  | .quit => ⟨ip.pop.2, w.quit ip.pop.1, none⟩
  | .split => ⟨ip, w.split ip, none⟩
  | .beginString => ⟨ip.withStringMode true, w, none⟩
  | .fetch => fetch ip w
  | .store => store ip w
  | .get => get ip w
  | .put => put ip w
  | .writeChar => writeChar ip w
  | .writeInteger => writeInteger ip w
  | .readChar => readChar ip w
  | .readInteger => readInteger ip w
  | .inputFile => inputFile ip w
  | .outputFile => outputFile ip w
  | .execute => execute ip w
  | .report => ⟨report ip w, w.afterReport, none⟩
  | .loadFingerprint => loadFingerprint ip w
  | .unloadFingerprint => unloadFingerprint ip w
  | .letter c => ⟨letter c ip, w, none⟩

/-- Does what a cell says, where `repetition` is what repeating the next command does.  A cell that
asks for no command turns the pointer round. -/
def obey (repetition : Pointer → World → Outcome) (v : Int) (ip : Pointer) (w : World) :
    Outcome :=
  match Command.ofCell? v with
  | none => ⟨ip.reflect, w, none⟩
  | some c => run repetition c ip w

/-- Repeats the next command, where repetitions may be nested `depth` deep. -/
def repetitionWithin : Nat → Pointer → World → Outcome
  | 0, ip, w => refuse ip w
  | depth + 1, ip, w => iterate (obey (repetitionWithin depth)) ip w

/-- Executes a cell. -/
def cell (v : Int) (ip : Pointer) (w : World) : Outcome :=
  obey (repetitionWithin maxNesting) v ip w

end Execute

namespace World

/-- Executes the cell under a pointer and moves the pointer on.  In string mode the cell is
pushed, and a quote ends that mode.  Also gives the cell. -/
def step (w : World) (ip : Pointer) : Int × Outcome :=
  let (v, memory) := w.memory.get ip.position
  let w := w.withMemory memory
  if ip.stringMode then
    let ip := if v = Cell.quote then ip.withStringMode false else ip.push v
    let (ip, memory) := ip.advance w.memory (v = Cell.blank)
    (v, ⟨ip, w.withMemory memory, none⟩)
  else
    let r := Execute.cell v ip w
    if r.fault.isNone && r.pointer.alive then
      let (ip, memory) := r.pointer.advance r.world.memory false
      (v, ⟨ip, r.world.withMemory memory, none⟩)
    else (v, r)

end World

end Befunge
