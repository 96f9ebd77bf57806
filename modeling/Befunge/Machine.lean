import Befunge.Execute

/-!
# Machines

A machine runs its pointers in ticks.  In a tick every pointer executes one cell, in the
order of their numbers.  Pointers that are made in a tick take part from the next
one on, and pointers that stopped are gone by then.  A pointer that ends the
program ends it at once.

A tick that ends in a fault leaves everything as it was when the fault occurred.  The
next tick starts over with the same pointers, also those that stopped meanwhile.
-/

namespace Befunge

/-- A machine. -/
structure Machine where
  /-- What the pointers share. -/
  world : World
  /-- The pointers that take part in the next tick, in the order of their numbers. -/
  pointers : List Pointer
deriving Inhabited

/-- What a machine counted. -/
structure Stats where
  /-- The ticks that began. -/
  ticks : Nat
  /-- The commands that were executed. -/
  instructions : Nat
  /-- The pointers that were made by other pointers. -/
  spawned : Nat
  /-- The pointers that stopped. -/
  retired : Nat
  /-- The greatest number of pointers at the end of a tick. -/
  peak : Nat
  /-- How often a cell was read. -/
  reads : Nat
  /-- How often a cell was written. -/
  writes : Nat
  /-- How many cells are defined. -/
  cells : Nat
deriving DecidableEq, Repr, Inhabited

/-- The exit code of a program that used up its ticks. -/
def exhaustedCode : Int := 1

/-- The counts as they are shown at the end of a run. -/
def Stats.text (s : Stats) : String :=
  "Ticks: " ++ toString s.ticks ++ "\nInstructions: " ++ toString s.instructions ++
    "\nIPs: " ++ toString s.spawned ++ " spawned, " ++ toString s.retired ++ " stopped, peak " ++
    toString s.peak ++ "\nSpace: " ++ toString s.reads ++ "R/" ++ toString s.writes ++ "W (" ++
    toString s.cells ++ " cells defined)"

namespace World

/-- Counts an executed command and enters it into the journal. -/
def countInstruction (w : World) (record : TraceRecord) : World :=
  (w.withTally { w.tally with instructions := w.tally.instructions + 1 }).note (.executed record)

/-- Shows an executed command where that is asked for. -/
def showRecord (w : World) (record : TraceRecord) : Except Fault Unit :=
  if w.config.trace && !record.isWritable then .error (.number .tooGreat) else .ok ()

/-- Makes the pause that follows every command. -/
def pause (w : World) : Except Fault World :=
  if w.config.pause.isNone then .ok w
  else
    match w.config.pause.refusal? with
    | some e => .error (.pause e)
    | none => .ok { w with pauses := w.pauses + 1 }

/-- The record of a cell that the pointer `ip` executed, by what that left. -/
def recordOf (ip : Pointer) (v : Int) (r : Outcome) : TraceRecord where
  tick := r.world.tally.ticks
  id := r.pointer.id
  command := v
  position := ip.position
  snapshot := r.pointer.pile.toList
  stringMode := ip.stringMode

/-- Gives a pointer its turn in a tick. -/
def perform (w : World) (ip : Pointer) : Outcome :=
  let (v, r) := w.step ip
  match r.fault with
  | some _ => r
  | none =>
      let record := recordOf ip v r
      let w' := r.world.countInstruction record
      match w'.showRecord record with
      | .error f => ⟨r.pointer, w', some f⟩
      | .ok () =>
          match w'.pause with
          | .ok w' => ⟨r.pointer, w', none⟩
          | .error f => ⟨r.pointer, w', some f⟩

end World

/-- How the turns of a tick ended. -/
inductive RoundEnd where
  /-- Every pointer had its turn. -/
  | complete
  /-- A pointer ended the program. -/
  | ended
  /-- A pointer met a fault. -/
  | faulted (f : Fault)
deriving DecidableEq, Repr

/-- What is left after the turns of a tick. -/
structure Round where
  /-- All pointers, those that had their turn and those that had not. -/
  pointers : List Pointer
  /-- The world. -/
  world : World
  /-- How the turns ended. -/
  ending : RoundEnd

/-- Gives pointers their turns until one of them ends that. -/
def World.round (w : World) : List Pointer → Round
  | [] => ⟨[], w, .complete⟩
  | ip :: rest =>
      let r := w.perform ip
      match r.fault with
      | some f => ⟨r.pointer :: rest, r.world, .faulted f⟩
      | none =>
          if r.world.status = .running then
            let after := r.world.round rest
            { after with pointers := r.pointer :: after.pointers }
          else ⟨r.pointer :: rest, r.world, .ended⟩

/-- Counts a tick that begins. -/
def World.countTick (w : World) : World :=
  w.withTally { w.tally with ticks := w.tally.ticks + 1 }

/-- Counts the pointers at the end of a tick, and forgets those that were made in it. -/
def World.countPointers (w : World) (pointers : List Pointer) : World :=
  { w.withTally { w.tally with peak := max w.tally.peak pointers.length } with spawned := [] }

/-- Ends a program that used up its ticks. -/
def World.exhaust (w : World) (maxTicks : Int) : World :=
  (w.ended .halted exhaustedCode).note (.exhausted maxTicks)

namespace Machine

/-- A machine on a world, with one pointer that stands on the first command from the
origin on. -/
def start (w : World) : Machine :=
  let (first, memory) := ({ id := w.nextId } : Pointer).findCommand w.memory
  { world :=
      { w with memory := memory, nextId := w.nextId + 1, tally := { w.tally with peak := 1 } }
    pointers := [first] }

/-- Whether the program has used up its ticks, and how many it had. -/
def budgetSpent (m : Machine) : Option Int :=
  m.world.config.maxTicks.filter (· ≤ Int.ofNat m.world.tally.ticks)

/-- The machine after a tick's turns came to an end of their own.  The pointers that
stopped are gone and those that were made take part. -/
def settle (pointers : List Pointer) (w : World) : Bool × Machine :=
  let pointers := pointers.filter (·.alive) ++ w.spawned.reverse
  let w := w.countPointers pointers
  if pointers = [] then (false, ⟨w.ended .done 0, []⟩) else (true, ⟨w, pointers⟩)

/-- One tick.  Tells whether the machine is still running, or which fault ended the tick. -/
def tick (m : Machine) : Except Fault Bool × Machine :=
  if m.world.status ≠ .running then (.ok false, m)
  else
    match m.budgetSpent with
    | some maxTicks => (.ok false, { m with world := m.world.exhaust maxTicks })
    | none =>
        let r := m.world.countTick.round m.pointers
        match r.ending with
        | .faulted f => (.error f, ⟨r.world, r.pointers⟩)
        | .ended => (.ok false, ⟨{ r.world with spawned := [] }, []⟩)
        | .complete =>
            let (running, m) := settle r.pointers r.world
            (.ok running, m)

/-- How a run ended. -/
inductive RunEnd where
  /-- The machine is no longer running. -/
  | finished
  /-- A fault ended it. -/
  | faulted (f : Fault)
  /-- The run was cut off. -/
  | cut
deriving DecidableEq, Repr

/-- Ticks until the machine is no longer running, at most `limit` times. -/
def advance : Nat → Machine → RunEnd × Machine
  | 0, m => (.cut, m)
  | limit + 1, m =>
      match m.tick with
      | (.ok true, m) => advance limit m
      | (.ok false, m) => (.finished, m)
      | (.error f, m) => (.faulted f, m)

/-- Flushes what was written. -/
def flush (m : Machine) : Except Fault Machine :=
  match m.world.console.flush with
  | .ok console => .ok { m with world := m.world.withConsole console }
  | .error e => .error (.unflushed e)

/-- Flushes what was written unless the run was cut off. -/
def conclude (ending : RunEnd) (m : Machine) : RunEnd × Machine :=
  if ending = .cut then (.cut, m)
  else
    match m.flush with
    | .ok m => (ending, m)
    | .error f => (.faulted f, m)

/-- Runs the program for at most `limit` ticks.  Where it ends, also in a fault, what was written is
flushed. -/
def run (limit : Nat) (m : Machine) : RunEnd × Machine :=
  let (ending, m) := m.advance limit
  m.conclude ending

/-- Sets all counts to nothing. -/
def resetCounters (m : Machine) : Machine :=
  { m with
    world :=
      { m.world with
        tally := { peak := m.pointers.length }
        memory := { m.world.memory with reads := 0, writes := 0 } } }

/-- What was counted. -/
def stats (m : Machine) : Stats where
  ticks := m.world.tally.ticks
  instructions := m.world.tally.instructions
  spawned := m.world.tally.spawned
  retired := m.world.tally.retired
  peak := m.world.tally.peak
  reads := m.world.memory.reads
  writes := m.world.memory.writes
  cells := m.world.space.size

/-- The executed commands, in order. -/
def trace (m : Machine) : List TraceRecord := m.world.journal.reverse.filterMap Event.record?

/-- What was written. -/
def output (m : Machine) : Option String := m.world.console.output.written

end Machine

end Befunge
