import Befunge.Command
import Befunge.StackStack
import Befunge.Text.Decimal

/-!
# Traces

A record describes one executed command as it is seen right after it ran.
-/

namespace Befunge

/-- One executed command. -/
structure TraceRecord where
  /-- The tick it ran in. -/
  tick : Nat
  /-- The number of the pointer. -/
  id : Int
  /-- The cell that was executed. -/
  command : Int
  /-- Where the pointer stood. -/
  position : Vec
  /-- The pointer's stacks after it, the topmost first. -/
  snapshot : List Stack
  /-- Whether the cell was part of a string. -/
  stringMode : Bool
deriving DecidableEq, Repr, Inhabited

/-- The stacks of a record, each from the bottom. -/
def TraceRecord.rows (r : TraceRecord) : List (List Int) := r.snapshot.map Stack.bottomFirst

/-- Whether all numbers of a record can be written. -/
def TraceRecord.isWritable (r : TraceRecord) : Bool :=
  (r.id :: r.position.x :: r.position.y :: r.rows.flatten).all Decimal.isWritable

/-- A record as it is shown in messages. -/
def TraceRecord.text (r : TraceRecord) : String :=
  "IP " ++ toString r.id ++ " hit " ++ Command.shown r.command ++ " at " ++ r.position.text ++
    "; stacks: " ++ Listing.ofRows r.rows

end Befunge
