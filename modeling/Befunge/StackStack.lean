import Befunge.Stack

/-!
# Stacks of stacks

A pointer works on the topmost of a pile of stacks.  A block puts a fresh stack on
the pile and takes it off again.  While it is open, the stack under the topmost
one keeps the storage offset that held outside the block.
-/

namespace Befunge

/-- Why an operation on a pile of stacks is refused. -/
inductive StackError where
  /-- A block is ended that was never begun. -/
  | noEnclosingBlock
  /-- Cells are moved to or from a second stack that is not there. -/
  | noSecondStack
  /-- A stack is named that is not there. -/
  | noSuchStack
deriving DecidableEq, Repr

/-- The wording of a refusal. -/
def StackError.message : StackError → String
  | .noEnclosingBlock => "end of block with no enclosing block"
  | .noSecondStack => "stack under stack with a single stack"
  | .noSuchStack => "list index out of range"

/-- A pile of stacks.  There is always a topmost one. -/
@[ext]
structure StackStack where
  /-- The topmost stack, on which commands work. -/
  top : Stack
  /-- The stacks under it, the nearest first. -/
  below : List Stack
deriving DecidableEq, Repr, Inhabited

namespace StackStack

/-- One empty stack. -/
def empty : StackStack := ⟨Stack.empty, []⟩

/-- All stacks, the topmost first. -/
def toList (s : StackStack) : List Stack := s.top :: s.below

/-- How many stacks there are. -/
def size (s : StackStack) : Nat := s.below.length + 1

/-- Whether the topmost stack is the only one. -/
def isSingle (s : StackStack) : Bool := s.below.isEmpty

/-- How many cells each stack holds, the topmost first. -/
def sizes (s : StackStack) : List Nat := s.toList.map Stack.size

/-- The stack under the topmost one. -/
def second (s : StackStack) : Except StackError Stack :=
  match s.below with
  | [] => .error .noSuchStack
  | second :: _ => .ok second

/-! ## The topmost stack -/

/-- Puts a cell on the topmost stack. -/
def push (s : StackStack) (v : Int) : StackStack := { s with top := s.top.push v }

/-- Puts cells on the topmost stack, the first of them uppermost. -/
def pushAll (s : StackStack) (cells : List Int) : StackStack :=
  { s with top := s.top.pushAll cells }

/-- Removes a cell from the topmost stack. -/
def pop (s : StackStack) : Int × StackStack := (s.top.pop.1, { s with top := s.top.pop.2 })

/-- The top cell of the topmost stack. -/
def peek (s : StackStack) : Int := s.top.peek

/-- Empties the topmost stack. -/
def clear (s : StackStack) : StackStack := { s with top := Stack.empty }

/-- Puts a vector on the topmost stack. -/
def pushVec (s : StackStack) (p : Vec) : StackStack := { s with top := s.top.pushVec p }

/-- Removes a vector from the topmost stack. -/
def popVec (s : StackStack) : Vec × StackStack := (s.top.popVec.1, { s with top := s.top.popVec.2 })

/-- Puts a text on the topmost stack. -/
def pushText (s : StackStack) (text : List CodePoint) : StackStack :=
  { s with top := s.top.pushText text }

/-- Removes a text from the topmost stack. -/
def popText (s : StackStack) : Option (List Char) × StackStack :=
  (s.top.popText.1, { s with top := s.top.popText.2 })

/-- The `n`-th cell of the topmost stack. -/
def nth (s : StackStack) (n : Int) : Int := s.top.nth n

/-- Forgets the top `n` cells of the topmost stack. -/
def discard (s : StackStack) (n : Int) : StackStack := { s with top := s.top.discard n }

/-! ## Blocks -/

/-- Begins a block.  The new topmost stack gets the top `n` cells in their order.  A
negative `n` puts as many zeros on the old topmost stack instead.  The old one
then keeps the storage offset. -/
def beginBlock (s : StackStack) (n : Int) (offset : Vec) : StackStack :=
  let (moved, rest) := s.top.take n
  let kept := rest.pushAll (List.replicate (-n).toNat 0)
  ⟨⟨moved⟩, kept.pushVec offset :: s.below⟩

/-- Ends a block and gives the storage offset that was kept.  The top `n` cells of the
stack that goes away are moved in their order onto the one under it.  A negative
`n` removes as many cells from that one instead. -/
def endBlock (s : StackStack) (n : Int) : Except StackError (Vec × StackStack) :=
  match s.below with
  | [] => .error .noEnclosingBlock
  | second :: rest =>
      let (offset, kept) := second.popVec
      .ok (offset, ⟨(kept.discard (-n)).pushAll (s.top.take n).1, rest⟩)

/-- Moves `n` cells from the second stack to the topmost one, one at a time.  A negative
`n` moves as many the other way. -/
def under (s : StackStack) (n : Int) : Except StackError StackStack :=
  match s.below with
  | [] => .error .noSecondStack
  | second :: rest =>
      if 0 ≤ n then
        let (second, top) := Stack.transfer n.toNat second s.top
        .ok ⟨top, second :: rest⟩
      else
        let (top, second) := Stack.transfer (-n).toNat s.top second
        .ok ⟨top, second :: rest⟩

/-! ## Stacks by number -/

/-- The place of the `i`-th stack from the topmost one.  Numbers past the lowest stack
start over at the topmost one, a single time. -/
def place? (s : StackStack) (i : Int) : Option Nat :=
  if 0 ≤ i ∧ i < s.size then some i.toNat
  else if s.size ≤ i ∧ i < 2 * s.size then some (i - s.size).toNat
  else none

/-- The `i`-th stack from the topmost one. -/
def stackAt (s : StackStack) (i : Int) : Except StackError Stack :=
  match (s.place? i).bind (s.toList[·]?) with
  | some stack => .ok stack
  | none => .error .noSuchStack

/-- The pile with the stack at a place replaced. -/
def setAt (s : StackStack) (place : Nat) (stack : Stack) : StackStack :=
  match place with
  | 0 => { s with top := stack }
  | n + 1 => { s with below := s.below.set n stack }

/-- Works on the `i`-th stack from the topmost one. -/
def atStack {α : Type} (s : StackStack) (i : Int) (f : Stack → α × Stack) :
    Except StackError (α × StackStack) := do
  let (result, stack) := f (← s.stackAt i)
  return (result, s.setAt ((s.place? i).getD 0) stack)

/-- Every stack's cells from the bottom, the topmost stack first. -/
def rows (s : StackStack) : List (List Int) := s.toList.map Stack.bottomFirst

/-- A block takes two of three cells along and gives one back. -/
example : ((⟨⟨[3, 2, 1]⟩, []⟩ : StackStack).beginBlock 2 ⟨8, 9⟩) = ⟨⟨[3, 2]⟩, [⟨[9, 8, 1]⟩]⟩ := by
  decide

example : ((⟨⟨[3, 2]⟩, [⟨[9, 8, 1]⟩]⟩ : StackStack).endBlock 1).toOption =
    some (⟨8, 9⟩, ⟨⟨[3, 1]⟩, []⟩) := by decide

example : ((⟨⟨[1]⟩, [⟨[2, 3]⟩]⟩ : StackStack).under 2).toOption = some ⟨⟨[3, 2, 1]⟩, [⟨[]⟩]⟩ := by
  decide

end StackStack

end Befunge
