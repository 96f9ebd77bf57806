import Befunge.Cell
import Befunge.Text.CodePoint
import Befunge.Text.Listing
import Befunge.Vec

/-!
# Stacks

A stack behaves as if it sat on an endless pile of zeros: popping an empty stack
gives zero, and cells that are taken from beyond the bottom are zeros.

Text is kept on a stack with its first character on top and a zero under its last
one, so it pops in reading order.  Any row of code points can be put on a stack, but only
characters are given back as a text.
-/

namespace Befunge

/-- A stack of cells. -/
@[ext]
structure Stack where
  /-- The cells, the top first. -/
  cells : List Int
deriving DecidableEq, Repr, Inhabited

namespace Stack

/-- The stack with no cell. -/
def empty : Stack := ⟨[]⟩

/-- How many cells the stack holds. -/
def size (s : Stack) : Nat := s.cells.length

/-- Puts a cell on top. -/
def push (s : Stack) (v : Int) : Stack := ⟨v :: s.cells⟩

/-- Removes the top cell. -/
def pop (s : Stack) : Int × Stack :=
  match s.cells with
  | [] => (0, s)
  | v :: r => (v, ⟨r⟩)

/-- The top cell. -/
def peek (s : Stack) : Int := s.pop.1

/-- Puts a vector on top, its second coordinate uppermost. -/
def pushVec (s : Stack) (p : Vec) : Stack := (s.push p.x).push p.y

/-- Removes a vector. -/
def popVec (s : Stack) : Vec × Stack :=
  let (y, s) := s.pop
  let (x, s) := s.pop
  (⟨x, y⟩, s)

/-- The `n`-th cell from the top, counted from one.  There is a zero wherever the
stack has no cell. -/
def nth (s : Stack) (n : Int) : Int :=
  if 0 < n then s.cells.getD (n - 1).toNat 0 else 0

/-- Removes the top `n` cells, listed from the top.  Missing ones are zeros.  A
number below one removes nothing. -/
def take (s : Stack) (n : Int) : List Int × Stack :=
  (s.cells.take n.toNat ++ List.replicate (n.toNat - s.cells.length) 0, ⟨s.cells.drop n.toNat⟩)

/-- Forgets the top `n` cells, or all there are. -/
def discard (s : Stack) (n : Int) : Stack := ⟨s.cells.drop n.toNat⟩

/-- Puts cells on top, the first of them uppermost. -/
def pushAll (s : Stack) (cells : List Int) : Stack := ⟨cells ++ s.cells⟩

/-- The cells a text takes on a stack, from the top. -/
def textCells (text : List CodePoint) : List Int := text.map CodePoint.cell ++ [0]

/-- Puts a text on top. -/
def pushText (s : Stack) (text : List CodePoint) : Stack := s.pushAll (textCells text)

/-- Removes the cells down to the topmost zero, and that zero.  They are a text if
each of them is a character. -/
def popText (s : Stack) : Option (List Char) × Stack :=
  ((s.cells.takeWhile (· ≠ 0)).mapM Cell.char?, ⟨(s.cells.dropWhile (· ≠ 0)).drop 1⟩)

/-- Moves `n` cells one by one, so they arrive in reverse order.  Gives the stack they
left and the stack they came to. -/
def transfer : Nat → Stack → Stack → Stack × Stack
  | 0, source, target => (source, target)
  | n + 1, source, target => transfer n source.pop.2 (target.push source.pop.1)

/-- The cells from the bottom, as a list is written. -/
def bottomFirst (s : Stack) : List Int := s.cells.reverse

/-- A stack as it is shown in messages. -/
def text (s : Stack) : String := "Stack(" ++ Listing.ofInts s.bottomFirst ++ ")"

example : (take ⟨[3, 2]⟩ 4) = ([3, 2, 0, 0], ⟨[]⟩) ∧ (take ⟨[3]⟩ (-1)) = ([], ⟨[3]⟩) := by decide

example : popText (pushText ⟨[7]⟩ (CodePoint.ofChars ['H', 'i'])) = (some ['H', 'i'], ⟨[7]⟩) := by
  decide +kernel

/-- A cell that is no character spoils the text, and the rest of it is removed all the same. -/
example : popText ⟨[72, -5, 105, 0, 7]⟩ = (none, ⟨[7]⟩) := by decide +kernel

example : (transfer 2 ⟨[1, 2, 3]⟩ ⟨[9]⟩) = (⟨[3]⟩, ⟨[2, 1, 9]⟩) := by decide

end Stack

end Befunge
