import Befunge.Bounds
import Befunge.Cell
import Befunge.Text.Lines

/-!
# Program space

The program space is an unbounded plane of cells that the program itself can change.
A cell that was never stored reads as a blank.

A coordinate is *defined* once something was stored there: every character of a
loaded text, blanks included, and every value put there that is not a blank.
Putting a blank on an undefined coordinate stores nothing.  The bounds follow
the values that are not blanks and never shrink.
-/

namespace Befunge

/-- The cells that were stored, and the box of those that were ever not blank. -/
structure Space where
  /-- The stored cells by position. -/
  cells : Std.TreeMap Vec Int Vec.rowMajor
  /-- The box movement is relative to. -/
  bounds : Bounds

namespace Space

/-- The space with no cell stored. -/
def empty : Space := ⟨∅, Bounds.unit⟩

instance : Inhabited Space := ⟨empty⟩

/-- The cell at a position. -/
def read (s : Space) (p : Vec) : Int := s.cells.getD p Cell.blank

/-- Whether something was stored at a position. -/
def isDefined (s : Space) (p : Vec) : Bool := s.cells.contains p

/-- How many positions are defined. -/
def size (s : Space) : Nat := s.cells.size

/-- The defined positions with their cells, row by row. -/
def entries (s : Space) : List (Vec × Int) := s.cells.toList

/-- Stores a cell, whatever its value. -/
def store (s : Space) (p : Vec) (v : Int) : Space where
  cells := s.cells.insert p v
  bounds := if v = Cell.blank then s.bounds else s.bounds.extend p

/-- Writes a cell.  A blank on an undefined position is dropped. -/
def put (s : Space) (p : Vec) (v : Int) : Space :=
  if v = Cell.blank ∧ s.isDefined p = false then s else s.store p v

/-! ## Loading text -/

/-- Stores a row of characters from `p` eastward. -/
def storeRow (s : Space) (p : Vec) : List Char → Space
  | [] => s
  | c :: r => storeRow (s.store p (Cell.ofChar c)) (p + Vec.east) r

/-- Stores rows of characters from `p` southward. -/
def storeRows (s : Space) (p : Vec) : List (List Char) → Space
  | [] => s
  | row :: rows => storeRows (s.storeRow p row) (p + Vec.south) rows

/-- A row with blanks up to a width. -/
def padded (width : Nat) (row : List Char) : List Char :=
  row ++ List.replicate (width - row.length) ' '

/-- The rows a text is laid out in.  Form feeds take no place, and every row is as
wide as the longest. -/
def layout (text : List Char) : List (List Char) :=
  let rows := (Lines.ofText text).map (·.filter (· ≠ '\x0c'))
  rows.map (padded (Lines.width rows))

/-- Lays a text out with its first character at `origin`. -/
def load (s : Space) (text : List Char) (origin : Vec) : Space :=
  s.storeRows origin (layout text)

/-- The space that holds a text from the origin on and nothing else. -/
def ofText (text : List Char) : Space := empty.load text Vec.zero

/-! ## Showing text -/

/-- The characters shown for `width` cells from `p` eastward. -/
def row (s : Space) (p : Vec) (width : Nat) : List Char :=
  (List.range width).map fun (i : Nat) => Cell.shown (s.read ⟨p.x + i, p.y⟩)

/-- The rows shown for a region with its first cell at `p`. -/
def region (s : Space) (p : Vec) (width height : Nat) : List (List Char) :=
  (List.range height).map fun (j : Nat) => s.row ⟨p.x, p.y + j⟩ width

/-- The whole box as text, without the blanks that end a row. -/
def render (s : Space) : List Char :=
  let size := s.bounds.size
  Lines.join ((s.region s.bounds.least size.x.toNat size.y.toNat).map Lines.trimEnd)

/-- Rows are padded to a rectangle and every cell of it is defined. -/
example : (ofText "ab\nc".toList).size = 4 ∧ (ofText "ab\nc".toList).read ⟨1, 1⟩ = Cell.blank := by
  decide +kernel

example : (ofText "1+\x0c\r\n  @ ".toList).render = "1+\n  @".toList := by decide +kernel

/-- Blanking an undefined cell stores nothing, and blanking a defined one keeps the bounds. -/
example : (empty.put ⟨3, 0⟩ 32).size = 0 ∧
    ((empty.put ⟨3, 0⟩ 65).put ⟨3, 0⟩ 32).bounds.greatest = ⟨3, 0⟩ := by decide +kernel

end Space

end Befunge
