import Befunge.Space

/-!
# Counted access

A memory is a program space that counts how often it is read and written.  Loading
a program and showing a region count nothing.
-/

namespace Befunge

/-- A program space with its access counters. -/
structure Memory where
  /-- The space. -/
  space : Space
  /-- How often a cell was read. -/
  reads : Nat := 0
  /-- How often a cell was written, also where the write stored nothing. -/
  writes : Nat := 0
deriving Inhabited

namespace Memory

/-- Reads a cell. -/
def get (m : Memory) (p : Vec) : Int × Memory :=
  (m.space.read p, { m with reads := m.reads + 1 })

/-- Writes a cell. -/
def put (m : Memory) (p : Vec) (v : Int) : Memory :=
  { m with space := m.space.put p v, writes := m.writes + 1 }

/-- Counts `n` reads that were made elsewhere. -/
def countReads (m : Memory) (n : Nat) : Memory :=
  { m with reads := m.reads + n }

/-! ## Placing text

Placed text is transparent where it is blank: the cells under its blanks keep
their value. -/

/-- Writes the characters of a row from `p` eastward, all but the blanks. -/
def placeRow (m : Memory) (p : Vec) : List Char → Memory
  | [] => m
  | c :: r => placeRow (if c = ' ' then m else m.put p (Cell.ofChar c)) (p + Vec.east) r

/-- Writes rows of characters from `p` southward. -/
def placeRows (m : Memory) (p : Vec) : List (List Char) → Memory
  | [] => m
  | row :: rows => placeRows (m.placeRow p row) (p + Vec.south) rows

/-- The rows of a text that is to be placed.  A linear text is a single row whatever
characters it holds, and none if it is empty. -/
def placedRows (linear : Bool) (text : List Char) : List (List Char) :=
  if linear then (if text = [] then [] else [text]) else Lines.ofText text

/-- Places a text with its first character at `origin`.  Also gives how many columns
and rows the text has. -/
def place (m : Memory) (text : List Char) (origin : Vec) (linear : Bool) : Vec × Memory :=
  let rows := placedRows linear text
  (⟨Lines.width rows, rows.length⟩, m.placeRows origin rows)

example : (place ⟨Space.empty, 0, 0⟩ "a b\nc".toList ⟨1, 1⟩ false).1 = ⟨3, 2⟩ ∧
    (place ⟨Space.empty, 0, 0⟩ "a b\nc".toList ⟨1, 1⟩ false).2.writes = 3 := by decide +kernel

example : (place ⟨Space.empty, 0, 0⟩ "a\nb".toList Vec.zero true).1 = ⟨3, 1⟩ := by decide +kernel

end Memory

end Befunge
