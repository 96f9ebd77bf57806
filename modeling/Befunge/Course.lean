import Std.Data.TreeSet
import Befunge.Space

/-!
# Courses through program space

A pointer that has finished a command goes on along its delta until it stands on the
next one.  Blanks are passed over, and so is everything from one semicolon to the
next.  A course that never meets a command comes back to where it has been, and
ends there.

Each search gives the position where it ends and how many cells it read.  A search
remembers where it has been, together with whether it was inside a comment, so it
ends at the first repetition.  The course through a box is a cycle on one line, so
it repeats itself within `Bounds.courseLimit` steps.
-/

namespace Befunge

/-- A place on a course. -/
@[ext]
structure Station where
  /-- The position. -/
  position : Vec
  /-- Whether the course is inside a comment. -/
  skipping : Bool
deriving DecidableEq, Repr

namespace Station

/-- An order by which stations are remembered. -/
def order : Station → Station → Ordering :=
  compareLex (compareOn fun s => s.position.y)
    (compareLex (compareOn fun s => s.position.x) (compareOn Station.skipping))

instance : Std.TransCmp order :=
  inferInstanceAs (Std.TransCmp (compareLex (compareOn fun s : Station => s.position.y)
    (compareLex (compareOn fun s => s.position.x) (compareOn Station.skipping))))

instance : Std.LawfulEqCmp order where
  eq_of_compare {s t} h := by
    obtain ⟨⟨_, _⟩, _⟩ := s
    obtain ⟨⟨_, _⟩, _⟩ := t
    simp [order, compareLex, compareOn, Ordering.then_eq_eq] at h
    simp [h]

end Station

namespace Course

/-- The stations a course has passed. -/
abbrev Seen := Std.TreeSet Station Station.order

/-- Looks for a command from a position on.  The comment flag is that of the way
there. -/
def searchCommand (s : Space) (delta : Vec) : Nat → Seen → Vec → Bool → Nat → Vec × Nat
  | 0, _, p, _, reads => (p, reads)
  | limit + 1, seen, p, skipping, reads =>
      let v := s.read p
      let skipping := if v = Cell.semicolon then !skipping else skipping
      if v ≠ Cell.semicolon ∧ v ≠ Cell.blank ∧ skipping = false then (p, reads + 1)
      else if seen.contains ⟨p, skipping⟩ then (p, reads + 1)
      else
        searchCommand s delta limit (seen.insert ⟨p, skipping⟩) (s.bounds.next p delta) skipping
          (reads + 1)

/-- The first command at or after `p`, and how many cells were read to find it.  If
there is none the position is the first one that the course meets again. -/
def findCommand (s : Space) (delta p : Vec) : Vec × Nat :=
  searchCommand s delta s.bounds.courseLimit ∅ p false 0

/-- Looks for a cell that is not blank from a position on. -/
def searchText (s : Space) (delta : Vec) : Nat → Seen → Vec → Nat → Vec × Nat
  | 0, _, p, reads => (p, reads)
  | limit + 1, seen, p, reads =>
      if s.read p ≠ Cell.blank ∨ seen.contains ⟨p, false⟩ then (p, reads + 1)
      else searchText s delta limit (seen.insert ⟨p, false⟩) (s.bounds.next p delta) (reads + 1)

/-- The first cell at or after `p` that is not blank, and how many cells were read to find
it. -/
def skipBlanks (s : Space) (delta p : Vec) : Vec × Nat :=
  searchText s delta s.bounds.courseLimit ∅ p 0

/-- The comment is passed over with everything in it. -/
example : findCommand (Space.ofText " ; @; 5".toList) Vec.east Vec.zero = (⟨6, 0⟩, 7) := by
  decide +kernel

/-- A blank space ends the search where it began, and its one cell is read twice. -/
example : findCommand Space.empty Vec.east Vec.zero = (Vec.zero, 2) := by decide +kernel

/-- A lone semicolon is met twice before a station is met again. -/
example : findCommand (Space.ofText [';']) Vec.east Vec.zero = (Vec.zero, 3) := by decide +kernel

end Course

end Befunge
