import Std.Data.TreeMap

/-!
# Vectors of the plane

Positions, deltas and storage offsets are all vectors of unbounded integers.  The
first coordinate grows eastward and the second one southward, so a program reads
in row-major order, which is also the order in which cells are listed.
-/

namespace Befunge

/-- A point or a displacement of the plane. -/
@[ext]
structure Vec where
  /-- The coordinate that grows eastward. -/
  x : Int
  /-- The coordinate that grows southward. -/
  y : Int
deriving DecidableEq, Repr, Inhabited

namespace Vec

/-- The point a program starts at, and the displacement that goes nowhere. -/
def zero : Vec := ⟨0, 0⟩

instance : Add Vec := ⟨fun p q => ⟨p.x + q.x, p.y + q.y⟩⟩

instance : Sub Vec := ⟨fun p q => ⟨p.x - q.x, p.y - q.y⟩⟩

instance : Neg Vec := ⟨fun p => ⟨-p.x, -p.y⟩⟩

/-- The displacement repeated `n` times. -/
def scale (n : Int) (d : Vec) : Vec := ⟨d.x * n, d.y * n⟩

@[simp] theorem add_x (p q : Vec) : (p + q).x = p.x + q.x := rfl

@[simp] theorem add_y (p q : Vec) : (p + q).y = p.y + q.y := rfl

@[simp] theorem sub_x (p q : Vec) : (p - q).x = p.x - q.x := rfl

@[simp] theorem sub_y (p q : Vec) : (p - q).y = p.y - q.y := rfl

@[simp] theorem neg_x (p : Vec) : (-p).x = -p.x := rfl

@[simp] theorem neg_y (p : Vec) : (-p).y = -p.y := rfl

@[simp] theorem scale_x (n : Int) (d : Vec) : (d.scale n).x = d.x * n := rfl

@[simp] theorem scale_y (n : Int) (d : Vec) : (d.scale n).y = d.y * n := rfl

/-! ## Directions -/

/-- One cell to the right. -/
def east : Vec := ⟨1, 0⟩

/-- One cell down. -/
def south : Vec := ⟨0, 1⟩

/-- One cell to the left. -/
def west : Vec := ⟨-1, 0⟩

/-- One cell up. -/
def north : Vec := ⟨0, -1⟩

/-- The four directions by number, clockwise from the east.  Numbers count modulo four. -/
def cardinal (n : Nat) : Vec :=
  match n % 4 with
  | 0 => east
  | 1 => south
  | 2 => west
  | _ => north

/-- A quarter turn to the left, as seen by a traveller along `d`. -/
def turnLeft (d : Vec) : Vec := ⟨d.y, -d.x⟩

/-- A quarter turn to the right, as seen by a traveller along `d`. -/
def turnRight (d : Vec) : Vec := ⟨-d.y, d.x⟩

/-! ## Order and text -/

/-- Row by row from the north, and from west to east within a row. -/
def rowMajor : Vec → Vec → Ordering :=
  compareLex (compareOn Vec.y) (compareOn Vec.x)

instance : Std.TransCmp rowMajor :=
  inferInstanceAs (Std.TransCmp (compareLex (compareOn Vec.y) (compareOn Vec.x)))

instance : Std.LawfulEqCmp rowMajor where
  eq_of_compare {p q} h := by
    cases p
    cases q
    simp [rowMajor, compareLex, compareOn, Ordering.then_eq_eq] at h
    simp [h]

/-- A vector as it is shown in messages, `(1, -2)`. -/
def text (p : Vec) : String :=
  "(" ++ toString p.x ++ ", " ++ toString p.y ++ ")"

example : (⟨1, -2⟩ : Vec).text = "(1, -2)" := by decide +kernel

/-- Left of east is north, and right of south is west. -/
example : east.turnLeft = north ∧ south.turnRight = west := by decide

end Vec

end Befunge
