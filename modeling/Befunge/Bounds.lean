import Befunge.Text.Decimal
import Befunge.Vec

/-!
# Bounds and movement

The bounds of a program space are the smallest box that holds the origin and every
cell that was ever given a value other than a blank.  Movement is relative to that
box: a step that would leave it re-enters at the far end of the same line.

`Bounds.next` is one step.  `Bounds.wrap` is the point where a step out of the box
re-enters: as many whole steps back as the box has room for.
-/

namespace Befunge

/-- A box of the plane that holds the origin.  Both corners belong to it. -/
@[ext]
structure Bounds where
  /-- The north-west corner. -/
  least : Vec
  /-- The south-east corner. -/
  greatest : Vec
  /-- The north-west corner is not east of the origin. -/
  least_x_le : least.x ≤ 0
  /-- The north-west corner is not south of the origin. -/
  least_y_le : least.y ≤ 0
  /-- The south-east corner is not west of the origin. -/
  le_greatest_x : 0 ≤ greatest.x
  /-- The south-east corner is not north of the origin. -/
  le_greatest_y : 0 ≤ greatest.y
deriving DecidableEq

namespace Bounds

/-- The box of the origin alone. -/
def unit : Bounds := ⟨Vec.zero, Vec.zero, by decide, by decide, by decide, by decide⟩

instance : Inhabited Bounds := ⟨unit⟩

instance : Membership Vec Bounds where
  mem b p := (b.least.x ≤ p.x ∧ p.x ≤ b.greatest.x) ∧ (b.least.y ≤ p.y ∧ p.y ≤ b.greatest.y)

theorem mem_def {b : Bounds} {p : Vec} :
    p ∈ b ↔ (b.least.x ≤ p.x ∧ p.x ≤ b.greatest.x) ∧ (b.least.y ≤ p.y ∧ p.y ≤ b.greatest.y) :=
  Iff.rfl

instance (b : Bounds) (p : Vec) : Decidable (p ∈ b) :=
  decidable_of_iff _ mem_def.symm

/-- Every box holds the origin. -/
theorem zero_mem (b : Bounds) : Vec.zero ∈ b :=
  ⟨⟨b.least_x_le, b.le_greatest_x⟩, ⟨b.least_y_le, b.le_greatest_y⟩⟩

/-- The least box that holds `p` as well. -/
def extend (b : Bounds) (p : Vec) : Bounds where
  least := ⟨min b.least.x p.x, min b.least.y p.y⟩
  greatest := ⟨max b.greatest.x p.x, max b.greatest.y p.y⟩
  least_x_le := Int.le_trans (Int.min_le_left _ _) b.least_x_le
  least_y_le := Int.le_trans (Int.min_le_left _ _) b.least_y_le
  le_greatest_x := Int.le_trans b.le_greatest_x (Int.le_max_left _ _)
  le_greatest_y := Int.le_trans b.le_greatest_y (Int.le_max_left _ _)

/-- How many columns and rows the box has. -/
def size (b : Bounds) : Vec :=
  ⟨b.greatest.x - b.least.x + 1, b.greatest.y - b.least.y + 1⟩

/-! ## Movement -/

/-- How many steps of `d` back from `p` stay between `lo` and `hi` on one axis.
An axis that does not move sets no limit. -/
def room (lo hi p d : Int) : Option Int :=
  if d = 0 then none
  else if 0 < d then some ((p - lo) / d)
  else some ((hi - p) / (-d))

/-- How many whole steps of `d` back from `p` the box has room for. -/
def stepsBack (b : Bounds) (p d : Vec) : Int :=
  match room b.least.x b.greatest.x p.x d.x, room b.least.y b.greatest.y p.y d.y with
  | none, none => 0
  | some m, none => max m 0
  | none, some n => max n 0
  | some m, some n => max (min m n) 0

/-- Where a step of `d` that leaves the box from `p` re-enters it. -/
def wrap (b : Bounds) (p d : Vec) : Vec := p - d.scale (b.stepsBack p d)

/-- Whether a step of `d` from `p` would leave the box. -/
def isLast (b : Bounds) (p d : Vec) : Bool := decide (p + d ∉ b)

/-- The point one step of `d` after `p`. -/
def next (b : Bounds) (p d : Vec) : Vec :=
  if p + d ∈ b then p + d else b.wrap p d

/-- More cells than one line of the box can hold on any course, counted twice and
with some to spare for a course that starts outside the box. -/
def courseLimit (b : Bounds) : Nat := 2 * (b.size.x.toNat + b.size.y.toNat) + 6

/-- A box as it is shown in messages. -/
def text (b : Bounds) : String :=
  "Bounds(" ++ b.least.text ++ ".." ++ b.greatest.text ++ ")"

/-- A box as it is shown on its own, if its corners can be written. -/
def written (b : Bounds) : Except Decimal.Error String :=
  if [b.least.x, b.least.y, b.greatest.x, b.greatest.y].all Decimal.isWritable then .ok b.text
  else .error .tooGreat

/-- A box of three columns and two rows. -/
def sample : Bounds := unit.extend ⟨2, 1⟩

example : sample.text = "Bounds((0, 0)..(2, 1))" := by decide +kernel

/-- Eastward off the edge re-enters at the west edge of the same row. -/
example : sample.next ⟨2, 1⟩ Vec.east = ⟨0, 1⟩ := by decide

/-- A flying delta keeps to its own line. -/
example : sample.next ⟨2, 0⟩ ⟨2, 0⟩ = ⟨0, 0⟩ ∧ sample.next ⟨1, 0⟩ ⟨2, 0⟩ = ⟨1, 0⟩ := by decide

end Bounds

end Befunge
