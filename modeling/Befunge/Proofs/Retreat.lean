import Mathlib.Computability.StateTransition
import Befunge.Proofs.Movement

/-!
# Wrapping walks back

A step out of the box re-enters as many steps back as the box has room for, and `Bounds.wrap` finds
that point by divisions.  `Bounds.back` is the walk that the divisions stand for: one step
back at a time, for as long as the box holds the next point.

Going one step back does not change where the walk comes to an end (`Bounds.wrap_sub`), and a
point with no room behind it is the end itself (`Bounds.wrap_of_sub_not_mem`).  So the walk ends,
and it ends at the wrapped point (`Bounds.eval_back`).  The number of its steps is the one up to
which all steps stay inside while the next one does not (`Bounds.goesBack_iff`).
-/

namespace Befunge

theorem Vec.sub_scale_one (p d : Vec) : p - d.scale 1 = p - d := by
  ext <;> simp

theorem Vec.sub_sub_scale (p d : Vec) (k : Int) : p - d - d.scale k = p - d.scale (k + 1) := by
  ext <;> simp <;> ring

namespace Bounds

variable {b : Bounds} {p d : Vec}

/-! ## One step back -/

/-- The point one step of `d` before `p`, if the box holds it. -/
def back (b : Bounds) (d p : Vec) : Option Vec :=
  if p - d ∈ b then some (p - d) else none

theorem sub_mem_iff (hp : p ∈ b) (hd : d ≠ Vec.zero) : p - d ∈ b ↔ 1 ≤ b.stepsBack p d := by
  rw [← Vec.sub_scale_one]
  exact (stepsBack_spec hp hd).2 1 Int.one_nonneg

/-- A step back leaves room for one step less. -/
theorem stepsBack_sub (hp : p ∈ b) (hd : d ≠ Vec.zero) (hback : p - d ∈ b) :
    b.stepsBack (p - d) d = b.stepsBack p d - 1 := by
  have hroom := (sub_mem_iff hp hd).mp hback
  refine stepsBack_unique hback hd (by omega) ?_
  intro k hk
  rw [Vec.sub_sub_scale, (stepsBack_spec hp hd).2 (k + 1) (by omega)]
  omega

/-- A step back does not change where the walk ends. -/
theorem wrap_sub (hp : p ∈ b) (hd : d ≠ Vec.zero) (hback : p - d ∈ b) :
    b.wrap (p - d) d = b.wrap p d := by
  rw [wrap, wrap, stepsBack_sub hp hd hback, Vec.sub_sub_scale, Int.sub_add_cancel]

/-- A point with no room behind it is where the walk ends. -/
theorem wrap_of_sub_not_mem (hp : p ∈ b) (hd : d ≠ Vec.zero) (hout : p - d ∉ b) :
    b.wrap p d = p := by
  have hroom := stepsBack_nonneg hp hd
  have hnone : b.stepsBack p d = 0 := by
    rw [sub_mem_iff hp hd] at hout
    omega
  rw [wrap, hnone]
  ext <;> simp

/-! ## The whole walk -/

/-- The walk back from a point of the box ends at the wrapped point. -/
theorem eval_back (hp : p ∈ b) (hd : d ≠ Vec.zero) :
    StateTransition.eval (b.back d) p = Part.some (b.wrap p d) := by
  -- every step uses up one step of room, so the room is what the induction is on
  obtain ⟨n, hn⟩ := Int.eq_ofNat_of_zero_le (stepsBack_nonneg hp hd)
  induction n generalizing p with
  | zero =>
      have hout : p - d ∉ b := by
        rw [sub_mem_iff hp hd]
        omega
      have hstop : b.back d p = none := if_neg hout
      rw [wrap_of_sub_not_mem hp hd hout, Part.eq_some_iff, StateTransition.mem_eval]
      exact ⟨Relation.ReflTransGen.refl, hstop⟩
  | succ n ih =>
      have hback : p - d ∈ b := by
        rw [sub_mem_iff hp hd]
        omega
      have hstep : b.back d p = some (p - d) := if_pos hback
      have hroom : b.stepsBack (p - d) d = n := by
        rw [stepsBack_sub hp hd hback]
        omega
      rw [StateTransition.reaches_eval (Relation.ReflTransGen.single hstep), ih hback hroom,
        wrap_sub hp hd hback]

/-- All steps back from `p` up to the `n`-th stay in the box, and the next one does not. -/
def GoesBack (b : Bounds) (p d : Vec) (n : Nat) : Prop :=
  (∀ k ≤ n, p - d.scale k ∈ b) ∧ p - d.scale (n + 1) ∉ b

instance (b : Bounds) (p d : Vec) (n : Nat) : Decidable (b.GoesBack p d n) :=
  inferInstanceAs (Decidable ((∀ k ≤ n, _) ∧ _))

/-- The number of steps that stay in the box is the room that is computed. -/
theorem goesBack_iff (hp : p ∈ b) (hd : d ≠ Vec.zero) (n : Nat) :
    b.GoesBack p d n ↔ b.stepsBack p d = n := by
  have hroom := (stepsBack_spec hp hd).2
  constructor
  · rintro ⟨hinside, hout⟩
    have hle := (hroom n (by omega)).mp (hinside n le_rfl)
    rw [hroom (n + 1) (by omega)] at hout
    omega
  · intro hn
    refine ⟨fun k hk => (hroom k (by omega)).mpr (by omega), ?_⟩
    rw [hroom (n + 1) (by omega)]
    omega

/-- From every point of a box and along every delta that moves, wrapping leads where the walk back
ends: as many steps back as stay in the box one after the other, which is one number only. -/
theorem wrap_walks_back (hp : p ∈ b) (hd : d ≠ Vec.zero) :
    StateTransition.eval (b.back d) p = Part.some (b.wrap p d) ∧
    (∃! n, b.GoesBack p d n) ∧
    ∀ n : Nat, b.GoesBack p d n → b.wrap p d = p - d.scale n := by
  obtain ⟨n, hn⟩ := Int.eq_ofNat_of_zero_le (stepsBack_nonneg hp hd)
  refine ⟨eval_back hp hd, ⟨n, (goesBack_iff hp hd n).mpr hn, ?_⟩, ?_⟩
  · intro m hm
    rw [goesBack_iff hp hd, hn] at hm
    exact (Int.ofNat.inj hm).symm
  · intro m hm
    rw [wrap, (goesBack_iff hp hd m).mp hm]

/-- The walk back along an oblique delta ends after two steps and short of the edge.  One axis has
room for a third step, and the other has not. -/
theorem wrap_walks_back_oblique :
    StateTransition.eval (((unit.extend ⟨5, 3⟩).extend ⟨-2, -1⟩).back ⟨3, -1⟩) ⟨5, 0⟩ =
      Part.some ⟨-1, 2⟩ ∧
    ((unit.extend ⟨5, 3⟩).extend ⟨-2, -1⟩).wrap ⟨5, 0⟩ ⟨3, -1⟩ =
      ⟨5, 0⟩ - Vec.scale (2 : Nat) ⟨3, -1⟩ := by
  have hp : (⟨5, 0⟩ : Vec) ∈ (unit.extend ⟨5, 3⟩).extend ⟨-2, -1⟩ := by decide
  have hd : (⟨3, -1⟩ : Vec) ≠ Vec.zero := by decide
  have htwo : ((unit.extend ⟨5, 3⟩).extend ⟨-2, -1⟩).GoesBack ⟨5, 0⟩ ⟨3, -1⟩ 2 := by decide
  have hwrap : ((unit.extend ⟨5, 3⟩).extend ⟨-2, -1⟩).wrap ⟨5, 0⟩ ⟨3, -1⟩ = ⟨-1, 2⟩ := by decide
  obtain ⟨heval, -, hsteps⟩ := wrap_walks_back hp hd
  exact ⟨hwrap ▸ heval, hsteps 2 htwo⟩

end Bounds

end Befunge
