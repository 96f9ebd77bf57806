import Befunge.Setup
import Befunge.Proofs.Movement

/-!
# Jumps and single steps

A jump over `n` cells is one step of the delta taken `n` times.  While that step stays inside
the box it ends where `n` single steps end.  A step that leaves the box goes back by whole
multiples of the long delta (`Bounds.next_scale_of_not_mem`), and single steps go round the line
cell by cell, so the two part at the edge: the jump ends at the remainder of the room behind it
by `n`, and the walk at the remainder of its own length by that of the line.

`Execute.jump_eq_trampolines_iff` says when the two agree all the same.  There, single steps are
trampolines, and a negative number turns them round.
-/

namespace Befunge

/-! ## Long steps -/

namespace Vec

/-- The delta of single steps that go as far as a number says: a negative one turns it round. -/
def toward (d : Vec) (n : Int) : Vec := if n < 0 then -d else d

theorem scale_toward (d : Vec) (n : Int) : (d.toward n).scale n.natAbs = d.scale n := by
  rw [toward]
  split
  · ext <;> simp only [scale_x, scale_y, neg_x, neg_y, Int.neg_mul, ← Int.mul_neg] <;> congr 1 <;>
      omega
  · rw [Int.natAbs_of_nonneg (by omega)]

theorem scale_zero (d : Vec) : d.scale 0 = zero := by
  ext <;> simp [zero]

theorem scale_zero_left (n : Int) : zero.scale n = zero := by
  ext <;> simp [zero]

theorem add_zero (p : Vec) : p + zero = p := by
  ext <;> simp [zero]

end Vec

namespace Bounds

variable {b : Bounds} {p d : Vec}

/-- A long step has room behind it for as many times less steps. -/
theorem stepsBack_scale (hp : p ∈ b) (hd : d ≠ Vec.zero) {n : Int} (hn : 0 < n) :
    b.stepsBack p (d.scale n) = b.stepsBack p d / n := by
  obtain ⟨hback, hbackIff⟩ := stepsBack_spec hp hd
  have hscale : d.scale n ≠ Vec.zero := by
    intro h
    rw [Vec.ext_iff] at h
    simp only [Vec.scale_x, Vec.scale_y, Vec.zero, Int.mul_eq_zero, hn.ne', or_false] at h
    exact hd (Vec.ext h.1 h.2)
  refine stepsBack_unique hp hscale (Int.ediv_nonneg hback hn.le) fun k hk => ?_
  have hpoint : p - (d.scale n).scale k = p - d.scale (k * n) := by
    ext <;> simp <;> ring
  rw [hpoint, hbackIff _ (Int.mul_nonneg hk hn.le), Int.le_ediv_iff_mul_le hn]

/-- A long step out of the box goes back by whole multiples of its length, as far as there is
room. -/
theorem next_scale_of_not_mem (hp : p ∈ b) {n : Nat} (hout : p + d.scale n ∉ b) :
    b.next p (d.scale n) = p.along d (b.stepsBack p d % n - b.stepsBack p d) := by
  have hmoves : d ≠ Vec.zero ∧ n ≠ 0 := by
    refine ⟨fun hd => hout ?_, fun hn => hout ?_⟩
    · rwa [hd, Vec.scale_zero_left, Vec.add_zero]
    · rwa [hn, Int.natCast_zero, Vec.scale_zero, Vec.add_zero]
  obtain ⟨hd, hn⟩ := hmoves
  have hsplit := Int.emod_add_mul_ediv (b.stepsBack p d) n
  have hnumber : b.stepsBack p d % n - b.stepsBack p d = -(n * (b.stepsBack p d / n)) := by
    omega
  rw [next, if_neg hout, wrap, stepsBack_scale hp hd (by omega), hnumber]
  ext <;> simp <;> ring

/-- Where a long step out of the box and as many single steps end, counted from the first point of
the line, is the same. -/
def Meets (b : Bounds) (p d : Vec) (n : Nat) : Prop :=
  (b.stepsBack p d + n) % b.lineLength p d = b.stepsBack p d % n

instance (b : Bounds) (p d : Vec) (n : Nat) : Decidable (b.Meets p d n) :=
  inferInstanceAs (Decidable (_ = _))

/-- A long step inside the box ends where so many single steps end. -/
theorem next_scale_of_mem (hp : p ∈ b) {n : Nat} (hin : p + d.scale n ∈ b) :
    b.next p (d.scale n) = (b.next · d)^[n] p := by
  rw [next, if_pos hin]
  by_cases hd : d = Vec.zero
  · rw [hd, iterate_next_zero hp, Vec.scale_zero_left, Vec.add_zero]
  · have hback := stepsBack_nonneg hp hd
    have hbound := (mem_along_iff hp hd n).mp hin
    have hround : (b.stepsBack p d + n) % b.lineLength p d = b.stepsBack p d + n := by
      refine Int.emod_eq_of_lt (by omega) ?_
      rw [lineLength]
      omega
    rw [iterate_next hp hd, hround, add_sub_cancel_left]
    rfl

/-- A long step ends where so many single steps end if it stays inside the box, and otherwise only
where two remainders happen to agree. -/
theorem next_scale_eq_iterate_iff (hp : p ∈ b) (d : Vec) (n : Nat) :
    b.next p (d.scale n) = (b.next · d)^[n] p ↔ p + d.scale n ∈ b ∨ b.Meets p d n := by
  by_cases hin : p + d.scale n ∈ b
  · exact ⟨fun _ => .inl hin, fun _ => next_scale_of_mem hp hin⟩
  · have hd : d ≠ Vec.zero := fun hd => hin (by rwa [hd, Vec.scale_zero_left, Vec.add_zero])
    rw [next_scale_of_not_mem hp hin, iterate_next hp hd, (Vec.along_injective p hd).eq_iff,
      sub_left_inj, Meets, or_iff_right hin, eq_comm]

end Bounds

/-! ## Trampolines -/

namespace Execute

/-- What so many trampolines in a row make of a pointer. -/
def trampolines (w : World) (n : Nat) (ip : Pointer) : Pointer :=
  (fun ip => (cell (Cell.ofChar '#') ip w).pointer)^[n] ip

theorem trampolines_eq (w : World) (n : Nat) (ip : Pointer) :
    trampolines w n ip = ip.moveTo ((w.space.bounds.next · ip.delta)^[n] ip.position) := by
  have hcell (ip : Pointer) : (cell (Cell.ofChar '#') ip w).pointer = ip.step w.space := rfl
  induction n generalizing ip with
  | zero => rfl
  | succ n ih =>
      rw [trampolines, Function.iterate_succ_apply, ← trampolines, hcell, ih,
        Function.iterate_succ_apply]
      rfl

/-- A jump is one step of the delta taken as often as the stack says. -/
theorem cell_jump (ip : Pointer) (w : World) (hp : ip.position ∈ w.space.bounds) :
    cell (Cell.ofChar 'j') ip w =
      ⟨ip.pop.2.moveTo (w.space.bounds.next ip.position (ip.delta.scale ip.pop.1)), w, none⟩ := by
  have hjump : cell (Cell.ofChar 'j') ip w = ⟨jump ip w.space, w, none⟩ := rfl
  rw [hjump, jump]
  by_cases hn : ip.pop.1 = 0
  · simp only [hn, if_true, Vec.scale_zero, Bounds.next_zero hp]
    rfl
  · simp only [hn, if_false]
    rfl

/-- A jump takes its number from the stack and changes nothing else but the position.  It ends where
so many trampolines end, turned round for a negative number, if it stays inside the box.  Where it
leaves the box it goes back by whole multiples of its length, and that is where the trampolines
end only if two remainders agree. -/
theorem jump_eq_trampolines_iff (ip : Pointer) (w : World) (hp : ip.position ∈ w.space.bounds)
    {n : Int} {popped : Pointer} (hpop : ip.pop = (n, popped)) :
    (cell (Cell.ofChar 'j') ip w =
        ⟨popped.moveTo (trampolines w n.natAbs (ip.head (ip.delta.toward n))).position, w, none⟩ ↔
      ip.position + ip.delta.scale n ∈ w.space.bounds ∨
        w.space.bounds.Meets ip.position (ip.delta.toward n) n.natAbs) ∧
    (ip.position + ip.delta.scale n ∉ w.space.bounds →
      cell (Cell.ofChar 'j') ip w =
        ⟨popped.moveTo (ip.position.along (ip.delta.toward n)
          (w.space.bounds.stepsBack ip.position (ip.delta.toward n) % n.natAbs -
            w.space.bounds.stepsBack ip.position (ip.delta.toward n))), w, none⟩) := by
  obtain rfl : ip.pop.1 = n := congrArg Prod.fst hpop
  obtain rfl : ip.pop.2 = popped := congrArg Prod.snd hpop
  have hdelta : ip.delta.scale ip.pop.1 = (ip.delta.toward ip.pop.1).scale ip.pop.1.natAbs :=
    (Vec.scale_toward _ _).symm
  have hmoved {q : Vec} : (⟨ip.pop.2.moveTo (w.space.bounds.next ip.position
      (ip.delta.scale ip.pop.1)), w, none⟩ : Outcome) = ⟨ip.pop.2.moveTo q, w, none⟩ ↔
      w.space.bounds.next ip.position (ip.delta.scale ip.pop.1) = q :=
    ⟨fun h => congrArg (·.pointer.position) h, fun h => by rw [h]⟩
  rw [cell_jump ip w hp, hmoved, trampolines_eq, hdelta]
  refine ⟨Bounds.next_scale_eq_iterate_iff hp _ _, fun hout => ?_⟩
  rw [Bounds.next_scale_of_not_mem hp hout]

/-- The world of a program of one row with five cells. -/
def fiveCells : World :=
  (Setup.load { clock := ⟨2000, 1, 1, 0, 0, 0⟩ } (.text "12j4@") { input := .ofText [] }).world

/-- A pointer in the fourth column that is to jump over `n` cells. -/
def jumper (n : Int) : Pointer := { id := 0, position := ⟨3, 0⟩, pile := ⟨⟨[n]⟩, []⟩ }

/-- Three cells back there is no edge, and five cells on is once round the row. -/
theorem jump_eq_trampolines_round :
    (jumper 0).position ∈ fiveCells.space.bounds ∧
    (cell (Cell.ofChar 'j') (jumper (-3)) fiveCells).pointer.position = ⟨0, 0⟩ ∧
    cell (Cell.ofChar 'j') (jumper 5) fiveCells =
      ⟨(jumper 5).pop.2.moveTo (trampolines fiveCells 5 (jumper 5)).position, fiveCells, none⟩ := by
  have hp (n : Int) : (jumper n).position ∈ fiveCells.space.bounds := by
    show (⟨3, 0⟩ : Vec) ∈ fiveCells.space.bounds
    decide +kernel
  refine ⟨hp 0, ?_, ?_⟩
  · rw [(jump_eq_trampolines_iff (jumper (-3)) fiveCells (hp _) rfl).1.mpr
      (.inl (by decide +kernel))]
    decide +kernel
  · exact (jump_eq_trampolines_iff (jumper 5) fiveCells (hp _) rfl).1.mpr
      (.inr (by decide +kernel))

/-- Three cells on from the fourth column is the second one, round the edge of the row.  The jump
goes to the first column. -/
theorem jump_misses_trampolines :
    (jumper 3).position ∈ fiveCells.space.bounds ∧ (jumper 3).pop.1 = 3 ∧
    (trampolines fiveCells 3 (jumper 3)).position = ⟨1, 0⟩ ∧
    (cell (Cell.ofChar 'j') (jumper 3) fiveCells).pointer.position = ⟨0, 0⟩ := by
  decide +kernel

end Execute

end Befunge
