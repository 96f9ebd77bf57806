import Befunge.Proofs.Zeros

/-!
# Moving cells between two stacks

The two topmost stacks of a pile, laid top to top, are one tape with a mark between them
(`StackStack.strip`).  To move a cell from one stack to the other is to move the mark by one, so
`under n` moves it by `n` (`StackStack.exists_under`).  Cells that are asked of an empty stack are
the blanks of the tape.

Moves of a tape add up, so `under` is an action of the integers on piles up to zeros at the bottom
of the two stacks (`StackStack.under_adds_up`).  It is one without that proviso as long as the
moves go in one direction, because then no zero is ever put back.
-/

namespace Befunge

open Turing (Tape Dir ListBlank)

/-! ## Tapes -/

namespace Stack

/-- Two stacks top to top as one tape, on which a move in a direction takes a cell of the first over
to the second. -/
def between : Dir → Stack → Stack → Tape Int
  | .left, source, target => .mk' source.tape target.tape
  | .right, source, target => .mk' target.tape source.tape

/-- By how much a move in a direction changes the number of the cell one is at. -/
def heading : Dir → Int
  | .left => -1
  | .right => 1

theorem nth_move (dir : Dir) (tape : Tape Int) (i : Int) :
    (tape.move dir).nth i = tape.nth (i + heading dir) := by
  cases dir with
  | left => exact Tape.move_left_nth tape i
  | right => exact Tape.move_right_nth tape i

theorem nth_between_transfer (dir : Dir) (n : Nat) (source target : Stack) (i : Int) :
    (between dir (transfer n source target).1 (transfer n source target).2).nth i =
      (between dir source target).nth (i + n * heading dir) := by
  induction n generalizing source target with
  | zero => rw [Int.natCast_zero, Int.zero_mul, Int.add_zero]; rfl
  | succ n ih =>
      -- a cell that is missing from the first stack is a blank under the mark
      have hmoved : between dir source.pop.2 (target.push source.pop.1) =
          (between dir source target).move dir := by
        cases dir <;> simp [between, fst_pop]
      rw [transfer, ih, hmoved, nth_move]
      congr 1
      rw [Int.natCast_succ, Int.add_mul, Int.one_mul, Int.add_assoc]

theorem transfer_add (m n : Nat) (source target : Stack) :
    transfer (m + n) source target =
      transfer n (transfer m source target).1 (transfer m source target).2 := by
  induction m generalizing source target with
  | zero => rw [Nat.zero_add]; rfl
  | succ m ih => rw [Nat.succ_add, transfer, transfer, ih]

end Stack

namespace StackStack

/-- The two topmost stacks as one tape.  The cells of the topmost one are numbered from zero on,
and those of the second one down from minus one. -/
def strip (s : StackStack) : Tape Int := .mk' (s.below.headD Stack.empty).tape s.top.tape

variable {s t : StackStack}

theorem alike_of_strip (h : ∀ i, s.strip.nth i = t.strip.nth i) :
    s.top.Alike t.top ∧ (s.below.headD Stack.empty).Alike (t.below.headD Stack.empty) := by
  constructor
  · refine Stack.alike_iff.mpr (ListBlank.ext fun i => ?_)
    simpa only [strip, Tape.mk'_nth_nat] using h i
  · exact Stack.alike_iff.mpr (ListBlank.ext fun i => h (.negSucc i))

/-! ## Moves in one direction -/

theorem under_of_nonneg (top second : Stack) (rest : List Stack) {n : Int} (hn : 0 ≤ n) :
    under ⟨top, second :: rest⟩ n = .ok ⟨(Stack.transfer n.toNat second top).2,
      (Stack.transfer n.toNat second top).1 :: rest⟩ := by
  simp [under, hn]

theorem under_of_nonpos (top second : Stack) (rest : List Stack) {n : Int} (hn : n ≤ 0) :
    under ⟨top, second :: rest⟩ n = .ok ⟨(Stack.transfer (-n).toNat top second).1,
      (Stack.transfer (-n).toNat top second).2 :: rest⟩ := by
  rcases hn.lt_or_eq with hlt | rfl
  · simp [under, hlt]
  · rfl

/-- Moves in one direction are one move. -/
theorem under_under_of_same_sign {a b : Int} (h : s.under a = .ok t)
    (hab : 0 ≤ a ∧ 0 ≤ b ∨ a ≤ 0 ∧ b ≤ 0) : t.under b = s.under (a + b) := by
  obtain ⟨top, below⟩ := s
  cases below with
  | nil => cases h
  | cons second rest =>
      rcases hab with ⟨ha, hb⟩ | ⟨ha, hb⟩
      · rw [under_of_nonneg top second rest ha] at h
        cases h
        rw [under_of_nonneg _ _ rest hb, under_of_nonneg top second rest (Int.add_nonneg ha hb),
          Int.toNat_add ha hb, Stack.transfer_add]
      · have hsum : (-(a + b)).toNat = (-a).toNat + (-b).toNat := by omega
        rw [under_of_nonpos top second rest ha] at h
        cases h
        rw [under_of_nonpos _ _ rest hb, under_of_nonpos top second rest (by omega), hsum,
          Stack.transfer_add]

/-! ## Moves in both directions -/

/-- Where there are two stacks, cells can be moved.  That moves the tape, and leaves all other
stacks as they are. -/
theorem exists_under (hs : 2 ≤ s.size) (n : Int) :
    ∃ t, s.under n = .ok t ∧ t.size = s.size ∧ t.below.drop 1 = s.below.drop 1 ∧
      ∀ i, t.strip.nth i = s.strip.nth (i - n) := by
  obtain ⟨top, below⟩ := s
  cases below with
  | nil => exact absurd hs (Nat.lt_irrefl 1)
  | cons second rest =>
      rcases Int.le_total 0 n with hn | hn
      · refine ⟨_, under_of_nonneg top second rest hn, rfl, rfl, fun i => ?_⟩
        have hplace : i - n = i + n.toNat * Stack.heading .left := by
          simp only [Stack.heading]
          omega
        rw [hplace]
        exact Stack.nth_between_transfer .left n.toNat second top i
      · refine ⟨_, under_of_nonpos top second rest hn, rfl, rfl, fun i => ?_⟩
        have hplace : i - n = i + (-n).toNat * Stack.heading .right := by
          simp only [Stack.heading]
          omega
        rw [hplace]
        exact Stack.nth_between_transfer .right (-n).toNat top second i

/-- Two piles that differ only by zeros at the bottom of their two topmost stacks. -/
structure AlikeOnTop (s t : StackStack) : Prop where
  size : s.size = t.size
  top : s.top.Alike t.top
  second : (s.below.headD Stack.empty).Alike (t.below.headD Stack.empty)
  rest : s.below.drop 1 = t.below.drop 1

/-- Cells that are moved from under the topmost stack, as many as `a` says and then as many as `b`
says, are as well moved at once, up to zeros at the bottom of the two stacks.  Moves in one
direction leave the very same pile.  What was moved can be moved back.  All other stacks stay as
they are, and the tape of the two stacks moves by as many cells. -/
theorem under_adds_up (s : StackStack) (hs : 2 ≤ s.size) (a b : Int) :
    ∃ t u v w, s.under a = .ok t ∧ t.under b = .ok u ∧ s.under (a + b) = .ok v ∧
      t.under (-a) = .ok w ∧
      u.AlikeOnTop v ∧ (0 ≤ a ∧ 0 ≤ b ∨ a ≤ 0 ∧ b ≤ 0 → u = v) ∧ w.AlikeOnTop s ∧
      t.below.drop 1 = s.below.drop 1 ∧ u.below.drop 1 = s.below.drop 1 ∧
      ∀ i, t.strip.nth i = s.strip.nth (i - a) := by
  obtain ⟨t, ht, hsize, hrest, hstrip⟩ := exists_under hs a
  have htwo : 2 ≤ t.size := hsize ▸ hs
  obtain ⟨u, hu, husize, hurest, hustrip⟩ := exists_under htwo b
  obtain ⟨v, hv, hvsize, hvrest, hvstrip⟩ := exists_under hs (a + b)
  obtain ⟨w, hw, hwsize, hwrest, hwstrip⟩ := exists_under htwo (-a)
  have huv : ∀ i, u.strip.nth i = v.strip.nth i := by
    intro i
    rw [hustrip, hstrip, hvstrip]
    congr 1
    omega
  have hws : ∀ i, w.strip.nth i = s.strip.nth i := by
    intro i
    rw [hwstrip, hstrip]
    congr 1
    omega
  refine ⟨t, u, v, w, ht, hu, hv, hw, ?_, fun hab => ?_, ?_, hrest, hurest.trans hrest, hstrip⟩
  · exact ⟨by rw [husize, hsize, hvsize], (alike_of_strip huv).1, (alike_of_strip huv).2,
      (hurest.trans hrest).trans hvrest.symm⟩
  · rw [under_under_of_same_sign ht hab, hv] at hu
    exact (Except.ok.inj hu).symm
  · exact ⟨hwsize.trans hsize, (alike_of_strip hws).1, (alike_of_strip hws).2,
      hwrest.trans hrest⟩

/-- More cells are moved than there are, first one way and then the other. -/
theorem under_adds_up_overshooting :
    ∃ t u v, under ⟨⟨[1]⟩, [⟨[2]⟩, ⟨[9]⟩]⟩ 3 = .ok t ∧ t.under (-4) = .ok u ∧
      under ⟨⟨[1]⟩, [⟨[2]⟩, ⟨[9]⟩]⟩ (-1) = .ok v ∧ u.AlikeOnTop v ∧
      u.below = [⟨[1, 2, 0, 0]⟩, ⟨[9]⟩] ∧ v.below = [⟨[1, 2]⟩, ⟨[9]⟩] := by
  obtain ⟨t, u, v, w, ht, hu, hv, -, halike, -⟩ :=
    under_adds_up ⟨⟨[1]⟩, [⟨[2]⟩, ⟨[9]⟩]⟩ (by decide) 3 (-4)
  refine ⟨t, u, v, ht, hu, hv, halike, ?_, ?_⟩
  · cases ht
    cases hu
    rfl
  · cases hv
    rfl

end StackStack

end Befunge
