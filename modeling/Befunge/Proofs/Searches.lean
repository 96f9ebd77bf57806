import Mathlib.Algebra.Group.Nat.Even
import Mathlib.Data.Nat.Count
import Befunge.Proofs.Courses
import Befunge.Proofs.Stations

/-!
# What searches for a command find

The walk from a position is the sequence of its single steps.  `Course.CommandAt` says which of
its cells is a command without any search: the cell is neither a blank nor a semicolon, and the
semicolons before it pair up.  A search from inside the box ends at the first such cell, and
where it began if there is none (`Pointer.findCommand_finds_first`).

The next command after a command is found by such a search, and there always is one, since
the walk comes back to the command it left.  The search from there along the opposite delta
reads the same cells in the opposite order, with the same semicolons paired, so it finds the
command that was left (`Pointer.advance_retraces`).
-/

namespace Befunge

/-! ## Commands along a walk -/

namespace Course

open Station

/-- The point `k` steps after `p`. -/
def point (s : Space) (delta p : Vec) (k : Nat) : Vec := (s.bounds.next · delta)^[k] p

/-- How many of the first `k` cells of a walk are semicolons. -/
def semicolons (s : Space) (delta p : Vec) (k : Nat) : Nat :=
  Nat.count (fun i => s.read (point s delta p i) = Cell.semicolon) k

/-- The cell after `k` steps is a command: it is neither a blank nor a semicolon, and the
semicolons before it pair up. -/
def CommandAt (s : Space) (delta p : Vec) (k : Nat) : Prop :=
  s.read (point s delta p k) ≠ Cell.blank ∧ s.read (point s delta p k) ≠ Cell.semicolon ∧
    Even (semicolons s delta p k)

instance (s : Space) (delta p : Vec) (k : Nat) : Decidable (CommandAt s delta p k) :=
  inferInstanceAs (Decidable (_ ∧ _ ∧ _))

variable {s : Space} {delta p : Vec}

/-- A course is inside a comment where it has met an odd number of semicolons. -/
theorem skipping_ahead (k : Nat) :
    ((arrive s p false).ahead s delta k).skipping = true ↔ Odd (semicolons s delta p (k + 1)) := by
  induction k with
  | zero =>
      have hread : s.read (point s delta p 0) = s.read p := rfl
      rw [semicolons, Nat.count_succ, Nat.count_zero, hread]
      simp only [ahead, Function.iterate_zero_apply, arrive]
      split <;> simp
  | succ k ih =>
      have hposition : s.bounds.next ((arrive s p false).ahead s delta k).position delta =
          point s delta p (k + 1) := by
        rw [position_ahead, point, Function.iterate_succ_apply']
        rfl
      rw [ahead_succ, semicolons, Nat.count_succ, ← semicolons, onward, hposition]
      simp only [arrive] at ih ⊢
      split
      · rw [Nat.odd_add_one, ← ih, Bool.not_eq_true', Bool.not_eq_true]
      · rw [Nat.add_zero, ← ih]

theorem isCommand_ahead_iff (k : Nat) :
    ((arrive s p false).ahead s delta k).IsCommand s ↔ CommandAt s delta p k := by
  have hposition : ((arrive s p false).ahead s delta k).position = point s delta p k :=
    position_ahead s delta _ k
  rw [IsCommand, CommandAt, hposition]
  by_cases hsemicolon : s.read (point s delta p k) = Cell.semicolon
  · simp [hsemicolon]
  · have hcount : semicolons s delta p (k + 1) = semicolons s delta p k := by
      rw [semicolons, Nat.count_succ, if_neg hsemicolon, Nat.add_zero, semicolons]
    rw [← Bool.not_eq_true, skipping_ahead, hcount, Nat.not_odd_iff_even]
    tauto

/-- What the search finds, and how the stations of its course lie. -/
theorem findCommand_outcome (delta : Vec) (hp : p ∈ s.bounds) :
    (∃ k, IsLeast {i | ((arrive s p false).ahead s delta i).IsCommand s} k ∧
      (findCommand s delta p).1 = point s delta p k) ∨
    ((findCommand s delta p).1 = p ∧
      (∀ i, ¬ ((arrive s p false).ahead s delta i).IsCommand s) ∧
      ∃ k, 0 < k ∧ (arrive s p false).ahead s delta k = arrive s p false) := by
  obtain ⟨k, hposition, hpasses⟩ := (stops_findCommand s delta p).passes
  rcases hpasses.outcome hp with hleast | ⟨hpos, hback, hnone⟩
  · exact .inl ⟨k, hleast, by rw [hposition, position_ahead]; rfl⟩
  · exact .inr ⟨by rw [hposition, hback]; rfl, hnone, k, hpos, hback⟩

end Course

namespace Pointer

open Course

/-- Looking for a command always ends.  From inside the box it ends at the first cell of the walk
that is neither a blank nor a semicolon and that has an even number of semicolons before
it.  If there is no such cell the pointer is where it was, on a blank or a semicolon. -/
theorem findCommand_finds_first (ip : Pointer) (m : Memory) :
    (∀ p n, Stops m.space ip.delta ∅ (.arrive m.space ip.position false) p n ↔
      ip.findCommand m = (ip.moveTo p, m.countReads n)) ∧
    (ip.position ∈ m.space.bounds →
      (∀ k, IsLeast {i | CommandAt m.space ip.delta ip.position i} k →
        (ip.findCommand m).1 = ip.moveTo (point m.space ip.delta ip.position k)) ∧
      ((∀ k, ¬ CommandAt m.space ip.delta ip.position k) →
        (ip.findCommand m).1 = ip ∧
        (m.space.read ip.position = Cell.blank ∨ m.space.read ip.position = Cell.semicolon))) := by
  refine ⟨fun p n => ?_, fun hp => ?_⟩
  · rw [stops_iff]
    constructor
    · intro h
      rw [Pointer.findCommand, h]
    · intro h
      have hposition := congrArg (·.1.position) h
      have hreads := congrArg (·.2.reads) h
      exact Prod.ext hposition (Nat.add_left_cancel hreads)
  · have houtcome := findCommand_outcome ip.delta hp
    simp only [isCommand_ahead_iff] at houtcome
    constructor
    · intro k hk
      rcases houtcome with ⟨i, hi, hfound⟩ | ⟨-, hnone, -⟩
      · have hik : i = k := hi.unique hk
        rw [← hik, ← hfound]
        rfl
      · exact absurd hk.1 (hnone k)
    · intro hnone
      rcases houtcome with ⟨i, hi, -⟩ | ⟨hback, -, -⟩
      · exact absurd hi.1 (hnone i)
      · refine ⟨?_, ?_⟩
        · change ip.moveTo (Course.findCommand m.space ip.delta ip.position).1 = ip
          rw [hback]
          rfl
        · -- with no cell before it, the first cell is a command unless it is one of the two
          by_contra hneither
          rw [not_or] at hneither
          exact hnone 0 ⟨hneither.1, hneither.2, 0, rfl⟩

/-- A row with a single semicolon. -/
def unpaired : Memory := { space := Space.ofText ";a b".toList }

/-- A pointer that goes east along that row. -/
def eastward (column : Nat) : Pointer := { id := 0, position := ⟨column, 0⟩ }

/-- From the semicolon on, the first round is inside the comment. -/
theorem findCommand_finds_first_unpaired :
    (eastward 0).position ∈ unpaired.space.bounds ∧
    IsLeast {i | CommandAt unpaired.space (eastward 0).delta (eastward 0).position i} 5 ∧
    ((eastward 0).findCommand unpaired).1 = eastward 1 := by
  have hp : (eastward 0).position ∈ unpaired.space.bounds := by decide +kernel
  have hleast : IsLeast {i | CommandAt unpaired.space (eastward 0).delta (eastward 0).position i}
      5 := by
    have hnone : ∀ i < 5,
        ¬ CommandAt unpaired.space (eastward 0).delta (eastward 0).position i := by decide +kernel
    refine ⟨by decide +kernel, fun i hi => ?_⟩
    by_contra hlt
    exact hnone i (Nat.lt_of_not_le hlt) hi
  have hpoint : point unpaired.space (eastward 0).delta (eastward 0).position 5 = ⟨1, 0⟩ := by
    decide +kernel
  refine ⟨hp, hleast, ?_⟩
  rw [((findCommand_finds_first (eastward 0) unpaired).2 hp).1 5 hleast, hpoint]
  rfl

end Pointer

/-! ## From command to command -/

namespace Course

open Station

variable {s : Space} {st : Station}

/-- After a command there is another one, or the same one again, and the search finds it. -/
theorem findCommand_next (hst : st.IsCommand s) (hmem : st.position ∈ s.bounds) (delta : Vec) :
    ∃ k, IsLeast {i | 0 < i ∧ (st.ahead s delta i).IsCommand s} k ∧
      (findCommand s delta (s.bounds.next st.position delta)).1 =
        (st.ahead s delta k).position := by
  have hnext : arrive s (s.bounds.next st.position delta) false = st.onward s delta := by
    rw [onward, hst.2.2]
  have houtcome := findCommand_outcome delta (Bounds.next_mem hmem delta)
  simp only [hnext, ahead_onward] at houtcome
  rcases houtcome with ⟨k, hleast, hfound⟩ | ⟨-, hnone, k, hpos, hback⟩
  · refine ⟨k + 1, ⟨⟨Nat.succ_pos k, hleast.1⟩, ?_⟩, ?_⟩
    · rintro i ⟨hi, hcommand⟩
      obtain ⟨i, rfl⟩ := Nat.exists_eq_succ_of_ne_zero hi.ne'
      exact Nat.succ_le_succ (hleast.2 hcommand)
    · rw [hfound, position_ahead]
      rfl
  · -- the course would come back to the command it left
    obtain ⟨k, rfl⟩ := Nat.exists_eq_succ_of_ne_zero hpos.ne'
    have hreturn : st.ahead s delta (k + 1) = st := by
      refine ahead_eq_of_eq hmem (i := 1) ?_
      rw [Nat.add_comm]
      exact hback.symm
    rw [← hreturn] at hst
    exact absurd hst (hnone k)

theorem ahead_neg_ahead {delta : Vec} {j k : Nat} (hmem : st.position ∈ s.bounds)
    (hk : (st.ahead s delta k).IsCommand s) (hj : j ≤ k) :
    (st.ahead s delta k).ahead s (-delta) j = (st.ahead s delta (k - j)).mirror s := by
  rw [← ahead_neg_mirror hmem hj, mirror_of_ne hk.1]

/-- The next command of a course that is run backward is the one before. -/
theorem isLeast_neg {delta : Vec} {k : Nat} (hst : st.IsCommand s) (hmem : st.position ∈ s.bounds)
    (hk : IsLeast {i | 0 < i ∧ (st.ahead s delta i).IsCommand s} k) :
    IsLeast {i | 0 < i ∧ ((st.ahead s delta k).ahead s (-delta) i).IsCommand s} k := by
  refine ⟨⟨hk.1.1, ?_⟩, ?_⟩
  · rw [ahead_neg_ahead hmem hk.1.2 (Nat.le_refl k), Nat.sub_self, isCommand_mirror]
    exact hst
  · rintro j ⟨hj, hcommand⟩
    by_contra hlt
    rw [ahead_neg_ahead hmem hk.1.2 (Nat.le_of_not_le hlt), isCommand_mirror] at hcommand
    have hle : k ≤ k - j := hk.2 ⟨by omega, hcommand⟩
    omega

/-- The search after a command and the search back from what it finds. -/
theorem findCommand_retraces (hst : st.IsCommand s) (hmem : st.position ∈ s.bounds) (delta : Vec) :
    ∃ q : Station, q.IsCommand s ∧
      (findCommand s delta (s.bounds.next st.position delta)).1 = q.position ∧
      (findCommand s (-delta) (s.bounds.next q.position (-delta))).1 = st.position := by
  obtain ⟨k, hk, hfound⟩ := findCommand_next hst hmem delta
  obtain ⟨k', hk', hfound'⟩ := findCommand_next hk.1.2 (ahead_mem hmem k) (-delta)
  have hkk' : k' = k := hk'.unique (isLeast_neg hst hmem hk)
  refine ⟨st.ahead s delta k, hk.1.2, hfound, ?_⟩
  rw [hfound', hkk', ahead_neg_ahead hmem hk.1.2 (Nat.le_refl k), Nat.sub_self]
  rfl

end Course

namespace Pointer

open Course

theorem advance_of_commands {ip : Pointer} (m : Memory) (hmode : ip.stringMode = false)
    (collapse : Bool) :
    ip.advance m collapse =
      (ip.moveTo (Course.findCommand m.space ip.delta (m.space.bounds.next ip.position ip.delta)).1,
        m.countReads
          (Course.findCommand m.space ip.delta (m.space.bounds.next ip.position ip.delta)).2) := by
  have hstep : (ip.step m.space).stringMode = false := hmode
  rw [advance, if_pos hstep]
  rfl

/-- A pointer that went on from a command stands on a command, and if it turns round and goes on
again it is back where it was. -/
theorem advance_retraces (ip : Pointer) (m : Memory) (hmode : ip.stringMode = false)
    (hp : ip.position ∈ m.space.bounds) (hblank : m.space.read ip.position ≠ Cell.blank)
    (hsemicolon : m.space.read ip.position ≠ Cell.semicolon) (collapse collapse' : Bool) :
    m.space.read (ip.advance m collapse).1.position ≠ Cell.blank ∧
    m.space.read (ip.advance m collapse).1.position ≠ Cell.semicolon ∧
    ((ip.advance m collapse).1.reflect.advance (ip.advance m collapse).2 collapse').1 =
      ip.reflect := by
  have hst : (⟨ip.position, false⟩ : Station).IsCommand m.space := ⟨hsemicolon, hblank, rfl⟩
  obtain ⟨q, hq, hfound, hback⟩ := findCommand_retraces hst hp ip.delta
  have hturned : (ip.moveTo q.position).reflect.stringMode = false := hmode
  rw [advance_of_commands m hmode, hfound]
  refine ⟨hq.2.1, hq.1, ?_⟩
  rw [advance_of_commands _ hturned]
  exact congrArg ip.reflect.moveTo hback

/-- From the last letter the pointer passes over both letters inside the comment, before it comes
to the first one. -/
theorem advance_retraces_unpaired :
    (eastward 3).position ∈ unpaired.space.bounds ∧
    ((eastward 3).advance unpaired false).1 = eastward 1 ∧
    ((eastward 1).reflect.advance ((eastward 3).advance unpaired false).2 false).1 =
      (eastward 3).reflect := by
  have hfound : ((eastward 3).advance unpaired false).1 = eastward 1 := by with_unfolding_all rfl
  refine ⟨by decide +kernel, hfound, ?_⟩
  rw [← hfound]
  exact (advance_retraces (eastward 3) unpaired rfl (by decide +kernel) (by decide +kernel)
    (by decide +kernel) false false).2.2

end Pointer

end Befunge
