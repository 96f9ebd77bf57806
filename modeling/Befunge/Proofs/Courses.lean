import Befunge.Pointer
import Befunge.Proofs.Movement

/-!
# Courses stay in the box

Every search for a command or for text goes on by single steps, so it ends inside the box
if it began there.  The moves of a pointer are made of such searches.  `Pointer.Moved` is
what all of them have in common: the pointer is the same thread, the space is as it was,
and a pointer that stood inside the box still does.
-/

namespace Befunge

namespace Course

theorem searchCommand_mem {s : Space} {delta : Vec} (limit : Nat) :
    ∀ (seen : Seen) {p : Vec} (skipping : Bool) (reads : Nat), p ∈ s.bounds →
      (searchCommand s delta limit seen p skipping reads).1 ∈ s.bounds := by
  induction limit with
  | zero =>
      intro seen p skipping reads hp
      exact hp
  | succ limit ih =>
      intro seen p skipping reads hp
      simp only [searchCommand]
      generalize (if s.read p = Cell.semicolon then !skipping else skipping) = inComment
      split
      · exact hp
      · split
        · exact hp
        · exact ih _ _ _ (Bounds.next_mem hp delta)

/-- The search for a command ends inside the box. -/
theorem findCommand_mem {s : Space} {p : Vec} (delta : Vec) (hp : p ∈ s.bounds) :
    (findCommand s delta p).1 ∈ s.bounds :=
  searchCommand_mem _ _ _ _ hp

theorem searchText_mem {s : Space} {delta : Vec} (limit : Nat) :
    ∀ (seen : Seen) {p : Vec} (reads : Nat), p ∈ s.bounds →
      (searchText s delta limit seen p reads).1 ∈ s.bounds := by
  induction limit with
  | zero =>
      intro seen p reads hp
      exact hp
  | succ limit ih =>
      intro seen p reads hp
      simp only [searchText]
      split
      · exact hp
      · exact ih _ _ (Bounds.next_mem hp delta)

/-- The search for text ends inside the box. -/
theorem skipBlanks_mem {s : Space} {p : Vec} (delta : Vec) (hp : p ∈ s.bounds) :
    (skipBlanks s delta p).1 ∈ s.bounds :=
  searchText_mem _ _ _ hp

end Course

namespace Pointer

/-- What the moves of a pointer have in common. -/
structure Moved (ip : Pointer) (m : Memory) (ip' : Pointer) (m' : Memory) : Prop where
  id : ip'.id = ip.id
  alive : ip'.alive = ip.alive
  space : m'.space = m.space
  inside : ip.position ∈ m.space.bounds → ip'.position ∈ m.space.bounds

theorem Moved.trans {ip ip₁ ip₂ : Pointer} {m m₁ m₂ : Memory} (h₁ : Moved ip m ip₁ m₁)
    (h₂ : Moved ip₁ m₁ ip₂ m₂) : Moved ip m ip₂ m₂ where
  id := h₂.id.trans h₁.id
  alive := h₂.alive.trans h₁.alive
  space := h₂.space.trans h₁.space
  inside hp := by
    rw [← h₁.space]
    exact h₂.inside (by rw [h₁.space]; exact h₁.inside hp)

theorem step_moved (ip : Pointer) (m : Memory) : Moved ip m (ip.step m.space) m :=
  ⟨rfl, rfl, rfl, fun hp => Bounds.next_mem hp ip.delta⟩

theorem findCommand_moved (ip : Pointer) (m : Memory) :
    Moved ip m (ip.findCommand m).1 (ip.findCommand m).2 :=
  ⟨rfl, rfl, rfl, fun hp => Course.findCommand_mem ip.delta hp⟩

theorem skipBlanks_moved (ip : Pointer) (m : Memory) :
    Moved ip m (ip.skipBlanks m).1 (ip.skipBlanks m).2 :=
  ⟨rfl, rfl, rfl, fun hp => Course.skipBlanks_mem ip.delta hp⟩

theorem advance_moved (ip : Pointer) (m : Memory) (collapse : Bool) :
    Moved ip m (ip.advance m collapse).1 (ip.advance m collapse).2 := by
  have hstep := ip.step_moved m
  simp only [advance]
  split
  · exact hstep.trans (findCommand_moved _ m)
  · split
    · exact hstep.trans (skipBlanks_moved _ m)
    · exact hstep

/-- The next command is looked for inside the box. -/
theorem peekCommand_mem (ip : Pointer) (m : Memory) (hp : ip.position ∈ m.space.bounds) :
    (ip.peekCommand m).1.1 ∈ m.space.bounds :=
  ((ip.step_moved m).trans (findCommand_moved _ m)).inside hp

end Pointer

end Befunge
