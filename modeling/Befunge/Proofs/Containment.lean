import Befunge.Proofs.Rounds

/-!
# Pointers never leave the box

The wrap of a step is meaningful only from inside the box of the program space.  No
command, no search and no split takes a pointer out of it, whatever its delta is, and the
box of a space only grows, so that a pointer is not left behind while others write cells.
Hence every pointer of every machine stands inside the box after any number of ticks, also
after ticks that ended in faults.
-/

namespace Befunge

/-- The pointers of a list, and those that were made in this tick, stand inside the box. -/
structure World.Encloses (w : World) (ps : List Pointer) : Prop where
  pointers : ∀ ip ∈ ps, ip.position ∈ w.space.bounds
  spawned : ∀ ip ∈ w.spawned, ip.position ∈ w.space.bounds

/-- A pointer inside the box makes its children inside the box. -/
theorem Deeds.spawned_inside {ip ip' : Pointer} {w w' : World} (h : Deeds ip w ip' w')
    (hp : ip.position ∈ w.space.bounds)
    (hspawned : ∀ child ∈ w.spawned, child.position ∈ w.space.bounds) :
    ∀ child ∈ w'.spawned, child.position ∈ w'.space.bounds := by
  induction h with
  | start => exact hspawned
  | errand _ _ _ hw _ ih =>
      intro child hchild
      rw [hw.spawned] at hchild
      exact hw.bounds _ (ih child hchild)
  | @split ip₁ w₁ h₁ ih =>
      intro child hchild
      rw [World.split_space]
      rcases List.mem_cons.mp hchild with rfl | hchild
      · exact w₁.child_mem ip₁ (h₁.inside hp)
      · exact ih child hchild
  | stop _ _ ih => exact ih
  | quit _ _ ih => exact ih

namespace World.Encloses

variable {w : World} {had yet : List Pointer} {ip : Pointer}

theorem deeds {ip' : Pointer} {w' : World} (h : w.Encloses (had ++ ip :: yet))
    (hdeeds : Deeds ip w ip' w') : w'.Encloses (had ++ [ip'] ++ yet) where
  pointers q hq := by
    have hip := h.pointers ip (by simp)
    rcases List.mem_append.mp hq with hq | hq
    · rcases List.mem_append.mp hq with hq | hq
      · exact hdeeds.bounds _ (h.pointers q (by simp [hq]))
      · rw [List.mem_singleton.mp hq]
        exact hdeeds.inside hip
    · exact hdeeds.bounds _ (h.pointers q (by simp [hq]))
  spawned := hdeeds.spawned_inside (h.pointers ip (by simp)) h.spawned

/-- A turn of one of the pointers leaves all of them inside the box. -/
theorem turn (h : w.Encloses (had ++ ip :: yet)) :
    (w.perform ip).world.Encloses (had ++ [(w.perform ip).pointer] ++ yet) := by
  have hturn := w.perform_turn ip
  generalize w.perform ip = r at hturn
  cases hturn with
  | broken f hdeeds => exact h.deeds hdeeds
  | recorded record pauses fault hdeeds _ _ =>
      have hafter := h.deeds hdeeds
      exact ⟨hafter.pointers, hafter.spawned⟩

theorem round {ps : List Pointer} (h : w.Encloses ps) :
    (w.round ps).world.Encloses (w.round ps).pointers := by
  obtain ⟨done, yet, hround, hpointers, _⟩ :=
    World.round_preserves (P := fun had yet w _ => w.Encloses (had ++ yet))
      (fun _ _ _ _ h => h.turn) ps [] w h
  rw [hpointers]
  exact hround

end World.Encloses

namespace Machine

theorem Tick.encloses {m m' : Machine} {result : Except Fault Bool} (htick : m.Tick result m')
    (h : m.world.Encloses m.pointers) : m'.world.Encloses m'.pointers := by
  have hturns : m.turns.world.Encloses m.turns.pointers :=
    World.Encloses.round ⟨h.pointers, h.spawned⟩
  cases htick with
  | idle _ => exact h
  | exhausted _ _ _ => exact ⟨h.pointers, h.spawned⟩
  | broken _ _ _ => exact hturns
  | ended _ _ => exact ⟨by simp, by simp⟩
  | emptied _ _ _ =>
      exact ⟨by simp, fun _ hip => absurd hip (by simp [World.ended, World.countPointers])⟩
  | settled _ _ _ =>
      refine ⟨?_, fun _ hip => absurd hip (by simp [World.countPointers])⟩
      intro ip hip
      rcases List.mem_append.mp hip with hip | hip
      · exact hturns.pointers ip (List.mem_filter.mp hip).1
      · exact hturns.spawned ip (List.mem_reverse.mp hip)

theorem start_encloses {w : World} (hw : w.spawned = []) :
    (start w).world.Encloses (start w).pointers := by
  have hmoved := Pointer.findCommand_moved { id := w.nextId } w.memory
  refine ⟨?_, fun ip hip => ?_⟩
  · intro ip hip
    rw [List.mem_singleton.mp hip]
    exact hmoved.inside (Bounds.zero_mem _)
  · have hspawned : (start w).world.spawned = w.spawned := rfl
    rw [hspawned, hw] at hip
    cases hip

/-- After any number of ticks of any program every pointer stands inside the box, those that
wait for the next tick included.  Every way to move keeps a pointer there: a step, the
searches, the moves between commands, and every command, which also leaves the other
pointers and its children inside the box. -/
theorem pointers_never_leave_box :
    (∀ (setup : Setup) (source : Source) (console : Console) (n : Nat),
      ∀ ip ∈ ((setup.load source console).after n).pointers ++
          ((setup.load source console).after n).world.spawned,
        ip.position ∈ ((setup.load source console).after n).world.space.bounds) ∧
    ∀ (w : World) (ip : Pointer), ip.position ∈ w.space.bounds →
      (ip.step w.space).position ∈ w.space.bounds ∧
      (ip.findCommand w.memory).1.position ∈ w.space.bounds ∧
      (ip.skipBlanks w.memory).1.position ∈ w.space.bounds ∧
      (∀ collapse, (ip.advance w.memory collapse).1.position ∈ w.space.bounds) ∧
      ∀ v, (Execute.cell v ip w).pointer.position ∈ (Execute.cell v ip w).world.space.bounds ∧
        (∀ p ∈ w.space.bounds, p ∈ (Execute.cell v ip w).world.space.bounds) ∧
        ((∀ child ∈ w.spawned, child.position ∈ w.space.bounds) →
          ∀ child ∈ (Execute.cell v ip w).world.spawned,
            child.position ∈ (Execute.cell v ip w).world.space.bounds) := by
  constructor
  · intro setup source console n ip hip
    have h := after_preserves (P := fun m => m.world.Encloses m.pointers)
      (start_encloses (w := setup.world source.load.1 console source.load.2) rfl)
      (fun _ _ _ htick h => htick.encloses h) n
    rcases List.mem_append.mp hip with hip | hip
    · exact h.pointers ip hip
    · exact h.spawned ip hip
  · intro w ip hp
    refine ⟨(ip.step_moved w.memory).inside hp, (ip.findCommand_moved w.memory).inside hp,
      (ip.skipBlanks_moved w.memory).inside hp,
      fun collapse => (ip.advance_moved w.memory collapse).inside hp, fun v => ?_⟩
    have hdeeds := Execute.cell_deeds v ip w
    exact ⟨hdeeds.inside hp, hdeeds.bounds, hdeeds.spawned_inside hp⟩

/-- A world of two rows. -/
def twoRows : World :=
  (Setup.load { clock := ⟨2000, 1, 1, 0, 0, 0⟩ } (.text "94p\n123j@") { input := .ofText [] }).world

/-- A pointer with a flying delta, which is about to jump. -/
def jumper : Pointer := ({ id := 0, position := ⟨3, 1⟩, delta := ⟨5, -3⟩ } : Pointer).push 1000

theorem jumper_never_leaves_box :
    jumper.position ∈ twoRows.space.bounds ∧
    (Execute.cell 106 jumper twoRows).pointer.position ∈
      (Execute.cell 106 jumper twoRows).world.space.bounds := by
  have hp : jumper.position ∈ twoRows.space.bounds := by decide +kernel
  obtain ⟨-, -, -, -, hcell⟩ := pointers_never_leave_box.2 twoRows jumper hp
  exact ⟨hp, (hcell 106).1⟩

end Machine

end Befunge
