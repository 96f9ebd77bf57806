import Mathlib.Logic.Function.Iterate
import Befunge.Setup
import Befunge.Proofs.Deeds

/-!
# Turns, rounds and ticks

The scheduler in three layers.  A turn is a step of one pointer, which is recorded unless a
fault breaks it off (`World.perform_turn`).  A round gives pointers their turns one after
the other, so what every turn preserves a round preserves (`World.round_preserves`).  A
tick counts itself, makes a round and settles the books (`Machine.tick_kind`).

Runs are ticks in a row.  `Machine.after m n` is the machine after `n` ticks, faults or
not, and `Machine.Smooth m n` says that none of them ended in a fault.
-/

namespace Befunge

/-! ## Turns -/

/-- What is left after a pointer had its turn. -/
inductive Turn (w : World) (ip : Pointer) : Outcome → Prop where
  /-- A fault broke the turn off. -/
  | broken {ip' : Pointer} {w' : World} (f : Fault) :
      Deeds ip w ip' w' → Turn w ip ⟨ip', w', some f⟩
  /-- The turn was recorded.  The pause that follows can still be a fault. -/
  | recorded {ip' : Pointer} {w' : World} (record : TraceRecord) (pauses : Nat)
      (fault : Option Fault) :
      Deeds ip w ip' w' → record.tick = w'.tally.ticks → record.id = ip'.id →
      Turn w ip ⟨ip', { w'.countInstruction record with pauses := pauses }, fault⟩

theorem World.perform_turn (w : World) (ip : Pointer) : Turn w ip (w.perform ip) := by
  have hdeeds := w.step_deeds ip
  rw [World.perform]
  generalize w.step ip = vr at hdeeds
  obtain ⟨v, ip', w', fault⟩ := vr
  cases fault with
  | some f => exact .broken f hdeeds
  | none =>
      simp only [World.pause]
      split
      next f _ => exact .recorded _ _ (some f) hdeeds rfl rfl
      next =>
        split
        next w'' hpause =>
          split at hpause
          · cases hpause
            exact .recorded _ _ none hdeeds rfl rfl
          · split at hpause
            · cases hpause
            · cases hpause
              exact .recorded _ _ none hdeeds rfl rfl
        next f hpause => exact .recorded _ _ (some f) hdeeds rfl rfl

/-! ## Rounds -/

/-- The fault that broke a round off. -/
def RoundEnd.fault : RoundEnd → Option Fault
  | .complete => none
  | .ended => none
  | .faulted f => some f

namespace World

/-- What every turn preserves a round preserves.  The pointers are told apart by whether they
had their turn. -/
theorem round_preserves {P : List Pointer → List Pointer → World → Option Fault → Prop}
    (hturn : ∀ had ip yet w, P had (ip :: yet) w none →
      P (had ++ [(w.perform ip).pointer]) yet (w.perform ip).world (w.perform ip).fault)
    (ps : List Pointer) :
    ∀ had w, P had ps w none → ∃ done yet,
      P (had ++ done) yet (w.round ps).world (w.round ps).ending.fault ∧
      (w.round ps).pointers = done ++ yet ∧ ((w.round ps).ending = .complete → yet = []) := by
  induction ps with
  | nil =>
      intro had w h
      exact ⟨[], [], by simpa [round, RoundEnd.fault] using h, rfl, fun _ => rfl⟩
  | cons ip rest ih =>
      intro had w h
      have hfirst := hturn had ip rest w h
      simp only [round]
      split
      next f hfault =>
        rw [hfault] at hfirst
        exact ⟨[(w.perform ip).pointer], rest, hfirst, rfl, by simp⟩
      next hfault =>
        rw [hfault] at hfirst
        split
        · obtain ⟨done, yet, hrest, hpointers, hcomplete⟩ := ih _ _ hfirst
          exact ⟨(w.perform ip).pointer :: done, yet, by simpa using hrest,
            by simp [hpointers], hcomplete⟩
        · exact ⟨[(w.perform ip).pointer], rest, hfirst, rfl, by simp⟩

/-- A round in which every pointer had its turn leaves the machine running. -/
theorem status_of_round_complete (ps : List Pointer) :
    ∀ w : World, w.status = .running → (w.round ps).ending = .complete →
      (w.round ps).world.status = .running := by
  induction ps with
  | nil =>
      intro w h _
      exact h
  | cons ip rest ih =>
      intro w _
      simp only [round]
      split
      · intro h
        cases h
      · split
        next hstatus => exact ih _ hstatus
        · intro h
          cases h

/-- A round of pointers that all have their turns is followed by a round of others. -/
theorem round_append (before others : List Pointer) :
    ∀ w : World, (w.round before).ending = .complete →
      w.round (before ++ others) =
        { (w.round before).world.round others with
          pointers := (w.round before).pointers ++
            ((w.round before).world.round others).pointers } := by
  induction before with
  | nil =>
      intro w _
      rfl
  | cons ip rest ih =>
      intro w h
      simp only [List.cons_append, round] at h ⊢
      cases hfault : (w.perform ip).fault with
      | some f =>
          rw [hfault] at h
          cases h
      | none =>
          rw [hfault] at h
          by_cases hstatus : (w.perform ip).world.status = .running
          · simp only [if_pos hstatus] at h ⊢
            rw [ih _ h]
            rfl
          · simp only [if_neg hstatus] at h
            cases h

/-- The pointer `halter` ends the program in its turn, after those of `before`. -/
structure HaltedBy (w : World) (ps before : List Pointer) (halter : Pointer) : Prop where
  order : before ++ [halter] <+: ps
  goesOn : (w.round before).ending = .complete
  ends : ((w.round before).world.perform halter).world.status ≠ .running

/-- Nothing happens in a round after the turn of the pointer that ends the program. -/
theorem HaltedBy.round_world {w : World} {ps before : List Pointer} {halter : Pointer}
    (h : w.HaltedBy ps before halter) (hsmooth : (w.round ps).ending.fault = none) :
    ((w.round before).world.perform halter).fault = none ∧
      (w.round ps).world = ((w.round before).world.perform halter).world := by
  obtain ⟨others, rfl⟩ := h.order
  rw [List.append_assoc, round_append _ _ w h.goesOn] at hsmooth ⊢
  simp only [List.singleton_append, round] at hsmooth ⊢
  cases hfault : ((w.round before).world.perform halter).fault with
  | some f =>
      rw [hfault] at hsmooth
      cases hsmooth
  | none =>
      refine ⟨rfl, ?_⟩
      simp only [if_neg h.ends]

/-- A round that a pointer ended has a pointer that ended the program. -/
theorem exists_haltedBy (ps : List Pointer) :
    ∀ w : World, (w.round ps).ending = .ended → ∃ before halter, w.HaltedBy ps before halter := by
  induction ps with
  | nil =>
      intro w h
      cases h
  | cons ip rest ih =>
      intro w h
      simp only [round] at h
      cases hfault : (w.perform ip).fault with
      | some f =>
          rw [hfault] at h
          cases h
      | none =>
          rw [hfault] at h
          by_cases hstatus : (w.perform ip).world.status = .running
          · simp only [if_pos hstatus] at h
            obtain ⟨before, halter, hby⟩ := ih _ h
            refine ⟨ip :: before, halter, ?_, ?_, ?_⟩
            · exact List.cons_prefix_cons.mpr ⟨rfl, hby.order⟩
            · simp only [round, hfault, if_pos hstatus]
              exact hby.goesOn
            · simp only [round, hfault, if_pos hstatus]
              exact hby.ends
          · exact ⟨[], ip, ⟨rest, rfl⟩, rfl, hstatus⟩

/-- A round that a pointer ended leaves a machine that is not running. -/
theorem status_of_round_ended {w : World} {ps : List Pointer}
    (h : (w.round ps).ending = .ended) : (w.round ps).world.status ≠ .running := by
  obtain ⟨before, halter, hby⟩ := exists_haltedBy ps w h
  rw [(hby.round_world (by rw [h, RoundEnd.fault])).2]
  exact hby.ends

end World

/-! ## Ticks -/

namespace Machine

/-- The turns of the next tick. -/
def turns (m : Machine) : Round := m.world.countTick.round m.pointers

/-- The pointers that are left when the turns are over. -/
def left (m : Machine) : List Pointer :=
  m.turns.pointers.filter (·.alive) ++ m.turns.world.spawned.reverse

/-- A tick is begun only by a machine that is running and has not used up its ticks. -/
structure Begins (m : Machine) : Prop where
  running : m.world.status = .running
  unspent : m.budgetSpent = none

/-- A tick that is begun comes to what its turns say. -/
theorem Begins.tick_eq {m : Machine} (h : m.Begins) :
    m.tick =
      match m.turns.ending with
      | .faulted f => (.error f, ⟨m.turns.world, m.turns.pointers⟩)
      | .ended => (.ok false, ⟨{ m.turns.world with spawned := [] }, []⟩)
      | .complete =>
          (.ok (settle m.turns.pointers m.turns.world).1,
            (settle m.turns.pointers m.turns.world).2) := by
  simp only [tick, h.running, h.unspent, ne_eq, not_true_eq_false, if_false]
  rfl

/-- What a tick can come to. -/
inductive Tick (m : Machine) : Except Fault Bool → Machine → Prop where
  /-- The machine was no longer running. -/
  | idle : m.world.status ≠ .running → Tick m (.ok false) m
  /-- The machine had used up its ticks. -/
  | exhausted (maxTicks : Int) : m.world.status = .running → m.budgetSpent = some maxTicks →
      Tick m (.ok false) { m with world := m.world.exhaust maxTicks }
  /-- A fault broke the turns off. -/
  | broken (f : Fault) : m.Begins → m.turns.ending = .faulted f →
      Tick m (.error f) ⟨m.turns.world, m.turns.pointers⟩
  /-- A pointer ended the program. -/
  | ended : m.Begins → m.turns.ending = .ended →
      Tick m (.ok false) ⟨{ m.turns.world with spawned := [] }, []⟩
  /-- All pointers have stopped. -/
  | emptied : m.Begins → m.turns.ending = .complete → m.left = [] →
      Tick m (.ok false) ⟨(m.turns.world.countPointers []).ended .done 0, []⟩
  /-- The machine goes on with the pointers that are left. -/
  | settled : m.Begins → m.turns.ending = .complete → m.left ≠ [] →
      Tick m (.ok true) ⟨m.turns.world.countPointers m.left, m.left⟩

theorem tick_kind (m : Machine) : m.Tick m.tick.1 m.tick.2 := by
  by_cases hrunning : m.world.status = .running
  · cases hbudget : m.budgetSpent with
    | some maxTicks =>
        have htick : m.tick = (.ok false, { m with world := m.world.exhaust maxTicks }) := by
          simp [tick, hrunning, hbudget]
        rw [htick]
        exact .exhausted maxTicks hrunning hbudget
    | none =>
        have hbegins : m.Begins := ⟨hrunning, hbudget⟩
        cases hending : m.turns.ending with
        | faulted f =>
            have htick : m.tick = (.error f, ⟨m.turns.world, m.turns.pointers⟩) := by
              rw [turns] at hending
              simp [tick, hrunning, hbudget, hending, turns]
            rw [htick]
            exact .broken f hbegins hending
        | ended =>
            have htick : m.tick = (.ok false, ⟨{ m.turns.world with spawned := [] }, []⟩) := by
              rw [turns] at hending
              simp [tick, hrunning, hbudget, hending, turns]
            rw [htick]
            exact .ended hbegins hending
        | complete =>
            have hsettle : settle m.turns.pointers m.turns.world =
                if m.left = [] then
                  (false, ⟨(m.turns.world.countPointers m.left).ended .done 0, []⟩)
                else (true, ⟨m.turns.world.countPointers m.left, m.left⟩) := rfl
            have htick : m.tick = (.ok (settle m.turns.pointers m.turns.world).1,
                (settle m.turns.pointers m.turns.world).2) := by
              rw [turns] at hending
              simp [tick, hrunning, hbudget, hending, turns]
            rw [htick]
            by_cases hleft : m.left = []
            · rw [hsettle, if_pos hleft, hleft]
              exact .emptied hbegins hending hleft
            · rw [hsettle, if_neg hleft]
              exact .settled hbegins hending hleft
  · have htick : m.tick = (.ok false, m) := by simp [tick, hrunning]
    rw [htick]
    exact .idle hrunning

theorem tick_of_not_running {m : Machine} (h : m.world.status ≠ .running) :
    m.tick = (.ok false, m) := by
  simp [tick, h]

/-! ## Runs -/

/-- The machine after `n` ticks, whether or not they ended in faults. -/
def after (m : Machine) (n : Nat) : Machine := (fun m => m.tick.2)^[n] m

@[simp] theorem after_zero (m : Machine) : m.after 0 = m := rfl

theorem after_succ (m : Machine) (n : Nat) : m.after (n + 1) = (m.after n).tick.2 :=
  Function.iterate_succ_apply' _ n m

/-- None of the first `n` ticks ends in a fault. -/
def Smooth (m : Machine) (n : Nat) : Prop := ∀ i < n, (m.after i).tick.1.isOk = true

instance (m : Machine) (n : Nat) : Decidable (m.Smooth n) :=
  inferInstanceAs (Decidable (∀ i < n, (m.after i).tick.1.isOk = true))

theorem Smooth.mono {m : Machine} {n k : Nat} (h : m.Smooth n) (hk : k ≤ n) : m.Smooth k :=
  fun i hi => h i (Nat.lt_of_lt_of_le hi hk)

/-- Each tick of a run without faults tells whether the machine goes on. -/
theorem Smooth.tick {m : Machine} {n i : Nat} (h : m.Smooth n) (hi : i < n) :
    ∃ running, (m.after i).Tick (.ok running) (m.after (i + 1)) := by
  have hkind := (m.after i).tick_kind
  have hok := h i hi
  rw [after_succ]
  cases hresult : (m.after i).tick.1 with
  | ok running =>
      rw [hresult] at hkind
      exact ⟨running, hkind⟩
  | error f =>
      rw [hresult] at hok
      cases hok

/-- What every tick preserves holds after every run. -/
theorem after_preserves {P : Machine → Prop} {m : Machine} (hstart : P m)
    (htick : ∀ m result m', Tick m result m' → P m → P m') (n : Nat) : P (m.after n) := by
  induction n with
  | zero => exact hstart
  | succ n ih =>
      rw [after_succ]
      exact htick _ _ _ (tick_kind _) ih

/-- What every tick without a fault preserves holds after every run without faults. -/
theorem Smooth.preserves {P : Machine → Prop} {m : Machine} {n : Nat} (h : m.Smooth n)
    (hstart : P m) (htick : ∀ m running m', Tick m (.ok running) m' → P m → P m') :
    P (m.after n) := by
  induction n with
  | zero => exact hstart
  | succ n ih =>
      obtain ⟨running, hkind⟩ := h.tick (Nat.lt_succ_self n)
      exact htick _ _ _ hkind (ih (h.mono (Nat.le_succ n)))

end Machine

end Befunge
