import Befunge.Proofs.Journal
import Befunge.Proofs.Runs

/-!
# A tick budget is a clean cut

A machine that may take `N` ticks and one that may take any number are the same machine
under a veil.  As long as the first has ticks left both do the same in every tick, and
once it has none it halts in place of its next tick and does nothing else.

The ticks are counted also where they end in faults.  So a machine that is running after
`n` ticks has counted all of them (`Machine.ticks_of_running`), and this is what the
budget is compared with.
-/

namespace Befunge

/-! ## What is counted -/

theorem World.round_ticks (w : World) (ps : List Pointer) :
    (w.round ps).world.tally.ticks = w.tally.ticks := by
  obtain ⟨_, _, h, -⟩ :=
    round_preserves (P := fun _ _ w' _ => w'.tally.ticks = w.tally.ticks)
      (fun _ ip _ w' h => by
        have hturn := w'.perform_turn ip
        generalize w'.perform ip = r at hturn
        cases hturn with
        | broken f hdeeds =>
            obtain ⟨_, htells, -⟩ := hdeeds.tells
            exact htells.ticks.trans h
        | recorded record pauses fault hdeeds _ _ =>
            obtain ⟨_, htells, -⟩ := hdeeds.tells
            exact htells.ticks.trans h)
      ps [] w rfl
  exact h

namespace Machine

theorem turns_ticks (m : Machine) : m.turns.world.tally.ticks = m.world.tally.ticks + 1 :=
  World.round_ticks _ _

/-- A machine that is running after a tick began that tick, and counted it. -/
theorem Tick.ticks_of_running {m m' : Machine} {result : Except Fault Bool}
    (h : m.Tick result m') (hrunning : m'.world.status = .running) :
    m.Begins ∧ m'.world.tally.ticks = m.world.tally.ticks + 1 := by
  cases h with
  | idle hstatus => exact absurd hrunning hstatus
  | exhausted _ _ _ => cases hrunning
  | broken _ hbegins _ => exact ⟨hbegins, m.turns_ticks⟩
  | ended _ hending => exact absurd hrunning (World.status_of_round_ended hending)
  | emptied _ _ _ => cases hrunning
  | settled hbegins _ _ => exact ⟨hbegins, m.turns_ticks⟩

/-- A machine that is running after `n` ticks has counted all of them, faults or not. -/
theorem ticks_of_running (m : Machine) (n : Nat) :
    (m.after n).world.status = .running →
      m.world.status = .running ∧ (m.after n).world.tally.ticks = m.world.tally.ticks + n := by
  induction n with
  | zero =>
      intro hrunning
      exact ⟨hrunning, rfl⟩
  | succ n ih =>
      intro hrunning
      rw [after_succ] at hrunning ⊢
      obtain ⟨hbegins, hticks⟩ := (tick_kind (m.after n)).ticks_of_running hrunning
      obtain ⟨hstart, hbefore⟩ := ih hbegins.running
      exact ⟨hstart, by omega⟩

/-! ## Two machines that differ in their budgets -/

/-- The machine with another number of ticks it may take. -/
def withMaxTicks (limit : Option Int) (m : Machine) : Machine :=
  { m with world := { m.world with config := { m.world.config with maxTicks := limit } } }

end Machine

/-- The surroundings with another number of ticks a program may take. -/
def Setup.withMaxTicks (limit : Option Int) (s : Setup) : Setup :=
  { s with config := { s.config with maxTicks := limit } }

namespace Machine

theorem budgetSpent_eq_none_iff {m : Machine} {N : Int}
    (hbudget : m.world.config.maxTicks = some N) :
    m.budgetSpent = none ↔ (m.world.tally.ticks : Int) < N := by
  simp [budgetSpent, hbudget]

/-- A tick within the budget is the same as without a budget. -/
theorem tick_withMaxTicks {m : Machine} {N : Int} (hfree : m.world.config.maxTicks = none)
    (hticks : m.world.status = .running → (m.world.tally.ticks : Int) < N) :
    (m.withMaxTicks (some N)).tick = (m.tick.1, m.tick.2.withMaxTicks (some N)) := by
  by_cases hrunning : m.world.status = .running
  · have hlt := hticks hrunning
    have hbegins : m.Begins := ⟨hrunning, by simp [budgetSpent, hfree]⟩
    have hbegins' : (m.withMaxTicks (some N)).Begins :=
      ⟨hrunning, (budgetSpent_eq_none_iff rfl).mpr hlt⟩
    exact tick_veiled (v := { maxTicks := some N }) (.inl ⟨rfl, rfl⟩) (.inl rfl) hbegins hbegins'
  · have hstatus : (m.withMaxTicks (some N)).world.status ≠ .running := hrunning
    rw [tick_of_not_running hrunning, tick_of_not_running hstatus]

/-- The tick after the last one of the budget only halts the machine. -/
theorem tick_of_spent {m : Machine} {N : Int} (hbudget : m.world.config.maxTicks = some N)
    (hrunning : m.world.status = .running) (hticks : N ≤ m.world.tally.ticks) :
    m.tick = (.ok false, { m with world := m.world.exhaust N }) := by
  have hspent : m.budgetSpent = some N := by simp [budgetSpent, hbudget, Option.filter, hticks]
  simp [tick, hrunning, hspent]

theorem Tick.ticks_le {m m' : Machine} {result : Except Fault Bool} (h : m.Tick result m')
    {N : Int} (hbudget : m.world.config.maxTicks = some N)
    (hticks : m.world.tally.ticks ≤ N.toNat) : m'.world.tally.ticks ≤ N.toNat := by
  have hturns := m.turns_ticks
  have hbegun (hbegins : m.Begins) : m.turns.world.tally.ticks ≤ N.toNat := by
    have hunspent := (budgetSpent_eq_none_iff hbudget).mp hbegins.unspent
    omega
  cases h with
  | idle _ => exact hticks
  | exhausted _ _ _ => exact hticks
  | broken _ hbegins _ => exact hbegun hbegins
  | ended hbegins _ => exact hbegun hbegins
  | emptied hbegins _ _ => exact hbegun hbegins
  | settled hbegins _ _ => exact hbegun hbegins

theorem after_ticks_le {m : Machine} {N : Int} (hbudget : m.world.config.maxTicks = some N)
    (hstart : m.world.tally.ticks = 0) (n : Nat) : (m.after n).world.tally.ticks ≤ N.toNat := by
  have h := after_preserves
    (P := fun m => m.world.config.maxTicks = some N ∧ m.world.tally.ticks ≤ N.toNat)
    ⟨hbudget, by omega⟩
    (fun _ _ _ htick h => ⟨by rw [htick.config]; exact h.1, htick.ticks_le h.1 h.2⟩) n
  exact h.2

section

variable {free : Machine} {N : Int} (hfree : free.world.config.maxTicks = none)
  (hstart : free.world.tally.ticks = 0)

include hfree hstart

theorem tick_after_withMaxTicks {k : Nat} (hk : k < N.toNat) :
    ((free.after k).withMaxTicks (some N)).tick =
      ((free.after k).tick.1, (free.after k).tick.2.withMaxTicks (some N)) := by
  refine tick_withMaxTicks (by rw [after_config, hfree]) fun hrunning => ?_
  obtain ⟨-, hcount⟩ := free.ticks_of_running k hrunning
  omega

/-- As long as there are ticks left the budget makes no difference. -/
theorem after_withMaxTicks {k : Nat} (hk : k ≤ N.toNat) :
    (free.withMaxTicks (some N)).after k = (free.after k).withMaxTicks (some N) := by
  induction k with
  | zero => rfl
  | succ k ih => rw [after_succ, after_succ, ih (by omega), tick_after_withMaxTicks hfree hstart hk]

end

theorem advance_withMaxTicks {N : Int} (limit : Nat) :
    ∀ m : Machine, m.world.config.maxTicks = none → (m.world.tally.ticks + limit : Int) ≤ N →
      (m.withMaxTicks (some N)).advance limit =
        ((m.advance limit).1, (m.advance limit).2.withMaxTicks (some N)) := by
  induction limit with
  | zero =>
      intro m _ _
      rfl
  | succ limit ih =>
      intro m hfree hlimit
      have hkind := m.tick_kind
      rw [advance, advance, tick_withMaxTicks hfree (by omega)]
      generalize m.tick = answer at hkind
      obtain ⟨result, m'⟩ := answer
      cases result with
      | error f => rfl
      | ok running =>
          cases running with
          | false => rfl
          | true =>
              have hconfig := hkind.config
              have hticks : m'.world.tally.ticks = m.world.tally.ticks + 1 := by
                cases hkind with
                | settled _ _ _ => exact m.turns_ticks
              exact ih m' (by rw [hconfig, hfree]) (by omega)

/-- A run of no more ticks than there are left is the same as without a budget. -/
theorem run_withMaxTicks {m : Machine} {N : Int} {limit : Nat}
    (hfree : m.world.config.maxTicks = none) (hlimit : (m.world.tally.ticks + limit : Int) ≤ N) :
    (m.withMaxTicks (some N)).run limit =
      ((m.run limit).1, (m.run limit).2.withMaxTicks (some N)) := by
  simp only [run, advance_withMaxTicks limit m hfree hlimit]
  exact conclude_veiled (v := { maxTicks := some N }) _ _

/-- The machine `bound` does what `free` does until its `N` ticks are used up, and then nothing
more.  A negative budget is as good as none left. -/
structure CutCleanly (free bound : Machine) (N : Int) : Prop where
  /-- Nothing but their budgets tells the machines apart. -/
  agree : ∀ k ≤ N.toNat, bound.after k = (free.after k).withMaxTicks (some N)
  /-- Each tick gives the same answer, also where it is a fault. -/
  answers : ∀ k < N.toNat, (bound.after k).tick.1 = (free.after k).tick.1
  /-- A program that ends in time ends in the same way. -/
  inTime : ∀ k ≤ N.toNat, (free.after k).world.status ≠ .running →
    ∀ n ≥ k, bound.after n = (free.after k).withMaxTicks (some N)
  runs : ∀ limit ≤ N.toNat,
    bound.run limit = ((free.run limit).1, (free.run limit).2.withMaxTicks (some N))
  /-- Any other program is halted by its next tick, which leaves a warning in the journal. -/
  halted : (free.after N.toNat).world.status = .running →
    (bound.after N.toNat).tick =
      (.ok false,
        { bound.after N.toNat with
          world :=
            { (bound.after N.toNat).world with
              status := .halted, exitCode := some 1
              journal := .exhausted N :: (bound.after N.toNat).world.journal } })
  ticks : ∀ n, ((bound.after n).world.tally.ticks : Int) ≤ max N 0

/-- The budget of a program is a clean cut through its run, whatever the program, its console
and its surroundings are. -/
theorem budget_cuts_cleanly (setup : Setup) (source : Source) (console : Console) (N : Int) :
    CutCleanly ((setup.withMaxTicks none).load source console)
      ((setup.withMaxTicks (some N)).load source console) N := by
  have hfree : ((setup.withMaxTicks none).load source console).world.config.maxTicks = none := rfl
  have hstart : ((setup.withMaxTicks none).load source console).world.tally.ticks = 0 := rfl
  have hbound : (setup.withMaxTicks (some N)).load source console =
      ((setup.withMaxTicks none).load source console).withMaxTicks (some N) := rfl
  rw [hbound]
  generalize (setup.withMaxTicks none).load source console = free at hfree hstart
  have hagree {k : Nat} (hk : k ≤ N.toNat) := after_withMaxTicks hfree hstart hk
  refine ⟨fun _ => hagree, fun k hk => ?_, fun k hk hstatus n hn => ?_, fun limit hlimit => ?_,
    fun hrunning => ?_, fun n => ?_⟩
  · rw [hagree (Nat.le_of_lt hk), tick_after_withMaxTicks hfree hstart hk]
  · obtain ⟨more, rfl⟩ := Nat.exists_eq_add_of_le hn
    rw [after_of_not_running (by rw [hagree hk]; exact hstatus), hagree hk]
  · cases limit with
    | zero => rfl
    | succ limit => exact run_withMaxTicks hfree (by omega)
  · obtain ⟨-, hcount⟩ := free.ticks_of_running _ hrunning
    have hspent : N ≤ (free.after N.toNat).world.tally.ticks := by omega
    rw [hagree (Nat.le_refl _)]
    exact tick_of_spent rfl hrunning hspent
  · have hle := after_ticks_le (m := free.withMaxTicks (some N)) rfl hstart n
    omega

end Machine

end Befunge
