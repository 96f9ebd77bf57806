import Befunge.Proofs.Veil

/-!
# Whole runs

A run makes ticks up to the first one that answers that the machine no longer goes on, and
flushes what was written.  `Machine.Ends m k final` says that the first `k` ticks of `m` go on and
that the next one ends the program, with `final` for what is left.  A run that is finished is of
this kind (`Machine.run_eq_finished_iff`), and whatever is ticked after that changes nothing
(`Machine.Ends.after_eq`).

The settings are the same all along a run.  So a veil that hides something from one tick, and
leaves the budget as it is, hides it from all of them (`Machine.after_veiled`,
`Machine.run_veiled`).
-/

namespace Befunge

theorem World.round_config (w : World) (ps : List Pointer) :
    (w.round ps).world.config = w.config := by
  obtain ⟨_, _, h, -⟩ :=
    round_preserves (P := fun _ _ w' _ => w'.config = w.config)
      (fun _ ip _ w' h => (w'.perform_config ip).trans h) ps [] w rfl
  exact h

namespace Machine

theorem Tick.config {m m' : Machine} {result : Except Fault Bool} (h : m.Tick result m') :
    m'.world.config = m.world.config := by
  have hturns : m.turns.world.config = m.world.config := World.round_config _ _
  cases h with
  | idle _ => rfl
  | exhausted _ _ _ => rfl
  | broken _ _ _ => exact hturns
  | ended _ _ => exact hturns
  | emptied _ _ _ => exact hturns
  | settled _ _ _ => exact hturns

theorem after_config (m : Machine) (n : Nat) : (m.after n).world.config = m.world.config :=
  after_preserves (P := fun m' => m'.world.config = m.world.config) rfl
    (fun _ _ _ htick h => htick.config.trans h) n

theorem advance_config (limit : Nat) :
    ∀ m : Machine, (m.advance limit).2.world.config = m.world.config := by
  induction limit with
  | zero =>
      intro m
      rfl
  | succ limit ih =>
      intro m
      have hconfig := m.tick_kind.config
      rw [advance]
      generalize m.tick = answer at hconfig ⊢
      obtain ⟨result, m'⟩ := answer
      cases result with
      | error f => exact hconfig
      | ok running =>
          cases running with
          | false => exact hconfig
          | true => exact (ih m').trans hconfig

/-! ## Flushing -/

theorem flush_eq_ok {m m' : Machine} (h : m.flush = .ok m') :
    ∃ console, m' = { m with world := m.world.withConsole console } := by
  rw [flush] at h
  split at h
  next console _ =>
    cases h
    exact ⟨console, rfl⟩
  · cases h

theorem flush_eq_self {m : Machine} (h : m.world.console.output.flushes = none) :
    m.flush = .ok m := by
  rw [flush, Console.flush, Output.flush_eq_self h]
  rfl

theorem conclude_config (ending : RunEnd) (m : Machine) :
    (m.conclude ending).2.world.config = m.world.config := by
  rw [conclude]
  split
  · rfl
  · split
    next hflush =>
      obtain ⟨_, rfl⟩ := flush_eq_ok hflush
      rfl
    · rfl

theorem run_config (limit : Nat) (m : Machine) :
    (m.run limit).2.world.config = m.world.config :=
  (conclude_config _ _).trans (m.advance_config limit)

theorem conclude_eq_finished_iff {ending : RunEnd} {m final : Machine} :
    m.conclude ending = (.finished, final) ↔ ending = .finished ∧ m.flush = .ok final := by
  rw [conclude]
  split
  next hcut => simp [hcut]
  next => cases m.flush <;> simp

/-! ## The end of a run -/

theorem after_succ' (m : Machine) (n : Nat) : m.after (n + 1) = m.tick.2.after n :=
  Function.iterate_succ_apply _ n m

/-- A machine that is no longer running stays as it is. -/
theorem after_of_not_running {m : Machine} {k : Nat}
    (h : (m.after k).world.status ≠ .running) (more : Nat) : m.after (k + more) = m.after k := by
  induction more with
  | zero => rfl
  | succ more ih =>
      rw [← Nat.add_assoc, after_succ, ih, tick_of_not_running h]

/-- A tick that answers that the machine no longer goes on leaves one that is not running. -/
theorem Tick.status_of_false {m m' : Machine} (h : m.Tick (.ok false) m') :
    m'.world.status ≠ .running := by
  cases h with
  | idle hstatus => exact hstatus
  | exhausted _ _ _ => exact fun hrunning => by cases hrunning
  | ended _ hending => exact World.status_of_round_ended hending
  | emptied _ _ _ => exact fun hrunning => by cases hrunning

/-- The first `k` ticks go on, and the next one ends the program. -/
structure Ends (m : Machine) (k : Nat) (final : Machine) : Prop where
  goesOn : ∀ i < k, (m.after i).tick.1 = .ok true
  ends : (m.after k).tick = (.ok false, final)

namespace Ends

variable {m final : Machine} {k : Nat}

theorem status (h : m.Ends k final) : final.world.status ≠ .running := by
  have hkind := (m.after k).tick_kind
  rw [h.ends] at hkind
  exact hkind.status_of_false

/-- From its end on a program stays as it is. -/
theorem after_eq (h : m.Ends k final) {n : Nat} (hn : k < n) : m.after n = final := by
  obtain ⟨more, rfl⟩ := Nat.exists_eq_add_of_le hn
  have hend : m.after (k + 1) = final := by rw [after_succ, h.ends]
  rw [after_of_not_running (by rw [hend]; exact h.status), hend]

theorem tick_of_lt (h : m.Ends k final) {n : Nat} (hn : k < n) :
    (m.after n).tick = (.ok false, final) := by
  rw [h.after_eq hn, tick_of_not_running h.status]

/-- A program that comes to an end runs into no fault, however often it is ticked. -/
theorem tick_answer (h : m.Ends k final) (n : Nat) : (m.after n).tick.1 = .ok (decide (n < k)) := by
  rcases Nat.lt_trichotomy n k with hn | rfl | hn
  · rw [h.goesOn n hn, decide_eq_true hn]
  · rw [h.ends, decide_eq_false (Nat.lt_irrefl n)]
  · rw [h.tick_of_lt hn, decide_eq_false (Nat.lt_asymm hn)]

theorem smooth (h : m.Ends k final) (n : Nat) : m.Smooth n := by
  intro i _
  rw [h.tick_answer]
  rfl

end Ends

/-- The end of a program is one tick nearer after a tick that goes on. -/
theorem ends_succ_iff {m m' final : Machine} {k : Nat} (htick : m.tick = (.ok true, m')) :
    m.Ends (k + 1) final ↔ m'.Ends k final := by
  have hshift : ∀ i, m.after (i + 1) = m'.after i := by
    intro i
    rw [after_succ', htick]
  constructor
  · intro h
    refine ⟨fun i hi => ?_, ?_⟩
    · rw [← hshift]
      exact h.goesOn (i + 1) (Nat.succ_lt_succ hi)
    · rw [← hshift, h.ends]
  · intro h
    refine ⟨fun i hi => ?_, by rw [hshift, h.ends]⟩
    cases i with
    | zero => rw [after_zero, htick]
    | succ i =>
        rw [hshift]
        exact h.goesOn i (Nat.lt_of_succ_lt_succ hi)

theorem advance_eq_finished_iff {final : Machine} (limit : Nat) :
    ∀ m : Machine, m.advance limit = (.finished, final) ↔ ∃ k < limit, m.Ends k final := by
  induction limit with
  | zero =>
      intro m
      simp [advance]
  | succ limit ih =>
      intro m
      obtain ⟨answer, m', htick⟩ : ∃ answer m', m.tick = (answer, m') := ⟨_, _, rfl⟩
      -- a program that ends later goes on in its first tick
      have hfirst : ∀ k, m.Ends (k + 1) final → answer = .ok true := by
        intro k h
        rw [← h.goesOn 0 (Nat.succ_pos k), after_zero, htick]
      rw [advance, htick]
      cases answer with
      | error f =>
          constructor
          · intro h
            cases h
          · rintro ⟨k, -, h⟩
            cases k with
            | zero =>
                have hends := h.ends
                rw [after_zero, htick] at hends
                cases hends
            | succ k => cases hfirst k h
      | ok running =>
          cases running with
          | false =>
              constructor
              · intro h
                cases h
                exact ⟨0, Nat.succ_pos _, by simp, htick⟩
              · rintro ⟨k, -, h⟩
                cases k with
                | zero =>
                    have hends := h.ends
                    rw [after_zero, htick] at hends
                    cases hends
                    rfl
                | succ k => cases hfirst k h
          | true =>
              refine (ih m').trans ⟨?_, ?_⟩
              · rintro ⟨k, hk, h⟩
                exact ⟨k + 1, Nat.succ_lt_succ hk, (ends_succ_iff htick).mpr h⟩
              · rintro ⟨k, hk, h⟩
                cases k with
                | zero =>
                    have hends := h.ends
                    rw [after_zero, htick] at hends
                    cases hends
                | succ k =>
                    exact ⟨k, Nat.lt_of_succ_lt_succ hk, (ends_succ_iff htick).mp h⟩

/-- A run is finished within its limit if the program ends there and what it wrote is flushed. -/
theorem run_eq_finished_iff {m final : Machine} {limit : Nat} :
    m.run limit = (.finished, final) ↔
      ∃ k < limit, ∃ last, m.Ends k last ∧ last.flush = .ok final := by
  have hadvance (last : Machine) :
      m.advance limit = (.finished, last) ↔ ∃ k < limit, m.Ends k last :=
    advance_eq_finished_iff limit m
  simp only [run, conclude_eq_finished_iff]
  constructor
  · rintro ⟨hfinished, hflush⟩
    obtain ⟨k, hk, hends⟩ := (hadvance _).mp (Prod.ext hfinished rfl)
    exact ⟨k, hk, _, hends, hflush⟩
  · rintro ⟨k, hk, last, hends, hflush⟩
    rw [(hadvance last).mpr ⟨k, hk, hends⟩]
    exact ⟨rfl, hflush⟩

/-! ## Runs under a veil -/

section

variable {v : Veil}

/-- Under a veil that leaves the budget as it is every tick is the same, begun or not. -/
theorem tick_veiled_of_budget {m : Machine} (h : v.Hides m.world)
    (hbudget : v.maxTicks = m.world.config.maxTicks)
    (hshown : v.mute = false ∨ m.tick.1.isOk = true) :
    (m.veiled v).tick = (m.tick.1, m.tick.2.veiled v) := by
  have hspent : (m.veiled v).budgetSpent = m.budgetSpent := by
    simp only [budgetSpent, veiled, World.veiled, hbudget]
  by_cases hrunning : m.world.status = .running
  · have hrunning' : (m.veiled v).world.status = .running := hrunning
    cases hnone : m.budgetSpent with
    | none => exact tick_veiled h hshown ⟨hrunning, hnone⟩ ⟨hrunning', by rw [hspent, hnone]⟩
    | some maxTicks =>
        rw [hnone] at hspent
        simp only [tick, hrunning, hrunning', hnone, hspent, ne_eq, not_true_eq_false, if_false]
        rfl
  · have hstatus : (m.veiled v).world.status ≠ .running := hrunning
    rw [tick_of_not_running hrunning, tick_of_not_running hstatus]

/-- A row of ticks is the same under a veil. -/
theorem after_veiled {m : Machine} (h : v.Hides m.world)
    (hbudget : v.maxTicks = m.world.config.maxTicks) {n : Nat}
    (hshown : v.mute = false ∨ m.Smooth n) : (m.veiled v).after n = (m.after n).veiled v := by
  induction n with
  | zero => rfl
  | succ n ih =>
      have hconfig := m.after_config n
      rw [after_succ, after_succ, ih (hshown.imp_right fun hsmooth => hsmooth.mono (Nat.le_succ n)),
        tick_veiled_of_budget (h.of_config hconfig) (by rw [hconfig, hbudget])
          (hshown.imp_right fun hsmooth => hsmooth n (Nat.lt_succ_self n))]

/-- A program that comes to an end does so under a veil too, with commands shown or not. -/
theorem Ends.veiled {m final : Machine} {k : Nat} (hends : m.Ends k final) (h : v.Hides m.world)
    (hbudget : v.maxTicks = m.world.config.maxTicks) : (m.veiled v).Ends k (final.veiled v) := by
  have htick (n : Nat) : ((m.veiled v).after n).tick =
      ((m.after n).tick.1, (m.after n).tick.2.veiled v) := by
    have hconfig := m.after_config n
    rw [after_veiled h hbudget (.inr (hends.smooth n)),
      tick_veiled_of_budget (h.of_config hconfig) (by rw [hconfig, hbudget])
        (.inr (hends.smooth (n + 1) n (Nat.lt_succ_self n)))]
  refine ⟨fun i hi => ?_, ?_⟩
  · rw [htick, hends.goesOn i hi]
  · rw [htick, hends.ends]

theorem conclude_veiled (ending : RunEnd) (m : Machine) :
    (m.veiled v).conclude ending =
      ((m.conclude ending).1, (m.conclude ending).2.veiled v) := by
  have hconsole : (m.veiled v).world.console = m.world.console := rfl
  simp only [conclude, flush, hconsole]
  split
  · rfl
  · cases m.world.console.flush <;> rfl

theorem advance_veiled (hmute : v.mute = false) (limit : Nat) :
    ∀ m : Machine, v.Hides m.world → v.maxTicks = m.world.config.maxTicks →
      (m.veiled v).advance limit = ((m.advance limit).1, (m.advance limit).2.veiled v) := by
  induction limit with
  | zero =>
      intro m _ _
      rfl
  | succ limit ih =>
      intro m h hbudget
      have hconfig := m.tick_kind.config
      rw [advance, advance, tick_veiled_of_budget h hbudget (.inl hmute)]
      generalize m.tick = answer at hconfig ⊢
      obtain ⟨result, m'⟩ := answer
      cases result with
      | error f => rfl
      | ok running =>
          cases running with
          | false => rfl
          | true => exact ih m' (h.of_config hconfig) (by rw [hbudget, hconfig])

/-- A run is the same under a veil that shows what was shown before. -/
theorem run_veiled (hmute : v.mute = false) (limit : Nat) {m : Machine} (h : v.Hides m.world)
    (hbudget : v.maxTicks = m.world.config.maxTicks) :
    (m.veiled v).run limit = ((m.run limit).1, (m.run limit).2.veiled v) := by
  simp only [run, advance_veiled hmute limit m h hbudget, conclude_veiled]

end

end Machine

end Befunge
