import Befunge.Proofs.Repetition
import Mathlib.Dynamics.PeriodicPts.Lemmas

/-!
# Commands that are done only once

A repetition does the commands of `Command.onceOnly` a single time, whatever the number on the
stack.  `World.stepInFull` is the step that does them as often as the stack says, and
`World.step_eq_stepInFull_iff` says when the two leave the same behind.

A direction, an emptied stack, and what ends the pointer or the program are the same however often
they are asked for.  But turns add up, and come out as a single one only with full turns between
them, and a choice takes one more cell from the stack every time.
-/

namespace Befunge

/-! ## Turns in a row -/

namespace Vec

open Function

theorem neg_ne_self {d : Vec} (hd : d ≠ zero) : -d ≠ d := by
  intro h
  have hx : -d.x = d.x := congrArg x h
  have hy : -d.y = d.y := congrArg y h
  refine hd (Vec.ext ?_ ?_)
  · show d.x = 0
    omega
  · show d.y = 0
    omega

theorem minimalPeriod_neg {d : Vec} (hd : d ≠ zero) : minimalPeriod (fun d => -d) d = 2 :=
  minimalPeriod_eq_prime (neg_neg d) (neg_ne_self hd)

/-- A quarter turn has to be taken four times, since two of them turn round. -/
theorem minimalPeriod_quarter {t : Vec → Vec} (hhalf : ∀ d, t (t d) = -d) {d : Vec}
    (hd : d ≠ zero) : minimalPeriod t d = 4 := by
  refine minimalPeriod_eq_prime_pow (p := 2) (k := 1) ?_ ?_
  · intro htwice
    exact neg_ne_self hd ((hhalf d).symm.trans htwice)
  · show t (t (t (t d))) = d
    rw [hhalf, hhalf, neg_neg]

/-- Turns in a row come to a single one if the others are full turns, or if there is nothing to
turn. -/
theorem iterate_turn_eq_iff {t : Vec → Vec} {period : Nat} (hperiod : 1 < period)
    (hzero : t zero = zero) (hturn : ∀ d ≠ zero, minimalPeriod t d = period) (d : Vec) (n : Nat) :
    t^[n] d = t d ↔ n % period = 1 ∨ d = zero := by
  by_cases hd : d = zero
  · subst hd
    simp [iterate_fixed hzero, hzero]
  · have hmod : n % period < minimalPeriod t d := by
      rw [hturn d hd]
      exact Nat.mod_lt n (Nat.lt_trans Nat.zero_lt_one hperiod)
    have hone : 1 < minimalPeriod t d := by rwa [hturn d hd]
    have hsame : t^[n % period] d = t^[1] d ↔ n % period = 1 :=
      iterate_eq_iterate_iff_of_lt_minimalPeriod hmod hone
    rw [← iterate_mod_minimalPeriod_eq, hturn d hd, or_iff_left hd]
    exact hsame

end Vec

namespace Pointer

theorem head_eq_self_iff {ip : Pointer} {d : Vec} : ip.head d = ip ↔ d = ip.delta := by
  constructor
  · intro h
    exact congrArg delta h
  · rintro rfl
    rfl

theorem advance_delta (ip : Pointer) (m : Memory) (collapse : Bool) :
    (ip.advance m collapse).1.delta = ip.delta := by
  simp only [advance]
  split
  · rfl
  · split <;> rfl

theorem iterate_head (t : Vec → Vec) (n : Nat) (ip : Pointer) :
    (fun ip => ip.head (t ip.delta))^[n] ip = ip.head (t^[n] ip.delta) := by
  induction n generalizing ip with
  | zero => rfl
  | succ n ih => rw [Function.iterate_succ_apply, ih, Function.iterate_succ_apply]; rfl

theorem iterate_head_eq_iff {t : Vec → Vec} (n : Nat) (ip : Pointer) :
    (fun ip => ip.head (t ip.delta))^[n] ip = ip.head (t ip.delta) ↔
      t^[n] ip.delta = t ip.delta := by
  rw [iterate_head]
  exact ⟨fun h => congrArg delta h, fun h => by rw [h]⟩

end Pointer

/-! ## Choices in a row -/

namespace Execute

theorem choose_of_empty (onZero otherwise : Vec) {ip : Pointer} (h : ip.pile.top.cells = []) :
    choose onZero otherwise ip = ip.head onZero := by
  obtain ⟨id, position, delta, storage, ⟨⟨cells⟩, below⟩, stringMode, alive, overlay⟩ := ip
  obtain rfl : cells = [] := h
  rfl

theorem choose_cells (onZero otherwise : Vec) (ip : Pointer) :
    (choose onZero otherwise ip).pile.top.cells = ip.pile.top.cells.tail := by
  obtain ⟨id, position, delta, storage, ⟨⟨cells⟩, below⟩, stringMode, alive, overlay⟩ := ip
  cases cells with
  | nil => rfl
  | cons a rest => rfl

theorem iterate_choose_cells (onZero otherwise : Vec) (n : Nat) (ip : Pointer) :
    ((choose onZero otherwise)^[n] ip).pile.top.cells = ip.pile.top.cells.drop n := by
  induction n generalizing ip with
  | zero => rfl
  | succ n ih => rw [Function.iterate_succ_apply, ih, choose_cells, List.drop_tail]

/-- On an empty stack every choice is one on zero. -/
theorem iterate_choose_of_empty (onZero otherwise : Vec) {ip : Pointer}
    (h : ip.pile.top.cells = []) (n : Nat) :
    (choose onZero otherwise)^[n + 1] ip = ip.head onZero := by
  have hfixed : choose onZero otherwise (ip.head onZero) = ip.head onZero :=
    choose_of_empty onZero otherwise h
  rw [Function.iterate_succ_apply, choose_of_empty onZero otherwise h,
    Function.iterate_fixed hfixed]

/-- Choices take cells from the stack, so that several are like one only where they find zeros that
are not there. -/
theorem iterate_choose_eq_iff {onZero otherwise : Vec} (hne : otherwise ≠ onZero) (n : Nat)
    (ip : Pointer) :
    (choose onZero otherwise)^[n + 1] ip = choose onZero otherwise ip ↔
      n = 0 ∨ ip.pile.top.cells = [] ∨ ip.pile.top.cells = [0] := by
  cases n with
  | zero => simp
  | succ n =>
      match hcells : ip.pile.top.cells with
      | [] =>
          simp [iterate_choose_of_empty onZero otherwise hcells,
            choose_of_empty onZero otherwise hcells]
      | [a] =>
          have hempty : (choose onZero otherwise ip).pile.top.cells = [] := by
            rw [choose_cells, hcells]
            rfl
          have hdelta : (choose onZero otherwise ip).delta =
              if a = 0 then onZero else otherwise := by
            simp [choose, Pointer.pop, StackStack.pop, Stack.pop, hcells, Pointer.head]
          rw [Function.iterate_succ_apply, iterate_choose_of_empty onZero otherwise hempty,
            Pointer.head_eq_self_iff, hdelta]
          by_cases ha : a = 0
          · simp [ha]
          · simp [ha, hne.symm]
      | a :: b :: rest =>
          simp only [Nat.add_eq_zero_iff, one_ne_zero, and_false, false_or, reduceCtorEq,
            List.cons.injEq, iff_false]
          intro h
          have hlength := congrArg (fun ip => ip.pile.top.cells.length) h
          simp only [iterate_choose_cells, choose_cells, hcells, List.length_drop,
            List.length_cons, List.length_tail] at hlength
          omega

/-! ## Done once and done in full -/

/-- When the first time ends it, the number does not matter. -/
theorem repeated_of_isOver {act : Pointer → World → Outcome} {ip : Pointer} {w : World}
    (h : (act ip w).isOver = true) (n : Nat) : repeated act (n + 1) ip w = act ip w :=
  if_pos h

/-- A change of the delta and the stacks of a pointer, and of nothing else of it. -/
def Steers (f : Pointer → Pointer) : Prop :=
  ∀ ip, f ip = (ip.head (f ip).delta).withPile (f ip).pile

theorem Steers.iterate {f : Pointer → Pointer} (hf : Steers f) (n : Nat) : Steers f^[n] := by
  induction n with
  | zero =>
      intro ip
      rfl
  | succ n ih =>
      intro ip
      rw [Function.iterate_succ_apply, ih (f ip), hf ip]
      rfl

theorem Steers.alive {f : Pointer → Pointer} (hf : Steers f) (ip : Pointer) :
    (f ip).alive = ip.alive := by
  rw [hf ip]
  rfl

/-- Two changes that leave the same delta and the same stacks are the same. -/
theorem Steers.eq_of_delta_pile {f g : Pointer → Pointer} (hf : Steers f) (hg : Steers g)
    {ip : Pointer} (hdelta : (f ip).delta = (g ip).delta) (hpile : (f ip).pile = (g ip).pile) :
    f ip = g ip := by
  rw [hf ip, hg ip, hdelta, hpile]

/-- While pointer and program go on, a change is made as often as it is asked for. -/
theorem Steers.repeated {f : Pointer → Pointer} (hf : Steers f) {w : World}
    (hexit : w.exitCode = none) (n : Nat) {ip : Pointer} (halive : ip.alive = true) :
    repeated (fun ip w => ⟨f ip, w, none⟩) n ip w = ⟨f^[n] ip, w, none⟩ := by
  induction n generalizing ip with
  | zero => rfl
  | succ n ih =>
      have halive' : (f ip).alive = true := by rw [hf.alive, halive]
      have hgoes : (⟨f ip, w, none⟩ : Outcome).isOver = false := by
        simp [Outcome.isOver, halive', hexit]
      rw [Execute.repeated, if_neg (by simp [hgoes])]
      exact ih halive'

/-- What follows on the repeated command: the pointer is put on it and moves on.  By then it has
been looked for with so many reads. -/
def finish (ip : Pointer) (target : Vec) (reads : Nat) (r : Outcome) : Outcome :=
  ((passOver ip target r).andThen moveOn).countReads reads

theorem finish_steers (ip : Pointer) (target : Vec) (reads : Nat) (r : Outcome) :
    (finish ip target reads r).pointer.delta = r.pointer.delta ∧
      (finish ip target reads r).pointer.pile = r.pointer.pile := by
  have hpass : (passOver ip target r).pointer.delta = r.pointer.delta ∧
      (passOver ip target r).pointer.pile = r.pointer.pile := by
    rw [passOver]
    split_ifs <;> exact ⟨rfl, rfl⟩
  rw [← hpass.1, ← hpass.2, finish, Outcome.countReads_pointer, Outcome.andThen]
  split
  · rw [moveOn]
    split_ifs
    · exact ⟨Pointer.advance_delta _ _ _, Pointer.advance_pile _ _ _⟩
    · exact ⟨rfl, rfl⟩
  · exact ⟨rfl, rfl⟩

section Finish

variable {act : Pointer → World → Outcome} {ip : Pointer} {w : World} {n : Nat} {P : Prop}
  (target : Vec) (reads : Nat)

/-- What ends the pointer or the program is not done again. -/
theorem finish_eq_iff_of_isOver (hover : (act ip w).isOver = true) (hP : P) :
    finish ip target reads (repeated act 1 ip w) =
      finish ip target reads (repeated act (n + 1) ip w) ↔ P := by
  rw [repeated_of_isOver hover, repeated_of_isOver hover]
  exact iff_of_true rfl hP

/-- Moving on hides no difference in the delta or the stacks, so once is as good as `n + 1` times
only where that leaves the same pointer. -/
theorem Steers.finish_eq_iff {f : Pointer → Pointer} (hf : Steers f)
    (hact : act = fun ip w => ⟨f ip, w, none⟩) (hiff : f^[n + 1] ip = f ip ↔ P) :
    finish ip target reads (Execute.repeated act 1 ip w) =
        finish ip target reads (Execute.repeated act (n + 1) ip w) ↔
      ip.alive = false ∨ w.exitCode ≠ none ∨ P := by
  subst hact
  by_cases hgoes : ip.alive = true ∧ w.exitCode = none
  · obtain ⟨halive, hexit⟩ := hgoes
    rw [hf.repeated hexit 1 halive, hf.repeated hexit (n + 1) halive, ← hiff]
    simp only [halive, hexit, Function.iterate_one, ne_eq, not_true_eq_false, false_or,
      Bool.true_eq_false]
    constructor
    · intro h
      have hdelta := congrArg (·.pointer.delta) h
      have hpile := congrArg (·.pointer.pile) h
      simp only [(finish_steers _ _ _ _).1] at hdelta
      simp only [(finish_steers _ _ _ _).2] at hpile
      exact (hf.eq_of_delta_pile (hf.iterate (n + 1)) hdelta hpile).symm
    · intro h
      rw [h]
  · rw [not_and_or, Bool.not_eq_true] at hgoes
    refine finish_eq_iff_of_isOver target reads ?_ (hgoes.imp_right .inl)
    rcases hgoes with hdead | hended
    · simp [Outcome.isOver, hf.alive, hdead]
    · simp [Outcome.isOver, Option.isSome_iff_ne_none, hended]

end Finish

/-- What a repetition does where the next command is done as often as the stack says, whichever
it is. -/
def iterateInFull (ip : Pointer) (w : World) : Outcome :=
  let (n, ip) := ip.pop
  let ((target, command), memory) := ip.peekCommand w.memory
  passOver ip target (repeated (cell command) n.toNat ip (w.withMemory memory))

end Execute

/-- The step on a repetition that spares no command. -/
def World.stepInFull (w : World) (ip : Pointer) : Outcome :=
  ((Execute.iterateInFull ip w).andThen Execute.moveOn).countReads 1

namespace Command

/-- Whether it is all the same to a pointer if a command of `onceOnly` is done once or `n` times. -/
def OnceWillDo (n : Nat) (ip : Pointer) : Command → Prop
  | .reflect => n % 2 = 1 ∨ ip.delta = Vec.zero
  | .turnLeft | .turnRight => n % 4 = 1 ∨ ip.delta = Vec.zero
  | .eastWestIf | .northSouthIf => n = 1 ∨ ip.pile.top.cells = [] ∨ ip.pile.top.cells = [0]
  | _ => True

theorem cases_of_onceOnly {v : Int} {c : Command} (honce : v ∈ onceOnly)
    (hc : ofCell? v = some c) :
    (∃ d, c = .go d) ∨ c = .goAway ∨ c = .clear ∨ c = .noOperation ∨ c = .stop ∨ c = .quit ∨
      c = .reflect ∨ c = .turnLeft ∨ c = .turnRight ∨ c = .eastWestIf ∨ c = .northSouthIf := by
  have hall : ∀ v ∈ onceOnly, ofCell? v ∈ ([.go .east, .go .west, .go .north, .go .south, .goAway,
      .clear, .noOperation, .stop, .quit, .reflect, .turnLeft, .turnRight, .eastWestIf,
      .northSouthIf] : List Command).map some := by
    decide +kernel
  have hmem := hall v honce
  rw [hc] at hmem
  simp only [List.map_cons, List.map_nil, List.mem_cons, Option.some.injEq, List.not_mem_nil,
    or_false] at hmem
  rcases hmem with rfl | rfl | rfl | rfl | hmem
  · exact .inl ⟨_, rfl⟩
  · exact .inl ⟨_, rfl⟩
  · exact .inl ⟨_, rfl⟩
  · exact .inl ⟨_, rfl⟩
  · exact .inr hmem

end Command

namespace Execute

/-- The step on a repetition, from the repeated command on. -/
theorem step_eq_finish {w : World} {ip popped : Pointer} {n reads : Nat} {target : Vec} {v : Int}
    (hmode : ip.stringMode = false) (hcell : w.space.read ip.position = Cell.ofChar 'k')
    (hpop : ip.pop = (↑n, popped)) (hn : 1 ≤ n)
    (hpeek : popped.peekCommand w.memory = ((target, v), w.memory.countReads reads))
    (hk : v ≠ Cell.ofChar 'k') :
    (w.step ip).2 = finish popped target (reads + 1) (repeated (cell v) (times v n) popped w) := by
  rw [w.step_of_command hmode, hcell, cell_iterate hpop hpeek hk, if_neg (by omega),
    if_neg (by omega), Outcome.andThen_countReads (fun ip w => moveOn_countReads ip w reads),
    Outcome.countReads_countReads, finish]

theorem stepInFull_eq_finish {w : World} {ip popped : Pointer} {n reads : Nat} {target : Vec}
    {v : Int} (hpop : ip.pop = (↑n, popped))
    (hpeek : popped.peekCommand w.memory = ((target, v), w.memory.countReads reads)) :
    w.stepInFull ip = finish popped target (reads + 1) (repeated (cell v) n popped w) := by
  have hmemory : w.withMemory (w.memory.countReads reads) = w.countReads reads := rfl
  simp only [World.stepInFull, iterateInFull, hpop, hpeek, hmemory, Int.toNat_natCast]
  rw [repeated_countReads (fun ip w => cell_countReads v ip w reads), passOver_countReads,
    Outcome.andThen_countReads (fun ip w => moveOn_countReads ip w reads),
    Outcome.countReads_countReads, finish]

/-- Whether a command may be done once where it is to be done `n + 1` times. -/
theorem finish_once_eq_iff {c : Command} {v : Int} (hc : Command.ofCell? v = some c)
    (honce : v ∈ Command.onceOnly) (haway : c ≠ .goAway) (ip : Pointer) (target : Vec)
    (reads : Nat) (w : World) (n : Nat) :
    finish ip target reads (repeated (cell v) 1 ip w) =
        finish ip target reads (repeated (cell v) (n + 1) ip w) ↔
      ip.alive = false ∨ w.exitCode ≠ none ∨ c.OnceWillDo (n + 1) ip := by
  have hrun : cell v = run (repetitionWithin maxNesting) c := by
    funext ip w
    rw [cell, obey, hc]
  rw [hrun]
  have hquarter {t : Vec → Vec} (hzero : t .zero = .zero) (hhalf : ∀ d, t (t d) = -d) :=
    Vec.iterate_turn_eq_iff (by decide) hzero fun d hd => Vec.minimalPeriod_quarter hhalf hd
  rcases Command.cases_of_onceOnly honce hc with ⟨d, rfl⟩ | rfl | rfl | rfl | rfl | rfl | rfl |
    rfl | rfl | rfl | rfl
  -- A direction, an emptied stack and no operation are there after the first time.
  · have hfixed : (·.head d)^[n] (ip.head d) = ip.head d := Function.iterate_fixed rfl n
    exact Steers.finish_eq_iff target reads (fun _ => rfl) rfl (iff_of_true hfixed trivial)
  · exact absurd rfl haway
  · have hfixed : (fun ip => ip.withPile ip.pile.clear)^[n] (ip.withPile ip.pile.clear) =
        ip.withPile ip.pile.clear := Function.iterate_fixed rfl n
    exact Steers.finish_eq_iff target reads (fun _ => rfl) rfl (iff_of_true hfixed trivial)
  · have hfixed : id^[n] ip = ip := Function.iterate_fixed rfl n
    exact Steers.finish_eq_iff target reads (fun _ => rfl) rfl (iff_of_true hfixed trivial)
  · exact finish_eq_iff_of_isOver target reads
      (by simp [run, World.retire, Pointer.stopped, Outcome.isOver]) (.inr (.inr trivial))
  · exact finish_eq_iff_of_isOver target reads
      (by simp [run, World.quit, World.ended, World.note, Outcome.isOver]) (.inr (.inr trivial))
  · exact Steers.finish_eq_iff target reads (f := Pointer.reflect) (fun _ => rfl) rfl
      ((Pointer.iterate_head_eq_iff (n + 1) ip).trans
        (Vec.iterate_turn_eq_iff (by decide) rfl (fun d hd => Vec.minimalPeriod_neg hd) _ _))
  · exact Steers.finish_eq_iff target reads (f := Pointer.turnLeft) (fun _ => rfl) rfl
      ((Pointer.iterate_head_eq_iff (n + 1) ip).trans (hquarter rfl (fun _ => rfl) _ _))
  · exact Steers.finish_eq_iff target reads (f := Pointer.turnRight) (fun _ => rfl) rfl
      ((Pointer.iterate_head_eq_iff (n + 1) ip).trans (hquarter rfl (fun _ => rfl) _ _))
  · exact Steers.finish_eq_iff target reads (f := choose Vec.east Vec.west) (fun _ => rfl) rfl
      ((iterate_choose_eq_iff (by decide) n ip).trans (by simp [Command.OnceWillDo]))
  · exact Steers.finish_eq_iff target reads (f := choose Vec.south Vec.north) (fun _ => rfl) rfl
      ((iterate_choose_eq_iff (by decide) n ip).trans (by simp [Command.OnceWillDo]))

end Execute

/-- The step on a repetition with a positive number, where the next command is one that is done only
once and takes no random direction.  It leaves what doing the command in full would leave exactly
where nothing goes on after the first time, or where it is all the same to the pointer. -/
theorem World.step_eq_stepInFull_iff (w : World) (ip popped : Pointer) (n : Nat) (target : Vec)
    (c : Command) (hmode : ip.stringMode = false)
    (hcell : w.space.read ip.position = Cell.ofChar 'k') (hpop : ip.pop = (↑n, popped))
    (hn : 1 ≤ n) (htarget : (ip.advance w.memory false).1.position = target)
    (hc : Command.ofCell? (w.space.read target) = some c)
    (honce : w.space.read target ∈ Command.onceOnly) (haway : c ≠ .goAway) :
    (w.step ip).2 = w.stepInFull ip ↔
      ip.alive = false ∨ w.exitCode ≠ none ∨ c.OnceWillDo n popped := by
  have hk : w.space.read target ≠ Cell.ofChar 'k' := by
    intro h
    rw [h] at honce
    exact absurd honce (by decide +kernel)
  have htimes : Execute.times (w.space.read target) n = 1 := if_pos (by simpa using honce)
  have halive : popped.alive = ip.alive := (congrArg (·.2.alive) hpop).symm
  obtain ⟨reads, hpeek⟩ := Execute.popped_peekCommand hmode hpop htarget rfl
  obtain ⟨n, rfl⟩ : ∃ m, n = m + 1 := ⟨n - 1, by omega⟩
  rw [Execute.step_eq_finish hmode hcell hpop hn hpeek hk,
    Execute.stepInFull_eq_finish hpop hpeek, htimes,
    Execute.finish_once_eq_iff hc honce haway, halive]

/-- The world of a row in which a repetition stands before a turn to the right. -/
def twoCells : World :=
  (Setup.load { clock := ⟨2000, 1, 1, 0, 0, 0⟩ } (.text "k]") { input := .ofText [] }).world

/-- A pointer on that repetition that is to turn `n` times. -/
def turner (n : Int) : Pointer := { id := 0, pile := ⟨⟨[n]⟩, []⟩ }

/-- Five quarter turns are one and a full turn. -/
theorem World.step_eq_stepInFull_circle :
    twoCells.space.read (turner 5).position = Cell.ofChar 'k' ∧
    (turner 5).pop = (5, (turner 5).pop.2) ∧
    ((turner 5).advance twoCells.memory false).1.position = ⟨1, 0⟩ ∧
    Command.ofCell? (twoCells.space.read ⟨1, 0⟩) = some .turnRight ∧
    twoCells.space.read ⟨1, 0⟩ ∈ Command.onceOnly ∧
    (twoCells.step (turner 5)).2 = twoCells.stepInFull (turner 5) := by
  have hcell : twoCells.space.read (turner 5).position = Cell.ofChar 'k' := by decide +kernel
  have htarget : ((turner 5).advance twoCells.memory false).1.position = ⟨1, 0⟩ := by
    decide +kernel
  have hc : Command.ofCell? (twoCells.space.read ⟨1, 0⟩) = some .turnRight := by decide +kernel
  have honce : twoCells.space.read ⟨1, 0⟩ ∈ Command.onceOnly := by decide +kernel
  refine ⟨hcell, rfl, htarget, hc, honce, ?_⟩
  exact (World.step_eq_stepInFull_iff twoCells (turner 5) (turner 5).pop.2 5 ⟨1, 0⟩ .turnRight
    rfl hcell rfl (by decide) htarget hc honce (by decide)).mpr (.inr (.inr (.inl rfl)))

/-- Two turns to the right are cut short to one. -/
theorem World.step_cuts_turns_short :
    twoCells.space.read (turner 2).position = Cell.ofChar 'k' ∧ (turner 2).pop.1 = 2 ∧
    ((turner 2).advance twoCells.memory false).1.position = ⟨1, 0⟩ ∧
    twoCells.space.read ⟨1, 0⟩ = Cell.ofChar ']' ∧ Cell.ofChar ']' ∈ Command.onceOnly ∧
    (twoCells.stepInFull (turner 2)).pointer.delta = Vec.west ∧
    (twoCells.step (turner 2)).2.pointer.delta = Vec.south := by
  decide +kernel

end Befunge
