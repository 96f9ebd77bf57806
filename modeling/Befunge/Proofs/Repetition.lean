import Befunge.Setup
import Befunge.Proofs.Acts
import Befunge.Proofs.ReadCounts
import Befunge.Proofs.Searches

/-!
# Repetition

The step on a repetition is put together from smaller ones: the number is taken from the stack,
the next command is executed so many times where the pointer stands, the pointer is put on that
command, and it moves on from there (`World.step_repeats_target`).  So the command is not
executed once more when the pointer moves on, and a zero passes over it.

`Outcome.andThen` puts two acts together, and a fault of the first one is what comes of both.
The step looks for the next command before it does anything else, and what that adds to the
count of reads is all in which it differs from the steps it is put together from.
-/

namespace Befunge

/-! ## One act after another -/

namespace Outcome

/-- What comes of acting once more, unless there was a fault. -/
def andThen (r : Outcome) (act : Pointer → World → Outcome) : Outcome :=
  match r.fault with
  | none => act r.pointer r.world
  | some _ => r

theorem andThen_of_fault {r : Outcome} {f : Fault} (h : r.fault = some f)
    (act : Pointer → World → Outcome) : r.andThen act = r := by
  rw [andThen, h]

theorem andThen_of_none {r : Outcome} (h : r.fault = none) (act : Pointer → World → Outcome) :
    r.andThen act = act r.pointer r.world := by
  rw [andThen, h]

theorem andThen_countReads {act : Pointer → World → Outcome} {n : Nat}
    (hact : ∀ ip w, act ip (w.countReads n) = (act ip w).countReads n) (r : Outcome) :
    (r.countReads n).andThen act = (r.andThen act).countReads n := by
  obtain ⟨ip, w, fault⟩ := r
  cases fault with
  | none => exact hact ip w
  | some f => rfl

theorem countReads_countReads (r : Outcome) (n k : Nat) :
    (r.countReads n).countReads k = r.countReads (n + k) := by
  simp [countReads, World.countReads, World.withMemory, Memory.countReads, Nat.add_assoc]

end Outcome

namespace Execute

/-- The pointer goes on to the next cell it is to execute, unless it was stopped. -/
def moveOn (ip : Pointer) (w : World) : Outcome :=
  if ip.alive then
    ⟨(ip.advance w.memory false).1, w.withMemory (ip.advance w.memory false).2, none⟩
  else ⟨ip, w, none⟩

/-- The pointer is put on a cell. -/
def placeAt (p : Vec) (ip : Pointer) (w : World) : Outcome := ⟨ip.moveTo p, w, none⟩

/-- Acts `n` times in a row.  A fault ends that. -/
def inARow (act : Pointer → World → Outcome) (n : Nat) (ip : Pointer) (w : World) : Outcome :=
  (·.andThen act)^[n] ⟨ip, w, none⟩

theorem moveOn_countReads (ip : Pointer) (w : World) (n : Nat) :
    moveOn ip (w.countReads n) = (moveOn ip w).countReads n := by
  simp only [moveOn, World.countReads_memory, Pointer.advance_countReads,
    World.countReads_withMemory]
  split <;> rfl

theorem inARow_succ (act : Pointer → World → Outcome) (n : Nat) (ip : Pointer) (w : World) :
    inARow act (n + 1) ip w = (·.andThen act)^[n] (act ip w) :=
  rfl

/-- After a fault nothing more is done. -/
theorem iterate_andThen_of_fault {act : Pointer → World → Outcome} {r : Outcome} {f : Fault}
    (h : r.fault = some f) (n : Nat) : (·.andThen act)^[n] r = r :=
  Function.iterate_fixed (f := fun r : Outcome => r.andThen act) (Outcome.andThen_of_fault h act) n

/-- Without a fault it goes on from what the first act left. -/
theorem inARow_succ_of_none {act : Pointer → World → Outcome} {ip : Pointer} {w : World}
    (h : (act ip w).fault = none) (n : Nat) :
    inARow act (n + 1) ip w = inARow act n (act ip w).pointer (act ip w).world := by
  rw [inARow_succ, inARow, ← h]

end Execute

namespace World

/-- A step outside of strings executes the cell under the pointer, and then the pointer moves on. -/
theorem step_of_command {ip : Pointer} (w : World) (hmode : ip.stringMode = false) :
    (w.step ip).2 =
      ((Execute.cell (w.space.read ip.position) ip w).andThen Execute.moveOn).countReads 1 := by
  have hread : w.withMemory (w.memory.get ip.position).2 = w.countReads 1 := rfl
  have hvalue : (w.memory.get ip.position).1 = w.space.read ip.position := rfl
  rw [← Outcome.andThen_countReads (fun ip w => Execute.moveOn_countReads ip w 1),
    ← Execute.cell_countReads]
  simp only [step, hmode, hread, hvalue, Bool.false_eq_true, if_false]
  generalize Execute.cell (w.space.read ip.position) ip (w.countReads 1) = r
  obtain ⟨ip', w', fault⟩ := r
  cases fault with
  | some f => rfl
  | none =>
      simp only [Outcome.andThen, Execute.moveOn, Option.isNone_none, Bool.true_and]
      split <;> rfl

end World

/-! ## Which cell repeats -/

theorem Cell.eq_ofChar_of_char? {v : Int} {c : Char} (h : char? v = some c) : v = ofChar c := by
  cases v with
  | negSucc n => cases h
  | ofNat n =>
      simp only [char?] at h
      split at h
      next hvalid =>
        have hc : Char.ofNat n = Char.ofNatAux n hvalid := dif_pos hvalid
        rw [← Option.some.inj h, hc]
        rfl
      next => cases h

/-- No other cell asks for a repetition. -/
theorem Command.eq_of_ofCell?_iterate {v : Int} (h : ofCell? v = some .iterate) :
    v = Cell.ofChar 'k' := by
  have hall : table.all (fun e => decide (e.2 = .iterate → e.1 = 'k')) = true := by decide +kernel
  obtain ⟨c, hchar, hlookup⟩ := Option.bind_eq_some_iff.mp h
  obtain ⟨before, after, htable, -⟩ := List.lookup_eq_some_iff.mp hlookup
  have hmem : (c, .iterate) ∈ table := by simp [htable]
  have hc : c = 'k' := of_decide_eq_true (List.all_eq_true.mp hall _ hmem) rfl
  rw [Cell.eq_ofChar_of_char? hchar, hc]

/-! ## Repetitions in full -/

namespace Execute

/-- What is left when nothing moved, turned or stopped the pointer or ended the program. -/
structure Leaves (ip : Pointer) (r : Outcome) : Prop where
  position : r.pointer.position = ip.position
  delta : r.pointer.delta = ip.delta
  alive : r.pointer.alive = true
  exitCode : r.world.exitCode = none

theorem Leaves.isOver {ip : Pointer} {r : Outcome} (h : Leaves ip r) (hfault : r.fault = none) :
    r.isOver = false := by
  simp [Outcome.isOver, hfault, h.alive, h.exitCode]

/-- Where no act but a fault is the last one, all of them are done. -/
theorem repeated_eq_inARow {act : Pointer → World → Outcome} (n : Nat) :
    ∀ {ip : Pointer} {w : World},
      (∀ i < n, (inARow act (i + 1) ip w).fault = none →
        (inARow act (i + 1) ip w).isOver = false) →
      repeated act n ip w = inARow act n ip w := by
  induction n with
  | zero =>
      intro ip w _
      rfl
  | succ n ih =>
      intro ip w h
      rw [repeated]
      cases hfault : (act ip w).fault with
      | some f =>
          have hover : (act ip w).isOver = true := by simp [Outcome.isOver, hfault]
          rw [if_pos hover, inARow_succ, iterate_andThen_of_fault hfault]
      | none =>
          have hgoes : (act ip w).isOver = false := h 0 (Nat.succ_pos n) hfault
          rw [if_neg (by simp [hgoes]), inARow_succ_of_none hfault]
          refine ih fun i hi hnone => ?_
          rw [← inARow_succ_of_none hfault] at hnone ⊢
          exact h (i + 1) (Nat.succ_lt_succ hi) hnone

theorem passOver_eq_andThen {ip : Pointer} {r : Outcome} (h : r.fault = none → Leaves ip r)
    (target : Vec) : passOver ip target r = r.andThen (placeAt target) := by
  cases hfault : r.fault with
  | some f =>
      have hover : r.isOver = true := by simp [Outcome.isOver, hfault]
      rw [passOver, if_pos hover, Outcome.andThen_of_fault hfault]
  | none =>
      have hleaves := h hfault
      rw [passOver, if_neg (by simp [hleaves.isOver hfault]),
        if_pos ⟨hleaves.position, hleaves.delta⟩, Outcome.andThen_of_none hfault, hfault]
      rfl

end Execute

/-- The next command stands where the pointer would go on to. -/
theorem Pointer.peekCommand_eq {ip : Pointer} (m : Memory) (hmode : ip.stringMode = false) :
    ∃ reads, ip.peekCommand m =
      (((ip.advance m false).1.position, m.space.read (ip.advance m false).1.position),
        m.countReads reads) := by
  rw [advance_of_commands m hmode]
  exact ⟨(Course.findCommand m.space ip.delta (ip.step m.space).position).2 + 1, rfl⟩

namespace Execute

/-- What a cell does that is no repetition does not depend on how deep repetitions are nested. -/
theorem obey_eq_cell {c : Int} (hc : c ≠ Cell.ofChar 'k')
    (repetition : Pointer → World → Outcome) : obey repetition c = cell c := by
  have hcommand : Command.ofCell? c ≠ some .iterate :=
    fun h => hc (Command.eq_of_ofCell?_iterate h)
  funext ip w
  rw [cell, obey_eq_alone hcommand repetition 0, obey_eq_alone hcommand _ 0]

/-- The next command as a repetition finds it, after the number was taken from the stack. -/
theorem popped_peekCommand {ip popped : Pointer} {w : World} {n : Int} {target : Vec} {c : Int}
    (hmode : ip.stringMode = false) (hpop : ip.pop = (n, popped))
    (htarget : (ip.advance w.memory false).1.position = target) (hc : w.space.read target = c) :
    ∃ reads, popped.peekCommand w.memory = ((target, c), w.memory.countReads reads) := by
  obtain rfl : ip.pop.2 = popped := congrArg Prod.snd hpop
  have hmode' : ip.pop.2.stringMode = false := hmode
  have htarget' : (ip.pop.2.advance w.memory false).1.position = target := by
    rw [← htarget, Pointer.advance_of_commands _ hmode, Pointer.advance_of_commands _ hmode']
    rfl
  obtain ⟨reads, hpeek⟩ := Pointer.peekCommand_eq w.memory hmode'
  rw [htarget', show w.memory.space.read target = c from hc] at hpeek
  exact ⟨reads, hpeek⟩

/-- What a repetition does, but for the reads by which the next command is found. -/
theorem cell_iterate {ip popped : Pointer} {w : World} {n : Int} {target : Vec} {c : Int}
    {reads : Nat} (hpop : ip.pop = (n, popped))
    (hpeek : popped.peekCommand w.memory = ((target, c), w.memory.countReads reads))
    (hk : c ≠ Cell.ofChar 'k') :
    cell (Cell.ofChar 'k') ip w =
      Outcome.countReads
        (if n = 0 then placeAt target popped w
          else if n < 0 then ⟨popped, w, none⟩
          else passOver popped target (repeated (cell c) (times c n) popped w)) reads := by
  have hcell : cell (Cell.ofChar 'k') ip w =
      iterate (obey (repetitionWithin (maxNesting - 1))) ip w := rfl
  have hmemory : w.withMemory (w.memory.countReads reads) = w.countReads reads := rfl
  rw [hcell, iterate]
  simp only [hpop, hpeek, hmemory, obey_eq_cell hk,
    repeated_countReads (fun ip w => cell_countReads c ip w reads), passOver_countReads]
  split
  · rfl
  · split <;> rfl

/-- A repetition takes the number from the stack, does the next command so many times where the
pointer stands, and puts the pointer on it. -/
theorem cell_repeats_target {ip popped : Pointer} {w : World} {n : Nat} {target : Vec} {c : Int}
    (hmode : ip.stringMode = false) (hpop : ip.pop = (↑n, popped))
    (htarget : (ip.advance w.memory false).1.position = target) (hc : w.space.read target = c)
    (hk : c ≠ Cell.ofChar 'k') (honce : c ∉ Command.onceOnly)
    (hleaves : ∀ i < n, (inARow (cell c) (i + 1) popped w).fault = none →
      Leaves popped (inARow (cell c) (i + 1) popped w)) :
    ∃ reads, cell (Cell.ofChar 'k') ip w =
      ((inARow (cell c) n popped w).andThen (placeAt target)).countReads reads := by
  obtain ⟨reads, hpeek⟩ := popped_peekCommand hmode hpop htarget hc
  refine ⟨reads, ?_⟩
  rw [cell_iterate hpop hpeek hk]
  cases n with
  | zero => rfl
  | succ n =>
      have htimes : times c (↑(n + 1)) = n + 1 := by
        rw [times, if_neg (by simpa using honce)]
        rfl
      rw [if_neg (by omega), if_neg (by omega), htimes,
        repeated_eq_inARow (n + 1) fun i hi hnone => (hleaves i hi hnone).isOver hnone,
        passOver_eq_andThen (hleaves n (Nat.lt_succ_self n))]

end Execute

/-- The step on a repetition, where the next command is done `n` times and none of that moves, turns
or stops the pointer or ends the program.  The number is taken from the stack, the command is
done `n` times where the pointer stands, the pointer is put on the command and moves on.  Only
the count of reads differs, since the step looks for the command first. -/
theorem World.step_repeats_target (w : World) (ip popped : Pointer) (n : Nat) (target : Vec)
    (c : Int) (hmode : ip.stringMode = false)
    (hcell : w.space.read ip.position = Cell.ofChar 'k') (hpop : ip.pop = (↑n, popped))
    (htarget : (ip.advance w.memory false).1.position = target) (hc : w.space.read target = c)
    (hk : c ≠ Cell.ofChar 'k') (honce : c ∉ Command.onceOnly)
    (hleaves : ∀ i < n, (Execute.inARow (Execute.cell c) (i + 1) popped w).fault = none →
      Execute.Leaves popped (Execute.inARow (Execute.cell c) (i + 1) popped w)) :
    ∃ reads, (w.step ip).2 =
      (((Execute.inARow (Execute.cell c) n popped w).andThen (Execute.placeAt target)).andThen
        Execute.moveOn).countReads reads := by
  obtain ⟨reads, hrepeats⟩ :=
    Execute.cell_repeats_target hmode hpop htarget hc hk honce hleaves
  refine ⟨reads + 1, ?_⟩
  rw [w.step_of_command hmode, hcell, hrepeats,
    Outcome.andThen_countReads (fun ip w => Execute.moveOn_countReads ip w reads),
    Outcome.countReads_countReads]

/-- The world of a row in which a repetition stands before a comment. -/
def copies : World :=
  (Setup.load { clock := ⟨2000, 1, 1, 0, 0, 0⟩ } (.text ":@ k ;r; ") { input := .ofText [] }).world

/-- A pointer on that repetition. -/
def copier : Pointer := { id := 0, position := ⟨3, 0⟩, pile := ⟨⟨[3, 7]⟩, []⟩ }

/-- Past blanks, a comment and the end of the row, a cell is copied three times. -/
theorem World.step_repeats_target_round :
    copies.space.read copier.position = Cell.ofChar 'k' ∧
    copier.pop = (3, copier.pop.2) ∧
    copies.space.read ⟨0, 0⟩ = Cell.ofChar ':' ∧
    (copies.step copier).2.pointer.pile = ⟨⟨[7, 7, 7, 7]⟩, []⟩ ∧
    (copies.step copier).2.pointer.position = ⟨1, 0⟩ := by
  have hcell : copies.space.read copier.position = Cell.ofChar 'k' := by decide +kernel
  have hc : copies.space.read ⟨0, 0⟩ = Cell.ofChar ':' := by decide +kernel
  have hkept : ∀ i < 3,
      let r := Execute.inARow (Execute.cell (Cell.ofChar ':')) (i + 1) copier.pop.2 copies
      r.pointer.position = copier.position ∧ r.pointer.delta = copier.delta ∧
        r.pointer.alive = true ∧ r.world.exitCode = none := by
    decide +kernel
  obtain ⟨reads, hstep⟩ := World.step_repeats_target copies copier copier.pop.2 3 ⟨0, 0⟩
    (Cell.ofChar ':') rfl hcell rfl (by decide +kernel) hc (by decide) (by decide +kernel)
    fun i hi _ => by
      obtain ⟨hposition, hdelta, halive, hexit⟩ := hkept i hi
      exact ⟨hposition, hdelta, halive, hexit⟩
  refine ⟨hcell, rfl, hc, ?_, ?_⟩
  · rw [hstep, Outcome.countReads_pointer]
    decide +kernel
  · rw [hstep, Outcome.countReads_pointer]
    decide +kernel

end Befunge
