import Befunge.Proofs.Rows
import Befunge.Proofs.Runs

/-!
# Programs with one pointer

As long as a program has one pointer and does not change itself, a state of it is that pointer
and what was written so far, its `Solo`.  A command leads from one such state to the next
(`Space.Steps`), whatever else there is in the world, and rows of commands are put together by
`Space.Leads`.  A program whose pointer gets to a stop is done (`Space.Leads.ends`).
-/

namespace Befunge

/-- A pointer and what it has written. -/
structure Solo where
  pointer : Pointer
  written : String

/-- Settings under which nothing but the program itself can end it.  Commands are not shown, since
the column of a cell in a row that is long enough is a number too great to be written.  There may
be a pause after each of them, if it is one that can be made. -/
structure Config.Undisturbing (c : Config) : Prop where
  unlimited : c.maxTicks = none
  unshown : c.trace = false
  pause : c.pause.refusal? = none

/-- A world in which a program that occupies `s` can run undisturbed, and has written `text`. -/
structure World.Calm (w : World) (s : Space) (text : String) : Prop where
  space : w.space = s
  output : w.console.output = { written := some text }
  running : w.status = .running
  settings : w.config.Undisturbing
  waiting : w.spawned = []

/-- An outcome that is the state `b` and no fault. -/
structure Outcome.Calm (r : Outcome) (s : Space) (b : Solo) : Prop where
  pointer : r.pointer = b.pointer
  world : r.world.Calm s b.written
  fault : r.fault = none

/-- A machine that has come to the state `a`. -/
structure Machine.Plays (m : Machine) (s : Space) (a : Solo) : Prop where
  pointers : m.pointers = [a.pointer]
  world : m.world.Calm s a.written

/-- Executing the cell under the pointer leads from one state to another. -/
def Space.Steps (s : Space) (a b : Solo) : Prop :=
  ∀ w : World, w.Calm s a.written → (w.step a.pointer).2.Calm s b

/-- Some ticks that go on lead from one state to another. -/
def Space.Leads (s : Space) (a b : Solo) : Prop :=
  ∀ m : Machine, m.Plays s a →
    ∃ k, (∀ i < k, (m.after i).tick.1 = .ok true) ∧ (m.after k).Plays s b

/-! ## Ticks -/

theorem World.pause_of_not_refused {w : World} (h : w.config.pause.refusal? = none) :
    ∃ pauses, w.pause = .ok { w with pauses := pauses } := by
  rw [pause, h]
  split
  · exact ⟨w.pauses, rfl⟩
  · exact ⟨w.pauses + 1, rfl⟩

namespace World.Calm

variable {w : World} {s : Space} {text : String}

theorem withMemory (h : w.Calm s text) {m : Memory} (hm : m.space = s) :
    (w.withMemory m).Calm s text :=
  ⟨hm, h.output, h.running, h.settings, h.waiting⟩

theorem withOutput (h : w.Calm s text) {console : Console} {text' : String}
    (houtput : console.output = { written := some text' }) :
    (w.withConsole console).Calm s text' :=
  ⟨h.space, houtput, h.running, h.settings, h.waiting⟩

theorem countTick (h : w.Calm s text) : w.countTick.Calm s text :=
  ⟨h.space, h.output, h.running, h.settings, h.waiting⟩

/-- A turn adds nothing to what its step does but a record and a pause. -/
theorem perform {ip : Pointer} {b : Solo} (h : (w.step ip).2.Calm s b) :
    (w.perform ip).Calm s b := by
  simp only [World.perform]
  generalize w.step ip = answer at h
  obtain ⟨v, ip', w', fault⟩ := answer
  have hcalm := h.world
  cases h.fault
  have hcounted (record : TraceRecord) (pauses : Nat) :
      World.Calm { w'.countInstruction record with pauses := pauses } s b.written :=
    ⟨hcalm.space, hcalm.output, hcalm.running, hcalm.settings, hcalm.waiting⟩
  have hshow (record : TraceRecord) : (w'.countInstruction record).showRecord record = .ok () := by
    have hunshown : (w'.countInstruction record).config.trace = false := hcalm.settings.unshown
    simp [showRecord, hunshown]
  simp only [hshow]
  generalize recordOf ip v _ = record
  obtain ⟨pauses, hpause⟩ : ∃ pauses, (w'.countInstruction record).pause =
      .ok { w'.countInstruction record with pauses := pauses } :=
    pause_of_not_refused hcalm.settings.pause
  rw [hpause]
  exact ⟨h.pointer, hcounted record pauses, rfl⟩

end World.Calm

namespace Machine.Plays

variable {m : Machine} {s : Space} {a b : Solo}

theorem begins (h : m.Plays s a) : m.Begins :=
  ⟨h.world.running, by rw [budgetSpent, h.world.settings.unlimited, Option.filter_none]⟩

theorem turns (h : m.Plays s a) (hstep : s.Steps a b) :
    ∃ w, m.turns = ⟨[b.pointer], w, .complete⟩ ∧ w.Calm s b.written := by
  have hturn := World.Calm.perform (hstep _ h.world.countTick)
  refine ⟨_, ?_, hturn.world⟩
  rw [Machine.turns, h.pointers, World.round, World.round]
  simp only [hturn.fault, hturn.world.running, hturn.pointer, if_true]

/-- A step of a pointer that stays alive is a tick that goes on. -/
theorem tick (h : m.Plays s a) (hstep : s.Steps a b) (halive : b.pointer.alive = true) :
    m.tick.1 = .ok true ∧ m.tick.2.Plays s b := by
  obtain ⟨w, hturns, hcalm⟩ := h.turns hstep
  have hleft : [b.pointer].filter (·.alive) ++ w.spawned.reverse = [b.pointer] := by
    simp [halive, hcalm.waiting]
  rw [h.begins.tick_eq, hturns]
  simp only [settle, hleft]
  refine ⟨rfl, rfl, ?_⟩
  exact ⟨hcalm.space, hcalm.output, hcalm.running, hcalm.settings, rfl⟩

/-- A step by which the pointer stops is the last tick. -/
theorem tick_stopped (h : m.Plays s a) (hstep : s.Steps a b) (hdead : b.pointer.alive = false) :
    m.tick.1 = .ok false ∧ m.tick.2.world.status = .done ∧ m.tick.2.world.exitCode = some 0 ∧
      m.tick.2.world.console.output = { written := some b.written } := by
  obtain ⟨w, hturns, hcalm⟩ := h.turns hstep
  have hleft : [b.pointer].filter (·.alive) ++ w.spawned.reverse = [] := by
    simp [hdead, hcalm.waiting]
  have htick : m.tick = (.ok false, ⟨(w.countPointers []).ended .done 0, []⟩) := by
    rw [h.begins.tick_eq, hturns]
    simp only [settle, hleft, if_true]
  rw [htick]
  exact ⟨rfl, rfl, rfl, hcalm.output⟩

end Machine.Plays

/-! ## Rows of ticks -/

theorem Machine.after_add (m : Machine) (k n : Nat) : m.after (k + n) = (m.after k).after n := by
  rw [Nat.add_comm]
  exact Function.iterate_add_apply _ n k m

namespace Space

variable {s : Space} {a b c : Solo}

theorem Leads.refl (a : Solo) : s.Leads a a :=
  fun _ h => ⟨0, by simp, h⟩

theorem Leads.trans (h₁ : s.Leads a b) (h₂ : s.Leads b c) : s.Leads a c := by
  intro m hm
  obtain ⟨k₁, hticks₁, hb⟩ := h₁ m hm
  obtain ⟨k₂, hticks₂, hc⟩ := h₂ _ hb
  refine ⟨k₁ + k₂, fun i hi => ?_, by rwa [Machine.after_add]⟩
  rcases Nat.lt_or_ge i k₁ with hlt | hge
  · exact hticks₁ i hlt
  · obtain ⟨j, rfl⟩ := Nat.exists_eq_add_of_le hge
    rw [Machine.after_add]
    exact hticks₂ j (by omega)

instance (s : Space) : Trans s.Leads s.Leads s.Leads := ⟨Leads.trans⟩

theorem Steps.leads (h : s.Steps a b) (halive : b.pointer.alive = true) : s.Leads a b := by
  intro m hm
  obtain ⟨hanswer, hb⟩ := hm.tick h halive
  refine ⟨1, fun i hi => ?_, hb⟩
  obtain rfl : i = 0 := by omega
  exact hanswer

/-- A program whose pointer gets to where it stops is done. -/
theorem Leads.ends (h : s.Leads a b) (hstop : s.Steps b c) (hdead : c.pointer.alive = false)
    {m : Machine} (hm : m.Plays s a) :
    ∃ k final, m.Ends k final ∧ final.world.status = .done ∧ final.world.exitCode = some 0 ∧
      final.world.console.output = { written := some c.written } := by
  obtain ⟨k, hticks, hb⟩ := h m hm
  obtain ⟨hanswer, hstatus, hcode, houtput⟩ := hb.tick_stopped hstop hdead
  exact ⟨k, (m.after k).tick.2, ⟨hticks, Prod.ext hanswer rfl⟩, hstatus, hcode, houtput⟩

/-! ## Commands -/

/-- The cell is neither a blank nor a semicolon, so that a pointer comes to a halt on it. -/
def Halts (s : Space) (p : Vec) : Prop := s.read p ≠ Cell.blank ∧ s.read p ≠ Cell.semicolon

theorem advance_of_halts {ip : Pointer} {m : Memory}
    (h : ip.stringMode = true ∨ m.space.Halts (m.space.bounds.next ip.position ip.delta)) :
    (ip.advance m false).1 = ip.step m.space := by
  simp only [Pointer.advance]
  split
  next hmode =>
    have hhalts : m.space.Halts (m.space.bounds.next ip.position ip.delta) := by
      refine h.resolve_left fun hon => ?_
      have hoff : ip.stringMode = false := hmode
      rw [hoff] at hon
      cases hon
    have hfound := Course.findCommand_of_command hhalts.1 hhalts.2 ip.delta
    simp only [Pointer.findCommand, Pointer.step, Pointer.moveTo] at hfound ⊢
    rw [hfound]
  next => rfl

/-- A command does what it says, and the pointer goes one cell on. -/
theorem steps_of_command {ip : Pointer} {text : String} {c : Command}
    (hmode : a.pointer.stringMode = false)
    (hcell : Command.ofCell? (s.read a.pointer.position) = some c)
    (hrun : ∀ repetition w, w.Calm s a.written →
      (Execute.run repetition c a.pointer w).Calm s ⟨ip, text⟩)
    (halive : ip.alive = true)
    (hnext : ip.stringMode = true ∨ s.Halts (s.bounds.next ip.position ip.delta)) :
    s.Steps a ⟨ip.step s, text⟩ := by
  intro w hw
  have hread : w.memory.space.read a.pointer.position = s.read a.pointer.position := by
    rw [show w.memory.space = s from hw.space]
  have hmemory : (w.memory.get a.pointer.position).2.space = s := hw.space
  have hr := hrun (Execute.repetitionWithin Execute.maxNesting) _ (hw.withMemory hmemory)
  have hcellRun : Execute.cell (w.memory.get a.pointer.position).1 a.pointer
      (w.withMemory (w.memory.get a.pointer.position).2) =
      Execute.run (Execute.repetitionWithin Execute.maxNesting) c a.pointer
        (w.withMemory (w.memory.get a.pointer.position).2) := by
    simp only [Execute.cell, Execute.obey, Memory.get, hread, hcell]
  rw [World.step]
  simp only [hmode, hcellRun]
  generalize Execute.run _ c a.pointer _ = r at hr ⊢
  obtain ⟨ip', w', fault⟩ := r
  have hcalm := hr.world
  cases hr.fault
  obtain rfl : ip' = ip := hr.pointer
  have hspace : w'.memory.space = s := hcalm.space
  simp only [halive, Option.isNone_none, Bool.and_self, if_true, Bool.false_eq_true, if_false]
  refine ⟨?_, hcalm.withMemory ?_, rfl⟩
  · rw [advance_of_halts (by rw [hspace]; exact hnext), hspace]
  · rw [(ip'.advance_moved w'.memory false).space, hspace]

theorem steps_of_stop (hmode : a.pointer.stringMode = false)
    (hcell : Command.ofCell? (s.read a.pointer.position) = some .stop) :
    s.Steps a ⟨a.pointer.stopped, a.written⟩ := by
  intro w hw
  have hread : w.memory.space.read a.pointer.position = s.read a.pointer.position := by
    rw [show w.memory.space = s from hw.space]
  simp only [World.step, hmode, Memory.get, hread, Execute.cell, Execute.obey, hcell, Execute.run]
  exact ⟨rfl, ⟨hw.space, hw.output, hw.running, hw.settings, hw.waiting⟩, rfl⟩

/-- In string mode the cell is pushed, or ends the string. -/
theorem steps_of_string {ip : Pointer} {v : Int} (hmode : a.pointer.stringMode = true)
    (hread : s.read a.pointer.position = v)
    (hnext : ∀ m : Memory, m.space = s →
      ((if v = Cell.quote then a.pointer.withStringMode false else a.pointer.push v).advance m
        (v = Cell.blank)).1 = ip) :
    s.Steps a ⟨ip, a.written⟩ := by
  intro w hw
  have hget : (w.memory.get a.pointer.position).1 = v := by
    rw [← hread, ← hw.space]
    rfl
  have hmemory : (w.memory.get a.pointer.position).2.space = s := hw.space
  have hmoved := hnext _ hmemory
  simp only [World.step, hmode, if_true]
  refine ⟨?_, (hw.withMemory hmemory).withMemory ?_, rfl⟩
  · rw [← hget] at hmoved
    exact hmoved
  · rw [(Pointer.advance_moved _ _ _).space]
    exact hmemory

end Space

/-! ## The beginning -/

/-- A machine whose world has a command at the origin begins there. -/
theorem World.Calm.start {w : World} {s : Space} {text : String} (h : w.Calm s text)
    (hfirst : s.Halts Vec.zero) : (Machine.start w).Plays s ⟨{ id := w.nextId }, text⟩ := by
  have hspace : w.memory.space = s := h.space
  have hfound : (Course.findCommand w.memory.space Vec.east Vec.zero).1 = Vec.zero := by
    rw [hspace]
    exact Course.findCommand_of_command hfirst.1 hfirst.2 Vec.east
  refine ⟨?_, ⟨hspace, h.output, h.running, h.settings, h.waiting⟩⟩
  simp only [Machine.start, Pointer.findCommand, Pointer.moveTo, hfound]

theorem Setup.load_plays {setup : Setup} (h : setup.config.Undisturbing) (text input : String)
    (hfirst : (Space.ofText text.toList).Halts Vec.zero) :
    (setup.load (.text text) { input := .ofText input.toList }).Plays (Space.ofText text.toList)
      ⟨{ id := 0 }, ""⟩ := by
  have hcalm (console : Console) (hconsole : console.output = {}) (events : List Event) :
      (setup.world (Space.ofText text.toList) console events).Calm (Space.ofText text.toList) "" :=
    ⟨rfl, hconsole, rfl, h, rfl⟩
  exact (hcalm _ rfl _).start hfirst

end Befunge
