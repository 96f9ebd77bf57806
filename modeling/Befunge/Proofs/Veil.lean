import Befunge.Proofs.Rounds

/-!
# What commands do not see

No command asks how many ticks the program may take or whether executed commands are shown,
and none learns anything of the files and of the command interpreter where these are out of
reach.  A veil puts other values in their places.  Whatever a pointer does under a veil it
would have done without it: executing a cell, a turn and a round all commute with veils, and
so does a tick that both machines begin.

That commands are shown can be noticed in one way only: a record that cannot be written is a
fault.  So a veil that keeps commands from being shown commutes with turns that are no faults.
-/

namespace Befunge

/-- Other values for what commands do not see. -/
structure Veil where
  /-- How many ticks the program may take. -/
  maxTicks : Option Int
  /-- What becomes of the files. -/
  files : FileTree → FileTree := id
  /-- What becomes of the command interpreter. -/
  interpreter : Interpreter → Interpreter := id
  /-- Whether executed commands are no longer shown. -/
  mute : Bool := false

/-- The files and the command interpreter are changed only where they are out of reach. -/
def Veil.Hides (v : Veil) (w : World) : Prop :=
  (v.files = id ∧ v.interpreter = id) ∨ (w.config.files = .deny ∧ w.config.commands = .deny)

/-- The world with what a veil puts in place of what commands do not see. -/
def World.veiled (v : Veil) (w : World) : World :=
  { w with
    config := { w.config with maxTicks := v.maxTicks, trace := !v.mute && w.config.trace }
    files := v.files w.files
    interpreter := v.interpreter w.interpreter }

def Outcome.veiled (v : Veil) (r : Outcome) : Outcome := ⟨r.pointer, r.world.veiled v, r.fault⟩

@[simp] theorem Outcome.veiled_pointer (v : Veil) (r : Outcome) :
    (r.veiled v).pointer = r.pointer := rfl

@[simp] theorem Outcome.veiled_fault (v : Veil) (r : Outcome) :
    (r.veiled v).fault = r.fault := rfl

@[simp] theorem Outcome.veiled_isOver (v : Veil) (r : Outcome) :
    (r.veiled v).isOver = r.isOver := rfl

theorem Veil.Hides.of_config {v : Veil} {w w' : World} (h : v.Hides w)
    (hconfig : w'.config = w.config) : v.Hides w' := by
  rw [Veil.Hides, hconfig]
  exact h

theorem Deeds.config {ip ip' : Pointer} {w w' : World} (h : Deeds ip w ip' w') :
    w'.config = w.config := by
  induction h with
  | start => rfl
  | errand _ _ _ hw _ ih => exact hw.config.trans ih
  | split _ ih => exact ih
  | stop _ _ ih => exact ih
  | quit _ _ ih => exact ih

/-! ## Devices -/

namespace World

variable {v : Veil} {w : World}

@[simp] theorem veiled_memory : (w.veiled v).memory = w.memory := rfl

@[simp] theorem veiled_console : (w.veiled v).console = w.console := rfl

@[simp] theorem veiled_registry : (w.veiled v).registry = w.registry := rfl

@[simp] theorem veiled_space : (w.veiled v).space = w.space := rfl

@[simp] theorem veiled_withMemory (m : Memory) :
    (w.veiled v).withMemory m = (w.withMemory m).veiled v := rfl

theorem loadFile_veiled (h : v.Hides w) (name : String) :
    (w.veiled v).loadFile name = ((w.loadFile name).1, (w.loadFile name).2.veiled v) := by
  have hconfig : (w.veiled v).config.files = w.config.files := rfl
  simp only [loadFile, hconfig]
  cases haccess : w.config.files with
  | deny => rfl
  | real =>
      rcases h with ⟨h, -⟩ | ⟨h, -⟩
      · simp only [veiled, h]
        rfl
      · rw [haccess] at h
        cases h

theorem saveFile_veiled (h : v.Hides w) (name : String) (data : ByteArray) (offset : Int) :
    (w.veiled v).saveFile name data offset =
      ((w.saveFile name data offset).1, (w.saveFile name data offset).2.veiled v) := by
  have hconfig : (w.veiled v).config.files = w.config.files := rfl
  simp only [saveFile, hconfig]
  cases haccess : w.config.files with
  | deny => rfl
  | real =>
      rcases h with ⟨h, -⟩ | ⟨h, -⟩
      · simp only [veiled, h]
        rfl
      · rw [haccess] at h
        cases h

theorem runCommand_veiled (h : v.Hides w) (text : String) :
    (w.veiled v).runCommand text = ((w.runCommand text).1, (w.runCommand text).2.veiled v) := by
  have hconfig : (w.veiled v).config.commands = w.config.commands := rfl
  simp only [runCommand, hconfig]
  cases haccess : w.config.commands with
  | deny => rfl
  | real =>
      rcases h with ⟨hfiles, hinterpreter⟩ | ⟨-, h⟩
      · simp only [veiled, hfiles, hinterpreter]
        split <;> rfl
      · rw [haccess] at h
        cases h

end World

/-! ## Commands -/

namespace Execute

variable {v : Veil} {w : World}

theorem afterWriting_veiled (ip : Pointer) (result : Except WriteError Console) :
    afterWriting ip (w.veiled v) result = (afterWriting ip w result).veiled v := by
  cases result with
  | ok console => rfl
  | error e =>
      cases e with
      | character e => cases e <;> rfl
      | number e => rfl
      | stream e => rfl

theorem readChar_veiled (ip : Pointer) :
    readChar ip (w.veiled v) = (readChar ip w).veiled v := by
  simp only [readChar, World.veiled_console]
  cases w.console.readChar.1 <;> rfl

theorem readInteger_veiled (ip : Pointer) :
    readInteger ip (w.veiled v) = (readInteger ip w).veiled v := by
  simp only [readInteger, World.veiled_console]
  cases w.console.readInteger.1 with
  | ok n => rfl
  | error e => cases e <;> rfl

theorem inputFile_veiled (h : v.Hides w) (ip : Pointer) :
    inputFile ip (w.veiled v) = (inputFile ip w).veiled v := by
  simp only [inputFile]
  cases ip.popText.1 with
  | none => rfl
  | some name =>
      simp only [World.loadFile_veiled h]
      cases w.loadFile (String.ofList name) with
      | mk result w' => cases result <;> rfl

theorem outputFile_veiled (h : v.Hides w) (ip : Pointer) :
    outputFile ip (w.veiled v) = (outputFile ip w).veiled v := by
  simp only [outputFile]
  cases ip.popText.1 with
  | none => rfl
  | some name =>
      simp only [World.saveFile_veiled h, World.veiled_space]
      split
      · rfl
      · generalize w.saveFile (String.ofList name) _ 0 = saved
        obtain ⟨result, w'⟩ := saved
        cases result <;> rfl

theorem execute_veiled (h : v.Hides w) (ip : Pointer) :
    execute ip (w.veiled v) = (execute ip w).veiled v := by
  simp only [execute]
  cases ip.popText.1 with
  | none => rfl
  | some text =>
      simp only [World.runCommand_veiled h]
      cases w.runCommand (String.ofList text) with
      | mk result w' => cases result <;> rfl

theorem loadFingerprint_veiled (ip : Pointer) :
    loadFingerprint ip (w.veiled v) = (loadFingerprint ip w).veiled v := by
  simp only [loadFingerprint, World.veiled_registry]
  cases (popCode ip).1 with
  | none => rfl
  | some code =>
      simp only
      cases w.registry.find code <;> rfl

theorem unloadFingerprint_veiled (ip : Pointer) :
    unloadFingerprint ip (w.veiled v) = (unloadFingerprint ip w).veiled v := by
  simp only [unloadFingerprint, World.veiled_registry]
  cases (popCode ip).1.bind w.registry.find <;> rfl

/-! ### Repetition -/

theorem repeated_veiled {act : Pointer → World → Outcome}
    (hconfig : ∀ ip w, (act ip w).world.config = w.config)
    (hact : ∀ ip w, v.Hides w → act ip (w.veiled v) = (act ip w).veiled v) (n : Nat) :
    ∀ ip w, v.Hides w → repeated act n ip (w.veiled v) = (repeated act n ip w).veiled v := by
  induction n with
  | zero =>
      intro ip w _
      rfl
  | succ n ih =>
      intro ip w h
      simp only [repeated, hact ip w h, Outcome.veiled_isOver]
      split
      · rfl
      · exact ih _ _ (h.of_config (hconfig ip w))

theorem passOver_veiled (ip : Pointer) (target : Vec) (r : Outcome) :
    passOver ip target (r.veiled v) = (passOver ip target r).veiled v := by
  simp only [passOver, apply_ite (Outcome.veiled v)]
  rfl

theorem iterate_veiled {execute : Int → Pointer → World → Outcome}
    (hconfig : ∀ c ip w, (execute c ip w).world.config = w.config)
    (hexecute : ∀ c ip w, v.Hides w → execute c ip (w.veiled v) = (execute c ip w).veiled v)
    (ip : Pointer) (h : v.Hides w) :
    iterate execute ip (w.veiled v) = (iterate execute ip w).veiled v := by
  simp only [iterate, World.veiled_memory, World.veiled_withMemory]
  split
  · rfl
  · split
    · rfl
    · have hread : v.Hides (w.withMemory (ip.pop.2.peekCommand w.memory).2) := h.of_config rfl
      rw [repeated_veiled (hconfig _) (hexecute _) _ _ _ hread, passOver_veiled]

theorem run_veiled {repetition : Pointer → World → Outcome}
    (hrep : ∀ ip w, v.Hides w → repetition ip (w.veiled v) = (repetition ip w).veiled v)
    (c : Command) (ip : Pointer) (h : v.Hides w) :
    run repetition c ip (w.veiled v) = (run repetition c ip w).veiled v := by
  cases c with
  | iterate => exact hrep ip w h
  | writeChar => exact afterWriting_veiled _ _
  | writeInteger => exact afterWriting_veiled _ _
  | readChar => exact readChar_veiled ip
  | readInteger => exact readInteger_veiled ip
  | inputFile => exact inputFile_veiled h ip
  | outputFile => exact outputFile_veiled h ip
  | execute => exact execute_veiled h ip
  | loadFingerprint => exact loadFingerprint_veiled ip
  | unloadFingerprint => exact unloadFingerprint_veiled ip
  -- the other commands ask only for what a veil leaves as it is
  | _ => rfl

theorem obey_veiled {repetition : Pointer → World → Outcome}
    (hrep : ∀ ip w, v.Hides w → repetition ip (w.veiled v) = (repetition ip w).veiled v)
    (c : Int) (ip : Pointer) (h : v.Hides w) :
    obey repetition c ip (w.veiled v) = (obey repetition c ip w).veiled v := by
  simp only [obey]
  cases Command.ofCell? c with
  | none => rfl
  | some c => exact run_veiled hrep c ip h

theorem repetitionWithin_veiled (depth : Nat) :
    ∀ ip w, v.Hides w →
      repetitionWithin depth ip (w.veiled v) = (repetitionWithin depth ip w).veiled v := by
  induction depth with
  | zero =>
      intro ip w _
      rfl
  | succ depth ih =>
      intro ip w h
      refine iterate_veiled (fun c ip w => ?_) (fun c ip w h => obey_veiled ih c ip h) ip h
      exact (obey_deeds (repetitionWithin_deeds depth) c ip w).config

/-- Executing a cell is the same under a veil. -/
theorem cell_veiled (c : Int) (ip : Pointer) (h : v.Hides w) :
    cell c ip (w.veiled v) = (cell c ip w).veiled v :=
  obey_veiled (repetitionWithin_veiled maxNesting) c ip h

end Execute

/-! ## Turns, rounds and ticks -/

namespace World

variable {v : Veil} {w : World}

theorem step_veiled (ip : Pointer) (h : v.Hides w) :
    (w.veiled v).step ip = ((w.step ip).1, (w.step ip).2.veiled v) := by
  have hread : v.Hides (w.withMemory (w.memory.get ip.position).2) := h.of_config rfl
  have hcell := Execute.cell_veiled (w.memory.get ip.position).1 ip hread
  simp only [step, veiled_memory, veiled_withMemory, hcell, Outcome.veiled_fault,
    Outcome.veiled_pointer]
  split
  · rfl
  · split <;> rfl

theorem recordOf_veiled (ip ip' : Pointer) (c : Int) (fault : Option Fault) :
    recordOf ip c ⟨ip', w.veiled v, fault⟩ = recordOf ip c ⟨ip', w, fault⟩ := rfl

theorem countInstruction_veiled (record : TraceRecord) :
    (w.veiled v).countInstruction record = (w.countInstruction record).veiled v := rfl

/-- Whether commands are shown makes no difference where the record can be written. -/
theorem showRecord_veiled {record : TraceRecord}
    (h : v.mute = false ∨ w.showRecord record = .ok ()) :
    (w.veiled v).showRecord record = w.showRecord record := by
  simp only [showRecord, veiled] at h ⊢
  rcases h with h | h
  · simp [h]
  · rw [h]
    refine if_neg fun hfault => ?_
    simp only [Bool.and_eq_true] at hfault
    simp [hfault.1.2, hfault.2] at h

theorem pause_veiled : (w.veiled v).pause = w.pause.map (·.veiled v) := by
  have hconfig : (w.veiled v).config.pause = w.config.pause := rfl
  simp only [pause, hconfig]
  split
  · rfl
  · cases w.config.pause.refusal? <;> rfl

/-- A turn is the same under a veil. -/
theorem perform_veiled (ip : Pointer) (h : v.Hides w)
    (hshown : v.mute = false ∨ (w.perform ip).fault = none) :
    (w.veiled v).perform ip = (w.perform ip).veiled v := by
  simp only [perform] at hshown
  simp only [perform, step_veiled ip h]
  generalize w.step ip = vr at hshown ⊢
  obtain ⟨c, ip', w', fault⟩ := vr
  cases fault with
  | some f => rfl
  | none =>
      simp only [Outcome.veiled, recordOf_veiled, countInstruction_veiled, pause_veiled]
      generalize recordOf ip c _ = record at hshown ⊢
      generalize w'.countInstruction record = counted at hshown ⊢
      have hrecord : v.mute = false ∨ counted.showRecord record = .ok () := by
        refine hshown.imp_right fun hfault => ?_
        cases hshow : counted.showRecord record with
        | ok _ => rfl
        | error f =>
            rw [hshow] at hfault
            cases hfault
      rw [showRecord_veiled hrecord]
      cases counted.showRecord record with
      | error f => rfl
      | ok _ =>
          simp only
          cases counted.pause <;> rfl

theorem perform_config (w : World) (ip : Pointer) : (w.perform ip).world.config = w.config := by
  have hturn := w.perform_turn ip
  generalize w.perform ip = r at hturn
  cases hturn with
  | broken f hdeeds => exact hdeeds.config
  | recorded record pauses fault hdeeds _ _ => exact hdeeds.config

/-- A round that ends in no fault begins with a turn that ends in none. -/
theorem fault_of_round_cons {ip : Pointer} {rest : List Pointer}
    (h : (w.round (ip :: rest)).ending.fault = none) :
    (w.perform ip).fault = none ∧ ((w.perform ip).world.status = .running →
      ((w.perform ip).world.round rest).ending.fault = none) := by
  simp only [round] at h
  cases hfault : (w.perform ip).fault with
  | some f =>
      rw [hfault] at h
      cases h
  | none =>
      rw [hfault] at h
      refine ⟨rfl, fun hstatus => ?_⟩
      simpa only [if_pos hstatus] using h

/-- A round is the same under a veil. -/
theorem round_veiled (ps : List Pointer) :
    ∀ w : World, v.Hides w → (v.mute = false ∨ (w.round ps).ending.fault = none) →
      (w.veiled v).round ps =
        ⟨(w.round ps).pointers, (w.round ps).world.veiled v, (w.round ps).ending⟩ := by
  induction ps with
  | nil =>
      intro w _ _
      rfl
  | cons ip rest ih =>
      intro w h hshown
      have hfirst : v.mute = false ∨ (w.perform ip).fault = none :=
        hshown.imp_right fun hsmooth => (fault_of_round_cons hsmooth).1
      simp only [round, perform_veiled ip h hfirst, Outcome.veiled]
      cases (w.perform ip).fault with
      | some f => rfl
      | none =>
          by_cases hstatus : (w.perform ip).world.status = .running
          · have hstatus' : ((w.perform ip).world.veiled v).status = .running := hstatus
            have hrest : v.mute = false ∨
                ((w.perform ip).world.round rest).ending.fault = none :=
              hshown.imp_right fun hsmooth => (fault_of_round_cons hsmooth).2 hstatus
            simp only [if_pos hstatus, if_pos hstatus',
              ih _ (h.of_config (w.perform_config ip)) hrest]
          · have hstatus' : ¬ ((w.perform ip).world.veiled v).status = .running := hstatus
            simp only [if_neg hstatus, if_neg hstatus']

end World

namespace Machine

def veiled (v : Veil) (m : Machine) : Machine := ⟨m.world.veiled v, m.pointers⟩

variable {v : Veil} {m : Machine}

theorem turns_veiled (h : v.Hides m.world)
    (hshown : v.mute = false ∨ m.turns.ending.fault = none) :
    (m.veiled v).turns = ⟨m.turns.pointers, m.turns.world.veiled v, m.turns.ending⟩ :=
  World.round_veiled m.pointers m.world.countTick (h.of_config rfl) hshown

theorem settle_veiled (ps : List Pointer) (w : World) :
    settle ps (w.veiled v) = ((settle ps w).1, (settle ps w).2.veiled v) := by
  have hspawned : (w.veiled v).spawned = w.spawned := rfl
  simp only [settle, hspawned]
  split <;> rfl

theorem Begins.isOk_tick_iff (h : m.Begins) :
    m.tick.1.isOk = true ↔ m.turns.ending.fault = none := by
  rw [h.tick_eq]
  cases m.turns.ending <;> simp [RoundEnd.fault, Except.isOk, Except.toBool]

/-- A tick that is begun both under a veil and without it is the same. -/
theorem tick_veiled (h : v.Hides m.world) (hshown : v.mute = false ∨ m.tick.1.isOk = true)
    (hbegins : m.Begins) (hbegins' : (m.veiled v).Begins) :
    (m.veiled v).tick = (m.tick.1, m.tick.2.veiled v) := by
  rw [hbegins.isOk_tick_iff] at hshown
  rw [hbegins.tick_eq, hbegins'.tick_eq, turns_veiled h hshown]
  cases m.turns.ending with
  | faulted f => rfl
  | ended => rfl
  | complete => simp only [settle_veiled]

end Machine

end Befunge
