import Befunge.Proofs.Deeds

/-!
# Commands do not see the count of reads

How often cells were read is counted and shown at the end of a run, and no command asks for it.
So whatever a pointer does in a world it would have done just the same after some more reads,
and these stay on the count: executing a cell commutes with `World.countReads`
(`Execute.cell_countReads`).
-/

namespace Befunge

/-! ## Memories and moves -/

namespace Memory

theorem countReads_comm (m : Memory) (n k : Nat) :
    (m.countReads n).countReads k = (m.countReads k).countReads n := by
  simp only [countReads, Nat.add_right_comm]

theorem get_countReads (m : Memory) (n : Nat) (p : Vec) :
    (m.countReads n).get p = ((m.get p).1, (m.get p).2.countReads n) :=
  Prod.ext rfl (m.countReads_comm n 1)

theorem placeRow_countReads (row : List Char) :
    ∀ (m : Memory) (n : Nat) (p : Vec),
      (m.countReads n).placeRow p row = (m.placeRow p row).countReads n := by
  induction row with
  | nil =>
      intro m n p
      rfl
  | cons c row ih =>
      intro m n p
      simp only [placeRow]
      split
      · exact ih m n _
      · exact ih (m.put p (Cell.ofChar c)) n _

theorem placeRows_countReads (rows : List (List Char)) :
    ∀ (m : Memory) (n : Nat) (p : Vec),
      (m.countReads n).placeRows p rows = (m.placeRows p rows).countReads n := by
  induction rows with
  | nil =>
      intro m n p
      rfl
  | cons row rows ih =>
      intro m n p
      rw [placeRows, placeRow_countReads, ih]
      rfl

theorem place_countReads (m : Memory) (n : Nat) (text : List Char) (origin : Vec)
    (linear : Bool) :
    (m.countReads n).place text origin linear =
      ((m.place text origin linear).1, (m.place text origin linear).2.countReads n) :=
  Prod.ext rfl (placeRows_countReads _ m n origin)

end Memory

namespace Pointer

theorem findCommand_countReads (ip : Pointer) (m : Memory) (n : Nat) :
    ip.findCommand (m.countReads n) = ((ip.findCommand m).1, (ip.findCommand m).2.countReads n) :=
  Prod.ext rfl (m.countReads_comm n _)

theorem skipBlanks_countReads (ip : Pointer) (m : Memory) (n : Nat) :
    ip.skipBlanks (m.countReads n) = ((ip.skipBlanks m).1, (ip.skipBlanks m).2.countReads n) :=
  Prod.ext rfl (m.countReads_comm n _)

theorem advance_countReads (ip : Pointer) (m : Memory) (n : Nat) (collapse : Bool) :
    ip.advance (m.countReads n) collapse =
      ((ip.advance m collapse).1, (ip.advance m collapse).2.countReads n) := by
  have hspace : (m.countReads n).space = m.space := rfl
  simp only [advance, hspace, findCommand_countReads, skipBlanks_countReads]
  split
  · rfl
  · split <;> rfl

theorem peekCommand_countReads (ip : Pointer) (m : Memory) (n : Nat) :
    ip.peekCommand (m.countReads n) =
      ((ip.peekCommand m).1, (ip.peekCommand m).2.countReads n) := by
  have hspace : (m.countReads n).space = m.space := rfl
  simp only [peekCommand, hspace, findCommand_countReads, Memory.get_countReads]

end Pointer

/-! ## Worlds -/

/-- The world after some more reads. -/
def World.countReads (w : World) (n : Nat) : World := w.withMemory (w.memory.countReads n)

/-- The same with some more reads. -/
def Outcome.countReads (r : Outcome) (n : Nat) : Outcome :=
  ⟨r.pointer, r.world.countReads n, r.fault⟩

@[simp] theorem Outcome.countReads_pointer (r : Outcome) (n : Nat) :
    (r.countReads n).pointer = r.pointer := rfl

@[simp] theorem Outcome.countReads_isOver (r : Outcome) (n : Nat) :
    (r.countReads n).isOver = r.isOver := rfl

namespace World

variable (w : World) (n : Nat)

@[simp] theorem countReads_memory : (w.countReads n).memory = w.memory.countReads n := rfl

@[simp] theorem countReads_space : (w.countReads n).space = w.space := rfl

@[simp] theorem countReads_console : (w.countReads n).console = w.console := rfl

@[simp] theorem countReads_registry : (w.countReads n).registry = w.registry := rfl

theorem countReads_withMemory (m : Memory) :
    (w.countReads n).withMemory (m.countReads n) = (w.withMemory m).countReads n := rfl

theorem split_countReads (ip : Pointer) :
    (w.countReads n).split ip = (w.split ip).countReads n := by
  have hid : (w.countReads n).nextId = w.nextId := rfl
  simp only [split, hid, countReads_memory, Pointer.advance_countReads]
  rfl

theorem loadFile_countReads (name : String) :
    (w.countReads n).loadFile name = ((w.loadFile name).1, (w.loadFile name).2.countReads n) := by
  have hconfig : (w.countReads n).config = w.config := rfl
  simp only [loadFile, hconfig]
  cases w.config.files <;> rfl

theorem saveFile_countReads (name : String) (data : ByteArray) (offset : Int) :
    (w.countReads n).saveFile name data offset =
      ((w.saveFile name data offset).1, (w.saveFile name data offset).2.countReads n) := by
  have hconfig : (w.countReads n).config = w.config := rfl
  simp only [saveFile, hconfig]
  cases w.config.files <;> rfl

theorem runCommand_countReads (text : String) :
    (w.countReads n).runCommand text =
      ((w.runCommand text).1, (w.runCommand text).2.countReads n) := by
  have hconfig : (w.countReads n).config = w.config := rfl
  simp only [runCommand, hconfig]
  cases w.config.commands with
  | deny => rfl
  | real => by_cases htext : text.toList.any (·.toNat = 0) <;> simp only [htext] <;> rfl

end World

/-! ## Commands -/

namespace Execute

variable (ip : Pointer) (w : World) (n : Nat)

theorem fetch_countReads : fetch ip (w.countReads n) = (fetch ip w).countReads n := by
  simp only [fetch, World.countReads_memory, World.countReads_space, Memory.get_countReads]
  rfl

theorem get_countReads : get ip (w.countReads n) = (get ip w).countReads n := by
  simp only [get, World.countReads_memory, Memory.get_countReads]
  rfl

theorem afterWriting_countReads (result : Except WriteError Console) :
    afterWriting ip (w.countReads n) result = (afterWriting ip w result).countReads n := by
  cases result with
  | ok console => rfl
  | error e =>
      cases e with
      | character e => cases e <;> rfl
      | number e => rfl
      | stream e => rfl

theorem readChar_countReads : readChar ip (w.countReads n) = (readChar ip w).countReads n := by
  simp only [readChar, World.countReads_console]
  cases w.console.readChar.1 <;> rfl

theorem readInteger_countReads :
    readInteger ip (w.countReads n) = (readInteger ip w).countReads n := by
  simp only [readInteger, World.countReads_console]
  cases w.console.readInteger.1 with
  | ok v => rfl
  | error e => cases e <;> rfl

theorem inputFile_countReads : inputFile ip (w.countReads n) = (inputFile ip w).countReads n := by
  simp only [inputFile]
  cases ip.popText.1 with
  | none => rfl
  | some name =>
      simp only [World.loadFile_countReads]
      cases w.loadFile (String.ofList name) with
      | mk result w' =>
          cases result with
          | error e => rfl
          | ok data =>
              simp only [World.countReads_memory, Memory.place_countReads]
              rfl

theorem outputFile_countReads :
    outputFile ip (w.countReads n) = (outputFile ip w).countReads n := by
  simp only [outputFile]
  cases ip.popText.1 with
  | none => rfl
  | some name =>
      simp only [World.saveFile_countReads, World.countReads_space]
      split
      · rfl
      · generalize w.saveFile (String.ofList name) _ 0 = saved
        obtain ⟨result, w'⟩ := saved
        cases result <;> rfl

theorem execute_countReads : execute ip (w.countReads n) = (execute ip w).countReads n := by
  simp only [execute]
  cases ip.popText.1 with
  | none => rfl
  | some text =>
      simp only [World.runCommand_countReads]
      cases w.runCommand (String.ofList text) with
      | mk result w' => cases result <;> rfl

theorem loadFingerprint_countReads :
    loadFingerprint ip (w.countReads n) = (loadFingerprint ip w).countReads n := by
  simp only [loadFingerprint, World.countReads_registry]
  cases (popCode ip).1 with
  | none => rfl
  | some code =>
      simp only
      cases w.registry.find code <;> rfl

theorem unloadFingerprint_countReads :
    unloadFingerprint ip (w.countReads n) = (unloadFingerprint ip w).countReads n := by
  simp only [unloadFingerprint, World.countReads_registry]
  cases (popCode ip).1.bind w.registry.find <;> rfl

/-! ### Repetition -/

variable {ip w n}

theorem repeated_countReads {act : Pointer → World → Outcome}
    (hact : ∀ ip w, act ip (w.countReads n) = (act ip w).countReads n) (times : Nat) :
    ∀ ip w, repeated act times ip (w.countReads n) = (repeated act times ip w).countReads n := by
  induction times with
  | zero =>
      intro ip w
      rfl
  | succ times ih =>
      intro ip w
      simp only [repeated, hact, Outcome.countReads_isOver]
      split
      · rfl
      · exact ih _ _

theorem passOver_countReads (target : Vec) (r : Outcome) :
    passOver ip target (r.countReads n) = (passOver ip target r).countReads n := by
  simp only [passOver, apply_ite (Outcome.countReads · n)]
  rfl

theorem iterate_countReads {execute : Int → Pointer → World → Outcome}
    (hexecute : ∀ c ip w, execute c ip (w.countReads n) = (execute c ip w).countReads n) :
    iterate execute ip (w.countReads n) = (iterate execute ip w).countReads n := by
  simp only [iterate, World.countReads_memory, Pointer.peekCommand_countReads,
    World.countReads_withMemory, repeated_countReads (hexecute _), passOver_countReads]
  split
  · rfl
  · split <;> rfl

theorem run_countReads {repetition : Pointer → World → Outcome}
    (hrep : ∀ ip w, repetition ip (w.countReads n) = (repetition ip w).countReads n)
    (c : Command) :
    run repetition c ip (w.countReads n) = (run repetition c ip w).countReads n := by
  cases c with
  | iterate => exact hrep ip w
  | split => exact congrArg (Outcome.mk ip · none) (w.split_countReads n ip)
  | fetch => exact fetch_countReads ip w n
  | get => exact get_countReads ip w n
  | writeChar => exact afterWriting_countReads _ w n _
  | writeInteger => exact afterWriting_countReads _ w n _
  | readChar => exact readChar_countReads ip w n
  | readInteger => exact readInteger_countReads ip w n
  | inputFile => exact inputFile_countReads ip w n
  | outputFile => exact outputFile_countReads ip w n
  | execute => exact execute_countReads ip w n
  | loadFingerprint => exact loadFingerprint_countReads ip w n
  | unloadFingerprint => exact unloadFingerprint_countReads ip w n
  -- the other commands leave the count as it is
  | _ => rfl

theorem obey_countReads {repetition : Pointer → World → Outcome}
    (hrep : ∀ ip w, repetition ip (w.countReads n) = (repetition ip w).countReads n)
    (c : Int) (ip : Pointer) (w : World) :
    obey repetition c ip (w.countReads n) = (obey repetition c ip w).countReads n := by
  simp only [obey]
  cases Command.ofCell? c with
  | none => rfl
  | some c => exact run_countReads hrep c

theorem repetitionWithin_countReads (depth : Nat) :
    ∀ ip w, repetitionWithin depth ip (w.countReads n) =
      (repetitionWithin depth ip w).countReads n := by
  induction depth with
  | zero =>
      intro ip w
      rfl
  | succ depth ih =>
      intro ip w
      exact iterate_countReads (obey_countReads ih)

/-- Executing a cell is the same after some more reads. -/
theorem cell_countReads (c : Int) (ip : Pointer) (w : World) (n : Nat) :
    cell c ip (w.countReads n) = (cell c ip w).countReads n :=
  obey_countReads (repetitionWithin_countReads maxNesting) c ip w

end Execute

end Befunge
