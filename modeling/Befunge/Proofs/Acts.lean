import Befunge.Proofs.Rounds

/-!
# The acts of a tick

A tick is made of acts: cells that pointers obey, records that are shown, and pauses.  The
acts of a tick stand in a list, each with the pointer and the world it found, and a
repetition is followed in the list by the acts it consists of.

Two things are said of a tick by its acts.  It ends in the fault of one of them
(`Machine.tick_error_iff`), and what every act keeps is kept by the tick
(`Machine.Kept.tick`).
-/

namespace Befunge

/-- Something that is done in a tick, with what it finds. -/
inductive Act where
  /-- A pointer obeys a cell, and may nest repetitions `depth` deep. -/
  | obey (depth : Nat) (v : Int) (ip : Pointer) (w : World)
  /-- A record is shown. -/
  | tell (record : TraceRecord) (w : World)
  /-- A pause is made. -/
  | pause (w : World)

namespace Execute

/-- What repeating the next command does apart from the repetitions. -/
def refuseAt (depth : Nat) (ip : Pointer) (w : World) : Outcome :=
  ⟨ip.pop.2, w, if depth = 0 then some .nestedTooDeep else none⟩

/-- What obeying a cell does by itself.  The repetitions of a command are acts of their own. -/
def alone (depth : Nat) : Int → Pointer → World → Outcome := obey (refuseAt depth)

/-! ## Acts in order -/

def repeatedActs (act : Pointer → World → Outcome) (acts : Pointer → World → List Act) :
    Nat → Pointer → World → List Act
  | 0, _, _ => []
  | n + 1, ip, w =>
      let r := act ip w
      acts ip w ++ if r.isOver then [] else repeatedActs act acts n r.pointer r.world

def iterateActs (execute : Int → Pointer → World → Outcome)
    (acts : Int → Pointer → World → List Act) (ip : Pointer) (w : World) : List Act :=
  let (n, ip) := ip.pop
  let ((_, command), memory) := ip.peekCommand w.memory
  if n ≤ 0 then []
  else repeatedActs (execute command) (acts command) (times command n) ip (w.withMemory memory)

def obeyActs (depth : Nat) (repetition : Pointer → World → List Act) (v : Int) (ip : Pointer)
    (w : World) : List Act :=
  .obey depth v ip w :: if Command.ofCell? v = some .iterate then repetition ip w else []

def repetitionActs : Nat → Pointer → World → List Act
  | 0, _, _ => []
  | depth + 1, ip, w =>
      iterateActs (obey (repetitionWithin depth)) (obeyActs depth (repetitionActs depth)) ip w

/-- The acts of executing a cell. -/
def cellActs (v : Int) (ip : Pointer) (w : World) : List Act :=
  obeyActs maxNesting (repetitionActs maxNesting) v ip w

end Execute

namespace World

/-- The acts of a step.  Pushing a cell in string mode is none. -/
def stepActs (w : World) (ip : Pointer) : List Act :=
  let (v, memory) := w.memory.get ip.position
  if ip.stringMode then [] else Execute.cellActs v ip (w.withMemory memory)

/-- The acts that follow a step. -/
def tellActs (w : World) (record : TraceRecord) : List Act :=
  .tell record w ::
    match w.showRecord record with
    | .error _ => []
    | .ok () => [.pause w]

/-- The acts of a turn. -/
def performActs (w : World) (ip : Pointer) : List Act :=
  let (v, r) := w.step ip
  w.stepActs ip ++
    match r.fault with
    | some _ => []
    | none => (r.world.countInstruction (recordOf ip v r)).tellActs (recordOf ip v r)

/-- The acts of the turns of pointers. -/
def roundActs (w : World) : List Pointer → List Act
  | [] => []
  | ip :: rest =>
      let r := w.perform ip
      w.performActs ip ++
        if r.fault.isNone ∧ r.world.status = .running then r.world.roundActs rest else []

end World

/-- The acts of the next tick. -/
def Machine.acts (m : Machine) : List Act :=
  if m.world.status = .running ∧ m.budgetSpent = none then m.world.countTick.roundActs m.pointers
  else []

/-! ## Faults -/

/-- The fault of an act. -/
def Act.fault : Act → Option Fault
  | .obey depth v ip w => (Execute.alone depth v ip w).fault
  | .tell record w =>
      match w.showRecord record with
      | .error f => some f
      | .ok () => none
  | .pause w =>
      match w.pause with
      | .error f => some f
      | .ok _ => none

theorem Act.faults_cons (a : Act) (acts : List Act) :
    (a :: acts).filterMap Act.fault = a.fault.toList ++ acts.filterMap Act.fault := by
  cases h : a.fault <;> simp [h]

namespace Execute

/-- Only a repetition depends on what repeating means. -/
theorem run_congr {c : Command} (hc : c ≠ .iterate)
    (repetition repetition' : Pointer → World → Outcome) (ip : Pointer) (w : World) :
    run repetition c ip w = run repetition' c ip w := by
  cases c with
  | iterate => exact absurd rfl hc
  | _ => rfl

theorem alone_eq {depth : Nat} {v : Int} {c : Command} (hc : Command.ofCell? v = some c)
    (ip : Pointer) (w : World) : alone depth v ip w = run (refuseAt depth) c ip w := by
  simp [alone, obey, hc]

theorem obey_iterate {v : Int} (hv : Command.ofCell? v = some .iterate)
    (repetition : Pointer → World → Outcome) (ip : Pointer) (w : World) :
    obey repetition v ip w = repetition ip w := by
  simp [obey, hv, run]

theorem obey_eq_alone {v : Int} (hv : Command.ofCell? v ≠ some .iterate)
    (repetition : Pointer → World → Outcome) (depth : Nat) (ip : Pointer) (w : World) :
    obey repetition v ip w = alone depth v ip w := by
  simp only [alone, obey]
  cases hc : Command.ofCell? v with
  | none => rfl
  | some c =>
      refine run_congr ?_ repetition (refuseAt depth) ip w
      rintro rfl
      exact hv hc

theorem repeatedActs_faults {act : Pointer → World → Outcome}
    {acts : Pointer → World → List Act}
    (h : ∀ ip w, (acts ip w).filterMap Act.fault = (act ip w).fault.toList) (n : Nat) :
    ∀ ip w, (repeatedActs act acts n ip w).filterMap Act.fault =
      (repeated act n ip w).fault.toList := by
  induction n with
  | zero =>
      intro ip w
      rfl
  | succ n ih =>
      intro ip w
      simp only [repeatedActs, repeated, List.filterMap_append, h]
      split
      · simp
      next hover =>
        have hfault : (act ip w).fault = none := by
          simp [Outcome.isOver] at hover
          exact hover.1.1
        rw [ih, hfault]
        rfl

theorem passOver_fault (ip : Pointer) (target : Vec) (r : Outcome) :
    (passOver ip target r).fault = r.fault := by
  simp only [passOver]
  split
  · rfl
  · split <;> rfl

theorem iterateActs_faults {execute : Int → Pointer → World → Outcome}
    {acts : Int → Pointer → World → List Act}
    (h : ∀ c ip w, (acts c ip w).filterMap Act.fault = (execute c ip w).fault.toList)
    (ip : Pointer) (w : World) :
    (iterateActs execute acts ip w).filterMap Act.fault = (iterate execute ip w).fault.toList := by
  simp only [iterateActs, iterate]
  by_cases hzero : ip.pop.1 = 0
  · rw [if_pos (by omega), if_pos hzero]
    rfl
  · by_cases hneg : ip.pop.1 < 0
    · rw [if_pos (by omega), if_neg hzero, if_pos hneg]
      rfl
    · rw [if_neg (by omega), if_neg hzero, if_neg hneg, passOver_fault]
      exact repeatedActs_faults (h _) _ _ _

theorem obeyActs_faults {depth : Nat} {repetition : Pointer → World → Outcome}
    {acts : Pointer → World → List Act}
    (h : ∀ ip w, (refuseAt depth ip w).fault.toList ++ (acts ip w).filterMap Act.fault =
      (repetition ip w).fault.toList) (v : Int) (ip : Pointer) (w : World) :
    (obeyActs depth acts v ip w).filterMap Act.fault = (obey repetition v ip w).fault.toList := by
  rw [obeyActs, Act.faults_cons, Act.fault]
  by_cases hv : Command.ofCell? v = some .iterate
  · rw [if_pos hv, alone, obey_iterate hv, obey_iterate hv, h ip w]
  · rw [if_neg hv, obey_eq_alone hv repetition depth, List.filterMap_nil, List.append_nil]

theorem repetitionActs_faults (depth : Nat) :
    ∀ ip w, (refuseAt depth ip w).fault.toList ++
      (repetitionActs depth ip w).filterMap Act.fault =
        (repetitionWithin depth ip w).fault.toList := by
  induction depth with
  | zero =>
      intro ip w
      rfl
  | succ depth ih =>
      intro ip w
      exact iterateActs_faults (obeyActs_faults ih) ip w

theorem cellActs_faults (v : Int) (ip : Pointer) (w : World) :
    (cellActs v ip w).filterMap Act.fault = (cell v ip w).fault.toList :=
  obeyActs_faults (repetitionActs_faults maxNesting) v ip w

end Execute

namespace World

end World

namespace Machine

theorem acts_of_begins {m : Machine} (h : m.Begins) :
    m.acts = m.world.countTick.roundActs m.pointers :=
  if_pos ⟨h.running, h.unspent⟩

end Machine

/-! ## What acts keep -/

/-- A world in which no cell, no text of the console and no fingerprint has changed. -/
structure World.Untouched (w w' : World) : Prop where
  space : w'.space = w.space
  console : w'.console = w.console
  registry : w'.registry = w.registry

namespace World

variable {w w' : World}

theorem loadFile_untouched {name : String} {result : Except FileError ByteArray}
    (h : w.loadFile name = (result, w')) : w.Untouched w' := by
  obtain rfl : (w.loadFile name).2 = w' := congrArg Prod.snd h
  rw [loadFile]
  split <;> exact ⟨rfl, rfl, rfl⟩

theorem saveFile_untouched {name : String} {data : ByteArray} {offset : Int}
    {result : Except FileError Unit} (h : w.saveFile name data offset = (result, w')) :
    w.Untouched w' := by
  obtain rfl : (w.saveFile name data offset).2 = w' := congrArg Prod.snd h
  rw [saveFile]
  split <;> exact ⟨rfl, rfl, rfl⟩

theorem runCommand_untouched {text : String} {result : Except CommandError Int}
    (h : w.runCommand text = (result, w')) : w.Untouched w' := by
  obtain rfl : (w.runCommand text).2 = w' := congrArg Prod.snd h
  rw [runCommand]
  split
  · exact ⟨rfl, rfl, rfl⟩
  · split <;> exact ⟨rfl, rfl, rfl⟩

theorem Untouched.note (h : w.Untouched w') (e : Event) : w.Untouched (w'.note e) :=
  ⟨h.space, h.console, h.registry⟩

end World

/-- The commands that change cells or the console. -/
def Command.touching : List Command :=
  [.store, .put, .inputFile, .writeChar, .writeInteger, .readChar, .readInteger]

namespace Execute

theorem outputFile_untouched (ip : Pointer) (w : World) :
    w.Untouched (outputFile ip w).world := by
  simp only [outputFile]
  cases ip.popText.1 with
  | none => exact ⟨rfl, rfl, rfl⟩
  | some name =>
      simp only
      split
      · exact ⟨rfl, rfl, rfl⟩
      · split
        next hsave => exact (World.saveFile_untouched hsave).note _
        next hsave => exact World.saveFile_untouched hsave

theorem execute_untouched (ip : Pointer) (w : World) : w.Untouched (execute ip w).world := by
  simp only [execute]
  cases ip.popText.1 with
  | none => exact ⟨rfl, rfl, rfl⟩
  | some text =>
      simp only
      split
      next hrun => exact (World.runCommand_untouched hrun).note _
      next hrun => exact World.runCommand_untouched hrun

theorem loadFingerprint_untouched (ip : Pointer) (w : World) :
    w.Untouched (loadFingerprint ip w).world := by
  simp only [loadFingerprint]
  split
  · exact ⟨rfl, rfl, rfl⟩
  · split <;> exact ⟨rfl, rfl, rfl⟩

theorem unloadFingerprint_untouched (ip : Pointer) (w : World) :
    w.Untouched (unloadFingerprint ip w).world := by
  simp only [unloadFingerprint]
  split <;> exact ⟨rfl, rfl, rfl⟩

theorem run_untouched {c : Command} (hc : c ∉ Command.touching) (depth : Nat) (ip : Pointer)
    (w : World) : w.Untouched (run (refuseAt depth) c ip w).world := by
  cases c with
  | split => exact ⟨w.split_space ip, rfl, rfl⟩
  | outputFile => exact outputFile_untouched ip w
  | execute => exact execute_untouched ip w
  | loadFingerprint => exact loadFingerprint_untouched ip w
  | unloadFingerprint => exact unloadFingerprint_untouched ip w
  | store | put | inputFile | writeChar | writeInteger | readChar | readInteger =>
      simp [Command.touching] at hc
  | _ => exact ⟨rfl, rfl, rfl⟩

end Execute

/-- A property of pointers that depends on their stacks and on what letters mean to them, and one
of worlds that depends on the space, the console and the registry.  Pushing a cell of the
space, as string mode does, keeps the first one. -/
structure Lasting (Q : Pointer → Prop) (R : World → Prop) : Prop where
  pointer : ∀ {ip ip' : Pointer}, Q ip → ip'.pile = ip.pile → ip'.overlay = ip.overlay → Q ip'
  world : ∀ {w w' : World}, R w → w.Untouched w' → R w'
  quote : ∀ {ip : Pointer} {w : World} (p : Vec), Q ip → R w → Q (ip.push (w.space.read p))

/-- An act finds a pointer and a world of which the properties hold. -/
def Act.Finds (Q : Pointer → Prop) (R : World → Prop) : Act → Prop
  | .obey _ _ ip w => Q ip ∧ R w
  | .tell _ w => R w
  | .pause w => R w

/-- An act keeps what holds of the pointer and the world it finds. -/
def Act.Keeps (Q : Pointer → Prop) (R : World → Prop) : Act → Prop
  | .obey depth v ip w =>
      Q ip → R w → Q (Execute.alone depth v ip w).pointer ∧ R (Execute.alone depth v ip w).world
  | .tell .. => True
  | .pause .. => True

/-- What holds of a pointer and of the world, and of the pointers that were made in this tick. -/
structure World.Kept (Q : Pointer → Prop) (R : World → Prop) (ip : Pointer) (w : World) :
    Prop where
  pointer : Q ip
  world : R w
  spawned : ∀ child ∈ w.spawned, Q child

/-- What holds of all pointers of a machine and of its world. -/
structure Machine.Kept (Q : Pointer → Prop) (R : World → Prop) (m : Machine) : Prop where
  pointers : ∀ ip ∈ m.pointers, Q ip
  world : R m.world
  spawned : ∀ child ∈ m.world.spawned, Q child

/-- The properties hold all along some acts, and of what they leave. -/
structure Outcome.Keeps (Q : Pointer → Prop) (R : World → Prop) (acts : List Act) (r : Outcome) :
    Prop where
  found : ∀ a ∈ acts, a.Finds Q R
  kept : r.world.Kept Q R r.pointer

theorem Pointer.advance_pile (ip : Pointer) (m : Memory) (collapse : Bool) :
    (ip.advance m collapse).1.pile = ip.pile := by
  simp only [advance]
  split
  · rfl
  · split <;> rfl

theorem Pointer.advance_overlay (ip : Pointer) (m : Memory) (collapse : Bool) :
    (ip.advance m collapse).1.overlay = ip.overlay := by
  simp only [advance]
  split
  · rfl
  · split <;> rfl

section

variable {Q : Pointer → Prop} {R : World → Prop}

theorem Lasting.advance (hlasting : Lasting Q R) {ip : Pointer} (h : Q ip) (m : Memory)
    (collapse : Bool) : Q (ip.advance m collapse).1 :=
  hlasting.pointer h (ip.advance_pile m collapse) (ip.advance_overlay m collapse)

theorem Lasting.withMemory (hlasting : Lasting Q R) {ip : Pointer} {w : World}
    (h : w.Kept Q R ip) {m : Memory} (hspace : m.space = w.space) : (w.withMemory m).Kept Q R ip :=
  ⟨h.pointer, hlasting.world h.world ⟨hspace, rfl, rfl⟩, h.spawned⟩

namespace Execute

/-- Only a split makes a pointer. -/
theorem alone_spawned (depth : Nat) (v : Int) (ip : Pointer) (w : World) :
    (alone depth v ip w).world.spawned = w.spawned ∨
      (alone depth v ip w).world.spawned = w.child ip :: w.spawned := by
  simp only [alone, obey]
  cases Command.ofCell? v with
  | none => exact .inl rfl
  | some c =>
      cases c with
      | split => exact .inr rfl
      | writeChar => exact .inl (writeChar_errand ip w).world.spawned
      | writeInteger => exact .inl (writeInteger_errand ip w).world.spawned
      | readChar => exact .inl (readChar_errand ip w).world.spawned
      | readInteger => exact .inl (readInteger_errand ip w).world.spawned
      | inputFile => exact .inl (inputFile_errand ip w).world.spawned
      | outputFile => exact .inl (outputFile_errand ip w).world.spawned
      | execute => exact .inl (execute_errand ip w).world.spawned
      | loadFingerprint => exact .inl (loadFingerprint_errand ip w).world.spawned
      | unloadFingerprint => exact .inl (unloadFingerprint_errand ip w).world.spawned
      | _ => exact .inl rfl

theorem alone_kept (hlasting : Lasting Q R) {depth : Nat} {v : Int} {ip : Pointer} {w : World}
    (hact : (Act.obey depth v ip w).Keeps Q R) (h : w.Kept Q R ip) :
    (alone depth v ip w).world.Kept Q R (alone depth v ip w).pointer := by
  obtain ⟨hpointer, hworld⟩ := hact h.pointer h.world
  refine ⟨hpointer, hworld, fun child hchild => ?_⟩
  have hclone : Q (ip.clone w.nextId).reflect := hlasting.pointer h.pointer rfl rfl
  rcases alone_spawned depth v ip w with hspawned | hspawned <;> rw [hspawned] at hchild
  · exact h.spawned child hchild
  · rcases List.mem_cons.mp hchild with rfl | hchild
    · exact hlasting.advance hclone _ _
    · exact h.spawned child hchild

theorem repeated_keeps {act : Pointer → World → Outcome} {acts : Pointer → World → List Act}
    (hact : ∀ ip w, (∀ a ∈ acts ip w, a.Keeps Q R) → w.Kept Q R ip →
      (act ip w).Keeps Q R (acts ip w)) (n : Nat) :
    ∀ ip w, (∀ a ∈ repeatedActs act acts n ip w, a.Keeps Q R) → w.Kept Q R ip →
      (repeated act n ip w).Keeps Q R (repeatedActs act acts n ip w) := by
  induction n with
  | zero =>
      intro ip w _ h
      exact ⟨by simp [repeatedActs], h⟩
  | succ n ih =>
      intro ip w hacts h
      simp only [repeatedActs, List.forall_mem_append] at hacts
      have hfirst := hact ip w hacts.1 h
      simp only [repeated, repeatedActs]
      split
      · exact ⟨by simpa using hfirst.found, hfirst.kept⟩
      next hover =>
        rw [if_neg hover] at hacts
        have hrest := ih _ _ hacts.2 hfirst.kept
        exact ⟨List.forall_mem_append.mpr ⟨hfirst.found, hrest.found⟩, hrest.kept⟩

theorem passOver_keeps (hlasting : Lasting Q R) (ip : Pointer) (target : Vec) {acts : List Act}
    {r : Outcome} (h : r.Keeps Q R acts) : (passOver ip target r).Keeps Q R acts := by
  simp only [passOver]
  split
  · exact h
  · split
    · exact ⟨h.found, hlasting.pointer h.kept.pointer rfl rfl, h.kept.world, h.kept.spawned⟩
    · exact h

/-- The count of a repetition is gone from the stack before anything is repeated. -/
theorem iterate_keeps (hlasting : Lasting Q R) {execute : Int → Pointer → World → Outcome}
    {acts : Int → Pointer → World → List Act}
    (hact : ∀ c ip w, (∀ a ∈ acts c ip w, a.Keeps Q R) → w.Kept Q R ip →
      (execute c ip w).Keeps Q R (acts c ip w))
    {ip : Pointer} {w : World} (hacts : ∀ a ∈ iterateActs execute acts ip w, a.Keeps Q R)
    (h : w.Kept Q R ip.pop.2) :
    (iterate execute ip w).Keeps Q R (iterateActs execute acts ip w) := by
  have hread : (w.withMemory (ip.pop.2.peekCommand w.memory).2).Kept Q R ip.pop.2 :=
    hlasting.withMemory h rfl
  simp only [iterateActs] at hacts
  simp only [iterate, iterateActs]
  by_cases hzero : ip.pop.1 = 0
  · rw [if_pos (by omega), if_pos hzero]
    exact ⟨by simp, hlasting.pointer hread.pointer rfl rfl, hread.world, hread.spawned⟩
  · by_cases hneg : ip.pop.1 < 0
    · rw [if_pos (by omega), if_neg hzero, if_pos hneg]
      exact ⟨by simp, hread⟩
    · rw [if_neg (by omega)] at hacts
      rw [if_neg (by omega), if_neg hzero, if_neg hneg]
      exact passOver_keeps hlasting _ _ (repeated_keeps (hact _) _ _ _ hacts hread)

theorem obey_keeps (hlasting : Lasting Q R) {depth : Nat}
    {repetition : Pointer → World → Outcome} {acts : Pointer → World → List Act}
    (hrep : ∀ ip w, (∀ a ∈ acts ip w, a.Keeps Q R) → w.Kept Q R ip.pop.2 →
      (repetition ip w).Keeps Q R (acts ip w))
    (v : Int) (ip : Pointer) (w : World) (hacts : ∀ a ∈ obeyActs depth acts v ip w, a.Keeps Q R)
    (h : w.Kept Q R ip) : (obey repetition v ip w).Keeps Q R (obeyActs depth acts v ip w) := by
  have hfinds : (Act.obey depth v ip w).Finds Q R := ⟨h.pointer, h.world⟩
  simp only [obeyActs, List.forall_mem_cons] at hacts
  have halone := alone_kept hlasting hacts.1 h
  rw [obeyActs]
  by_cases hv : Command.ofCell? v = some .iterate
  · rw [alone, obey_iterate hv] at halone
    rw [if_pos hv] at hacts ⊢
    have hrest := hrep ip w hacts.2 halone
    rw [obey_iterate hv]
    exact ⟨List.forall_mem_cons.mpr ⟨hfinds, hrest.found⟩, hrest.kept⟩
  · rw [if_neg hv, obey_eq_alone hv repetition depth]
    exact ⟨List.forall_mem_singleton.mpr hfinds, halone⟩

theorem repetitionWithin_keeps (hlasting : Lasting Q R) (depth : Nat) :
    ∀ ip w, (∀ a ∈ repetitionActs depth ip w, a.Keeps Q R) → w.Kept Q R ip.pop.2 →
      (repetitionWithin depth ip w).Keeps Q R (repetitionActs depth ip w) := by
  induction depth with
  | zero =>
      intro ip w _ h
      exact ⟨by simp [repetitionActs], h⟩
  | succ depth ih =>
      intro ip w hacts h
      exact iterate_keeps hlasting (obey_keeps hlasting ih) hacts h

end Execute

namespace World

theorem step_keeps (hlasting : Lasting Q R) {w : World} {ip : Pointer}
    (hacts : ∀ a ∈ w.stepActs ip, a.Keeps Q R) (h : w.Kept Q R ip) :
    (w.step ip).2.Keeps Q R (w.stepActs ip) := by
  have hread : (w.withMemory (w.memory.get ip.position).2).Kept Q R ip :=
    hlasting.withMemory h rfl
  simp only [stepActs] at hacts
  simp only [step, stepActs]
  split
  next hmode =>
    refine ⟨by simp, hlasting.withMemory ⟨hlasting.advance ?_ _ _, hread.world, hread.spawned⟩
      (Pointer.advance_moved _ _ _).space⟩
    split
    · exact hlasting.pointer h.pointer rfl rfl
    · exact hlasting.quote ip.position h.pointer h.world
  next hmode =>
    rw [if_neg hmode] at hacts
    have hcell : (Execute.cell _ ip _).Keeps Q R (Execute.cellActs _ ip _) :=
      Execute.obey_keeps hlasting
        (Execute.repetitionWithin_keeps hlasting Execute.maxNesting) _ ip _ hacts hread
    split
    · have hkept := hcell.kept
      exact ⟨hcell.found,
        hlasting.withMemory ⟨hlasting.advance hkept.pointer _ _, hkept.world, hkept.spawned⟩
          (Pointer.advance_moved _ _ _).space⟩
    · exact hcell

theorem tellActs_finds {w : World} (h : R w) (record : TraceRecord) :
    ∀ a ∈ w.tellActs record, a.Finds Q R := by
  simp only [tellActs]
  cases w.showRecord record with
  | error f => exact List.forall_mem_singleton.mpr h
  | ok _ => exact List.forall_mem_cons.mpr ⟨h, List.forall_mem_singleton.mpr h⟩

theorem perform_keeps (hlasting : Lasting Q R) {w : World} {ip : Pointer}
    (hacts : ∀ a ∈ w.performActs ip, a.Keeps Q R) (h : w.Kept Q R ip) :
    (w.perform ip).Keeps Q R (w.performActs ip) := by
  simp only [performActs, List.forall_mem_append] at hacts
  have hstep := step_keeps hlasting hacts.1 h
  simp only [perform, performActs]
  generalize w.step ip = vr at hstep
  obtain ⟨v, ip', w', fault⟩ := vr
  cases fault with
  | some f => exact ⟨by simpa using hstep.found, hstep.kept⟩
  | none =>
      let record := recordOf ip v ⟨ip', w', none⟩
      have hcounted : R (w'.countInstruction record) :=
        hlasting.world hstep.kept.world ⟨rfl, rfl, rfl⟩
      have hkept (pauses : Nat) : World.Kept Q R ip'
          { w'.countInstruction record with pauses := pauses } :=
        ⟨hstep.kept.pointer, hlasting.world hcounted ⟨rfl, rfl, rfl⟩, hstep.kept.spawned⟩
      refine ⟨List.forall_mem_append.mpr ⟨hstep.found, tellActs_finds hcounted record⟩, ?_⟩
      simp only [pause]
      split
      · exact hkept _
      · split
        next hpause =>
          split at hpause
          · cases hpause
            exact hkept _
          · split at hpause <;> cases hpause
            exact hkept _
        · exact hkept _

theorem round_keeps (hlasting : Lasting Q R) (ps : List Pointer) :
    ∀ w : World, (∀ a ∈ w.roundActs ps, a.Keeps Q R) → Machine.Kept Q R ⟨w, ps⟩ →
      (∀ a ∈ w.roundActs ps, a.Finds Q R) ∧
        Machine.Kept Q R ⟨(w.round ps).world, (w.round ps).pointers⟩ := by
  induction ps with
  | nil =>
      intro w _ h
      exact ⟨by simp [roundActs], h⟩
  | cons ip rest ih =>
      intro w hacts h
      have hpointers := List.forall_mem_cons.mp h.pointers
      simp only [roundActs, List.forall_mem_append] at hacts
      obtain ⟨hfound, hturn⟩ := perform_keeps hlasting hacts.1 ⟨hpointers.1, h.world, h.spawned⟩
      have hbroken : ∀ q ∈ (w.perform ip).pointer :: rest, Q q :=
        List.forall_mem_cons.mpr ⟨hturn.pointer, hpointers.2⟩
      simp only [round, roundActs]
      cases hfault : (w.perform ip).fault with
      | some f => exact ⟨by simpa using hfound, hbroken, hturn.world, hturn.spawned⟩
      | none =>
          by_cases hstatus : (w.perform ip).world.status = .running
          · rw [if_pos ⟨by rw [hfault]; rfl, hstatus⟩] at hacts
            obtain ⟨hrest, hkept⟩ := ih _ hacts.2 ⟨hpointers.2, hturn.world, hturn.spawned⟩
            rw [if_pos ⟨rfl, hstatus⟩, if_pos hstatus]
            exact ⟨List.forall_mem_append.mpr ⟨hfound, hrest⟩,
              List.forall_mem_cons.mpr ⟨hturn.pointer, hkept.pointers⟩, hkept.world, hkept.spawned⟩
          · rw [if_neg (fun h => hstatus h.2), if_neg hstatus]
            exact ⟨by simpa using hfound, hbroken, hturn.world, hturn.spawned⟩

end World

namespace Machine

/-- What every act of a tick keeps is kept by the tick. -/
theorem Kept.tick (hlasting : Lasting Q R) {m : Machine} (h : m.Kept Q R)
    (hacts : ∀ a ∈ m.acts, a.Keeps Q R) : m.tick.2.Kept Q R := by
  have hturns (hbegins : m.Begins) : Machine.Kept Q R ⟨m.turns.world, m.turns.pointers⟩ := by
    rw [acts_of_begins hbegins] at hacts
    exact (World.round_keeps hlasting m.pointers m.world.countTick hacts
      ⟨h.pointers, hlasting.world h.world ⟨rfl, rfl, rfl⟩, h.spawned⟩).2
  have hkind := m.tick_kind
  generalize m.tick = answer at hkind
  obtain ⟨result, m'⟩ := answer
  cases hkind with
  | idle _ => exact h
  | exhausted _ _ _ => exact ⟨h.pointers, hlasting.world h.world ⟨rfl, rfl, rfl⟩, h.spawned⟩
  | broken _ hbegins _ => exact hturns hbegins
  | ended hbegins _ =>
      exact ⟨by simp, hlasting.world (hturns hbegins).world ⟨rfl, rfl, rfl⟩, by simp⟩
  | emptied hbegins _ _ =>
      exact ⟨by simp, hlasting.world (hturns hbegins).world ⟨rfl, rfl, rfl⟩,
        fun _ hip => absurd hip (by simp [World.ended, World.countPointers])⟩
  | settled hbegins _ _ =>
      refine ⟨fun ip hip => ?_, hlasting.world (hturns hbegins).world ⟨rfl, rfl, rfl⟩,
        fun _ hip => absurd hip (by simp [World.countPointers])⟩
      rcases List.mem_append.mp hip with hip | hip
      · exact (hturns hbegins).pointers ip (List.mem_filter.mp hip).1
      · exact (hturns hbegins).spawned ip (List.mem_reverse.mp hip)

/-- What every act of the first `n` ticks keeps holds after them. -/
theorem Kept.after (hlasting : Lasting Q R) {m : Machine} (h : m.Kept Q R) {n : Nat}
    (hacts : ∀ k < n, ∀ a ∈ (m.after k).acts, a.Keeps Q R) : (m.after n).Kept Q R := by
  induction n with
  | zero => exact h
  | succ n ih =>
      have hbefore := ih fun k hk => hacts k (Nat.lt_succ_of_lt hk)
      rw [after_succ]
      exact hbefore.tick hlasting (hacts n (Nat.lt_succ_self n))

theorem start_kept (hlasting : Lasting Q R) {w : World} (hfirst : Q { id := w.nextId })
    (hworld : R w) (hspawned : w.spawned = []) : (start w).Kept Q R where
  pointers ip hip := by
    rw [List.mem_singleton.mp hip]
    exact hlasting.pointer hfirst rfl rfl
  world := hlasting.world hworld ⟨rfl, rfl, rfl⟩
  spawned child hchild := by
    have hnone : (start w).world.spawned = w.spawned := rfl
    rw [hnone, hspawned] at hchild
    cases hchild

end Machine

end

/-! ## Consoles -/

/-- A property of consoles that reading and writing keep. -/
structure Console.Lasting (P : Console → Prop) : Prop where
  readChar : ∀ {c : Console}, P c → P c.readChar.2
  readInteger : ∀ {c : Console}, P c → P c.readInteger.2
  writeChar : ∀ {c c' : Console} {v : Int}, P c → c.writeChar v = .ok c' → P c'
  writeInteger : ∀ {c c' : Console} {v : Int}, P c → c.writeInteger v = .ok c' → P c'

section

variable {P : Console → Prop}

/-- Characters and numbers are written to the output as texts. -/
theorem Console.Lasting.of_write (readChar : ∀ {c : Console}, P c → P c.readChar.2)
    (readInteger : ∀ {c : Console}, P c → P c.readInteger.2)
    (write : ∀ {c : Console} {text : String} {output : Output}, P c →
      c.output.write text = .ok output → P { c with output }) : Console.Lasting P := by
  have htext {c c' : Console} {text : String} (h : P c)
      (hwrite : (c.write text).mapError WriteError.stream = .ok c') : P c' := by
    rw [Console.write] at hwrite
    cases houtput : c.output.write text with
    | error e =>
        rw [houtput] at hwrite
        cases hwrite
    | ok output =>
        rw [houtput] at hwrite
        cases hwrite
        exact write h houtput
  refine ⟨readChar, readInteger, ?_, ?_⟩
  · intro c c' v h hwrite
    rw [Console.writeChar] at hwrite
    split at hwrite
    · cases hwrite
    · exact htext h hwrite
  · intro c c' v h hwrite
    rw [Console.writeInteger] at hwrite
    split at hwrite
    · cases hwrite
    · exact htext h hwrite

namespace Execute

theorem afterWriting_console (ip : Pointer) {w : World} (h : P w.console)
    {result : Except WriteError Console} (hresult : ∀ c, result = .ok c → P c) :
    P (afterWriting ip w result).world.console := by
  cases result with
  | ok console => exact hresult console rfl
  | error e =>
      cases e with
      | character e => cases e <;> exact h
      | number e => exact h
      | stream e => exact h

theorem inputFile_console (ip : Pointer) (w : World) :
    (inputFile ip w).world.console = w.console := by
  simp only [inputFile]
  split
  · rfl
  · split
    next hload => exact (World.loadFile_untouched hload).console
    next hload => exact (World.loadFile_untouched hload).console

/-- No command does more to the console than reading and writing. -/
theorem alone_console (hlasting : Console.Lasting P) {w : World} (h : P w.console) (depth : Nat)
    (v : Int) (ip : Pointer) : P (alone depth v ip w).world.console := by
  cases hc : Command.ofCell? v with
  | none =>
      simp only [alone, obey, hc]
      exact h
  | some c =>
      rw [alone_eq hc]
      cases c with
      | store | put => exact h
      | inputFile =>
          simp only [run]
          rw [inputFile_console]
          exact h
      | writeChar => exact afterWriting_console _ h fun _ => hlasting.writeChar h
      | writeInteger => exact afterWriting_console _ h fun _ => hlasting.writeInteger h
      | readChar =>
          have hread := hlasting.readChar h
          simp only [run, readChar]
          split <;> exact hread
      | readInteger =>
          have hread := hlasting.readInteger h
          simp only [run, readInteger]
          split <;> exact hread
      | _ =>
          rw [(run_untouched (by simp [Command.touching]) depth ip w).console]
          exact h

end Execute

theorem Console.Lasting.lasting (_ : Console.Lasting P) :
    Befunge.Lasting (fun _ => True) (fun w => P w.console) where
  pointer _ _ _ := trivial
  world h huntouched := huntouched.console ▸ h
  quote _ _ _ := trivial

theorem Console.Lasting.keeps (hlasting : Console.Lasting P) (a : Act) :
    a.Keeps (fun _ => True) (fun w => P w.console) := by
  cases a with
  | obey depth v ip w => exact fun _ h => ⟨trivial, Execute.alone_console hlasting h depth v ip⟩
  | tell => trivial
  | pause => trivial

/-- What reading and writing keep holds of the console after every run. -/
theorem Machine.after_kept_console (hlasting : Console.Lasting P) (setup : Setup)
    (source : Source) {console : Console} (h : P console) (n : Nat) :
    ((setup.load source console).after n).Kept (fun _ => True) (fun w => P w.console) := by
  have hstart : (setup.load source console).Kept (fun _ => True) (fun w => P w.console) :=
    start_kept hlasting.lasting trivial h rfl
  exact hstart.after hlasting.lasting fun _ _ a _ => hlasting.keeps a

end

end Befunge
