import Befunge.Execute
import Befunge.Proofs.Courses

/-!
# What a pointer does in its turn

Of all that commands do, the scheduler takes notice of three deeds: a pointer makes a
second one, it stops, or it ends the program.  Everything else is an errand, which changes
the stacks of the pointer, its place, the cells and the devices, but none of the books.

`Deeds ip w ip' w'` says that a pointer and the world came from `ip` and `w` to `ip'` and
`w'` by errands and deeds.  Executing a cell is of this kind whatever the cell is
(`Execute.cell_deeds`), with repetitions nested to any depth, and so is a whole step
(`World.step_deeds`).  A fact about the scheduler is proved by induction on `Deeds`, in
five cases, and not by going through the commands.
-/

namespace Befunge

/-! ## Boxes only grow -/

theorem Bounds.mem_extend {b : Bounds} {p : Vec} (q : Vec) (hp : p ∈ b) : p ∈ b.extend q := by
  rw [Bounds.mem_def] at hp ⊢
  simp only [Bounds.extend]
  omega

theorem Space.mem_bounds_put {s : Space} {p : Vec} (q : Vec) (v : Int) (hp : p ∈ s.bounds) :
    p ∈ (s.put q v).bounds := by
  simp only [Space.put]
  split
  · exact hp
  · simp only [Space.store]
    split
    · exact hp
    · exact Bounds.mem_extend q hp

namespace Memory

theorem mem_bounds_placeRow {p : Vec} (row : List Char) :
    ∀ (m : Memory) (q : Vec), p ∈ m.space.bounds → p ∈ (m.placeRow q row).space.bounds := by
  induction row with
  | nil =>
      intro m q hp
      exact hp
  | cons c row ih =>
      intro m q hp
      refine ih _ _ ?_
      split
      · exact hp
      · exact Space.mem_bounds_put q _ hp

theorem mem_bounds_placeRows {p : Vec} (rows : List (List Char)) :
    ∀ (m : Memory) (q : Vec), p ∈ m.space.bounds → p ∈ (m.placeRows q rows).space.bounds := by
  induction rows with
  | nil =>
      intro m q hp
      exact hp
  | cons row rows ih =>
      intro m q hp
      exact ih _ _ (mem_bounds_placeRow row m q hp)

/-- Placing a text takes no point out of the box. -/
theorem mem_bounds_place {m : Memory} {p : Vec} (text : List Char) (origin : Vec)
    (linear : Bool) (hp : p ∈ m.space.bounds) :
    p ∈ (m.place text origin linear).2.space.bounds :=
  mem_bounds_placeRows _ m origin hp

end Memory

/-! ## Errands -/

namespace World

/-- What an errand leaves of the world: the books of the scheduler, and every point of the
box.  What it enters into the journal is not about the scheduler. -/
structure Undisturbed (w w' : World) : Prop where
  config : w'.config = w.config
  spawned : w'.spawned = w.spawned
  nextId : w'.nextId = w.nextId
  status : w'.status = w.status
  exitCode : w'.exitCode = w.exitCode
  tally : w'.tally = w.tally
  bounds : ∀ p ∈ w.space.bounds, p ∈ w'.space.bounds
  /-- Only events of other parts were entered into the journal. -/
  journal : ∃ remarks, w'.journal = remarks ++ w.journal ∧ ∀ e ∈ remarks, e.channel ≠ .machine

namespace Undisturbed

theorem refl (w : World) : Undisturbed w w :=
  ⟨rfl, rfl, rfl, rfl, rfl, rfl, fun _ hp => hp, [], rfl, by simp⟩

theorem trans {w w₁ w₂ : World} (h₁ : Undisturbed w w₁) (h₂ : Undisturbed w₁ w₂) :
    Undisturbed w w₂ where
  config := h₂.config.trans h₁.config
  spawned := h₂.spawned.trans h₁.spawned
  nextId := h₂.nextId.trans h₁.nextId
  status := h₂.status.trans h₁.status
  exitCode := h₂.exitCode.trans h₁.exitCode
  tally := h₂.tally.trans h₁.tally
  bounds p hp := h₂.bounds p (h₁.bounds p hp)
  journal := by
    obtain ⟨early, hearly, hremark₁⟩ := h₁.journal
    obtain ⟨late, hlate, hremark₂⟩ := h₂.journal
    refine ⟨late ++ early, by rw [hlate, hearly, List.append_assoc], ?_⟩
    intro e he
    rcases List.mem_append.mp he with he | he
    · exact hremark₂ e he
    · exact hremark₁ e he

theorem withMemory (w : World) {m : Memory}
    (h : ∀ p ∈ w.space.bounds, p ∈ m.space.bounds) : Undisturbed w (w.withMemory m) :=
  ⟨rfl, rfl, rfl, rfl, rfl, rfl, h, [], rfl, by simp⟩

/-- A memory with the same space was only read. -/
theorem withRead (w : World) {m : Memory} (h : m.space = w.space) :
    Undisturbed w (w.withMemory m) :=
  withMemory w (fun _ hp => by rw [h]; exact hp)

theorem withConsole (w : World) (console : Console) : Undisturbed w (w.withConsole console) :=
  ⟨rfl, rfl, rfl, rfl, rfl, rfl, fun _ hp => hp, [], rfl, by simp⟩

theorem withFiles (w : World) (files : FileTree) : Undisturbed w { w with files := files } :=
  ⟨rfl, rfl, rfl, rfl, rfl, rfl, fun _ hp => hp, [], rfl, by simp⟩

theorem note (w : World) {e : Event} (he : e.channel ≠ .machine) : Undisturbed w (w.note e) :=
  ⟨rfl, rfl, rfl, rfl, rfl, rfl, fun _ hp => hp, [e], rfl, by simpa using he⟩

theorem roll (w : World) : Undisturbed w w.roll.2 :=
  ⟨rfl, rfl, rfl, rfl, rfl, rfl, fun _ hp => hp, [], rfl, by simp⟩

theorem afterReport (w : World) : Undisturbed w w.afterReport :=
  ⟨rfl, rfl, rfl, rfl, rfl, rfl, fun _ hp => hp, [], rfl, by simp⟩

theorem loadFile {w w' : World} {name : String} {result : Except FileError ByteArray}
    (h : w.loadFile name = (result, w')) : Undisturbed w w' := by
  obtain rfl : (w.loadFile name).2 = w' := congrArg Prod.snd h
  rw [World.loadFile]
  split
  · exact refl w
  · exact note w (by simp [Event.channel])

theorem saveFile {w w' : World} {name : String} {data : ByteArray} {offset : Int}
    {result : Except FileError Unit} (h : w.saveFile name data offset = (result, w')) :
    Undisturbed w w' := by
  obtain rfl : (w.saveFile name data offset).2 = w' := congrArg Prod.snd h
  rw [World.saveFile]
  split
  · exact refl w
  · exact (withFiles w _).trans (note _ (by simp [Event.channel]))

theorem runCommand {w w' : World} {text : String} {result : Except CommandError Int}
    (h : w.runCommand text = (result, w')) : Undisturbed w w' := by
  obtain rfl : (w.runCommand text).2 = w' := congrArg Prod.snd h
  rw [World.runCommand]
  split
  · exact refl w
  · split
    · exact note w (by simp [Event.channel])
    · exact (withFiles w _).trans (note _ (by simp [Event.channel]))

end Undisturbed

end World

/-- A pointer that has not moved: the same thread on the same cell. -/
structure Pointer.Still (ip ip' : Pointer) : Prop where
  id : ip'.id = ip.id
  alive : ip'.alive = ip.alive
  position : ip'.position = ip.position

theorem Pointer.Still.refl (ip : Pointer) : ip.Still ip := ⟨rfl, rfl, rfl⟩

theorem Pointer.Still.trans {ip ip₁ ip₂ : Pointer} (h₁ : ip.Still ip₁) (h₂ : ip₁.Still ip₂) :
    ip.Still ip₂ :=
  ⟨h₂.id.trans h₁.id, h₂.alive.trans h₁.alive, h₂.position.trans h₁.position⟩

theorem Pointer.Still.withPile {ip ip₁ : Pointer} (h : ip.Still ip₁) (pile : StackStack) :
    ip.Still (ip₁.withPile pile) :=
  ⟨h.id, h.alive, h.position⟩

/-- Something a pointer does that the scheduler takes no notice of. -/
structure Errand (ip : Pointer) (w : World) (ip' : Pointer) (w' : World) : Prop where
  id : ip'.id = ip.id
  alive : ip'.alive = ip.alive
  world : w.Undisturbed w'
  inside : ip.position ∈ w.space.bounds → ip'.position ∈ w'.space.bounds

namespace Errand

theorem of_still {ip ip' : Pointer} {w w' : World} (h : ip.Still ip') (hw : w.Undisturbed w') :
    Errand ip w ip' w' :=
  ⟨h.id, h.alive, hw, fun hp => by rw [h.position]; exact hw.bounds _ hp⟩

theorem of_moved {ip ip' : Pointer} {w : World} {m : Memory} (h : ip.Moved w.memory ip' m) :
    Errand ip w ip' (w.withMemory m) :=
  ⟨h.id, h.alive, .withRead w h.space, fun hp => by
    show ip'.position ∈ m.space.bounds
    rw [h.space]
    exact h.inside hp⟩

theorem trans {ip ip₁ ip₂ : Pointer} {w w₁ w₂ : World} (h₁ : Errand ip w ip₁ w₁)
    (h₂ : Errand ip₁ w₁ ip₂ w₂) : Errand ip w ip₂ w₂ :=
  ⟨h₂.id.trans h₁.id, h₂.alive.trans h₁.alive, h₁.world.trans h₂.world,
    fun hp => h₂.inside (h₁.inside hp)⟩

end Errand

/-! ## Deeds -/

/-- How a pointer and the world came from `ip` and `w` to what they are. -/
inductive Deeds (ip : Pointer) (w : World) : Pointer → World → Prop where
  /-- Nothing was done. -/
  | start : Deeds ip w ip w
  /-- An errand was done.  It left the pointer inside the box if the whole began there. -/
  | errand {ip₁ ip₂ : Pointer} {w₁ w₂ : World} :
      Deeds ip w ip₁ w₁ → ip₂.id = ip₁.id → ip₂.alive = ip₁.alive → w₁.Undisturbed w₂ →
      (ip.position ∈ w.space.bounds → ip₂.position ∈ w₂.space.bounds) → Deeds ip w ip₂ w₂
  /-- A second pointer was made. -/
  | split {ip₁ : Pointer} {w₁ : World} : Deeds ip w ip₁ w₁ → Deeds ip w ip₁ (w₁.split ip₁)
  /-- The pointer was stopped, which it had not been since the beginning. -/
  | stop {ip₁ : Pointer} {w₁ : World} :
      Deeds ip w ip₁ w₁ → ip₁.alive = ip.alive → Deeds ip w (w₁.retire ip₁).1 (w₁.retire ip₁).2
  /-- The program was ended. -/
  | quit {ip₁ : Pointer} {w₁ : World} (code : Int) :
      Deeds ip w ip₁ w₁ → Deeds ip w ip₁ (w₁.quit code)

/-- The pointer that `World.split` makes. -/
def World.child (w : World) (parent : Pointer) : Pointer :=
  ((parent.clone w.nextId).reflect.advance w.memory false).1

namespace World

variable (w : World) (ip : Pointer)

theorem child_id : (w.child ip).id = w.nextId :=
  (Pointer.advance_moved _ w.memory false).id

theorem child_alive : (w.child ip).alive = true :=
  (Pointer.advance_moved _ w.memory false).alive

/-- A pointer inside the box makes its child there too. -/
theorem child_mem (hp : ip.position ∈ w.space.bounds) : (w.child ip).position ∈ w.space.bounds :=
  (Pointer.advance_moved (ip.clone w.nextId).reflect w.memory false).inside hp

@[simp] theorem split_space : (w.split ip).space = w.space :=
  (Pointer.advance_moved (ip.clone w.nextId).reflect w.memory false).space

@[simp] theorem split_spawned : (w.split ip).spawned = w.child ip :: w.spawned := rfl

@[simp] theorem split_nextId : (w.split ip).nextId = w.nextId + 1 := rfl

@[simp] theorem split_tally :
    (w.split ip).tally = { w.tally with spawned := w.tally.spawned + 1 } := rfl

@[simp] theorem split_journal :
    (w.split ip).journal =
      .spawned ip.id (w.child ip).id (w.child ip).position :: w.journal := rfl

end World

namespace Deeds

variable {ip ip₁ ip₂ : Pointer} {w w₁ w₂ : World}

/-- The box has not lost a point. -/
theorem bounds (h : Deeds ip w ip₁ w₁) : ∀ p ∈ w.space.bounds, p ∈ w₁.space.bounds := by
  induction h with
  | start => exact fun _ hp => hp
  | errand _ _ _ hw _ ih => exact fun p hp => hw.bounds p (ih p hp)
  | split _ ih =>
      intro p hp
      rw [World.split_space]
      exact ih p hp
  | stop _ _ ih => exact ih
  | quit _ _ ih => exact ih

/-- The pointer has not left the box. -/
theorem inside (h : Deeds ip w ip₁ w₁) (hp : ip.position ∈ w.space.bounds) :
    ip₁.position ∈ w₁.space.bounds := by
  induction h with
  | start => exact hp
  | errand _ _ _ _ hinside _ => exact hinside hp
  | split _ ih =>
      rw [World.split_space]
      exact ih
  | stop _ _ ih => exact ih
  | quit _ _ ih => exact ih

theorem id (h : Deeds ip w ip₁ w₁) : ip₁.id = ip.id := by
  induction h with
  | start => rfl
  | errand _ hid _ _ _ ih => exact hid.trans ih
  | split _ ih => exact ih
  | stop _ _ ih => exact ih
  | quit _ _ ih => exact ih

/-- A pointer that is alive was so at the beginning. -/
theorem alive (h : Deeds ip w ip₁ w₁) (halive : ip₁.alive = true) : ip.alive = true := by
  induction h with
  | start => exact halive
  | errand _ _ ha _ _ ih => exact ih (ha.symm.trans halive)
  | split _ ih => exact ih halive
  | stop => cases halive
  | quit _ _ ih => exact ih halive

theorem of_errand (h : Errand ip w ip₁ w₁) : Deeds ip w ip₁ w₁ :=
  .errand .start h.id h.alive h.world h.inside

theorem of_still (h : ip.Still ip₁) : Deeds ip w ip₁ w :=
  of_errand (.of_still h (.refl w))

theorem then_errand (h₁ : Deeds ip w ip₁ w₁) (h₂ : Errand ip₁ w₁ ip₂ w₂) : Deeds ip w ip₂ w₂ :=
  .errand h₁ h₂.id h₂.alive h₂.world (fun hp => h₂.inside (h₁.inside hp))

/-- What a pointer does while it is as alive as at the beginning can be done after what it did
before. -/
theorem trans (h₁ : Deeds ip w ip₁ w₁) (halive : ip₁.alive = ip.alive)
    (h₂ : Deeds ip₁ w₁ ip₂ w₂) : Deeds ip w ip₂ w₂ := by
  induction h₂ with
  | start => exact h₁
  | errand _ hid ha hw hinside ih =>
      exact .errand ih hid ha hw (fun hp => hinside (h₁.inside hp))
  | split _ ih => exact .split ih
  | stop _ ha ih => exact .stop ih (ha.trans halive)
  | quit code _ ih => exact .quit code ih

end Deeds

/-! ## Commands -/

namespace Execute

theorem endBlock_still (ip : Pointer) : ip.Still (endBlock ip) := by
  simp only [endBlock]
  split
  · exact ⟨rfl, rfl, rfl⟩
  · split <;> exact ⟨rfl, rfl, rfl⟩

theorem under_still (ip : Pointer) : ip.Still (under ip) := by
  simp only [under]
  split
  · exact ⟨rfl, rfl, rfl⟩
  · split <;> exact ⟨rfl, rfl, rfl⟩

theorem compare_still (ip : Pointer) : ip.Still (compare ip) := by
  simp only [compare]
  split
  · exact ⟨rfl, rfl, rfl⟩
  · split <;> exact ⟨rfl, rfl, rfl⟩

theorem report_still (ip : Pointer) (w : World) : ip.Still (report ip w) := by
  have hpop : ip.Still ip.pop.2 := (Pointer.Still.refl ip).withPile _
  simp only [report]
  split <;> exact hpop.withPile _

theorem popCode_still (ip : Pointer) : ip.Still (popCode ip).2 := by
  simp only [popCode]
  split <;> exact ⟨rfl, rfl, rfl⟩

theorem mean_still (ip : Pointer) (m : Meaning) : ip.Still (mean ip m) := by
  cases m with
  | other change =>
      simp only [mean]
      split <;> exact ⟨rfl, rfl, rfl⟩
  | _ => exact ⟨rfl, rfl, rfl⟩

theorem letter_still (c : Char) (ip : Pointer) : ip.Still (letter c ip) := by
  simp only [letter]
  split
  next m _ => exact mean_still ip m
  next => exact ⟨rfl, rfl, rfl⟩

theorem jump_errand (ip : Pointer) (w : World) : Errand ip w (jump ip w.space) w := by
  simp only [jump]
  split
  · exact .of_still ⟨rfl, rfl, rfl⟩ (.refl w)
  · exact ⟨rfl, rfl, .refl w, fun hp => Bounds.next_mem hp _⟩

theorem fetch_errand (ip : Pointer) (w : World) :
    Errand ip w (fetch ip w).pointer (fetch ip w).world :=
  ⟨rfl, rfl, .withRead w rfl, fun hp => Bounds.next_mem hp _⟩

theorem store_errand (ip : Pointer) (w : World) :
    Errand ip w (store ip w).pointer (store ip w).world := by
  have hw : w.Undisturbed (store ip w).world :=
    .withMemory w (fun _ hp => Space.mem_bounds_put _ _ hp)
  exact ⟨rfl, rfl, hw, fun hp => hw.bounds _ (Bounds.next_mem hp _)⟩

theorem get_errand (ip : Pointer) (w : World) :
    Errand ip w (get ip w).pointer (get ip w).world :=
  .of_still ⟨rfl, rfl, rfl⟩ (.withRead w rfl)

theorem put_errand (ip : Pointer) (w : World) :
    Errand ip w (put ip w).pointer (put ip w).world :=
  .of_still ⟨rfl, rfl, rfl⟩ (.withMemory w (fun _ hp => Space.mem_bounds_put _ _ hp))

/-! ### The console -/

theorem afterWriting_errand (ip : Pointer) (w : World) (result : Except WriteError Console) :
    Errand ip w (afterWriting ip w result).pointer (afterWriting ip w result).world := by
  cases result with
  | ok console => exact .of_still ⟨rfl, rfl, rfl⟩ (.withConsole w console)
  | error e =>
      cases e with
      | character e => cases e <;> exact .of_still ⟨rfl, rfl, rfl⟩ (.refl w)
      | number e => exact .of_still ⟨rfl, rfl, rfl⟩ (.refl w)
      | stream e => exact .of_still ⟨rfl, rfl, rfl⟩ (.note w (by simp [Event.channel]))

theorem pop_errand (ip : Pointer) (w : World) : Errand ip w ip.pop.2 w :=
  .of_still ⟨rfl, rfl, rfl⟩ (.refl w)

theorem writeChar_errand (ip : Pointer) (w : World) :
    Errand ip w (writeChar ip w).pointer (writeChar ip w).world :=
  (pop_errand ip w).trans (afterWriting_errand ip.pop.2 w _)

theorem writeInteger_errand (ip : Pointer) (w : World) :
    Errand ip w (writeInteger ip w).pointer (writeInteger ip w).world :=
  (pop_errand ip w).trans (afterWriting_errand ip.pop.2 w _)

theorem readChar_errand (ip : Pointer) (w : World) :
    Errand ip w (readChar ip w).pointer (readChar ip w).world := by
  have hw := World.Undisturbed.withConsole w w.console.readChar.2
  simp only [readChar]
  split
  · exact .of_still ⟨rfl, rfl, rfl⟩ hw
  · exact .of_still ⟨rfl, rfl, rfl⟩ (hw.trans (.note _ (by simp [Event.channel])))

theorem readInteger_errand (ip : Pointer) (w : World) :
    Errand ip w (readInteger ip w).pointer (readInteger ip w).world := by
  have hw := World.Undisturbed.withConsole w w.console.readInteger.2
  simp only [readInteger]
  split
  · exact .of_still ⟨rfl, rfl, rfl⟩ hw
  · exact .of_still ⟨rfl, rfl, rfl⟩ (hw.trans (.note _ (by simp [Event.channel])))
  · exact .of_still ⟨rfl, rfl, rfl⟩ hw

/-! ### Files, commands and fingerprints -/

theorem inputFile_errand (ip : Pointer) (w : World) :
    Errand ip w (inputFile ip w).pointer (inputFile ip w).world := by
  have hpop : ip.Still ip.popText.2.pop.2.popVec.2 :=
    (((Pointer.Still.refl ip).withPile _).withPile _).withPile _
  simp only [inputFile]
  split
  next => exact .of_still (hpop.withPile _) (.refl w)
  next name _ =>
    split
    next e w₁ hload =>
      have hw := World.Undisturbed.loadFile hload
      exact .of_still (hpop.withPile _) (hw.trans (.note w₁ (by simp [Event.channel])))
    next data w₁ hload =>
      have hw := World.Undisturbed.loadFile hload
      exact .of_still ((hpop.withPile _).withPile _)
        (hw.trans (.withMemory w₁ (fun _ hp => Memory.mem_bounds_place _ _ _ hp)))

theorem outputFile_errand (ip : Pointer) (w : World) :
    Errand ip w (outputFile ip w).pointer (outputFile ip w).world := by
  have hpop : ip.Still ip.popText.2.pop.2.popVec.2.popVec.2 :=
    ((((Pointer.Still.refl ip).withPile _).withPile _).withPile _).withPile _
  simp only [outputFile]
  split
  next => exact .of_still (hpop.withPile _) (.refl w)
  next name _ =>
    split
    next => exact .of_still (hpop.withPile _) (.refl w)
    next =>
      split
      next e w₁ hsave =>
        have hw := World.Undisturbed.saveFile hsave
        exact .of_still (hpop.withPile _) (hw.trans (.note w₁ (by simp [Event.channel])))
      next w₁ hsave => exact .of_still hpop (.saveFile hsave)

theorem execute_errand (ip : Pointer) (w : World) :
    Errand ip w (execute ip w).pointer (execute ip w).world := by
  have hpop : ip.Still ip.popText.2 := (Pointer.Still.refl ip).withPile _
  simp only [execute]
  split
  next => exact .of_still (hpop.withPile _) (.refl w)
  next text _ =>
    split
    next e w₁ hrun =>
      have hw := World.Undisturbed.runCommand hrun
      exact .of_still (hpop.withPile _) (hw.trans (.note w₁ (by simp [Event.channel])))
    next status w₁ hrun => exact .of_still (hpop.withPile _) (.runCommand hrun)

theorem loadFingerprint_errand (ip : Pointer) (w : World) :
    Errand ip w (loadFingerprint ip w).pointer (loadFingerprint ip w).world := by
  refine Errand.trans (.of_still (popCode_still ip) (.refl w)) ?_
  simp only [loadFingerprint]
  split
  · exact .of_still ⟨rfl, rfl, rfl⟩ (.refl w)
  · split
    · exact .of_still ⟨rfl, rfl, rfl⟩ (.refl w)
    · exact .of_still ⟨rfl, rfl, rfl⟩ (.note w (by simp [Event.channel]))

theorem unloadFingerprint_errand (ip : Pointer) (w : World) :
    Errand ip w (unloadFingerprint ip w).pointer (unloadFingerprint ip w).world := by
  refine Errand.trans (.of_still (popCode_still ip) (.refl w)) ?_
  simp only [unloadFingerprint]
  split
  · exact .of_still ⟨rfl, rfl, rfl⟩ (.refl w)
  · exact .of_still ⟨rfl, rfl, rfl⟩ (.note w (by simp [Event.channel]))

/-! ### Repetition -/

/-- An outcome that is not over leaves the pointer alive. -/
theorem alive_of_not_isOver {r : Outcome} (h : ¬ r.isOver = true) : r.pointer.alive = true := by
  simp only [Outcome.isOver, Bool.or_eq_true, Bool.not_eq_true', not_or] at h
  simpa using h.1.2

theorem repeated_deeds {act : Pointer → World → Outcome}
    (hact : ∀ ip w, Deeds ip w (act ip w).pointer (act ip w).world) (n : Nat) :
    ∀ ip w, Deeds ip w (repeated act n ip w).pointer (repeated act n ip w).world := by
  induction n with
  | zero =>
      intro ip w
      exact .start
  | succ n ih =>
      intro ip w
      simp only [repeated]
      split
      next => exact hact ip w
      next hgoes =>
        -- it goes on only while the pointer is alive, so it was alive from the beginning
        have hend := alive_of_not_isOver hgoes
        have hbegin := (hact ip w).alive hend
        exact (hact ip w).trans (hend.trans hbegin.symm) (ih _ _)

theorem iterate_deeds {execute : Int → Pointer → World → Outcome}
    (hexecute : ∀ v ip w, Deeds ip w (execute v ip w).pointer (execute v ip w).world)
    (ip : Pointer) (w : World) :
    Deeds ip w (iterate execute ip w).pointer (iterate execute ip w).world := by
  have hpeek : Errand ip w ip.pop.2 (w.withMemory (ip.pop.2.peekCommand w.memory).2) :=
    .of_still ⟨rfl, rfl, rfl⟩ (.withRead w rfl)
  have htarget := ip.pop.2.peekCommand_mem w.memory
  simp only [iterate]
  split
  · exact .errand (.of_errand hpeek) rfl rfl (.refl _) htarget
  · split
    · exact .of_errand hpeek
    · have hrep := Deeds.trans (.of_errand hpeek) rfl
        (repeated_deeds (hexecute (ip.pop.2.peekCommand w.memory).1.2)
          (times (ip.pop.2.peekCommand w.memory).1.2 ip.pop.1) _ _)
      simp only [passOver]
      split
      · exact hrep
      · split
        · exact .errand hrep rfl rfl (.refl _) (fun hp => hrep.bounds _ (htarget hp))
        · exact hrep

/-! ### All commands -/

/-- Whatever a command is, it is done by errands and deeds if repeating the next one is. -/
theorem run_deeds {repetition : Pointer → World → Outcome}
    (hrep : ∀ ip w, Deeds ip w (repetition ip w).pointer (repetition ip w).world)
    (c : Command) (ip : Pointer) (w : World) :
    Deeds ip w (run repetition c ip w).pointer (run repetition c ip w).world := by
  cases c with
  | literal v => exact .of_still ⟨rfl, rfl, rfl⟩
  | compute op => exact .of_still ⟨rfl, rfl, rfl⟩
  | logicalNot => exact .of_still ⟨rfl, rfl, rfl⟩
  | duplicate => exact .of_still ⟨rfl, rfl, rfl⟩
  | drop => exact .of_still ⟨rfl, rfl, rfl⟩
  | swap => exact .of_still ⟨rfl, rfl, rfl⟩
  | clear => exact .of_still ⟨rfl, rfl, rfl⟩
  | beginBlock => exact .of_still ⟨rfl, rfl, rfl⟩
  | endBlock => exact .of_still (endBlock_still ip)
  | under => exact .of_still (under_still ip)
  | go delta => exact .of_still ⟨rfl, rfl, rfl⟩
  | goAway => exact .of_errand (.of_still ⟨rfl, rfl, rfl⟩ (.roll w))
  | eastWestIf => exact .of_still ⟨rfl, rfl, rfl⟩
  | northSouthIf => exact .of_still ⟨rfl, rfl, rfl⟩
  | turnLeft => exact .of_still ⟨rfl, rfl, rfl⟩
  | turnRight => exact .of_still ⟨rfl, rfl, rfl⟩
  | compare => exact .of_still (compare_still ip)
  | reflect => exact .of_still ⟨rfl, rfl, rfl⟩
  | setDelta => exact .of_still ⟨rfl, rfl, rfl⟩
  | trampoline =>
      exact .of_errand ⟨rfl, rfl, .refl w, fun hp => Bounds.next_mem hp ip.delta⟩
  | jump => exact .of_errand (jump_errand ip w)
  | iterate => exact hrep ip w
  | noOperation => exact .start
  | stop => exact .stop .start rfl
  | quit => exact .quit ip.pop.1 (.of_errand (pop_errand ip w))
  | split => exact .split .start
  | beginString => exact .of_still ⟨rfl, rfl, rfl⟩
  | fetch => exact .of_errand (fetch_errand ip w)
  | store => exact .of_errand (store_errand ip w)
  | get => exact .of_errand (get_errand ip w)
  | put => exact .of_errand (put_errand ip w)
  | writeChar => exact .of_errand (writeChar_errand ip w)
  | writeInteger => exact .of_errand (writeInteger_errand ip w)
  | readChar => exact .of_errand (readChar_errand ip w)
  | readInteger => exact .of_errand (readInteger_errand ip w)
  | inputFile => exact .of_errand (inputFile_errand ip w)
  | outputFile => exact .of_errand (outputFile_errand ip w)
  | execute => exact .of_errand (execute_errand ip w)
  | report => exact .of_errand (.of_still (report_still ip w) (.afterReport w))
  | loadFingerprint => exact .of_errand (loadFingerprint_errand ip w)
  | unloadFingerprint => exact .of_errand (unloadFingerprint_errand ip w)
  | letter c => exact .of_still (letter_still c ip)

theorem obey_deeds {repetition : Pointer → World → Outcome}
    (hrep : ∀ ip w, Deeds ip w (repetition ip w).pointer (repetition ip w).world)
    (v : Int) (ip : Pointer) (w : World) :
    Deeds ip w (obey repetition v ip w).pointer (obey repetition v ip w).world := by
  simp only [obey]
  split
  · exact .of_still ⟨rfl, rfl, rfl⟩
  · exact run_deeds hrep _ ip w

/-- Repetitions nested to any depth are made of errands and deeds. -/
theorem repetitionWithin_deeds (depth : Nat) :
    ∀ ip w, Deeds ip w (repetitionWithin depth ip w).pointer
      (repetitionWithin depth ip w).world := by
  induction depth with
  | zero =>
      intro ip w
      exact .of_errand (pop_errand ip w)
  | succ depth ih =>
      intro ip w
      exact iterate_deeds (obey_deeds ih) ip w

/-- Executing a cell is made of errands and deeds. -/
theorem cell_deeds (v : Int) (ip : Pointer) (w : World) :
    Deeds ip w (cell v ip w).pointer (cell v ip w).world :=
  obey_deeds (repetitionWithin_deeds maxNesting) v ip w

end Execute

namespace World

/-- Executing the cell under a pointer and moving on is made of errands and deeds. -/
theorem step_deeds (w : World) (ip : Pointer) :
    Deeds ip w (w.step ip).2.pointer (w.step ip).2.world := by
  have hread : Errand ip w ip (w.withMemory (w.memory.get ip.position).2) :=
    .of_still ⟨rfl, rfl, rfl⟩ (.withRead w rfl)
  simp only [step]
  split
  next =>
    refine Deeds.then_errand (.of_errand (hread.trans ?_)) (.of_moved (Pointer.advance_moved _ _ _))
    split <;> exact .of_still ⟨rfl, rfl, rfl⟩ (.refl _)
  next =>
    have hcell := Deeds.trans (.of_errand hread) rfl
      (Execute.cell_deeds (w.memory.get ip.position).1 ip _)
    split
    · exact hcell.then_errand (.of_moved (Pointer.advance_moved _ _ _))
    · exact hcell

end World

end Befunge
