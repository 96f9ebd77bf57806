import Befunge.Proofs.Acts
import Befunge.Proofs.Reading
import Befunge.Proofs.Reports
import Befunge.Proofs.SavedRegions

/-!
# Devices that fail

Seven commands use a device: two read from the console, two write to it, two use files, and one runs
a text in the command interpreter.  Each takes its operands from the stack before it turns to the
device, and each has its own way to go on where the device fails.  `Execute.Meets` says when that
is, in terms of the streams, the files and the interpreter.

No failure ends a tick, and what a failure leaves is told by the command alone: the cells under the
operands, with a status on top where the command reads or uses files, and with the pointer turned
round where it writes.  Nothing else in the pointer has changed, and in the world only the device
and the journal (`Execute.device_failures_stay_local`).

A command is done with a device at the first failure, so it makes no difference to it whether the
device would have worked later.  Each failure is entered into the journal, and an entry that a
command made tells a failure that it met.
-/

namespace Befunge

/-! ## Consoles that break off -/

namespace Console

/-- The console does not come to its next line.  Its output cannot be flushed, or its input fails
after that. -/
inductive Denies (e : StreamError) (c : Console) : Prop where
  | unflushed : c.output.flush = .error e → Denies e c
  | unread {output : Output} : c.output.flush = .ok output → c.input.readLine = .error e →
      Denies e c

/-- The console comes to some more lines and not to the one after them.  An empty line would be the
end of the input. -/
inductive Breaks (e : StreamError) : Console → List (List Char) → Prop where
  | now {c : Console} : c.Denies e → Breaks e c []
  | later {c : Console} {output : Output} {input : Input} {line : List Char}
      {lines : List (List Char)} :
      c.output.flush = .ok output → c.input.readLine = .ok (line, input) → line ≠ [] →
      Breaks e ⟨line, input, output⟩ lines → Breaks e c (line :: lines)

variable {c : Console} {e : StreamError}

theorem nextLine_eq_error_iff : c.nextLine.1 = .error e ↔ c.Denies e := by
  rw [nextLine]
  constructor
  · intro h
    split at h
    next hflush =>
      cases h
      exact .unflushed hflush
    next hflush =>
      split at h
      next hread =>
        cases h
        exact .unread hflush hread
      · cases h
  · rintro (hflush | ⟨hflush, hread⟩)
    · rw [hflush]
    · simp only [hflush, hread]

theorem breaks_iff {lines : List (List Char)} :
    c.Breaks e lines ↔ (lines = [] ∧ c.nextLine.1 = .error e) ∨
      ∃ next rest, c.nextLine = (.ok (), next) ∧ next.pending ≠ [] ∧
        lines = next.pending :: rest ∧ next.Breaks e rest := by
  constructor
  · intro h
    cases h with
    | now hdenies => exact .inl ⟨rfl, nextLine_eq_error_iff.mpr hdenies⟩
    | later hflush hread hline hrest =>
        refine .inr ⟨_, _, ?_, hline, rfl, hrest⟩
        simp only [nextLine, hflush, hread]
  · rintro (⟨rfl, hdenied⟩ | ⟨next, rest, hline, hsome, rfl, hrest⟩)
    · exact .now (nextLine_eq_error_iff.mp hdenied)
    · obtain ⟨line, input, output, hflush, hread, rfl⟩ := nextLine_eq_ok hline
      exact .later hflush hread hsome hrest

theorem readChar_eq_error_iff : c.readChar.1 = .error e ↔ c.pending = [] ∧ c.Denies e := by
  rw [← nextLine_eq_error_iff, readChar, fill]
  cases c.pending with
  | cons ch rest =>
      simp only [reduceCtorEq, false_and, iff_false]
      split <;> simp
  | nil =>
      obtain ⟨result, next⟩ := c.nextLine
      cases result with
      | error e' => simp
      | ok _ =>
          simp only [reduceCtorEq, and_false, iff_false]
          split <;> simp

theorem seekDigit_eq_nil_iff {negative : Bool} {text : List Char} :
    (seekDigit negative text).2 = [] ↔ ∀ ch ∈ text, Digit.isDigit ch = false := by
  simp [seekDigit_eq, List.dropWhile_eq_nil_iff]

/-- A search comes to a failure exactly where there is no digit in the lines before it. -/
theorem seekNumber_failed_iff (negative : Bool) (c : Console) :
    (∃ left, seekNumber negative c = .failed e left) ↔
      ∃ lines, c.Breaks e lines ∧ ∀ ch ∈ c.pending ++ lines.flatten, Digit.isDigit ch = false := by
  have hdigits : (seekDigit negative c.pending).2 = [] ↔
      ∀ ch ∈ c.pending, Digit.isDigit ch = false := seekDigit_eq_nil_iff
  rw [seekNumber_step]
  split
  next sign ch rest hseek =>
    simp only [hseek, reduceCtorEq, false_iff] at hdigits
    simp only [reduceCtorEq, exists_false, false_iff]
    rintro ⟨lines, -, hnone⟩
    exact hdigits fun ch hch => hnone ch (List.mem_append_left _ hch)
  next sign hseek =>
    rw [hseek] at hdigits
    simp only [List.forall_mem_append, and_iff_right (hdigits.mp rfl), breaks_iff (c := c)]
    split
    next hline => simp [hline]
    next next hline =>
      simp only [hline]
      split
      next hend => simp [hend]
      next hsome =>
        -- the search goes on in the next line, and that is the first of those before the failure
        have := length_lines_of_nextLine hline hsome
        rw [seekNumber_failed_iff sign next]
        simp only [reduceCtorEq, and_false, false_or, Prod.mk.injEq, true_and]
        constructor
        · rintro ⟨rest, hbreaks, hnone⟩
          exact ⟨_, ⟨next, rest, rfl, hsome, rfl, hbreaks⟩, by rwa [List.flatten_cons]⟩
        · rintro ⟨_, ⟨_, rest, rfl, -, rfl, hbreaks⟩, hnone⟩
          exact ⟨rest, hbreaks, by rwa [List.flatten_cons] at hnone⟩
termination_by c.input.lines.length

theorem readInteger_eq_error_iff :
    c.readInteger.1 = .error (.stream e) ↔
      ∃ lines, c.Breaks e lines ∧
        ∀ ch ∈ c.pending ++ lines.flatten, Digit.isDigit ch = false := by
  rw [← seekNumber_failed_iff false c, readInteger]
  cases seekNumber false c with
  | failed e' left => simp
  | exhausted left => simp
  | found negative left =>
      simp only
      cases Decimal.ofRun _ <;> simp

theorem writeChar_eq_error_iff {v : Int} :
    c.writeChar v = .error (.stream e) ↔
      ∃ ch, CharError.check v = .ok ch ∧ c.output.write ch.toString = .error e := by
  rw [writeChar]
  cases CharError.check v with
  | error _ => simp
  | ok ch =>
      simp only [write, Except.ok.injEq, exists_eq_left']
      cases c.output.write ch.toString <;> simp [Except.mapError]

theorem writeInteger_eq_error_iff {v : Int} :
    c.writeInteger v = .error (.stream e) ↔
      ∃ text, Decimal.written v = .ok text ∧ c.output.write (text ++ " ") = .error e := by
  rw [writeInteger]
  cases Decimal.written v with
  | error _ => simp
  | ok text =>
      simp only [write, Except.ok.injEq, exists_eq_left']
      cases c.output.write (text ++ " ") <;> simp [Except.mapError]

end Console

/-! ## Operands -/

namespace Pointer

/-- The cells of the topmost stack. -/
def topCells (ip : Pointer) : List Int := ip.pile.top.cells

@[simp] theorem topCells_holding (ip : Pointer) (cells : List Int) :
    (ip.holding cells).topCells = cells :=
  rfl

@[simp] theorem holding_holding (ip : Pointer) (cells cells' : List Int) :
    (ip.holding cells).holding cells' = ip.holding cells' := rfl

@[simp] theorem snd_pop (ip : Pointer) : ip.pop.2 = ip.holding (ip.topCells.drop 1) := by
  simp only [pop, StackStack.pop, Stack.pop, holding, topCells]
  cases h : ip.pile.top.cells with
  | nil =>
      have htop : ip.pile.top = ⟨[]⟩ := Stack.ext h
      rw [htop]
      rfl
  | cons v rest => rfl

@[simp] theorem snd_popVec (ip : Pointer) : ip.popVec.2 = ip.holding (ip.topCells.drop 2) := by
  have htwice : ip.popVec.2 = ip.pop.2.pop.2 := rfl
  rw [htwice, snd_pop, snd_pop, holding_holding, topCells_holding, List.drop_drop]

/-- The cells under a text. -/
def belowText (ip : Pointer) : List Int := (ip.topCells.dropWhile (· ≠ 0)).drop 1

@[simp] theorem snd_popText (ip : Pointer) : ip.popText.2 = ip.holding ip.belowText := rfl

end Pointer

/-- The cells under the operands of a command that uses a device.  A file is read by its name, flags
and a place, and written by its name, flags, a place and a size. -/
def Command.belowOperands (c : Command) (ip : Pointer) : List Int :=
  match c with
  | .writeChar | .writeInteger => ip.topCells.drop 1
  | .inputFile => ip.belowText.drop 3
  | .outputFile => ip.belowText.drop 5
  | .execute => ip.belowText
  | _ => ip.topCells

/-! ## Commands -/

namespace Execute

/-- A command meets the failure of a device, which is told by an event. -/
inductive Meets (ip : Pointer) (w : World) : Command → Event → Prop where
  /-- A character is to be read, the buffer is empty, and the console does not come to a line. -/
  | readChar {e : StreamError} : w.console.pending = [] → w.console.Denies e →
      Meets ip w .readChar (.inputFailed ip.id e)
  /-- A number is to be read, and there is no digit before the console breaks off. -/
  | readInteger {e : StreamError} {lines : List (List Char)} : w.console.Breaks e lines →
      (∀ c ∈ w.console.pending ++ lines.flatten, Digit.isDigit c = false) →
      Meets ip w .readInteger (.inputFailed ip.id e)
  | writeChar {e : StreamError} {c : Char} : CharError.check ip.pop.1 = .ok c →
      w.console.output.write c.toString = .error e →
      Meets ip w .writeChar (.outputFailed ip.id e)
  | writeInteger {e : StreamError} {text : String} : Decimal.written ip.pop.1 = .ok text →
      w.console.output.write (text ++ " ") = .error e →
      Meets ip w .writeInteger (.outputFailed ip.id e)
  | inputFile {e : FileError} {name : List Char} : (loadOrder ip).name = some name →
      (w.loadFile (String.ofList name)).1 = .error e →
      Meets ip w .inputFile (.readFailed ip.id (String.ofList name) e)
  | outputFile {e : FileError} {name : List Char} {flags : Int} {p : Vec} {width height : Nat}
      {left : Pointer} : saveOrder ip = ⟨some name, flags, p, ⟨width, height⟩, left⟩ →
      (w.saveFile (String.ofList name)
        (regionBytes w.space p width height (lowBit flags)) 0).1 = .error e →
      Meets ip w .outputFile (.writeFailed ip.id (String.ofList name) e)
  | execute {e : CommandError} {text : List Char} : ip.popText.1 = some text →
      (w.runCommand (String.ofList text)).1 = .error e →
      Meets ip w .execute (.executeFailed ip.id (String.ofList text) e)

/-- A pointer that a device failed in a command. -/
def failed (c : Command) (ip : Pointer) : Pointer :=
  if c = .writeChar ∨ c = .writeInteger then (ip.holding (c.belowOperands ip)).head (-ip.delta)
  else ip.holding (failureStatus :: c.belowOperands ip)

end Execute

/-- A world that differs in the console, the files and the journal only. -/
def World.Used (w w' : World) : Prop :=
  ∃ console files journal, w' = { w with console, files, journal }

namespace World.Used

theorem loadFile (w : World) (name : String) : w.Used (w.loadFile name).2 := by
  rw [World.loadFile]
  split <;> exact ⟨_, _, _, rfl⟩

theorem saveFile (w : World) (name : String) (data : ByteArray) (offset : Int) :
    w.Used (w.saveFile name data offset).2 := by
  rw [World.saveFile]
  split <;> exact ⟨_, _, _, rfl⟩

theorem runCommand (w : World) (text : String) : w.Used (w.runCommand text).2 := by
  rw [World.runCommand]
  split
  · exact ⟨_, _, _, rfl⟩
  · split <;> exact ⟨_, _, _, rfl⟩

end World.Used

namespace Execute

theorem left_loadOrder (ip : Pointer) : (loadOrder ip).left = ip.holding (ip.belowText.drop 3) := by
  have hleft : (loadOrder ip).left = ip.popText.2.pop.2.popVec.2 := rfl
  rw [hleft]
  simp

theorem left_saveOrder (ip : Pointer) : (saveOrder ip).left = ip.holding (ip.belowText.drop 5) := by
  have hleft : (saveOrder ip).left = ip.popText.2.pop.2.popVec.2.popVec.2 := rfl
  rw [hleft]
  simp

section

variable {ip : Pointer} {w : World}

theorem inputFile_of_error {name : List Char} {e : FileError}
    (hname : (loadOrder ip).name = some name)
    (hfail : (w.loadFile (String.ofList name)).1 = .error e) :
    inputFile ip w =
      ⟨(loadOrder ip).left.push failureStatus,
        (w.loadFile (String.ofList name)).2.note (.readFailed ip.id (String.ofList name) e),
        none⟩ := by
  have htext : ip.popText.1 = some name := hname
  simp only [inputFile, htext]
  generalize w.loadFile (String.ofList name) = loaded at hfail
  obtain ⟨result, w'⟩ := loaded
  obtain rfl : result = .error e := hfail
  rfl

theorem outputFile_of_error {name : List Char} {flags : Int} {p : Vec} {width height : Nat}
    {left : Pointer} {e : FileError}
    (horder : saveOrder ip = ⟨some name, flags, p, ⟨width, height⟩, left⟩)
    (hfail : (w.saveFile (String.ofList name)
      (regionBytes w.space p width height (lowBit flags)) 0).1 = .error e) :
    outputFile ip w = ⟨left.push failureStatus,
      (w.saveFile (String.ofList name)
        (regionBytes w.space p width height (lowBit flags)) 0).2.note
          (.writeFailed ip.id (String.ofList name) e), none⟩ := by
  have hid : left.id = ip.id := congrArg (·.left.id) horder.symm
  simp only [saveOrder, SaveOrder.mk.injEq] at horder
  obtain ⟨hname, hflags, horigin, hsize, hleft⟩ := horder
  rw [hleft] at horigin
  have hregion : ¬ ((width : Int) < 0 ∨ (height : Int) < 0) := by omega
  simp only [outputFile, hname, hflags, horigin, hsize, hleft, if_neg hregion, Int.toNat_natCast]
  generalize w.saveFile (String.ofList name)
    (regionBytes w.space p width height (lowBit flags)) 0 = saved at hfail
  obtain ⟨result, w'⟩ := saved
  obtain rfl : result = .error e := hfail
  rw [← hid]

theorem execute_of_error {text : List Char} {e : CommandError} (htext : ip.popText.1 = some text)
    (hfail : (w.runCommand (String.ofList text)).1 = .error e) :
    execute ip w = ⟨ip.popText.2.push failureStatus,
      (w.runCommand (String.ofList text)).2.note (.executeFailed ip.id (String.ofList text) e),
      none⟩ := by
  simp only [execute, htext]
  generalize w.runCommand (String.ofList text) = ran at hfail
  obtain ⟨result, w'⟩ := ran
  obtain rfl : result = .error e := hfail
  rfl

/-- A failure is the last thing that is told of a command that meets it. -/
theorem run_of_meets {c : Command} {e : Event} (h : Meets ip w c e)
    (repetition : Pointer → World → Outcome) :
    ∃ w', w.Used w' ∧ run repetition c ip w = ⟨failed c ip, w'.note e, none⟩ := by
  cases h with
  | readChar hpending hfail =>
      refine ⟨w.withConsole w.console.readChar.2, ⟨_, _, _, rfl⟩, ?_⟩
      simp only [run, readChar, Console.readChar_eq_error_iff.mpr ⟨hpending, hfail⟩]
      rfl
  | @readInteger e lines hbreaks hdigits =>
      have hfail : w.console.readInteger.1 = .error (.stream e) :=
        Console.readInteger_eq_error_iff.mpr ⟨lines, hbreaks, hdigits⟩
      refine ⟨w.withConsole w.console.readInteger.2, ⟨_, _, _, rfl⟩, ?_⟩
      simp only [run, readInteger, hfail]
      rfl
  | writeChar hchar hfail =>
      refine ⟨w, ⟨_, _, _, rfl⟩, ?_⟩
      simp only [run, writeChar, Console.writeChar_eq_error_iff.mpr ⟨_, hchar, hfail⟩,
        Pointer.snd_pop]
      rfl
  | writeInteger htext hfail =>
      refine ⟨w, ⟨_, _, _, rfl⟩, ?_⟩
      simp only [run, writeInteger, Console.writeInteger_eq_error_iff.mpr ⟨_, htext, hfail⟩,
        Pointer.snd_pop]
      rfl
  | @inputFile e name hname hfail =>
      refine ⟨_, .loadFile w (String.ofList name), ?_⟩
      rw [run, inputFile_of_error hname hfail, left_loadOrder]
      rfl
  | @outputFile e name flags p width height left horder hfail =>
      have hleft : left = ip.holding (ip.belowText.drop 5) := by
        rw [← left_saveOrder, horder]
      refine ⟨_, .saveFile w (String.ofList name)
        (regionBytes w.space p width height (lowBit flags)) 0, ?_⟩
      rw [run, outputFile_of_error horder hfail, hleft]
      rfl
  | @execute e text htext hfail =>
      refine ⟨_, .runCommand w (String.ofList text), ?_⟩
      rw [run, execute_of_error htext hfail, Pointer.snd_popText]
      rfl

end

end Execute

/-! ## What is told -/

/-- Whether an event tells the failure of a device. -/
def Event.isOutage : Event → Bool
  | .outputFailed .. | .inputFailed .. | .readFailed .. | .writeFailed ..
  | .executeFailed .. => true
  | _ => false

/-- At most one event was told, and not the failure of a device. -/
def World.Quiet (w w' : World) : Prop :=
  w'.journal = w.journal ∨ ∃ e : Event, e.isOutage = false ∧ w'.journal = e :: w.journal

namespace World.Quiet

theorem not_told {w w' : World} (h : w.Quiet w') {e : Event} (he : e.isOutage = true)
    {journal : List Event} (htold : w'.journal = e :: journal) : ¬ w.journal <:+ journal := by
  intro hbefore
  have hlength := hbefore.length_le
  rcases h with hsame | ⟨e', he', hentered⟩
  · rw [← hsame, htold, List.length_cons] at hlength
    omega
  · obtain ⟨rfl, -⟩ := List.cons.inj (htold.symm.trans hentered)
    rw [he] at he'
    cases he'

theorem loadFile {w w' : World} {name : String} {result : Except FileError ByteArray}
    (h : w.loadFile name = (result, w')) : w.Quiet w' := by
  rw [World.loadFile] at h
  split at h
  all_goals cases h
  · exact .inl rfl
  · exact .inr ⟨_, rfl, rfl⟩

theorem saveFile {w w' : World} {name : String} {data : ByteArray} {offset : Int}
    {result : Except FileError Unit} (h : w.saveFile name data offset = (result, w')) :
    w.Quiet w' := by
  rw [World.saveFile] at h
  split at h
  all_goals cases h
  · exact .inl rfl
  · exact .inr ⟨_, rfl, rfl⟩

theorem runCommand {w w' : World} {text : String} {result : Except CommandError Int}
    (h : w.runCommand text = (result, w')) : w.Quiet w' := by
  rw [World.runCommand] at h
  split at h
  · cases h
    exact .inl rfl
  · split at h
    all_goals cases h
    · exact .inr ⟨_, rfl, rfl⟩
    · exact .inr ⟨_, rfl, rfl⟩

end World.Quiet

namespace Execute

/-- A command either tells the failure of a device, which it met, or no such thing. -/
def Candid (ip : Pointer) (w : World) (c : Command) (w' : World) : Prop :=
  (∃ e rest, Meets ip w c e ∧ w'.journal = e :: rest) ∨ w.Quiet w'

theorem readChar_candid (ip : Pointer) (w : World) :
    Candid ip w .readChar (readChar ip w).world := by
  simp only [readChar]
  split
  · exact .inr (.inl rfl)
  next hfail =>
    obtain ⟨hpending, hdenies⟩ := Console.readChar_eq_error_iff.mp hfail
    exact .inl ⟨_, _, .readChar hpending hdenies, rfl⟩

theorem readInteger_candid (ip : Pointer) (w : World) :
    Candid ip w .readInteger (readInteger ip w).world := by
  simp only [readInteger]
  split
  · exact .inr (.inl rfl)
  next hfail =>
    obtain ⟨lines, hbreaks, hdigits⟩ := Console.readInteger_eq_error_iff.mp hfail
    exact .inl ⟨_, _, .readInteger hbreaks hdigits, rfl⟩
  · exact .inr (.inl rfl)

theorem afterWriting_candid {ip ip' : Pointer} {w : World} {c : Command}
    {result : Except WriteError Console}
    (hmeets : ∀ e, result = .error (.stream e) → Meets ip w c (.outputFailed ip'.id e)) :
    Candid ip w c (afterWriting ip' w result).world := by
  cases result with
  | ok console => exact .inr (.inl rfl)
  | error e =>
      cases e with
      | character e => cases e <;> exact .inr (.inl rfl)
      | number e => exact .inr (.inl rfl)
      | stream e => exact .inl ⟨_, _, hmeets e rfl, rfl⟩

theorem writeChar_candid (ip : Pointer) (w : World) :
    Candid ip w .writeChar (writeChar ip w).world := by
  refine afterWriting_candid fun e hwrite => ?_
  obtain ⟨ch, hchar, hfail⟩ := Console.writeChar_eq_error_iff.mp hwrite
  exact .writeChar hchar hfail

theorem writeInteger_candid (ip : Pointer) (w : World) :
    Candid ip w .writeInteger (writeInteger ip w).world := by
  refine afterWriting_candid fun e hwrite => ?_
  obtain ⟨text, htext, hfail⟩ := Console.writeInteger_eq_error_iff.mp hwrite
  exact .writeInteger htext hfail

theorem inputFile_candid (ip : Pointer) (w : World) :
    Candid ip w .inputFile (inputFile ip w).world := by
  simp only [inputFile]
  split
  · exact .inr (.inl rfl)
  next name hname =>
    split
    next hload => exact .inl ⟨_, _, .inputFile hname (congrArg Prod.fst hload), rfl⟩
    next hload =>
      have hquiet := World.Quiet.loadFile hload
      exact .inr hquiet

/-- A size that is not negative is a width and a height. -/
theorem saveOrder_eq {ip : Pointer} {name : List Char} (hname : (saveOrder ip).name = some name)
    (hsize : ¬ ((saveOrder ip).size.x < 0 ∨ (saveOrder ip).size.y < 0)) :
    saveOrder ip = ⟨some name, (saveOrder ip).flags, (saveOrder ip).origin,
      ⟨(saveOrder ip).size.x.toNat, (saveOrder ip).size.y.toNat⟩, (saveOrder ip).left⟩ := by
  have hwidth := Int.toNat_of_nonneg (Int.not_lt.mp fun h => hsize (.inl h))
  have hheight := Int.toNat_of_nonneg (Int.not_lt.mp fun h => hsize (.inr h))
  rw [hwidth, hheight, ← hname]

theorem outputFile_candid (ip : Pointer) (w : World) :
    Candid ip w .outputFile (outputFile ip w).world := by
  simp only [outputFile]
  split
  · exact .inr (.inl rfl)
  next name hname =>
    split
    · exact .inr (.inl rfl)
    next hsize =>
      split
      next hsave =>
        have horder := saveOrder_eq hname hsize
        exact .inl ⟨_, _, .outputFile horder (congrArg Prod.fst hsave), rfl⟩
      next hsave => exact .inr (.saveFile hsave)

theorem execute_candid (ip : Pointer) (w : World) :
    Candid ip w .execute (execute ip w).world := by
  simp only [execute]
  split
  · exact .inr (.inl rfl)
  next text htext =>
    split
    next hran => exact .inl ⟨_, _, .execute htext (congrArg Prod.fst hran), rfl⟩
    next hran => exact .inr (.runCommand hran)

theorem run_candid {c : Command} (hc : c ≠ .iterate) (repetition : Pointer → World → Outcome)
    (ip : Pointer) (w : World) : Candid ip w c (run repetition c ip w).world := by
  cases c with
  | iterate => exact absurd rfl hc
  | readChar => exact readChar_candid ip w
  | readInteger => exact readInteger_candid ip w
  | writeChar => exact writeChar_candid ip w
  | writeInteger => exact writeInteger_candid ip w
  | inputFile => exact inputFile_candid ip w
  | outputFile => exact outputFile_candid ip w
  | execute => exact execute_candid ip w
  | split | stop | quit => exact .inr (.inr ⟨_, rfl, rfl⟩)
  | loadFingerprint =>
      simp only [run, loadFingerprint]
      split
      · exact .inr (.inl rfl)
      · split
        · exact .inr (.inl rfl)
        · exact .inr (.inr ⟨_, rfl, rfl⟩)
  | unloadFingerprint =>
      simp only [run, unloadFingerprint]
      split
      · exact .inr (.inl rfl)
      · exact .inr (.inr ⟨_, rfl, rfl⟩)
  -- the others tell nothing
  | _ => exact .inr (.inl rfl)

/-- A failure that a command told is one that it met. -/
theorem Candid.meets {ip : Pointer} {w w' : World} {c : Command} (h : Candid ip w c w') {e : Event}
    (he : e.isOutage = true) {journal : List Event} (htold : w'.journal = e :: journal)
    (hnew : w.journal <:+ journal) : Meets ip w c e := by
  rcases h with ⟨e', rest, hmeets, hentered⟩ | hquiet
  · obtain ⟨rfl, -⟩ := List.cons.inj (htold.symm.trans hentered)
    exact hmeets
  · exact absurd hnew (hquiet.not_told he htold)

end Execute

/-- An act meets the failure of a device. -/
def Act.Meets (e : Event) : Act → Prop
  | .obey _ v ip w => ∃ c, Command.ofCell? v = some c ∧ Execute.Meets ip w c e
  | .tell _ _ | .pause _ => False

theorem Act.Meets.fault {e : Event} {a : Act} (h : a.Meets e) : a.fault = none := by
  cases a with
  | obey depth v ip w =>
      obtain ⟨c, hc, hmeets⟩ := h
      obtain ⟨w', -, hrun⟩ := Execute.run_of_meets hmeets (Execute.refuseAt depth)
      rw [Act.fault, Execute.alone_eq hc, hrun]
  | tell | pause => exact h.elim

namespace Execute

/-- The failures of devices are contained and stay local.  A command that meets one is no fault, and
tells it.  If it reads from the console or uses a file or the command interpreter, the topmost stack
has the cells under its operands and minus one on top, and the pointer is otherwise as it was.  If
it writes to the console, the topmost stack has the cells under its operand, and the pointer goes
the other way.  The program space, the pointers made in this tick and all that is not a device are
as they were.

Where the execution of a cell does end in a fault, with all the repetitions that belong to it, the
fault is that of an act that met no failure.

No failure is left out.  If the last thing that a command told is the failure of a device, the
command is one that met it. -/
theorem device_failures_stay_local :
    (∀ (v : Int) (c : Command) (e : Event) (ip : Pointer) (w : World),
      Command.ofCell? v = some c → Meets ip w c e →
      (cell v ip w).fault = none ∧
      (cell v ip w).pointer =
        (if c = .writeChar ∨ c = .writeInteger then
          (ip.holding (c.belowOperands ip)).head (-ip.delta)
        else ip.holding (-1 :: c.belowOperands ip)) ∧
      ∃ console files journal,
        (cell v ip w).world = { w with console, files, journal := e :: journal }) ∧
    (∀ (v : Int) (ip : Pointer) (w : World) (f : Fault), (cell v ip w).fault = some f →
      ∃ a ∈ cellActs v ip w, a.fault = some f ∧ ∀ e, ¬ a.Meets e) ∧
    ∀ (v : Int) (c : Command) (e : Event) (ip : Pointer) (w : World) (journal : List Event),
      Command.ofCell? v = some c → c ≠ .iterate → e.isOutage = true →
      (cell v ip w).world.journal = e :: journal → w.journal <:+ journal → Meets ip w c e := by
  have hcell {v : Int} {c : Command} (ip : Pointer) (w : World) (hc : Command.ofCell? v = some c) :
      cell v ip w = run (repetitionWithin maxNesting) c ip w := by
    rw [cell, obey, hc]
  refine ⟨?_, ?_, ?_⟩
  · intro v c e ip w hc hmeets
    obtain ⟨w', ⟨console, files, journal, rfl⟩, hrun⟩ :=
      run_of_meets hmeets (repetitionWithin maxNesting)
    rw [hcell ip w hc, hrun]
    exact ⟨rfl, rfl, console, files, journal, rfl⟩
  · intro v ip w f hfault
    have hmem : f ∈ (cellActs v ip w).filterMap Act.fault := by
      rw [cellActs_faults, hfault]
      exact List.mem_singleton_self f
    obtain ⟨a, ha, hf⟩ := List.mem_filterMap.mp hmem
    refine ⟨a, ha, hf, fun e hmeets => ?_⟩
    rw [hmeets.fault] at hf
    cases hf
  · intro v c e ip w journal hc hsingle he htold hnew
    rw [hcell ip w hc] at htold
    exact (run_candid hsingle _ ip w).meets he htold hnew

/-- A world in which the output can be flushed once more, so that a line can be read but not a
second one.  Nothing can be written, the file `f` is broken, and the command interpreter is out of
reach. -/
def ruin : World where
  memory := { space := Space.ofText "~&.".toList }
  console :=
    { pending := ['x']
      input := ⟨[['-', '\n'], ['7']], none⟩
      output := { allowance := some 0, flushes := some 1 } }
  clock := ⟨2000, 1, 1, 0, 0, 0⟩
  files := FileTree.insert {} ["f"] .broken
  interpreter := ⟨fun text files => (.error (.denied text), files)⟩

/-- A pointer with the name of a file on top of a short stack. -/
def unlucky : Pointer := { id := 0, position := ⟨1, 0⟩, pile := ⟨⟨[102, 0, 5]⟩, [⟨[9]⟩]⟩ }

theorem device_failures_stay_local_in_ruin :
    (cell (Cell.ofChar '&') unlucky ruin).pointer = unlucky.holding [-1, 102, 0, 5] ∧
    (cell (Cell.ofChar '.') unlucky ruin).pointer =
      (unlucky.holding [0, 5]).head ⟨-1, 0⟩ ∧
    (cell (Cell.ofChar 'o') unlucky ruin).pointer = unlucky.holding [-1] ∧
    (cell (Cell.ofChar '=') unlucky ruin).pointer = unlucky.holding [-1, 5] ∧
    Meets unlucky ruin .writeChar (.outputFailed 0 .deviceFailed) := by
  obtain ⟨hlocal, -, hmet⟩ := device_failures_stay_local
  have hbreaks : ruin.console.Breaks .deviceFailed [['-', '\n']] :=
    .later rfl rfl (by decide) (.now (.unflushed rfl))
  have hdigits : ∀ c ∈ ruin.console.pending ++ [['-', '\n']].flatten, Digit.isDigit c = false := by
    intro c hc
    have hcases : c = 'x' ∨ c = '-' ∨ c = '\n' := by simpa [ruin] using hc
    rcases hcases with rfl | rfl | rfl
    all_goals decide +kernel
  have hnumber : Decimal.written unlucky.pop.1 = .ok "102" := by decide +kernel
  have horder : saveOrder unlucky =
      ⟨some ['f'], 5, ⟨0, 0⟩, ⟨(0 : Nat), (0 : Nat)⟩, unlucky.holding []⟩ := rfl
  have htext : unlucky.popText.1 = some ['f'] := by decide +kernel
  have hread := (hlocal (Cell.ofChar '&') .readInteger _ unlucky ruin (by decide +kernel)
    (.readInteger hbreaks hdigits)).2.1
  have hwrite := (hlocal (Cell.ofChar '.') .writeInteger _ unlucky ruin (by decide +kernel)
    (.writeInteger hnumber rfl)).2.1
  have hsave := (hlocal (Cell.ofChar 'o') .outputFile _ unlucky ruin (by decide +kernel)
    (.outputFile horder rfl)).2.1
  have hrun := (hlocal (Cell.ofChar '=') .execute _ unlucky ruin (by decide +kernel)
    (.execute htext rfl)).2.1
  have htold := hmet (Cell.ofChar ',') .writeChar (.outputFailed 0 .deviceFailed) unlucky ruin []
    (by decide +kernel) (by decide) rfl (by decide +kernel) List.suffix_rfl
  exact ⟨hread, hwrite, hsave, hrun, htold⟩

end Execute

end Befunge
