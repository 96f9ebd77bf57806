import Befunge.Proofs.Runs

/-!
# Programs without access to the outside

A program that may neither use files nor run commands leaves the files alone, and it cannot
find out anything about them.  This is a statement about two machines at a time: one of them
stands beside other files, and beside another command interpreter, and does in every tick what
the first one does.  Names and commands come from the stack, so any of them can be tried, by
any pointer and in any repetition.  All attempts fail in the same way, whether or not there is
such a file.
-/

namespace Befunge.Machine

/-- The machine beside other files and another command interpreter. -/
def beside (files : FileTree) (interpreter : Interpreter) (m : Machine) : Machine :=
  { m with world := { m.world with files := files, interpreter := interpreter } }

/-- The program of a machine may neither use files nor run commands. -/
structure Confined (m : Machine) : Prop where
  files : m.world.config.files = .deny
  commands : m.world.config.commands = .deny

/-- Standing beside other files is a veil. -/
theorem veiled_eq_beside (m : Machine) (files : FileTree) (interpreter : Interpreter) :
    m.veiled { maxTicks := m.world.config.maxTicks, files := fun _ => files,
               interpreter := fun _ => interpreter } = m.beside files interpreter := rfl

namespace Confined

variable {m : Machine} (h : m.Confined) (files : FileTree) (interpreter : Interpreter)

include h

theorem after_beside (n : Nat) :
    (m.beside files interpreter).after n = (m.after n).beside files interpreter := by
  rw [← veiled_eq_beside, after_veiled (.inr ⟨h.files, h.commands⟩) rfl (.inl rfl),
    ← m.after_config n, veiled_eq_beside]

theorem tick_beside (n : Nat) :
    ((m.beside files interpreter).after n).tick.1 = (m.after n).tick.1 := by
  have hconfig := m.after_config n
  have hhides : Veil.Hides
      { maxTicks := (m.after n).world.config.maxTicks, files := fun _ => files,
        interpreter := fun _ => interpreter } (m.after n).world :=
    .inr ⟨by rw [hconfig, h.files], by rw [hconfig, h.commands]⟩
  rw [h.after_beside, ← veiled_eq_beside, tick_veiled_of_budget hhides rfl (.inl rfl)]

theorem run_beside (limit : Nat) :
    (m.beside files interpreter).run limit =
      ((m.run limit).1, (m.run limit).2.beside files interpreter) := by
  rw [← veiled_eq_beside, run_veiled rfl limit (.inr ⟨h.files, h.commands⟩) rfl,
    ← m.run_config limit, veiled_eq_beside]

omit files interpreter in
/-- A machine stands beside its own files from the beginning, so it does so at the end. -/
theorem after_files (n : Nat) : (m.after n).world.files = m.world.files := by
  have hown : m.beside m.world.files m.world.interpreter = m := rfl
  have hafter := h.after_beside m.world.files m.world.interpreter n
  rw [hown] at hafter
  rw [hafter]
  rfl

end Confined

/-- Two machines that the files do not tell apart: neither changes its own, and apart from the
files they are the same after every tick. -/
structure Indistinct (here there : Machine) : Prop where
  untouched : ∀ n, (here.after n).world.files = here.world.files ∧
    (there.after n).world.files = there.world.files
  states : ∀ n,
    there.after n = (here.after n).beside there.world.files there.world.interpreter
  /-- Each tick gives the same answer, also where it is a fault. -/
  answers : ∀ n, (there.after n).tick.1 = (here.after n).tick.1
  /-- A run ends in the same way, with the same output, exit code and counts. -/
  runs : ∀ limit, (there.run limit).1 = (here.run limit).1 ∧
    (there.run limit).2.result = (here.run limit).2.result

/-- Where files and commands are out of reach no program changes the files or behaves otherwise
for what is in them, whatever its console is. -/
theorem files_out_of_reach (setup : Setup) (files : FileTree) (interpreter : Interpreter)
    (source : Source) (console : Console) (hfiles : setup.config.files = .deny)
    (hcommands : setup.config.commands = .deny) :
    Indistinct (setup.load source console)
      (({ setup with files := files, interpreter := interpreter } : Setup).load source
        console) := by
  have hthere : ({ setup with files := files, interpreter := interpreter } : Setup).load source
      console = (setup.load source console).beside files interpreter := rfl
  have hhere : (setup.load source console).Confined := ⟨hfiles, hcommands⟩
  have hconfined : ((setup.load source console).beside files interpreter).Confined :=
    ⟨hfiles, hcommands⟩
  rw [hthere]
  refine ⟨fun n => ⟨hhere.after_files n, hconfined.after_files n⟩,
    hhere.after_beside files interpreter, hhere.tick_beside files interpreter, fun limit => ?_⟩
  rw [hhere.run_beside]
  exact ⟨rfl, rfl⟩

/-- A program that reads the file `a`, writes it and runs the command `a` does not learn whether
there is such a file. -/
theorem files_out_of_reach_of_asking :
    Indistinct
      (Setup.load
        { clock := ⟨2000, 1, 1, 0, 0, 0⟩, config := { files := .deny, commands := .deny } }
        (.text "0\"a\"i.0\"a\"o.0\"a\"=.@") { input := .ofText [] })
      (Setup.load
        { clock := ⟨2000, 1, 1, 0, 0, 0⟩, config := { files := .deny, commands := .deny }
          files := FileTree.addFile {} "a" ⟨#[64]⟩ }
        (.text "0\"a\"i.0\"a\"o.0\"a\"=.@") { input := .ofText [] }) :=
  files_out_of_reach
    { clock := ⟨2000, 1, 1, 0, 0, 0⟩, config := { files := .deny, commands := .deny } }
    (FileTree.addFile {} "a" ⟨#[64]⟩) .plain _ _ rfl rfl

/-- With the files in reach it does. -/
example :
    (Setup.run { clock := ⟨2000, 1, 1, 0, 0, 0⟩ } (.text "0\"a\"i.0\"a\"o.0\"a\"=.@")
      { input := .ofText [] } 99).2.output ≠
    (Setup.run { clock := ⟨2000, 1, 1, 0, 0, 0⟩, files := FileTree.addFile {} "a" ⟨#[64]⟩ }
      (.text "0\"a\"i.0\"a\"o.0\"a\"=.@") { input := .ofText [] } 99).2.output := by
  decide +kernel

end Befunge.Machine
