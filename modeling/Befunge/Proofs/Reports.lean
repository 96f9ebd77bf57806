import Befunge.Execute
import Mathlib.Data.List.GetD
import Mathlib.Data.List.Permutation

/-!
# Reports can be read

A report is a row of cells whose parts have lengths of their own: as many sizes as there are
stacks, arguments up to two empty texts in a row, and variables up to an empty text.
`SystemReport.read` takes such a report from a stack cell by cell, knowing nothing of the machine
that made it.  What it reads from the stack of a pointer that asked for the whole report is
`SystemReport.Report.about` that pointer and its world, and what it leaves is the stack as it was
(`SystemReport.read_report`).

Texts can be told apart on a stack if none of them has a null character in it.  The end of the
arguments is found only if every empty argument is followed by one that is not empty.

A pointer may also ask for a single cell.  It gets the cell that stands at that place of the whole
report and the stack under it, and nothing else (`SystemReport.pick_agrees_with_report`).
-/

namespace Befunge

/-! ## Texts on a stack -/

namespace Stack

theorem mapM_char? (text : List Char) : (text.map Cell.ofChar).mapM Cell.char? = some text := by
  induction text with
  | nil => rfl
  | cons c text ih => simp [ih]

/-- The cells of a text without a null character are removed together, whether or not they are
characters. -/
theorem popText_textCells {text : List CodePoint} (h : 0 ∉ text) (rest : List Int) :
    popText ⟨textCells text ++ rest⟩ = ((text.map CodePoint.cell).mapM Cell.char?, ⟨rest⟩) := by
  have hcells : ∀ v ∈ text.map CodePoint.cell, decide (v ≠ 0) = true := by
    intro v hv
    obtain ⟨p, hp, rfl⟩ := List.mem_map.mp hv
    have hne : p ≠ 0 := fun hnull => h (hnull ▸ hp)
    exact decide_eq_true fun hzero => hne (Fin.ext (Int.ofNat.inj hzero))
  have hstack : textCells text ++ rest = text.map CodePoint.cell ++ 0 :: rest := by
    rw [textCells, List.append_assoc, List.singleton_append]
  rw [popText, hstack, List.takeWhile_append_of_pos hcells, List.dropWhile_append_of_pos hcells,
    List.takeWhile_cons_of_neg (by simp), List.dropWhile_cons_of_neg (by simp), List.append_nil]
  rfl

/-- A text without a null character is removed as it was put there. -/
theorem popText_ofChars {text : List Char} (h : '\x00' ∉ text) (rest : List Int) :
    popText ⟨textCells (CodePoint.ofChars text) ++ rest⟩ = (some text, ⟨rest⟩) := by
  have hnull : 0 ∉ CodePoint.ofChars text := by
    intro hmem
    obtain ⟨c, hc, hzero⟩ := List.mem_map.mp hmem
    have hsame : c.toNat = '\x00'.toNat := congrArg (fun p : CodePoint => p.val) hzero
    exact h (Char.toNat_inj.mp hsame ▸ hc)
  have hcells : (CodePoint.ofChars text).map CodePoint.cell = text.map Cell.ofChar := by
    rw [CodePoint.ofChars, List.map_map]
    rfl
  rw [popText_textCells hnull, hcells, mapM_char?]

theorem size_popText (s : Stack) :
    (s.cells.takeWhile (· ≠ 0)).length + s.popText.2.size ≤ s.size := by
  have hparts := congrArg List.length (s.cells.takeWhile_append_dropWhile (p := (· ≠ 0)))
  rw [List.length_append] at hparts
  simp only [popText, size, List.length_drop]
  omega

theorem size_popText_le {s rest : Stack} {text : Option (List Char)}
    (h : s.popText = (text, rest)) : rest.size ≤ s.size := by
  have hsize := s.size_popText
  rw [h] at hsize
  exact Nat.le_of_add_left_le hsize

theorem size_popText_lt {s rest : Stack} {c : Char} {text : List Char}
    (h : s.popText = (some (c :: text), rest)) : rest.size < s.size := by
  have hsize := s.size_popText
  have hsome : s.cells.takeWhile (· ≠ 0) ≠ [] := by
    intro hnone
    rw [popText, hnone] at h
    cases h
  have hpos := List.length_pos_iff.mpr hsome
  simp only [h] at hsize
  omega

theorem take_append (cells rest : List Int) {n : Int} (h : n = cells.length) :
    take ⟨cells ++ rest⟩ n = (cells, ⟨rest⟩) := by
  subst h
  simp [take]

end Stack

namespace SystemReport

open Stack

/-! ## Reading a report -/

/-- What a report says. -/
structure Report where
  flags : Int
  cellBytes : Int
  handprint : Int
  version : Int
  paradigm : Int
  pathSeparator : Int
  dimensions : Int
  id : Int
  team : Int
  position : Vec
  delta : Vec
  storage : Vec
  least : Vec
  /-- The greatest point as seen from the least one. -/
  extent : Vec
  date : Int
  time : Int
  /-- How many stacks there are. -/
  depth : Int
  sizes : List Int
  arguments : List (List Char)
  environment : List (List Char)

/-- Removes texts up to two empty ones in a row. -/
def popArguments (s : Stack) : Option (List (List Char) × Stack) :=
  match h : s.popText with
  | (none, _) => none
  | (some (c :: text), rest) =>
      have := size_popText_lt h
      (popArguments rest).map fun (texts, s) => ((c :: text) :: texts, s)
  | (some [], rest) =>
      have := size_popText_le h
      match h : rest.popText with
      | (none, _) => none
      | (some (c :: text), rest) =>
          have := size_popText_lt h
          (popArguments rest).map fun (texts, s) => ([] :: (c :: text) :: texts, s)
      | (some [], rest) => some ([], rest)
termination_by s.size

/-- Removes texts up to an empty one. -/
def popEnvironment (s : Stack) : Option (List (List Char) × Stack) :=
  match h : s.popText with
  | (none, _) => none
  | (some (c :: text), rest) =>
      have := size_popText_lt h
      (popEnvironment rest).map fun (texts, s) => ((c :: text) :: texts, s)
  | (some [], rest) => some ([], rest)
termination_by s.size

/-- Removes a report. -/
def read (s : Stack) : Option (Report × Stack) := do
  let (flags, s) := s.pop
  let (cellBytes, s) := s.pop
  let (handprint, s) := s.pop
  let (version, s) := s.pop
  let (paradigm, s) := s.pop
  let (pathSeparator, s) := s.pop
  let (dimensions, s) := s.pop
  let (id, s) := s.pop
  let (team, s) := s.pop
  let (position, s) := s.popVec
  let (delta, s) := s.popVec
  let (storage, s) := s.popVec
  let (least, s) := s.popVec
  let (extent, s) := s.popVec
  let (date, s) := s.pop
  let (time, s) := s.pop
  let (depth, s) := s.pop
  let (sizes, s) := s.take depth
  let (arguments, s) ← popArguments s
  let (environment, s) ← popEnvironment s
  return ({ flags, cellBytes, handprint, version, paradigm, pathSeparator, dimensions, id, team,
            position, delta, storage, least, extent, date, time, depth, sizes, arguments,
            environment }, s)

/-! ## What is read -/

section

variable {s rest : Stack} {c : Char} {text : List Char}

theorem popArguments_text (h : s.popText = (some (c :: text), rest)) :
    popArguments s = (popArguments rest).map fun (texts, s) => ((c :: text) :: texts, s) := by
  rw [popArguments]
  split
  all_goals simp_all

theorem popArguments_empty (h : s.popText = (some [], rest)) :
    popArguments s =
      match rest.popText with
      | (none, _) => none
      | (some (c :: text), rest) =>
          (popArguments rest).map fun (texts, s) => ([] :: (c :: text) :: texts, s)
      | (some [], rest) => some ([], rest) := by
  rw [popArguments]
  split
  case h_3 rest' h' =>
    obtain rfl : rest = rest' := (Prod.mk.inj (h.symm.trans h')).2
    split
    all_goals simp_all
  all_goals simp_all

theorem popEnvironment_text (h : s.popText = (some (c :: text), rest)) :
    popEnvironment s = (popEnvironment rest).map fun (texts, s) => ((c :: text) :: texts, s) := by
  rw [popEnvironment]
  split
  all_goals simp_all

theorem popEnvironment_empty (h : s.popText = (some [], rest)) :
    popEnvironment s = some ([], rest) := by
  rw [popEnvironment]
  split
  all_goals simp_all

end

theorem popText_textsCells {text : String} (hnull : '\x00' ∉ text.toList) (texts : List String)
    (rest : List Int) :
    popText ⟨textsCells (text :: texts) ++ rest⟩ =
      (some text.toList, ⟨textsCells texts ++ rest⟩) := by
  rw [textsCells, List.flatMap_cons, List.append_assoc, popText_ofChars hnull, textsCells]

theorem popText_zero (rest : List Int) : popText ⟨0 :: rest⟩ = (some [], ⟨rest⟩) :=
  popText_ofChars List.not_mem_nil rest

theorem popArguments_textsCells :
    ∀ {args : List String}, (∀ a ∈ args, '\x00' ∉ a.toList) →
      (∀ i, args[i]? = some "" → ∃ b, args[i + 1]? = some b ∧ b ≠ "") → ∀ rest : List Int,
      popArguments ⟨textsCells args ++ 0 :: 0 :: rest⟩ = some (args.map String.toList, ⟨rest⟩)
  | [], _, _, rest => by
    have hfirst : popText ⟨textsCells [] ++ 0 :: 0 :: rest⟩ = (some [], ⟨0 :: rest⟩) :=
      popText_zero (0 :: rest)
    rw [popArguments_empty hfirst, popText_zero]
    rfl
  | arg :: args, hnull, hempty, rest => by
    have htext := popText_textsCells (hnull arg List.mem_cons_self) args (0 :: 0 :: rest)
    cases harg : arg.toList with
    | cons c text =>
      rw [harg] at htext
      have htail := popArguments_textsCells (fun a ha => hnull a (List.mem_cons_of_mem _ ha))
        (fun i hi => hempty (i + 1) hi) rest
      rw [popArguments_text htext, htail, List.map_cons, harg]
      rfl
    | nil =>
      rw [harg] at htext
      obtain rfl := String.toList_eq_nil_iff.mp harg
      -- An empty argument does not end the arguments, since the next one is not empty.
      cases args with
      | nil =>
        obtain ⟨b, hb, -⟩ := hempty 0 rfl
        cases hb
      | cons b args =>
        have hb : b ≠ "" := by
          obtain ⟨b', hb', hne⟩ := hempty 0 rfl
          obtain rfl := Option.some.inj hb'
          exact hne
        have hnull' : ∀ a ∈ b :: args, '\x00' ∉ a.toList :=
          fun a ha => hnull a (List.mem_cons_of_mem _ ha)
        have htext' := popText_textsCells (hnull' b List.mem_cons_self) args (0 :: 0 :: rest)
        have htail := popArguments_textsCells (fun a ha => hnull' a (List.mem_cons_of_mem _ ha))
          (fun i hi => hempty (i + 2) hi) rest
        obtain ⟨c, text, hcons⟩ := List.exists_cons_of_ne_nil (mt String.toList_eq_nil_iff.mp hb)
        rw [hcons] at htext'
        rw [popArguments_empty htext, htext']
        simp only [htail, Option.map_some, List.map_cons, harg, hcons]

theorem popEnvironment_textsCells {texts : List String}
    (h : ∀ t ∈ texts, '\x00' ∉ t.toList ∧ t ≠ "") (rest : List Int) :
    popEnvironment ⟨textsCells texts ++ 0 :: rest⟩ = some (texts.map String.toList, ⟨rest⟩) := by
  induction texts with
  | nil => exact popEnvironment_empty (popText_zero rest)
  | cons text texts ih =>
    obtain ⟨hnull, hne⟩ := h text List.mem_cons_self
    have htext := popText_textsCells hnull texts (0 :: rest)
    obtain ⟨c, cs, hcons⟩ := List.exists_cons_of_ne_nil (mt String.toList_eq_nil_iff.mp hne)
    rw [hcons] at htext
    have htail := ih fun t ht => h t (List.mem_cons_of_mem _ ht)
    rw [popEnvironment_text htext, htail, List.map_cons, hcons]
    rfl

/-- A variable is told by its name, an equals sign and its value, so its text is not empty. -/
theorem environmentTexts_of_mem {env : Environment}
    (h : ∀ e ∈ env, '\x00' ∉ e.1.toList ∧ '\x00' ∉ e.2.toList) :
    ∀ t ∈ environmentTexts env, '\x00' ∉ t.toList ∧ t ≠ "" := by
  intro t ht
  obtain ⟨e, he, rfl⟩ := List.mem_map.mp ht
  obtain ⟨hname, hvalue⟩ := h e ((List.mergeSort_perm env _).mem_iff.mp he)
  constructor
  · simp [hname, hvalue]
  · intro hnone
    simpa using congrArg String.toList hnone

theorem pairwise_sorted (env : Environment) : env.sorted.Pairwise (·.1 ≤ ·.1) := by
  have hsorted : env.sorted.Pairwise fun a b => decide (a.1 ≤ b.1) = true := by
    apply List.pairwise_mergeSort
    · intro a b c hab hbc
      exact decide_eq_true (String.le_trans (of_decide_eq_true hab) (of_decide_eq_true hbc))
    · intro a b
      simpa using String.le_total a.1 b.1
  exact hsorted.imp of_decide_eq_true

/-- The report on a world and a pointer, with the variables in the order of `entries`.  The clock is
read twice, for the time and then for the date. -/
def Report.about (w : World) (ip : Pointer) (entries : Environment) : Report where
  flags := SystemReport.flags w.config
  cellBytes := SystemReport.cellBytes
  handprint := SystemReport.handprint
  version := SystemReport.version
  paradigm := SystemReport.paradigm w.config
  pathSeparator := SystemReport.pathSeparator
  dimensions := SystemReport.dimensions
  id := ip.id
  team := 0
  position := ip.position
  delta := ip.delta
  storage := ip.storage
  least := w.space.bounds.least
  extent := w.space.bounds.greatest - w.space.bounds.least
  date := w.readClock.2.clock.date
  time := w.clock.time
  depth := ip.pile.size
  sizes := ip.pile.sizes.map Int.ofNat
  arguments := w.config.args.map String.toList
  environment := entries.map fun (name, value) => (name ++ "=" ++ value).toList

theorem read_cells {w : World} (ip : Pointer) (hnull : ∀ a ∈ w.config.args, '\x00' ∉ a.toList)
    (hempty : ∀ i, w.config.args[i]? = some "" → ∃ b, w.config.args[i + 1]? = some b ∧ b ≠ "")
    (henv : ∀ e ∈ w.environment, '\x00' ∉ e.1.toList ∧ '\x00' ∉ e.2.toList) (rest : List Int) :
    read ⟨cells w ip ++ rest⟩ = some (Report.about w ip w.environment.sorted, ⟨rest⟩) := by
  have hsizes : Int.ofNat ip.pile.size = (ip.pile.sizes.map Int.ofNat).length := by
    simp [StackStack.size, StackStack.sizes, StackStack.toList]
  have hvariables : (environmentTexts w.environment).map String.toList =
      w.environment.sorted.map fun (name, value) => (name ++ "=" ++ value).toList := by
    rw [environmentTexts, List.map_map]
    rfl
  simp only [read, cells, vecCells, List.append_assoc, List.cons_append, List.nil_append, pop,
    popVec, take_append _ _ hsizes, popArguments_textsCells hnull hempty,
    popEnvironment_textsCells (environmentTexts_of_mem henv), hvariables, Option.bind_eq_bind,
    Option.bind_some]
  rfl

theorem pile_report {w : World} {ip : Pointer} (h : ip.pop.1 ≤ 0) :
    (Execute.report ip w).pile = ip.pop.2.pile.pushAll (cells w ip.pop.2) := by
  rw [Execute.report]
  simp only [if_neg (Int.not_lt.mpr h)]
  rfl

/-- The whole report can be read.  A pointer that asks for it gets cells from which its own state
and the world are told: the sizes of its stacks as they were before, the arguments in their order
and the variables in the order of their names.  Reading takes off all the cells of the report and
no other. -/
theorem read_report (w : World) (ip : Pointer) (hwhole : ip.pop.1 ≤ 0)
    (hnull : ∀ a ∈ w.config.args, '\x00' ∉ a.toList)
    (hempty : ∀ i, w.config.args[i]? = some "" → ∃ b, w.config.args[i + 1]? = some b ∧ b ≠ "")
    (henv : ∀ e ∈ w.environment, '\x00' ∉ e.1.toList ∧ '\x00' ∉ e.2.toList) :
    ∃ entries : Environment,
      entries.Perm w.environment ∧ entries.Pairwise (·.1 ≤ ·.1) ∧
      read (Execute.report ip w).pile.top =
        some (Report.about w ip.pop.2 entries, ip.pop.2.pile.top) ∧
      (Execute.report ip w).pile.top.size =
        (cells w ip.pop.2).length + ip.pop.2.pile.top.size := by
  refine ⟨w.environment.sorted, List.mergeSort_perm w.environment _, pairwise_sorted _, ?_, ?_⟩
  · rw [pile_report hwhole]
    exact read_cells ip.pop.2 hnull hempty henv _
  · rw [pile_report hwhole]
    exact List.length_append

/-- A world with an empty argument, an empty variable and a program that starts left of the
origin. -/
def office : World where
  memory := { space := (Space.empty.put ⟨-1, 2⟩ 65).put ⟨4, 3⟩ 66 }
  console := { input := .ofText [] }
  clock := ⟨2024, 2, 29, 23, 59, 58⟩
  config := { args := ["prog.bf", "", "é"] }
  environment := [("HOME", "/"), ("A", "")]

/-- A pointer with two stacks that asks for the whole report. -/
def clerk : Pointer := { id := 3, position := ⟨4, 3⟩, pile := ⟨⟨[0, 7, 0]⟩, [⟨[5]⟩]⟩ }

theorem read_report_office :
    ∃ report, read (Execute.report clerk office).pile.top = some (report, ⟨[7, 0]⟩) ∧
      report.id = 3 ∧ report.least = ⟨-1, 0⟩ ∧ report.extent = ⟨5, 3⟩ ∧
      report.depth = 2 ∧ report.sizes = [2, 1] ∧
      report.arguments = [['p', 'r', 'o', 'g', '.', 'b', 'f'], [], ['é']] ∧
      report.environment = [['A', '='], ['H', 'O', 'M', 'E', '=', '/']] := by
  have hempty : ∀ i : Nat, office.config.args[i]? = some "" →
      ∃ b, office.config.args[i + 1]? = some b ∧ b ≠ "" := by
    intro i hi
    match i with
    | 1 => exact ⟨"é", rfl, by decide⟩
    | 0 | 2 | _ + 3 => exact absurd hi (by simp [office])
  obtain ⟨entries, hperm, hsorted, hread, -⟩ :=
    read_report office clerk (by decide) (by decide) hempty (by decide)
  rcases List.perm_pair.mp hperm with rfl | rfl
  · exact absurd hsorted (by decide +kernel)
  · exact ⟨_, hread, by decide +kernel⟩

end SystemReport

/-! ## Picking one cell -/

/-- The pointer with other cells on its topmost stack. -/
def Pointer.holding (ip : Pointer) (cells : List Int) : Pointer :=
  ip.withPile { ip.pile with top := ⟨cells⟩ }

namespace SystemReport

theorem cell_report (ip : Pointer) (w : World) :
    Execute.cell (Cell.ofChar 'y') ip w = ⟨Execute.report ip w, w.afterReport, none⟩ := by
  have hcommand : Command.ofCell? (Cell.ofChar 'y') = some .report := by decide +kernel
  rw [Execute.cell, Execute.obey, hcommand]
  rfl

/-- The report does not depend on which part of it is asked for: it is made once the number that
asks is off the stack. -/
theorem report_holding (ip : Pointer) (w : World) (n : Int) (s : List Int) :
    Execute.report (ip.holding (n :: s)) w =
      ip.holding (if 0 < n then
        (cells w (ip.holding s) ++ s).getD (n - 1).toNat 0 :: s
      else cells w (ip.holding s) ++ s) := by
  have hpop : (ip.holding (n :: s)).pop = (n, ip.holding s) := rfl
  rw [Execute.report, hpop]
  dsimp only
  generalize cells w (ip.holding s) = report
  have hpushed : (ip.holding s).pile.pushAll report = ⟨⟨report ++ s⟩, ip.pile.below⟩ := rfl
  rw [hpushed]
  split
  next hpos =>
    have hdiscard : StackStack.discard ⟨⟨report ++ s⟩, ip.pile.below⟩ report.length =
        ⟨⟨s⟩, ip.pile.below⟩ := by
      rw [StackStack.discard, Stack.discard, Int.toNat_natCast, List.drop_left]
    have hnth : StackStack.nth ⟨⟨report ++ s⟩, ip.pile.below⟩ n =
        (report ++ s).getD (n - 1).toNat 0 := if_pos hpos
    rw [hdiscard, hnth]
    rfl
  next => rfl

/-- Asking for one cell agrees with asking for the whole report.  Over the cells `s` the whole
report leaves the same cells `report` whatever is asked for, and a positive number `n` leaves
exactly one: the `n`-th of the report, or of the cells under it where `n` goes past the report, or
zero where there is none.  Everything else is left as it was in the pointer, and in the world the
clock goes on in the same way. -/
theorem pick_agrees_with_report (w : World) (ip : Pointer) (s : List Int) :
    ∃ report : List Int,
      Execute.cell (Cell.ofChar 'y') (ip.holding (0 :: s)) w =
        ⟨ip.holding (report ++ s), w.afterReport, none⟩ ∧
      ∀ n : Nat, 0 < n → ∃ v,
        Execute.cell (Cell.ofChar 'y') (ip.holding (n :: s)) w =
          ⟨ip.holding (v :: s), w.afterReport, none⟩ ∧
        v = (report ++ s).getD (n - 1) 0 ∧
        (n ≤ report.length → report[n - 1]? = some v) ∧
        (∀ k < s.length, n = report.length + k + 1 → s[k]? = some v) ∧
        (report.length + s.length < n → v = 0) := by
  refine ⟨cells w (ip.holding s), ?_, fun n hn => ⟨_, ?_, rfl, fun hle => ?_, fun k hk hn => ?_,
    fun hlt => ?_⟩⟩
  · rw [cell_report, report_holding, if_neg (by decide)]
  · have hplace : ((n : Int) - 1).toNat = n - 1 := by omega
    rw [cell_report, report_holding, if_pos (by omega), hplace]
  · have hlt : n - 1 < (cells w (ip.holding s)).length := by omega
    rw [List.getD_append _ _ _ _ hlt, List.getD_eq_getElem _ _ hlt, List.getElem?_eq_getElem hlt]
  · have hplace : n - 1 - (cells w (ip.holding s)).length = k := by omega
    rw [List.getD_append_right _ _ _ _ (by omega), hplace, List.getD_eq_getElem _ _ hk,
      List.getElem?_eq_getElem hk]
  · exact List.getD_eq_default _ _ (by rw [List.length_append]; omega)

/-- The report on the office has forty-eight cells, and under it lie two others. -/
theorem pick_agrees_with_report_office :
    (Execute.cell (Cell.ofChar 'y') (clerk.holding [8, 7, 0]) office).pointer =
      clerk.holding [3, 7, 0] ∧
    (Execute.cell (Cell.ofChar 'y') (clerk.holding [49, 7, 0]) office).pointer =
      clerk.holding [7, 7, 0] ∧
    (Execute.cell (Cell.ofChar 'y') (clerk.holding [51, 7, 0]) office).pointer =
      clerk.holding [0, 7, 0] := by
  obtain ⟨report, hwhole, hpick⟩ := pick_agrees_with_report office clerk [7, 0]
  have hcells : (Execute.report (clerk.holding [0, 7, 0]) office).pile.top.cells =
      report ++ [7, 0] := by
    rw [cell_report] at hwhole
    exact congrArg (·.pointer.pile.top.cells) hwhole
  have hshown (n : Nat) (v : Int) (hn : 0 < n)
      (hv : (Execute.report (clerk.holding [0, 7, 0]) office).pile.top.cells.getD (n - 1) 0 = v) :
      (Execute.cell (Cell.ofChar 'y') (clerk.holding [n, 7, 0]) office).pointer =
        clerk.holding [v, 7, 0] := by
    obtain ⟨u, hcell, hu, -⟩ := hpick n hn
    rw [hcell, hu, ← hcells, hv]
  exact ⟨hshown 8 3 (by decide) (by decide +kernel), hshown 49 7 (by decide) (by cbv),
    hshown 51 0 (by decide) (by cbv)⟩

end SystemReport

end Befunge
