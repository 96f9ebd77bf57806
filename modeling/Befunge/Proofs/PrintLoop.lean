import Befunge.Proofs.Solo
import Befunge.Proofs.Words

/-!
# A program that prints a text

The program is one row: a string that holds the text backwards, and a loop that writes the stack
from its top on until a zero comes up.  In string mode a run of blanks is pushed as one, so the
text that is written is the text with its blanks squeezed (`PrintLoop.prints_squeezed`).

The string is followed by induction on what is left of it (`PrintLoop.string_leads`), and the
loop by induction on the characters on the stack (`PrintLoop.loop_leads`).  On the empty stack
the loop duplicates a zero that is not there, and leaves by its other end.
-/

namespace Befunge.PrintLoop

/-! ## Squeezed texts -/

/-- The text with every run of blanks replaced by one blank: a blank that is followed by another
one is left out. -/
def squeeze : List Char → List Char
  | [] => []
  | c :: rest => if c = ' ' ∧ rest.head? = some ' ' then squeeze rest else c :: squeeze rest

theorem squeeze_cons (c : Char) (rest : List Char) :
    squeeze (c :: rest) =
      if c = ' ' ∧ rest.head? = some ' ' then squeeze rest else c :: squeeze rest := rfl

theorem squeeze_cons_of_ne {c : Char} (hc : c ≠ ' ') (rest : List Char) :
    squeeze (c :: rest) = c :: squeeze rest :=
  if_neg fun h => hc h.1

/-- A blank stands for all blanks that follow it. -/
theorem squeeze_blank (rest : List Char) :
    ∃ blanks later, rest = blanks ++ later ∧ (∀ b ∈ blanks, b = ' ') ∧
      later.head? ≠ some ' ' ∧ squeeze (' ' :: rest) = ' ' :: squeeze later := by
  induction rest with
  | nil => exact ⟨[], [], rfl, by simp, by simp, rfl⟩
  | cons c rest ih =>
      by_cases hc : c = ' '
      · subst hc
        obtain ⟨blanks, later, hrest, hblanks, hhead, hsqueeze⟩ := ih
        refine ⟨' ' :: blanks, later, by rw [hrest, List.cons_append], ?_, hhead, ?_⟩
        · exact List.forall_mem_cons.mpr ⟨rfl, hblanks⟩
        · rw [squeeze_cons, if_pos ⟨rfl, rfl⟩, hsqueeze]
      · refine ⟨[], c :: rest, rfl, by simp, by simpa using hc, ?_⟩
        rw [squeeze_cons, if_neg (by simp [hc])]

theorem squeeze_concat (text : List Char) (c : Char) :
    squeeze (text ++ [c]) =
      if c = ' ' ∧ text.getLast? = some ' ' then squeeze text else squeeze text ++ [c] := by
  induction text with
  | nil => simp [squeeze]
  | cons d rest ih =>
      cases rest with
      | nil =>
          by_cases hd : d = ' ' <;> by_cases hc : c = ' ' <;> simp [squeeze, hd, hc]
      | cons e rest =>
          have hhead : (e :: rest ++ [c]).head? = (e :: rest).head? := rfl
          rw [List.getLast?_cons_cons, List.cons_append, squeeze_cons d, hhead, ih, squeeze_cons d]
          split <;> split <;> rfl

/-- Squeezing a text from its end is the same. -/
theorem squeeze_reverse (text : List Char) : squeeze text.reverse = (squeeze text).reverse := by
  induction text with
  | nil => rfl
  | cons c rest ih =>
      rw [List.reverse_cons, squeeze_concat, List.getLast?_reverse, ih, squeeze_cons]
      split <;> simp

theorem mem_of_mem_squeeze {text : List Char} {c : Char} (h : c ∈ squeeze text) : c ∈ text := by
  induction text with
  | nil => exact h
  | cons d rest ih =>
      rw [squeeze] at h
      split at h
      · exact List.mem_cons_of_mem d (ih h)
      · rcases List.mem_cons.mp h with rfl | h
        · exact List.mem_cons_self
        · exact List.mem_cons_of_mem d (ih h)

/-! ## The program -/

/-- The loop that writes the stack. -/
def loop : List Char := ['>', ':', '#', ',', '_', '@']

/-- The program that prints a text. -/
def program (text : List Char) : List Char := '"' :: (text.reverse ++ '"' :: loop)

/-- A pointer of the first row with one stack. -/
def thread (i : Nat) (delta : Vec) (cells : List Int) (stringMode : Bool) : Pointer :=
  { id := 0, position := .col i, delta := delta, pile := ⟨⟨cells⟩, []⟩, stringMode := stringMode }

section

variable {s : Space}

theorem thread_step {i j : Nat} {delta : Vec} {cells : List Int} {stringMode : Bool}
    (h : s.bounds.next (.col i) delta = .col j) :
    (thread i delta cells stringMode).step s = thread j delta cells stringMode := by
  simp only [Pointer.step, thread, Pointer.moveTo, h]

/-- A command of a thread that goes on to a cell it comes to a halt on. -/
theorem leads_of_command {i i' j : Nat} {delta delta' : Vec} {cells cells' : List Int}
    {text text' : String} (c : Command)
    (hcell : Command.ofCell? (s.read (.col i)) = some c)
    (hrun : ∀ repetition w, w.Calm s text →
      (Execute.run repetition c (thread i delta cells false) w).Calm s
        ⟨thread i' delta' cells' false, text'⟩)
    (hnext : s.bounds.next (.col i') delta' = .col j) (hhalts : s.Halts (.col j)) :
    s.Leads ⟨thread i delta cells false, text⟩ ⟨thread j delta' cells' false, text'⟩ := by
  have hsteps : s.Steps ⟨thread i delta cells false, text⟩
      ⟨(thread i' delta' cells' false).step s, text'⟩ :=
    Space.steps_of_command rfl hcell hrun rfl (.inr (by rw [show
      s.bounds.next (thread i' delta' cells' false).position
        (thread i' delta' cells' false).delta = .col j from hnext]; exact hhalts))
  rw [thread_step hnext] at hsteps
  exact hsteps.leads rfl

end

/-! ### The string -/

section

variable {s : Space} {row before others : List Char} {d : Char} (h : s.IsRow row)
  (cells : List Int) (text : String)

include h

theorem leads_of_char {c : Char} (hrow : row = before ++ c :: d :: others) (hquote : c ≠ '"')
    (hblank : c ≠ ' ') :
    s.Leads ⟨thread before.length Vec.east cells true, text⟩
      ⟨thread (before.length + 1) Vec.east (Cell.ofChar c :: cells) true, text⟩ := by
  have hnext := h.next_east (i := before.length) (by simp [hrow])
  have hquote' : Cell.ofChar c ≠ Cell.quote := Cell.ofChar_ne hquote
  have hblank' : Cell.ofChar c ≠ Cell.blank := Cell.ofChar_ne hblank
  refine Space.Steps.leads (Space.steps_of_string rfl (h.read_append hrow) fun m hm => ?_) rfl
  rw [if_neg hquote', decide_eq_false hblank', Space.advance_of_halts (.inl rfl), hm]
  exact thread_step hnext

/-- A blank is pushed, and the blanks after it are passed over. -/
theorem leads_of_blanks {blanks : List Char}
    (hrow : row = before ++ [' '] ++ blanks ++ d :: others) (hblanks : ∀ b ∈ blanks, b = ' ')
    (hd : d ≠ ' ') :
    s.Leads ⟨thread before.length Vec.east cells true, text⟩
      ⟨thread (before.length + 1 + blanks.length) Vec.east (Cell.ofChar ' ' :: cells) true,
        text⟩ := by
  have hcell : s.read (.col before.length) = Cell.ofChar ' ' :=
    h.read_append (show row = before ++ ' ' :: (blanks ++ d :: others) by simp [hrow])
  have hnext := h.next_east (i := before.length) (by simp [hrow])
  have hskip := h.skipBlanks hrow hblanks hd
  rw [List.length_append, List.length_singleton] at hskip
  refine Space.Steps.leads (Space.steps_of_string rfl hcell fun m hm => ?_) rfl
  have hstep : ((thread before.length Vec.east cells true).push (Cell.ofChar ' ')).step s =
      thread (before.length + 1) Vec.east (Cell.ofChar ' ' :: cells) true := thread_step hnext
  have hmoved : (Course.skipBlanks s
      (thread (before.length + 1) Vec.east (Cell.ofChar ' ' :: cells) true).delta
      (thread (before.length + 1) Vec.east (Cell.ofChar ' ' :: cells) true).position).1 =
        .col (before.length + 1 + blanks.length) := hskip
  rw [if_neg (by decide), decide_eq_true (by decide), Pointer.advance, hm, hstep]
  simp only [Pointer.skipBlanks, hm, hmoved]
  rfl

theorem leads_of_quote (hrow : row = before ++ '"' :: d :: others) (hblank : d ≠ ' ')
    (hsemicolon : d ≠ ';') :
    s.Leads ⟨thread before.length Vec.east cells true, text⟩
      ⟨thread (before.length + 1) Vec.east cells false, text⟩ := by
  have hnext := h.next_east (i := before.length) (by simp [hrow])
  have hcell := h.read_append (show row = (before ++ ['"']) ++ d :: others by simp [hrow])
  rw [List.length_append, List.length_singleton] at hcell
  have hhalts : s.Halts (.col (before.length + 1)) := by
    rw [Space.Halts, hcell]
    exact ⟨Cell.ofChar_ne hblank, Cell.ofChar_ne hsemicolon⟩
  refine Space.Steps.leads (Space.steps_of_string rfl (h.read_append hrow) fun m hm => ?_) rfl
  have hstep : ((thread before.length Vec.east cells true).withStringMode false).step s =
      thread (before.length + 1) Vec.east cells false := thread_step hnext
  rw [if_pos (by decide), decide_eq_false (by decide), Space.advance_of_halts, hm, hstep]
  right
  rw [hm]
  exact hnext.symm ▸ hhalts

end

/-- The string pushes its characters, with every run of blanks as one. -/
theorem string_leads {s : Space} {row after : List Char} (h : s.IsRow row) (text : String)
    {rest before : List Char} (cells : List Int) (hrow : row = before ++ rest ++ '"' :: after)
    (hquote : ∀ c ∈ rest, c ≠ '"') :
    s.Leads ⟨thread before.length Vec.east cells true, text⟩
      ⟨thread (before.length + rest.length) Vec.east
        ((squeeze rest).reverse.map Cell.ofChar ++ cells) true, text⟩ := by
  -- a run of blanks is gone in one tick, so the induction is on the length of what is left
  induction hn : rest.length using Nat.strong_induction_on generalizing rest before cells with
  | _ n ih =>
      subst hn
      cases rest with
      | nil => exact .refl _
      | cons c rest =>
          have hquotes : ∀ d ∈ rest, d ≠ '"' := fun d hd => hquote d (List.mem_cons_of_mem c hd)
          by_cases hc : c = ' '
          · subst hc
            obtain ⟨blanks, later, rfl, hblanks, hhead, hsqueeze⟩ := squeeze_blank rest
            obtain ⟨d, others, hothers, hd⟩ : ∃ d others,
                later ++ '"' :: after = d :: others ∧ d ≠ ' ' := by
              cases later with
              | nil => exact ⟨'"', after, rfl, by decide⟩
              | cons d later => exact ⟨d, _, rfl, by simpa using hhead⟩
            have hfirst := leads_of_blanks h cells text
              (show row = before ++ [' '] ++ blanks ++ d :: others by simp [hrow, ← hothers])
              hblanks hd
            have hless : later.length < (' ' :: (blanks ++ later)).length := by
              rw [List.length_cons, List.length_append]
              omega
            have hlater := ih later.length hless (Cell.ofChar ' ' :: cells)
              (show row = (before ++ ' ' :: blanks) ++ later ++ '"' :: after by simp [hrow])
              (fun d hd => hquotes d (List.mem_append_right _ hd)) rfl
            have hposition : (before ++ ' ' :: blanks).length =
                before.length + 1 + blanks.length := by
              simp only [List.length_append, List.length_cons]
              omega
            have hend : before.length + 1 + blanks.length + later.length =
                before.length + (' ' :: (blanks ++ later)).length := by
              simp only [List.length_append, List.length_cons]
              omega
            rw [hposition, hend] at hlater
            refine hfirst.trans ?_
            simpa [hsqueeze] using hlater
          · obtain ⟨d, others, hothers⟩ : ∃ d others, rest ++ '"' :: after = d :: others :=
              List.exists_cons_of_ne_nil (by simp)
            have hfirst := leads_of_char h cells text
              (show row = before ++ c :: d :: others by simp [hrow, ← hothers])
              (hquote c List.mem_cons_self) hc
            have hlater := ih rest.length (Nat.lt_succ_self _) (Cell.ofChar c :: cells)
              (show row = (before ++ [c]) ++ rest ++ '"' :: after by simp [hrow]) hquotes rfl
            refine hfirst.trans ?_
            simpa [squeeze_cons_of_ne hc, Nat.add_assoc, Nat.add_comm 1] using hlater

/-! ### The loop -/

theorem check_ofChar (c : Char) : CharError.check (Cell.ofChar c) = .ok c := by
  have hvalid := c.valid
  have hsurrogate : ¬ (0xD800 ≤ Cell.ofChar c ∧ Cell.ofChar c ≤ 0xDFFF) := by
    simp only [UInt32.isValidChar, Nat.isValidChar] at hvalid
    simp only [Cell.ofChar, Int.ofNat_eq_natCast, ← Char.toNat_val]
    omega
  rw [CharError.check, if_neg hsurrogate, if_neg (not_not_intro (Cell.isWord_ofChar c)),
    Cell.char?_ofChar]

theorem writeChar_calm {s : Space} {w : World} {text : String} (h : w.Calm s text) (i : Nat)
    (delta : Vec) (c : Char) (cells : List Int) :
    (Execute.writeChar (thread i delta (Cell.ofChar c :: cells) false) w).Calm s
      ⟨thread i delta cells false, text ++ c.toString⟩ := by
  have hwrite : w.console.writeChar (Cell.ofChar c) =
      .ok { w.console with output := { written := some (text ++ c.toString) } } := by
    simp only [Console.writeChar, check_ofChar, Console.write, Output.write, h.output]
    rfl
  have hpop : (thread i delta (Cell.ofChar c :: cells) false).pop =
      (Cell.ofChar c, thread i delta cells false) := rfl
  simp only [Execute.writeChar, hpop, hwrite, Execute.afterWriting]
  exact ⟨rfl, h.withOutput rfl, rfl⟩

section

variable {s : Space} {row before : List Char} (h : s.IsRow row) (hrow : row = before ++ loop)

include h hrow

theorem read_loop {j : Nat} {c : Char} (hc : loop[j]? = some c) :
    s.read (.col (before.length + j)) = Cell.ofChar c := by
  refine h.read _ c ?_
  rw [hrow, List.getElem?_append_right (Nat.le_add_right _ _), Nat.add_sub_cancel_left, hc]

theorem halts_loop {j : Nat} (hj : j < loop.length) : s.Halts (.col (before.length + j)) := by
  have hmem : ∀ c ∈ loop, Cell.ofChar c ≠ Cell.blank ∧ Cell.ofChar c ≠ Cell.semicolon := by
    simp only [loop, List.forall_mem_cons, List.not_mem_nil, false_implies, implies_true]
    decide
  rw [Space.Halts, read_loop h hrow (List.getElem?_eq_getElem hj)]
  exact hmem _ (List.getElem_mem hj)

theorem next_east_loop {j : Nat} (hj : j < 5) :
    s.bounds.next (.col (before.length + j)) Vec.east = .col (before.length + (j + 1)) :=
  h.next_east (by simp [hrow, loop]; omega)

theorem next_west_loop {j : Nat} (hj : j < 5) :
    s.bounds.next (.col (before.length + (j + 1))) Vec.west = .col (before.length + j) :=
  h.next_west (by simp [hrow, loop]; omega)

theorem command_loop {j : Nat} {c : Char} {command : Command} (hc : loop[j]? = some c)
    (hcommand : Command.ofCell? (Cell.ofChar c) = some command) :
    Command.ofCell? (s.read (.col (before.length + j))) = some command := by
  rw [read_loop h hrow hc, hcommand]

/-- The way from the beginning of the loop to its condition, with the top cell once more. -/
theorem leads_to_condition (delta : Vec) (cells : List Int) (text : String) :
    s.Leads ⟨thread (before.length + 0) delta cells false, text⟩
      ⟨thread (before.length + 4) Vec.east (cells.headD 0 :: cells.headD 0 :: cells.tail) false,
        text⟩ := by
  have hduplicate (i : Nat) : Execute.duplicate (thread i Vec.east cells false) =
      thread i Vec.east (cells.headD 0 :: cells.headD 0 :: cells.tail) false := by
    cases cells <;> rfl
  have hjump {w : World} (hw : w.Calm s text) (cells : List Int) :
      (thread (before.length + 2) Vec.east cells false).step w.space =
        thread (before.length + 3) Vec.east cells false := by
    rw [hw.space]
    exact thread_step (next_east_loop h hrow (by decide))
  calc
    s.Leads ⟨thread (before.length + 0) delta cells false, text⟩
        ⟨thread (before.length + 1) Vec.east cells false, text⟩ :=
      leads_of_command (.go Vec.east) (command_loop h hrow rfl rfl)
        (fun _ _ hw => ⟨rfl, hw, rfl⟩) (next_east_loop h hrow (by decide))
        (halts_loop h hrow (by decide))
    s.Leads _ ⟨thread (before.length + 2) Vec.east
        (cells.headD 0 :: cells.headD 0 :: cells.tail) false, text⟩ :=
      leads_of_command .duplicate (command_loop h hrow rfl rfl)
        (fun _ _ hw => ⟨hduplicate _, hw, rfl⟩) (next_east_loop h hrow (by decide))
        (halts_loop h hrow (by decide))
    s.Leads _ ⟨thread (before.length + 4) Vec.east
        (cells.headD 0 :: cells.headD 0 :: cells.tail) false, text⟩ :=
      leads_of_command .trampoline (command_loop h hrow rfl rfl)
        (fun _ _ hw => ⟨hjump hw _, hw, rfl⟩) (next_east_loop h hrow (by decide))
        (halts_loop h hrow (by decide))

/-- One round of the loop writes the top of the stack. -/
theorem round_leads (delta : Vec) {c : Char} (hc : c ≠ '\x00') (cells : List Int) (text : String) :
    s.Leads ⟨thread (before.length + 0) delta (Cell.ofChar c :: cells) false, text⟩
      ⟨thread (before.length + 0) Vec.west cells false, text ++ c.toString⟩ := by
  have hne : Cell.ofChar c ≠ 0 := Cell.ofChar_ne hc
  have hchoose (i : Nat) : Execute.choose Vec.east Vec.west
      (thread i Vec.east (Cell.ofChar c :: Cell.ofChar c :: cells) false) =
        thread i Vec.west (Cell.ofChar c :: cells) false :=
    congrArg (thread i Vec.east (Cell.ofChar c :: cells) false).head (if_neg hne)
  have hjump {w : World} {text : String} (hw : w.Calm s text) :
      (thread (before.length + 2) Vec.west cells false).step w.space =
        thread (before.length + 1) Vec.west cells false := by
    rw [hw.space]
    exact thread_step (next_west_loop h hrow (by decide))
  calc
    s.Leads ⟨thread (before.length + 0) delta (Cell.ofChar c :: cells) false, text⟩
        ⟨thread (before.length + 4) Vec.east (Cell.ofChar c :: Cell.ofChar c :: cells) false,
          text⟩ :=
      leads_to_condition h hrow delta _ text
    s.Leads _ ⟨thread (before.length + 3) Vec.west (Cell.ofChar c :: cells) false, text⟩ :=
      leads_of_command .eastWestIf (command_loop h hrow rfl rfl)
        (fun _ _ hw => ⟨hchoose _, hw, rfl⟩) (next_west_loop h hrow (by decide))
        (halts_loop h hrow (by decide))
    s.Leads _ ⟨thread (before.length + 2) Vec.west cells false, text ++ c.toString⟩ :=
      leads_of_command .writeChar (command_loop h hrow rfl rfl)
        (fun _ _ hw => writeChar_calm hw _ _ c cells) (next_west_loop h hrow (by decide))
        (halts_loop h hrow (by decide))
    s.Leads _ ⟨thread (before.length + 0) Vec.west cells false, text ++ c.toString⟩ :=
      leads_of_command .trampoline (command_loop h hrow rfl rfl)
        (fun _ _ hw => ⟨hjump hw, hw, rfl⟩) (next_west_loop h hrow (by decide))
        (halts_loop h hrow (by decide))

/-- The loop writes the stack. -/
theorem loop_leads (text : List Char) : ∀ (delta : Vec) (written : String),
    (∀ c ∈ text, c ≠ '\x00') → ∃ delta',
      s.Leads ⟨thread (before.length + 0) delta (text.map Cell.ofChar) false, written⟩
        ⟨thread (before.length + 0) delta' [] false, written ++ String.ofList text⟩ := by
  induction text with
  | nil =>
      intro delta written _
      exact ⟨delta, by simpa using .refl _⟩
  | cons c rest ih =>
      intro delta written hnull
      obtain ⟨delta', hrest⟩ := ih Vec.west (written ++ c.toString)
        (fun d hd => hnull d (List.mem_cons_of_mem c hd))
      refine ⟨delta', (round_leads h hrow delta (hnull c List.mem_cons_self) _ written).trans ?_⟩
      have htext : written ++ String.ofList (c :: rest) =
          written ++ c.toString ++ String.ofList rest := by
        rw [← String.toList_inj]
        simp [Char.toString]
      rw [htext]
      exact hrest

/-- On the empty stack the loop is left at its end. -/
theorem exit_leads (delta : Vec) (text : String) :
    s.Leads ⟨thread (before.length + 0) delta [] false, text⟩
      ⟨thread (before.length + 5) Vec.east [0] false, text⟩ :=
  (leads_to_condition h hrow delta [] text).trans
    (leads_of_command .eastWestIf (command_loop h hrow rfl rfl) (fun _ _ hw => ⟨rfl, hw, rfl⟩)
      (next_east_loop h hrow (by decide)) (halts_loop h hrow (by decide)))

end

/-! ## The whole program -/

theorem program_eq (text : List Char) :
    program text = '"' :: (text.reverse ++ ['"']) ++ loop := by
  simp [program]

/-- The program is a row that ends in a stop. -/
theorem program_isRow {text : List Char} (h : ∀ c ∈ text, c ∉ ['\r', '\n', '\x0c']) :
    (Space.ofText (program text)).IsRow (program text) := by
  have hmem {c : Char} (hc : c ∈ ['\r', '\n', '\x0c']) : c ∉ program text := by
    have hother : c ∉ '"' :: '"' :: loop := by
      simp only [List.mem_cons, List.not_mem_nil, or_false] at hc
      rcases hc with rfl | rfl | rfl <;> decide
    intro hprogram
    simp only [program, List.mem_cons, List.mem_append, List.mem_reverse] at hprogram hother
    rcases hprogram with hquote | htext | hloop
    · exact hother (.inl hquote)
    · exact h c htext hc
    · exact hother (.inr hloop)
  have hlast : (program text).getLast? = some '@' := by
    rw [program, loop, List.getLast?_cons, List.getLast?_append]
    rfl
  exact Space.ofText_isRow hlast (by decide) (hmem (by decide)) (hmem (by decide))
    (hmem (by decide))

section

variable {s : Space} {text : List Char} (h : s.IsRow (program text))

include h

theorem leads_into_string (written : String) :
    s.Leads ⟨thread 0 Vec.east [] false, written⟩ ⟨thread 1 Vec.east [] true, written⟩ := by
  have hcell : s.read (.col 0) = Cell.ofChar '"' := h.read 0 '"' rfl
  have hnext : s.bounds.next (.col 0) Vec.east = .col 1 := h.next_east (by simp [program])
  have hsteps : s.Steps ⟨thread 0 Vec.east [] false, written⟩
      ⟨(thread 0 Vec.east [] true).step s, written⟩ :=
    Space.steps_of_command (c := .beginString) rfl (congrArg Command.ofCell? hcell)
      (fun _ _ hw => ⟨rfl, hw, rfl⟩) rfl (.inl rfl)
  rw [thread_step hnext] at hsteps
  exact hsteps.leads rfl

/-- From its first cell on the program gets to its last one, with the text written. -/
theorem program_leads (hquote : '"' ∉ text) (hnull : '\x00' ∉ text) :
    s.Leads ⟨thread 0 Vec.east [] false, ""⟩
      ⟨thread (text.length + 2 + 5) Vec.east [0] false, String.ofList (squeeze text)⟩ := by
  have hlength : ('"' :: (text.reverse ++ ['"'])).length = text.length + 2 := by simp
  have hrow := program_eq text
  have hpushed : (squeeze text.reverse).reverse = squeeze text := by
    rw [squeeze_reverse, List.reverse_reverse]
  have hstring := string_leads h "" []
    (show program text = ['"'] ++ text.reverse ++ '"' :: loop from rfl)
    (fun c hc hsame => hquote (hsame ▸ List.mem_reverse.mp hc))
  have hend := leads_of_quote h ((squeeze text).map Cell.ofChar) ""
    (show program text = '"' :: text.reverse ++ '"' :: '>' :: loop.tail from rfl) (by decide)
    (by decide)
  obtain ⟨delta, hloop⟩ := loop_leads h hrow (squeeze text) Vec.east ""
    (fun c hc hsame => hnull (hsame ▸ mem_of_mem_squeeze hc))
  have hexit := exit_leads h hrow delta ("" ++ String.ofList (squeeze text))
  rw [hpushed, List.append_nil] at hstring
  rw [hlength] at hloop hexit
  rw [String.empty_append] at hloop hexit
  calc
    s.Leads ⟨thread 0 Vec.east [] false, ""⟩ ⟨thread 1 Vec.east [] true, ""⟩ :=
      leads_into_string h ""
    s.Leads _ ⟨thread (text.length + 1) Vec.east ((squeeze text).map Cell.ofChar) true, ""⟩ := by
      simpa [Nat.add_comm] using hstring
    s.Leads _ ⟨thread (text.length + 2) Vec.east ((squeeze text).map Cell.ofChar) false, ""⟩ := by
      simpa using hend
    s.Leads _ ⟨thread (text.length + 2) delta [] false, String.ofList (squeeze text)⟩ := hloop
    s.Leads _ ⟨thread (text.length + 2 + 5) Vec.east [0] false, String.ofList (squeeze text)⟩ :=
      hexit

theorem read_last : s.read (.col (text.length + 2 + 5)) = Cell.ofChar '@' := by
  simpa using read_loop h (program_eq text) (j := 5) rfl

end

/-- The program prints its text with every run of blanks as one, whatever else is in its
surroundings and in its input, and is done. -/
theorem prints_squeezed (setup : Setup) (h : setup.config.Undisturbing) (text input : String)
    (htext : ∀ c ∈ text.toList, c ∉ ['"', '\x00', '\r', '\n', '\x0c']) :
    ∃ ticks final,
      (∀ limit > ticks, setup.run (.text (String.ofList (program text.toList)))
        { input := .ofText input.toList } limit = (.finished, final)) ∧
      final.world.status = .done ∧ final.world.exitCode = some 0 ∧
      final.output = some (String.ofList (squeeze text.toList)) := by
  have hnot {c : Char} (hc : c ∈ ['"', '\x00', '\r', '\n', '\x0c']) : c ∉ text.toList :=
    fun hmem => htext c hmem hc
  have hrow : (Space.ofText (program text.toList)).IsRow (program text.toList) :=
    program_isRow fun c hmem hc => htext c hmem (.tail _ (.tail _ hc))
  have hfirst : (Space.ofText (program text.toList)).Halts Vec.zero := by
    rw [Space.Halts, show Vec.zero = .col 0 from rfl, hrow.read 0 '"' rfl]
    decide
  have hplays := Setup.load_plays h (String.ofList (program text.toList)) input
    (by rwa [String.toList_ofList])
  rw [String.toList_ofList] at hplays
  obtain ⟨ticks, final, hends, hdone, hcode, houtput⟩ :=
    (program_leads hrow (hnot (by decide)) (hnot (by decide))).ends
      (Space.steps_of_stop rfl (congrArg Command.ofCell? (read_last hrow))) rfl hplays
  have hflush : final.flush = .ok final := Machine.flush_eq_self (by rw [houtput])
  exact ⟨ticks, final, fun limit hlimit =>
    Machine.run_eq_finished_iff.mpr ⟨ticks, hlimit, final, hends, hflush⟩, hdone, hcode,
    congrArg Output.written houtput⟩

/-- Blanks in the middle and at both ends of the text, none of them alone. -/
theorem prints_squeezed_blanks :
    ∃ ticks final,
      (∀ limit > ticks,
        Setup.run { clock := ⟨2000, 1, 1, 0, 0, 0⟩ }
          (.text (String.ofList (program "  a   b  ".toList))) { input := .ofText "x".toList }
          limit = (.finished, final)) ∧
      final.world.status = .done ∧ final.world.exitCode = some 0 ∧ final.output = some " a b " :=
  prints_squeezed { clock := ⟨2000, 1, 1, 0, 0, 0⟩ } ⟨rfl, rfl, rfl⟩ "  a   b  " "x"
    (by simp)

end Befunge.PrintLoop
