import Mathlib.Data.List.TakeWhile
import Befunge.Console

/-!
# Reading numbers from a console

Input is handed out in pieces that end with their lines, and the digits of a number are
looked for in one piece at a time.  As no digit is a line feed, no run of digits reaches
from one piece into the next, so a number that is read is a matter of the text that is left
and not of how it is cut (`Console.readInteger_error_iff`).
-/

namespace Befunge

/-! ## Pieces -/

namespace Lines

/-- Every piece that is not the last one is empty or ends with its line. -/
def Parted : List (List Char) → Prop
  | [] => True
  | piece :: rest => (piece = [] ∨ rest = [] ∨ piece.getLast? = some '\n') ∧ Parted rest

theorem nil_not_mem_chunks (text : List Char) : [] ∉ chunks text := by
  induction text with
  | nil => simp [chunks]
  | cons c text ih =>
      simp only [chunks]
      split
      · simpa using ih
      · split
        · simp
        next chunk rest hchunks =>
          rw [hchunks] at ih
          simp only [List.mem_cons, not_or] at ih
          simpa using ih.2

theorem chunks_parted (text : List Char) : Parted (chunks text) := by
  induction text with
  | nil => trivial
  | cons c text ih =>
      have hnil := nil_not_mem_chunks text
      simp only [chunks]
      split
      next hc => exact ⟨.inr (.inr (by simp [hc])), ih⟩
      · split
        · exact ⟨.inr (.inl rfl), trivial⟩
        next chunk rest hchunks =>
          rw [hchunks] at ih hnil
          obtain ⟨hend, hrest⟩ := ih
          refine ⟨?_, hrest⟩
          rcases hend with rfl | rfl | hend
          · simp at hnil
          · exact .inr (.inl rfl)
          · exact .inr (.inr (by simp [List.getLast?_cons, hend]))

/-- What is left of the first piece can stand for it. -/
theorem Parted.of_suffix {piece left : List Char} {rest : List (List Char)}
    (h : Parted (piece :: rest)) (hleft : left <:+ piece) : Parted (left :: rest) := by
  obtain ⟨before, rfl⟩ := hleft
  refine ⟨?_, h.2⟩
  rcases h.1 with hnil | hrest | hend
  · exact .inl (List.append_eq_nil_iff.mp hnil).2
  · exact .inr (.inl hrest)
  · cases hlast : left.getLast? with
    | none => exact .inl (List.getLast?_eq_none_iff.mp hlast)
    | some c =>
        rw [List.getLast?_append, hlast] at hend
        exact .inr (.inr hend)

/-- No run of digits reaches from a piece into the next one. -/
theorem Parted.takeWhile_digits {piece : List Char} {rest : List (List Char)}
    (h : Parted (piece :: rest)) (hpiece : piece ≠ []) :
    (piece ++ rest.flatten).takeWhile Digit.isDigit = piece.takeWhile Digit.isDigit := by
  rw [List.takeWhile_append]
  split
  next hall =>
    have hself : piece.takeWhile Digit.isDigit = piece :=
      (List.takeWhile_prefix _).eq_of_length hall
    rcases h.1 with hnil | hrest | hend
    · exact absurd hnil hpiece
    · simp [hrest, hself]
    · have hmem : '\n' ∈ piece := List.mem_of_getLast? hend
      have hdigit := List.takeWhile_eq_self_iff.mp hself '\n' hmem
      exact absurd hdigit (by decide)
  · rfl

theorem Parted.dropWhile_digits {piece : List Char} {rest : List (List Char)}
    (h : Parted (piece :: rest)) (hpiece : piece ≠ []) :
    (piece ++ rest.flatten).dropWhile Digit.isDigit =
      piece.dropWhile Digit.isDigit ++ rest.flatten := by
  have hwhole : piece.takeWhile Digit.isDigit ++ (piece ++ rest.flatten).dropWhile Digit.isDigit =
      piece.takeWhile Digit.isDigit ++ (piece.dropWhile Digit.isDigit ++ rest.flatten) := by
    rw [← List.append_assoc, List.takeWhile_append_dropWhile, ← h.takeWhile_digits hpiece,
      List.takeWhile_append_dropWhile]
  exact List.append_cancel_left hwhole

end Lines

/-- The output, with no limit to how often it can be flushed. -/
def Output.flushable (o : Output) : Output := { o with flushes := none }

/-! ## Searching -/

namespace Console

/-- The sign after some characters were dropped: whether the last of them is a minus sign, or the
sign from before if there are none. -/
def signAfter (negative : Bool) (dropped : List Char) : Bool :=
  dropped.getLast?.elim negative (· = '-')

theorem signAfter_append (negative : Bool) (first rest : List Char) :
    signAfter negative (first ++ rest) = signAfter (signAfter negative first) rest := by
  simp only [signAfter, List.getLast?_append]
  cases rest.getLast? <;> rfl

theorem seekDigit_eq (text : List Char) (negative : Bool) :
    seekDigit negative text =
      (signAfter negative (text.takeWhile (!Digit.isDigit ·)),
        text.dropWhile (!Digit.isDigit ·)) := by
  induction text generalizing negative with
  | nil => rfl
  | cons c text ih =>
      rw [seekDigit]
      split
      next hc =>
        rw [List.takeWhile_cons_of_neg (by simpa using hc),
          List.dropWhile_cons_of_neg (by simpa using hc)]
        rfl
      next hc =>
        rw [List.takeWhile_cons_of_pos (by simpa using hc),
          List.dropWhile_cons_of_pos (by simpa using hc), ih, ← List.singleton_append,
          signAfter_append]
        rfl

/-! ## Consoles that do not fail -/

/-- A console that does not fail when something is read.  Its input hands out its text in pieces,
and none of them is empty, as that would be the end. -/
structure Steady (c : Console) : Prop where
  parted : Lines.Parted (c.pending :: c.input.lines)
  lines : [] ∉ c.input.lines
  allowance : c.input.allowance = none
  flushes : c.output.flushes = none

theorem ofText_steady (text : List Char) (output : Output) :
    Steady { input := .ofText text, output := output.flushable } :=
  ⟨⟨.inl rfl, Lines.chunks_parted text⟩, Lines.nil_not_mem_chunks text, rfl, rfl⟩

namespace Steady

variable {c : Console}

/-- Taking the next line loses no other text, and only the end of the input leaves the buffer
empty. -/
theorem nextLine (h : c.Steady) :
    ∃ next, c.nextLine = (.ok (), next) ∧ next.Steady ∧
      next.remaining = c.input.lines.flatten ∧ (next.pending = [] → next.remaining = []) := by
  have hread : c.input.readLine = .ok (c.input.lines.headD [], ⟨c.input.lines.tail, none⟩) := by
    rw [Input.readLine, if_neg (by simp [h.allowance]), Input.asked, h.allowance]
    rfl
  have hline : c.nextLine =
      (.ok (), ⟨c.input.lines.headD [], ⟨c.input.lines.tail, none⟩, c.output⟩) := by
    simp only [Console.nextLine, Output.flush_eq_self h.flushes, hread]
  have hparted := h.parted.2
  have hlines := h.lines
  refine ⟨_, hline, ?_⟩
  cases hsplit : c.input.lines with
  | nil => exact ⟨⟨⟨.inl rfl, trivial⟩, List.not_mem_nil, rfl, h.flushes⟩, rfl, fun _ => rfl⟩
  | cons line lines =>
      rw [hsplit] at hparted hlines
      refine ⟨⟨hparted, fun hnil => hlines (.tail _ hnil), rfl, h.flushes⟩, rfl, ?_⟩
      -- a line that is there is not empty
      rintro rfl
      exact absurd List.mem_cons_self hlines

/-- What is left of the buffer can stand for it. -/
theorem of_suffix (h : c.Steady) {left : List Char} (hleft : left <:+ c.pending) :
    Steady { c with pending := left } :=
  ⟨h.parted.of_suffix hleft, h.lines, h.allowance, h.flushes⟩

end Steady

/-- What a search for a number in a text comes to, where `negative` is the sign before the text. -/
inductive Finds (negative : Bool) (text : List Char) : Search → Prop where
  | found {sign : Bool} {c : Console} : c.Steady → c.pending ≠ [] →
      signAfter negative (text.takeWhile (!Digit.isDigit ·)) = sign →
      text.dropWhile (!Digit.isDigit ·) = c.remaining → Finds negative text (.found sign c)
  | exhausted {c : Console} : c.Steady → c.remaining = [] →
      text.dropWhile (!Digit.isDigit ·) = [] → Finds negative text (.exhausted c)

variable {c : Console}

theorem Finds.in_pending {negative sign : Bool} {piece : List Char} (h : c.Steady)
    (hpiece : piece ≠ []) (hseek : seekDigit negative c.pending = (sign, piece)) :
    Finds negative c.remaining (.found sign { c with pending := piece }) := by
  rw [seekDigit_eq, Prod.mk.injEq] at hseek
  obtain ⟨hsign, hrest⟩ := hseek
  have hstop : (c.pending.takeWhile (!Digit.isDigit ·)).length ≠ c.pending.length := by
    intro hall
    have hself := (List.takeWhile_prefix _).eq_of_length hall
    rw [← hrest, List.dropWhile_eq_nil_iff.mpr (List.takeWhile_eq_self_iff.mp hself)] at hpiece
    exact hpiece rfl
  refine .found (h.of_suffix (hrest ▸ List.dropWhile_suffix _)) hpiece ?_ ?_
  · rw [remaining, List.takeWhile_append, if_neg hstop, hsign]
  · rw [remaining, List.dropWhile_append, hrest, if_neg (by simpa using hpiece)]
    rfl

/-- Where the buffer has no digit, what counts of it is the sign it leaves. -/
theorem Finds.past {negative sign : Bool} {pending rest : List Char} {search : Search}
    (hseek : seekDigit negative pending = (sign, [])) (h : Finds sign rest search) :
    Finds negative (pending ++ rest) search := by
  rw [seekDigit_eq, Prod.mk.injEq] at hseek
  obtain ⟨hsign, hrest⟩ := hseek
  have hnone := List.dropWhile_eq_nil_iff.mp hrest
  have hskip : (pending ++ rest).dropWhile (!Digit.isDigit ·) = rest.dropWhile (!Digit.isDigit ·) :=
    List.dropWhile_append_of_pos hnone
  have hdropped : signAfter negative ((pending ++ rest).takeWhile (!Digit.isDigit ·)) =
      signAfter sign (rest.takeWhile (!Digit.isDigit ·)) := by
    rw [List.takeWhile_append_of_pos hnone, signAfter_append, ← hsign,
      List.takeWhile_eq_self_iff.mpr hnone]
  cases h with
  | found hsteady hpiece hsign hrest =>
      exact .found hsteady hpiece (hdropped.trans hsign) (hskip.trans hrest)
  | exhausted hsteady hnone hrest => exact .exhausted hsteady hnone (hskip.trans hrest)

theorem seekNumber_finds (negative : Bool) (c : Console) (h : c.Steady) :
    Finds negative c.remaining (seekNumber negative c) := by
  rw [seekNumber_step]
  split
  next hseek => exact .in_pending h (by simp) hseek
  next sign hseek =>
    -- the search goes on in the next piece
    obtain ⟨next, hline, hsteady, hleft, hend⟩ := h.nextLine
    rw [remaining, ← hleft]
    refine .past hseek ?_
    simp only [hline]
    split
    next hnone =>
      have htext := hend hnone
      exact .exhausted hsteady htext (by rw [htext]; rfl)
    next hsome =>
      have := length_lines_of_nextLine hline hsome
      exact seekNumber_finds sign next hsteady
termination_by c.input.lines.length

theorem readInteger_steady (h : c.Steady) : c.readInteger.2.Steady := by
  have hfinds := seekNumber_finds false c h
  simp only [readInteger]
  generalize seekNumber false c = search at hfinds
  cases hfinds with
  | found hsteady _ _ _ =>
      have hrest := hsteady.of_suffix (List.dropWhile_suffix Digit.isDigit)
      simp only
      cases Decimal.ofRun _ <;> exact hrest
  | exhausted hsteady _ _ => exact hsteady

/-- Filling the buffer loses no text, and the buffer stays empty only if there is none. -/
theorem Steady.fill (h : c.Steady) :
    ∃ filled, c.fill = (.ok (), filled) ∧ filled.Steady ∧ filled.remaining = c.remaining ∧
      (filled.pending = [] → filled.remaining = []) := by
  cases hpending : c.pending with
  | cons ch rest =>
      have hfill : c.fill = (.ok (), c) := by rw [Console.fill, hpending]
      exact ⟨c, hfill, h, rfl, by simp [hpending]⟩
  | nil =>
      obtain ⟨next, hline, hsteady, hleft, hend⟩ := h.nextLine
      have hfill : c.fill = (.ok (), next) := by rw [Console.fill, hpending, ← hline]
      exact ⟨next, hfill, hsteady, by rw [hleft, remaining, hpending, List.nil_append], hend⟩

theorem readChar_steady (h : c.Steady) : c.readChar.2.Steady := by
  obtain ⟨filled, hfill, hsteady, -⟩ := h.fill
  simp only [readChar, hfill]
  split
  · exact hsteady
  next hpending => exact hsteady.of_suffix (by rw [hpending]; exact List.suffix_cons _ _)

end Console

end Befunge
