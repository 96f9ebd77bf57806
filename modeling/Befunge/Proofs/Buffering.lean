import Mathlib.Data.Nat.Digits.Defs
import Befunge.Proofs.Reading

/-!
# Buffered reading

A console takes its input in lines and keeps what is left of the last one.  `Request.serve` answers
a request from a text that is all there: a character is the first one, and a number is the
first run of digits, with what stands before it dropped and the sign taken from the character
right before it.

`Console.serves` is one request: a console answers as its remaining text does, and is left with the
text that is left.  So does a console that answers one request after the other, in whatever
order characters and numbers are asked for (`Console.answers_as_text`).  A run that is no number is
refused by both, and is gone all the same.
-/

namespace Befunge

/-! ## Requests -/

/-- What can be asked of an input. -/
inductive Request where
  /-- The next character. -/
  | char
  /-- The next number. -/
  | integer
deriving DecidableEq, Repr

namespace Request

/-- The answer to a request from a text, and what is left of the text. -/
def serve (text : List Char) : Request → Except Decimal.Error Int × List Char
  | .char =>
      match text with
      | [] => (.ok Console.endOfInput, [])
      | c :: rest => (.ok (Cell.ofChar c), rest)
  | .integer =>
      let before := text.takeWhile (!Digit.isDigit ·)
      let found := text.dropWhile (!Digit.isDigit ·)
      if found = [] then (.ok Console.endOfInput, [])
      else
        ((Decimal.ofRun (found.takeWhile Digit.isDigit)).map fun n =>
            if before.getLast? = some '-' then -Int.ofNat n else Int.ofNat n,
          found.dropWhile Digit.isDigit)

/-- The answers to one request after the other, and what is left of the text. -/
def serveAll (text : List Char) : List Request → List (Except Decimal.Error Int) × List Char
  | [] => ([], text)
  | r :: rs => ((r.serve text).1 :: (serveAll (r.serve text).2 rs).1,
      (serveAll (r.serve text).2 rs).2)

theorem serve_suffix (text : List Char) (r : Request) : (r.serve text).2 <:+ text := by
  cases r with
  | char =>
      cases text with
      | nil => exact List.suffix_rfl
      | cons c rest => exact List.suffix_cons c rest
  | integer =>
      simp only [serve]
      split
      next => exact List.nil_suffix
      next => exact (List.dropWhile_suffix _).trans (List.dropWhile_suffix _)

theorem serveAll_suffix (rs : List Request) (text : List Char) : (serveAll text rs).2 <:+ text := by
  induction rs generalizing text with
  | nil => exact List.suffix_rfl
  | cons r rs ih => exact (ih _).trans (serve_suffix text r)

end Request

/-! ## The value of a run -/

namespace Decimal

theorem ofDigits_eq (digits : List Nat) : ofDigits digits = Nat.ofDigits 10 digits.reverse := by
  simp only [ofDigits, Nat.ofDigits_eq_foldr, List.foldr_reverse, Nat.cast_id, Nat.add_comm]

theorem mapM_eq_some_iff (run : List Char) (digits : List Nat) :
    run.mapM Digit.decimal? = some digits ↔ run.map Digit.decimal? = digits.map some := by
  induction run generalizing digits with
  | nil => cases digits <;> simp
  | cons c run ih =>
      rw [List.mapM_cons, List.map_cons]
      cases hc : Digit.decimal? c with
      | none => cases digits <;> simp
      | some d =>
          cases digits with
          | nil => cases run.mapM Digit.decimal? <;> simp
          | cons e digits =>
              rw [List.map_cons, List.cons.injEq, ← ih]
              cases run.mapM Digit.decimal? <;> simp

/-- A run is a number if all its digits are decimal and they are not too many. -/
theorem ofRun_eq_ok_iff (run : List Char) (n : Nat) :
    ofRun run = .ok n ↔ run.length ≤ maxDigits ∧
      ∃ digits : List Nat, run.map Digit.decimal? = digits.map some ∧
        Nat.ofDigits 10 digits.reverse = n := by
  simp only [← mapM_eq_some_iff, ← ofDigits_eq, ofRun]
  cases hrun : run.mapM Digit.decimal? with
  | none => split <;> simp
  | some digits =>
      have hleading : run.takeWhile (fun c => (Digit.decimal? c).isSome) = run := by
        refine List.takeWhile_eq_self_iff.mpr fun c hc => ?_
        have hmem : Digit.decimal? c ∈ digits.map some :=
          (mapM_eq_some_iff run digits).mp hrun ▸ List.mem_map_of_mem hc
        obtain ⟨d, -, hd⟩ := List.mem_map.mp hmem
        rw [← hd, Option.isSome_some]
      rw [hleading]
      split
      next hlong => simp [Nat.not_le.mpr hlong]
      next hlong => simp [Nat.not_lt.mp hlong]

end Decimal

/-! ## Consoles -/

namespace Console

/-- Asks for a character or a number. -/
def request (c : Console) : Request → Except ReadError Int × Console
  | .char => (c.readChar.1.mapError .stream, c.readChar.2)
  | .integer => c.readInteger

/-- Asks for one thing after the other. -/
def requests (c : Console) : List Request → List (Except ReadError Int) × Console
  | [] => ([], c)
  | r :: rs => ((c.request r).1 :: ((c.request r).2.requests rs).1,
      ((c.request r).2.requests rs).2)

variable {c : Console}

/-- A console answers a request as its remaining text does, and is left with the text that is
left. -/
structure Serves (c : Console) (r : Request) : Prop where
  answer : (c.request r).1 = (r.serve c.remaining).1.mapError .number
  left : (c.request r).2.remaining = (r.serve c.remaining).2
  steady : (c.request r).2.Steady

theorem serves_char (h : c.Steady) : c.Serves .char := by
  have hsteady : (c.request .char).2.Steady := readChar_steady h
  obtain ⟨filled, hfill, -, hremaining, hend⟩ := h.fill
  cases hpending : filled.pending with
  | nil =>
      have hrequest : c.request .char = (.ok endOfInput, filled) := by
        simp only [request, readChar, hfill, hpending, Except.mapError]
      have htext : c.remaining = [] := hremaining ▸ hend hpending
      refine ⟨?_, ?_, hsteady⟩
      · rw [hrequest, htext]
        rfl
      · rw [hrequest, htext]
        exact hend hpending
  | cons ch rest =>
      have hrequest : c.request .char =
          (.ok (Cell.ofChar ch), { filled with pending := rest }) := by
        simp only [request, readChar, hfill, hpending, Except.mapError]
      have htext : c.remaining = ch :: (rest ++ filled.input.lines.flatten) := by
        rw [← hremaining, remaining, hpending, List.cons_append]
      refine ⟨?_, ?_, hsteady⟩
      · rw [hrequest, htext]
        rfl
      · rw [hrequest, htext]
        rfl

theorem signAfter_false_iff (dropped : List Char) :
    signAfter false dropped = true ↔ dropped.getLast? = some '-' := by
  rw [signAfter]
  cases dropped.getLast? <;> simp

theorem serves_integer (h : c.Steady) : c.Serves .integer := by
  have hsteady : (c.request .integer).2.Steady := readInteger_steady h
  suffices hread : c.readInteger.1 = (Request.integer.serve c.remaining).1.mapError .number ∧
      c.readInteger.2.remaining = (Request.integer.serve c.remaining).2 from
    ⟨hread.1, hread.2, hsteady⟩
  have hfinds := seekNumber_finds false c h
  simp only [readInteger, Request.serve, ← signAfter_false_iff]
  generalize seekNumber false c = search at hfinds
  cases hfinds with
  | @found sign begun hbegun hpiece hsign hrest =>
      have hfound : begun.remaining ≠ [] := List.append_ne_nil_of_left_ne_nil hpiece _
      rw [hsign, hrest, if_neg hfound, remaining, hbegun.parted.takeWhile_digits hpiece,
        hbegun.parted.dropWhile_digits hpiece]
      simp only
      cases Decimal.ofRun _ <;> exact ⟨rfl, rfl⟩
  | exhausted _ hleft hrest =>
      rw [if_pos hrest]
      exact ⟨rfl, hleft⟩

theorem serves (h : c.Steady) (r : Request) : c.Serves r := by
  cases r with
  | char => exact serves_char h
  | integer => exact serves_integer h

theorem requests_serve (rs : List Request) (h : c.Steady) :
    (c.requests rs).1 = (Request.serveAll c.remaining rs).1.map (·.mapError .number) ∧
    (c.requests rs).2.remaining = (Request.serveAll c.remaining rs).2 := by
  induction rs generalizing c with
  | nil => exact ⟨rfl, rfl⟩
  | cons r rs ih =>
      obtain ⟨hanswer, hleft, hsteady⟩ := serves h r
      obtain ⟨hanswers, hend⟩ := ih hsteady
      rw [hleft] at hanswers hend
      simp only [requests, Request.serveAll, List.map_cons]
      exact ⟨by rw [hanswer, hanswers], hend⟩

/-- The lines of an input add up to its text. -/
theorem remaining_ofText (text : List Char) (output : Output) :
    remaining { input := .ofText text, output := output } = text := by
  show (Lines.chunks text).flatten = text
  induction text with
  | nil => rfl
  | cons c text ih =>
      rw [Lines.chunks]
      split
      next => rw [List.flatten_cons, ih, List.singleton_append]
      next =>
        split
        next hchunks => rw [hchunks] at ih; simp [← ih]
        next chunk rest hchunks =>
          rw [hchunks, List.flatten_cons] at ih
          rw [List.flatten_cons, List.cons_append, ih]

/-- A console answers every row of requests as the whole text of its input does, read without a
buffer, and at every point its buffer and its unread lines are what is left of that text.  The
output is one that can be flushed, as it is before a line is asked for.  What counts as a number are
runs of not too many decimal digits, with their value to the base ten. -/
theorem answers_as_text (text : List Char) (output : Output) (rs : List Request) :
    (requests { input := .ofText text, output := output.flushable } rs).1 =
      (Request.serveAll text rs).1.map (·.mapError .number) ∧
    (requests { input := .ofText text, output := output.flushable } rs).2.remaining =
      (Request.serveAll text rs).2 ∧
    (requests { input := .ofText text, output := output.flushable } rs).2.remaining <:+ text ∧
    ∀ run n, Decimal.ofRun run = .ok n ↔ run.length ≤ Decimal.maxDigits ∧
      ∃ digits : List Nat, run.map Digit.decimal? = digits.map some ∧
        Nat.ofDigits 10 digits.reverse = n := by
  have hserve := requests_serve rs (ofText_steady text output)
  rw [remaining_ofText] at hserve
  obtain ⟨hanswers, hleft⟩ := hserve
  refine ⟨hanswers, hleft, ?_, Decimal.ofRun_eq_ok_iff⟩
  rw [hleft]
  exact Request.serveAll_suffix rs text

/-- A run that is refused is gone, and a minus sign at the end of a line is no sign. -/
example : (requests { input := .ofText "a-7²b-\n5".toList } [.integer, .char, .integer]).1.map
    Except.toOption = [none, some 98, some 5] := by decide +kernel

end Console

end Befunge
