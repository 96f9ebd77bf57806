import Befunge.Cell
import Befunge.Text.Decimal
import Befunge.Text.Lines

/-!
# The console

The console is where a program reads and writes characters and decimal numbers.  Input
is taken a line at a time into a buffer, so reading a number can leave the rest of
its line for a later read.  The buffer and the unread lines together are always
what is left of the input text.  Before a line is asked for, what was written is flushed, so
that a question is seen before its answer is waited for.

Both streams can fail.  An input or output with an allowance stops working once that
many lines were asked for or that many texts were written, and an output may also stop
being flushed.
-/

namespace Befunge

/-- The failure of a stream. -/
inductive StreamError where
  /-- The device behind the stream stopped working. -/
  | deviceFailed
deriving DecidableEq, Repr

/-- The wording of a failure. -/
def StreamError.message : StreamError → String
  | .deviceFailed => "device failed"

/-- An input stream of lines. -/
structure Input where
  /-- The lines that were not read yet, each with the line feed that ends it. -/
  lines : List (List Char)
  /-- How many more times a line can be asked for.  Without an allowance there is no limit. -/
  allowance : Option Nat := none
deriving DecidableEq, Repr, Inhabited

namespace Input

/-- An input that never fails. -/
def ofText (text : List Char) : Input := { lines := Lines.chunks text }

/-- The input after one more line was asked for. -/
def asked (i : Input) : Input := { lines := i.lines.tail, allowance := i.allowance.map (· - 1) }

/-- The next line, or nothing at the end of the input. -/
def readLine (i : Input) : Except StreamError (List Char × Input) :=
  if i.allowance = some 0 then .error .deviceFailed
  else .ok (i.lines.headD [], i.asked)

theorem readLine_eq_ok {i i' : Input} {line : List Char} (h : i.readLine = .ok (line, i')) :
    i.allowance ≠ some 0 ∧ i.lines.headD [] = line ∧ i' = i.asked := by
  rw [readLine] at h
  split at h
  next => cases h
  next hleft =>
    cases h
    exact ⟨hleft, rfl, rfl⟩

end Input

/-- An output stream. -/
structure Output where
  /-- What was written.  An output that swallows everything keeps nothing. -/
  written : Option String := some ""
  /-- How many more times something can be written.  Without an allowance there is no limit. -/
  allowance : Option Nat := none
  /-- How many more times it can be flushed, if there is a limit to that. -/
  flushes : Option Nat := none
deriving DecidableEq, Repr, Inhabited

namespace Output

/-- Writes a text. -/
def write (o : Output) (text : String) : Except StreamError Output :=
  if o.allowance = some 0 then .error .deviceFailed
  else .ok { o with written := o.written.map (· ++ text), allowance := o.allowance.map (· - 1) }

/-- Passes on what was written. -/
def flush (o : Output) : Except StreamError Output :=
  if o.flushes = some 0 then .error .deviceFailed
  else .ok { o with flushes := o.flushes.map (· - 1) }

/-- Without a limit nothing is changed. -/
theorem flush_eq_self {o : Output} (h : o.flushes = none) : o.flush = .ok o := by
  obtain ⟨written, allowance, flushes⟩ := o
  obtain rfl : flushes = none := h
  rfl

end Output

/-- Why a cell cannot be written as a character. -/
inductive CharError where
  /-- The cell is a surrogate code point. -/
  | surrogate (v : Int)
  /-- The cell is past the last code point, or negative. -/
  | notACodePoint
  /-- The cell is not even a signed 32-bit word. -/
  | notAWord
deriving DecidableEq, Repr

/-- The wording of a refusal. -/
def CharError.message : CharError → String
  | .surrogate v => "surrogate code point 0x" ++ String.ofList (Nat.toDigits 16 v.toNat)
  | .notACodePoint => "chr() arg not in range(0x110000)"
  | .notAWord => "Python int too large to convert to C int"

/-- Why a cell was not written. -/
inductive WriteError where
  /-- The cell is no character. -/
  | character (e : CharError)
  /-- The cell is too great a number. -/
  | number (e : Decimal.Error)
  /-- The stream failed. -/
  | stream (e : StreamError)
deriving DecidableEq, Repr

/-- Why a number was not read. -/
inductive ReadError where
  /-- The digits that were found are no number. -/
  | number (e : Decimal.Error)
  /-- The stream failed. -/
  | stream (e : StreamError)
deriving DecidableEq, Repr

/-- The character a cell is written as. -/
def CharError.check (v : Int) : Except CharError Char :=
  if 0xD800 ≤ v ∧ v ≤ 0xDFFF then .error (.surrogate v)
  else if ¬ Cell.IsWord v then .error .notAWord
  else
    match Cell.char? v with
    | some c => .ok c
    | none => .error .notACodePoint

/-- A console. -/
structure Console where
  /-- What is left of the line that is being read. -/
  pending : List Char := []
  /-- The lines after it. -/
  input : Input
  /-- What is written. -/
  output : Output := {}
deriving DecidableEq, Repr, Inhabited

namespace Console

/-- The number that stands for the end of the input. -/
def endOfInput : Int := -1

/-- What is left of the input text. -/
def remaining (c : Console) : List Char := c.pending ++ c.input.lines.flatten

/-- Flushes the output. -/
def flush (c : Console) : Except StreamError Console := do
  return { c with output := ← c.output.flush }

/-! ## Reading characters -/

/-- Takes the next line into the buffer, in place of what is there.  A line is asked for only
after the output was flushed. -/
def nextLine (c : Console) : Except StreamError Unit × Console :=
  match c.output.flush with
  | .error e => (.error e, c)
  | .ok output =>
      match c.input.readLine with
      | .error e => (.error e, { c with output := output })
      | .ok (line, input) => (.ok (), { pending := line, input := input, output := output })

theorem nextLine_eq_ok {c c' : Console} (h : c.nextLine = (.ok (), c')) :
    ∃ line input output, c.output.flush = .ok output ∧ c.input.readLine = .ok (line, input) ∧
      c' = ⟨line, input, output⟩ := by
  rw [nextLine] at h
  split at h
  · cases h
  next output hflush =>
    split at h
    · cases h
    next line input hread =>
      cases h
      exact ⟨line, input, output, hflush, hread, rfl⟩

/-- Fills the buffer if it is empty.  It then stays empty only at the end of the input. -/
def fill (c : Console) : Except StreamError Unit × Console :=
  match c.pending with
  | _ :: _ => (.ok (), c)
  | [] => c.nextLine

/-- Reads the next character. -/
def readChar (c : Console) : Except StreamError Int × Console :=
  match c.fill with
  | (.error e, c) => (.error e, c)
  | (.ok (), c) =>
      match c.pending with
      | [] => (.ok endOfInput, c)
      | ch :: r => (.ok (Cell.ofChar ch), { c with pending := r })

/-! ## Reading numbers -/

/-- Drops what stands before the first digit.  Also tells whether the last character that
was dropped is a minus sign, or was one before the text. -/
def seekDigit (negative : Bool) : List Char → Bool × List Char
  | [] => (negative, [])
  | c :: r => if Digit.isDigit c then (negative, c :: r) else seekDigit (c = '-') r

/-- What a search for a number comes to, with the console it leaves. -/
inductive Search where
  /-- The buffer begins with a digit, and this is the sign before it. -/
  | found (negative : Bool) (c : Console)
  /-- The end of the input. -/
  | exhausted (c : Console)
  /-- A failure of a stream. -/
  | failed (e : StreamError) (c : Console)

/-- A line that is not empty was one of those left in the input. -/
theorem length_lines_of_nextLine {c c' : Console} (h : c.nextLine = (.ok (), c'))
    (hline : c'.pending ≠ []) : c'.input.lines.length < c.input.lines.length := by
  obtain ⟨line, input, output, -, hread, rfl⟩ := nextLine_eq_ok h
  obtain ⟨-, rfl, rfl⟩ := Input.readLine_eq_ok hread
  simp only [Input.asked]
  cases hlines : c.input.lines with
  | nil => simp [hlines] at hline
  | cons first lines => simp

/-- Looks for a number in the buffer and the lines after it.  A line that is empty is the end of the
input. -/
def seekNumber (negative : Bool) (c : Console) : Search :=
  match seekDigit negative c.pending with
  | (negative, ch :: r) => .found negative { c with pending := ch :: r }
  | (negative, []) =>
      match h : c.nextLine with
      | (.error e, c) => .failed e { c with pending := [] }
      | (.ok (), c) =>
          if hline : c.pending = [] then .exhausted c
          else
            have := length_lines_of_nextLine h hline
            seekNumber negative c
termination_by c.input.lines.length

theorem seekNumber_step (negative : Bool) (c : Console) :
    seekNumber negative c =
      match seekDigit negative c.pending with
      | (negative, ch :: r) => .found negative { c with pending := ch :: r }
      | (negative, []) =>
          match c.nextLine with
          | (.error e, c) => .failed e { c with pending := [] }
          | (.ok (), c) => if c.pending = [] then .exhausted c else seekNumber negative c := by
  rw [seekNumber]
  split
  · rfl
  · split <;> simp_all

/-- Reads the next decimal number.  All characters before its digits are dropped, and the
number is negative if the last of them is a minus sign.  The digits are dropped
also where they are no number. -/
def readInteger (c : Console) : Except ReadError Int × Console :=
  match seekNumber false c with
  | .exhausted c => (.ok endOfInput, c)
  | .failed e c => (.error (.stream e), c)
  | .found negative c =>
      let rest := { c with pending := c.pending.dropWhile Digit.isDigit }
      match Decimal.ofRun (c.pending.takeWhile Digit.isDigit) with
      | .error e => (.error (.number e), rest)
      | .ok n => (.ok (if negative then -Int.ofNat n else Int.ofNat n), rest)

/-! ## Writing -/

/-- Writes a text. -/
def write (c : Console) (text : String) : Except StreamError Console := do
  return { c with output := ← c.output.write text }

/-- Writes a cell as a character. -/
def writeChar (c : Console) (v : Int) : Except WriteError Console :=
  match CharError.check v with
  | .error e => .error (.character e)
  | .ok ch => (c.write ch.toString).mapError .stream

/-- Writes a cell as a decimal number, with a blank after it. -/
def writeInteger (c : Console) (v : Int) : Except WriteError Console :=
  match Decimal.written v with
  | .error e => .error (.number e)
  | .ok text => (c.write (text ++ " ")).mapError .stream

/-- A number is read across lines, and the rest of its line stays. -/
example : (readInteger { input := .ofText "a-\n-42x".toList }).1.toOption = some (-42) ∧
    (readInteger { input := .ofText "a-\n-42x".toList }).2.pending = ['x'] := by decide +kernel

/-- A minus sign that is followed by something else is no sign. -/
example : (readInteger { input := .ofText "- 5".toList }).1.toOption = some 5 := by decide +kernel

end Console

end Befunge
