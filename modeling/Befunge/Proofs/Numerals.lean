import Mathlib.Data.Nat.Digits.Lemmas
import Befunge.Proofs.Buffering
import Befunge.Proofs.Faults

/-!
# Written numbers read back

A number is written as its digits with a blank after them, and with a minus sign right before them
if it is negative (`Decimal.numeral`).  A reader drops what stands before the digits and takes
the sign from the last character it drops.  So the blank that ends a number is all that is left of
it, and it keeps the next number apart without changing its sign (`Request.serve_numeral`).

Numbers that are written one after the other are therefore read one after the other, and the blank
after the last of them is followed by the end of the input (`Console.written_numbers_read_back`).
-/

namespace Befunge

/-! ## Digits -/

namespace Digit

/-- A digit of the first script has the value of its place in it. -/
theorem decimal?_of_isDigit {c : Char} (h : c.isDigit = true) :
    decimal? c = some (c.toNat - '0'.toNat) := by
  have hrange : 0x30 ≤ c.toNat ∧ c.toNat < 0x30 + 10 := by
    simp only [Char.isDigit, Bool.and_eq_true, decide_eq_true_eq, UInt32.le_iff_toNat_le] at h
    exact ⟨h.1, Nat.lt_succ_of_le h.2⟩
  have hfind : zeros.find? (fun z => z ≤ c.toNat && c.toNat < z + 10) = some 0x30 := by
    rw [zeros, List.find?_cons_of_pos (by simpa using hrange)]
  rw [decimal?, hfind]
  rfl

theorem isDigit_of_isDigit {c : Char} (h : c.isDigit = true) : isDigit c = true := by
  rw [isDigit, decimal?_of_isDigit h, Option.isSome_some, Bool.true_or]

end Digit

namespace Decimal

/-- The digits of a number that can be written are a run with its value. -/
theorem ofRun_toDigits {n : Nat} (h : n < 10 ^ maxDigits) : ofRun (Nat.toDigits 10 n) = .ok n := by
  have hdigit : ∀ c ∈ Nat.toDigits 10 n, Digit.decimal? c = some (c.toNat - '0'.toNat) :=
    fun c hc => Digit.decimal?_of_isDigit (Nat.isDigit_of_mem_toDigits (by decide) (by decide) hc)
  rw [ofRun_eq_ok_iff]
  refine ⟨(Nat.length_toDigits_le_iff (by decide) (by decide)).mpr h,
    (Nat.toDigits 10 n).map (fun c => c.toNat - '0'.toNat), ?_, ?_⟩
  · rw [List.map_map]
    exact List.map_congr_left hdigit
  · rw [← ofDigits_eq, ofDigits, List.foldl_map, ← Nat.ofDigitChars_eq_foldl,
      Nat.ofDigitChars_ten_toDigits]

/-- The sign a number is written with. -/
def sign (v : Int) : List Char := if v < 0 then ['-'] else []

/-- A number as it stands in a text, with the blank after it. -/
def numeral (v : Int) : List Char := sign v ++ (Nat.toDigits 10 v.natAbs ++ [' '])

theorem toList_toString_blank (v : Int) : (toString v ++ " ").toList = numeral v := by
  rw [String.toList_append]
  cases v with
  | ofNat n =>
      have htext : toString (Int.ofNat n) = n.repr := rfl
      rw [htext, Nat.toList_repr, numeral, sign, if_neg (by simp)]
      rfl
  | negSucc n =>
      have htext : toString (Int.negSucc n) = "-" ++ (n + 1).repr := rfl
      rw [htext, String.toList_append, Nat.toList_repr, numeral, sign,
        if_pos (Int.negSucc_lt_zero n), List.append_assoc]
      rfl

end Decimal

/-! ## Reading from a text -/

namespace Request

/-- A number is read from the first run of digits, with its sign right before it. -/
theorem serve_run {before run rest : List Char} (hbefore : ∀ c ∈ before, Digit.isDigit c = false)
    (hrun : ∀ c ∈ run, Digit.isDigit c = true) (hsome : run ≠ [])
    (hrest : ∀ c ∈ rest.head?, Digit.isDigit c = false) :
    integer.serve (before ++ (run ++ rest)) =
      ((Decimal.ofRun run).map fun n =>
        if before.getLast? = some '-' then -Int.ofNat n else Int.ofNat n, rest) := by
  have hskipped : ∀ c ∈ before, (!Digit.isDigit c) = true := fun c hc => by simp [hbefore c hc]
  have hfirst : (run ++ rest).takeWhile (!Digit.isDigit ·) = [] ∧
      (run ++ rest).dropWhile (!Digit.isDigit ·) = run ++ rest := by
    obtain ⟨c, run, rfl⟩ := List.exists_cons_of_ne_nil hsome
    simp [hrun c List.mem_cons_self]
  have hend : rest.takeWhile Digit.isDigit = [] ∧ rest.dropWhile Digit.isDigit = rest := by
    cases rest with
    | nil => exact ⟨rfl, rfl⟩
    | cons c rest => simp [hrest c rfl]
  simp only [serve]
  rw [List.dropWhile_append_of_pos hskipped, List.takeWhile_append_of_pos hskipped, hfirst.1,
    hfirst.2, if_neg (List.append_ne_nil_of_left_ne_nil hsome rest),
    List.takeWhile_append_of_pos hrun, List.dropWhile_append_of_pos hrun, hend.1, hend.2,
    List.append_nil, List.append_nil]

/-- Blanks before a number do not hide its sign. -/
theorem getLast?_sign {gap : List Char} (hgap : ∀ c ∈ gap, c = ' ') (v : Int) :
    (gap ++ Decimal.sign v).getLast? = some '-' ↔ v < 0 := by
  rw [Decimal.sign]
  split
  next hv => simp [hv]
  next hv =>
    rw [List.append_nil]
    refine ⟨fun hlast => ?_, fun hneg => absurd hneg hv⟩
    exact absurd (hgap _ (List.mem_of_getLast? hlast)) (by decide)

theorem not_isDigit_before {gap : List Char} (hgap : ∀ c ∈ gap, c = ' ') (v : Int) :
    ∀ c ∈ gap ++ Decimal.sign v, Digit.isDigit c = false := by
  intro c hc
  have hmark : c = ' ' ∨ c = '-' := by
    rcases List.mem_append.mp hc with hc | hc
    · exact .inl (hgap c hc)
    · rw [Decimal.sign] at hc
      split at hc
      · exact .inr (List.mem_singleton.mp hc)
      · cases hc
  rcases hmark with rfl | rfl <;> decide

/-- A number is read back after some blanks, and leaves the blank after it. -/
theorem serve_numeral {gap : List Char} (hgap : ∀ c ∈ gap, c = ' ') {v : Int}
    (hv : v.natAbs < 10 ^ Decimal.maxDigits) (rest : List Char) :
    integer.serve (gap ++ (Decimal.numeral v ++ rest)) = (.ok v, ' ' :: rest) := by
  have htext : gap ++ (Decimal.numeral v ++ rest) =
      (gap ++ Decimal.sign v) ++ (Nat.toDigits 10 v.natAbs ++ ' ' :: rest) := by
    simp [Decimal.numeral]
  have hrun : ∀ c ∈ Nat.toDigits 10 v.natAbs, Digit.isDigit c = true := fun c hc =>
    Digit.isDigit_of_isDigit (Nat.isDigit_of_mem_toDigits (by decide) (by decide) hc)
  have hrest : ∀ c ∈ (' ' :: rest).head?, Digit.isDigit c = false := by
    rintro c ⟨⟩
    decide
  have hvalue : (if v < 0 then -Int.ofNat v.natAbs else Int.ofNat v.natAbs) = v := by
    simp only [Int.ofNat_eq_natCast]
    split <;> omega
  rw [htext, serve_run (not_isDigit_before hgap v) hrun Nat.toDigits_ne_nil hrest,
    Decimal.ofRun_toDigits hv]
  simp only [Except.map, getLast?_sign hgap, hvalue]

/-- There is no number in blanks. -/
theorem serve_gap {gap : List Char} (hgap : ∀ c ∈ gap, c = ' ') :
    integer.serve gap = (.ok Console.endOfInput, []) := by
  have hnone : gap.dropWhile (!Digit.isDigit ·) = [] := by
    refine List.dropWhile_eq_nil_iff.mpr fun c hc => ?_
    rw [hgap c hc]
    decide
  simp only [serve]
  rw [if_pos hnone]

theorem serveAll_gap (extra : Nat) {gap : List Char} (hgap : ∀ c ∈ gap, c = ' ') :
    (serveAll gap (List.replicate extra .integer)).1 =
      List.replicate extra (.ok Console.endOfInput) := by
  induction extra generalizing gap with
  | zero => rfl
  | succ extra ih =>
      rw [List.replicate_succ, serveAll, serve_gap hgap, ih (List.forall_mem_nil _),
        List.replicate_succ]

/-- Numbers that stand one after the other are read one after the other, and after them there is
none. -/
theorem serveAll_numerals (vs : List Int) (hvs : ∀ v ∈ vs, v.natAbs < 10 ^ Decimal.maxDigits)
    (extra : Nat) (gap : List Char) (hgap : ∀ c ∈ gap, c = ' ') :
    (serveAll (gap ++ vs.flatMap Decimal.numeral)
      (List.replicate (vs.length + extra) .integer)).1 =
      vs.map .ok ++ List.replicate extra (.ok Console.endOfInput) := by
  induction vs generalizing gap with
  | nil => simpa using serveAll_gap extra hgap
  | cons v vs ih =>
      -- the blank that the first number leaves stands before the others
      have hleft := ih (fun u hu => hvs u (List.mem_cons_of_mem v hu)) [' '] (by simp)
      rw [List.length_cons, Nat.add_right_comm, List.replicate_succ, List.flatMap_cons, serveAll,
        serve_numeral hgap (hvs v List.mem_cons_self), List.map_cons, List.cons_append, ← hleft,
        List.singleton_append]

end Request

/-! ## Writing to a console -/

namespace Console

/-- Numbers that can be written are, one after the other. -/
theorem foldlM_writeInteger (c : Console) (vs : List Int)
    (hvs : ∀ v ∈ vs, v.natAbs < 10 ^ Decimal.maxDigits) (before : String) :
    ∃ text : String, text.toList = before.toList ++ vs.flatMap Decimal.numeral ∧
      vs.foldlM writeInteger { c with output := { written := some before } } =
        .ok { c with output := { written := some text } } := by
  induction vs generalizing before with
  | nil => exact ⟨before, by simp, rfl⟩
  | cons v vs ih =>
      have hwrite : writeInteger { c with output := { written := some before } } v =
          .ok { c with output := { written := some (before ++ (toString v ++ " ")) } } := by
        have hv := (Decimal.isWritable_iff v).mpr (hvs v List.mem_cons_self)
        rw [writeInteger, Decimal.written, if_pos hv]
        rfl
      obtain ⟨text, htext, hrest⟩ :=
        ih (fun u hu => hvs u (List.mem_cons_of_mem v hu)) (before ++ (toString v ++ " "))
      refine ⟨text, ?_, ?_⟩
      · rw [htext, String.toList_append, Decimal.toList_toString_blank, List.flatMap_cons,
          List.append_assoc]
      · rw [List.foldlM_cons, hwrite]
        exact hrest

/-- Numbers of at most 4300 digits can be written one after the other.  A fresh console that has
what was written as its input gives the same numbers one after the other, and from then on
the end of the input. -/
theorem written_numbers_read_back (vs : List Int)
    (hvs : ∀ v ∈ vs, (Nat.digits 10 v.natAbs).length ≤ 4300) (c : Console) :
    ∃ text : String,
      vs.foldlM writeInteger { c with output := {} } =
        .ok { c with output := { written := some text } } ∧
      ∀ (output : Output) (extra : Nat),
        (requests { input := .ofText text.toList, output := output.flushable }
          (List.replicate (vs.length + extra) .integer)).1 =
            vs.map .ok ++ List.replicate extra (.ok (-1)) := by
  have hwritable : ∀ v ∈ vs, v.natAbs < 10 ^ Decimal.maxDigits := fun v hv =>
    (Nat.digits_length_le_iff (by decide) v.natAbs).mp (hvs v hv)
  obtain ⟨text, htext, hwritten⟩ := c.foldlM_writeInteger vs hwritable ""
  refine ⟨text, hwritten, fun output extra => ?_⟩
  have hserve := (requests_serve (List.replicate (vs.length + extra) .integer)
    (ofText_steady text.toList output)).1
  have hanswers := Request.serveAll_numerals vs hwritable extra [] (List.forall_mem_nil _)
  rw [hserve, remaining_ofText, htext, String.toList_empty, hanswers, List.map_append, List.map_map,
    List.map_replicate]
  rfl

/-- A zero, a negative number after it and one that is no word are read back, and then the end. -/
theorem written_numbers_read_back_mixed :
    (∀ v ∈ [0, -70, 5, 2147483648], (Nat.digits 10 (v : Int).natAbs).length ≤ 4300) ∧
    ∃ text : String,
      [0, -70, 5, 2147483648].foldlM writeInteger { input := .ofText ['x'] } =
        .ok { input := .ofText ['x'], output := { written := some text } } ∧
      (requests { input := .ofText text.toList } (List.replicate 5 .integer)).1 =
        [.ok 0, .ok (-70), .ok 5, .ok 2147483648, .ok (-1)] := by
  have hdigits : ∀ v ∈ [0, -70, 5, 2147483648],
      (Nat.digits 10 (v : Int).natAbs).length ≤ 4300 := by decide
  obtain ⟨text, hwritten, hread⟩ :=
    written_numbers_read_back [0, -70, 5, 2147483648] hdigits { input := .ofText ['x'] }
  exact ⟨hdigits, text, hwritten, hread {} 1⟩

end Console

end Befunge
