import Befunge.Proofs.Repetition
import Befunge.Proofs.Reports

/-!
# Texts on a pile of stacks

A text lies on the topmost stack with its first character uppermost and a zero under its last one.
It is removed cell by cell: a zero ends it, and a cell that is no character spoils it but is
removed all the same, as are the cells after it (`StackStack.popText_step`).

From one cell to all of them, what is removed are the cells down to the topmost zero, whether they
spell a text or not (`StackStack.popText_removes`).  So commands that take a text and
other operands find those under the zero in either case.  A text that was put there leaves the pile
as it was before, and is given back if all its code points are characters
(`StackStack.texts_pop_exactly`).  A text can also hold surrogates, and then it is not
(`StackStack.surrogate_is_not_given_back`).
-/

namespace Befunge

/-! ## Cells that spell a text -/

namespace Cell

/-- A Unicode scalar value. -/
def IsScalar (v : Int) : Prop := 0 ≤ v ∧ v < 0xD800 ∨ 0xE000 ≤ v ∧ v < 0x110000

instance (v : Int) : Decidable (IsScalar v) := inferInstanceAs (Decidable (_ ∨ _))

theorem char?_eq_some_iff {v : Int} {c : Char} : char? v = some c ↔ v = ofChar c := by
  refine ⟨eq_ofChar_of_char?, ?_⟩
  rintro rfl
  exact char?_ofChar c

theorem char?_eq_none_iff {v : Int} : char? v = none ↔ ¬ IsScalar v := by
  cases v with
  | ofNat n =>
      have hvalid : n.isValidChar ↔ IsScalar (.ofNat n) := by
        simp only [Nat.isValidChar, IsScalar, Int.ofNat_eq_natCast]
        omega
      rw [← hvalid]
      simp [char?]
  | negSucc n =>
      refine ⟨fun _ hscalar => ?_, fun _ => rfl⟩
      rw [IsScalar] at hscalar
      omega

/-- What some cells come to as a text: their characters in order, or nothing if one of the cells is
no character. -/
structure Spells (cells : List Int) (text : Option (List Char)) : Prop where
  none_iff : text = none ↔ ∃ v ∈ cells, ¬ IsScalar v
  some_iff : ∀ chars, text = some chars ↔ cells = chars.map ofChar

theorem Spells.nil : Spells [] (some []) where
  none_iff := by simp
  some_iff chars := by simp [eq_comm]

theorem Spells.cons {cells : List Int} {text : Option (List Char)} (h : Spells cells text)
    (v : Int) : Spells (v :: cells) ((char? v).bind fun c => text.map (c :: ·)) where
  none_iff := by
    simp only [List.mem_cons, exists_eq_or_imp, ← h.none_iff, ← char?_eq_none_iff (v := v)]
    cases char? v <;> simp
  some_iff chars := by
    cases chars with
    | nil => cases char? v <;> simp
    | cons c chars =>
        rw [List.map_cons, List.cons.injEq, ← char?_eq_some_iff, ← h.some_iff]
        cases char? v <;> simp [and_comm]

theorem spells_mapM (cells : List Int) : Spells cells (cells.mapM char?) := by
  induction cells with
  | nil => exact .nil
  | cons v cells ih =>
      have hcons := ih.cons v
      simp only [Option.map_eq_bind] at hcons
      rw [List.mapM_cons]
      exact hcons

end Cell

namespace CodePoint

theorem isScalar_cell_iff (p : CodePoint) : Cell.IsScalar p.cell ↔ ¬ p.IsSurrogate := by
  have hlt := p.isLt
  simp only [Cell.IsScalar, IsSurrogate, cell, Int.ofNat_eq_natCast]
  omega

/-- The cells of a text spell it, if they spell anything. -/
theorem mapM_char?_eq_some_iff {text : List CodePoint} {chars : List Char} :
    (text.map cell).mapM Cell.char? = some chars ↔ ofChars chars = text := by
  have hchars : chars.map Cell.ofChar = (ofChars chars).map cell := by
    rw [ofChars, List.map_map]
    rfl
  have hinj (p q : CodePoint) (h : p.cell = q.cell) : p = q := Fin.ext (Int.ofNat.inj h)
  rw [(Cell.spells_mapM _).some_iff, hchars, List.map_inj_right hinj, eq_comm]

theorem mapM_char?_eq_none_iff {text : List CodePoint} :
    (text.map cell).mapM Cell.char? = none ↔ ∃ p ∈ text, p.IsSurrogate := by
  rw [(Cell.spells_mapM _).none_iff]
  simp [isScalar_cell_iff]

end CodePoint

/-! ## Cell by cell -/

namespace StackStack

/-- A text is removed cell by cell, and a cell that is no character does not end it. -/
theorem popText_step (s : StackStack) :
    s.popText =
      if s.pop.1 = 0 then (some [], s.pop.2)
      else ((Cell.char? s.pop.1).bind fun c => s.pop.2.popText.1.map (c :: ·),
        s.pop.2.popText.2) := by
  obtain ⟨⟨cells⟩, below⟩ := s
  cases cells with
  | nil => rfl
  | cons v cells =>
      show popText ⟨⟨v :: cells⟩, below⟩ = if v = 0 then _ else _
      split
      next hv =>
        subst hv
        rfl
      next hv =>
        simp only [popText, Stack.popText, pop, Stack.pop]
        rw [List.takeWhile_cons_of_pos (by simpa using hv),
          List.dropWhile_cons_of_pos (by simpa using hv), List.mapM_cons]
        simp only [Option.map_eq_bind]
        rfl

/-- A cell other than zero is a cell of the stack, and none of the zeros beyond its bottom. -/
theorem cells_of_pop_ne_zero {s : StackStack} (hcell : s.pop.1 ≠ 0) :
    s.top.cells = s.pop.1 :: s.pop.2.top.cells := by
  obtain ⟨⟨cells⟩, below⟩ := s
  cases cells with
  | nil => exact absurd rfl hcell
  | cons v cells => rfl

/-- Some cells of the topmost stack are removed together with the zero under them, or they are all
of it and there is no zero in it.  Nothing else is removed. -/
structure Removes (s : StackStack) (cells : List Int) (left : StackStack) : Prop where
  nonzero : 0 ∉ cells
  top : s.top.cells = cells ++ 0 :: left.top.cells ∨ s.top.cells = cells ∧ left.top.cells = []
  below : left.below = s.below

theorem Removes.stop {s : StackStack} (hzero : s.pop.1 = 0) : s.Removes [] s.pop.2 where
  nonzero := List.not_mem_nil
  top := by
    obtain ⟨⟨cells⟩, below⟩ := s
    cases cells with
    | nil => exact .inr ⟨rfl, rfl⟩
    | cons v cells =>
        have hv : v = 0 := hzero
        subst hv
        exact .inl rfl
  below := rfl

theorem Removes.cell {s left : StackStack} {cells : List Int} (hcell : s.pop.1 ≠ 0)
    (h : s.pop.2.Removes cells left) : s.Removes (s.pop.1 :: cells) left where
  nonzero := by
    rw [List.mem_cons, not_or]
    exact ⟨hcell.symm, h.nonzero⟩
  top := by
    rw [cells_of_pop_ne_zero hcell]
    rcases h.top with hzero | ⟨hall, hnone⟩
    · exact .inl (by rw [hzero, List.cons_append])
    · exact .inr ⟨by rw [hall], hnone⟩
  below := h.below

/-- What is removed with a text are the cells down to the topmost zero, and the text is what they
spell. -/
theorem popText_removes (s : StackStack) :
    ∃ cells, s.Removes cells s.popText.2 ∧ Cell.Spells cells s.popText.1 := by
  rw [popText_step]
  by_cases hcell : s.pop.1 = 0
  · rw [if_pos hcell]
    exact ⟨[], .stop hcell, .nil⟩
  · rw [if_neg hcell]
    obtain ⟨cells, hremoves, hspells⟩ := popText_removes s.pop.2
    exact ⟨s.pop.1 :: cells, hremoves.cell hcell, hspells.cons s.pop.1⟩
termination_by s.top.cells.length
decreasing_by
  rw [cells_of_pop_ne_zero hcell]
  exact Nat.lt_succ_self _

/-! ## Whole texts -/

theorem popText_pushText {text : List CodePoint} (h : 0 ∉ text) (s : StackStack) :
    (s.pushText text).popText = ((text.map CodePoint.cell).mapM Cell.char?, s) := by
  have hpop := Stack.popText_textCells h s.top.cells
  rw [popText, pushText, Stack.pushText, Stack.pushAll, hpop]

/-- The pile is as it was before if and only if the text has no null character. -/
theorem snd_popText_pushText_iff (s : StackStack) (text : List CodePoint) :
    (s.pushText text).popText.2 = s ↔ 0 ∉ text := by
  constructor
  · intro hleft hnull
    obtain ⟨cells, hremoves, -⟩ := popText_removes (s.pushText text)
    have hzero : (0 : Int) ∈ text.map CodePoint.cell := List.mem_map.mpr ⟨0, hnull, rfl⟩
    have hcells : (s.pushText text).top.cells = text.map CodePoint.cell ++ 0 :: s.top.cells := by
      rw [pushText, Stack.pushText, Stack.pushAll, Stack.textCells, List.append_assoc]
      rfl
    rw [hleft] at hremoves
    rcases hremoves.top with htop | ⟨htop, -⟩
    · -- what was removed is the whole text
      have hsame := List.append_cancel_right (htop.symm.trans hcells)
      exact hremoves.nonzero (hsame ▸ hzero)
    · rw [htop] at hcells
      exact hremoves.nonzero (hcells ▸ List.mem_append_left _ hzero)
  · intro hnull
    rw [popText_pushText hnull]

/-- A text is given back, and the pile with it, if and only if all its code points are characters
other than the null character. -/
theorem popText_pushText_iff (s : StackStack) (text : List CodePoint) :
    (∃ chars, CodePoint.ofChars chars = text ∧ (s.pushText text).popText = (some chars, s)) ↔
      0 ∉ text ∧ ∀ p ∈ text, ¬ p.IsSurrogate := by
  constructor
  · rintro ⟨chars, htext, hpop⟩
    have hnull := (s.snd_popText_pushText_iff text).mp (congrArg Prod.snd hpop)
    have hspelled := CodePoint.mapM_char?_eq_some_iff.mpr htext
    refine ⟨hnull, fun p hp hsurrogate => ?_⟩
    rw [CodePoint.mapM_char?_eq_none_iff.mpr ⟨p, hp, hsurrogate⟩] at hspelled
    cases hspelled
  · rintro ⟨hnull, hscalar⟩
    rw [popText_pushText hnull]
    cases hspelled : (text.map CodePoint.cell).mapM Cell.char? with
    | none =>
        obtain ⟨p, hp, hsurrogate⟩ := CodePoint.mapM_char?_eq_none_iff.mp hspelled
        exact absurd hsurrogate (hscalar p hp)
    | some chars => exact ⟨chars, CodePoint.mapM_char?_eq_some_iff.mp hspelled, rfl⟩

/-- A text with a surrogate in it is refused, and the pile is as it was before. -/
theorem popText_pushText_eq_none_iff (s : StackStack) (text : List CodePoint) :
    (s.pushText text).popText = (none, s) ↔ 0 ∉ text ∧ ∃ p ∈ text, p.IsSurrogate := by
  rw [← CodePoint.mapM_char?_eq_none_iff]
  constructor
  · intro hpop
    have hnull := (s.snd_popText_pushText_iff text).mp (congrArg Prod.snd hpop)
    rw [popText_pushText hnull] at hpop
    exact ⟨hnull, congrArg Prod.fst hpop⟩
  · rintro ⟨hnull, hnone⟩
    rw [popText_pushText hnull, hnone]

/-- A text without a null character leaves the pile as it was before.  It is given back if and only
if none of its code points is a surrogate, and refused if one of them is.  On every pile the cells
down to the topmost zero are removed with a text, or all cells of the topmost stack if there is no
zero, and no other stack is touched.  They are refused as a text if and only if one of them is no
Unicode scalar value, and are the characters of the text from the top down if not. -/
theorem texts_pop_exactly (s : StackStack) :
    (∀ text : List CodePoint,
      ((s.pushText text).popText.2 = s ↔ 0 ∉ text) ∧
      ((∃ chars, CodePoint.ofChars chars = text ∧ (s.pushText text).popText = (some chars, s)) ↔
        0 ∉ text ∧ ∀ p ∈ text, ¬ p.IsSurrogate) ∧
      ((s.pushText text).popText = (none, s) ↔ 0 ∉ text ∧ ∃ p ∈ text, p.IsSurrogate)) ∧
    ∃ cells, s.Removes cells s.popText.2 ∧ Cell.Spells cells s.popText.1 :=
  ⟨fun text => ⟨s.snd_popText_pushText_iff text, s.popText_pushText_iff text,
    s.popText_pushText_eq_none_iff text⟩, popText_removes s⟩

/-- A text of three code points without a null character is not given back. -/
theorem surrogate_is_not_given_back :
    (0 : CodePoint) ∉ [97, 0xDCFF, 98] ∧
    ¬ ∃ chars, CodePoint.ofChars chars = [97, 0xDCFF, 98] ∧
      (pushText ⟨⟨[]⟩, []⟩ [97, 0xDCFF, 98]).popText = (some chars, ⟨⟨[]⟩, []⟩) := by
  have hpop : (pushText ⟨⟨[]⟩, []⟩ [97, 0xDCFF, 98]).popText = (none, ⟨⟨[]⟩, []⟩) := by
    decide +kernel
  refine ⟨by decide +kernel, ?_⟩
  rintro ⟨chars, -, hsome⟩
  rw [hpop] at hsome
  cases hsome

/-- Without a zero all of the topmost stack goes, and the zero in the stack below stays. -/
example : (⟨⟨[72, -5, 0xD800, 105]⟩, [⟨[0, 9]⟩]⟩ : StackStack).popText =
    (none, ⟨⟨[]⟩, [⟨[0, 9]⟩]⟩) := by decide +kernel

end StackStack

end Befunge
