import Befunge.Proofs.Layouts

/-!
# A rendered program can be loaded again

The box of a program is shown row by row, without the blanks that end a row.  A space that holds
nothing but a loaded text begins at the origin (`Space.least_ofText`), and none of its cells is a
line break or a form feed (`Space.read_ofText_char`), so the rows of the box come back as the rows
of the text that is shown (`Space.unpadded_render`).  What lies outside the box is blank, and
so is what trimming left out.

`Space.text_survives_rendering` puts this together: the text that is shown gives the same program,
with the same box, and shows as itself.
-/

namespace Befunge

/-! ## The lines of a program -/

namespace Lines

/-- The lines of a program: breaks of every kind are line feeds, form feeds take no place, and one
empty line at the end does not count. -/
def ofProgram (text : List Char) : List (List Char) :=
  dropFinalEmpty (((unify text).filter (· ≠ '\x0c')).splitOn '\n')

theorem split_eq_splitOn (text : List Char) : split text = text.splitOn '\n' := by
  induction text with
  | nil => simp [split]
  | cons c text ih =>
      rw [split, ih, List.splitOn_cons_eq_if_modifyHead]
      cases hpieces : text.splitOn '\n' with
      | nil => exact absurd hpieces (List.splitOn_ne_nil _ _)
      | cons line lines => simp

theorem exists_split_eq_cons (text : List Char) : ∃ line lines, split text = line :: lines := by
  rw [split_eq_splitOn]
  exact List.exists_cons_of_ne_nil (List.splitOn_ne_nil _ _)

/-- Characters other than line feeds can be taken out before or after a text is split. -/
theorem split_filter {keep : Char → Bool} (h : keep '\n' = true) (text : List Char) :
    split (text.filter keep) = (split text).map (List.filter keep) := by
  induction text with
  | nil => rfl
  | cons c text ih =>
      obtain ⟨line, lines, hsplit⟩ := exists_split_eq_cons text
      rw [hsplit] at ih
      by_cases hc : c = '\n'
      · simp [hc, h, split, ih, hsplit]
      · by_cases hkeep : keep c = true
        · simp [hc, hkeep, split, ih, hsplit]
        · simp [hc, hkeep, split, ih, hsplit]

theorem charAt_concat_nil (rows : List (List Char)) (p q : Vec) :
    charAt (rows ++ [[]]) p q = charAt rows p q := by
  rw [charAt, charAt]
  split
  next =>
    rw [List.getElem?_append]
    split
    next => rfl
    next hend =>
      rw [List.getElem?_eq_none (Nat.not_lt.mp hend), List.getElem?_singleton]
      split <;> rfl
  next => rfl

theorem dropFinalEmpty_cases (lines : List (List Char)) :
    dropFinalEmpty lines = lines ∨ lines = dropFinalEmpty lines ++ [[]] := by
  rw [dropFinalEmpty]
  split
  next hlast => exact .inr (List.dropLast_append_getLast? _ hlast).symm
  next => exact .inl rfl

theorem charAt_dropFinalEmpty (lines : List (List Char)) (p q : Vec) :
    charAt (dropFinalEmpty lines) p q = charAt lines p q := by
  rcases dropFinalEmpty_cases lines with hall | hempty
  · rw [hall]
  · conv_rhs => rw [hempty, charAt_concat_nil]

theorem mem_join {rows : List (List Char)} {c : Char} (h : c ∈ join rows) :
    c = '\n' ∨ ∃ row ∈ rows, c ∈ row := by
  rw [join] at h
  induction rows with
  | nil => cases h
  | cons row rows ih =>
      cases rows with
      | nil =>
          rw [List.intercalate_singleton] at h
          exact .inr ⟨row, List.mem_cons_self, h⟩
      | cons next rows =>
          rw [List.intercalate_cons_cons, List.mem_append, List.mem_append,
            List.mem_singleton] at h
          rcases h with (h | h) | h
          · exact .inr ⟨row, List.mem_cons_self, h⟩
          · exact .inl h
          · exact (ih h).imp_right fun ⟨found, hmem, hc⟩ =>
              ⟨found, List.mem_cons_of_mem row hmem, hc⟩

/-- Rows without line breaks are the lines of the text in which a feed stands between them, but for
an empty one at the end. -/
theorem ofText_join {rows : List (List Char)} (hne : rows ≠ []) (hfeed : ∀ row ∈ rows, '\n' ∉ row)
    (hreturn : '\r' ∉ join rows) : ofText (join rows) = dropFinalEmpty rows := by
  rw [ofText, unify_of_unbroken hreturn, split_eq_splitOn, join,
    List.splitOn_intercalate '\n' hfeed hne]

end Lines

/-- The rows of a loaded text are the lines of the program, whether form feeds are taken out before
or after the empty line at the end. -/
theorem Space.charAt_unpadded (text : List Char) (p q : Vec) :
    Lines.charAt (unpadded text) p q = Lines.charAt (Lines.ofProgram text) p q := by
  have hlines : ((Lines.unify text).filter (· ≠ '\x0c')).splitOn '\n' =
      (Lines.split (Lines.unify text)).map (List.filter (· ≠ '\x0c')) := by
    rw [← Lines.split_eq_splitOn, Lines.split_filter (by decide)]
  rw [Lines.ofProgram, Lines.charAt_dropFinalEmpty, hlines, unpadded, Lines.ofText]
  rcases Lines.dropFinalEmpty_cases (Lines.split (Lines.unify text)) with hall | hempty
  · rw [hall]
  · conv_rhs => rw [hempty, List.map_append]
    exact (Lines.charAt_concat_nil _ p q).symm

namespace Bounds

/-- The points of a box are those that lie less than its size from its first corner. -/
theorem mem_iff_exists_offset {b : Bounds} {p : Vec} :
    p ∈ b ↔ ∃ i < b.size.x.toNat, ∃ j < b.size.y.toNat, p = ⟨b.least.x + i, b.least.y + j⟩ := by
  rw [mem_def]
  simp only [size]
  constructor
  · rintro ⟨⟨hx, hx'⟩, hy, hy'⟩
    refine ⟨(p.x - b.least.x).toNat, by omega, (p.y - b.least.y).toNat, by omega, Vec.ext ?_ ?_⟩
    · dsimp only
      omega
    · dsimp only
      omega
  · rintro ⟨i, hi, j, hj, rfl⟩
    dsimp only
    omega

/-- The part of a box that lies neither west nor north of the origin. -/
def southEast (b : Bounds) : Bounds :=
  ⟨Vec.zero, b.greatest, Int.le_refl 0, Int.le_refl 0, b.le_greatest_x, b.le_greatest_y⟩

/-- The least box begins at the origin if nothing lies west or north of that. -/
theorem IsHull.least_eq_zero {b : Bounds} {marked : Vec → Prop} (h : b.IsHull marked)
    (hmarked : ∀ p, marked p → 0 ≤ p.x ∧ 0 ≤ p.y) : b.least = Vec.zero := by
  have hpart : b.Within b.southEast := h.least _ fun p hp => by
    obtain ⟨⟨-, hx⟩, -, hy⟩ := mem_def.mp (h.holds p hp)
    exact mem_def.mpr ⟨⟨(hmarked p hp).1, hx⟩, (hmarked p hp).2, hy⟩
  obtain ⟨⟨hx, -⟩, hy, -⟩ := (within_iff.mp hpart).1
  exact Vec.ext (le_antisymm b.least_x_le hx) (le_antisymm b.least_y_le hy)

end Bounds

namespace Space

theorem read_ofText (text : List Char) (p : Vec) :
    (ofText text).read p =
      ((Lines.charAt (Lines.ofProgram text) Vec.zero p).map Cell.ofChar).getD Cell.blank := by
  rw [ofText, read_load_empty, charAt_unpadded]

/-- A cell of a program that was loaded is a blank or a character of a line. -/
theorem read_ofText_char (text : List Char) (p : Vec) :
    ∃ c : Char, (ofText text).read p = Cell.ofChar c ∧ c ≠ '\n' ∧ c ≠ '\r' ∧ c ≠ '\x0c' := by
  rw [ofText, read_load_empty]
  cases hchar : Lines.charAt (unpadded text) Vec.zero p with
  | none => exact ⟨' ', rfl, by decide, by decide, by decide⟩
  | some c =>
      rw [Lines.charAt] at hchar
      split at hchar
      next =>
        obtain ⟨row, hrow, hc⟩ := Option.bind_eq_some_iff.mp hchar
        obtain ⟨line, hline, rfl⟩ := List.mem_map.mp (List.mem_of_getElem? hrow)
        obtain ⟨hmem, hform⟩ := List.mem_filter.mp (List.mem_of_getElem? hc)
        obtain ⟨-, hfeed, hreturn⟩ := Lines.mem_of_mem_ofText hline hmem
        exact ⟨c, rfl, hfeed, hreturn, of_decide_eq_true hform⟩
      next => cases hchar

/-- The box of a program begins at the origin. -/
theorem least_ofText (text : List Char) : (ofText text).bounds.least = Vec.zero := by
  refine (isHull_load text Vec.zero).least_eq_zero fun p hp => ?_
  rw [read_load_empty, Lines.charAt] at hp
  split at hp
  next hpos => exact hpos
  next => exact absurd rfl hp

/-! ## The rows that are shown -/

/-- The region of the box has the cells that lie in it. -/
theorem charAt_box (s : Space) (p : Vec) :
    Lines.charAt (s.region s.bounds.least s.bounds.size.x.toNat s.bounds.size.y.toNat)
        s.bounds.least p =
      if p ∈ s.bounds then some (Cell.shown (s.read p)) else none := by
  split
  next hp =>
    obtain ⟨i, hi, j, hj, rfl⟩ := Bounds.mem_iff_exists_offset.mp hp
    exact charAt_region hi hj
  next hp =>
    refine charAt_region_eq_none fun i hi j hj hpoint => hp ?_
    exact Bounds.mem_iff_exists_offset.mpr ⟨i, hi, j, hj, hpoint⟩

/-- The rows of the box as they are shown. -/
def shownRows (s : Space) : List (List Char) :=
  (s.region s.bounds.least s.bounds.size.x.toNat s.bounds.size.y.toNat).map Lines.trimEnd

theorem render_congr {s t : Space} (hread : ∀ p, s.read p = t.read p)
    (hbounds : s.bounds = t.bounds) : s.render = t.render := by
  simp only [render, region, row, hread, hbounds]

theorem shownRows_ne_nil (s : Space) : s.shownRows ≠ [] := by
  have hy := s.bounds.least_y_le
  have hy' := s.bounds.le_greatest_y
  have hheight : s.bounds.size.y.toNat ≠ 0 := by
    rw [Bounds.size]
    dsimp only
    omega
  simpa [shownRows, region] using hheight

theorem mem_shownRows {text row : List Char} {c : Char} (hrow : row ∈ (ofText text).shownRows)
    (hc : c ∈ row) : c ≠ '\n' ∧ c ≠ '\r' ∧ c ≠ '\x0c' := by
  obtain ⟨whole, hwhole, rfl⟩ := List.mem_map.mp hrow
  obtain ⟨i, -, j, -, rfl⟩ := mem_region hwhole ((List.rdropWhile_prefix _ _).subset hc)
  obtain ⟨d, hd, hbreak⟩ := read_ofText_char text _
  rwa [hd, Cell.shown_ofChar]

/-- No character of a program that is shown breaks a line but the feeds between its rows. -/
theorem mem_render {text : List Char} {c : Char} (h : c ∈ (ofText text).render) :
    c ≠ '\r' ∧ c ≠ '\x0c' := by
  rcases Lines.mem_join h with rfl | ⟨row, hrow, hc⟩
  · decide
  · exact (mem_shownRows hrow hc).2

/-- The rows that are shown are the rows of the text that shows them. -/
theorem unpadded_render (text : List Char) :
    unpadded (ofText text).render = Lines.dropFinalEmpty (ofText text).shownRows := by
  rw [unpadded_of_unfed fun hform => (mem_render hform).2 rfl]
  exact Lines.ofText_join (ofText text).shownRows_ne_nil
    (fun row hrow hfeed => (mem_shownRows hrow hfeed).1 rfl)
    (fun hreturn => (mem_render hreturn).1 rfl)

theorem read_ofText_render (text : List Char) (p : Vec) :
    (ofText (ofText text).render).read p = (ofText text).read p := by
  rw [ofText, read_load_empty, unpadded_render, Lines.charAt_dropFinalEmpty, ← Ink.getD_clear,
    shownRows, Lines.charAt_map_trimEnd, Ink.getD_clear, ← least_ofText text, charAt_box]
  split
  next =>
    obtain ⟨c, hc, -⟩ := read_ofText_char text p
    rw [hc, Cell.shown_ofChar]
    rfl
  next hp =>
    -- outside the box there is nothing but blanks
    by_contra hblank
    exact hp ((isHull_load text Vec.zero).holds p (Ne.symm hblank))

/-- A program text is shown as a text that gives the same program.  It reads the same at every
point, with the same box, and is shown as the same text again.  What a program reads at a point is
the character that its lines have there, or else a blank. -/
theorem text_survives_rendering (text : List Char) :
    (∀ p, (ofText (ofText text).render).read p = (ofText text).read p) ∧
    (ofText (ofText text).render).bounds = (ofText text).bounds ∧
    (ofText (ofText text).render).render = (ofText text).render ∧
    ∀ p, (ofText text).read p =
      ((Lines.charAt (Lines.ofProgram text) Vec.zero p).map Cell.ofChar).getD Cell.blank := by
  have hread := read_ofText_render text
  have hbounds : (ofText (ofText text).render).bounds = (ofText text).bounds :=
    bounds_eq_of_read (isHull_load _ Vec.zero) (isHull_load text Vec.zero) hread
  exact ⟨hread, hbounds, render_congr hread hbounds, read_ofText text⟩

end Space

end Befunge
