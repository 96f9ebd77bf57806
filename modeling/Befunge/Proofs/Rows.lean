import Befunge.Proofs.Courses
import Befunge.Proofs.Writes

/-!
# Programs of one row

A text without line breaks and form feeds is laid out as one row from the origin on.  If its
last character is not a blank the row is also the box (`Space.ofText_isRow`), and steps along it
count its characters one by one.

`Space.IsRow` is all that is needed of such a space later on.  A search for text along the row
ends on the first character that is not a blank (`Space.IsRow.skipBlanks`).
-/

namespace Befunge

/-! ## Layout -/

namespace Lines

theorem unify_of_unbroken {text : List Char} (h : '\r' ∉ text) : unify text = text := by
  induction text with
  | nil => rfl
  | cons c rest ih =>
      have hc : c ≠ '\r' := fun hc => h (hc ▸ List.mem_cons_self)
      have hrest := ih fun hr => h (List.mem_cons_of_mem c hr)
      rw [unify]
      · rw [hrest]
      · exact fun _ hbreak _ => hc hbreak
      · exact hc

theorem split_of_unbroken {text : List Char} (h : '\n' ∉ text) : split text = [text] := by
  induction text with
  | nil => rfl
  | cons c rest ih =>
      have hc : c ≠ '\n' := fun hc => h (hc ▸ List.mem_cons_self)
      simp only [split, if_neg hc, ih fun hr => h (List.mem_cons_of_mem c hr)]

/-- A text without line breaks is one line. -/
theorem ofText_of_unbroken {text : List Char} (hne : text ≠ []) (hreturn : '\r' ∉ text)
    (hfeed : '\n' ∉ text) : ofText text = [text] := by
  rw [ofText, unify_of_unbroken hreturn, split_of_unbroken hfeed, dropFinalEmpty]
  exact if_neg (by simpa using hne)

end Lines

theorem Space.layout_of_unbroken {text : List Char} (hne : text ≠ []) (hreturn : '\r' ∉ text)
    (hfeed : '\n' ∉ text) (hform : '\x0c' ∉ text) : layout text = [text] := by
  have hfilter : text.filter (· ≠ '\x0c') = text :=
    List.filter_eq_self.mpr fun c hc => decide_eq_true fun h => hform (h ▸ hc)
  rw [layout, Lines.ofText_of_unbroken hne hreturn hfeed]
  simp only [List.map_cons, List.map_nil, hfilter]
  simp [padded, Lines.width]

/-! ## Rows -/

/-- The point of the first row in a column. -/
def Vec.col (i : Nat) : Vec := ⟨i, 0⟩

theorem Bounds.eq_of_within {b b' : Bounds} (h : b.Within b') (h' : b'.Within b) : b = b' := by
  rw [within_iff] at h h'
  simp only [mem_def] at h h'
  ext <;> omega

/-- The program is one row of characters from the origin on, and the row is the box. -/
structure Space.IsRow (s : Space) (row : List Char) : Prop where
  read : ∀ i c, row[i]? = some c → s.read (.col i) = Cell.ofChar c
  bounds : s.bounds = Bounds.unit.extend (.col (row.length - 1))

namespace Space

theorem ofText_isRow {row : List Char} {last : Char} (hlast : row.getLast? = some last)
    (hblank : last ≠ ' ') (hreturn : '\r' ∉ row) (hfeed : '\n' ∉ row) (hform : '\x0c' ∉ row) :
    (ofText row).IsRow row := by
  have hne : row ≠ [] := by
    rintro rfl
    cases hlast
  have hwrote : Ink.solid.Wrote empty (ofText row) (Lines.charAt [row] Vec.zero) := by
    rw [ofText, load, layout_of_unbroken hne hreturn hfeed hform]
    exact storeRows_wrote [row] empty Vec.zero
  have hchar {i : Nat} {c : Char} (hc : row[i]? = some c) :
      Lines.charAt [row] Vec.zero (.col i) = some c := by
    simp [Lines.charAt, Vec.zero, Vec.col, hc]
  refine ⟨fun i c hc => ?_, Bounds.eq_of_within ?_ ?_⟩
  · rw [hwrote.read, hchar hc]
    rfl
  · refine (hwrote.bounds _).mpr ⟨Bounds.unit_within _, ?_⟩
    rintro ⟨x, y⟩ ⟨c, hc, -⟩
    rw [Lines.charAt_cons, Lines.charAt_nil, Option.or_none, Lines.rowAt] at hc
    split at hc
    next hq =>
      have hlt := (List.getElem?_eq_some_iff.mp hc).1
      simp only [Vec.zero] at hq hlt
      simp only [Bounds.mem_def, Bounds.extend, Bounds.unit, Vec.col, Vec.zero]
      omega
    next => cases hc
  · refine Bounds.extend_within.mpr ⟨Bounds.unit_within _, ?_⟩
    rw [List.getLast?_eq_getElem?] at hlast
    exact ((hwrote.bounds _).mp fun _ hp => hp).2 _ ⟨last, hchar hlast, hblank⟩

namespace IsRow

variable {s : Space} {row : List Char}

theorem read_append (h : s.IsRow row) {before after : List Char} {c : Char}
    (hrow : row = before ++ c :: after) : s.read (.col before.length) = Cell.ofChar c := by
  refine h.read _ c ?_
  rw [hrow, List.getElem?_append_right (Nat.le_refl _), Nat.sub_self, List.getElem?_cons_zero]

theorem next_east (h : s.IsRow row) {i : Nat} (hi : i + 1 < row.length) :
    s.bounds.next (.col i) Vec.east = .col (i + 1) := by
  have hmem : Vec.col i + Vec.east ∈ s.bounds := by
    rw [h.bounds, Bounds.mem_def]
    simp only [Bounds.extend, Bounds.unit, Vec.col, Vec.zero, Vec.east, Vec.add_x, Vec.add_y]
    omega
  rw [Bounds.next, if_pos hmem]
  rfl

theorem next_west (h : s.IsRow row) {i : Nat} (hi : i + 1 < row.length) :
    s.bounds.next (.col (i + 1)) Vec.west = .col i := by
  have hwest : Vec.col (i + 1) + Vec.west = Vec.col i := by
    ext
    · simp only [Vec.col, Vec.west, Vec.add_x]
      omega
    · rfl
  have hmem : Vec.col i ∈ s.bounds := by
    rw [h.bounds, Bounds.mem_def]
    simp only [Bounds.extend, Bounds.unit, Vec.col, Vec.zero]
    omega
  rw [Bounds.next, hwest, if_pos hmem]

end IsRow

end Space

/-! ## Searches along a row -/

namespace Course

/-- A search for a command goes no further than the first cell if that is one. -/
theorem findCommand_of_command {s : Space} {p : Vec} (hblank : s.read p ≠ Cell.blank)
    (hsemicolon : s.read p ≠ Cell.semicolon) (delta : Vec) : (findCommand s delta p).1 = p := by
  simp [findCommand, Bounds.courseLimit, searchCommand, hblank, hsemicolon]

/-- A search for text passes over the blanks of a walk that meets no point twice. -/
theorem searchText_walk {s : Space} {delta : Vec} (n : Nat) :
    ∀ {limit : Nat} {seen : Seen} {p : Vec} (reads : Nat), n < limit →
      (∀ i < n, s.read ((s.bounds.next · delta)^[i] p) = Cell.blank) →
      (∀ i < n, seen.contains ⟨(s.bounds.next · delta)^[i] p, false⟩ = false) →
      (∀ i j, i < j → j < n →
        (s.bounds.next · delta)^[i] p ≠ (s.bounds.next · delta)^[j] p) →
      s.read ((s.bounds.next · delta)^[n] p) ≠ Cell.blank →
      (searchText s delta limit seen p reads).1 = (s.bounds.next · delta)^[n] p := by
  induction n with
  | zero =>
      intro limit seen p reads hlimit _ _ _ hend
      obtain ⟨limit, rfl⟩ := Nat.exists_eq_add_of_lt hlimit
      rw [Nat.zero_add, searchText, if_pos (.inl hend)]
      rfl
  | succ n ih =>
      intro limit seen p reads hlimit hblank hseen hapart hend
      obtain ⟨limit, rfl⟩ : ∃ more, limit = more + 1 := ⟨limit - 1, by omega⟩
      have hread : s.read p = Cell.blank := hblank 0 (Nat.succ_pos n)
      have hnew : seen.contains ⟨p, false⟩ = false := hseen 0 (Nat.succ_pos n)
      rw [searchText, if_neg (by simp [hread, hnew]), Function.iterate_succ_apply]
      refine ih _ (by omega) (fun i hi => ?_) (fun i hi => ?_) (fun i j hij hj => ?_) hend
      · exact hblank (i + 1) (Nat.succ_lt_succ hi)
      · -- the point that is left is not met again, so none of the points to come is known
        have hne := hapart 0 (i + 1) (Nat.succ_pos i) (Nat.succ_lt_succ hi)
        have hold := hseen (i + 1) (Nat.succ_lt_succ hi)
        rw [Function.iterate_succ_apply] at hne hold
        rw [Std.TreeSet.contains_insert, hold, Bool.or_false, beq_eq_false_iff_ne, ne_eq,
          Std.LawfulEqCmp.compare_eq_iff_eq]
        exact fun hsame => hne (Station.mk.inj hsame).1
      · exact hapart (i + 1) (j + 1) (Nat.succ_lt_succ hij) (Nat.succ_lt_succ hj)

end Course

namespace Space.IsRow

variable {s : Space} {row : List Char}

theorem iterate_next_east (h : s.IsRow row) {i k : Nat} (hk : i + k < row.length) :
    (s.bounds.next · Vec.east)^[k] (.col i) = .col (i + k) := by
  induction k with
  | zero => rfl
  | succ k ih =>
      rw [Function.iterate_succ_apply', ih (by omega), h.next_east (by omega)]
      rfl

/-- A search for text along the row passes over blanks. -/
theorem skipBlanks (h : s.IsRow row) {before blanks after : List Char} {c : Char}
    (hrow : row = before ++ blanks ++ c :: after) (hblanks : ∀ b ∈ blanks, b = ' ')
    (hc : c ≠ ' ') :
    (Course.skipBlanks s Vec.east (.col before.length)).1 =
      .col (before.length + blanks.length) := by
  have hlength : before.length + blanks.length < row.length := by
    rw [hrow, List.length_append, List.length_append, List.length_cons]
    omega
  have hwalk {k : Nat} (hk : k ≤ blanks.length) :
      (s.bounds.next · Vec.east)^[k] (.col before.length) = .col (before.length + k) :=
    h.iterate_next_east (by omega)
  have hlimit : blanks.length < s.bounds.courseLimit := by
    rw [h.bounds]
    simp only [Bounds.courseLimit, Bounds.size, Bounds.extend, Bounds.unit, Vec.col, Vec.zero]
    omega
  rw [← hwalk (Nat.le_refl _)]
  refine Course.searchText_walk _ _ hlimit (fun i hi => ?_) (fun _ _ => ?_)
    (fun i j hij hj => ?_) ?_
  · rw [hwalk hi.le]
    refine h.read _ ' ' ?_
    rw [hrow, List.append_assoc, List.getElem?_append_right (by omega), Nat.add_sub_cancel_left,
      List.getElem?_append_left hi, List.getElem?_eq_getElem hi, hblanks _ (List.getElem_mem hi)]
  · exact Std.TreeSet.contains_emptyc
  · rw [hwalk (by omega), hwalk (by omega)]
    intro hsame
    have hx := (Vec.mk.inj hsame).1
    omega
  · rw [hwalk (Nat.le_refl _), ← List.length_append, h.read_append hrow]
    exact fun hblank => hc (Space.ofChar_eq_blank.mp hblank)

end Space.IsRow

end Befunge
