import Befunge.Proofs.SavedRegions

/-!
# Two ways to lay out a text

A text comes into program space in two ways.  Loading pads its rows to a rectangle and stores all
of it, blanks too, and takes form feeds out.  Placing leaves the blanks out and puts the other
characters one by one.

In a space in which nothing was written before, both read as the rows of the text
(`Space.read_load_empty`, `Memory.read_place_empty`), and a blank that was stored cannot be told
from one that was not.  Their bounds are the least box with what is not blank
(`Edit.isHull_read`), so spaces that read alike after one edit have the same bounds.  Texts
without form feeds have the same rows either way, which gives `Memory.place_as_loaded`.
-/

namespace Befunge

/-! ## Boxes of what is not blank -/

/-- There is only one least box. -/
theorem Bounds.IsHull.unique {b b' : Bounds} {marked : Vec → Prop} (h : b.IsHull marked)
    (h' : b'.IsHull marked) : b = b' :=
  eq_of_within (h.least b' h'.holds) (h'.least b h.holds)

/-- Spaces that read alike have the same bounds, if each has the least box with all that is not
blank. -/
theorem Space.bounds_eq_of_read {s t : Space}
    (hs : s.bounds.IsHull fun q => s.read q ≠ Cell.blank)
    (ht : t.bounds.IsHull fun q => t.read q ≠ Cell.blank) (h : ∀ q, s.read q = t.read q) :
    s.bounds = t.bounds := by
  simp only [h] at hs
  exact hs.unique ht

namespace Edit

/-- After an edit of a space in which nothing was written, what is written can be read. -/
theorem read_apply_empty (e : Edit) {m : Memory} (hm : m.space = Space.empty) (q : Vec) :
    (e.apply m).space.read q = (e.writes q).getD Cell.blank := by
  rw [(e.took m).read, hm]
  rfl

/-- After an edit of a space in which nothing was written, the bounds are the least box with all
that is not blank. -/
theorem isHull_read (e : Edit) {m : Memory} (hm : m.space = Space.empty) :
    (e.apply m).space.bounds.IsHull fun q => (e.apply m).space.read q ≠ Cell.blank := by
  have hmarks (q : Vec) : (e.apply m).space.read q ≠ Cell.blank ↔ e.Marks q := by
    rw [e.read_apply_empty hm, Marks]
    cases e.writes q <;> simp
  simp only [hmarks]
  refine ⟨(((e.took m).bounds _).mp fun _ hp => hp).2, fun b hb => ?_⟩
  refine ((e.took m).bounds b).mpr ⟨?_, hb⟩
  rw [hm]
  exact b.unit_within

end Edit

/-! ## What is read of a text -/

/-- A blank that is left out reads as one that is stored. -/
theorem Ink.getD_clear (c : Option Char) :
    (c.bind clear.value).getD Cell.blank = (c.map Cell.ofChar).getD Cell.blank := by
  cases c with
  | none => rfl
  | some c =>
      by_cases hc : c = ' '
      · simp [clear, hc]
        rfl
      · simp [clear, hc]

theorem Space.covers_of_charAt {text : List Char} {origin q : Vec} {c : Char}
    (h : Lines.charAt (unpadded text) origin q = some c) : Covers text origin q := by
  rw [Lines.charAt] at h
  split at h
  next hq =>
    obtain ⟨row, hrow, hc⟩ := Option.bind_eq_some_iff.mp h
    have hheight := (List.getElem?_eq_some_iff.mp hrow).1
    have hlength := (List.getElem?_eq_some_iff.mp hc).1
    have hwidth := Lines.length_le_width (List.mem_of_getElem? hrow)
    rw [Covers]
    omega
  next => cases h

/-- A text that is loaded into an empty space reads as its rows. -/
theorem Space.read_load_empty (text : List Char) (origin q : Vec) :
    (empty.load text origin).read q =
      ((Lines.charAt (unpadded text) origin q).map Cell.ofChar).getD Cell.blank := by
  have hread := (Edit.load text origin).read_apply_empty (m := ⟨empty, 0, 0⟩) rfl q
  rw [Edit.writes] at hread
  refine hread.trans ?_
  cases hchar : Lines.charAt (unpadded text) origin q with
  | none => split <;> rfl
  | some c => rw [if_pos (covers_of_charAt hchar)]; rfl

theorem Space.isHull_load (text : List Char) (origin : Vec) :
    (empty.load text origin).bounds.IsHull
      fun q => (empty.load text origin).read q ≠ Cell.blank :=
  (Edit.load text origin).isHull_read (m := ⟨empty, 0, 0⟩) rfl

/-- A text that is placed in an empty space reads as its rows. -/
theorem Memory.read_place_empty (text : List Char) (origin : Vec) (linear : Bool) {m : Memory}
    (hm : m.space = Space.empty) (q : Vec) :
    (m.place text origin linear).2.space.read q =
      ((Lines.charAt (placedRows linear text) origin q).map Cell.ofChar).getD Cell.blank := by
  have hplace : (m.place text origin linear).2 = m.placeRows origin (placedRows linear text) := rfl
  rw [hplace, (m.placeRows_wrote _ origin).read, hm, ← Ink.getD_clear]
  rfl

/-! ## The size of a text -/

theorem Lines.width_eq_max? (rows : List (List Char)) :
    width rows = (rows.map List.length).max?.getD 0 := by
  induction rows with
  | nil => rfl
  | cons row rows ih =>
      have hcons : width (row :: rows) = max row.length (width rows) := rfl
      rw [hcons, ih, List.map_cons, List.max?_cons]
      cases (rows.map List.length).max? <;> simp

theorem Space.length_padded {width : Nat} {row : List Char} (h : row.length ≤ width) :
    (padded width row).length = width := by
  rw [padded, List.length_append, List.length_replicate]
  omega

/-- Padding makes no text wider. -/
theorem Space.width_layout (text : List Char) :
    Lines.width (layout text) = Lines.width (unpadded text) := by
  have hlayout : layout text = (unpadded text).map (padded (Lines.width (unpadded text))) := rfl
  have hlengths : (layout text).map List.length =
      List.replicate (unpadded text).length (Lines.width (unpadded text)) := by
    rw [hlayout, List.map_map, ← List.map_const']
    exact List.map_congr_left fun row hrow => length_padded (Lines.length_le_width hrow)
  rw [Lines.width_eq_max?, hlengths]
  cases hrows : unpadded text with
  | nil => rfl
  | cons row rows => simp [List.max?_replicate_of_pos]

/-! ## Texts without form feeds -/

namespace Lines

theorem mem_of_mem_unify {text : List Char} {c : Char} (h : c ∈ unify text) :
    c ≠ '\r' ∧ (c ∈ text ∨ c = '\n') := by
  fun_induction unify text with
  | case1 rest ih =>
      rcases List.mem_cons.mp h with rfl | h
      · exact ⟨by decide, .inr rfl⟩
      · exact ⟨(ih h).1, (ih h).2.imp_left fun hc => by simp [hc]⟩
  | case2 rest _ ih =>
      rcases List.mem_cons.mp h with rfl | h
      · exact ⟨by decide, .inr rfl⟩
      · exact ⟨(ih h).1, (ih h).2.imp_left fun hc => by simp [hc]⟩
  | case3 d rest hpair hreturn ih =>
      rcases List.mem_cons.mp h with rfl | h
      · exact ⟨hreturn, .inl List.mem_cons_self⟩
      · exact ⟨(ih h).1, (ih h).2.imp_left fun hc => by simp [hc]⟩
  | case4 => cases h

theorem mem_of_mem_split {text line : List Char} {c : Char} (h : line ∈ split text)
    (hc : c ∈ line) : c ∈ text ∧ c ≠ '\n' := by
  induction text generalizing line with
  | nil =>
      rw [split, List.mem_singleton] at h
      rw [h] at hc
      cases hc
  | cons d text ih =>
      have hlater {line : List Char} (h : line ∈ split text) (hc : c ∈ line) :
          c ∈ d :: text ∧ c ≠ '\n' :=
        ⟨List.mem_cons_of_mem d (ih h hc).1, (ih h hc).2⟩
      rw [split] at h
      split at h
      next =>
        rcases List.mem_cons.mp h with rfl | h
        · cases hc
        · exact hlater h hc
      next hd =>
        split at h
        next =>
          rw [List.mem_singleton.mp h, List.mem_singleton] at hc
          exact ⟨hc ▸ List.mem_cons_self, hc ▸ hd⟩
        next first rest hsplit =>
          rw [hsplit] at hlater
          rcases List.mem_cons.mp h with rfl | h
          · rcases List.mem_cons.mp hc with rfl | hc
            · exact ⟨List.mem_cons_self, hd⟩
            · exact hlater List.mem_cons_self hc
          · exact hlater (List.mem_cons_of_mem first h) hc

theorem dropFinalEmpty_subset (lines : List (List Char)) : dropFinalEmpty lines ⊆ lines := by
  rw [dropFinalEmpty]
  split
  next => exact List.dropLast_subset lines
  next => exact List.Subset.refl lines

/-- No line holds a break, and what it holds is in the text. -/
theorem mem_of_mem_ofText {text line : List Char} {c : Char} (h : line ∈ ofText text)
    (hc : c ∈ line) : c ∈ text ∧ c ≠ '\n' ∧ c ≠ '\r' := by
  obtain ⟨hmem, hfeed⟩ := mem_of_mem_split (dropFinalEmpty_subset _ h) hc
  obtain ⟨hreturn, htext⟩ := mem_of_mem_unify hmem
  exact ⟨htext.resolve_right hfeed, hfeed, hreturn⟩

end Lines

/-- The rows of a text without form feeds are its lines. -/
theorem Space.unpadded_of_unfed {text : List Char} (h : '\x0c' ∉ text) :
    unpadded text = Lines.ofText text := by
  have hline {line : List Char} (hmem : line ∈ Lines.ofText text) :
      line.filter (· ≠ '\x0c') = line := by
    refine List.filter_eq_self.mpr fun c hc => decide_eq_true fun hfeed => h ?_
    exact hfeed ▸ (Lines.mem_of_mem_ofText hmem hc).1
  rw [unpadded, List.map_congr_left fun line hmem => hline hmem, List.map_id']

namespace Memory

/-- A text without form feeds that is placed in an empty space gives the space that loading it
gives, with the same bounds.  The size that is told is the length of the longest row that is
laid out and the number of these rows. -/
theorem place_as_loaded {text : List Char} (h : '\x0c' ∉ text) (origin : Vec) {m : Memory}
    (hm : m.space = Space.empty) :
    (∀ q, (m.place text origin false).2.space.read q = (Space.empty.load text origin).read q) ∧
    (m.place text origin false).2.space.bounds = (Space.empty.load text origin).bounds ∧
    (m.place text origin false).1 =
      ⟨((Space.layout text).map List.length).max?.getD 0, (Space.layout text).length⟩ := by
  have hrows : placedRows false text = Space.unpadded text := (Space.unpadded_of_unfed h).symm
  have hread (q : Vec) : (m.place text origin false).2.space.read q =
      (Space.empty.load text origin).read q := by
    rw [read_place_empty text origin false hm, hrows, Space.read_load_empty]
  refine ⟨hread, ?_, ?_⟩
  · exact Space.bounds_eq_of_read ((Edit.place text origin false).isHull_read hm)
      (Space.isHull_load text origin) hread
  · rw [← Lines.width_eq_max?, Space.width_layout, place, hrows]
    simp [Space.layout, Space.unpadded]

/-- Rows of different lengths, one of them empty, that end in three different ways. -/
theorem place_as_loaded_mixed :
    (∀ q, (place ⟨Space.empty, 3, 4⟩ "a b\r\n\r c\n".toList ⟨-1, 5⟩ false).2.space.read q =
      (Space.empty.load "a b\r\n\r c\n".toList ⟨-1, 5⟩).read q) ∧
    (place ⟨Space.empty, 3, 4⟩ "a b\r\n\r c\n".toList ⟨-1, 5⟩ false).2.space.bounds =
      (Space.empty.load "a b\r\n\r c\n".toList ⟨-1, 5⟩).bounds ∧
    (place ⟨Space.empty, 3, 4⟩ "a b\r\n\r c\n".toList ⟨-1, 5⟩ false).1 = ⟨3, 3⟩ := by
  have hform : '\x0c' ∉ "a b\r\n\r c\n".toList := by decide
  obtain ⟨hread, hbounds, hsize⟩ :=
    place_as_loaded hform ⟨-1, 5⟩ (m := ⟨Space.empty, 3, 4⟩) rfl
  refine ⟨hread, hbounds, hsize.trans ?_⟩
  decide +kernel

end Memory

end Befunge
