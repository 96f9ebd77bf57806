import Mathlib.Data.List.Destutter
import Befunge.Setup
import Befunge.Proofs.Rows
import Befunge.Proofs.Searches

/-!
# Strings

A string is the part of a walk from a quote to the next one, which may be the same quote once
round the line.  A pointer that executes the first quote pushes the cells between the two, one
in each step, except that it pushes a run of blanks as one (`Pointer.string_pushes_collapsed`).

Runs are collapsed one step late: after a blank was pushed, the pointer goes on to the first
cell that is not blank (`Course.skipBlanks_first`).  There is one, since the walk comes to a
quote.  So the string is followed by strong induction on how many cells are left of it
(`Pointer.InString.through`), and one step takes away a cell or a whole run.
-/

namespace Befunge

/-! ## Collapsed cells -/

namespace Cell

/-- Two cells that are not both blank. -/
def Parted (v next : Int) : Prop := ¬ (v = blank ∧ next = blank)

instance : DecidableRel Parted := fun _ _ => inferInstanceAs (Decidable (¬ _))

/-- The cells with every run of blanks replaced by one blank. -/
def collapsed (cells : List Int) : List Int := cells.destutter Parted

theorem collapsed_cons_of_ne {v : Int} (hv : v ≠ blank) (cells : List Int) :
    collapsed (v :: cells) = v :: collapsed cells := by
  cases cells with
  | nil => rfl
  | cons next cells =>
      have hparted : Parted v next := fun h => hv h.1
      exact List.destutter'_cons_pos cells hparted

/-- A run of blanks leaves one. -/
theorem collapsed_blanks (n : Nat) {later : List Int} (hlater : later.head? ≠ some blank) :
    collapsed (blank :: (List.replicate n blank ++ later)) = blank :: collapsed later := by
  induction n with
  | zero =>
      cases later with
      | nil => rfl
      | cons v later =>
          have hparted : Parted blank v := fun h => hlater (congrArg some h.2)
          exact List.destutter'_cons_pos later hparted
  | succ n ih =>
      have hsame : ¬ Parted blank blank := fun h => h ⟨rfl, rfl⟩
      rw [← ih, List.replicate_succ, List.cons_append]
      exact List.destutter'_cons_neg _ hsame

end Cell

/-! ## Cells of a walk -/

namespace Course

variable {s : Space} {delta p : Vec}

/-- The first `n` cells of a walk. -/
def cells (s : Space) (delta p : Vec) (n : Nat) : List Int :=
  (List.range n).map fun i => s.read (point s delta p i)

theorem point_add (i j : Nat) : point s delta (point s delta p i) j = point s delta p (i + j) := by
  rw [Nat.add_comm]
  exact (Function.iterate_add_apply _ j i p).symm

theorem point_next (i : Nat) :
    point s delta (s.bounds.next p delta) i = point s delta p (i + 1) :=
  rfl

theorem cells_succ (n : Nat) :
    cells s delta p (n + 1) = s.read p :: cells s delta (s.bounds.next p delta) n := by
  rw [cells, List.range_succ_eq_map, List.map_cons, List.map_map]
  rfl

/-- Cells of a walk that begins with blanks. -/
theorem cells_of_blanks {n m : Nat} (hblank : ∀ i < n, s.read (point s delta p i) = Cell.blank) :
    cells s delta p (n + m) =
      List.replicate n Cell.blank ++ cells s delta (point s delta p n) m := by
  induction n generalizing p with
  | zero => rw [Nat.zero_add]; rfl
  | succ n ih =>
      have hfirst : s.read p = Cell.blank := hblank 0 (Nat.succ_pos n)
      rw [Nat.add_right_comm, cells_succ, ih fun i hi => hblank (i + 1) (Nat.succ_lt_succ hi),
        List.replicate_succ, List.cons_append, hfirst, point_next]

theorem head?_cells {n : Nat} (h : s.read p ≠ Cell.blank) :
    (cells s delta p n).head? ≠ some Cell.blank := by
  cases n with
  | zero => exact Option.some_ne_none _ ∘ Eq.symm
  | succ n =>
      rw [cells_succ]
      exact fun hhead => h (Option.some.inj hhead)

/-- A search for text ends at the first cell that is not blank. -/
theorem skipBlanks_first {n : Nat} (hblank : ∀ i < n, s.read (point s delta p i) = Cell.blank)
    (hend : s.read (point s delta p n) ≠ Cell.blank) :
    (Course.skipBlanks s delta p).1 = point s delta p n := by
  -- a walk that met a blank twice would never come to a cell that is not blank
  have hapart : ∀ i j, i < j → j < n → point s delta p i ≠ point s delta p j := by
    intro i j hij hj hsame
    have hagain : point s delta p (i + (n - j)) = point s delta p n := by
      rw [← point_add, hsame, point_add]
      congr 1
      omega
    rw [← hagain] at hend
    exact hend (hblank _ (by omega))
  obtain ⟨positions, hp, hclosed, hcard⟩ := s.bounds.exists_closed p delta
  have hmem (i : Nat) : point s delta p i ∈ positions := by
    induction i with
    | zero => exact hp
    | succ i ih =>
        rw [point, Function.iterate_succ_apply']
        exact hclosed _ ih
  have hfew : n ≤ positions.card := by
    rw [← Finset.card_range n]
    refine Finset.card_le_card_of_injOn (point s delta p) (fun i _ => hmem i) ?_
    intro i hi j hj hsame
    rcases Nat.lt_trichotomy i j with hlt | heq | hgt
    · exact absurd hsame (hapart i j hlt (Finset.mem_range.mp hj))
    · exact heq
    · exact absurd hsame.symm (hapart j i hgt (Finset.mem_range.mp hi))
  refine searchText_walk n 0 ?_ hblank (fun _ _ => Std.TreeSet.contains_emptyc) hapart hend
  rw [Bounds.courseLimit]
  omega

end Course

/-! ## Steps -/

namespace World

variable {w : World} {ip : Pointer} {s : Space}

/-- A step in string mode pushes the cell or ends the mode, and moves on. -/
theorem step_of_string (hmode : ip.stringMode = true) (hspace : w.space = s) :
    (w.step ip).2.fault = none ∧ (w.step ip).2.world.space = s ∧
    ∃ m : Memory, m.space = s ∧
      (w.step ip).2.pointer =
        ((if s.read ip.position = Cell.quote then ip.withStringMode false
          else ip.push (s.read ip.position)).advance m (s.read ip.position = Cell.blank)).1 := by
  subst hspace
  have hread : (w.memory.get ip.position).1 = w.space.read ip.position := rfl
  simp only [step, hmode, if_true, hread]
  refine ⟨trivial, ?_, _, ?_, rfl⟩
  · exact (Pointer.advance_moved _ _ _).space
  · rfl

theorem step_of_cell (hmode : ip.stringMode = true) (hspace : w.space = s)
    (hquote : s.read ip.position ≠ Cell.quote) (hblank : s.read ip.position ≠ Cell.blank) :
    (w.step ip).2.pointer =
      (ip.push (s.read ip.position)).moveTo (s.bounds.next ip.position ip.delta) := by
  obtain ⟨-, -, m, hm, hpointer⟩ := step_of_string hmode hspace
  have hpushed : ((ip.push (s.read ip.position)).step s).stringMode = true := hmode
  rw [hpointer, if_neg hquote, Pointer.advance, hm]
  simp only [hpushed, hblank, decide_false]
  rfl

theorem step_of_blank (hmode : ip.stringMode = true) (hspace : w.space = s)
    (hblank : s.read ip.position = Cell.blank) :
    (w.step ip).2.pointer =
      (ip.push Cell.blank).moveTo
        (Course.skipBlanks s ip.delta (s.bounds.next ip.position ip.delta)).1 := by
  obtain ⟨-, -, m, hm, hpointer⟩ := step_of_string hmode hspace
  have hpushed : ((ip.push Cell.blank).step s).stringMode = true := hmode
  have hquote : Cell.blank ≠ Cell.quote := by decide
  rw [hpointer, hblank, if_neg hquote, Pointer.advance, hm]
  simp only [hpushed, decide_true]
  rw [Pointer.skipBlanks, hm]
  rfl

theorem step_of_closing_quote (hmode : ip.stringMode = true) (hspace : w.space = s)
    (hquote : s.read ip.position = Cell.quote) :
    (w.step ip).2.pointer =
      (ip.withStringMode false).moveTo
        (Course.findCommand s ip.delta (s.bounds.next ip.position ip.delta)).1 := by
  obtain ⟨-, -, m, hm, hpointer⟩ := step_of_string hmode hspace
  rw [hpointer, if_pos hquote, Pointer.advance_of_commands m rfl, hm]
  rfl

/-- Executing a quote begins a string, and the pointer goes one cell on. -/
theorem step_of_opening_quote (hmode : ip.stringMode = false) (halive : ip.alive = true)
    (hspace : w.space = s) (hquote : s.read ip.position = Cell.quote) :
    (w.step ip).2.fault = none ∧ (w.step ip).2.world.space = s ∧
      (w.step ip).2.pointer =
        (ip.withStringMode true).moveTo (s.bounds.next ip.position ip.delta) := by
  subst hspace
  have hread : (w.memory.get ip.position).1 = Cell.quote := hquote
  have hcell (w : World) : Execute.cell Cell.quote ip w = ⟨ip.withStringMode true, w, none⟩ := rfl
  have halive' : (ip.withStringMode true).alive = true := halive
  simp only [step, hmode, hread, hcell, halive']
  exact ⟨rfl, rfl, rfl⟩

end World

/-! ## Strings -/

namespace Pointer

open Course

/-- The pointer after one step in each of a row of worlds. -/
def through (ip : Pointer) (worlds : List World) : Pointer :=
  worlds.foldl (fun ip w => (w.step ip).2.pointer) ip

theorem through_cons (ip : Pointer) (w : World) (worlds : List World) :
    ip.through (w :: worlds) = (w.step ip).2.pointer.through worlds :=
  rfl

theorem through_append (ip : Pointer) (early late : List World) :
    ip.through (early ++ late) = (ip.through early).through late :=
  List.foldl_append

/-- A pointer inside a string, with `n` cells before the closing quote. -/
structure InString (s : Space) (ip : Pointer) (n : Nat) : Prop where
  mode : ip.stringMode = true
  unquoted : ∀ i < n, s.read (point s ip.delta ip.position i) ≠ Cell.quote
  quote : s.read (point s ip.delta ip.position n) = Cell.quote

/-- What the next `n` cells leave on the stack. -/
def ahead (s : Space) (ip : Pointer) (n : Nat) : List Int :=
  Cell.collapsed (cells s ip.delta ip.position n)

/-- The pointer `n` cells on, with those cells pushed. -/
def finished (s : Space) (ip : Pointer) (n : Nat) : Pointer :=
  (ip.withPile (ip.pile.pushAll (ahead s ip n).reverse)).moveTo (point s ip.delta ip.position n)

/-- A step that pushes the first of the cells ahead does so on the way to the last of them. -/
theorem finished_of_step {s : Space} {ip : Pointer} {v : Int} {i n : Nat}
    (hahead : ahead s ip (i + n) =
      v :: ahead s ((ip.push v).moveTo (point s ip.delta ip.position i)) n) :
    finished s ((ip.push v).moveTo (point s ip.delta ip.position i)) n = finished s ip (i + n) := by
  have hplace : point s ip.delta (point s ip.delta ip.position i) n =
      point s ip.delta ip.position (i + n) := point_add i n
  rw [finished, finished, hahead, ← hplace]
  simp [StackStack.pushAll, Stack.pushAll, push, StackStack.push, Stack.push, moveTo, withPile]

/-- A step pushes one cell and passes over it, or over the whole run if it is a blank. -/
theorem InString.step_eq {s : Space} {ip : Pointer} {w : World} {n : Nat}
    (h : InString s ip (n + 1)) (hspace : w.space = s) :
    ∃ v i left, i + left = n + 1 ∧ left ≤ n ∧
      (w.step ip).2.pointer = (ip.push v).moveTo (point s ip.delta ip.position i) ∧
      ahead s ip (i + left) =
        v :: ahead s ((ip.push v).moveTo (point s ip.delta ip.position i)) left := by
  by_cases hblank : s.read ip.position = Cell.blank
  · have hends : ∃ i, s.read (point s ip.delta ip.position (i + 1)) ≠ Cell.blank :=
      ⟨n, by rw [h.quote]; decide⟩
    have hle : Nat.find hends ≤ n := Nat.find_min' hends (by rw [h.quote]; decide)
    have hrun : ∀ i < Nat.find hends,
        s.read (point s ip.delta (s.bounds.next ip.position ip.delta) i) = Cell.blank :=
      fun i hi => not_not.mp (Nat.find_min hends hi)
    have hend := Nat.find_spec hends
    generalize Nat.find hends = blanks at hle hrun hend
    refine ⟨Cell.blank, blanks + 1, n - blanks, by omega, Nat.sub_le n blanks, ?_, ?_⟩
    · rw [World.step_of_blank h.mode hspace hblank, skipBlanks_first hrun hend, point_next]
    · rw [Nat.add_right_comm, ahead, cells_succ, hblank, cells_of_blanks hrun, point_next,
        Cell.collapsed_blanks blanks (head?_cells hend)]
      rfl
  · refine ⟨s.read ip.position, 1, n, Nat.add_comm 1 n, Nat.le_refl n, ?_, ?_⟩
    · exact World.step_of_cell h.mode hspace (h.unquoted 0 (Nat.succ_pos n)) hblank
    · rw [Nat.add_comm, ahead, cells_succ, Cell.collapsed_cons_of_ne hblank]
      rfl

/-- After a step less is left of the string, and the end of it is the same. -/
theorem InString.step {s : Space} {ip : Pointer} {w : World} {n : Nat}
    (h : InString s ip (n + 1)) (hspace : w.space = s) :
    ∃ left ≤ n, InString s (w.step ip).2.pointer left ∧
      (ahead s ip (n + 1)).length = (ahead s (w.step ip).2.pointer left).length + 1 ∧
      finished s (w.step ip).2.pointer left = finished s ip (n + 1) := by
  obtain ⟨v, i, left, hsum, hleft, hpointer, hahead⟩ := h.step_eq hspace
  have hplace (j : Nat) : point s ip.delta (point s ip.delta ip.position i) j =
      point s ip.delta ip.position (i + j) := point_add i j
  rw [hpointer, ← hsum]
  refine ⟨left, hleft, ⟨h.mode, fun j hj => ?_, ?_⟩, congrArg List.length hahead,
    finished_of_step hahead⟩
  · exact hplace j ▸ h.unquoted (i + j) (by omega)
  · exact hplace left ▸ hsum ▸ h.quote

/-- A pointer in string mode pushes the cells up to the closing quote, and then stands on it. -/
theorem InString.through {s : Space} (n : Nat) :
    ∀ {ip : Pointer} {worlds : List World}, InString s ip n → (∀ w ∈ worlds, w.space = s) →
      worlds.length ≤ (ahead s ip n).length →
      (ip.through worlds).stringMode = true ∧
      (worlds.length = (ahead s ip n).length → ip.through worlds = finished s ip n) := by
  induction n using Nat.strong_induction_on with
  | _ n ih =>
      intro ip worlds h hworlds hlength
      cases worlds with
      | nil =>
          refine ⟨h.mode, fun hnone => ?_⟩
          have hcells : cells s ip.delta ip.position n = [] :=
            (List.destutter_eq_nil _).mp (List.length_eq_zero_iff.mp hnone.symm)
          obtain rfl : n = 0 := by simpa [cells] using hcells
          rfl
      | cons w worlds =>
          cases n with
          | zero => exact absurd hlength (Nat.not_succ_le_zero _)
          | succ n =>
              obtain ⟨left, hleft, hinside, hpushed, hfinished⟩ :=
                h.step (hworlds w List.mem_cons_self)
              rw [hpushed] at hlength ⊢
              have hrest := ih left (Nat.lt_succ_of_le hleft) hinside
                (fun w' hw' => hworlds w' (List.mem_cons_of_mem w hw'))
                (Nat.le_of_succ_le_succ hlength)
              rw [through_cons]
              exact ⟨hrest.1, fun hall => by rw [hrest.2 (Nat.succ.inj hall), hfinished]⟩

/-- How a pointer on a quote spells out a text, one step in each of a row of worlds with the program
`s`.  Other pointers may do in these worlds what they like, as long as they leave the program. -/
structure Spells (s : Space) (ip : Pointer) (closing : Vec) (text : List Int) : Prop where
  /-- None of the steps is a fault, and none changes the program. -/
  calm : ∀ {worlds : List World} {w : World}, (∀ w' ∈ worlds, w'.space = s) → w.space = s →
    worlds.length < text.length + 2 →
      (w.step (ip.through worlds)).2.fault = none ∧
      (w.step (ip.through worlds)).2.world.space = s
  /-- From the first step to the last one the pointer is in string mode. -/
  mode : ∀ {worlds : List World}, (∀ w ∈ worlds, w.space = s) → 0 < worlds.length →
    worlds.length < text.length + 2 → (ip.through worlds).stringMode = true
  /-- The last step is the one on the closing quote. -/
  last : ∀ {worlds : List World}, (∀ w ∈ worlds, w.space = s) →
    worlds.length = text.length + 1 → (ip.through worlds).position = closing
  /-- After that the text is on the stack, string mode is off, and the pointer has gone on to the
  next command. -/
  after : ∀ {worlds : List World}, (∀ w ∈ worlds, w.space = s) →
    worlds.length = text.length + 2 →
      ip.through worlds =
        ((ip.withPile (ip.pile.pushAll text.reverse)).withStringMode false).moveTo
          (Course.findCommand s ip.delta (s.bounds.next closing ip.delta)).1

/-- The pointer after it began a string. -/
def opened (s : Space) (ip : Pointer) : Pointer :=
  (ip.withStringMode true).moveTo (s.bounds.next ip.position ip.delta)

section

variable {s : Space} {ip : Pointer} {n : Nat} (hmode : ip.stringMode = false)
  (halive : ip.alive = true) (hquote : s.read ip.position = Cell.quote)
  (h : InString s (opened s ip) n)

include hmode halive hquote h

/-- The first step leads into the string, and the others follow it. -/
theorem InString.through_opening {worlds : List World} (hworlds : ∀ w ∈ worlds, w.space = s)
    (hpos : 0 < worlds.length)
    (hlength : worlds.length ≤ (ahead s (opened s ip) n).length + 1) :
    (ip.through worlds).stringMode = true ∧
    (worlds.length = (ahead s (opened s ip) n).length + 1 →
      ip.through worlds = finished s (opened s ip) n) := by
  cases worlds with
  | nil => exact absurd hpos (Nat.lt_irrefl 0)
  | cons w worlds =>
      have hopens := World.step_of_opening_quote hmode halive (hworlds w List.mem_cons_self) hquote
      have hrest := h.through n (fun w' hw' => hworlds w' (List.mem_cons_of_mem w hw'))
        (Nat.le_of_succ_le_succ hlength)
      rw [through_cons, hopens.2.2]
      exact ⟨hrest.1, fun hall => hrest.2 (Nat.succ.inj hall)⟩

theorem InString.spells :
    Spells s ip (point s ip.delta ip.position (n + 1))
      (Cell.collapsed (cells s ip.delta (s.bounds.next ip.position ip.delta) n)) := by
  have hthrough {worlds : List World} (hworlds : ∀ w ∈ worlds, w.space = s) :=
    through_opening hmode halive hquote h hworlds
  refine ⟨fun {worlds w} hworlds hw hlength => ?_, fun hworlds hpos hlength => ?_,
    fun hworlds hlength => ?_, fun {worlds} hworlds hlength => ?_⟩
  · cases worlds with
    | nil =>
        have hopens := World.step_of_opening_quote hmode halive hw hquote
        exact ⟨hopens.1, hopens.2.1⟩
    | cons w' worlds =>
        have hinside := hthrough hworlds (Nat.succ_pos _) (Nat.le_of_lt_succ hlength)
        have hcalm := World.step_of_string hinside.1 hw
        exact ⟨hcalm.1, hcalm.2.1⟩
  · exact (hthrough hworlds hpos (Nat.le_of_lt_succ hlength)).1
  · rw [(hthrough hworlds (by omega) (Nat.le_of_eq hlength)).2 hlength]
    rfl
  · obtain ⟨early, w, rfl⟩ : ∃ early w, worlds = early ++ [w] :=
      (List.eq_nil_or_concat' worlds).resolve_left (by rintro rfl; cases hlength)
    rw [List.length_append, List.length_singleton] at hlength
    have hearly := Nat.succ.inj hlength
    have hclosing := (hthrough (fun w' hw' => hworlds w' (List.mem_append_left _ hw'))
      (by omega) (Nat.le_of_eq hearly)).2 hearly
    rw [through_append, hclosing]
    exact World.step_of_closing_quote h.mode (hworlds w (by simp)) h.quote

end

/-- A pointer that executes a quote spells out the cells up to the next quote of its walk, which may
be the same one, with every run of blanks as one. -/
theorem string_pushes_collapsed (s : Space) (ip : Pointer) (hp : ip.position ∈ s.bounds)
    (hquote : s.read ip.position = Cell.quote) (hmode : ip.stringMode = false)
    (halive : ip.alive = true) :
    ∃ n, IsLeast {k | 1 ≤ k ∧ s.read (point s ip.delta ip.position k) = Cell.quote} n ∧
      Spells s ip (point s ip.delta ip.position n)
        (Cell.collapsed
          ((List.range' 1 (n - 1)).map fun k => s.read (point s ip.delta ip.position k))) := by
  have hreturns : ∃ k, 1 ≤ k ∧ s.read (point s ip.delta ip.position k) = Cell.quote := by
    obtain ⟨k, hpos, -, hback⟩ := Bounds.exists_return_of_mem hp ip.delta
    exact ⟨k, hpos, by rw [point, hback, hquote]⟩
  have hleast : IsLeast {k | 1 ≤ k ∧ s.read (point s ip.delta ip.position k) = Cell.quote}
      (Nat.find hreturns) := ⟨Nat.find_spec hreturns, fun k hk => Nat.find_min' hreturns hk⟩
  refine ⟨Nat.find hreturns, hleast, ?_⟩
  generalize Nat.find hreturns = n at hleast
  obtain ⟨n, rfl⟩ : ∃ m, n = m + 1 := Nat.exists_eq_succ_of_ne_zero (by have := hleast.1.1; omega)
  have hcells : (List.range' 1 (n + 1 - 1)).map (fun k => s.read (point s ip.delta ip.position k)) =
      cells s ip.delta (s.bounds.next ip.position ip.delta) n := by
    rw [Nat.add_sub_cancel, List.range'_eq_map_range, List.map_map, cells]
    refine List.map_congr_left fun i _ => ?_
    rw [Function.comp_apply, Nat.add_comm, point_next]
  rw [hcells]
  refine InString.spells hmode halive hquote ⟨rfl, fun i hi hclosed => ?_, hleast.1.2⟩
  have hle : n + 1 ≤ i + 1 := hleast.2 ⟨Nat.succ_pos i, hclosed⟩
  omega

/-- The world of a row with a single quote. -/
def singleQuote : World :=
  (Setup.load { clock := ⟨2000, 1, 1, 0, 0, 0⟩ } (.text ";  \x22  a b")
    { input := .ofText [] }).world

/-- A pointer on that quote, with two stacks. -/
def speller : Pointer := { id := 0, position := ⟨3, 0⟩, pile := ⟨⟨[7]⟩, [⟨[8]⟩]⟩ }

/-- The string goes round the row and ends on the quote that began it. -/
theorem string_pushes_collapsed_round :
    speller.position ∈ singleQuote.space.bounds ∧
    (speller.through (List.replicate 7 singleQuote)).position = speller.position ∧
    (speller.through (List.replicate 7 singleQuote)).stringMode = true ∧
    (speller.through (List.replicate 8 singleQuote)).stringMode = false ∧
    (speller.through (List.replicate 8 singleQuote)).pile =
      ⟨⟨[32, 59, 98, 32, 97, 32, 7]⟩, [⟨[8]⟩]⟩ := by
  have hp : speller.position ∈ singleQuote.space.bounds := by decide +kernel
  obtain ⟨n, hn, hspells⟩ := string_pushes_collapsed singleQuote.space speller hp
    (by decide +kernel) rfl rfl
  obtain rfl : n = 9 := by
    refine hn.unique ⟨by decide +kernel, fun k hk => ?_⟩
    have hnone : ∀ k < 9, ¬ (1 ≤ k ∧
        singleQuote.space.read (point singleQuote.space speller.delta speller.position k) =
          Cell.quote) := by decide +kernel
    exact Nat.le_of_not_lt fun hlt => hnone k hlt hk
  have htext : Cell.collapsed ((List.range' 1 (9 - 1)).map fun k =>
      singleQuote.space.read (point singleQuote.space speller.delta speller.position k)) =
      [32, 97, 32, 98, 59, 32] := by decide +kernel
  have hclosing : point singleQuote.space speller.delta speller.position 9 = speller.position := by
    decide +kernel
  rw [htext, hclosing] at hspells
  have hworlds (k : Nat) : ∀ w ∈ List.replicate k singleQuote, w.space = singleQuote.space :=
    fun w hw => by rw [List.eq_of_mem_replicate hw]
  have hopen := hspells.mode (hworlds 7) (by decide) (by decide)
  refine ⟨hp, hspells.last (hworlds 7) rfl, hopen, ?_, ?_⟩
  · rw [hspells.after (hworlds 8) rfl]
    rfl
  · rw [hspells.after (hworlds 8) rfl]
    rfl

end Pointer

end Befunge
