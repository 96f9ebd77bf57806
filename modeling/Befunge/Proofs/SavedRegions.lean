import Mathlib.Data.List.DropRight
import Befunge.Execute
import Befunge.Proofs.Rows

/-!
# A region that was saved can be loaded again

A region of program space is written to a file row by row, each row ended by a line feed, and
with the low flag set without the blanks and empty rows that end it.  Reading such a file as text
gives the rows back (`Lines.ofText_terminated`), and what trimming left out are blanks, which
loading does not write (`Lines.charAt_map_trimEnd`).  So a blank region into which the file is
loaded becomes a copy of the one that was saved (`Execute.region_survives_saving`).

That a file holds what was written to it last is a fact about trees (`FileTree.read_write`).
-/

namespace Befunge

/-! ## Files hold what was written -/

namespace FileTree

variable {t : FileTree} {place : List String} {node : FileNode}

theorem lookup_cons_ite (q r : List String) (entry : FileNode)
    (entries : List (List String × FileNode)) :
    ((r, entry) :: entries).lookup q = if q = r then some entry else entries.lookup q := by
  by_cases h : q = r
  · simp [h]
  · have hbeq : (q == r) = false := beq_false_of_ne h
    rw [List.lookup_cons, hbeq, if_neg h]

theorem lookup_insert (entries : List (List String × FileNode)) (q : List String) :
    (insert.go place node entries).lookup q =
      if q = place then some node else entries.lookup q := by
  induction entries with
  | nil => rw [insert.go, lookup_cons_ite]
  | cons entry entries ih =>
      obtain ⟨r, old⟩ := entry
      rw [insert.go]
      by_cases hr : r = place
      · rw [if_pos hr, lookup_cons_ite, lookup_cons_ite, hr]
        split <;> rfl
      · rw [if_neg hr, lookup_cons_ite, lookup_cons_ite, ih]
        by_cases hq : q = r
        · rw [if_pos hq, if_pos hq, if_neg (hq ▸ hr)]
        · rw [if_neg hq, if_neg hq]

/-- Something is put at a place that is no directory. -/
theorem node?_insert (hplace : t.node? place ≠ some .directory) (q : List String) :
    (t.insert place node).node? q = if q = place then some node else t.node? q := by
  have hanchor : ¬ isAnchor place = true := fun h => hplace (if_pos h)
  simp only [node?, insert, lookup_insert]
  by_cases hq : q = place
  · rw [if_pos hq, hq, if_neg hanchor, if_pos rfl]
  · rw [if_neg hq, if_neg hq]

/-- The way to a place leads through directories only, so it does not change with what is put
there. -/
theorem follow_insert (hplace : t.node? place ≠ some .directory) {names : List String} :
    ∀ {start : List String}, t.follow start names = .ok place →
      (t.insert place node).follow start names = .ok place := by
  induction names with
  | nil =>
      intro start h
      exact h
  | cons name names ih =>
      intro start h
      rw [follow] at h ⊢
      cases hstart : t.node? start with
      | none => simp [hstart] at h
      | some entry =>
          cases entry with
          | file data => simp [hstart] at h
          | broken => simp [hstart] at h
          | directory =>
              have hne : start ≠ place := fun hsame => hplace (hsame ▸ hstart)
              simp only [hstart] at h
              simp only [node?_insert hplace, if_neg hne, hstart]
              split at h
              next => cases h
              next hshort =>
                rw [if_neg hshort]
                exact ih h

theorem openForWriting_eq_ok {name : String} {old : ByteArray}
    (h : t.openForWriting name = .ok (place, old)) :
    t.resolve (.ofText name) = .ok place ∧ t.node? place ≠ some .directory := by
  rw [openForWriting] at h
  cases hresolve : t.resolve (.ofText name) with
  | error e => simp [hresolve, bind, Except.bind] at h
  | ok q =>
      simp only [hresolve, bind, Except.bind] at h
      cases hnode : t.node? q with
      | none =>
          simp only [hnode, Except.ok.injEq, Prod.mk.injEq] at h
          simp [← h.1, hnode]
      | some entry =>
          cases entry with
          | directory => simp [hnode] at h
          | broken => simp [hnode] at h
          | file data =>
              simp only [hnode, Except.ok.injEq, Prod.mk.injEq] at h
              simp [← h.1, hnode]

/-- A file that was replaced holds what was written. -/
theorem read_write {name : String} {data : ByteArray} (h : (t.write name data 0).1 = .ok ()) :
    (t.write name data 0).2.read name = .ok data := by
  rw [write] at h ⊢
  cases hopen : t.openForWriting name with
  | error e => simp [hopen] at h
  | ok opened =>
      obtain ⟨place, old⟩ := opened
      obtain ⟨hresolve, hplace⟩ := openForWriting_eq_ok hopen
      simp only [if_true]
      have hthere : (t.insert place (.file data)).resolve (.ofText name) = .ok place := by
        rw [resolve] at hresolve ⊢
        split at hresolve
        next => cases hresolve
        next hnull =>
          split at hresolve
          next => cases hresolve
          next hshort =>
            rw [if_neg hnull, if_neg hshort]
            exact follow_insert hplace hresolve
      rw [read, hthere]
      simp only [bind, Except.bind, node?_insert hplace, if_true]

end FileTree

/-! ## Rows survive as lines -/

namespace Lines

theorem split_append_feed {row : List Char} (h : '\n' ∉ row) (rest : List Char) :
    split (row ++ '\n' :: rest) = row :: split rest := by
  induction row with
  | nil => rfl
  | cons c row ih =>
      have hc : c ≠ '\n' := fun hc => h (hc ▸ List.mem_cons_self)
      rw [List.cons_append, split, if_neg hc, ih fun hr => h (List.mem_cons_of_mem c hr)]

theorem split_terminated {rows : List (List Char)} (h : ∀ row ∈ rows, '\n' ∉ row) :
    split (terminated rows) = rows ++ [[]] := by
  induction rows with
  | nil => rfl
  | cons row rows ih =>
      obtain ⟨hrow, hrows⟩ := List.forall_mem_cons.mp h
      have hcons : terminated (row :: rows) = row ++ '\n' :: terminated rows := by
        simp [terminated]
      rw [hcons, split_append_feed hrow, ih hrows, List.cons_append]

/-- Rows without line breaks are the lines of the text in which each of them is ended. -/
theorem ofText_terminated {rows : List (List Char)} (hfeed : ∀ row ∈ rows, '\n' ∉ row)
    (hreturn : ∀ row ∈ rows, '\r' ∉ row) : ofText (terminated rows) = rows := by
  have hnone : '\r' ∉ terminated rows := by
    rw [terminated, List.mem_flatMap]
    rintro ⟨row, hrow, hmem⟩
    rcases List.mem_append.mp hmem with hmem | hmem
    · exact hreturn row hrow hmem
    · exact absurd (List.mem_singleton.mp hmem) (by decide)
  rw [ofText, unify_of_unbroken hnone, split_terminated hfeed, dropFinalEmpty,
    if_pos List.getLast?_concat, List.dropLast_concat]

theorem width_le {rows : List (List Char)} {n : Nat} (h : ∀ row ∈ rows, row.length ≤ n) :
    width rows ≤ n := by
  induction rows with
  | nil => exact Nat.zero_le n
  | cons row rows ih =>
      obtain ⟨hrow, hrows⟩ := List.forall_mem_cons.mp h
      exact Nat.max_le.mpr ⟨hrow, ih hrows⟩

/-! ## Trimming leaves out blanks only -/

/-- Dropping at the end what counts for nothing changes nothing that counts. -/
theorem bind_getElem?_rdropWhile {α β : Type} (p : α → Bool) (f : α → Option β)
    (hf : ∀ a, p a = true → f a = none) (l : List α) (i : Nat) :
    (l.rdropWhile p)[i]?.bind f = l[i]?.bind f := by
  conv_rhs => rw [← List.rdropWhile_append_rtakeWhile (p := p) (l := l)]
  rw [List.getElem?_append]
  split
  next => rfl
  next hi =>
    rw [List.getElem?_eq_none (by omega), Option.bind_none]
    cases hdropped : (l.rtakeWhile p)[i - (l.rdropWhile p).length]? with
    | none => rfl
    | some a => exact (hf a (List.mem_rtakeWhile_imp (List.mem_of_getElem? hdropped))).symm

/-- Rows without the blanks that end them are written as the whole rows are, where blanks are left
out. -/
theorem charAt_map_trimEnd (rows : List (List Char)) (p q : Vec) :
    (charAt (rows.map trimEnd) p q).bind Ink.clear.value =
      (charAt rows p q).bind Ink.clear.value := by
  rw [charAt, charAt]
  split
  next =>
    rw [List.getElem?_map]
    cases rows[(q.y - p.y).toNat]? with
    | none => rfl
    | some row => exact bind_getElem?_rdropWhile _ _ (by simp [Ink.clear]) row _
  next => rfl

theorem charAt_dropEmptyEnd (rows : List (List Char)) (p q : Vec) :
    charAt (dropEmptyEnd rows) p q = charAt rows p q := by
  rw [charAt, charAt, dropEmptyEnd, ← List.rdropWhile, bind_getElem?_rdropWhile _ _ (by simp)]

end Lines

/-! ## Regions as rows -/

/-- A cell is a Unicode scalar value that does not end a line. -/
def Cell.IsPlain (v : Int) : Prop :=
  (0 ≤ v ∧ v < 0xD800 ∨ 0xE000 ≤ v ∧ v < 0x110000) ∧ v ≠ 10 ∧ v ≠ 13

instance (v : Int) : Decidable (Cell.IsPlain v) :=
  inferInstanceAs (Decidable (_ ∧ _ ∧ _))

theorem Cell.IsPlain.exists_char {v : Int} (h : IsPlain v) :
    ∃ c : Char, v = ofChar c ∧ c ≠ '\n' ∧ c ≠ '\r' := by
  obtain ⟨hscalar, hfeed, hreturn⟩ := h
  obtain ⟨n, rfl⟩ := Int.eq_ofNat_of_zero_le (a := v) (by omega)
  have hvalid : n.isValidChar := by
    rw [Nat.isValidChar]
    omega
  have hchar : (n : Int) = ofChar (Char.ofNatAux n hvalid) := rfl
  refine ⟨Char.ofNatAux n hvalid, hchar, fun hc => hfeed ?_, fun hc => hreturn ?_⟩
  · rw [hchar, hc]
    rfl
  · rw [hchar, hc]
    rfl

/-- Every cell of a region is a character and none ends a line. -/
def Space.IsPlain (s : Space) (p : Vec) (width height : Nat) : Prop :=
  ∀ i < width, ∀ j < height, Cell.IsPlain (s.read ⟨p.x + i, p.y + j⟩)

instance (s : Space) (p : Vec) (width height : Nat) : Decidable (s.IsPlain p width height) :=
  inferInstanceAs (Decidable (∀ i < width, ∀ j < height, _))

namespace Space

variable {s : Space} {p q r : Vec} {width height : Nat}

theorem charAt_region {i j : Nat} (hi : i < width) (hj : j < height) :
    Lines.charAt (s.region p width height) q ⟨q.x + i, q.y + j⟩ =
      some (Cell.shown (s.read ⟨p.x + i, p.y + j⟩)) := by
  rw [Lines.charAt, if_pos ⟨by simp, by simp⟩]
  simp [region, row, hi, hj]

theorem charAt_region_eq_none (h : ∀ i < width, ∀ j < height, r ≠ ⟨q.x + i, q.y + j⟩) :
    Lines.charAt (s.region p width height) q r = none := by
  rw [Lines.charAt]
  split
  next hr =>
    by_cases hj : (r.y - q.y).toNat < height
    · have hi : ¬ (r.x - q.x).toNat < width := by
        intro hi
        refine h _ hi _ hj (Vec.ext ?_ ?_)
        · dsimp only
          omega
        · dsimp only
          omega
      simp [region, row, hi, hj]
    · simp [region, hj]
  next => rfl

theorem mem_region {row : List Char} {c : Char} (hrow : row ∈ s.region p width height)
    (hc : c ∈ row) :
    ∃ i < width, ∃ j < height, c = Cell.shown (s.read ⟨p.x + i, p.y + j⟩) := by
  obtain ⟨j, hj, rfl⟩ := List.mem_map.mp hrow
  obtain ⟨i, hi, rfl⟩ := List.mem_map.mp hc
  exact ⟨i, List.mem_range.mp hi, j, List.mem_range.mp hj, rfl⟩

theorem size_region (s : Space) (p : Vec) (width height : Nat) :
    (⟨Lines.width (s.region p width height), (s.region p width height).length⟩ : Vec) =
      if height = 0 then ⟨0, 0⟩ else ⟨width, height⟩ := by
  have hheight : (s.region p width height).length = height := by
    rw [region, List.length_map, List.length_range]
  by_cases hzero : height = 0
  · subst hzero
    rfl
  · have hlength : ∀ row ∈ s.region p width height, row.length = width := by
      intro row hrow
      obtain ⟨j, -, rfl⟩ := List.mem_map.mp hrow
      rw [Space.row, List.length_map, List.length_range]
    have hfirst : s.row ⟨p.x, p.y + (0 : Nat)⟩ width ∈ s.region p width height :=
      List.mem_map.mpr ⟨0, List.mem_range.mpr (Nat.pos_of_ne_zero hzero), rfl⟩
    have hwidth : Lines.width (s.region p width height) = width :=
      Nat.le_antisymm (Lines.width_le fun row hrow => (hlength row hrow).le)
        ((hlength _ hfirst).symm.le.trans (Lines.length_le_width hfirst))
    rw [if_neg hzero, hwidth, hheight]

end Space

/-! ## Saving and loading -/

namespace Execute

/-- What a stack says of a region that is to be saved. -/
structure SaveOrder where
  name : Option (List Char)
  flags : Int
  origin : Vec
  size : Vec
  /-- The pointer without these cells. -/
  left : Pointer

/-- What a stack says of a file that is to be loaded. -/
structure LoadOrder where
  name : Option (List Char)
  flags : Int
  origin : Vec
  /-- The pointer without these cells. -/
  left : Pointer

/-- Takes the order to save a region from the stack. -/
def saveOrder (ip : Pointer) : SaveOrder :=
  let (name, ip) := ip.popText
  let (flags, ip) := ip.pop
  let (p, ip) := ip.popVec
  let (size, ip) := ip.popVec
  ⟨name, flags, ip.offset p, size, ip⟩

/-- Takes the order to load a file from the stack. -/
def loadOrder (ip : Pointer) : LoadOrder :=
  let (name, ip) := ip.popText
  let (flags, ip) := ip.pop
  let (p, ip) := ip.popVec
  ⟨name, flags, ip.offset p, ip⟩

/-- The rows that are written for a region. -/
def savedRows (s : Space) (p : Vec) (width height : Nat) (trim : Bool) : List (List Char) :=
  if trim then Lines.dropEmptyEnd ((s.region p width height).map Lines.trimEnd)
  else s.region p width height

variable {w v : World} {ip left : Pointer} {name : List Char} {flags : Int} {p q r : Vec}
  {width height : Nat}

theorem push_ne (ip : Pointer) (v : Int) : ip.push v ≠ ip := by
  intro h
  have hcells : v :: ip.pile.top.cells = ip.pile.top.cells := congrArg (·.pile.top.cells) h
  exact absurd (congrArg List.length hcells) (by simp)

theorem read_saveFile (w : World) (file : String) (data : ByteArray)
    (h : (w.saveFile file data 0).1 = .ok ()) :
    (w.saveFile file data 0).2.files.read file = .ok data := by
  rw [World.saveFile] at h ⊢
  cases hfiles : w.config.files with
  | deny => simp [hfiles] at h
  | real =>
      simp only [hfiles] at h
      refine FileTree.read_write ?_
      cases hwrite : (w.files.write file data 0).1 with
      | error e => simp [hwrite, Except.mapError] at h
      | ok => rfl

/-- A region was saved if no failure is left on the stack. -/
theorem read_outputFile (h : saveOrder ip = ⟨some name, flags, p, ⟨width, height⟩, left⟩)
    (hsaved : (outputFile ip w).pointer = left) :
    (outputFile ip w).world.files.read (String.ofList name) =
      .ok (regionBytes w.space p width height (lowBit flags)) := by
  simp only [saveOrder, SaveOrder.mk.injEq] at h
  obtain ⟨hname, hflags, horigin, hsize, hleft⟩ := h
  rw [hleft] at horigin
  have hregion : ¬ ((width : Int) < 0 ∨ (height : Int) < 0) := by omega
  simp only [outputFile, hname, hflags, horigin, hsize, hleft, if_neg hregion,
    Int.toNat_natCast] at hsaved ⊢
  have hread := read_saveFile w (String.ofList name)
    (regionBytes w.space p width height (lowBit flags))
  generalize w.saveFile (String.ofList name)
    (regionBytes w.space p width height (lowBit flags)) 0 = result at hsaved hread
  obtain ⟨result, w'⟩ := result
  cases result with
  | error e => exact absurd hsaved (push_ne left failureStatus)
  | ok => exact hread rfl

theorem inputFile_eq {data : ByteArray} (h : loadOrder ip = ⟨some name, flags, q, left⟩)
    (htext : lowBit flags = false) (haccess : v.config.files = .real)
    (hfile : v.files.read (String.ofList name) = .ok data) :
    (inputFile ip v).pointer =
      (left.pushVec (v.memory.place (Utf8.decode data) q false).1).pushVec q ∧
    (inputFile ip v).world.memory = (v.memory.place (Utf8.decode data) q false).2 := by
  simp only [loadOrder, LoadOrder.mk.injEq] at h
  obtain ⟨hname, hflags, horigin, hleft⟩ := h
  rw [hleft] at horigin
  have hload : v.loadFile (String.ofList name) =
      (.ok data, v.note (.reading (String.ofList name))) := by
    rw [World.loadFile, haccess, hfile]
    rfl
  simp only [inputFile, hname, hflags, horigin, hleft, htext, hload]
  exact ⟨rfl, rfl⟩

theorem savedRows_unbroken {s : Space} (h : s.IsPlain p width height) {trim : Bool}
    {row : List Char} (hrow : row ∈ savedRows s p width height trim) {c : Char} (hc : c ∈ row) :
    c ≠ '\n' ∧ c ≠ '\r' := by
  obtain ⟨whole, hwhole, hmem⟩ : ∃ whole ∈ s.region p width height, c ∈ whole := by
    rw [savedRows] at hrow
    split at hrow
    next =>
      obtain ⟨whole, hwhole, rfl⟩ := List.mem_map.mp ((List.rdropWhile_prefix _ _).subset hrow)
      exact ⟨whole, hwhole, (List.rdropWhile_prefix _ _).subset hc⟩
    next => exact ⟨row, hrow, hc⟩
  obtain ⟨i, hi, j, hj, rfl⟩ := Space.mem_region hwhole hmem
  obtain ⟨d, hd, hbreak⟩ := (h i hi j hj).exists_char
  rwa [hd, Cell.shown_ofChar]

/-- The text of the bytes that are written for a region has the rows that were written. -/
theorem ofText_regionBytes {s : Space} (h : s.IsPlain p width height) (trim : Bool) :
    Lines.ofText (Utf8.decode (regionBytes s p width height trim)) =
      savedRows s p width height trim := by
  have hbytes : regionBytes s p width height trim =
      Utf8.encode (Lines.terminated (savedRows s p width height trim)) := rfl
  rw [hbytes, Utf8.decode_encode]
  exact Lines.ofText_terminated (fun row hrow hfeed => (savedRows_unbroken h hrow hfeed).1 rfl)
    (fun row hrow hreturn => (savedRows_unbroken h hrow hreturn).2 rfl)

theorem place_regionBytes {s : Space} (h : s.IsPlain p width height) (trim : Bool)
    (m : Memory) (q : Vec) :
    m.place (Utf8.decode (regionBytes s p width height trim)) q false =
      (⟨Lines.width (savedRows s p width height trim), (savedRows s p width height trim).length⟩,
        m.placeRows q (savedRows s p width height trim)) := by
  have hrows : Memory.placedRows false (Utf8.decode (regionBytes s p width height trim)) =
      savedRows s p width height trim := ofText_regionBytes h trim
  rw [Memory.place, hrows]

/-- Loading a saved region writes the characters of the region that are not blank, trimmed or
not. -/
theorem read_placeRows_savedRows (s : Space) (trim : Bool) (m : Memory) (q r : Vec) :
    (m.placeRows q (savedRows s p width height trim)).space.read r =
      ((Lines.charAt (s.region p width height) q r).bind Ink.clear.value).getD
        (m.space.read r) := by
  rw [(m.placeRows_wrote (savedRows s p width height trim) q).read, savedRows]
  split
  next => rw [Lines.charAt_dropEmptyEnd, Lines.charAt_map_trimEnd]
  next => rfl

/-- The file of a region of characters, none of which breaks a row, is loaded as text into a region
that is blank.  That region then reads as the one that was saved, and no other cell is changed.
If the rows were not trimmed, the size that is pushed is that of the region, and no size at all
for a region without rows. -/
theorem region_survives_saving {w v : World} {ip jp left left' : Pointer} {name name' : List Char}
    {flags flags' : Int} {p q : Vec} {width height : Nat}
    (hsave : saveOrder ip = ⟨some name, flags, p, ⟨width, height⟩, left⟩)
    (hsaved : (outputFile ip w).pointer = left)
    (hload : loadOrder jp = ⟨some name', flags', q, left'⟩) (htext : lowBit flags' = false)
    (haccess : v.config.files = .real)
    (hfile : v.files.read (String.ofList name') =
      (outputFile ip w).world.files.read (String.ofList name))
    (hchars : w.space.IsPlain p width height)
    (hblank : ∀ i < width, ∀ j < height, v.space.read ⟨q.x + i, q.y + j⟩ = Cell.blank) :
    (∀ i < width, ∀ j < height,
      (inputFile jp v).world.space.read ⟨q.x + i, q.y + j⟩ =
        w.space.read ⟨p.x + i, p.y + j⟩) ∧
    (∀ r, (∀ i < width, ∀ j < height, r ≠ ⟨q.x + i, q.y + j⟩) →
      (inputFile jp v).world.space.read r = v.space.read r) ∧
    ∃ size, (inputFile jp v).pointer = (left'.pushVec size).pushVec q ∧
      (lowBit flags = false → size = if height = 0 then ⟨0, 0⟩ else ⟨width, height⟩) := by
  rw [read_outputFile hsave hsaved] at hfile
  obtain ⟨hpointer, hmemory⟩ := inputFile_eq hload htext haccess hfile
  rw [place_regionBytes hchars] at hpointer hmemory
  have hread (r : Vec) : (inputFile jp v).world.space.read r =
      ((Lines.charAt (w.space.region p width height) q r).bind Ink.clear.value).getD
        (v.space.read r) := by
    rw [World.space, hmemory, read_placeRows_savedRows]
    rfl
  refine ⟨fun i hi j hj => ?_, fun r hr => ?_, _, hpointer, fun hwhole => ?_⟩
  · obtain ⟨c, hc, -⟩ := (hchars i hi j hj).exists_char
    rw [hread, Space.charAt_region hi hj, hc, Cell.shown_ofChar, Option.bind_some,
      hblank i hi j hj]
    by_cases hspace : c = ' '
    · subst hspace
      rfl
    · simp [Ink.clear, hspace]
  · rw [hread, Space.charAt_region_eq_none hr]
    rfl
  · rw [hwhole]
    exact Space.size_region w.space p width height

/-- A world with a program of two rows, the second of them shorter. -/
def desk : World where
  memory := { space := Space.ofText "aé;\nb".toList }
  console := { input := .ofText [] }
  clock := ⟨2000, 1, 1, 0, 0, 0⟩

/-- A pointer that is to save the program and a blank row under it. -/
def saver : Pointer :=
  { id := 0, pile := ⟨⟨Stack.textCells (CodePoint.ofChars ['f']) ++ [0, 0, 0, 3, 3]⟩, []⟩ }

/-- A pointer that is to load it further down. -/
def loader : Pointer :=
  { id := 0, pile := ⟨⟨Stack.textCells (CodePoint.ofChars ['.', '/', 'f']) ++ [0, 7, -2]⟩, []⟩ }

theorem region_survives_saving_accents :
    (outputFile saver desk).pointer = { id := 0 } ∧
    (∀ i < (3 : Nat), ∀ j < (3 : Nat),
      (inputFile loader (outputFile saver desk).world).world.space.read ⟨-2 + i, 7 + j⟩ =
        desk.space.read ⟨0 + i, 0 + j⟩) ∧
    (inputFile loader (outputFile saver desk).world).pointer =
      (Pointer.pushVec { id := 0 } ⟨3, 3⟩).pushVec ⟨-2, 7⟩ := by
  have hsave : saveOrder saver = ⟨some ['f'], 0, ⟨0, 0⟩, ⟨(3 : Nat), (3 : Nat)⟩, { id := 0 }⟩ := rfl
  have hload : loadOrder loader = ⟨some ['.', '/', 'f'], 0, ⟨-2, 7⟩, { id := 0 }⟩ := rfl
  have hsaved : (outputFile saver desk).pointer = { id := 0 } := by with_unfolding_all rfl
  obtain ⟨hread, -, size, hpushed, hsize⟩ :=
    region_survives_saving hsave hsaved hload (v := (outputFile saver desk).world) (by decide)
      (by decide +kernel) rfl (by decide +kernel) (by decide +kernel)
  rw [hsize (by decide)] at hpushed
  exact ⟨hsaved, hread, hpushed⟩

end Execute

end Befunge
