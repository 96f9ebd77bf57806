import Befunge.Proofs.Acts
import Befunge.Proofs.Writes

/-!
# Which cells can be other than words

Arithmetic wraps its results, so the cells of stacks and of the program space are words as
long as nothing else is pushed.  Three commands push numbers as they are: the report on the
machine, the beginning of a block, which saves the storage offset, and the reading of a
file, which tells where the file was placed.  `Act.unwrapped` lists these numbers, and
`Machine.cells_stay_words` shows that no others matter: as long as all of them are words, so
is every cell of every stack and of the space.

They need not be words.  A program that reports the size of a space that is too wide stands
at the end.
-/

namespace Befunge

/-! ## Cells -/

namespace Cell

theorem isWord_zero : IsWord 0 := by decide

theorem isWord_wrap (v : Int) : IsWord (wrap v) := by
  have hle : -(((0x100000000 : Nat) : Int) / 2) ≤ v.bmod 0x100000000 := Int.le_bmod (by decide)
  have hlt : v.bmod 0x100000000 < (((0x100000000 : Nat) : Int) + 1) / 2 := Int.bmod_lt (by decide)
  rw [IsWord, wrap]
  omega

theorem isWord_ofChar (c : Char) : IsWord (ofChar c) := by
  have hlt : c.toNat < 0x110000 := by
    have hvalid := c.valid
    simp only [UInt32.isValidChar, Nat.isValidChar] at hvalid
    rw [← Char.toNat_val]
    omega
  rw [IsWord, ofChar]
  simp only [Int.ofNat_eq_natCast]
  omega

theorem isWord_ofBool (b : Bool) : IsWord (ofBool b) := by
  cases b <;> decide

theorem isWord_divide (a b : Int) : IsWord (divide a b) := by
  rw [divide]
  split
  · exact isWord_zero
  · exact isWord_wrap _

theorem isWord_remainder (a b : Int) : IsWord (remainder a b) := by
  rw [remainder]
  split
  · exact isWord_zero
  · exact isWord_wrap _

end Cell

theorem Arithmetic.isWord_apply (op : Arithmetic) (a b : Int) : Cell.IsWord (op.apply a b) := by
  cases op with
  | add | subtract | multiply => exact Cell.isWord_wrap _
  | divide => exact Cell.isWord_divide a b
  | remainder => exact Cell.isWord_remainder a b
  | greater => exact Cell.isWord_ofBool _

/-- Every number that is a command is a word. -/
theorem Command.isWord_literal {v n : Int} (h : ofCell? v = some (.literal n)) : Cell.IsWord n := by
  have hall : table.all (fun e => match e.2 with
      | .literal n => decide (Cell.IsWord n)
      | _ => true) = true := by decide +kernel
  obtain ⟨c, -, hlookup⟩ := Option.bind_eq_some_iff.mp h
  obtain ⟨before, after, htable, -⟩ := List.lookup_eq_some_iff.mp hlookup
  have hmem : (c, .literal n) ∈ table := by simp [htable]
  exact of_decide_eq_true (List.all_eq_true.mp hall _ hmem)

/-- A character is read as a word, and so is the end of the input. -/
theorem Console.isWord_readChar {c : Console} {v : Int} (h : c.readChar.1 = .ok v) :
    Cell.IsWord v := by
  rw [readChar] at h
  split at h
  · cases h
  · split at h
    · cases h
      decide
    · cases h
      exact Cell.isWord_ofChar _

/-! ## Stacks -/

/-- Every cell of a stack is a word. -/
def Stack.AllWords (s : Stack) : Prop := ∀ v ∈ s.cells, Cell.IsWord v

namespace Stack.AllWords

variable {s t : Stack}

theorem empty : Stack.empty.AllWords := by simp [Stack.AllWords, Stack.empty]

theorem push (h : s.AllWords) {v : Int} (hv : Cell.IsWord v) : (s.push v).AllWords :=
  List.forall_mem_cons.mpr ⟨hv, h⟩

theorem pop (h : s.AllWords) : Cell.IsWord s.pop.1 ∧ s.pop.2.AllWords := by
  obtain ⟨cells⟩ := s
  cases cells with
  | nil => exact ⟨Cell.isWord_zero, h⟩
  | cons v cells => exact List.forall_mem_cons.mp h

theorem popVec (h : s.AllWords) : s.popVec.2.AllWords := h.pop.2.pop.2

theorem pushAll (h : s.AllWords) {cells : List Int} (hcells : ∀ v ∈ cells, Cell.IsWord v) :
    (s.pushAll cells).AllWords :=
  List.forall_mem_append.mpr ⟨hcells, h⟩

theorem discard (h : s.AllWords) (n : Int) : (s.discard n).AllWords :=
  fun v hv => h v (List.mem_of_mem_drop hv)

/-- Cells from beyond the bottom are zeros. -/
theorem take (h : s.AllWords) (n : Int) :
    (∀ v ∈ (s.take n).1, Cell.IsWord v) ∧ (s.take n).2.AllWords := by
  refine ⟨List.forall_mem_append.mpr ⟨fun v hv => h v (List.mem_of_mem_take hv), ?_⟩,
    fun v hv => h v (List.mem_of_mem_drop hv)⟩
  intro v hv
  rw [List.eq_of_mem_replicate hv]
  exact Cell.isWord_zero

/-- A cell that is picked after others were pushed is one of those or one of the stack. -/
theorem nth_pushAll (h : s.AllWords) {cells : List Int} {n : Int}
    (hcells : ∀ u ∈ cells[(n - 1).toNat]?.toList, Cell.IsWord u) :
    Cell.IsWord ((s.pushAll cells).nth n) := by
  rw [Stack.nth]
  split
  · rw [Stack.pushAll, List.getD_eq_getElem?_getD, List.getElem?_append]
    split
    next hlt =>
      rw [List.getElem?_eq_getElem hlt] at hcells ⊢
      exact hcells _ (by simp)
    · cases hcell : s.cells[(n - 1).toNat - cells.length]? with
      | none => exact Cell.isWord_zero
      | some u => exact h u (List.mem_of_getElem? hcell)
  · exact Cell.isWord_zero

theorem transfer (n : Nat) : ∀ {s t : Stack}, s.AllWords → t.AllWords →
    (Stack.transfer n s t).1.AllWords ∧ (Stack.transfer n s t).2.AllWords := by
  induction n with
  | zero =>
      intro s t hs ht
      exact ⟨hs, ht⟩
  | succ n ih =>
      intro s t hs ht
      exact ih hs.pop.2 (ht.push hs.pop.1)

end Stack.AllWords

/-- Every cell of every stack of a pile is a word. -/
structure StackStack.AllWords (s : StackStack) : Prop where
  top : s.top.AllWords
  below : ∀ stack ∈ s.below, stack.AllWords

namespace StackStack.AllWords

variable {s : StackStack}

theorem push (h : s.AllWords) {v : Int} (hv : Cell.IsWord v) : (s.push v).AllWords :=
  ⟨h.top.push hv, h.below⟩

theorem pop (h : s.AllWords) : Cell.IsWord s.pop.1 ∧ s.pop.2.AllWords :=
  ⟨h.top.pop.1, h.top.pop.2, h.below⟩

theorem pushAll (h : s.AllWords) {cells : List Int} (hcells : ∀ v ∈ cells, Cell.IsWord v) :
    (s.pushAll cells).AllWords :=
  ⟨h.top.pushAll hcells, h.below⟩

/-- Forgetting the cells that were pushed brings the stack back, with the one that was picked. -/
theorem pick (h : s.AllWords) {cells : List Int} {n : Int}
    (hcells : ∀ u ∈ cells[(n - 1).toNat]?.toList, Cell.IsWord u) :
    (((s.pushAll cells).discard cells.length).push ((s.pushAll cells).nth n)).AllWords := by
  have hback : (s.top.pushAll cells).discard cells.length = s.top := by
    simp [Stack.discard, Stack.pushAll]
  refine ⟨Stack.AllWords.push ?_ (h.top.nth_pushAll hcells), h.below⟩
  rw [StackStack.discard, StackStack.pushAll, hback]
  exact h.top

theorem beginBlock (h : s.AllWords) (n : Int) {offset : Vec} (hx : Cell.IsWord offset.x)
    (hy : Cell.IsWord offset.y) : (s.beginBlock n offset).AllWords := by
  obtain ⟨hmoved, hrest⟩ := h.top.take n
  refine ⟨hmoved, List.forall_mem_cons.mpr ⟨?_, h.below⟩⟩
  refine ((hrest.pushAll fun v hv => ?_).push hx).push hy
  rw [List.eq_of_mem_replicate hv]
  exact Cell.isWord_zero

theorem endBlock (h : s.AllWords) {n : Int} {offset : Vec} {s' : StackStack}
    (hend : s.endBlock n = .ok (offset, s')) : s'.AllWords := by
  rw [StackStack.endBlock] at hend
  split at hend
  · cases hend
  next second rest hbelow =>
    cases hend
    have hstacks := h.below
    rw [hbelow, List.forall_mem_cons] at hstacks
    exact ⟨(hstacks.1.popVec.discard _).pushAll (h.top.take n).1, hstacks.2⟩

theorem under (h : s.AllWords) {n : Int} {s' : StackStack} (hunder : s.under n = .ok s') :
    s'.AllWords := by
  rw [StackStack.under] at hunder
  split at hunder
  · cases hunder
  next second rest hbelow =>
    have hstacks := h.below
    rw [hbelow, List.forall_mem_cons] at hstacks
    split at hunder
    · cases hunder
      obtain ⟨hsecond, htop⟩ := Stack.AllWords.transfer n.toNat hstacks.1 h.top
      exact ⟨htop, List.forall_mem_cons.mpr ⟨hsecond, hstacks.2⟩⟩
    · cases hunder
      obtain ⟨htop, hsecond⟩ := Stack.AllWords.transfer (-n).toNat h.top hstacks.1
      exact ⟨htop, List.forall_mem_cons.mpr ⟨hsecond, hstacks.2⟩⟩

end StackStack.AllWords

/-! ## Fingerprints -/

/-- A meaning that pushes a number pushes a word.  Of a change of another kind that is not known. -/
def Meaning.pushesWord : Meaning → Bool
  | .literal v => Cell.IsWord v
  | .other _ => false
  | _ => true

/-- The codes of fingerprints and the numbers their letters push are words. -/
def Registry.AllWords (r : Registry) : Prop :=
  ∀ f ∈ r, Cell.IsWord f.code ∧ ∀ e ∈ f.letters, e.2.pushesWord = true

theorem Registry.builtin_allWords : builtin.AllWords := by
  rw [AllWords]
  decide +kernel

/-- The numbers that letters push are words. -/
def Overlay.AllWords (o : Overlay) : Prop := ∀ e ∈ o.entries, ∀ m ∈ e.2, m.pushesWord = true

namespace Overlay.AllWords

variable {o : Overlay}

theorem alter (h : o.AllWords) (c : Char) {f : List Meaning → List Meaning}
    (hf : ∀ ms, (∀ m ∈ ms, m.pushesWord = true) → ∀ m ∈ f ms, m.pushesWord = true) :
    (o.alter c f).AllWords := by
  obtain ⟨entries⟩ := o
  simp only [Overlay.AllWords, Overlay.alter] at h ⊢
  induction entries with
  | nil => simpa [Overlay.alter.go] using hf [] (by simp)
  | cons e entries ih =>
      obtain ⟨d, ms⟩ := e
      obtain ⟨hfirst, hrest⟩ := List.forall_mem_cons.mp h
      simp only [Overlay.alter.go]
      split
      · exact List.forall_mem_cons.mpr ⟨hf ms hfirst, hrest⟩
      · exact List.forall_mem_cons.mpr ⟨hfirst, ih hrest⟩

theorem load (h : o.AllWords) {f : Fingerprint}
    (hf : ∀ e ∈ f.letters, e.2.pushesWord = true) : (o.load f).AllWords := by
  rw [Overlay.load]
  generalize f.letters = letters at hf
  induction letters generalizing o with
  | nil => exact h
  | cons e letters ih =>
      obtain ⟨hfirst, hrest⟩ := List.forall_mem_cons.mp hf
      refine ih ?_ hrest
      exact h.alter _ fun ms hms => List.forall_mem_cons.mpr ⟨hfirst, hms⟩

theorem unload (h : o.AllWords) (f : Fingerprint) : (o.unload f).AllWords := by
  rw [Overlay.unload]
  generalize f.letters = letters
  induction letters generalizing o with
  | nil => exact h
  | cons e letters ih =>
      exact ih (h.alter _ fun ms hms m hm => hms m (List.mem_of_mem_tail hm))

theorem active (h : o.AllWords) {c : Char} {m : Meaning} (hm : o.active c = some m) :
    m.pushesWord = true := by
  simp only [Overlay.active, Overlay.layers] at hm
  cases hlookup : o.entries.lookup c with
  | none => simp [hlookup] at hm
  | some ms =>
      rw [hlookup] at hm
      obtain ⟨before, after, hentries, -⟩ := List.lookup_eq_some_iff.mp hlookup
      exact h (c, ms) (by simp [hentries]) m (List.mem_of_mem_head? hm)

end Overlay.AllWords

/-! ## Pointers and the world -/

/-- What a pointer holds and what letters push for it are words. -/
structure Pointer.AllWords (ip : Pointer) : Prop where
  pile : ip.pile.AllWords
  overlay : ip.overlay.AllWords

/-- The cells of the space are words, and fingerprints push words. -/
structure World.AllWords (w : World) : Prop where
  space : ∀ p, Cell.IsWord (w.space.read p)
  registry : w.registry.AllWords

namespace Pointer.AllWords

variable {ip : Pointer}

theorem push (h : ip.AllWords) {v : Int} (hv : Cell.IsWord v) : (ip.push v).AllWords :=
  ⟨h.pile.push hv, h.overlay⟩

theorem pop (h : ip.AllWords) : ip.pop.2.AllWords := ⟨h.pile.pop.2, h.overlay⟩

theorem popVec (h : ip.AllWords) : ip.popVec.2.AllWords :=
  ⟨⟨h.pile.top.popVec, h.pile.below⟩, h.overlay⟩

theorem popText (h : ip.AllWords) : ip.popText.2.AllWords := by
  refine ⟨⟨fun v hv => h.pile.top v ?_, h.pile.below⟩, h.overlay⟩
  exact (List.dropWhile_suffix _).subset (List.mem_of_mem_drop hv)

theorem pushVec (h : ip.AllWords) {p : Vec} (hx : Cell.IsWord p.x) (hy : Cell.IsWord p.y) :
    (ip.pushVec p).AllWords :=
  ⟨⟨(h.pile.top.push hx).push hy, h.pile.below⟩, h.overlay⟩

/-- Direction and place do not matter. -/
theorem head (h : ip.AllWords) (delta : Vec) : (ip.head delta).AllWords := ⟨h.pile, h.overlay⟩

end Pointer.AllWords

theorem words_lasting : Lasting Pointer.AllWords World.AllWords where
  pointer h hpile hoverlay := ⟨hpile ▸ h.pile, hoverlay ▸ h.overlay⟩
  world h huntouched := ⟨huntouched.space ▸ h.space, huntouched.registry ▸ h.registry⟩
  quote p h hw := h.push (hw.space p)

namespace Execute

variable {ip : Pointer} {w : World}

theorem combine_words {f : Int → Int → Int} (hf : ∀ a b, Cell.IsWord (f a b)) (h : ip.AllWords) :
    (combine f ip).AllWords :=
  h.pop.pop.push (hf _ _)

theorem transform_words {f : Int → Int} (hf : ∀ a, Cell.IsWord (f a)) (h : ip.AllWords) :
    (transform f ip).AllWords :=
  h.pop.push (hf _)

theorem duplicate_words (h : ip.AllWords) : (duplicate ip).AllWords :=
  (h.pop.push h.pile.pop.1).push h.pile.pop.1

theorem swap_words (h : ip.AllWords) : (swap ip).AllWords :=
  (h.pop.pop.push h.pile.pop.1).push h.pop.pile.pop.1

theorem beginBlock_words (h : ip.AllWords) (hx : Cell.IsWord ip.storage.x)
    (hy : Cell.IsWord ip.storage.y) : (beginBlock ip).AllWords :=
  ⟨h.pop.pile.beginBlock _ hx hy, h.overlay⟩

theorem endBlock_words (h : ip.AllWords) : (endBlock ip).AllWords := by
  simp only [endBlock]
  split
  · exact h.head _
  · split
    next hend => exact ⟨h.pop.pile.endBlock hend, h.overlay⟩
    · exact h.head _

theorem under_words (h : ip.AllWords) : (under ip).AllWords := by
  simp only [under]
  split
  · exact h.head _
  · split
    next hunder => exact ⟨h.pop.pile.under hunder, h.overlay⟩
    · exact h.head _

theorem compare_words (h : ip.AllWords) : (compare ip).AllWords := by
  simp only [compare]
  split
  · exact h.pop.pop.head _
  · split
    · exact h.pop.pop.head _
    · exact h.pop.pop

theorem jump_words (h : ip.AllWords) (s : Space) : (jump ip s).AllWords := by
  simp only [jump]
  split
  · exact h.pop
  · exact words_lasting.pointer h.pop rfl rfl

theorem mean_words (h : ip.AllWords) {m : Meaning} (hm : m.pushesWord = true) :
    (mean ip m).AllWords := by
  cases m with
  | reflect => exact h.head _
  | literal v =>
      have hv : Cell.IsWord v := by simpa [Meaning.pushesWord] using hm
      exact h.push hv
  | bitNot =>
      rw [mean]
      exact transform_words (fun _ => Cell.isWord_wrap _) h
  | other change => simp [Meaning.pushesWord] at hm
  | _ =>
      rw [mean]
      exact combine_words (fun _ _ => Cell.isWord_wrap _) h

theorem letter_words (h : ip.AllWords) (c : Char) : (letter c ip).AllWords := by
  simp only [letter]
  split
  next m hm => exact mean_words h (h.overlay.active hm)
  · exact h.head _

theorem popCode_words (h : ip.AllWords) : (popCode ip).2.AllWords := by
  simp only [popCode]
  split
  · exact h.pop
  · exact ⟨⟨(h.pop.pile.top.take _).2, h.pile.below⟩, h.overlay⟩

theorem loadFingerprint_words (h : ip.AllWords) (hw : w.AllWords) :
    (loadFingerprint ip w).pointer.AllWords := by
  have hpop := popCode_words h
  simp only [loadFingerprint]
  split
  · exact hpop.head _
  next code _ =>
    split
    · exact hpop.head _
    next f hfind =>
      obtain ⟨hcode, hletters⟩ := hw.registry f (List.mem_of_find?_eq_some hfind)
      have hsame : f.code = code := by simpa using List.find?_some hfind
      have hload : ((popCode ip).2.withOverlay ((popCode ip).2.overlay.load f)).AllWords :=
        ⟨hpop.pile, hpop.overlay.load hletters⟩
      exact (hload.push (hsame ▸ hcode)).push (by decide)

theorem unloadFingerprint_words (h : ip.AllWords) :
    (unloadFingerprint ip w).pointer.AllWords := by
  have hpop := popCode_words h
  simp only [unloadFingerprint]
  split
  · exact hpop.head _
  next f _ => exact ⟨hpop.pile, hpop.overlay.unload f⟩

/-! ### Devices -/

theorem isWord_failureStatus : Cell.IsWord failureStatus := by decide

/-- The console holds no cells. -/
theorem withConsole_words (hw : w.AllWords) (console : Console) :
    (w.withConsole console).AllWords :=
  ⟨hw.space, hw.registry⟩

theorem note_words (hw : w.AllWords) (e : Event) : (w.note e).AllWords := ⟨hw.space, hw.registry⟩

theorem afterWriting_words (h : ip.AllWords) (hw : w.AllWords)
    (result : Except WriteError Console) :
    (afterWriting ip w result).pointer.AllWords ∧ (afterWriting ip w result).world.AllWords := by
  cases result with
  | ok console => exact ⟨h, withConsole_words hw console⟩
  | error e =>
      cases e with
      | character e =>
          cases e with
          | notAWord => exact ⟨h, hw⟩
          | surrogate _ => exact ⟨h.head _, hw⟩
          | notACodePoint => exact ⟨h.head _, hw⟩
      | number e => exact ⟨h, hw⟩
      | stream e => exact ⟨h.head _, note_words hw _⟩

theorem readChar_words (h : ip.AllWords) (hw : w.AllWords) :
    (readChar ip w).pointer.AllWords ∧ (readChar ip w).world.AllWords := by
  have hleft := withConsole_words hw w.console.readChar.2
  simp only [readChar]
  split
  next hread => exact ⟨h.push (Console.isWord_readChar hread), hleft⟩
  · exact ⟨h.push isWord_failureStatus, note_words hleft _⟩

theorem readInteger_words (h : ip.AllWords) (hw : w.AllWords) :
    (readInteger ip w).pointer.AllWords ∧ (readInteger ip w).world.AllWords := by
  have hread := withConsole_words hw w.console.readInteger.2
  simp only [readInteger]
  split
  · exact ⟨h.push (Cell.isWord_wrap _), hread⟩
  · exact ⟨h.push isWord_failureStatus, note_words hread _⟩
  · exact ⟨h, hread⟩

theorem outputFile_words (h : ip.AllWords) : (outputFile ip w).pointer.AllWords := by
  have hpop := h.popText.pop.popVec.popVec
  simp only [outputFile]
  split
  · exact hpop.push isWord_failureStatus
  · split
    · exact hpop.push isWord_failureStatus
    · split
      · exact hpop.push isWord_failureStatus
      · exact hpop

theorem execute_words (h : ip.AllWords) : (execute ip w).pointer.AllWords := by
  simp only [execute]
  split
  · exact h.popText.push isWord_failureStatus
  · split
    · exact h.popText.push isWord_failureStatus
    · exact h.popText.push (Cell.isWord_wrap _)

end Execute

/-! ## The space -/

theorem Space.Took.isWord {s s' : Space} {f : Vec → Option Int} {laid marked : Vec → Prop}
    (h : s.Took s' f laid marked) (hs : ∀ p, Cell.IsWord (s.read p))
    (hf : ∀ q v, f q = some v → Cell.IsWord v) (p : Vec) : Cell.IsWord (s'.read p) := by
  rw [h.read]
  cases hp : f p with
  | none => exact hs p
  | some v => exact hf p v hp

/-- Characters are words, so an edit can spoil a space only by the cell it puts. -/
theorem Edit.isWord_apply {e : Edit} (he : ∀ p v, e = .put p v → Cell.IsWord v) {m : Memory}
    (hm : ∀ p, Cell.IsWord (m.space.read p)) (p : Vec) :
    Cell.IsWord ((e.apply m).space.read p) := by
  refine (e.took m).isWord hm (fun q v hwrites => ?_) p
  cases e with
  | load text origin =>
      simp only [writes] at hwrites
      split at hwrites
      · cases hwrites
        exact Cell.isWord_ofChar _
      · cases hwrites
  | put p' v' =>
      simp only [writes] at hwrites
      split at hwrites
      · cases hwrites
        exact he _ _ rfl
      · cases hwrites
  | place text origin linear =>
      obtain ⟨c, -, rfl⟩ := Option.map_eq_some_iff.mp hwrites
      exact Cell.isWord_ofChar c

/-! ## What is pushed as it is -/

theorem Stack.mem_pushVec {s : Stack} {p : Vec} {u : Int} :
    u ∈ (s.pushVec p).cells ↔ u = p.y ∨ u = p.x ∨ u ∈ s.cells := by
  simp [pushVec, push]

theorem Pointer.mem_pushVec {ip : Pointer} {p : Vec} {u : Int} :
    u ∈ (ip.pushVec p).pile.top.cells ↔ u = p.y ∨ u = p.x ∨ u ∈ ip.pile.top.cells :=
  Stack.mem_pushVec

namespace Execute

/-- The numbers that a report pushes. -/
def reported (ip : Pointer) (w : World) : List Int :=
  let (n, ip) := ip.pop
  let cells := SystemReport.cells w ip
  if 0 < n then cells[(n - 1).toNat]?.toList else cells

/-- The numbers that reading a file pushes, which tell how large its text is and where it was
placed. -/
def placement (ip : Pointer) (w : World) : List Int :=
  let (name, ip) := ip.popText
  let (flags, ip) := ip.pop
  let (p, ip) := ip.popVec
  match name with
  | none => []
  | some name =>
      match w.loadFile (String.ofList name) with
      | (.error _, _) => []
      | (.ok data, w) =>
          let linear := lowBit flags
          let text := if linear then Utf8.bytewise data else Utf8.decode data
          let size := (w.memory.place text (ip.offset p) linear).1
          [size.x, size.y, (ip.offset p).x, (ip.offset p).y]

end Execute

/-- The numbers that an act pushes without making words of them. -/
def Act.unwrapped : Act → List Int
  | .obey _ v ip w =>
      match Command.ofCell? v with
      | some .beginBlock => [ip.storage.x, ip.storage.y]
      | some .inputFile => Execute.placement ip w
      | some .report => Execute.reported ip w
      | _ => []
  | .tell .. => []
  | .pause .. => []

/-- What a report pushes is on the stack after it. -/
theorem Execute.reported_pushed {ip : Pointer} {w : World} {u : Int} (hu : u ∈ reported ip w) :
    u ∈ (report ip w).pile.top.cells := by
  simp only [reported] at hu
  simp only [report]
  split
  next hn =>
    rw [if_pos hn, Option.mem_toList] at hu
    have hnth (s : Stack) : (s.pushAll (SystemReport.cells w ip.pop.2)).nth ip.pop.1 = u := by
      have hlt := (List.getElem?_eq_some_iff.mp hu).1
      rw [Stack.nth, if_pos (by omega), Stack.pushAll, List.getD_eq_getElem?_getD,
        List.getElem?_append_left hlt, hu]
      rfl
    exact List.mem_cons.mpr (.inl (hnth _).symm)
  next hn =>
    rw [if_neg hn] at hu
    exact List.mem_append_left _ hu

theorem Execute.placement_pushed {ip : Pointer} {w : World} {u : Int} (hu : u ∈ placement ip w) :
    u ∈ (inputFile ip w).pointer.pile.top.cells := by
  simp only [placement] at hu
  simp only [inputFile]
  cases hname : ip.popText.1 with
  | none =>
      rw [hname] at hu
      cases hu
  | some name =>
      simp only [hname] at hu ⊢
      cases hload : w.loadFile (String.ofList name) with
      | mk result w' =>
          simp only [hload] at hu
          cases result with
          | error e => cases hu
          | ok data =>
              simp only [List.mem_cons, List.not_mem_nil, or_false] at hu
              simp only [Pointer.mem_pushVec]
              tauto

/-- None of the numbers is listed in vain: each is a cell of a stack after the act. -/
theorem Act.unwrapped_pushed {depth : Nat} {v : Int} {ip : Pointer} {w : World} {u : Int}
    (hu : u ∈ (Act.obey depth v ip w).unwrapped) :
    ∃ stack ∈ (Execute.alone depth v ip w).pointer.pile.toList, u ∈ stack.cells := by
  simp only [unwrapped] at hu
  split at hu
  next hc =>
    rw [Execute.alone_eq hc]
    refine ⟨_, List.mem_cons_of_mem _ (List.mem_cons_self ..), ?_⟩
    simp only [List.mem_cons, List.not_mem_nil, or_false] at hu
    rw [Stack.mem_pushVec]
    tauto
  next hc =>
    rw [Execute.alone_eq hc]
    exact ⟨_, List.mem_cons_self .., Execute.placement_pushed hu⟩
  next hc =>
    rw [Execute.alone_eq hc]
    exact ⟨_, List.mem_cons_self .., Execute.reported_pushed hu⟩
  · cases hu

namespace Execute

variable {ip : Pointer} {w : World}

theorem report_words (h : ip.AllWords) (hreported : ∀ u ∈ reported ip w, Cell.IsWord u) :
    (report ip w).AllWords := by
  simp only [reported] at hreported
  simp only [report]
  split
  next hn =>
    rw [if_pos hn] at hreported
    exact ⟨h.pop.pile.pick hreported, h.overlay⟩
  next hn =>
    rw [if_neg hn] at hreported
    exact ⟨h.pop.pile.pushAll hreported, h.overlay⟩

theorem inputFile_words (h : ip.AllWords) (hw : w.AllWords)
    (hplaced : ∀ u ∈ placement ip w, Cell.IsWord u) :
    (inputFile ip w).pointer.AllWords ∧ (inputFile ip w).world.AllWords := by
  have hpop := h.popText.pop.popVec
  simp only [placement] at hplaced
  simp only [inputFile]
  cases hname : ip.popText.1 with
  | none => exact ⟨hpop.push isWord_failureStatus, hw⟩
  | some name =>
      simp only [hname] at hplaced
      simp only
      cases hload : w.loadFile (String.ofList name) with
      | mk result w' =>
          have hw' := words_lasting.world hw (World.loadFile_untouched hload)
          cases result with
          | error e => exact ⟨hpop.push isWord_failureStatus, hw'.space, hw'.registry⟩
          | ok data =>
              simp only [hload, List.forall_mem_cons] at hplaced
              obtain ⟨hwidth, hheight, hx, hy, -⟩ := hplaced
              refine ⟨(hpop.pushVec hwidth hheight).pushVec hx hy, ?_, hw'.registry⟩
              exact Edit.isWord_apply (e := .place _ _ _) (by simp) hw'.space

theorem alone_pointer_words {depth : Nat} {v : Int} (h : ip.AllWords) (hw : w.AllWords)
    (hpushed : ∀ u ∈ (Act.obey depth v ip w).unwrapped, Cell.IsWord u) :
    (alone depth v ip w).pointer.AllWords := by
  simp only [Act.unwrapped] at hpushed
  cases hc : Command.ofCell? v with
  | none =>
      simp only [alone, obey, hc]
      exact h.head _
  | some c =>
      have hstep : (ip.step w.space).AllWords := words_lasting.pointer h rfl rfl
      simp only [hc] at hpushed
      rw [alone_eq hc]
      cases c with
      | literal n => exact h.push (Command.isWord_literal hc)
      | compute op => exact combine_words op.isWord_apply h
      | logicalNot => exact transform_words (fun _ => Cell.isWord_ofBool _) h
      | duplicate => exact duplicate_words h
      | drop => exact h.pop
      | swap => exact swap_words h
      | clear => exact ⟨⟨Stack.AllWords.empty, h.pile.below⟩, h.overlay⟩
      | beginBlock => exact beginBlock_words h (hpushed _ (by simp)) (hpushed _ (by simp))
      | endBlock => exact endBlock_words h
      | under => exact under_words h
      | eastWestIf | northSouthIf => exact h.pop.head _
      | compare => exact compare_words h
      | setDelta => exact h.popVec.head _
      | jump => exact jump_words h _
      | iterate => exact h.pop
      | quit => exact h.pop
      | fetch => exact hstep.push (hw.space _)
      | store => exact hstep.pop
      | get => exact h.popVec.push (hw.space _)
      | put => exact h.popVec.pop
      | writeChar | writeInteger => exact (afterWriting_words h.pop hw _).1
      | readChar => exact (readChar_words h hw).1
      | readInteger => exact (readInteger_words h hw).1
      | inputFile => exact (inputFile_words h hw hpushed).1
      | outputFile => exact outputFile_words h
      | execute => exact execute_words h
      | report => exact report_words h hpushed
      | loadFingerprint => exact loadFingerprint_words h hw
      | unloadFingerprint => exact unloadFingerprint_words h
      | letter c => exact letter_words h c
      -- the others only turn, move or stop the pointer
      | _ => exact words_lasting.pointer h rfl rfl

theorem alone_world_words {depth : Nat} {v : Int} (h : ip.AllWords) (hw : w.AllWords)
    (hpushed : ∀ u ∈ (Act.obey depth v ip w).unwrapped, Cell.IsWord u) :
    (alone depth v ip w).world.AllWords := by
  simp only [Act.unwrapped] at hpushed
  cases hc : Command.ofCell? v with
  | none =>
      simp only [alone, obey, hc]
      exact hw
  | some c =>
      simp only [hc] at hpushed
      rw [alone_eq hc]
      have hput (m : Memory) (hm : m.space = w.space) (p : Vec) {u : Int} (hu : Cell.IsWord u) :
          (w.withMemory (m.put p u)).AllWords := by
        refine ⟨Edit.isWord_apply (e := .put p u) ?_ (hm ▸ hw.space), hw.registry⟩
        rintro _ _ ⟨⟩
        exact hu
      cases c with
      | store => exact hput _ rfl _ h.pile.pop.1
      | put => exact hput _ rfl _ h.popVec.pile.pop.1
      | inputFile => exact (inputFile_words h hw hpushed).2
      | writeChar | writeInteger => exact (afterWriting_words h.pop hw _).2
      | readChar => exact (readChar_words h hw).2
      | readInteger => exact (readInteger_words h hw).2
      | _ => exact words_lasting.world hw (run_untouched (by simp [Command.touching]) depth ip w)

end Execute

/-! ## Runs -/

/-- An act can spoil cells only by a number that it pushes as it is. -/
theorem Act.keeps_words {a : Act} (h : ∀ u ∈ a.unwrapped, Cell.IsWord u) :
    a.Keeps Pointer.AllWords World.AllWords := by
  cases a with
  | obey depth v ip w =>
      intro hip hw
      exact ⟨Execute.alone_pointer_words hip hw h, Execute.alone_world_words hip hw h⟩
  | tell => trivial
  | pause => trivial

theorem Space.isWord_ofText (text : List Char) (p : Vec) : Cell.IsWord ((ofText text).read p) := by
  have hblank : Cell.IsWord Cell.blank := by decide
  exact Edit.isWord_apply (e := .load text Vec.zero) (m := ⟨empty, 0, 0⟩) (by simp)
    (fun _ => hblank) p

namespace Machine

/-- Every cell of every stack of every pointer is a word, and so is every cell of the space. -/
structure AllWords (m : Machine) : Prop where
  piles : ∀ ip ∈ m.pointers ++ m.world.spawned, ∀ stack ∈ ip.pile.toList, ∀ v ∈ stack.cells,
    Cell.IsWord v
  space : ∀ p, Cell.IsWord (m.world.space.read p)

/-- With the fingerprints that are built in, cells stay words as long as every number that is
pushed as it is is one. -/
theorem cells_stay_words (setup : Setup) (source : Source) (console : Console) (n : Nat)
    (hregistry : setup.registry = Registry.builtin)
    (hpushed : ∀ k < n, ∀ a ∈ ((setup.load source console).after k).acts,
      ∀ u ∈ a.unwrapped, Cell.IsWord u) :
    ((setup.load source console).after n).AllWords := by
  have hletters : setup.registry.AllWords := by
    rw [hregistry]
    exact Registry.builtin_allWords
  have hworld : (setup.world source.load.1 console source.load.2).AllWords :=
    ⟨Space.isWord_ofText _, hletters⟩
  have hstart : (setup.load source console).Kept Pointer.AllWords World.AllWords :=
    start_kept words_lasting ⟨⟨Stack.AllWords.empty, fun _ h => nomatch h⟩, fun _ h => nomatch h⟩
      hworld rfl
  have hafter := hstart.after words_lasting fun k hk a ha => a.keeps_words (hpushed k hk a ha)
  refine ⟨fun ip hip => ?_, hafter.world.space⟩
  have hip : ip.AllWords := (List.mem_append.mp hip).elim (hafter.pointers ip) (hafter.spawned ip)
  exact List.forall_mem_cons.mpr ⟨hip.pile.top, hip.pile.below⟩

/-- A block is begun and a cell of the report is picked, and all cells stay words. -/
theorem block_and_report_stay_words :
    ((List.range 4).map fun k => ((Setup.load { clock := ⟨2000, 1, 1, 0, 0, 0⟩ } (.text "2\x7b1y@")
      { input := .ofText [] }).after k).acts.flatMap Act.unwrapped) = [[], [0, 0], [], [15]] ∧
    ((Setup.load { clock := ⟨2000, 1, 1, 0, 0, 0⟩ } (.text "2\x7b1y@")
      { input := .ofText [] }).after 4).AllWords :=
  ⟨by decide +kernel, cells_stay_words _ _ _ 4 rfl (by decide +kernel)⟩

/-- The space gets wider than any word tells, and its width is reported. -/
theorem width_outgrows_words :
    ¬ ((Setup.load { clock := ⟨2000, 1, 1, 0, 0, 0⟩ } (.text "1'耀:*2*0p9a+y@")
      { input := .ofText [] }).after 12).AllWords := by
  intro h
  exact absurd h.piles (by decide +kernel)

end Machine

end Befunge
