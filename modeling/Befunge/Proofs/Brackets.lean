import Befunge.Setup
import Befunge.Proofs.Reports

/-!
# Brackets

An opening bracket loads the fingerprint whose code is spelled on the stack, and a closing one
unloads it.  The letters have layers of meanings: loading lays what a fingerprint says of a letter
over it (`Overlay.layers_load`), and unloading lifts as many layers off
(`Overlay.layers_unload`).  So a fingerprint that is unloaded while its own layers are uppermost
leaves no trace.

`Execute.Bracketed` is what a pointer has been through when every bracket it closed had the code
of the one it opened last.  The layers of a letter are then those of the fingerprints still
loaded, the latest first, over those from before (`Execute.Bracketed.layers`).  Nothing depends on
what the meanings are.

The cells that spell a name have its code (`Execute.popCode_spell`), and a code spells itself
(`Execute.popCode_code`), so what an opening bracket leaves on the stack is what the closing one
needs.  `Execute.brackets_nest` puts the two together.
-/

namespace Befunge

/-! ## Layers -/

namespace Fingerprint

/-- The meanings that a fingerprint lays over a letter, the uppermost first.  There is at most one
if it defines every letter once. -/
def layers (f : Fingerprint) (c : Char) : List Meaning :=
  ((f.letters.filter (·.1 = c)).map Prod.snd).reverse

/-- The meaning that a fingerprint gives to a letter. -/
def meaning? (f : Fingerprint) (c : Char) : Option Meaning := (f.layers c).head?

end Fingerprint

namespace Overlay

theorem layers_cons (e : Char) (ms : List Meaning) (entries : List (Char × List Meaning))
    (d : Char) :
    layers ⟨(e, ms) :: entries⟩ d = if d = e then ms else layers ⟨entries⟩ d := by
  by_cases h : d = e
  · simp [layers, h]
  · simp [layers, List.lookup_cons, beq_false_of_ne h, h]

/-- Changing the layers of one letter leaves those of all others. -/
theorem layers_alter (o : Overlay) (c d : Char) (change : List Meaning → List Meaning) :
    (o.alter c change).layers d = if d = c then change (o.layers d) else o.layers d := by
  obtain ⟨entries⟩ := o
  rw [alter]
  induction entries with
  | nil => rw [alter.go, layers_cons]; rfl
  | cons entry entries ih =>
      obtain ⟨e, ms⟩ := entry
      rw [alter.go]
      by_cases he : c = e
      · rw [if_pos he, layers_cons, layers_cons, he]
        split <;> rfl
      · rw [if_neg he, layers_cons, layers_cons, ih]
        by_cases hd : d = e
        · rw [if_pos hd, if_pos hd, if_neg (hd ▸ Ne.symm he)]
        · rw [if_neg hd, if_neg hd]

theorem layers_load (o : Overlay) (f : Fingerprint) (c : Char) :
    (o.load f).layers c = f.layers c ++ o.layers c := by
  rw [load, Fingerprint.layers]
  generalize f.letters = letters
  induction letters generalizing o with
  | nil => rfl
  | cons entry letters ih =>
      obtain ⟨d, m⟩ := entry
      rw [List.foldl_cons, ih, layers_alter]
      by_cases hd : d = c
      · simp [hd]
      · simp [hd, Ne.symm hd]

theorem layers_unload (o : Overlay) (f : Fingerprint) (c : Char) :
    (o.unload f).layers c = (o.layers c).drop (f.layers c).length := by
  rw [unload, Fingerprint.layers]
  generalize f.letters = letters
  induction letters generalizing o with
  | nil => rfl
  | cons entry letters ih =>
      obtain ⟨d, m⟩ := entry
      rw [List.foldl_cons, ih, layers_alter]
      by_cases hd : d = c
      · simp [hd]
      · simp [hd, Ne.symm hd]

/-- Unloading a fingerprint whose layers are uppermost uncovers what was under them. -/
theorem layers_unload_of_uppermost {o : Overlay} {f : Fingerprint} {c : Char}
    {under : List Meaning} (h : o.layers c = f.layers c ++ under) :
    (o.unload f).layers c = under := by
  rw [layers_unload, h, List.drop_left]

end Overlay

/-! ## Codes -/

namespace Fingerprint

theorem codeOfCells_emod (cells : List Int) :
    codeOfCells cells % 0x100000000 = codeOfCells cells := by
  rcases List.eq_nil_or_concat cells with rfl | ⟨first, v, rfl⟩
  · rfl
  · rw [List.concat_eq_append, codeOfCells, List.foldl_concat, Int.emod_emod]

/-- A code spells itself. -/
theorem codeOfCells_codeOfCells (cells : List Int) :
    codeOfCells [codeOfCells cells] = codeOfCells cells := by
  have hsingle (v : Int) : codeOfCells [v] = v % 0x100000000 := by
    rw [codeOfCells, List.foldl_cons, List.foldl_nil, Int.zero_mul, Int.zero_add]
  rw [hsingle, codeOfCells_emod]

end Fingerprint

theorem Registry.code_of_find {r : Registry} {code : Int} {f : Fingerprint}
    (h : r.find code = some f) : f.code = code := by
  rw [find] at h
  simpa using List.find?_some h

namespace Pointer

/-- Spells a name for a bracket: its characters from the last one to the first, and how many they
are. -/
def spell (ip : Pointer) (name : String) : Pointer :=
  (name.toList.reverse.foldl (fun ip c => ip.push (Cell.ofChar c)) ip).push name.length

theorem foldl_push (text : List Char) (ip : Pointer) :
    text.foldl (fun ip c => ip.push (Cell.ofChar c)) ip =
      ip.withPile (ip.pile.pushAll (text.reverse.map Cell.ofChar)) := by
  induction text generalizing ip with
  | nil => rfl
  | cons c text ih =>
      rw [List.foldl_cons, ih]
      simp [push, withPile, StackStack.push, StackStack.pushAll, Stack.push, Stack.pushAll]

theorem spell_overlay (ip : Pointer) (name : String) : (ip.spell name).overlay = ip.overlay := by
  rw [spell, foldl_push]
  rfl

end Pointer

namespace Execute

theorem popCode_pushed (ip : Pointer) {cells : List Int} (hcells : cells ≠ []) :
    popCode ((ip.withPile (ip.pile.pushAll cells)).push cells.length) =
      (some (Fingerprint.codeOfCells cells), ip) := by
  have hpop : ((ip.withPile (ip.pile.pushAll cells)).push cells.length).pop =
      ((cells.length : Int), ip.withPile (ip.pile.pushAll cells)) := rfl
  have hcount : ¬ (cells.length : Int) ≤ 0 := by
    have hpos := List.length_pos_iff.mpr hcells
    omega
  have htake : (ip.withPile (ip.pile.pushAll cells)).pile.top.take cells.length =
      (cells, ip.pile.top) :=
    Stack.take_append cells ip.pile.top.cells rfl
  simp only [popCode, hpop, hcount, if_false, htake]
  rfl

/-- The cells that spell a name have its code. -/
theorem popCode_spell (ip : Pointer) {name : String} (hname : name ≠ "") :
    popCode (ip.spell name) = (some (Fingerprint.codeOfName name), ip) := by
  have hcells : name.toList.map Cell.ofChar ≠ [] := by
    simpa using hname
  have hlength : (name.toList.map Cell.ofChar).length = name.length := by
    rw [List.length_map, String.length_toList]
  rw [Pointer.spell, Pointer.foldl_push, List.reverse_reverse, ← hlength]
  exact popCode_pushed ip hcells

/-- A code on the stack is spelled by itself. -/
theorem popCode_code (ip : Pointer) (f : Fingerprint) :
    popCode ((ip.push f.code).push 1) = (some f.code, ip) := by
  have hpopped := popCode_pushed ip (List.cons_ne_nil f.code [])
  rw [Fingerprint.code, Fingerprint.codeOfName] at hpopped ⊢
  rw [Fingerprint.codeOfCells_codeOfCells] at hpopped
  exact hpopped

/-! ## Loading and unloading -/

theorem cell_open {ip : Pointer} {w : World} {code : Int} {popped : Pointer} {f : Fingerprint}
    (hcode : popCode ip = (some code, popped)) (hfind : w.registry.find code = some f) :
    cell (Cell.ofChar '(') ip w =
      ⟨((popped.withOverlay (popped.overlay.load f)).push code).push 1,
        w.note (.fingerprintLoaded popped.id f.name), none⟩ := by
  have hcell : cell (Cell.ofChar '(') ip w = loadFingerprint ip w := rfl
  rw [hcell, loadFingerprint]
  simp only [hcode, hfind]
  rfl

theorem cell_close {ip : Pointer} {w : World} {code : Int} {popped : Pointer} {f : Fingerprint}
    (hcode : popCode ip = (some code, popped)) (hfind : w.registry.find code = some f) :
    cell (Cell.ofChar ')') ip w =
      ⟨popped.withOverlay (popped.overlay.unload f),
        w.note (.fingerprintUnloaded popped.id f.name), none⟩ := by
  have hcell : cell (Cell.ofChar ')') ip w = unloadFingerprint ip w := rfl
  rw [hcell, unloadFingerprint]
  simp only [hcode, Option.bind_some, hfind]

theorem popCode_overlay (ip : Pointer) : (popCode ip).2.overlay = ip.overlay := by
  simp only [popCode]
  split <;> rfl

/-- A letter does what its uppermost layer says, and without one it turns the pointer round. -/
theorem cell_letter {c : Char} (hc : c ∈ Fingerprint.alphabet) (ip : Pointer) (w : World) :
    cell (Cell.ofChar c) ip w = ⟨(ip.overlay.active c).elim ip.reflect (mean ip), w, none⟩ := by
  have hall : (Fingerprint.alphabet.all fun c =>
      Command.ofCell? (Cell.ofChar c) = some (.letter c)) = true := by
    decide +kernel
  have hcommand := of_decide_eq_true (List.all_eq_true.mp hall c hc)
  rw [cell, obey, hcommand]
  simp only [run, letter]
  cases ip.overlay.active c <;> rfl

/-- What a pointer with the meanings `start` may have made of them by loading and unloading, where
every fingerprint it unloaded was the one it had loaded last and not yet unloaded.  Those that it
has still loaded are listed, the latest first.  Between two brackets anything may happen to the
pointer and the world that leaves the meanings and the registry alone. -/
inductive Bracketed (r : Registry) (start : Overlay) : List Fingerprint → Overlay → Prop
  | none : Bracketed r start [] start
  | load {loaded : List Fingerprint} {ip : Pointer} {w : World} {code : Int} {f : Fingerprint}
      (earlier : Bracketed r start loaded ip.overlay) (hr : w.registry = r)
      (hcode : (popCode ip).1 = some code) (hfind : r.find code = some f) :
      Bracketed r start (f :: loaded) (cell (Cell.ofChar '(') ip w).pointer.overlay
  | unload {loaded : List Fingerprint} {ip : Pointer} {w : World} {f : Fingerprint}
      (earlier : Bracketed r start (f :: loaded) ip.overlay) (hr : w.registry = r)
      (hcode : (popCode ip).1 = some f.code) :
      Bracketed r start loaded (cell (Cell.ofChar ')') ip w).pointer.overlay

namespace Bracketed

variable {r : Registry} {start o : Overlay} {loaded : List Fingerprint}

theorem find_code (h : Bracketed r start loaded o) : ∀ f ∈ loaded, r.find f.code = some f := by
  induction h with
  | none => exact fun _ hf => nomatch hf
  | load earlier hr hcode hfind ih =>
      refine List.forall_mem_cons.mpr ⟨?_, ih⟩
      rw [Registry.code_of_find hfind, hfind]
  | unload earlier hr hcode ih => exact (List.forall_mem_cons.mp ih).2

/-- The layers of a letter are those of the fingerprints still loaded, over those from before. -/
theorem layers (h : Bracketed r start loaded o) (c : Char) :
    o.layers c = loaded.flatMap (·.layers c) ++ start.layers c := by
  induction h with
  | none => rfl
  | @load loaded ip w code f earlier hr hcode hfind ih =>
      have hpopped : popCode ip = (some code, (popCode ip).2) := Prod.ext hcode rfl
      rw [cell_open hpopped (hr ▸ hfind), List.flatMap_cons, List.append_assoc, ← ih,
        ← popCode_overlay ip]
      exact Overlay.layers_load _ f c
  | @unload loaded ip w f earlier hr hcode ih =>
      have hpopped : popCode ip = (some f.code, (popCode ip).2) := Prod.ext hcode rfl
      have hfind := earlier.find_code f List.mem_cons_self
      rw [cell_close hpopped (hr ▸ hfind)]
      refine Overlay.layers_unload_of_uppermost ?_
      rw [popCode_overlay, ih, List.flatMap_cons, List.append_assoc]

theorem active (h : Bracketed r start loaded o) (c : Char) :
    o.active c = (loaded.findSome? (·.meaning? c)).or (start.active c) := by
  rw [Overlay.active, h.layers, List.head?_append, List.head?_flatMap]
  rfl

end Bracketed

/-- As long as every closing bracket unloads what was loaded last, each letter does what the latest
fingerprint says that is loaded and defines it, or else what it did before.  When all are unloaded
every letter has the layers it had.

A name that is spelled on the stack loads the fingerprint which is registered under its code, and
leaves that code and a one.  A closing bracket takes these, and leaves the pointer as it was before
the name was spelled. -/
theorem brackets_nest (r : Registry) :
    (∀ {start o : Overlay} {loaded : List Fingerprint}, Bracketed r start loaded o →
      ∀ c ∈ Fingerprint.alphabet, ∀ (ip : Pointer) (w : World), ip.overlay = o →
        cell (Cell.ofChar c) ip w =
          ⟨((loaded.findSome? (·.meaning? c)).or (start.active c)).elim ip.reflect (mean ip), w,
            none⟩) ∧
    (∀ {start o : Overlay}, Bracketed r start [] o → ∀ c, o.layers c = start.layers c) ∧
    (∀ (ip : Pointer) (w : World), w.registry = r → ∀ f ∈ r, f.name ≠ "" →
      ∃ g, r.find f.code = some g ∧
        cell (Cell.ofChar '(') (ip.spell f.name) w =
          ⟨((ip.withOverlay (ip.overlay.load g)).push f.code).push 1,
            w.note (.fingerprintLoaded ip.id g.name), none⟩ ∧
        cell (Cell.ofChar ')') (((ip.withOverlay (ip.overlay.load g)).push f.code).push 1)
            (w.note (.fingerprintLoaded ip.id g.name)) =
          ⟨ip.withOverlay ((ip.overlay.load g).unload g),
            (w.note (.fingerprintLoaded ip.id g.name)).note (.fingerprintUnloaded ip.id g.name),
            none⟩ ∧
        ∀ c, ((ip.overlay.load g).unload g).layers c = ip.overlay.layers c) := by
  refine ⟨?_, ?_, ?_⟩
  · intro start o loaded h c hc ip w ho
    rw [cell_letter hc, ho, h.active]
  · intro start o h c
    rw [h.layers, List.flatMap_nil, List.nil_append]
  · intro ip w hr f hf hname
    have hregistered : (r.find f.code).isSome := by
      rw [Registry.find, List.find?_isSome]
      exact ⟨f, hf, decide_eq_true rfl⟩
    obtain ⟨g, hg⟩ := Option.isSome_iff_exists.mp hregistered
    have hfind : w.registry.find f.code = some g := hr ▸ hg
    refine ⟨g, hg, cell_open (popCode_spell ip hname) hfind, ?_, fun c => ?_⟩
    · exact cell_close (popCode_code (ip.withOverlay (ip.overlay.load g)) f) hfind
    · exact Overlay.layers_unload_of_uppermost (Overlay.layers_load _ g c)

/-- A world with the fingerprints that every machine knows. -/
def learnedWorld : World :=
  (Setup.load { clock := ⟨2000, 1, 1, 0, 0, 0⟩ } (.text "") { input := .ofText [] }).world

/-- A pointer that loaded Roman numerals. -/
def roman : Pointer :=
  (cell (Cell.ofChar '(') (({ id := 0 } : Pointer).spell "ROMA") learnedWorld).pointer

/-- The same pointer after it loaded bitwise logic too, by a longer name of the same code. -/
def logician : Pointer := (cell (Cell.ofChar '(') (roman.spell "xxBOOL") learnedWorld).pointer

/-- Both fingerprints define `X`, only the first one defines `I`, and neither defines `Z`.  With
both unloaded no letter has a layer.  A third one leaves its code and a one on the stack. -/
theorem brackets_nest_overlapping :
    cell (Cell.ofChar 'X') logician learnedWorld = ⟨mean logician .bitXor, learnedWorld, none⟩ ∧
    cell (Cell.ofChar 'I') logician learnedWorld =
      ⟨mean logician (.literal 1), learnedWorld, none⟩ ∧
    cell (Cell.ofChar 'Z') logician learnedWorld = ⟨logician.reflect, learnedWorld, none⟩ ∧
    (∀ c, (cell (Cell.ofChar ')') ((cell (Cell.ofChar ')') logician learnedWorld).pointer.spell
      "ROMA") learnedWorld).pointer.overlay.layers c = []) ∧
    (cell (Cell.ofChar '(') (logician.spell "MODU") learnedWorld).pointer.pile =
      (logician.pile.push Fingerprint.modu.code).push 1 := by
  have hroman : Bracketed Registry.builtin {} [.roma] roman.overlay :=
    .load (by rw [Pointer.spell_overlay]; exact .none) rfl
      (congrArg Prod.fst (popCode_spell _ (by decide))) rfl
  have hlogician : Bracketed Registry.builtin {} [.bool, .roma] logician.overlay :=
    .load (by rw [Pointer.spell_overlay]; exact hroman) rfl
      (congrArg Prod.fst (popCode_spell _ (by decide))) rfl
  have hback : Bracketed Registry.builtin {} [.roma]
      (cell (Cell.ofChar ')') logician learnedWorld).pointer.overlay :=
    .unload hlogician rfl (by decide +kernel)
  have hnone : Bracketed Registry.builtin {} [] (cell (Cell.ofChar ')')
      ((cell (Cell.ofChar ')') logician learnedWorld).pointer.spell "ROMA")
        learnedWorld).pointer.overlay :=
    .unload (by rw [Pointer.spell_overlay]; exact hback) rfl
      (by rw [popCode_spell _ (by decide)]; rfl)
  obtain ⟨hletters, hlayers, hspelled⟩ := brackets_nest Registry.builtin
  refine ⟨hletters hlogician 'X' (by decide) logician learnedWorld rfl,
    hletters hlogician 'I' (by decide) logician learnedWorld rfl,
    hletters hlogician 'Z' (by decide) logician learnedWorld rfl, hlayers hnone, ?_⟩
  obtain ⟨g, -, hopened, -⟩ :=
    hspelled logician learnedWorld rfl Fingerprint.modu (by simp [Registry.builtin]) (by decide)
  exact congrArg (·.pointer.pile) hopened

end Execute

end Befunge
