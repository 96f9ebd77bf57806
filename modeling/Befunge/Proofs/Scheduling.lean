import Mathlib.Data.List.Nodup
import Befunge.Proofs.Rounds

/-!
# The books of the scheduler

Pointers are numbered in the order they are made, and every pointer that was ever made is
alive, waits for the next tick, or is counted as retired.  `World.Books` states this for a
moment between two turns.  Each deed preserves it, and so do turns, rounds and ticks.

Between ticks it comes to `Machine.Orderly`, which `Machine.after_orderly` shows for every
program after any number of ticks without faults.
-/

namespace Befunge

/-! ## The books between turns -/

namespace World

/-- The numbers of some pointers and of those that were made in this tick, in the order in
which they take their turns. -/
def ids (w : World) (ps : List Pointer) : List Int := (ps ++ w.spawned.reverse).map (·.id)

/-- The books of a world whose pointers are `ps`. -/
structure Books (w : World) (ps : List Pointer) : Prop where
  ascending : (w.ids ps).Pairwise (· < ·)
  below : ∀ id ∈ w.ids ps, id < w.nextId
  numbers : w.nextId = 1 + w.tally.spawned
  children : ∀ ip ∈ w.spawned, ip.alive = true
  /-- Every pointer that was ever made is alive or counted as retired. -/
  balance : ps.countP (·.alive) + w.spawned.length + w.tally.retired = 1 + w.tally.spawned
  exit : w.exitCode = none ↔ w.status = .running
  /-- The program is ended between turns only by a pointer. -/
  quit : w.status ≠ .running → ∃ code, .quit code ∈ w.journal
  /-- No living pointer has the number of one that was stopped. -/
  buried : ∀ id position, .stopped id position ∈ w.journal →
    id < w.nextId ∧ ∀ ip ∈ ps ++ w.spawned.reverse, ip.alive = true → ip.id ≠ id

theorem eq_or_mem_replaced {had yet more : List Pointer} {ip' q : Pointer} (ip : Pointer)
    (h : q ∈ had ++ ip' :: yet ++ more) : q = ip' ∨ q ∈ had ++ ip :: yet ++ more := by
  simp only [List.mem_append, List.mem_cons] at h ⊢
  rcases h with (h | h | h) | h <;> simp [h]

theorem ids_replace {w : World} {had yet : List Pointer} {ip ip' : Pointer}
    (hid : ip'.id = ip.id) : w.ids (had ++ ip' :: yet) = w.ids (had ++ ip :: yet) := by
  simp [ids, hid]

theorem ids_split (w : World) (ps : List Pointer) (ip : Pointer) :
    (w.split ip).ids ps = w.ids ps ++ [w.nextId] := by
  simp [ids, child_id]

/-- One pointer of a list counts as many living ones as it is. -/
theorem countP_alive (had yet : List Pointer) (ip : Pointer) :
    (had ++ ip :: yet).countP (·.alive) =
      had.countP (·.alive) + yet.countP (·.alive) + ip.alive.toNat := by
  rw [List.countP_append, List.countP_cons, Nat.add_assoc]
  cases ip.alive <;> rfl

namespace Books

variable {w w' : World} {ps had yet : List Pointer} {ip ip' : Pointer}

theorem after_errand (h : w.Books (had ++ ip :: yet)) (hid : ip'.id = ip.id)
    (halive : ip'.alive = ip.alive) (hw : w.Undisturbed w') : w'.Books (had ++ ip' :: yet) := by
  have hids : w'.ids (had ++ ip' :: yet) = w.ids (had ++ ip :: yet) := by
    rw [ids_replace hid, ids, hw.spawned, ids]
  obtain ⟨remarks, hjournal, hremarks⟩ := hw.journal
  refine ⟨?_, ?_, ?_, ?_, ?_, ?_, ?_, ?_⟩
  · rw [hids]
    exact h.ascending
  · rw [hids, hw.nextId]
    exact h.below
  · rw [hw.nextId, hw.tally]
    exact h.numbers
  · rw [hw.spawned]
    exact h.children
  · have hbalance := h.balance
    rw [countP_alive] at hbalance
    rw [countP_alive, halive, hw.spawned, hw.tally]
    exact hbalance
  · rw [hw.exitCode, hw.status]
    exact h.exit
  · intro hstatus
    rw [hw.status] at hstatus
    obtain ⟨code, hcode⟩ := h.quit hstatus
    rw [hjournal]
    exact ⟨code, List.mem_append_right _ hcode⟩
  · intro id position hstopped
    rw [hjournal] at hstopped
    rcases List.mem_append.mp hstopped with hremark | hold
    · exact absurd rfl (hremarks _ hremark)
    · obtain ⟨hlt, hdead⟩ := h.buried id position hold
      rw [hw.nextId, hw.spawned]
      refine ⟨hlt, fun q hq hlive => ?_⟩
      rcases eq_or_mem_replaced ip hq with rfl | hq
      · rw [hid]
        exact hdead ip (by simp) (halive ▸ hlive)
      · exact hdead q hq hlive

theorem after_split (h : w.Books ps) (ip : Pointer) : (w.split ip).Books ps := by
  refine ⟨?_, ?_, ?_, ?_, ?_, h.exit, ?_, ?_⟩
  · rw [ids_split]
    refine List.pairwise_append.mpr ⟨h.ascending, List.pairwise_singleton _ _, ?_⟩
    intro id hid next hnext
    rw [List.mem_singleton.mp hnext]
    exact h.below id hid
  · intro id hid
    rw [ids_split] at hid
    rw [split_nextId]
    rcases List.mem_append.mp hid with hid | hid
    · have hlt := h.below id hid
      omega
    · rw [List.mem_singleton.mp hid]
      omega
  · have hnumbers := h.numbers
    simp only [split_nextId, split_tally]
    omega
  · intro child hchild
    rcases List.mem_cons.mp hchild with rfl | hchild
    · exact w.child_alive ip
    · exact h.children child hchild
  · have hbalance := h.balance
    simp only [split_spawned, split_tally, List.length_cons]
    omega
  · intro hstatus
    obtain ⟨code, hcode⟩ := h.quit hstatus
    exact ⟨code, List.mem_cons_of_mem _ hcode⟩
  · intro id position hstopped
    obtain ⟨hlt, hdead⟩ := h.buried id position (by simpa using hstopped)
    rw [split_nextId, split_spawned, List.reverse_cons, ← List.append_assoc]
    refine ⟨by omega, fun q hq hlive => ?_⟩
    rcases List.mem_append.mp hq with hq | hq
    · exact hdead q hq hlive
    · rw [List.mem_singleton.mp hq, child_id]
      omega

/-- A living pointer that stops is counted as retired for the first time. -/
theorem after_stop (h : w.Books (had ++ ip :: yet)) (halive : ip.alive = true) :
    (w.retire ip).2.Books (had ++ (w.retire ip).1 :: yet) := by
  have hids : w.ids (had ++ ip.stopped :: yet) = w.ids (had ++ ip :: yet) := ids_replace rfl
  have hascending : (w.ids (had ++ ip.stopped :: yet)).Pairwise (· < ·) := hids ▸ h.ascending
  refine ⟨hascending, hids ▸ h.below, h.numbers, h.children, ?_, h.exit, ?_, ?_⟩
  · have hbalance := h.balance
    rw [countP_alive, halive, Bool.toNat_true] at hbalance
    rw [countP_alive]
    simp only [retire, Pointer.stopped, note, withTally, Bool.toNat_false]
    omega
  · intro hstatus
    obtain ⟨code, hcode⟩ := h.quit hstatus
    exact ⟨code, List.mem_cons_of_mem _ hcode⟩
  · intro id position hstopped
    rcases List.mem_cons.mp hstopped with hnew | hold
    · obtain ⟨rfl, -⟩ := Event.stopped.inj hnew
      refine ⟨h.below _ (List.mem_map_of_mem (by simp)), fun q hq hlive hsame => ?_⟩
      -- no number is given twice, so this is the pointer that was stopped
      obtain rfl : q = ip.stopped :=
        List.inj_on_of_nodup_map (hascending.imp Int.ne_of_lt) hq (by simp) hsame
      cases hlive
    · obtain ⟨hlt, hdead⟩ := h.buried id position hold
      refine ⟨hlt, fun q hq hlive => ?_⟩
      rcases eq_or_mem_replaced ip hq with rfl | hq
      · cases hlive
      · exact hdead q hq hlive

theorem after_quit (h : w.Books ps) (code : Int) : (w.quit code).Books ps := by
  refine ⟨h.ascending, h.below, h.numbers, h.children, h.balance, ?_, ?_, ?_⟩
  · simp [World.quit, ended, note]
  · exact fun _ => ⟨code, List.mem_cons_self⟩
  · intro id position hstopped
    exact h.buried id position (by simpa [World.quit, ended, note] using hstopped)

/-- Beginning a tick leaves the books as they are. -/
theorem countTick (h : w.Books ps) : w.countTick.Books ps :=
  ⟨h.ascending, h.below, h.numbers, h.children, h.balance, h.exit, h.quit, h.buried⟩

end Books

end World

/-- What a living pointer does leaves the books in order. -/
theorem Deeds.books {ip ip' : Pointer} {w w' : World} {had yet : List Pointer}
    (h : Deeds ip w ip' w') (halive : ip.alive = true) (hbooks : w.Books (had ++ ip :: yet)) :
    w'.Books (had ++ ip' :: yet) := by
  induction h with
  | start => exact hbooks
  | errand _ hid ha hw _ ih => exact ih.after_errand hid ha hw
  | split _ ih => exact ih.after_split _
  | stop _ ha ih => exact ih.after_stop (ha.trans halive)
  | quit code _ ih => exact ih.after_quit code

namespace World.Books

variable {w : World} {had yet : List Pointer} {ip : Pointer}

/-- A turn of a living pointer leaves the books in order. -/
theorem turn (h : w.Books (had ++ ip :: yet)) (halive : ip.alive = true) :
    (w.perform ip).world.Books (had ++ (w.perform ip).pointer :: yet) := by
  have hturn := w.perform_turn ip
  generalize w.perform ip = r at hturn
  cases hturn with
  | broken f hdeeds => exact hdeeds.books halive h
  | recorded record pauses fault hdeeds _ _ =>
      have hafter := hdeeds.books halive h
      refine ⟨hafter.ascending, hafter.below, hafter.numbers, hafter.children, hafter.balance,
        hafter.exit, ?_, ?_⟩
      · intro hstatus
        obtain ⟨code, hcode⟩ := hafter.quit hstatus
        exact ⟨code, List.mem_cons_of_mem _ hcode⟩
      · intro id position hstopped
        refine hafter.buried id position ?_
        simpa [World.countInstruction, World.note, World.withTally] using hstopped

/-- A round of living pointers leaves the books in order. -/
theorem round {ps : List Pointer} (h : w.Books ps) (halive : ∀ ip ∈ ps, ip.alive = true) :
    (w.round ps).world.Books (w.round ps).pointers := by
  obtain ⟨done, yet, ⟨hround, _⟩, hpointers, _⟩ :=
    World.round_preserves
      (P := fun had yet w _ => w.Books (had ++ yet) ∧ ∀ ip ∈ yet, ip.alive = true)
      (fun had ip yet w h => by
        obtain ⟨hbooks, hyet⟩ := h
        refine ⟨?_, fun q hq => hyet q (List.mem_cons_of_mem _ hq)⟩
        rw [List.append_assoc]
        exact hbooks.turn (hyet ip List.mem_cons_self))
      ps [] w ⟨h, halive⟩
  rw [hpointers]
  exact hround

end World.Books

/-! ## The books between ticks -/

/-- What is told of a program before it runs comes from the loader. -/
theorem Source.load_channel (source : Source) : ∀ e ∈ source.load.2, e.channel = .loader := by
  have hdecode : ∀ e ∈ source.decode.2, e.channel = .loader := by
    cases source with
    | text program => simp [decode]
    | bytes data =>
        simp only [decode]
        split
        · simp
        · simp [Event.channel]
  intro e he
  rcases List.mem_cons.mp he with rfl | he
  · rfl
  · exact hdecode e he

namespace Machine

/-- A machine whose books are in order, as they are between ticks. -/
structure Orderly (m : Machine) : Prop where
  /-- The pointers stand in the order of their numbers. -/
  ascending : m.pointers.Pairwise (·.id < ·.id)
  /-- No number is given twice. -/
  below : ∀ ip ∈ m.pointers, ip.id < m.world.nextId
  /-- As many numbers were given as pointers were made, the first one included. -/
  numbers : m.world.nextId = 1 + m.world.tally.spawned
  /-- Pointers that stopped are gone. -/
  alive : ∀ ip ∈ m.pointers, ip.alive = true
  /-- Pointers that were made take part. -/
  waiting : m.world.spawned = []
  /-- There is an exit code as soon as the machine is no longer running. -/
  exit : m.world.exitCode = none ↔ m.world.status = .running
  /-- While the machine is running, the pointers are those that were made and did not stop. -/
  running : m.world.status = .running →
    (m.pointers.length : Int) = 1 + m.world.tally.spawned - m.world.tally.retired ∧
      1 ≤ m.pointers.length ∧ m.pointers.length ≤ m.world.tally.peak
  /-- No pointer is left of a program that is done. -/
  done : m.world.status = .done → m.pointers = []
  /-- A program that no pointer ended is done when all pointers have stopped. -/
  unquit : m.world.status = .done → (∀ code, .quit code ∉ m.world.journal) →
    m.world.exitCode = some 0 ∧ m.world.tally.retired = m.world.tally.spawned + 1
  /-- No pointer has the number of one that was stopped. -/
  buried : ∀ id position, .stopped id position ∈ m.world.journal →
    id < m.world.nextId ∧ ∀ ip ∈ m.pointers, ip.id ≠ id
  /-- A machine that is no longer running does not change. -/
  final : m.world.status ≠ .running → m.tick = (.ok false, m)

/-- The books of a machine that is about to run are in order. -/
theorem load_orderly (setup : Setup) (source : Source) (console : Console) :
    (setup.load source console).Orderly where
  ascending := List.pairwise_singleton _ _
  below ip hip := by
    rw [List.mem_singleton.mp hip]
    exact Int.lt_succ 0
  numbers := rfl
  alive ip hip := by
    rw [List.mem_singleton.mp hip]
    rfl
  waiting := rfl
  exit := ⟨fun _ => rfl, fun _ => rfl⟩
  running _ := ⟨rfl, Nat.le_refl 1, Nat.le_refl 1⟩
  done h := by cases h
  unquit h := by cases h
  buried _ _ hstopped := by
    have hloader := source.load_channel _ hstopped
    cases hloader
  final := tick_of_not_running

/-- The books of an orderly machine that is running, as they are between turns. -/
theorem Orderly.books {m : Machine} (h : m.Orderly) (hrunning : m.world.status = .running) :
    m.world.Books m.pointers := by
  have hcount : m.pointers.countP (·.alive) = m.pointers.length :=
    List.countP_eq_length.mpr h.alive
  have hids : m.world.ids m.pointers = m.pointers.map (·.id) := by
    simp [World.ids, h.waiting]
  refine ⟨?_, ?_, h.numbers, ?_, ?_, h.exit, ?_, ?_⟩
  · rw [hids]
    exact List.pairwise_map.mpr h.ascending
  · rw [hids]
    intro id hid
    obtain ⟨ip, hip, rfl⟩ := List.mem_map.mp hid
    exact h.below ip hip
  · intro ip hip
    rw [h.waiting] at hip
    cases hip
  · have hlength := (h.running hrunning).1
    rw [hcount, h.waiting, List.length_nil]
    omega
  · exact fun hstatus => absurd hrunning hstatus
  · intro id position hstopped
    obtain ⟨hlt, hgone⟩ := h.buried id position hstopped
    refine ⟨hlt, fun ip hip _ => hgone ip ?_⟩
    rw [h.waiting] at hip
    simpa using hip

/-- The books of an orderly machine that begins a tick, when the turns are over. -/
theorem Orderly.turns_books {m : Machine} (h : m.Orderly) (hbegins : m.Begins) :
    m.turns.world.Books m.turns.pointers :=
  World.Books.round (h.books hbegins.running).countTick h.alive

theorem left_sublist (m : Machine) :
    m.left.Sublist (m.turns.pointers ++ m.turns.world.spawned.reverse) :=
  List.filter_sublist.append_right _

theorem left_alive {m : Machine} (h : m.turns.world.Books m.turns.pointers) :
    ∀ ip ∈ m.left, ip.alive = true := by
  intro ip hip
  rcases List.mem_append.mp hip with hip | hip
  · exact (List.mem_filter.mp hip).2
  · exact h.children ip (List.mem_reverse.mp hip)

/-- The pointers that are left are those that were made and did not stop. -/
theorem left_length {m : Machine} (h : m.turns.world.Books m.turns.pointers) :
    m.left.length + m.turns.world.tally.retired = 1 + m.turns.world.tally.spawned := by
  have hbalance := h.balance
  rw [List.countP_eq_length_filter] at hbalance
  rw [left, List.length_append, List.length_reverse]
  exact hbalance

/-- A tick without a fault leaves the books in order. -/
theorem Tick.orderly {m m' : Machine} {running : Bool} (htick : m.Tick (.ok running) m')
    (h : m.Orderly) : m'.Orderly := by
  cases htick with
  | idle _ => exact h
  | exhausted maxTicks _ _ =>
      refine ⟨h.ascending, h.below, h.numbers, h.alive, h.waiting, ?_, ?_, ?_, ?_, ?_,
        tick_of_not_running⟩
      · simp [World.exhaust, World.ended, World.note]
      · simp [World.exhaust, World.ended, World.note]
      · simp [World.exhaust, World.ended, World.note]
      · simp [World.exhaust, World.ended, World.note]
      · intro id position hstopped
        refine h.buried id position ?_
        simpa [World.exhaust, World.ended, World.note] using hstopped
  | ended hbegins hending =>
      have hbooks := h.turns_books hbegins
      have hstatus : m.turns.world.status ≠ .running :=
        World.status_of_round_ended hending
      refine ⟨.nil, by simp, hbooks.numbers, by simp, rfl, hbooks.exit,
        fun hrunning => absurd hrunning hstatus, fun _ => rfl, ?_, ?_, tick_of_not_running⟩
      · intro _ hquit
        obtain ⟨code, hcode⟩ := hbooks.quit hstatus
        exact absurd hcode (hquit code)
      · exact fun id position hstopped => ⟨(hbooks.buried id position hstopped).1, by simp⟩
  | emptied hbegins hending hleft =>
      have hbooks := h.turns_books hbegins
      have hlength := left_length hbooks
      rw [hleft, List.length_nil] at hlength
      refine ⟨.nil, by simp, hbooks.numbers, by simp, rfl, ?_, ?_, fun _ => rfl, ?_, ?_,
        tick_of_not_running⟩
      · simp [World.ended]
      · simp [World.ended]
      · refine fun _ _ => ⟨rfl, ?_⟩
        simp only [World.ended, World.countPointers, World.withTally]
        omega
      · exact fun id position hstopped => ⟨(hbooks.buried id position hstopped).1, by simp⟩
  | settled hbegins hending hleft =>
      have hbooks := h.turns_books hbegins
      have hstatus : m.turns.world.status = .running :=
        World.status_of_round_complete m.pointers m.world.countTick hbegins.running hending
      have hsub := m.left_sublist
      have halive := left_alive hbooks
      have hlength := left_length hbooks
      refine ⟨?_, ?_, hbooks.numbers, halive, rfl, hbooks.exit, ?_, ?_, ?_, ?_,
        tick_of_not_running⟩
      · exact (List.pairwise_map.mp hbooks.ascending).sublist hsub
      · intro ip hip
        exact hbooks.below _ (List.mem_map_of_mem (hsub.subset hip))
      · intro _
        have hpos := List.length_pos_iff.mpr hleft
        simp only [World.countPointers, World.withTally]
        omega
      · intro hdone
        have h' : m.turns.world.status = .done := hdone
        rw [hstatus] at h'
        cases h'
      · intro hdone
        have h' : m.turns.world.status = .done := hdone
        rw [hstatus] at h'
        cases h'
      · intro id position hstopped
        obtain ⟨hlt, hdead⟩ := hbooks.buried id position hstopped
        exact ⟨hlt, fun ip hip => hdead ip (hsub.subset hip) (halive ip hip)⟩

theorem Smooth.orderly {m : Machine} {n i : Nat} (h : m.Smooth n) (hstart : m.Orderly)
    (hi : i ≤ n) : (m.after i).Orderly :=
  (h.mono hi).preserves hstart (fun _ _ _ htick => htick.orderly)

/-- After any number of ticks without faults the books of every program are in order. -/
theorem after_orderly (setup : Setup) (source : Source) (console : Console) (n : Nat)
    (h : (setup.load source console).Smooth n) :
    ((setup.load source console).after n).Orderly :=
  h.orderly (load_orderly setup source console) (Nat.le_refl n)

/-- One pointer stops and two are made by a repetition before the first one ends the program. -/
theorem after_orderly_splitting :
    (Setup.load { clock := ⟨2000, 1, 1, 0, 0, 0⟩ } (.text "t2kt.q@")
      { input := .ofText [] }).Smooth 5 ∧
    ((Setup.load { clock := ⟨2000, 1, 1, 0, 0, 0⟩ } (.text "t2kt.q@")
      { input := .ofText [] }).after 5).Orderly :=
  ⟨by decide +kernel, after_orderly _ _ _ 5 (by decide +kernel)⟩

end Machine

end Befunge
