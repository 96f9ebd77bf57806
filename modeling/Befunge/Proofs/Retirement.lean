import Befunge.Proofs.Scheduling

/-!
# Pointers that stopped

A pointer that stops leaves the machine when the turns of the tick are over.  A fault keeps the
turns from being over, and the next tick gives their turns to the same pointers again, stopped
or not.  So there is a stopped pointer among those of a tick exactly where a tick before it
broke off after a pointer had stopped, and all ticks since broke off as well
(`Machine.someStopped_after_iff`).

Where no tick breaks off like that no stopped pointer has a turn, and every pointer is counted as
retired once at most, whatever other faults there are (`Machine.stopped_pointers_rest`).
-/

namespace Befunge

/-! ## Stops are counted -/

/-- The pointer that an event says has stopped. -/
def Event.stopped? : Event → Option Int
  | .stopped id _ => some id
  | _ => none

namespace World

/-- The pointers that have stopped, the latest first. -/
def stops (w : World) : List Int := w.journal.filterMap Event.stopped?

theorem exists_of_mem_stops {w : World} {id : Int} (h : id ∈ w.stops) :
    ∃ position, .stopped id position ∈ w.journal := by
  obtain ⟨e, he, hid⟩ := List.mem_filterMap.mp h
  cases e with
  | stopped id' position =>
      cases hid
      exact ⟨position, he⟩
  | _ => cases hid

theorem stops_cons {w w' : World} {e : Event} (h : w'.journal = e :: w.journal)
    (he : e.stopped? = none) : w'.stops = w.stops := by
  rw [stops, h, List.filterMap_cons_none he, stops]

theorem Undisturbed.stops {w w' : World} (h : w.Undisturbed w') : w'.stops = w.stops := by
  obtain ⟨remarks, hjournal, hremarks⟩ := h.journal
  have hnone : remarks.filterMap Event.stopped? = [] := by
    refine List.filterMap_eq_nil_iff.mpr fun e he => ?_
    have hchannel := hremarks e he
    cases e with
    | stopped id position => exact absurd rfl hchannel
    | _ => rfl
  rw [World.stops, hjournal, List.filterMap_append, hnone, List.nil_append, World.stops]

/-- No pointer stopped twice, and the stops were counted. -/
structure StopsOnce (w : World) : Prop where
  nodup : w.stops.Nodup
  counted : w.tally.retired = w.stops.length

theorem StopsOnce.of_eq {w w' : World} (h : w.StopsOnce) (hstops : w'.stops = w.stops)
    (hretired : w'.tally.retired = w.tally.retired) : w'.StopsOnce :=
  ⟨hstops ▸ h.nodup, by rw [hretired, hstops, h.counted]⟩

/-- A living pointer of books that are in order has not stopped before. -/
theorem StopsOnce.stop {w : World} {had yet : List Pointer} {ip : Pointer} (h : w.StopsOnce)
    (hbooks : w.Books (had ++ ip :: yet)) (halive : ip.alive = true) :
    (w.retire ip).2.StopsOnce := by
  have hstops : (w.retire ip).2.stops = ip.id :: w.stops := rfl
  refine ⟨?_, ?_⟩
  · rw [hstops]
    refine List.nodup_cons.mpr ⟨fun hmem => ?_, h.nodup⟩
    obtain ⟨position, hstopped⟩ := exists_of_mem_stops hmem
    exact (hbooks.buried ip.id position hstopped).2 ip (by simp) halive rfl
  · rw [hstops, List.length_cons, ← h.counted]
    rfl

end World

theorem Deeds.stopsOnce {ip ip' : Pointer} {w w' : World} {had yet : List Pointer}
    (h : Deeds ip w ip' w') (halive : ip.alive = true) (hbooks : w.Books (had ++ ip :: yet))
    (honce : w.StopsOnce) : w'.StopsOnce := by
  induction h with
  | start => exact honce
  | errand _ _ _ hw _ ih => exact ih.of_eq hw.stops (by rw [hw.tally])
  | split _ ih => exact ih.of_eq (World.stops_cons rfl rfl) rfl
  | stop hbefore ha ih => exact ih.stop (hbefore.books halive hbooks) (ha.trans halive)
  | quit _ _ ih => exact ih.of_eq (World.stops_cons rfl rfl) rfl

namespace World

theorem StopsOnce.turn {w : World} {had yet : List Pointer} {ip : Pointer} (honce : w.StopsOnce)
    (hbooks : w.Books (had ++ ip :: yet)) (halive : ip.alive = true) :
    (w.perform ip).world.StopsOnce := by
  have hturn := w.perform_turn ip
  generalize w.perform ip = r at hturn
  cases hturn with
  | broken f hdeeds => exact hdeeds.stopsOnce halive hbooks honce
  | recorded record pauses fault hdeeds _ _ =>
      exact (hdeeds.stopsOnce halive hbooks honce).of_eq (stops_cons rfl rfl) rfl

/-- In a round of living pointers each stops at most once. -/
theorem StopsOnce.round {w : World} {ps : List Pointer} (honce : w.StopsOnce)
    (hbooks : w.Books ps) (halive : ∀ ip ∈ ps, ip.alive = true) :
    (w.round ps).world.StopsOnce := by
  obtain ⟨done, yet, ⟨-, -, honce'⟩, -⟩ :=
    round_preserves
      (P := fun had yet w _ =>
        w.Books (had ++ yet) ∧ (∀ ip ∈ yet, ip.alive = true) ∧ w.StopsOnce)
      (fun had ip yet w h => by
        obtain ⟨hbooks, hyet, honce⟩ := h
        have hip := hyet ip List.mem_cons_self
        refine ⟨?_, fun q hq => hyet q (List.mem_cons_of_mem _ hq), honce.turn hbooks hip⟩
        rw [List.append_assoc]
        exact hbooks.turn hip)
      ps [] w ⟨hbooks, halive, honce⟩
  exact honce'

end World

/-! ## Stopped pointers in a round -/

/-- Some of the pointers have stopped. -/
def SomeStopped (ps : List Pointer) : Prop := ∃ ip ∈ ps, ip.alive = false

/-- What a pointer does leaves it as alive as it was, or stops it and counts that. -/
theorem Deeds.retired {ip ip' : Pointer} {w w' : World} (h : Deeds ip w ip' w') :
    ip'.alive = ip.alive ∧ w'.tally.retired = w.tally.retired ∨
      ip'.alive = false ∧ w.tally.retired < w'.tally.retired := by
  induction h with
  | start => exact .inl ⟨rfl, rfl⟩
  | errand _ _ ha hw _ ih =>
      rw [ha, hw.tally]
      exact ih
  | split _ ih => exact ih
  | @stop ip₁ w₁ _ _ ih =>
      have hcount : (w₁.retire ip₁).2.tally.retired = w₁.tally.retired + 1 := rfl
      refine .inr ⟨rfl, ?_⟩
      rcases ih with ⟨-, heq⟩ | ⟨-, hlt⟩ <;> omega
  | quit _ _ ih => exact ih

/-- Pointers that are made are alive. -/
theorem Deeds.spawned_alive {ip ip' : Pointer} {w w' : World} (h : Deeds ip w ip' w')
    (halive : ∀ child ∈ w.spawned, child.alive = true) :
    ∀ child ∈ w'.spawned, child.alive = true := by
  induction h with
  | start => exact halive
  | errand _ _ _ hw _ ih => exact hw.spawned ▸ ih
  | split _ ih => exact List.forall_mem_cons.mpr ⟨World.child_alive _ _, ih⟩
  | stop _ _ ih => exact ih
  | quit _ _ ih => exact ih

namespace World

/-- A turn is made of deeds, as far as the pointer and the counts of pointers go. -/
theorem perform_retired (w : World) (ip : Pointer) :
    (w.perform ip).pointer.alive = ip.alive ∧
        (w.perform ip).world.tally.retired = w.tally.retired ∨
      (w.perform ip).pointer.alive = false ∧
        w.tally.retired < (w.perform ip).world.tally.retired := by
  have hturn := w.perform_turn ip
  generalize w.perform ip = r at hturn
  cases hturn with
  | broken f hdeeds => exact hdeeds.retired
  | recorded record pauses fault hdeeds _ _ => exact hdeeds.retired

theorem perform_spawned_alive {w : World} (ip : Pointer)
    (h : ∀ child ∈ w.spawned, child.alive = true) :
    ∀ child ∈ (w.perform ip).world.spawned, child.alive = true := by
  have hturn := w.perform_turn ip
  generalize w.perform ip = r at hturn
  cases hturn with
  | broken f hdeeds => exact hdeeds.spawned_alive h
  | recorded record pauses fault hdeeds _ _ => exact hdeeds.spawned_alive h

theorem round_spawned_alive {w : World} (ps : List Pointer)
    (h : ∀ child ∈ w.spawned, child.alive = true) :
    ∀ child ∈ (w.round ps).world.spawned, child.alive = true := by
  obtain ⟨_, _, hround, -⟩ :=
    round_preserves (P := fun _ _ w _ => ∀ child ∈ w.spawned, child.alive = true)
      (fun _ ip _ _ h => perform_spawned_alive ip h) ps [] w h
  exact hround

/-- A pointer that has stopped by the end of a round had stopped before, or the round counts it. -/
theorem someStopped_round_iff (w : World) (ps : List Pointer) :
    w.tally.retired ≤ (w.round ps).world.tally.retired ∧
      (SomeStopped (w.round ps).pointers ↔
        SomeStopped ps ∨ w.tally.retired < (w.round ps).world.tally.retired) := by
  -- the invariant is about the pointers that had their turns together with those to come
  obtain ⟨done, yet, ⟨hle, hiff⟩, hpointers, -⟩ :=
    round_preserves
      (P := fun had yet w' _ => w.tally.retired ≤ w'.tally.retired ∧
        (SomeStopped (had ++ yet) ↔ SomeStopped ps ∨ w.tally.retired < w'.tally.retired))
      (fun had ip yet w' h => by
        obtain ⟨hle, hiff⟩ := h
        simp only [SomeStopped, List.mem_append, List.mem_cons, List.not_mem_nil, or_false,
          or_and_right, exists_or, exists_eq_left] at hiff ⊢
        rcases w'.perform_retired ip with ⟨halive, heq⟩ | ⟨hdead, hlt⟩
        · rw [halive, heq]
          exact ⟨hle, by rw [or_assoc]; exact hiff⟩
        · refine ⟨by omega, ?_⟩
          have hlt' : w.tally.retired < (w'.perform ip).world.tally.retired := by omega
          simp [hdead, hlt'])
      ps [] w ⟨Nat.le_refl _, by simp⟩
  rw [hpointers]
  exact ⟨hle, hiff⟩

end World

/-! ## Ticks that break off -/

namespace Machine

/-- A fault ends the tick after a pointer has stopped in it. -/
structure BreaksOff (m : Machine) : Prop where
  faults : m.tick.1.isOk = false
  stops : m.world.tally.retired < m.tick.2.world.tally.retired

instance (m : Machine) : Decidable m.BreaksOff :=
  decidable_of_iff (m.tick.1.isOk = false ∧ m.world.tally.retired < m.tick.2.world.tally.retired)
    ⟨fun h => ⟨h.1, h.2⟩, fun h => ⟨h.faults, h.stops⟩⟩

/-- A machine that begins a tick began the one before. -/
theorem Begins.of_tick {m : Machine} (h : m.tick.2.Begins) : m.Begins := by
  have hrunning := h.running
  have hkind := m.tick_kind
  generalize m.tick = answer at hkind hrunning
  obtain ⟨result, m'⟩ := answer
  cases hkind with
  | idle hstatus => exact absurd hrunning hstatus
  | exhausted _ _ _ => cases hrunning
  | broken _ hbegins _ => exact hbegins
  | ended hbegins _ => exact hbegins
  | emptied hbegins _ _ => exact hbegins
  | settled hbegins _ _ => exact hbegins

theorem Tick.spawned_alive {m m' : Machine} {result : Except Fault Bool} (h : m.Tick result m')
    (halive : ∀ child ∈ m.world.spawned, child.alive = true) :
    ∀ child ∈ m'.world.spawned, child.alive = true := by
  cases h with
  | idle _ => exact halive
  | exhausted _ _ _ => exact halive
  | broken _ _ _ => exact World.round_spawned_alive m.pointers (w := m.world.countTick) halive
  | ended _ _ => exact List.forall_mem_nil _
  | emptied _ _ _ => exact List.forall_mem_nil _
  | settled _ _ _ => exact List.forall_mem_nil _

/-- A stopped pointer is handed on by a tick that breaks off, and by no other. -/
theorem someStopped_tick_iff {m : Machine} (halive : ∀ child ∈ m.world.spawned, child.alive = true)
    (h : m.tick.2.Begins) :
    SomeStopped m.tick.2.pointers ↔
      m.BreaksOff ∨ m.tick.1.isOk = false ∧ SomeStopped m.pointers := by
  have hrunning := h.running
  have hbreaks : m.BreaksOff ↔
      m.tick.1.isOk = false ∧ m.world.tally.retired < m.tick.2.world.tally.retired :=
    ⟨fun h => ⟨h.faults, h.stops⟩, fun h => ⟨h.1, h.2⟩⟩
  have hkind := m.tick_kind
  rw [hbreaks]
  generalize m.tick = answer at hkind hrunning
  obtain ⟨result, m'⟩ := answer
  cases hkind with
  | idle hstatus => exact absurd hrunning hstatus
  | exhausted _ _ _ => cases hrunning
  | ended _ hending => exact absurd hrunning (World.status_of_round_ended hending)
  | emptied _ _ _ => cases hrunning
  | broken f _ _ =>
      have hround := (m.world.countTick.someStopped_round_iff m.pointers).2
      refine hround.trans ⟨?_, ?_⟩
      · rintro (hstopped | hlt)
        · exact .inr ⟨rfl, hstopped⟩
        · exact .inl ⟨rfl, hlt⟩
      · rintro (⟨-, hlt⟩ | ⟨-, hstopped⟩)
        · exact .inr hlt
        · exact .inl hstopped
  | settled _ _ _ =>
      constructor
      · rintro ⟨ip, hip, hdead⟩
        rcases List.mem_append.mp hip with hip | hip
        · have hlive := (List.mem_filter.mp hip).2
          rw [hdead] at hlive
          cases hlive
        · have hlive := World.round_spawned_alive m.pointers (w := m.world.countTick) halive ip
            (List.mem_reverse.mp hip)
          rw [hdead] at hlive
          cases hlive
      · rintro (⟨hfault, -⟩ | ⟨hfault, -⟩) <;> cases hfault

/-- There is a stopped pointer among those that are to have their turns exactly where a tick broke
off after a pointer had stopped, and all ticks since ended in faults. -/
theorem someStopped_after_iff {m : Machine} (halive : ∀ ip ∈ m.pointers, ip.alive = true)
    (hspawned : ∀ child ∈ m.world.spawned, child.alive = true) (n : Nat) :
    (m.after n).Begins → (SomeStopped (m.after n).pointers ↔ ∃ i < n, (m.after i).BreaksOff ∧
      ∀ j, i < j → j < n → (m.after j).tick.1.isOk = false) := by
  induction n with
  | zero =>
      intro _
      refine ⟨fun ⟨ip, hip, hdead⟩ => ?_, fun ⟨i, hi, _⟩ => absurd hi (Nat.not_lt_zero i)⟩
      rw [after_zero] at hip
      rw [halive ip hip] at hdead
      cases hdead
  | succ n ih =>
      intro hbegins
      rw [after_succ] at hbegins ⊢
      have hchildren : ∀ child ∈ (m.after n).world.spawned, child.alive = true :=
        after_preserves (P := fun m => ∀ child ∈ m.world.spawned, child.alive = true) hspawned
          (fun _ _ _ htick h => htick.spawned_alive h) n
      rw [someStopped_tick_iff hchildren hbegins, ih hbegins.of_tick]
      constructor
      · rintro (hbreaks | ⟨hfault, i, hi, hbreaks, hsince⟩)
        · exact ⟨n, Nat.lt_succ_self n, hbreaks, fun j hj hjn => by omega⟩
        · refine ⟨i, Nat.lt_succ_of_lt hi, hbreaks, fun j hj hjn => ?_⟩
          rcases Nat.lt_succ_iff_lt_or_eq.mp hjn with hjn | rfl
          · exact hsince j hj hjn
          · exact hfault
      · -- a tick that broke off earlier has its stopped pointers handed on by the fault of this one
        rintro ⟨i, hi, hbreaks, hsince⟩
        rcases Nat.lt_succ_iff_lt_or_eq.mp hi with hi | rfl
        · exact .inr ⟨hsince n hi (Nat.lt_succ_self n), i, hi, hbreaks,
            fun j hj hjn => hsince j hj (Nat.lt_succ_of_lt hjn)⟩
        · exact .inl hbreaks

/-! ## Runs -/

/-- The books of a tick that all pointers had their turns in, once those that stopped are gone. -/
theorem left_books {m : Machine} (h : m.turns.world.Books m.turns.pointers) :
    (m.turns.world.countPointers m.left).Books m.left := by
  have hsub := m.left_sublist
  have halive := left_alive h
  have hids : (m.turns.world.countPointers m.left).ids m.left = m.left.map (·.id) := by
    simp [World.ids, World.countPointers]
  refine ⟨?_, ?_, h.numbers, List.forall_mem_nil _, ?_, h.exit, h.quit, ?_⟩
  · rw [hids]
    exact List.Pairwise.sublist (hsub.map _) h.ascending
  · rw [hids]
    intro id hid
    exact h.below id ((hsub.map _).subset hid)
  · have hlength := left_length h
    have hcount : m.left.countP (·.alive) = m.left.length := List.countP_eq_length.mpr halive
    rw [hcount]
    exact hlength
  · intro id position hstopped
    obtain ⟨hlt, hdead⟩ := h.buried id position hstopped
    refine ⟨hlt, fun q hq hlive => ?_⟩
    rw [show (m.turns.world.countPointers m.left).spawned = [] from rfl, List.reverse_nil,
      List.append_nil] at hq
    exact hdead q (hsub.subset hq) hlive

/-- Stops are counted once, and the books of a machine that is running are in order. -/
structure Accounted (m : Machine) : Prop where
  once : m.world.StopsOnce
  books : m.world.status = .running → m.world.Books m.pointers

/-- Accounts are kept by every tick that is begun with living pointers, also if it ends in a
fault. -/
theorem Tick.accounted {m m' : Machine} {result : Except Fault Bool} (h : m.Tick result m')
    (haccounted : m.Accounted) (halive : m.Begins → ∀ ip ∈ m.pointers, ip.alive = true) :
    m'.Accounted := by
  have hbooks (hbegins : m.Begins) : m.turns.world.Books m.turns.pointers :=
    (haccounted.books hbegins.running).countTick.round (halive hbegins)
  have honce (hbegins : m.Begins) : m.turns.world.StopsOnce :=
    (show m.world.countTick.StopsOnce from haccounted.once.of_eq rfl rfl).round
      (haccounted.books hbegins.running).countTick (halive hbegins)
  cases h with
  | idle _ => exact haccounted
  | exhausted _ _ _ =>
      refine ⟨haccounted.once.of_eq (World.stops_cons rfl rfl) rfl, fun hrunning => ?_⟩
      cases hrunning
  | broken _ hbegins _ => exact ⟨honce hbegins, fun _ => hbooks hbegins⟩
  | ended hbegins hending =>
      refine ⟨(honce hbegins).of_eq rfl rfl, fun hrunning => ?_⟩
      exact absurd hrunning (World.status_of_round_ended hending)
  | emptied hbegins _ _ =>
      refine ⟨(honce hbegins).of_eq rfl rfl, fun hrunning => ?_⟩
      cases hrunning
  | settled hbegins _ _ =>
      exact ⟨(honce hbegins).of_eq rfl rfl, fun _ => left_books (hbooks hbegins)⟩

/-- The pointer `ip` has a turn in the next tick. -/
structure HasTurn (m : Machine) (ip : Pointer) : Prop where
  begins : m.Begins
  reached : ∃ before, before ++ [ip] <+: m.pointers ∧
    (m.world.countTick.round before).ending = .complete

theorem HasTurn.mem {m : Machine} {ip : Pointer} (h : m.HasTurn ip) : ip ∈ m.pointers := by
  obtain ⟨before, hbefore, -⟩ := h.reached
  exact hbefore.subset (by simp)

theorem alive_of_not_breaksOff {m : Machine} (halive : ∀ ip ∈ m.pointers, ip.alive = true)
    (hspawned : ∀ child ∈ m.world.spawned, child.alive = true) {n : Nat}
    (h : ∀ i < n, ¬ (m.after i).BreaksOff) (hbegins : (m.after n).Begins) :
    ∀ ip ∈ (m.after n).pointers, ip.alive = true := by
  intro ip hip
  by_contra hdead
  have hstopped : SomeStopped (m.after n).pointers := ⟨ip, hip, by simpa using hdead⟩
  obtain ⟨i, hi, hbreaks, -⟩ := (someStopped_after_iff halive hspawned n hbegins).mp hstopped
  exact h i hi hbreaks

theorem accounted_after {m : Machine} (hstart : m.Accounted)
    (halive : ∀ ip ∈ m.pointers, ip.alive = true)
    (hspawned : ∀ child ∈ m.world.spawned, child.alive = true) {n : Nat}
    (h : ∀ i < n, ¬ (m.after i).BreaksOff) : (m.after n).Accounted := by
  induction n with
  | zero => exact hstart
  | succ n ih =>
      have hbefore : ∀ i < n, ¬ (m.after i).BreaksOff := fun i hi => h i (Nat.lt_succ_of_lt hi)
      rw [after_succ]
      exact (m.after n).tick_kind.accounted (ih hbefore)
        (alive_of_not_breaksOff halive hspawned hbefore)

theorem load_accounted (setup : Setup) (source : Source) (console : Console) :
    (setup.load source console).Accounted := by
  have hnone : (setup.load source console).world.stops = [] := by
    refine List.filterMap_eq_nil_iff.mpr fun e he => ?_
    have hloader := source.load_channel e he
    cases e with
    | stopped id position => cases hloader
    | _ => rfl
  refine ⟨⟨?_, ?_⟩, (load_orderly setup source console).books⟩
  · rw [hnone]
    exact List.nodup_nil
  · rw [hnone]
    rfl

/-- What becomes of pointers that stop. -/
structure Retires (m : Machine) : Prop where
  /-- They are among the pointers of a later tick only by ticks that broke off. -/
  lingers : ∀ n, (m.after n).Begins →
    (SomeStopped (m.after n).pointers ↔ ∃ i < n, (m.after i).BreaksOff ∧
      ∀ j, i < j → j < n → (m.after j).tick.1.isOk = false)
  /-- Up to the first such tick none of them has a turn. -/
  rests : ∀ n, (∀ i < n, ¬ (m.after i).BreaksOff) →
    ∀ i ≤ n, ∀ ip, (m.after i).HasTurn ip → ip.alive = true
  /-- Up to the first such tick none of them is counted twice. -/
  once : ∀ n, (∀ i < n, ¬ (m.after i).BreaksOff) → (m.after n).world.StopsOnce

/-- In every program the pointers that stopped do nothing more and are counted once, also across
ticks that end in faults, as long as no tick breaks off after a pointer has stopped in it. -/
theorem stopped_pointers_rest (setup : Setup) (source : Source) (console : Console) :
    (setup.load source console).Retires := by
  have halive := (load_orderly setup source console).alive
  have hspawned : ∀ child ∈ (setup.load source console).world.spawned, child.alive = true :=
    List.forall_mem_nil _
  refine ⟨someStopped_after_iff halive hspawned, fun n h i hi ip hturn => ?_, fun n h => ?_⟩
  · have hbefore : ∀ j < i, ¬ ((setup.load source console).after j).BreaksOff :=
      fun j hj => h j (Nat.lt_of_lt_of_le hj hi)
    exact alive_of_not_breaksOff halive hspawned hbefore hturn.begins ip hturn.mem
  · exact (accounted_after (load_accounted setup source console) halive hspawned h).once

/-- A fault in a tick in which no pointer stops does no harm to the count. -/
theorem stopped_pointers_rest_after_fault :
    (Setup.load { clock := ⟨2000, 1, 1, 0, 0, 0⟩ } (.text "&@")
      { input := .ofText ['²'] }).tick.1.isOk = false ∧
    ((Setup.load { clock := ⟨2000, 1, 1, 0, 0, 0⟩ } (.text "&@")
      { input := .ofText ['²'] }).after 3).world.stops = [0] ∧
    ((Setup.load { clock := ⟨2000, 1, 1, 0, 0, 0⟩ } (.text "&@")
      { input := .ofText ['²'] }).after 3).world.StopsOnce :=
  ⟨by decide +kernel, by decide +kernel,
    (stopped_pointers_rest _ _ _).once 3 (by decide +kernel)⟩

/-- The first pointer stops and the second one runs into a fault.  In the next tick the first one
has a turn again, and is counted as retired again. -/
theorem stopped_pointer_runs_again :
    ((Setup.load { clock := ⟨2000, 1, 1, 0, 0, 0⟩ } (.text "t@&")
      { input := .ofText ['²'] }).after 1).BreaksOff ∧
    (∃ ip, ((Setup.load { clock := ⟨2000, 1, 1, 0, 0, 0⟩ } (.text "t@&")
      { input := .ofText ['²'] }).after 2).HasTurn ip ∧ ip.alive = false) ∧
    ((Setup.load { clock := ⟨2000, 1, 1, 0, 0, 0⟩ } (.text "t@&")
      { input := .ofText ['²'] }).after 3).world.stops = [0, 0] ∧
    ((Setup.load { clock := ⟨2000, 1, 1, 0, 0, 0⟩ } (.text "t@&")
      { input := .ofText ['²'] }).after 3).world.tally.retired = 2 := by
  refine ⟨by decide +kernel, ?_, by decide +kernel, by decide +kernel⟩
  have hbegins : ((Setup.load { clock := ⟨2000, 1, 1, 0, 0, 0⟩ } (.text "t@&")
      { input := .ofText ['²'] }).after 2).Begins := ⟨by decide +kernel, by decide +kernel⟩
  have halive : ((Setup.load { clock := ⟨2000, 1, 1, 0, 0, 0⟩ } (.text "t@&")
      { input := .ofText ['²'] }).after 2).pointers.map (·.alive) = [false, true] := by
    decide +kernel
  generalize (Setup.load _ _ _).after 2 = m at hbegins halive
  obtain ⟨ip, rest, hpointers, hdead, -⟩ := List.map_eq_cons_iff.mp halive
  exact ⟨ip, ⟨hbegins, [], ⟨rest, hpointers.symm⟩, rfl⟩, hdead⟩

end Machine

end Befunge
