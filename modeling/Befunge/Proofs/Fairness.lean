import Befunge.Proofs.Journal
import Befunge.Proofs.Scheduling

/-!
# Every pointer has its turn

In every tick each pointer that is alive has one turn, in the order of their numbers, until
one of them ends the program.  The trace shows this.  `Machine.Tick.reports` tells what one
tick adds to it, and `Machine.Since` what later ticks leave of it, so that the records of a
tick can be read off from the trace at any later moment.

`Machine.Fair` puts together what can be read off, and `Machine.after_fair` shows it for
every program and any number of ticks without faults.
-/

namespace Befunge

/-- Records are ordered by ticks, and in a tick by the numbers of the pointers. -/
def TraceRecord.Before (r s : TraceRecord) : Prop :=
  r.tick < s.tick ∨ r.tick = s.tick ∧ r.id < s.id

namespace Machine

/-! ## What a tick adds to the trace -/

theorem trace_append {m m' : Machine} {news : List Event}
    (h : m'.world.journal = news ++ m.world.journal) :
    m'.trace = m.trace ++ Event.records news := by
  have htrace : m'.trace = Event.records m'.world.journal := rfl
  rw [htrace, h, Event.records_append]
  rfl

/-- The pointers with the numbers `who` have the turns of the next tick: all pointers, or those
up to the one that ends the program. -/
structure Serves (m : Machine) (who : List Int) : Prop where
  initial : who <+: m.pointers.map (·.id)
  everyone :
    (∀ before halter, ¬ m.world.countTick.HaltedBy m.pointers before halter) →
    who = m.pointers.map (·.id)
  halted : ∀ before halter, m.world.countTick.HaltedBy m.pointers before halter →
    who = (before ++ [halter]).map (·.id)

theorem turns_reports (m : Machine) (h : m.turns.ending.fault = none) :
    ∃ who news, m.world.countTick.Reports m.turns.world who news ∧ m.Serves who := by
  obtain ⟨who, news, hreports, hinitial, hcomplete⟩ := World.round_reports _ m.pointers h
  refine ⟨who, news, hreports, hinitial, fun hnone => ?_, fun before halter hby => ?_⟩
  · cases hending : m.turns.ending with
    | complete => exact hcomplete hending
    | ended =>
        obtain ⟨before, halter, hby⟩ := World.exists_haltedBy _ _ hending
        exact absurd hby (hnone before halter)
    | faulted f =>
        rw [hending] at h
        cases h
  · obtain ⟨news', hreports'⟩ := hby.reports h
    exact hreports.unique hreports'

/-- A tick that is begun tells what its turns tell. -/
theorem Tick.reports {m m' : Machine} {running : Bool} (htick : m.Tick (.ok running) m')
    (hbegins : m.Begins) :
    ∃ who news, m.world.countTick.Reports m'.world who news ∧ m.Serves who := by
  have hkept : m.turns.ending.fault = none ∧ m'.world.journal = m.turns.world.journal ∧
      m'.world.nextId = m.turns.world.nextId ∧
      m'.world.tally.ticks = m.turns.world.tally.ticks ∧
      m'.world.tally.instructions = m.turns.world.tally.instructions := by
    cases htick with
    | idle hstatus => exact absurd hbegins.running hstatus
    | exhausted _ _ hspent =>
        rw [hbegins.unspent] at hspent
        cases hspent
    | ended _ hending => exact ⟨by rw [hending, RoundEnd.fault], rfl, rfl, rfl, rfl⟩
    | emptied _ hending _ => exact ⟨by rw [hending, RoundEnd.fault], rfl, rfl, rfl, rfl⟩
    | settled _ hending _ => exact ⟨by rw [hending, RoundEnd.fault], rfl, rfl, rfl, rfl⟩
  obtain ⟨hsmooth, hjournal, hnextId, hticks, hinstructions⟩ := hkept
  obtain ⟨who, news, h, hturns⟩ := m.turns_reports hsmooth
  refine ⟨who, news, ⟨⟨?_, ?_, ?_, h.spawned, h.present, ?_⟩, h.recorded, h.stopped⟩, hturns⟩
  · rw [hjournal, h.journal]
  · rw [hticks, h.ticks]
  · rw [hnextId]
    exact h.nextId
  · rw [hinstructions, h.instructions]

/-- What a tick adds to the trace, whether or not it is begun. -/
structure Adds (m m' : Machine) (news : List Event) : Prop where
  journal : m'.world.journal = news ++ m.world.journal
  ticks : m.world.tally.ticks ≤ m'.world.tally.ticks
  instructions : m'.world.tally.instructions =
    m.world.tally.instructions + (Event.records news).length
  initial : (Event.records news).map (·.id) <+: m.pointers.map (·.id)
  recent : ∀ r ∈ Event.records news, m.Begins ∧ r.tick = m.world.tally.ticks + 1 ∧
    m'.world.tally.ticks = m.world.tally.ticks + 1

theorem Tick.adds {m m' : Machine} {running : Bool} (htick : m.Tick (.ok running) m') :
    ∃ news, m.Adds m' news := by
  by_cases hbegins : m.Begins
  · obtain ⟨who, news, h, hserves⟩ := htick.reports hbegins
    have hticks : m'.world.tally.ticks = m.world.tally.ticks + 1 := h.ticks
    refine ⟨news, h.journal, by omega, h.instructions, ?_, fun r hr => ?_⟩
    · rw [h.recorded]
      exact hserves.initial
    · exact ⟨hbegins, h.present r hr, hticks⟩
  · cases htick with
    | idle _ => exact ⟨[], rfl, Nat.le_refl _, rfl, List.nil_prefix, by simp [Event.records]⟩
    | exhausted maxTicks _ _ =>
        exact ⟨[.exhausted maxTicks], rfl, Nat.le_refl _, rfl, List.nil_prefix,
          by simp [Event.records, Event.record?]⟩
    | ended h _ => exact absurd h hbegins
    | emptied h _ _ => exact absurd h hbegins
    | settled h _ _ => exact absurd h hbegins

/-! ## What can be said of a trace between ticks -/

/-- A machine whose trace is in order, up to its last tick and with every record counted. -/
structure Chronicled (m : Machine) : Prop where
  ordered : m.trace.Pairwise TraceRecord.Before
  past : ∀ r ∈ m.trace, r.tick ≤ m.world.tally.ticks
  counted : m.world.tally.instructions = m.trace.length

/-- What is added to the trace of an orderly machine is in order. -/
theorem Adds.ordered {m m' : Machine} {news : List Event} (h : m.Adds m' news)
    (horderly : m.Orderly) : (Event.records news).Pairwise TraceRecord.Before := by
  have hids : ((Event.records news).map (·.id)).Pairwise (· < ·) :=
    (List.pairwise_map.mpr horderly.ascending).sublist h.initial.sublist
  refine (List.pairwise_map.mp hids).imp_of_mem fun hr hs hlt => ?_
  exact .inr ⟨(h.recent _ hr).2.1.trans (h.recent _ hs).2.1.symm, hlt⟩

theorem Adds.chronicled {m m' : Machine} {news : List Event} (h : m.Adds m' news)
    (horderly : m.Orderly) (hm : m.Chronicled) : m'.Chronicled := by
  have htrace := trace_append h.journal
  refine ⟨?_, ?_, ?_⟩
  · rw [htrace]
    refine List.pairwise_append.mpr ⟨hm.ordered, h.ordered horderly, fun r hr s hs => .inl ?_⟩
    have hpast := hm.past r hr
    have hrecent := (h.recent s hs).2.1
    omega
  · rw [htrace]
    intro r hr
    rcases List.mem_append.mp hr with hr | hr
    · exact (hm.past r hr).trans h.ticks
    · rw [(h.recent r hr).2.1, (h.recent r hr).2.2]
  · rw [htrace, List.length_append, h.instructions, hm.counted]

/-- What is left of the trace of a machine at a later moment: all of it, and what comes after
it is of later ticks and of pointers that were not stopped before. -/
structure Since (m m' : Machine) : Prop where
  journal : m.world.journal <:+ m'.world.journal
  ticks : m.world.tally.ticks ≤ m'.world.tally.ticks
  later : ∃ later, m'.trace = m.trace ++ later ∧ ∀ r ∈ later, m.world.tally.ticks < r.tick ∧
    ∀ position, .stopped r.id position ∉ m.world.journal

theorem Since.refl (m : Machine) : m.Since m :=
  ⟨List.suffix_rfl, Nat.le_refl _, [], (List.append_nil _).symm, by simp⟩

theorem Since.adds {m m₁ m₂ : Machine} {news : List Event} (h : m.Since m₁)
    (horderly : m₁.Orderly) (hadds : m₁.Adds m₂ news) : m.Since m₂ := by
  obtain ⟨later, htrace, hlater⟩ := h.later
  refine ⟨?_, h.ticks.trans hadds.ticks, later ++ Event.records news, ?_, fun r hr => ?_⟩
  · rw [hadds.journal]
    exact h.journal.trans (List.suffix_append _ _)
  · rw [trace_append hadds.journal, htrace, List.append_assoc]
  · rcases List.mem_append.mp hr with hr | hr
    · exact hlater r hr
    · refine ⟨?_, fun position hstopped => ?_⟩
      · have hticks := h.ticks
        have hrecent := (hadds.recent r hr).2.1
        omega
      · obtain ⟨ip, hip, hid⟩ :=
          List.mem_map.mp (hadds.initial.subset (List.mem_map_of_mem hr))
        have hgone := (horderly.buried r.id position (h.journal.subset hstopped)).2
        exact hgone ip hip hid

/-! ## Runs -/

/-- The numbers of the pointers that have records of a tick, in the order of the records. -/
def recordedIn (m : Machine) (tick : Nat) : List Int :=
  (m.trace.filter (·.tick = tick)).map (·.id)

/-- The records of a tick are found again in the trace at any later moment. -/
theorem recordedIn_of_since {m m₁ m₂ : Machine} {who : List Int} {news : List Event}
    (hm : m.Chronicled) (h : m.world.countTick.Reports m₁.world who news)
    (hsince : m₁.Since m₂) : m₂.recordedIn (m.world.tally.ticks + 1) = who := by
  have hticks : m₁.world.tally.ticks = m.world.tally.ticks + 1 := h.ticks
  obtain ⟨later, htrace, hlater⟩ := hsince.later
  have hpast : m.trace.filter (·.tick = m.world.tally.ticks + 1) = [] := by
    refine List.filter_eq_nil_iff.mpr fun r hr => ?_
    have hle := hm.past r hr
    simp only [decide_eq_true_eq]
    omega
  have hpresent : (Event.records news).filter (·.tick = m.world.tally.ticks + 1) =
      Event.records news :=
    List.filter_eq_self.mpr fun r hr => decide_eq_true (h.present r hr)
  have hrest : later.filter (·.tick = m.world.tally.ticks + 1) = [] := by
    refine List.filter_eq_nil_iff.mpr fun r hr => ?_
    have hlt := (hlater r hr).1
    simp only [decide_eq_true_eq]
    omega
  rw [recordedIn, htrace, trace_append h.journal, List.filter_append, List.filter_append, hpast,
    hpresent, hrest, List.nil_append, List.append_nil, h.recorded]

/-- What the trace after `n` ticks shows of tick `i + 1`, which is the one that begins after
`i` ticks. -/
structure FairTick (m : Machine) (n i : Nat) : Prop where
  alive : ∀ ip ∈ (m.after i).pointers, ip.alive = true
  serves : (m.after i).Serves ((m.after n).recordedIn (i + 1))
  /-- Pointers that were made in this tick had no turn in it, and pointers that stopped in it
  had a turn in it and have none in a later one. -/
  news : ∃ news, (m.after (i + 1)).world.journal = news ++ (m.after i).world.journal ∧
    (∀ parent child position, .spawned parent child position ∈ news →
      child ∉ (m.after n).recordedIn (i + 1)) ∧
    ∀ id position, .stopped id position ∈ news → id ∈ (m.after n).recordedIn (i + 1) ∧
      ∀ r ∈ (m.after n).trace, r.id = id → r.tick ≤ i + 1

/-- What the trace after `n` ticks shows. -/
structure Fair (m : Machine) (n : Nat) : Prop where
  ordered : (m.after n).trace.Pairwise TraceRecord.Before
  counted : (m.after n).world.tally.instructions = (m.after n).trace.length
  /-- Every record is of a tick that was begun. -/
  begun : ∀ r ∈ (m.after n).trace, ∃ i < n, (m.after i).Begins ∧ r.tick = i + 1
  ticks : ∀ i < n, (m.after i).Begins → m.FairTick n i

/-- The ticks of a machine that is running are counted from the first one on. -/
theorem Smooth.ticks {m : Machine} {n : Nat} (h : m.Smooth n) (hstart : m.world.tally.ticks = 0)
    (hrunning : (m.after n).world.status = .running) : (m.after n).world.tally.ticks = n := by
  induction n with
  | zero => exact hstart
  | succ n ih =>
      obtain ⟨running, htick⟩ := h.tick (Nat.lt_succ_self n)
      by_cases hbegins : (m.after n).Begins
      · obtain ⟨who, news, hreports, -⟩ := htick.reports hbegins
        have hticks := ih (h.mono (Nat.le_succ n)) hbegins.running
        exact hreports.ticks.trans (congrArg (· + 1) hticks)
      · -- a tick that is not begun leaves a machine that is not running
        generalize m.after (n + 1) = m' at htick hrunning
        cases htick with
        | idle hstatus => exact absurd hrunning hstatus
        | exhausted maxTicks _ _ => cases hrunning
        | ended h _ => exact absurd h hbegins
        | emptied h _ _ => exact absurd h hbegins
        | settled h _ _ => exact absurd h hbegins

section

variable {m : Machine} {n : Nat}

theorem Smooth.chronicled (h : m.Smooth n) (horderly : m.Orderly) (hstart : m.Chronicled)
    {i : Nat} (hi : i ≤ n) : (m.after i).Chronicled :=
  ((h.mono hi).preserves (P := fun m => m.Orderly ∧ m.Chronicled) ⟨horderly, hstart⟩
    (fun _ _ _ htick h => by
      obtain ⟨news, hadds⟩ := htick.adds
      exact ⟨htick.orderly h.1, hadds.chronicled h.1 h.2⟩)).2

theorem Smooth.since (h : m.Smooth n) (hstart : m.Orderly) {i : Nat} (hi : i ≤ n) :
    (m.after i).Since (m.after n) := by
  induction n with
  | zero =>
      obtain rfl : i = 0 := Nat.le_zero.mp hi
      exact .refl _
  | succ n ih =>
      rcases Nat.lt_or_eq_of_le hi with hlt | rfl
      · obtain ⟨running, htick⟩ := h.tick (Nat.lt_succ_self n)
        obtain ⟨news, hadds⟩ := htick.adds
        exact (ih (h.mono (Nat.le_succ n)) (Nat.le_of_lt_succ hlt)).adds
          (h.orderly hstart (Nat.le_succ n)) hadds
      · exact .refl _

theorem Smooth.begun (h : m.Smooth n) (hticks : m.world.tally.ticks = 0) (htrace : m.trace = []) :
    ∀ r ∈ (m.after n).trace, ∃ i < n, (m.after i).Begins ∧ r.tick = i + 1 := by
  induction n with
  | zero =>
      intro r hr
      rw [after_zero, htrace] at hr
      cases hr
  | succ n ih =>
      intro r hr
      obtain ⟨running, htick⟩ := h.tick (Nat.lt_succ_self n)
      obtain ⟨news, hadds⟩ := htick.adds
      rw [trace_append hadds.journal] at hr
      rcases List.mem_append.mp hr with hr | hr
      · obtain ⟨i, hi, hbegun⟩ := ih (h.mono (Nat.le_succ n)) r hr
        exact ⟨i, Nat.lt_succ_of_lt hi, hbegun⟩
      · obtain ⟨hbegins, htick, -⟩ := hadds.recent r hr
        refine ⟨n, Nat.lt_succ_self n, hbegins, ?_⟩
        rw [htick, (h.mono (Nat.le_succ n)).ticks hticks hbegins.running]

theorem Smooth.fairTick (h : m.Smooth n) (hticks : m.world.tally.ticks = 0)
    (horderly : m.Orderly) (hchronicled : m.Chronicled) {i : Nat} (hi : i < n)
    (hbegins : (m.after i).Begins) : m.FairTick n i := by
  obtain ⟨running, htick⟩ := h.tick hi
  obtain ⟨who, news, hreports, hserves⟩ := htick.reports hbegins
  have hcount := (h.mono hi.le).ticks hticks hbegins.running
  have hnext : i + 1 ≤ n := hi
  have hsince := h.since horderly hnext
  have hrecorded := recordedIn_of_since (h.chronicled horderly hchronicled hi.le) hreports hsince
  rw [hcount] at hrecorded
  refine ⟨(h.orderly horderly hi.le).alive, ?_, news, hreports.journal, ?_, ?_⟩
  · rw [hrecorded]
    exact hserves
  · intro parent child position hspawned hmem
    rw [hrecorded] at hmem
    obtain ⟨ip, hip, rfl⟩ := List.mem_map.mp (hserves.initial.subset hmem)
    have hnew : (m.after i).world.nextId ≤ ip.id := hreports.spawned parent ip.id position hspawned
    exact absurd ((h.orderly horderly hi.le).below ip hip) (Int.not_lt.mpr hnew)
  · intro id position hstopped
    refine ⟨by rw [hrecorded]; exact hreports.stopped id position hstopped, ?_⟩
    rintro r hr rfl
    obtain ⟨later, htrace, hlater⟩ := hsince.later
    rw [htrace] at hr
    rcases List.mem_append.mp hr with hr | hr
    · have hpast := (h.chronicled horderly hchronicled hnext).past r hr
      have hafter : (m.after (i + 1)).world.tally.ticks = (m.after i).world.tally.ticks + 1 :=
        hreports.ticks
      omega
    · refine absurd ?_ ((hlater r hr).2 position)
      rw [hreports.journal]
      exact List.mem_append_left _ hstopped

end

theorem load_trace (setup : Setup) (source : Source) (console : Console) :
    (setup.load source console).trace = [] := by
  refine Event.records_eq_nil fun e he hmachine => ?_
  have hloader := source.load_channel e he
  rw [hmachine] at hloader
  cases hloader

/-- After any number of ticks without faults the trace of every program shows that the pointers
had their turns. -/
theorem after_fair (setup : Setup) (source : Source) (console : Console) (n : Nat)
    (h : (setup.load source console).Smooth n) : (setup.load source console).Fair n := by
  have horderly := load_orderly setup source console
  have htrace := load_trace setup source console
  have hchronicled : (setup.load source console).Chronicled := by
    refine ⟨?_, ?_, ?_⟩
    · rw [htrace]
      exact .nil
    · simp [htrace]
    · rw [htrace]
      rfl
  have hafter := h.chronicled horderly hchronicled (Nat.le_refl n)
  exact ⟨hafter.ordered, hafter.counted, h.begun rfl htrace,
    fun i hi hbegins => h.fairTick rfl horderly hchronicled hi hbegins⟩

/-- Two pointers are made by a repetition, and the first of them ends the program before the
other one has its turn. -/
theorem after_fair_splitting :
    (Setup.load { clock := ⟨2000, 1, 1, 0, 0, 0⟩ } (.text "2ktz#@7q")
      { input := .ofText [] }).Smooth 4 ∧
    (Setup.load { clock := ⟨2000, 1, 1, 0, 0, 0⟩ } (.text "2ktz#@7q")
      { input := .ofText [] }).Fair 4 :=
  ⟨by decide +kernel, after_fair _ _ _ 4 (by decide +kernel)⟩

end Machine

end Befunge
