import Befunge.Session
import Befunge.Proofs.Acts
import Befunge.Proofs.Fairness
import Befunge.Proofs.Runs

/-!
# Sessions and runs

A session can be asked for single ticks and for rows of ticks, in any order, before its program
is run to the end.  Whatever was asked for, the program comes to the same end as in one run
(`Session.calls_complete_run`).

The invariant is `Session.Follows`.  A session that was asked for `n` ticks of a program holds
the machine after `n` ticks, and it is done if the program has ended by then.  Ticks that are
asked for after the end are not made, and would not have changed the machine.
-/

namespace Befunge

namespace Machine

/-- The machine with executed commands no longer shown. -/
def muted (m : Machine) : Machine :=
  { m with world := { m.world with config := { m.world.config with trace := false } } }

/-- Muting a machine is a veil. -/
theorem veiled_eq_muted (m : Machine) :
    m.veiled { maxTicks := m.world.config.maxTicks, mute := true } = m.muted := rfl

theorem Ends.final_eq {m final : Machine} {k : Nat} (h : m.Ends k final) :
    final = m.after (k + 1) := by
  rw [after_succ, h.ends]

theorem Ends.muted {m final : Machine} {k : Nat} (h : m.Ends k final) :
    m.muted.Ends k final.muted := by
  have hmuted := h.veiled (v := { maxTicks := m.world.config.maxTicks, mute := true })
    (.inl ⟨rfl, rfl⟩) rfl
  rw [veiled_eq_muted, ← m.after_config (k + 1), ← h.final_eq, veiled_eq_muted] at hmuted
  exact hmuted

/-- The first `k` ticks go on, the next one ends the program, and flushing what was written changes
nothing. -/
structure Closes (m : Machine) (k : Nat) (final : Machine) : Prop extends m.Ends k final where
  flush : final.flush = .ok final

/-- The trace of a program that comes to an end is only added to. -/
theorem Ends.trace_prefix {m final : Machine} {k : Nat} (h : m.Ends k final) (horderly : m.Orderly)
    {i n : Nat} (hi : i ≤ n) : (m.after i).trace <+: (m.after n).trace := by
  obtain ⟨later, htrace, -⟩ := ((h.smooth n).since horderly hi).later
  rw [htrace]
  exact List.prefix_append _ _

end Machine

/-! ## What is written -/

namespace Console

/-- An output that keeps what is written and can always be flushed. -/
structure Keeps (c : Console) : Prop where
  written : c.output.written.isSome
  flushes : c.output.flushes = none

theorem Keeps.of_output {c c' : Console} (h : c.Keeps) (houtput : c'.output = c.output) :
    c'.Keeps := by
  obtain ⟨hwritten, hflushes⟩ := h
  rw [← houtput] at hwritten hflushes
  exact ⟨hwritten, hflushes⟩

theorem nextLine_output {c : Console} (h : c.output.flushes = none) :
    c.nextLine.2.output = c.output := by
  simp only [nextLine, Output.flush_eq_self h]
  split <;> rfl

theorem readChar_output {c : Console} (h : c.output.flushes = none) :
    c.readChar.2.output = c.output := by
  have hfill : c.fill.2.output = c.output := by
    rw [fill]
    split
    · rfl
    · exact nextLine_output h
  rw [readChar]
  split
  next hfilled =>
    rw [hfilled] at hfill
    exact hfill
  next hfilled =>
    rw [hfilled] at hfill
    split <;> exact hfill

/-- The console that a search leaves. -/
def Search.console : Search → Console
  | .found _ c => c
  | .exhausted c => c
  | .failed _ c => c

theorem seekNumber_output (negative : Bool) (c : Console) (h : c.output.flushes = none) :
    (seekNumber negative c).console.output = c.output := by
  have hnext := nextLine_output h
  rw [seekNumber_step]
  split
  · rfl
  · split
    next hline =>
      rw [hline] at hnext
      exact hnext
    next next hline =>
      rw [hline] at hnext
      split
      · exact hnext
      next hsome =>
        have := length_lines_of_nextLine hline hsome
        exact (seekNumber_output _ next (by rw [hnext, h])).trans hnext
termination_by c.input.lines.length

theorem readInteger_output {c : Console} (h : c.output.flushes = none) :
    c.readInteger.2.output = c.output := by
  have hseek := seekNumber_output false c h
  rw [readInteger]
  split
  next hfound =>
    rw [hfound] at hseek
    exact hseek
  next hfound =>
    rw [hfound] at hseek
    exact hseek
  next hfound =>
    rw [hfound] at hseek
    split <;> exact hseek

theorem write_keeps {c : Console} {text : String} {output : Output} (h : c.Keeps)
    (hwrite : c.output.write text = .ok output) : Keeps { c with output } := by
  rw [Output.write] at hwrite
  split at hwrite
  · cases hwrite
  · cases hwrite
    exact ⟨by simpa using h.written, h.flushes⟩

theorem keeps_lasting : Console.Lasting Keeps :=
  .of_write (fun h => h.of_output (readChar_output h.flushes))
    (fun h => h.of_output (readInteger_output h.flushes)) write_keeps

end Console

/-! ## Sessions tick by tick -/

namespace Session

/-- What a session can be asked for while its program runs. -/
inductive Call where
  | tick
  | runTicks (n : Int)
deriving DecidableEq, Repr

/-- How many ticks are asked for. -/
def Call.ticks : Call → Nat
  | .tick => 1
  | .runTicks n => n.toNat

/-- Makes a call.  Gives the records it adds to the trace, which are the answer of `runTicks`. -/
def call (s : Session) : Call → Except Fault (List TraceRecord) × Session
  | .tick =>
      let (answer, after) := s.tick
      (answer.map fun _ => after.trace.drop s.trace.length, after)
  | .runTicks n => s.runTicks n.toNat

/-- Makes calls up to the first one that runs into a fault. -/
def calls (s : Session) : List Call → Except Fault (List (List TraceRecord)) × Session
  | [] => (.ok [], s)
  | c :: rest =>
      match s.call c with
      | (.error f, after) => (.error f, after)
      | (.ok told, after) =>
          let (answers, last) := after.calls rest
          (answers.map (told :: ·), last)

/-- The ticks that calls ask for. -/
def asked (calls : List Call) : Nat := (calls.map Call.ticks).sum

/-- A session that was asked for `n` ticks of a program, which ends after `k` ticks that go on. -/
structure Follows (s : Session) (m : Machine) (k n : Nat) : Prop where
  machine : s.machine = some (m.after n)
  phase : s.phase = if n ≤ k then .running else .done

theorem tick_of_running {s : Session} {m : Machine} (hphase : s.phase = .running)
    (hmachine : s.machine = some m) {running : Bool} (htick : m.tick.1 = .ok running)
    (hflush : running = false → m.tick.2.flush = .ok m.tick.2) :
    s.tick = (.ok running,
      { s with machine := some m.tick.2, phase := if running then .running else .done }) := by
  obtain ⟨setup, streams, machine, phase, past⟩ := s
  cases hphase
  cases hmachine
  simp only [tick]
  generalize m.tick = answer at htick hflush ⊢
  obtain ⟨result, m'⟩ := answer
  cases htick
  cases running with
  | true => rfl
  | false =>
      simp only [finish, hflush rfl]
      rfl

theorem tick_of_done {s : Session} (h : s.phase = .done) : s.tick = (.ok false, s) := by
  simp [tick, h]

namespace Follows

variable {s : Session} {m final : Machine} {k n : Nat}

theorem trace (h : s.Follows m k n) : s.trace = (m.after n).trace := by
  rw [Session.trace, h.machine]

/-- After its end a program is the same however many ticks were asked for. -/
theorem past_end (h : s.Follows m k n) (hends : m.Closes k final) (hn : k < n) {n' : Nat}
    (hn' : k < n') : s.Follows m k n' := by
  refine ⟨?_, ?_⟩
  · rw [h.machine, hends.after_eq hn, hends.after_eq hn']
  · rw [h.phase, if_neg (Nat.not_le.mpr hn), if_neg (Nat.not_le.mpr hn')]

theorem tick (h : s.Follows m k n) (hends : m.Closes k final) :
    s.tick.1 = .ok (decide (n < k)) ∧ s.tick.2.Follows m k (n + 1) := by
  rcases Nat.lt_or_ge k n with hn | hn
  · have hphase : s.phase = .done := by rw [h.phase, if_neg (Nat.not_le.mpr hn)]
    rw [tick_of_done hphase]
    exact ⟨by rw [decide_eq_false (Nat.lt_asymm hn)], h.past_end hends hn (Nat.lt_succ_of_lt hn)⟩
  · have hphase : s.phase = .running := by rw [h.phase, if_pos hn]
    have hflush (hlast : decide (n < k) = false) :
        (m.after n).tick.2.flush = .ok (m.after n).tick.2 := by
      obtain rfl : n = k := Nat.le_antisymm hn (Nat.not_lt.mp (of_decide_eq_false hlast))
      rw [hends.ends]
      exact hends.flush
    rw [tick_of_running hphase h.machine (hends.tick_answer n) hflush]
    refine ⟨rfl, ⟨by rw [Machine.after_succ], ?_⟩⟩
    simp only [decide_eq_true_eq, Nat.succ_le_iff]

/-- Ticks that are asked for in a row are made up to the end of the program. -/
theorem advance (hends : m.Closes k final) (count : Nat) :
    ∀ {s : Session} {n : Nat}, s.Follows m k n →
      (s.advance count).1 = .ok (decide (count = 0 ∨ n + count ≤ k)) ∧
        (s.advance count).2.Follows m k (n + count) := by
  induction count with
  | zero =>
      intro s n h
      exact ⟨rfl, h⟩
  | succ count ih =>
      intro s n h
      obtain ⟨hanswer, hnext⟩ := h.tick hends
      rw [Session.advance]
      generalize s.tick = answer at hanswer hnext
      obtain ⟨result, s'⟩ := answer
      cases hanswer
      by_cases hn : n < k
      · obtain ⟨hrest, hfollows⟩ := ih hnext
        simp only [decide_eq_true hn]
        rw [hrest]
        refine ⟨?_, by rwa [Nat.add_assoc, Nat.add_comm 1] at hfollows⟩
        congr 1
        simp only [decide_eq_decide]
        omega
      · -- the tick was the last one or later, and those after it are not made
        simp only [decide_eq_false hn]
        refine ⟨?_, hnext.past_end hends (by omega) (by omega)⟩
        congr 1
        symm
        rw [decide_eq_false_iff_not]
        omega

/-- What a call tells is what it adds to the trace. -/
theorem call (h : s.Follows m k n) (hends : m.Closes k final) (horderly : m.Orderly) (c : Call) :
    ∃ told last, s.call c = (.ok told, last) ∧ last.Follows m k (n + c.ticks) ∧
      last.trace = s.trace ++ told := by
  have hadded {last : Session} (hlast : last.Follows m k (n + c.ticks)) :
      last.trace = s.trace ++ last.trace.drop s.trace.length := by
    refine (List.prefix_iff_eq_append.mp ?_).symm
    rw [h.trace, hlast.trace]
    exact hends.trace_prefix horderly (Nat.le_add_right n _)
  cases c with
  | tick =>
      obtain ⟨hanswer, hnext⟩ := h.tick hends
      refine ⟨_, s.tick.2, ?_, hnext, hadded hnext⟩
      simp only [Session.call, hanswer]
      rfl
  | runTicks count =>
      obtain ⟨hanswer, hnext⟩ := Follows.advance hends count.toNat h
      refine ⟨_, (s.advance count.toNat).2, ?_, hnext, hadded hnext⟩
      simp only [Session.call, runTicks, hanswer]
      rfl

/-- Calls tell the trace piece by piece. -/
theorem calls (hends : m.Closes k final) (horderly : m.Orderly) (cs : List Call) :
    ∀ {s : Session} {n : Nat}, s.Follows m k n → ∃ told last, s.calls cs = (.ok told, last) ∧
      last.Follows m k (n + asked cs) ∧ last.trace = s.trace ++ told.flatten := by
  induction cs with
  | nil =>
      intro s n h
      exact ⟨[], s, rfl, h, (List.append_nil _).symm⟩
  | cons c rest ih =>
      intro s n h
      obtain ⟨first, s', hcall, hnext, hfirst⟩ := h.call hends horderly c
      obtain ⟨told, last, hrest, hfollows, htrace⟩ := ih hnext
      refine ⟨first :: told, last, ?_, by rwa [Nat.add_assoc] at hfollows, ?_⟩
      · rw [Session.calls, hcall]
        simp only [hrest]
        rfl
      · rw [htrace, hfirst, List.flatten_cons, List.append_assoc]

/-- A session is done as soon as a tick of its machine answered so. -/
theorem phase_eq_done_iff (h : s.Follows m k n) (hends : m.Closes k final) :
    s.phase = .done ↔ ∃ i < n, (m.after i).tick.1 = .ok false := by
  rw [h.phase]
  constructor
  · intro hphase
    refine ⟨k, ?_, by rw [hends.ends]⟩
    by_contra hle
    rw [if_pos (by omega)] at hphase
    cases hphase
  · rintro ⟨i, hi, hfalse⟩
    rw [hends.tick_answer] at hfalse
    refine if_neg fun hle => ?_
    have hlt : i < k := by omega
    simp [hlt] at hfalse

end Follows

/-- Nothing that is asked for changes a session that is done. -/
theorem calls_of_done {s : Session} (h : s.phase = .done) (cs : List Call) :
    s.calls cs = (.ok (cs.map fun _ => []), s) := by
  have hcall (c : Call) : s.call c = (.ok [], s) := by
    cases c with
    | tick => simp [call, tick_of_done h, Except.map]
    | runTicks count =>
        cases hcount : count.toNat with
        | zero => simp [call, runTicks, advance, hcount, Except.map]
        | succ more => simp [call, runTicks, advance, hcount, tick_of_done h, Except.map]
  induction cs with
  | nil => rfl
  | cons c rest ih =>
      rw [calls, hcall]
      simp only [ih]
      rfl

/-- A session whose program has come to the end that `final` is, apart from showing commands. -/
structure Shows (s : Session) (final : Machine) : Prop where
  phase : s.phase = .done
  machine : s.machine = some final.muted
  exitCode : s.exitCode = final.world.exitCode
  output : some s.output = final.output
  space : s.machine.map (·.world.space) = some final.world.space
  status : s.machine.map (·.world.status) = some final.world.status
  stats : s.machine.map Machine.stats = some final.stats
  trace : s.trace = final.trace

theorem shows_of_machine {s : Session} {final : Machine} (hphase : s.phase = .done)
    (hmachine : s.machine = some final.muted) (houtput : final.output.isSome) :
    s.Shows final := by
  obtain ⟨text, htext⟩ := Option.isSome_iff_exists.mp houtput
  have hmuted : final.muted.output = final.output := rfl
  refine ⟨hphase, hmachine, ?_, ?_, ?_, ?_, ?_, ?_⟩
  · rw [exitCode, hmachine]
    rfl
  · rw [output, hmachine, Option.bind_some, hmuted, htext, Option.getD_some]
  · rw [hmachine]
    rfl
  · rw [hmachine]
    rfl
  · rw [hmachine]
    rfl
  · rw [trace, hmachine]
    rfl

/-- A program that comes to an end in one run comes to the same end in a session, whatever calls
are made before it is run.  Both have the same files, and the same dice to throw and clock to read.
What the calls tell, together with what the run adds, is the trace.  The session is done as soon as
a tick of its machine answers so, and nothing that is asked for later changes it. -/
theorem calls_complete_run (s : Session) (source : Source) (input : String) (cs : List Call)
    (limit : Nat) (final : Machine) (hstreams : s.streams = none)
    (hrun : ({ s.setup with files := s.files } : Setup).run source
      { input := .ofText input.toList } limit = (.finished, final)) :
    ∃ told before after,
      (s.load source input).calls cs = (.ok told, before) ∧
      before.run limit = (.ok false, after) ∧ after.Shows final ∧
      told.flatten ++ after.trace.drop before.trace.length = after.trace ∧
      (before.phase = .done ↔ ∃ i < asked cs,
        ((s.nextSetup.load source (s.nextConsole input)).after i).tick.1 = .ok false) ∧
      before.machine =
        some ((s.nextSetup.load source (s.nextConsole input)).after (asked cs)) ∧
      ∀ later, after.calls later = (.ok (later.map fun _ => []), after) := by
  have hconsole : s.nextConsole input = { input := .ofText input.toList } := by
    rw [nextConsole, hstreams]
  have hmuted : s.nextSetup.load source (s.nextConsole input) =
      (({ s.setup with files := s.files } : Setup).load source
        { input := .ofText input.toList }).muted := by
    rw [hconsole]
    rfl
  obtain ⟨k, hk, last, hfree, hflush⟩ := Machine.run_eq_finished_iff.mp hrun
  have hkeeps : last.world.console.Keeps := by
    rw [hfree.final_eq]
    exact (Machine.after_kept_console Console.keeps_lasting _ source ⟨rfl, rfl⟩ _).world
  obtain rfl : last = final :=
    Except.ok.inj ((Machine.flush_eq_self hkeeps.flushes).symm.trans hflush)
  -- the session does not show commands as it goes, the run may do so
  have hends : (s.nextSetup.load source (s.nextConsole input)).Closes k last.muted := by
    rw [hmuted]
    exact ⟨hfree.muted, Machine.flush_eq_self hkeeps.flushes⟩
  have horderly := Machine.load_orderly s.nextSetup source (s.nextConsole input)
  have hstart : (s.load source input).Follows
      (s.nextSetup.load source (s.nextConsole input)) k 0 := ⟨rfl, rfl⟩
  have hempty : (s.load source input).trace = [] := by
    rw [hstart.trace]
    exact Machine.load_trace _ _ _
  obtain ⟨told, before, hcalls, hbefore, htold⟩ := Follows.calls hends horderly cs hstart
  rw [Nat.zero_add] at hbefore
  rw [hempty, List.nil_append] at htold
  obtain ⟨hanswer, hafter⟩ := Follows.advance hends limit hbefore
  have hdone : (before.advance limit).2.phase = .done := by
    rw [hafter.phase, if_neg (by omega)]
  have hmachine : (before.advance limit).2.machine = some last.muted := by
    rw [hafter.machine, hends.after_eq (by omega)]
  have hprefix : before.trace <+: (before.advance limit).2.trace := by
    rw [hbefore.trace, hafter.trace]
    exact hends.trace_prefix horderly (Nat.le_add_right _ _)
  refine ⟨told, before, (before.advance limit).2, hcalls, ?_,
    shows_of_machine hdone hmachine hkeeps.written, ?_, hbefore.phase_eq_done_iff hends,
    hbefore.machine, calls_of_done hdone⟩
  · rw [run, ← decide_eq_false (p := limit = 0 ∨ asked cs + limit ≤ k) (by omega), ← hanswer]
  · rw [← htold]
    exact List.prefix_iff_eq_append.mp hprefix

/-- A program that is halted by its budget while its commands are shown, in pieces that end before
its last tick, on it and after it. -/
theorem calls_complete_run_halted :
    (Setup.run { clock := ⟨2000, 1, 1, 0, 0, 0⟩, config := { trace := true, maxTicks := some 6 } }
      (.text "1.t>2.") { input := .ofText "".toList } 9).1 = .finished ∧
    ∃ told before after,
      (Session.load
        { setup :=
            { clock := ⟨2000, 1, 1, 0, 0, 0⟩, config := { trace := true, maxTicks := some 6 } } }
        (.text "1.t>2.") "").calls [.runTicks 2, .tick, .runTicks (-3), .runTicks 3, .tick, .tick] =
          (.ok told, before) ∧
      before.run 9 = (.ok false, after) ∧
      after.Shows
        (Setup.run
          { clock := ⟨2000, 1, 1, 0, 0, 0⟩, config := { trace := true, maxTicks := some 6 } }
          (.text "1.t>2.") { input := .ofText "".toList } 9).2 ∧
      told.flatten ++ after.trace.drop before.trace.length = after.trace := by
  have hfinished : (Setup.run
      { clock := ⟨2000, 1, 1, 0, 0, 0⟩, config := { trace := true, maxTicks := some 6 } }
      (.text "1.t>2.") { input := .ofText "".toList } 9).1 = .finished := by decide +kernel
  obtain ⟨told, before, after, hcalls, hrun, hshows, htold, -⟩ :=
    calls_complete_run
      { setup :=
          { clock := ⟨2000, 1, 1, 0, 0, 0⟩, config := { trace := true, maxTicks := some 6 } } }
      (.text "1.t>2.") "" [.runTicks 2, .tick, .runTicks (-3), .runTicks 3, .tick, .tick] 9 _ rfl
      (Prod.ext hfinished rfl)
  exact ⟨hfinished, told, before, after, hcalls, hrun, hshows, htold⟩

end Session

end Befunge
