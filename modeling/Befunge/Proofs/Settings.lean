import Befunge.CommandLine.Run

/-!
# Settings and their sources

A setting has three sources: an option, a variable of the environment and a default.  `Options.Say`
tells what the arguments say, which is the options they name with the texts of their values and a
row of other arguments.  `Environment.Says` tells what the variables say.

An option that is named more than once counts as it is named last.  An option wins over its
variable, and a variable over the default (`CommandLine.options_win_over_environment`).  There are
two exceptions (`CommandLine.zero_and_empty_are_lost`).  A pause of zero is not taken for an option
that is there, so the variable wins over it.  And where the program is given as text, its first
argument is lost if it is empty.
-/

namespace Befunge

/-- A computation that comes to a result comes there through its first part. -/
theorem exists_of_bind_eq_ok {ε α β : Type} {x : Except ε α} {f : α → Except ε β} {b : β}
    (h : x >>= f = .ok b) : ∃ a, x = .ok a ∧ f a = .ok b := by
  cases x with
  | error e => cases h
  | ok a => exact ⟨a, rfl, h⟩

namespace Options

/-! ## What arguments say -/

/-- The options that arguments name, in order, each with the text of its value.  The text of an
option without a value is empty. -/
abbrev Naming := List (CliOption × String)

namespace Naming

/-- The text that an option is named with.  The last one counts. -/
def text? (named : Naming) (o : CliOption) : Option String := named.reverse.lookup o

/-- Whether an option is named. -/
def names (named : Naming) (o : CliOption) : Bool := (named.text? o).isSome

/-- An option is named with an integer. -/
def Carries (named : Naming) (o : CliOption) (n : Int) : Prop :=
  ∃ text, named.text? o = some text ∧ Decimal.literal? text.toList = some n

/-- A setting is the one that its option carries, and another one where the option is not
named. -/
def Settles {α : Type} (named : Naming) (o : CliOption) (given : Int → α)
    (otherwise setting : α) : Prop :=
  (∀ n, named.Carries o n → setting = given n) ∧ (named.names o = false → setting = otherwise)

end Naming

/-- What sorted arguments say, from left to right: the options they name, and the row of the others.
An option takes its value from its own argument or from the plain argument after it. -/
inductive Say : List Argument → Naming → List Argument → Prop where
  | nothing : Say [] [] []
  | mark {rest : List Argument} {named : Naming} {row : List Argument} :
      Say rest named row → Say (.mark :: rest) named (.mark :: row)
  | plain {text : String} {rest : List Argument} {named : Naming} {row : List Argument} :
      Say rest named row → Say (.plain text :: rest) named (.plain text :: row)
  | atOnce {u : Use} {switches : List CliOption} {last : CliOption} {value : Option String}
      {rest : List Argument} {named : Naming} {row : List Argument} :
      uses u = .ok (switches, last, value) → (last.takesValue = true → value ≠ none) →
      Say rest named row →
      Say (.use u :: rest) (switches.map (·, "") ++ [(last, value.getD "")] ++ named) row
  | ahead {u : Use} {switches : List CliOption} {last : CliOption} {value : String}
      {rest : List Argument} {named : Naming} {row : List Argument} :
      uses u = .ok (switches, last, none) → last.takesValue = true → Say rest named row →
      Say (.use u :: .plain value :: rest) (switches.map (·, "") ++ [(last, value)] ++ named) row

/-- Sorted arguments say one thing only. -/
theorem Say.unique {sorted : List Argument} {named named' : Naming} {row row' : List Argument}
    (h : Say sorted named row) (h' : Say sorted named' row') : named = named' ∧ row = row' := by
  induction h generalizing named' row' with
  | nothing =>
      cases h'
      exact ⟨rfl, rfl⟩
  | mark _ ih =>
      cases h' with
      | mark h' =>
          obtain ⟨rfl, rfl⟩ := ih h'
          exact ⟨rfl, rfl⟩
  | plain _ ih =>
      cases h' with
      | plain h' =>
          obtain ⟨rfl, rfl⟩ := ih h'
          exact ⟨rfl, rfl⟩
  | atOnce huses hvalue _ ih =>
      cases h' with
      | atOnce huses' _ h' =>
          obtain ⟨rfl, rfl⟩ := ih h'
          cases huses.symm.trans huses'
          exact ⟨rfl, rfl⟩
      | ahead huses' htakes _ =>
          cases huses.symm.trans huses'
          exact absurd rfl (hvalue htakes)
  | ahead huses htakes _ ih =>
      cases h' with
      | atOnce huses' hvalue _ =>
          cases huses.symm.trans huses'
          exact absurd rfl (hvalue htakes)
      | ahead huses' _ h' =>
          obtain ⟨rfl, rfl⟩ := ih h'
          cases huses.symm.trans huses'
          exact ⟨rfl, rfl⟩

/-- One progress adds to another what sorted arguments say. -/
def Progress.Adds (p q : Progress) (sorted : List Argument) : Prop :=
  p.extras = [] ∧ ∃ named row, Say sorted named row ∧
    named.foldlM amend p.options = .ok q.options ∧ q.row = p.row ++ row

/-- One argument that names options. -/
theorem Progress.Adds.use {p p' q : Progress} {first : Naming} {rest sorted : List Argument}
    (huse : p.use first = .ok (some p'))
    (hsay : ∀ {named row}, Say rest named row → Say sorted (first ++ named) row)
    (h : p'.Adds q rest) : p.Adds q sorted := by
  rw [Progress.use] at huse
  split at huse
  next => cases huse
  next =>
    obtain ⟨options, hfirst, heq⟩ := exists_of_bind_eq_ok huse
    cases heq
    obtain ⟨hextras, named, row, hsaid, hnamed, hrow⟩ := h
    refine ⟨hextras, _, row, hsay hsaid, ?_, hrow⟩
    rw [List.foldlM_append, hfirst]
    exact hnamed

/-- One argument that stands for itself. -/
theorem Progress.Adds.row {p q : Progress} {a : Argument} {rest : List Argument}
    (hsay : ∀ {named row}, Say rest named row → Say (a :: rest) named (a :: row))
    (h : { p with row := p.row ++ [a] }.Adds q rest) : p.Adds q (a :: rest) := by
  obtain ⟨hextras, named, row, hsaid, hnamed, hrow⟩ := h
  exact ⟨hextras, named, _, hsay hsaid, hnamed, by rw [hrow, List.append_assoc]; rfl⟩

/-- Arguments that all belong to something add what they say.  One that belongs to nothing is never
taken back. -/
theorem useAll_adds {p q : Progress} {sorted : List Argument}
    (h : useAll p sorted = .ok (.all q)) (hextras : q.extras = []) : p.Adds q sorted := by
  fun_induction useAll p sorted with
  | case1 p =>
      cases h
      exact ⟨hextras, [], [], .nothing, rfl, (List.append_nil _).symm⟩
  | case2 p text rest ih => exact absurd (ih h).1 (by simp)
  | case6 p u switches last value rest hvalue p' huse huses ih =>
      exact (ih h).use huse (.ahead huses hvalue)
  | case10 p u switches last value rest p' huse _ hvalue huses ih =>
      exact (ih h).use huse (.atOnce huses hvalue)
  | case11 p other rest _ _ _ ih => exact absurd (ih h).1 (by simp)
  | case12 p other rest hunknown huse _ ih =>
      cases other with
      | plain text => exact (ih h).row .plain
      | mark => exact (ih h).row .mark
      | use u => exact (huse u rfl).elim
      | unknown text => exact (hunknown text rfl).elim
  | _ => cases h

/-! ## What options are set to -/

/-- What an option is set to: what its text is read as, and its start where it is not named. -/
def Naming.Sets {α : Type} (named : Naming) (o : CliOption)
    (read : String → Except UsageError α) (start set : α) : Prop :=
  match named.text? o with
  | none => set = start
  | some text => read text = .ok set

theorem Naming.Sets.start_or_read {α : Type} {named : Naming} {o : CliOption}
    {read : String → Except UsageError α} {start set : α} (h : named.Sets o read start set) :
    named.text? o = none ∧ set = start ∨
      ∃ text, named.text? o = some text ∧ read text = .ok set := by
  rw [Sets] at h
  split at h
  next hnone => exact .inl ⟨hnone, h⟩
  next text hsome => exact .inr ⟨text, hsome, h⟩

/-- Options follow from others by what is named.  Each of them is set by its own name alone. -/
structure Follow (opts : Options) (named : Naming) (opts' : Options) : Prop where
  expr : named.Sets .expr (fun value => .ok (text value)) opts.expr opts'.expr
  trace : named.Sets .trace (fun _ => .ok true) opts.trace opts'.trace
  sleep : named.Sets .sleep (integer .sleep) opts.sleep opts'.sleep
  maxTicks : named.Sets .maxTicks (integer .maxTicks) opts.maxTicks opts'.maxTicks
  seed : named.Sets .seed (integer .seed) opts.seed opts'.seed
  noFiles : named.Sets .noFiles (fun _ => .ok true) opts.noFiles opts'.noFiles
  noExec : named.Sets .noExec (fun _ => .ok true) opts.noExec opts'.noExec

theorem amend_follow {opts opts' : Options} {d : CliOption × String}
    (h : amend opts d = .ok opts') : Follow opts [d] opts' := by
  obtain ⟨o, value⟩ := d
  -- Only an integer can be refused, so only there is something to open.
  cases o with
  | sleep | maxTicks | seed =>
      obtain ⟨given, hread, hset⟩ := exists_of_bind_eq_ok h
      cases hset
      constructor
      all_goals first | exact hread | rfl
  | _ =>
      cases h
      constructor
      all_goals rfl

/-- What is named later counts. -/
theorem Naming.Sets.cons {α : Type} {o : CliOption} {read : String → Except UsageError α}
    {start middle set : α} {d : CliOption × String} {named : Naming}
    (hfirst : Naming.Sets [d] o read start middle) (h : named.Sets o read middle set) :
    Naming.Sets (d :: named) o read start set := by
  have htext : Naming.text? (d :: named) o = (named.text? o).or (Naming.text? [d] o) := by
    rw [text?, List.reverse_cons, List.lookup_append]
    rfl
  obtain ⟨hnone, rfl⟩ | ⟨text, hsome, hread⟩ := h.start_or_read
  · rw [Sets, htext, hnone]
    exact hfirst
  · rw [Sets, htext, hsome]
    exact hread

theorem foldlM_amend_follow {opts opts' : Options} {named : Naming}
    (h : named.foldlM amend opts = .ok opts') : Follow opts named opts' := by
  induction named generalizing opts with
  | nil =>
      cases h
      constructor
      all_goals rfl
  | cons d named ih =>
      rw [List.foldlM_cons] at h
      obtain ⟨middle, hfirst, hrest⟩ := exists_of_bind_eq_ok h
      have first := amend_follow hfirst
      have rest := ih hrest
      exact ⟨first.expr.cons rest.expr, first.trace.cons rest.trace, first.sleep.cons rest.sleep,
        first.maxTicks.cons rest.maxTicks, first.seed.cons rest.seed,
        first.noFiles.cons rest.noFiles, first.noExec.cons rest.noExec⟩

theorem Naming.Sets.eq_names {named : Naming} {o : CliOption} {on : Bool}
    (h : named.Sets o (fun _ => .ok true) false on) : on = named.names o := by
  obtain ⟨hnone, rfl⟩ | ⟨text, hsome, hread⟩ := h.start_or_read
  · rw [names, hnone]
    rfl
  · cases hread
    rw [names, hsome]
    rfl

theorem Naming.Sets.absent_iff {α : Type} {named : Naming} {o : CliOption}
    {read : String → Except UsageError (Given α)} (hpresent : ∀ value, read value ≠ .ok .absent)
    {given : Given α} (h : named.Sets o read .absent given) :
    given = .absent ↔ named.names o = false := by
  obtain ⟨hnone, rfl⟩ | ⟨text, hsome, hread⟩ := h.start_or_read
  · exact iff_of_true rfl (by rw [names, hnone]; rfl)
  · refine iff_of_false ?_ (by simp [names, hsome])
    rintro rfl
    exact hpresent text hread

theorem text_ne_absent (value : String) : text value ≠ .absent := by
  rw [text]
  split <;> simp

theorem integer_ne_absent (o : CliOption) (value : String) : integer o value ≠ .ok .absent := by
  rw [integer]
  split
  next => simp
  next => split <;> simp

/-- The mark is no integer, so an option that is left blank carries none. -/
theorem integer_eq_value_iff {o : CliOption} {value : String} {n : Int} :
    integer o value = .ok (.value n) ↔ Decimal.literal? value.toList = some n := by
  rw [integer]
  split
  next hmark =>
    have hnone : Decimal.literal? markText.toList = none := by decide +kernel
    simp [hmark, hnone]
  next =>
    cases Decimal.literal? value.toList <;> simp

theorem Naming.Sets.value_iff {named : Naming} {o : CliOption} {given : Given Int}
    (h : named.Sets o (integer o) .absent given) {n : Int} :
    given = .value n ↔ named.Carries o n := by
  obtain ⟨hnone, rfl⟩ | ⟨text, hsome, hread⟩ := h.start_or_read
  · simp [Carries, hnone]
  · simp [Carries, hsome, ← integer_eq_value_iff (o := o), hread]

/-! ## The row of plain arguments -/

/-- The plain arguments of a row. -/
def plainTexts (row : List Argument) : List String :=
  row.filterMap fun
    | .plain text => some text
    | _ => none

@[simp] theorem plainTexts_map_plain (texts : List String) :
    plainTexts (texts.map .plain) = texts := by
  rw [plainTexts, List.filterMap_map]
  exact List.filterMap_some

@[simp] theorem plainTexts_marked (before after : List String) :
    plainTexts (before.map .plain ++ .mark :: after.map .plain) = before ++ after := by
  rw [plainTexts, List.filterMap_append, List.filterMap_cons_none rfl]
  show plainTexts (before.map .plain) ++ plainTexts (after.map .plain) = before ++ after
  rw [plainTexts_map_plain, plainTexts_map_plain]

/-- A row of plain arguments with at most one mark. -/
inductive IsRow : List Argument → Prop where
  | unmarked (texts : List String) : IsRow (texts.map .plain)
  | marked (before after : List String) : IsRow (before.map .plain ++ .mark :: after.map .plain)

theorem IsRow.plain {row : List Argument} (h : IsRow row) (text : String) :
    IsRow (.plain text :: row) := by
  cases h with
  | unmarked texts => exact .unmarked (text :: texts)
  | marked before after => exact .marked (text :: before) after

theorem sort_ne_mark (arg : String) : sort arg ≠ .ok .mark := by
  rw [sort]
  dsimp only
  repeat' split
  all_goals simp

theorem sortAll_marks {args : List String} {sorted : List Argument}
    (h : sortAll args = .ok sorted) : sorted.count .mark ≤ 1 := by
  induction args generalizing sorted with
  | nil =>
      cases h
      simp
  | cons arg args ih =>
      rw [sortAll] at h
      split at h
      next =>
        cases h
        simp [List.count_eq_zero]
      next =>
        obtain ⟨first, hfirst, h⟩ := exists_of_bind_eq_ok h
        obtain ⟨rest, hrest, h⟩ := exists_of_bind_eq_ok h
        cases h
        have hne : first ≠ .mark := by
          rintro rfl
          exact sort_ne_mark arg hfirst
        rw [List.count_cons_of_ne hne]
        exact ih hrest

theorem Say.unmarked {sorted row : List Argument} {named : Naming} (h : Say sorted named row)
    (hmark : .mark ∉ sorted) : ∃ texts : List String, row = texts.map .plain := by
  induction h with
  | nothing => exact ⟨[], rfl⟩
  | mark _ _ => exact absurd List.mem_cons_self hmark
  | @plain text _ _ _ _ ih =>
      obtain ⟨texts, rfl⟩ := ih (List.not_mem_of_not_mem_cons hmark)
      exact ⟨text :: texts, rfl⟩
  | atOnce _ _ _ ih => exact ih (List.not_mem_of_not_mem_cons hmark)
  | ahead _ _ _ ih =>
      exact ih (List.not_mem_of_not_mem_cons (List.not_mem_of_not_mem_cons hmark))

theorem Say.isRow {sorted row : List Argument} {named : Naming} (h : Say sorted named row)
    (hmarks : sorted.count .mark ≤ 1) : IsRow row := by
  induction h with
  | nothing => exact .unmarked []
  | mark h _ =>
      obtain ⟨texts, rfl⟩ := h.unmarked (List.count_eq_zero.mp (by simpa using hmarks))
      exact .marked [] texts
  | plain _ ih => exact (ih (by simpa using hmarks)).plain _
  | atOnce _ _ _ ih => exact ih (by simpa using hmarks)
  | ahead _ _ _ ih => exact ih (by simpa using hmarks)

/-- Unless a plain argument is spelled like the mark, only the mark is left out. -/
theorem IsRow.erase_mark {row : List Argument} (h : IsRow row)
    (hmark : markText ∉ plainTexts row) :
    (row.map Argument.text).erase markText = plainTexts row := by
  have htexts : ∀ texts : List String, (texts.map Argument.plain).map Argument.text = texts := by
    intro texts
    simp [Function.comp_def, Argument.text]
  cases h with
  | unmarked texts =>
      rw [plainTexts_map_plain] at hmark ⊢
      rw [htexts, List.erase_of_not_mem hmark]
  | marked before after =>
      rw [plainTexts_marked] at hmark ⊢
      rw [List.map_append, List.map_cons, htexts, htexts, Argument.text,
        List.erase_append_right _ fun h => hmark (List.mem_append_left _ h), List.erase_cons_head]

/-- The program's name is the first plain argument. -/
theorem IsRow.divide {row : List Argument} (h : IsRow row) :
    IsRow (divideRow row).1 ∧ IsRow (divideRow row).2 ∧
      (plainTexts (divideRow row).1).head?.toList = plainTexts (divideRow row).1 ∧
      plainTexts (divideRow row).1 ++ plainTexts (divideRow row).2 = plainTexts row := by
  cases h with
  | unmarked texts =>
      match texts with
      | [] => exact ⟨.unmarked [], .unmarked [], rfl, rfl⟩
      | [a] => exact ⟨.unmarked [a], .unmarked [], rfl, rfl⟩
      | a :: b :: texts => exact ⟨.unmarked [a], .unmarked (b :: texts), rfl, rfl⟩
  | marked before after =>
      match before, after with
      | [], [] => exact ⟨.marked [] [], .unmarked [], rfl, rfl⟩
      | [], a :: after => exact ⟨.marked [] [a], .unmarked after, rfl, rfl⟩
      | [a], after => exact ⟨.marked [a] [], .unmarked after, rfl, rfl⟩
      | a :: b :: before, after =>
          exact ⟨.unmarked [a], .marked (b :: before) after, rfl, rfl⟩

theorem takeRow_plain (opts : Options) {row : List Argument} (h : IsRow row)
    (hmark : markText ∉ plainTexts row) :
    (takeRow opts row).source.toList ++ (takeRow opts row).args = plainTexts row := by
  obtain ⟨hfirst, hrest, hone, hplain⟩ := h.divide
  rw [← hplain, List.mem_append, not_or] at hmark
  calc (takeRow opts row).source.toList ++ (takeRow opts row).args
      = (plainTexts (divideRow row).1).head?.toList ++ plainTexts (divideRow row).2 := by
        rw [takeRow, ← hfirst.erase_mark hmark.1, ← hrest.erase_mark hmark.2]
    _ = plainTexts row := by rw [hone, hplain]

/-- What arguments that ask for a run say. -/
theorem parse_says {args : List String} {opts : Options} (h : parse args = .ok (.run opts)) :
    ∃ sorted named row, sortAll args = .ok sorted ∧ Say sorted named row ∧ Follow {} named opts ∧
      (markText ∉ plainTexts row → opts.source.toList ++ opts.args = plainTexts row) ∧
      (opts.expr = .absent → opts.source.getD "" ≠ "") := by
  rw [parse] at h
  obtain ⟨sorted, hsorted, h⟩ := exists_of_bind_eq_ok h
  obtain ⟨fin, huse, h⟩ := exists_of_bind_eq_ok h
  cases fin with
  | help => cases h
  | all p =>
      dsimp only at h
      split at h
      next => cases h
      next hextras =>
        split at h
        next => cases h
        next hprogram =>
          cases h
          obtain ⟨-, named, row, hsaid, hnamed, hrow⟩ := useAll_adds huse (by simpa using hextras)
          have hfollow := foldlM_amend_follow hnamed
          refine ⟨sorted, named, row, hsorted, hsaid, ?_, ?_, ?_⟩
          · exact ⟨hfollow.expr, hfollow.trace, hfollow.sleep, hfollow.maxTicks, hfollow.seed,
              hfollow.noFiles, hfollow.noExec⟩
          · rw [hrow]
            exact takeRow_plain _ (hsaid.isRow (sortAll_marks hsorted))
          · exact fun habsent hempty => hprogram ⟨hempty, habsent⟩

end Options

/-! ## What the environment says -/

/-- What the variables of the environment say of the settings. -/
structure Variables where
  /-- Access to files. -/
  files : Option Access
  /-- Access to the command interpreter. -/
  commands : Option Access
  /-- Whether executed commands are reported. -/
  trace : Bool
  /-- The pause after every command, in thousandths of a second. -/
  pause : Option Int
  /-- How many ticks the program may take. -/
  maxTicks : Option Int
  /-- The seed of random directions. -/
  seed : Option Int
deriving DecidableEq, Repr

/-- The settings that variables give, with the defaults where nothing is said. -/
def Variables.config (v : Variables) : Config where
  files := v.files.getD ({} : Config).files
  commands := v.commands.getD ({} : Config).commands
  trace := v.trace
  pause := (v.pause.map Pause.ofThousandths).getD ({} : Config).pause
  maxTicks := v.maxTicks
  seed := v.seed

theorem Variables.pause_config (v : Variables) :
    v.config.pause = .ofThousandths (v.pause.getD 0) := by
  have hnone : Pause.none = .ofThousandths 0 := by decide +kernel
  cases hpause : v.pause <;> simp [config, hpause, hnone]

theorem Access.ofWord?_eq_some_iff {w : String} {a : Access} : ofWord? w = some a ↔ a.word = w := by
  constructor
  · intro h
    simpa using List.find?_some h
  · rintro rfl
    cases a <;> rfl

namespace Environment

/-- A variable is one of the words for an access, in any case, or blank. -/
def Chooses (env : Environment) (name : String) (choice : Option Access) : Prop :=
  String.ofList (Case.lower (env.stripped name)) = choice.elim "" Access.word

/-- A variable is an integer, or blank. -/
def Numbers (env : Environment) (name : String) : Option Int → Prop
  | none => env.stripped name = []
  | some n => Decimal.literal? (env.stripped name) = some n

instance (env : Environment) (name : String) (choice : Option Access) :
    Decidable (env.Chooses name choice) :=
  inferInstanceAs (Decidable (_ = _))

instance (env : Environment) (name : String) : (n : Option Int) → Decidable (env.Numbers name n)
  | none => inferInstanceAs (Decidable (_ = _))
  | some _ => inferInstanceAs (Decidable (_ = _))

theorem access_eq_ok_iff {env : Environment} {name : String} {a : Access} :
    env.access name = .ok a ↔ ∃ choice, env.Chooses name choice ∧ a = choice.getD .real := by
  rw [access]
  constructor
  · intro h
    split at h
    next hblank =>
      cases h
      exact ⟨none, by rw [Chooses, hblank]; rfl, rfl⟩
    next =>
      split at h
      next hword =>
        cases h
        exact ⟨some a, (Access.ofWord?_eq_some_iff.mp hword).symm, rfl⟩
      next => cases h
  · rintro ⟨choice, hchoice, rfl⟩
    rw [Chooses] at hchoice
    cases choice with
    | none =>
        rw [if_pos (by simpa using hchoice)]
        rfl
    | some a =>
        have hword : Access.ofWord? (String.ofList (Case.lower (env.stripped name))) = some a :=
          Access.ofWord?_eq_some_iff.mpr hchoice.symm
        have hne : Case.lower (env.stripped name) ≠ [] := by
          intro hblank
          rw [hblank] at hchoice
          cases a <;> simp [Access.word] at hchoice
        rw [if_neg hne, hword]
        rfl

theorem integer_eq_ok_iff {env : Environment} {name : String} {n : Option Int} :
    env.integer name = .ok n ↔ env.Numbers name n := by
  rw [integer]
  split
  next hblank =>
    have hnone : Decimal.literal? [] = none := rfl
    cases n <;> simp [Numbers, hblank, hnone]
  next hword =>
    cases hread : Decimal.literal? (env.stripped name) <;> cases n <;> simp [Numbers, hword, hread]

/-- The variables are valid and say what is told. -/
structure Says (env : Environment) (v : Variables) : Prop where
  files : env.Chooses "FUNGE_FILE_VIEW" v.files
  commands : env.Chooses "FUNGE_EXEC" v.commands
  trace : v.trace = true ↔
    String.ofList (Case.lower (env.value "FUNGE_TRACE").toList) ∈ ["1", "true", "yes", "on"]
  pause : env.Numbers "FUNGE_SLEEP_MS" v.pause
  maxTicks : env.Numbers "FUNGE_MAX_TICKS" v.maxTicks
  seed : env.Numbers "FUNGE_SEED" v.seed

theorem Chooses.unique {env : Environment} {name : String} {a b : Option Access}
    (ha : env.Chooses name a) (hb : env.Chooses name b) : a = b := by
  have hword : a.elim "" Access.word = b.elim "" Access.word := ha.symm.trans hb
  rcases a with - | - | - <;> rcases b with - | - | - <;> simp_all [Access.word]

theorem Says.unique {env : Environment} {v v' : Variables} (h : env.Says v) (h' : env.Says v') :
    v = v' := by
  have hnumbers : ∀ {name : String} {n m : Option Int}, env.Numbers name n → env.Numbers name m →
      n = m := by
    intro name n m hn hm
    exact Except.ok.inj ((integer_eq_ok_iff.mpr hn).symm.trans (integer_eq_ok_iff.mpr hm))
  obtain ⟨files, commands, trace, pause, maxTicks, seed⟩ := v
  rw [Variables.mk.injEq]
  exact ⟨h.files.unique h'.files, h.commands.unique h'.commands,
    Bool.eq_iff_iff.mpr (h.trace.trans h'.trace.symm), hnumbers h.pause h'.pause,
    hnumbers h.maxTicks h'.maxTicks, hnumbers h.seed h'.seed⟩

end Environment

namespace Config

theorem holdPause_eq_ok_iff {n : Int} {p : Pause} :
    holdPause n = .ok p ↔ Pause.isHoldable n = true ∧ .ofThousandths n = p := by
  rw [holdPause]
  split <;> simp_all

/-- Valid variables give settings, unless the pause is too long. -/
theorem ofEnvironment_eq_ok_iff {env : Environment} {c : Config} :
    ofEnvironment env = .ok c ↔
      ∃ v, env.Says v ∧ Pause.isHoldable (v.pause.getD 0) = true ∧ c = v.config := by
  constructor
  · intro h
    rw [ofEnvironment] at h
    obtain ⟨files, hfiles, h⟩ := exists_of_bind_eq_ok h
    obtain ⟨commands, hcommands, h⟩ := exists_of_bind_eq_ok h
    obtain ⟨pause, hpause, h⟩ := exists_of_bind_eq_ok h
    obtain ⟨held, hheld, h⟩ := exists_of_bind_eq_ok h
    obtain ⟨maxTicks, hmaxTicks, h⟩ := exists_of_bind_eq_ok h
    obtain ⟨seed, hseed, h⟩ := exists_of_bind_eq_ok h
    obtain ⟨view, hview, rfl⟩ := Environment.access_eq_ok_iff.mp hfiles
    obtain ⟨exec, hexec, rfl⟩ := Environment.access_eq_ok_iff.mp hcommands
    obtain ⟨hholdable, rfl⟩ := holdPause_eq_ok_iff.mp hheld
    cases h
    refine ⟨⟨view, exec, env.switch "FUNGE_TRACE", pause, maxTicks, seed⟩, ?_, hholdable, ?_⟩
    · exact ⟨hview, hexec, List.contains_iff_mem, Environment.integer_eq_ok_iff.mp hpause,
        Environment.integer_eq_ok_iff.mp hmaxTicks, Environment.integer_eq_ok_iff.mp hseed⟩
    · rw [← Variables.pause_config ⟨view, exec, env.switch "FUNGE_TRACE", pause, maxTicks, seed⟩]
      rfl
  · rintro ⟨v, hsays, hheld, rfl⟩
    have htrace : env.switch "FUNGE_TRACE" = v.trace :=
      Bool.eq_iff_iff.mpr (List.contains_iff_mem.trans hsays.trace.symm)
    have hpause : holdPause (v.pause.getD 0) = .ok v.config.pause :=
      holdPause_eq_ok_iff.mpr ⟨hheld, v.pause_config.symm⟩
    rw [ofEnvironment, Environment.access_eq_ok_iff.mpr ⟨_, hsays.files, rfl⟩,
      Environment.access_eq_ok_iff.mpr ⟨_, hsays.commands, rfl⟩, htrace,
      Environment.integer_eq_ok_iff.mpr hsays.pause,
      Environment.integer_eq_ok_iff.mpr hsays.maxTicks,
      Environment.integer_eq_ok_iff.mpr hsays.seed]
    simp only [bind, Except.bind, hpause]
    rfl

end Config

namespace CommandLine

open Options

/-- The settings of a run are those of the environment with those of the options over them. -/
theorem config_eq_ok_iff {env : Environment} {opts : Options} {c : Config} :
    config env opts = .ok c ↔
      Pause.isHoldable ((askedPause opts).getD 0) = true ∧
        ∃ v, env.Says v ∧ Pause.isHoldable (v.pause.getD 0) = true ∧
          c = v.config.override (overrides opts) := by
  constructor
  · intro h
    rw [config] at h
    obtain ⟨asked, hasked, h⟩ := exists_of_bind_eq_ok h
    obtain ⟨base, hbase, h⟩ := exists_of_bind_eq_ok h
    obtain ⟨v, hsays, hheld, rfl⟩ := Config.ofEnvironment_eq_ok_iff.mp hbase
    cases h
    exact ⟨(Config.holdPause_eq_ok_iff.mp hasked).1, v, hsays, hheld, rfl⟩
  · rintro ⟨hasked, v, hsays, hheld, rfl⟩
    rw [config, Config.holdPause_eq_ok_iff.mpr ⟨hasked, rfl⟩, Config.resolve,
      Config.ofEnvironment_eq_ok_iff.mpr ⟨v, hsays, hheld, rfl⟩]
    rfl

/-- A limit or a seed that an option carries counts whatever it is. -/
theorem settles_value {named : Naming} {o : CliOption} {given : Given Int}
    (h : named.Sets o (integer o) .absent given) (otherwise : Option Int) :
    named.Settles o some otherwise (given.value? <|> otherwise) := by
  constructor
  · intro n hn
    rw [h.value_iff.mpr hn]
    rfl
  · intro hnames
    rw [(h.absent_iff (integer_ne_absent o)).mpr hnames]
    rfl

/-- Asking for no pause is the same as not asking. -/
theorem askedPause_of_value {opts : Options} {n : Int} (h : opts.sleep = .value n) :
    askedPause opts = if n = 0 then none else some n := by
  rw [askedPause, h, Given.value?, Option.filter_some]
  split <;> simp_all

theorem askedPause_of_absent {opts : Options} (h : opts.sleep = .absent) :
    askedPause opts = none := by
  rw [askedPause, h]
  rfl

theorem isHoldable_askedPause_iff (opts : Options) :
    Pause.isHoldable ((askedPause opts).getD 0) = true ↔
      ∀ n, opts.sleep = .value n → Pause.isHoldable n = true := by
  have hzero : Pause.isHoldable 0 = true := by decide +kernel
  cases hsleep : opts.sleep with
  | value n =>
      rw [askedPause_of_value hsleep]
      by_cases hn : n = 0 <;> simp [hn, hzero]
  | absent => simp [askedPause, hsleep, Given.value?, hzero]
  | blank => simp [askedPause, hsleep, Given.value?, hzero]

/-- The pause that an option carries counts, unless it is zero and the environment asks for
another one. -/
theorem settles_askedPause_iff {named : Naming} {opts : Options}
    (h : named.Sets .sleep (integer .sleep) .absent opts.sleep) (otherwise : Pause) :
    named.Settles .sleep .ofThousandths otherwise
        (((askedPause opts).map .ofThousandths).getD otherwise) ↔
      ¬(named.Carries .sleep 0 ∧ otherwise ≠ .none) := by
  have hnone : Pause.none = .ofThousandths 0 := by decide +kernel
  rw [hnone]
  constructor
  · rintro ⟨hcarried, -⟩ ⟨hzero, hne⟩
    have hpause := hcarried 0 hzero
    rw [askedPause_of_value (h.value_iff.mpr hzero), if_pos rfl] at hpause
    exact hne hpause
  · intro hzero
    constructor
    · intro n hn
      rw [askedPause_of_value (h.value_iff.mpr hn)]
      split
      next hn0 =>
        subst hn0
        exact Decidable.byContradiction fun hne => hzero ⟨hn, hne⟩
      next => rfl
    · intro hnames
      rw [askedPause_of_absent ((h.absent_iff (integer_ne_absent .sleep)).mpr hnames)]
      rfl

/-- An option without a value wins by being named. -/
theorem getD_switch {α : Type} (on : Bool) (a b : α) :
    (if on then some a else none).getD b = if on then a else b := by
  cases on <;> rfl

/-- The program is told its name and all plain arguments, unless it is given as text and the first
of them is empty. -/
theorem args_eq_iff {opts : Options} {given : Bool} (hgiven : opts.expr = .absent ↔ given = false)
    (h : opts.expr = .absent → opts.source.getD "" ≠ "") :
    programName opts :: programArgs opts =
        (if given then ["-e"] else []) ++ opts.source.toList ++ opts.args ↔
      ¬(given = true ∧ opts.source = some "") := by
  cases given with
  | false =>
      have habsent := hgiven.mpr rfl
      cases hsource : opts.source with
      | none => exact absurd (by rw [hsource]; rfl) (h habsent)
      | some name => simp [programName, programArgs, habsent, hsource]
  | true =>
      cases hexpr : opts.expr with
      | absent => cases hgiven.mp hexpr
      | blank | value text =>
          cases hsource : opts.source with
          | none => simp [programName, programArgs, hexpr, hsource]
          | some name =>
              by_cases hname : name = "" <;>
                simp [programName, programArgs, hexpr, hsource, hname]

/-- Where the program is given as text, an empty first argument is lost. -/
theorem args_of_empty {opts : Options} (hexpr : opts.expr ≠ .absent)
    (hsource : opts.source = some "") :
    programName opts :: programArgs opts = "-e" :: opts.args := by
  cases hgiven : opts.expr with
  | absent => exact absurd hgiven hexpr
  | blank | value text => simp [programName, programArgs, hgiven, hsource]

/-- Options win over the environment.  There are settings exactly if the variables are valid and no
pause is too long to be held.  Each of them is then the one that its option gives, where the option
is named, and the one of the variable or the default where it is not.  The program is told its name
and the plain arguments in order.

A pause of zero is the exception among the values: it counts only if there would be no pause without
it.  So is an empty first argument of a program that is given as text. -/
theorem options_win_over_environment (env : Environment) {args : List String} {opts : Options}
    (parsed : Options.parse args = .ok (.run opts)) :
    ∃ sorted named row, sortAll args = .ok sorted ∧ Say sorted named row ∧
      (markText ∉ plainTexts row → opts.source.toList ++ opts.args = plainTexts row) ∧
      ((∃ c, config env opts = .ok c) ↔
        (∃ v, env.Says v ∧ Pause.isHoldable (v.pause.getD 0) = true) ∧
          ∀ n, named.Carries .sleep n → Pause.isHoldable n = true) ∧
      ∀ {v : Variables} {c : Config}, env.Says v → config env opts = .ok c →
        c.files = (if named.names .noFiles then .deny else v.config.files) ∧
        c.commands = (if named.names .noExec then .deny else v.config.commands) ∧
        c.trace = (if named.names .trace then true else v.config.trace) ∧
        named.Settles .maxTicks some v.config.maxTicks c.maxTicks ∧
        named.Settles .seed some v.config.seed c.seed ∧
        (named.Settles .sleep .ofThousandths v.config.pause c.pause ↔
          ¬(named.Carries .sleep 0 ∧ v.config.pause ≠ .none)) ∧
        (named.Carries .sleep 0 → c.pause = v.config.pause) ∧
        (c.args = (if named.names .expr then ["-e"] else []) ++ opts.source.toList ++ opts.args ↔
          ¬(named.names .expr = true ∧ opts.source = some "")) ∧
        (named.names .expr = true → opts.source = some "" → c.args = "-e" :: opts.args) := by
  obtain ⟨sorted, named, row, hsorted, hsaid, hfollow, hplain, hprogram⟩ := parse_says parsed
  refine ⟨sorted, named, row, hsorted, hsaid, hplain, ?_, ?_⟩
  · constructor
    · rintro ⟨c, hconfig⟩
      obtain ⟨hasked, v, hsays, hheld, -⟩ := config_eq_ok_iff.mp hconfig
      refine ⟨⟨v, hsays, hheld⟩, fun n hn => ?_⟩
      exact (isHoldable_askedPause_iff opts).mp hasked n (hfollow.sleep.value_iff.mpr hn)
    · rintro ⟨⟨v, hsays, hheld⟩, hcarried⟩
      refine ⟨_, config_eq_ok_iff.mpr ⟨?_, v, hsays, hheld, rfl⟩⟩
      rw [isHoldable_askedPause_iff]
      exact fun n hn => hcarried n (hfollow.sleep.value_iff.mp hn)
  · intro v c hsays hconfig
    obtain ⟨-, v', hsays', -, rfl⟩ := config_eq_ok_iff.mp hconfig
    obtain rfl := hsays.unique hsays'
    have hexpr : opts.expr = .absent ↔ named.names .expr = false :=
      hfollow.expr.absent_iff fun value h => text_ne_absent value (Except.ok.inj h)
    refine ⟨?_, ?_, ?_, settles_value hfollow.maxTicks _, settles_value hfollow.seed _,
      settles_askedPause_iff hfollow.sleep _, ?_, args_eq_iff hexpr hprogram, ?_⟩
    · rw [← hfollow.noFiles.eq_names]
      exact getD_switch ..
    · rw [← hfollow.noExec.eq_names]
      exact getD_switch ..
    · rw [← hfollow.trace.eq_names]
      exact getD_switch ..
    · intro hzero
      have hnone : askedPause opts = none := askedPause_of_value (hfollow.sleep.value_iff.mpr hzero)
      simp only [Config.override, overrides, hnone, Option.map_none, Option.getD_none]
    · intro hnames hsource
      exact args_of_empty (by simp [hexpr, hnames]) hsource

/-- A limit that is named twice, a pause behind another option, and a seed from the environment. -/
theorem options_win_over_environment_mixed :
    ∃ opts c, Options.parse ["--max=3", "-ts20", "--max=0", "-e", "@", "x"] = .ok (.run opts) ∧
      config [("FUNGE_MAX_TICKS", "9"), ("FUNGE_SEED", " 7 "), ("FUNGE_SLEEP_MS", "5")] opts =
        .ok c ∧
      c.trace = true ∧ c.pause = .ofThousandths 20 ∧ c.maxTicks = some 0 ∧ c.seed = some 7 ∧
      c.args = ["-e", "x"] := by
  let env : Environment :=
    [("FUNGE_MAX_TICKS", "9"), ("FUNGE_SEED", " 7 "), ("FUNGE_SLEEP_MS", "5")]
  let opts : Options :=
    { trace := true, sleep := .value 20, maxTicks := .value 0, expr := .value "@",
      source := some "x" }
  let said : Naming :=
    [(.maxTicks, "3"), (.trace, ""), (.sleep, "20"), (.maxTicks, "0"), (.expr, "@")]
  have hsays : env.Says ⟨none, none, false, some 5, some 9, some 7⟩ := by
    constructor <;> decide +kernel
  have hsort : sortAll ["--max=3", "-ts20", "--max=0", "-e", "@", "x"] =
      .ok [.use ⟨.maxTicks, false, some ['3']⟩, .use ⟨.trace, true, some ['s', '2', '0']⟩,
        .use ⟨.maxTicks, false, some ['0']⟩, .use ⟨.expr, true, none⟩, .plain "@",
        .plain "x"] := rfl
  have hparsed : Options.parse ["--max=3", "-ts20", "--max=0", "-e", "@", "x"] =
      .ok (.run opts) := rfl
  obtain ⟨sorted, named, row, hsorted, hsay, -, hconfig, hsettings⟩ :=
    options_win_over_environment env hparsed
  cases hsort.symm.trans hsorted
  have hunique := hsay.unique (.atOnce rfl (by simp) (.atOnce rfl (by simp)
    (.atOnce rfl (by simp) (.ahead rfl rfl (.plain .nothing)))))
  obtain rfl : named = said := hunique.1
  have hsleep : ∀ n, said.Carries .sleep n → n = 20 := by
    rintro n ⟨text, htext, hn⟩
    cases htext
    cases hn
    rfl
  obtain ⟨c, hc⟩ := hconfig.mpr
    ⟨⟨_, hsays, by decide +kernel⟩, fun n hn => by rw [hsleep n hn]; decide +kernel⟩
  obtain ⟨-, -, htrace, hticks, hseed, hpause, -, hargs, -⟩ := hsettings hsays hc
  refine ⟨opts, c, hparsed, hc, htrace, ?_, ?_, ?_, ?_⟩
  · exact (hpause.mpr fun h => absurd (hsleep 0 h.1) (by decide)).1 20 ⟨"20", rfl, rfl⟩
  · exact hticks.1 0 ⟨"0", rfl, rfl⟩
  · exact hseed.2 rfl
  · exact hargs.mpr (by decide)

/-- A pause of zero and an empty first argument are there and do not count. -/
theorem zero_and_empty_are_lost :
    (∃ opts, Options.parse ["-s", "0", "-e", "@"] = .ok (.run opts) ∧ opts.sleep = .value 0 ∧
      ((config [("FUNGE_SLEEP_MS", "250")] opts).toOption.map Config.pause =
        some (.ofThousandths 250))) ∧
    ∃ opts, Options.parse ["-e", "@", "", "x"] = .ok (.run opts) ∧
      opts.source.toList ++ opts.args = ["", "x"] ∧
      ((config [] opts).toOption.map Config.args) = some ["-e", "x"] := by
  refine ⟨⟨{ expr := .value "@", sleep := .value 0 }, ?_, rfl, ?_⟩,
    ⟨{ expr := .value "@", source := some "", args := ["x"] }, ?_, rfl, ?_⟩⟩
  · rfl
  · decide +kernel
  · rfl
  · decide +kernel

end CommandLine

end Befunge
