import Befunge.Text.Decimal

/-!
# Command-line options

Arguments are sorted into options and plain arguments before any of them is used.  An
argument is an option if it starts with a dash, but for a lone dash, a negative
number, and a text with a blank in it that is no option's name.  After the first
argument `--` nothing is an option.

Names with two dashes may be shortened to any beginning that fits one name only.  Names with
one dash may be run together, and a value may follow its name directly.

These are the older rules for arguments, and they have two corners.  A value that is spelled like
the mark leaves its option blank, where later rules take it as it is spelled.  A letter that names
no option and is run together with others makes their argument wrong, where later rules only count
that letter among what belongs to nothing.

The first row of plain arguments gives the program and its arguments.  Plain arguments after
that belong to nothing, like options that do not exist.
-/

namespace Befunge

/-- An option of the command line. -/
inductive CliOption where
  | help
  | expr
  | trace
  | sleep
  | time
  | maxTicks
  | seed
  | noFiles
  | noExec
  | verbose
  | quiet
deriving DecidableEq, Repr

namespace CliOption

/-- All options, in the order in which they are listed. -/
def all : List CliOption :=
  [.help, .expr, .trace, .sleep, .time, .maxTicks, .seed, .noFiles, .noExec, .verbose, .quiet]

/-- The names of an option. -/
def names : CliOption → List String
  | .help => ["-h", "--help"]
  | .expr => ["-e", "--expr"]
  | .trace => ["-t", "--trace"]
  | .sleep => ["-s", "--sleep"]
  | .time => ["-p", "--time"]
  | .maxTicks => ["--max-ticks"]
  | .seed => ["--seed"]
  | .noFiles => ["--no-files"]
  | .noExec => ["--no-exec"]
  | .verbose => ["-v", "--verbose"]
  | .quiet => ["-q", "--quiet"]

/-- Whether an option has a value. -/
def takesValue : CliOption → Bool
  | .expr | .sleep | .maxTicks | .seed => true
  | _ => false

/-- An option as it is shown in messages. -/
def text (o : CliOption) : String := "/".intercalate o.names

/-- Every name with its option. -/
def table : List (String × CliOption) := all.flatMap fun o => o.names.map (·, o)

/-- The option of a name. -/
def ofName? (name : List Char) : Option CliOption := table.lookup (String.ofList name)

end CliOption

/-- What is wrong with the arguments. -/
inductive UsageError where
  /-- A shortened name fits several names. -/
  | ambiguous (given : String) (candidates : List String)
  /-- An option has no value and needs one. -/
  | missingValue (o : CliOption)
  /-- An option has a value and needs none. -/
  | unusedValue (o : CliOption) (value : String)
  /-- A value has to be an integer. -/
  | notAnInteger (o : CliOption) (value : String)
  /-- Some arguments belong to nothing. -/
  | unrecognized (args : List String)
  /-- There is no program. -/
  | noProgram
deriving DecidableEq, Repr

/-- The wording of a usage error. -/
def UsageError.message : UsageError → String
  | .ambiguous given candidates =>
      "ambiguous option: " ++ given ++ " could match " ++ ", ".intercalate candidates
  | .missingValue o => "argument " ++ o.text ++ ": expected one argument"
  | .unusedValue o value =>
      "argument " ++ o.text ++ ": ignored explicit argument " ++ Quoted.text value
  | .notAnInteger o value => "argument " ++ o.text ++ ": invalid int value: " ++ Quoted.text value
  | .unrecognized args => "unrecognized arguments: " ++ " ".intercalate args
  | .noProgram => "Provide a program file or -e program text"

/-- What the arguments say of an option that has a value. -/
inductive Given (α : Type) where
  /-- Nothing. -/
  | absent
  /-- The option is there and its value is left out. -/
  | blank
  /-- The option is there with its value. -/
  | value (a : α)
deriving DecidableEq, Repr, Inhabited

/-- The value of an option that is there with one. -/
def Given.value? {α : Type} : Given α → Option α
  | .value a => some a
  | _ => none

/-- What the arguments ask for. -/
structure Options where
  /-- The first plain argument. -/
  source : Option String := none
  /-- The plain arguments after it. -/
  args : List String := []
  /-- A program as text. -/
  expr : Given String := .absent
  /-- Whether executed commands are shown. -/
  trace : Bool := false
  /-- The pause after every command, in thousandths of a second. -/
  sleep : Given Int := .absent
  /-- Whether the time and the counts are shown at the end. -/
  time : Bool := false
  /-- How many ticks the program may take. -/
  maxTicks : Given Int := .absent
  /-- The seed of random directions. -/
  seed : Given Int := .absent
  /-- Whether files are out of reach. -/
  noFiles : Bool := false
  /-- Whether the command interpreter is out of reach. -/
  noExec : Bool := false
  /-- Whether all events are shown. -/
  verbose : Bool := false
  /-- Whether only errors are shown. -/
  quiet : Bool := false
deriving DecidableEq, Repr, Inhabited

namespace Options

/-! ## Sorting arguments -/

/-- The argument after which nothing is an option. -/
def markText : String := "--"

/-- The use of an option. -/
structure Use where
  /-- The option. -/
  option : CliOption
  /-- Whether it was named with one dash. -/
  short : Bool
  /-- The value that was given with the name. -/
  value : Option (List Char)
deriving DecidableEq, Repr

/-- A sorted argument. -/
inductive Argument where
  /-- A plain argument. -/
  | plain (text : String)
  /-- The mark after which nothing is an option. -/
  | mark
  /-- The use of an option. -/
  | use (u : Use)
  /-- An option that does not exist. -/
  | unknown (text : String)
deriving DecidableEq, Repr

/-- A text divided at its first equality sign. -/
def divide (text : List Char) : List Char × Option (List Char) :=
  match text.dropWhile (· ≠ '=') with
  | [] => (text, none)
  | _ :: value => (text.takeWhile (· ≠ '='), some value)

/-- Whether a text is a row of decimal digits and not empty. -/
def isDigits (text : List Char) : Bool :=
  text ≠ [] && text.all fun c => (Digit.decimal? c).isSome

/-- Whether a text is a negative decimal number, perhaps with a point and perhaps with a line
feed after it. -/
def isNegativeNumber : List Char → Bool
  | '-' :: r =>
      let r := if r.getLast? = some '\n' then r.dropLast else r
      let whole := r.takeWhile (· ≠ '.')
      match r.dropWhile (· ≠ '.') with
      | [] => isDigits whole
      | _ :: decimals => (whole = [] || isDigits whole) && isDigits decimals
  | _ => false

/-- The options whose names with two dashes begin with a text. -/
def abbreviated (beginning : List Char) : List (String × CliOption) :=
  CliOption.table.filter fun (name, _) => beginning.isPrefixOf name.toList

/-- Sorts an argument before the mark. -/
def sort (arg : String) : Except UsageError Argument :=
  let text := arg.toList
  let other : Argument :=
    if isNegativeNumber text || text.contains ' ' then .plain arg else .unknown arg
  match text with
  | '-' :: c :: r =>
      match CliOption.ofName? text with
      | some o => .ok (.use ⟨o, c ≠ '-', none⟩)
      | none =>
          let (name, value) := divide text
          match CliOption.ofName? name, value with
          | some o, some value => .ok (.use ⟨o, c ≠ '-', some value⟩)
          | _, _ =>
              if c = '-' then
                match abbreviated name with
                | [] => .ok other
                | [(_, o)] => .ok (.use ⟨o, false, value⟩)
                | several => .error (.ambiguous arg (several.map Prod.fst))
              else
                match CliOption.ofName? ['-', c] with
                | some o => .ok (.use ⟨o, true, some r⟩)
                | none => .ok other
  | _ => .ok (.plain arg)

/-- Sorts all arguments. -/
def sortAll : List String → Except UsageError (List Argument)
  | [] => .ok []
  | arg :: rest =>
      if arg = markText then .ok (.mark :: rest.map .plain)
      else do
        let first ← sort arg
        return first :: (← sortAll rest)

/-! ## Using arguments -/

/-- The options that are run together with one, and the last of them, which may have a value
of its own. -/
def runTogether (o : CliOption) (short : Bool) : List Char →
    Except UsageError (List CliOption × CliOption × Option String)
  | [] => .error (.unusedValue o "")
  | c :: r =>
      if short then
        match CliOption.ofName? ['-', c] with
        | none => .error (.unusedValue o (String.ofList (c :: r)))
        | some next =>
            if r = [] then .ok ([o], next, none)
            else if next.takesValue then .ok ([o], next, some (String.ofList r))
            else do
              let (options, last) ← runTogether next short r
              return (o :: options, last)
      else .error (.unusedValue o (String.ofList (c :: r)))

/-- The options that one argument uses. -/
def uses (u : Use) : Except UsageError (List CliOption × CliOption × Option String) :=
  match u.value with
  | none => .ok ([], u.option, none)
  | some value =>
      if u.option.takesValue then .ok ([], u.option, some (String.ofList value))
      else runTogether u.option u.short value

/-- A value that may be any text. -/
def text (value : String) : Given String :=
  if value = markText then .blank else .value value

/-- A value that has to be an integer. -/
def integer (o : CliOption) (value : String) : Except UsageError (Given Int) :=
  if value = markText then .ok .blank
  else
    match Decimal.literal? value.toList with
    | some n => .ok (.value n)
    | none => .error (.notAnInteger o value)

/-- Options together with one that has no value. -/
def switchOn (opts : Options) : CliOption → Options
  | .trace => { opts with trace := true }
  | .time => { opts with time := true }
  | .noFiles => { opts with noFiles := true }
  | .noExec => { opts with noExec := true }
  | .verbose => { opts with verbose := true }
  | .quiet => { opts with quiet := true }
  | _ => opts

/-- Options together with one that has a value. -/
def assign (opts : Options) (o : CliOption) (value : String) : Except UsageError Options :=
  match o with
  | .expr => .ok { opts with expr := text value }
  | .sleep => do return { opts with sleep := ← integer o value }
  | .maxTicks => do return { opts with maxTicks := ← integer o value }
  | .seed => do return { opts with seed := ← integer o value }
  | _ => .ok opts

/-- Options together with one that is named, and with the text of its value.  The text of an option
without a value is of no account. -/
def amend (opts : Options) (named : CliOption × String) : Except UsageError Options :=
  if named.1.takesValue then assign opts named.1 named.2 else .ok (switchOn opts named.1)

/-- What was taken from the arguments so far. -/
structure Progress where
  /-- The options. -/
  options : Options := {}
  /-- The first row of plain arguments, with its mark. -/
  row : List Argument := []
  /-- Whether that row is over. -/
  rowOver : Bool := false
  /-- The arguments that belong to nothing. -/
  extras : List String := []

/-- The progress after an argument that names options.  There is none where help is asked for. -/
def Progress.use (p : Progress) (named : List (CliOption × String)) :
    Except UsageError (Option Progress) :=
  if named.any (·.1 = .help) then .ok none
  else do
    let options ← named.foldlM amend p.options
    return some { p with options, rowOver := p.rowOver || p.row ≠ [] }

/-- The end of using arguments. -/
inductive Use.End where
  /-- Help was asked for. -/
  | help
  /-- All arguments were used. -/
  | all (p : Progress)

/-- The text of an argument that is no option's use. -/
def Argument.text : Argument → String
  | .plain text => text
  | .mark => markText
  | .use _ => ""
  | .unknown text => text

/-- Uses arguments in order.  A value that is not given with the name is the next argument. -/
def useAll (p : Progress) : List Argument → Except UsageError Use.End
  | [] => .ok (.all p)
  | .unknown text :: rest =>
      useAll { p with rowOver := p.rowOver || p.row ≠ [], extras := p.extras ++ [text] } rest
  | .use u :: rest =>
      match uses u with
      | .error e => .error e
      | .ok (switches, last, value) =>
          match last.takesValue, value, rest with
          | true, none, .plain value :: rest =>
              match p.use (switches.map (·, "") ++ [(last, value)]) with
              | .error e => .error e
              | .ok none => .ok .help
              | .ok (some p) => useAll p rest
          | true, none, _ => .error (.missingValue last)
          | _, value, rest =>
              match p.use (switches.map (·, "") ++ [(last, value.getD "")]) with
              | .error e => .error e
              | .ok none => .ok .help
              | .ok (some p) => useAll p rest
  | other :: rest =>
      if p.rowOver then useAll { p with extras := p.extras ++ [other.text] } rest
      else useAll { p with row := p.row ++ [other] } rest

/-- The row divided after its first plain argument and a mark that follows it. -/
def divideRow : List Argument → List Argument × List Argument
  | .mark :: .plain a :: rest => ([.mark, .plain a], rest)
  | .plain a :: .mark :: rest => ([.plain a, .mark], rest)
  | .plain a :: rest => ([.plain a], rest)
  | row => (row, [])

/-- The options with the program and its arguments taken from the row.  Each of the two parts
of the row leaves out the first argument that is spelled like the mark. -/
def takeRow (opts : Options) (row : List Argument) : Options :=
  let (first, rest) := divideRow row
  { opts with
    source := ((first.map Argument.text).erase markText).head?
    args := (rest.map Argument.text).erase markText }

/-- What the arguments come to. -/
inductive Parsed where
  /-- Help was asked for. -/
  | help
  /-- A program is to be run. -/
  | run (opts : Options)
deriving DecidableEq, Repr

/-- Reads the arguments.  A program has to be named or given as text, and an empty name is
none. -/
def parse (args : List String) : Except UsageError Parsed := do
  match ← useAll {} (← sortAll args) with
  | .help => return .help
  | .all p =>
      let opts := takeRow p.options p.row
      if p.extras ≠ [] then .error (.unrecognized p.extras)
      else if opts.source.getD "" = "" ∧ opts.expr = .absent then .error .noProgram
      else return .run opts

/-- Options may be run together, with the value of the last one behind them. -/
example : (parse ["-tpe1.@"]).toOption =
    some (.run { trace := true, time := true, expr := .value "1.@" }) := by decide +kernel

/-- A value that is spelled like the mark leaves its option blank. -/
example : (parse ["--seed=--", "p"]).toOption =
    some (.run { source := some "p", seed := .blank }) := by decide +kernel

end Options

end Befunge
