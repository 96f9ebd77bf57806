import Befunge.World

/-!
# The report on the machine

A pointer can ask for a report on the machine and on itself.  The report is a row of cells
that are pushed so that the first one ends on top.  It is made from its last cell on, so the
clock is read for the time of day before it is read for the date.
-/

namespace Befunge.SystemReport

/-- The mark of this interpreter. -/
def handprint : Int := 0x5059464E

/-- How many bytes a cell counts for. -/
def cellBytes : Int := 4

/-- The version, one byte for each of its three numbers. -/
def version : Int := 0 * 65536 + 1 * 256 + 0

/-- The character that divides the names of a path. -/
def pathSeparator : Int := Cell.ofChar '/'

/-- How many coordinates a position has. -/
def dimensions : Int := 2

/-- What programs can do: one for concurrency, two and four for files, eight for commands. -/
def flags (c : Config) : Int :=
  1 + (if c.files = .real then 6 else 0) + (if c.commands = .real then 8 else 0)

/-- How commands are run: two for a shell, zero for not at all. -/
def paradigm (c : Config) : Int :=
  match c.commands with
  | .real => 2
  | .deny => 0

/-- The cells of a vector, the second coordinate first. -/
def vecCells (p : Vec) : List Int := [p.y, p.x]

/-- The cells of several texts. -/
def textsCells (texts : List String) : List Int :=
  texts.flatMap fun t => Stack.textCells (CodePoint.ofChars t.toList)

/-- The texts that tell the environment, in the order of the variables' names. -/
def environmentTexts (env : Environment) : List String :=
  env.sorted.map fun (name, value) => name ++ "=" ++ value

/-- The cells of the report for a pointer, the one that ends on top first. -/
def cells (w : World) (ip : Pointer) : List Int :=
  let bounds := w.space.bounds
  [flags w.config, cellBytes, handprint, version, paradigm w.config, pathSeparator, dimensions,
    ip.id, 0] ++
  vecCells ip.position ++ vecCells ip.delta ++ vecCells ip.storage ++
  vecCells bounds.least ++ vecCells (bounds.greatest - bounds.least) ++
  [w.readClock.2.readClock.1.date, w.readClock.1.time, Int.ofNat ip.pile.size] ++
  ip.pile.sizes.map Int.ofNat ++
  textsCells w.config.args ++ [0, 0] ++
  textsCells (environmentTexts w.environment) ++ [0]

end Befunge.SystemReport
