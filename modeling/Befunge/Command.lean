import Befunge.Cell
import Befunge.Vec

/-!
# Commands

A command is what the character under a pointer asks for.  The table gives each command
its character.  A cell that is not in the table asks for nothing, and turns the
pointer round.
-/

namespace Befunge

/-- A computation on two cells. -/
inductive Arithmetic where
  | add
  | subtract
  | multiply
  | divide
  | remainder
  /-- One if the lower cell is the greater, and zero otherwise. -/
  | greater
deriving DecidableEq, Repr

/-- The result of a computation. -/
def Arithmetic.apply : Arithmetic → Int → Int → Int
  | .add, a, b => Cell.wrap (a + b)
  | .subtract, a, b => Cell.wrap (a - b)
  | .multiply, a, b => Cell.wrap (a * b)
  | .divide, a, b => Cell.divide a b
  | .remainder, a, b => Cell.remainder a b
  | .greater, a, b => Cell.ofBool (decide (b < a))

/-- A command. -/
inductive Command where
  /-- Pushes a number. -/
  | literal (value : Int)
  /-- Replaces two cells by the result of a computation. -/
  | compute (op : Arithmetic)
  /-- Replaces a cell by one if it is zero, and by zero otherwise. -/
  | logicalNot
  /-- Pushes the top cell once more. -/
  | duplicate
  /-- Drops the top cell. -/
  | drop
  /-- Exchanges the two top cells. -/
  | swap
  /-- Empties the stack. -/
  | clear
  /-- Begins a block. -/
  | beginBlock
  /-- Ends a block. -/
  | endBlock
  /-- Moves cells between the two topmost stacks. -/
  | under
  /-- Sets the delta. -/
  | go (delta : Vec)
  /-- Sets the delta to a random direction. -/
  | goAway
  /-- Goes east on zero and west otherwise. -/
  | eastWestIf
  /-- Goes south on zero and north otherwise. -/
  | northSouthIf
  /-- Turns left. -/
  | turnLeft
  /-- Turns right. -/
  | turnRight
  /-- Turns left if the lower of two cells is the less, and right if it is the greater. -/
  | compare
  /-- Turns round. -/
  | reflect
  /-- Sets the delta to a vector from the stack. -/
  | setDelta
  /-- Passes over the next cell. -/
  | trampoline
  /-- Passes over as many cells as the stack says. -/
  | jump
  /-- Executes the next command as often as the stack says. -/
  | iterate
  /-- Does nothing. -/
  | noOperation
  /-- Stops the pointer. -/
  | stop
  /-- Ends the program with the exit code on the stack. -/
  | quit
  /-- Makes a second pointer that goes the other way. -/
  | split
  /-- Begins a string. -/
  | beginString
  /-- Pushes the next cell and passes over it. -/
  | fetch
  /-- Stores the top cell in the next cell and passes over it. -/
  | store
  /-- Reads program space. -/
  | get
  /-- Writes program space. -/
  | put
  /-- Writes a character. -/
  | writeChar
  /-- Writes a number. -/
  | writeInteger
  /-- Reads a character. -/
  | readChar
  /-- Reads a number. -/
  | readInteger
  /-- Reads a file into program space. -/
  | inputFile
  /-- Writes a region of program space to a file. -/
  | outputFile
  /-- Runs a text in the command interpreter. -/
  | execute
  /-- Reports on the machine. -/
  | report
  /-- Loads a fingerprint. -/
  | loadFingerprint
  /-- Unloads a fingerprint. -/
  | unloadFingerprint
  /-- Does what the loaded fingerprints say. -/
  | letter (c : Char)
deriving DecidableEq, Repr

namespace Command

/-- The digits, each with the number it pushes. -/
def literals : List (Char × Command) :=
  [('0', .literal 0), ('1', .literal 1), ('2', .literal 2), ('3', .literal 3), ('4', .literal 4),
    ('5', .literal 5), ('6', .literal 6), ('7', .literal 7), ('8', .literal 8), ('9', .literal 9),
    ('a', .literal 10), ('b', .literal 11), ('c', .literal 12), ('d', .literal 13),
    ('e', .literal 14), ('f', .literal 15)]

/-- The letters that fingerprints give a meaning to. -/
def letters : List (Char × Command) :=
  "ABCDEFGHIJKLMNOPQRSTUVWXYZ".toList.map fun c => (c, .letter c)

/-- The commands that are neither digits nor letters. -/
def symbols : List (Char × Command) :=
  [('+', .compute .add), ('-', .compute .subtract), ('*', .compute .multiply),
    ('/', .compute .divide), ('%', .compute .remainder), ('\x60', .compute .greater),
    ('!', .logicalNot), (':', .duplicate), ('$', .drop), ('\\', .swap), ('n', .clear),
    ('{', .beginBlock), ('}', .endBlock), ('u', .under),
    ('>', .go Vec.east), ('<', .go Vec.west), ('^', .go Vec.north), ('v', .go Vec.south),
    ('?', .goAway), ('_', .eastWestIf), ('|', .northSouthIf), ('[', .turnLeft), (']', .turnRight),
    ('w', .compare), ('r', .reflect), ('x', .setDelta), ('#', .trampoline), ('j', .jump),
    ('k', .iterate), ('z', .noOperation), ('@', .stop), ('q', .quit), ('t', .split),
    ('\x22', .beginString), ('\x27', .fetch), ('s', .store), ('g', .get), ('p', .put),
    (',', .writeChar), ('.', .writeInteger), ('~', .readChar), ('&', .readInteger),
    ('i', .inputFile), ('o', .outputFile), ('=', .execute), ('y', .report),
    ('(', .loadFingerprint), (')', .unloadFingerprint)]

/-- Every command with its character. -/
def table : List (Char × Command) := literals ++ symbols ++ letters

/-- The command a cell asks for. -/
def ofCell? (v : Int) : Option Command := (Cell.char? v).bind fun c => table.lookup c

/-- The cells that ask for a command, the least first. -/
def cells : List Int := (table.map fun (c, _) => Cell.ofChar c).mergeSort

/-- The cells whose commands are executed once however often they are to be repeated, the
least first. -/
def onceOnly : List Int := ("<>?@[]^_nqrvz|".toList.map Cell.ofChar)

/-- A command as it is shown in messages. -/
def shown (v : Int) : String :=
  if v = Cell.blank then "' '" else (Cell.shown v).toString

/-- No character is given to two commands. -/
example : (table.map Prod.fst).Nodup := by decide +kernel

example : ofCell? 64 = some .stop ∧ ofCell? 32 = none ∧ ofCell? 59 = none ∧
    ofCell? (-1) = none := by decide +kernel

end Command

end Befunge
