import Befunge.Event
import Befunge.Space
import Befunge.Text.Utf8

/-!
# Program sources

A program comes as text or as bytes.  Bytes are read as UTF-8, without a byte-order mark at
their start, or one character per byte where they are not valid UTF-8.
-/

namespace Befunge

/-- A program before it is laid out. -/
inductive Source where
  /-- As text. -/
  | text (text : String)
  /-- As bytes. -/
  | bytes (data : ByteArray)
deriving Inhabited

/-- A program that cannot be read. -/
inductive LoadError where
  /-- The file at a path cannot be read. -/
  | unreadable (path : String) (failure : FileFailure)
deriving DecidableEq, Repr

/-- The wording of a failed load. -/
def LoadError.message : LoadError → String
  | .unreadable path failure =>
      match failure.number? with
      | some _ => "cannot read " ++ path ++ ": " ++ failure.reason
      | none => failure.reason

/-- Whether a load failed in the file system, and not before that was asked. -/
def LoadError.isFileSystem : LoadError → Bool
  | .unreadable _ failure => failure.number?.isSome

namespace Source

/-- The characters of a program, and what is to be told about them. -/
def decode : Source → List Char × List Event
  | .text program => (program.toList, [])
  | .bytes data =>
      match Utf8.decodeSource data with
      | (program, true) => (program, [])
      | (program, false) => (program, [.readBytewise])

/-- The space a program is laid out in, and what is to be told about that, the latest first. -/
def load (s : Source) : Space × List Event :=
  let (program, events) := s.decode
  let space := Space.ofText program
  (space, .loaded space.size space.bounds :: events)

/-- The program in a file. -/
def ofFile (t : FileTree) (path : String) : Except LoadError Source :=
  match t.read path with
  | .ok data => .ok (.bytes data)
  | .error failure => .error (.unreadable path failure)

end Source

end Befunge
