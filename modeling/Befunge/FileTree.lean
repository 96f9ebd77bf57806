import Befunge.Text.Quoted

/-!
# Files

A program reads and writes the files of a working directory.  The directory is a value
here: a list of places, each with what is there.  A place is the row of names that lead to
it from the working directory.  Places elsewhere have a row that begins with `..` or with `/`.

A path is written with slashes.  Doubled slashes, a slash at the end and the component
`.` make no difference, and the empty text names the working directory itself.  No path has the
null character in it.
-/

namespace Befunge

/-- Why a file operation fails. -/
inductive FileFailure where
  /-- Nothing is there. -/
  | notFound
  /-- A directory is there. -/
  | isDirectory
  /-- The path goes through something that is no directory. -/
  | notDirectory
  /-- A name of the path has more bytes than a name may have. -/
  | nameTooLong
  /-- The offset to write at lies before the start of every file, or past the end. -/
  | badOffset
  /-- The file would be longer than a file may be. -/
  | tooLarge
  /-- The path has a null character in it. -/
  | nullCharacter
  /-- The offset to write at is no signed 64-bit word. -/
  | notAnOffset
  /-- The device that keeps the file stopped working. -/
  | deviceFailed
deriving DecidableEq, Repr

namespace FileFailure

/-- The number of a failure.  What is refused before the file system is asked has none. -/
def number? : FileFailure → Option Nat
  | .notFound => some 2
  | .isDirectory => some 21
  | .notDirectory => some 20
  | .nameTooLong => some 36
  | .badOffset => some 22
  | .tooLarge => some 27
  | .nullCharacter => none
  | .notAnOffset => none
  | .deviceFailed => some 5

/-- The wording of a failure. -/
def reason : FileFailure → String
  | .notFound => "No such file or directory"
  | .isDirectory => "Is a directory"
  | .notDirectory => "Not a directory"
  | .nameTooLong => "File name too long"
  | .badOffset => "Invalid argument"
  | .tooLarge => "File too large"
  | .nullCharacter => "embedded null byte"
  | .notAnOffset => "cannot fit \x27int\x27 into an offset-sized integer"
  | .deviceFailed => "Input/output error"

end FileFailure

/-- A path as a program names it. -/
structure PathName where
  /-- The slashes a path starts with that does not start at the working directory. -/
  root : String
  /-- The names along the path. -/
  names : List String
deriving DecidableEq, Repr, Inhabited

namespace PathName

/-- How many slashes a path keeps at its start: two stay two, more are one. -/
def rootOf (name : List Char) : String :=
  match (name.takeWhile (· = '/')).length with
  | 0 => ""
  | 2 => "//"
  | _ => "/"

/-- The pieces of a text between slashes. -/
def pieces : List Char → List (List Char)
  | [] => [[]]
  | c :: r =>
      if c = '/' then [] :: pieces r
      else
        match pieces r with
        | [] => [[c]]
        | piece :: rest => (c :: piece) :: rest

/-- The path a text names. -/
def ofText (name : String) : PathName where
  root := rootOf name.toList
  names := ((pieces name.toList).filter fun p => p ≠ [] ∧ p ≠ ['.']).map String.ofList

/-- A path in its shortest form. -/
def text (p : PathName) : String :=
  if p.root = "" ∧ p.names = [] then "." else p.root ++ "/".intercalate p.names

/-- The place a path starts at. -/
def start (p : PathName) : List String := if p.root = "" then [] else ["/"]

/-- The place a name leads to.  The way up from the working directory is kept as it is
written, and there is no way up from the root. -/
def enter (place : List String) (name : String) : List String :=
  if name ≠ ".." then place ++ [name]
  else if place = ["/"] then place
  else if place.all (· = "..") then place ++ [name]
  else place.dropLast

/-- The places that names lead to, one after the other. -/
def placesFrom (place : List String) : List String → List (List String)
  | [] => []
  | name :: names => enter place name :: placesFrom (enter place name) names

/-- The places along a path. -/
def places (p : PathName) : List (List String) := placesFrom p.start p.names

/-- Whether a path has the null character in it. -/
def hasNull (p : PathName) : Bool := p.names.any fun name => name.toList.any (·.toNat = 0)

/-- The greatest number of bytes in a name. -/
def maxName : Nat := 255

/-- The greatest number of bytes in a path. -/
def maxPath : Nat := 4095

example : (ofText "a//./b/").text = "a/b" ∧ (ofText "").text = "." := by decide +kernel

end PathName

/-- What stands at a path. -/
inductive FileNode where
  /-- A file with its bytes. -/
  | file (data : ByteArray)
  /-- A directory. -/
  | directory
  /-- Something that can be neither read nor written. -/
  | broken
deriving Inhabited

/-- A working directory. -/
structure FileTree where
  /-- What stands at each place. -/
  entries : List (List String × FileNode) := []
deriving Inhabited

namespace FileTree

/-- Whether a place is a directory in every tree: the working directory, one of those it is
in, or the root. -/
def isAnchor (place : List String) : Bool := place.all (· = "..") || place = ["/"]

/-- What stands at a place. -/
def node? (t : FileTree) (place : List String) : Option FileNode :=
  if isAnchor place then some .directory else t.entries.lookup place

/-- Follows names from a place on.  Each name but the last has to be that of a directory. -/
def follow (t : FileTree) (place : List String) : List String → Except FileFailure (List String)
  | [] => .ok place
  | name :: names =>
      match t.node? place with
      | none => .error .notFound
      | some (.file _) | some .broken => .error .notDirectory
      | some .directory =>
          if PathName.maxName < name.utf8ByteSize then .error .nameTooLong
          else t.follow (PathName.enter place name) names

/-- The place that a path leads to. -/
def resolve (t : FileTree) (p : PathName) : Except FileFailure (List String) :=
  if p.hasNull then .error .nullCharacter
  else if PathName.maxPath < p.text.utf8ByteSize then .error .nameTooLong
  else t.follow p.start p.names

/-- The tree with something put at a place. -/
def insert (t : FileTree) (place : List String) (node : FileNode) : FileTree :=
  ⟨go t.entries⟩
where
  /-- The entries with the one of the place replaced, or added at the end. -/
  go : List (List String × FileNode) → List (List String × FileNode)
    | [] => [(place, node)]
    | (q, old) :: r => if q = place then (q, node) :: r else (q, old) :: go r

/-- The bytes of a file. -/
def read (t : FileTree) (name : String) : Except FileFailure ByteArray := do
  let place ← t.resolve (.ofText name)
  match t.node? place with
  | none => .error .notFound
  | some .directory => .error .isDirectory
  | some .broken => .error .deviceFailed
  | some (.file data) => .ok data

/-- The bytes of a file to be written to, where a file that does not exist has none. -/
def openForWriting (t : FileTree) (name : String) :
    Except FileFailure (List String × ByteArray) := do
  let place ← t.resolve (.ofText name)
  match t.node? place with
  | none => .ok (place, ByteArray.empty)
  | some .directory => .error .isDirectory
  | some .broken => .error .deviceFailed
  | some (.file data) => .ok (place, data)

/-- Bytes with some of them overwritten from an offset on.  A gap is filled with zeros, and
writing nothing changes nothing. -/
def overwrite (old new : ByteArray) (offset : Nat) : ByteArray :=
  if new.size = 0 then old
  else
    let gap := ByteArray.mk (Array.replicate (offset - old.size) 0)
    (old ++ gap).extract 0 offset ++ new ++ old.extract (offset + new.size) old.size

/-- The greatest number of bytes in a file. -/
def maxSize : Nat := 0xFFFFFFFF000

/-- Why so many bytes cannot be written at an offset. -/
def offsetFailure? (size : Nat) (offset : Int) : Option FileFailure :=
  if offset < -0x8000000000000000 ∨ 0x7FFFFFFFFFFFFFFF < offset then some .notAnOffset
  else if offset < 0 ∨ maxSize < offset then some .badOffset
  else if size ≠ 0 ∧ maxSize < offset + size then some .tooLarge
  else none

/-- Only bytes that are written make a file longer. -/
example : offsetFailure? 0 maxSize = none ∧ offsetFailure? 1 maxSize = some .tooLarge ∧
    offsetFailure? 0 (maxSize + 1) = some .badOffset := by decide +kernel

/-- Writes a file.  At the start the file is replaced, anywhere else it is overwritten in
part.  A bad offset is found only once the file is there. -/
def write (t : FileTree) (name : String) (data : ByteArray) (offset : Int) :
    Except FileFailure Unit × FileTree :=
  match t.openForWriting name with
  | .error e => (.error e, t)
  | .ok (place, old) =>
      if offset = 0 then (.ok (), t.insert place (.file data))
      else
        match offsetFailure? data.size offset with
        | some e => (.error e, t.insert place (.file old))
        | none => (.ok (), t.insert place (.file (overwrite old data offset.toNat)))

/-- The tree with directories at places where nothing is. -/
def addDirectories (t : FileTree) (places : List (List String)) : FileTree :=
  places.foldl (fun t place => if (t.node? place).isNone then t.insert place .directory else t) t

/-- The tree with a directory added, and all directories it is in. -/
def addDirectory (t : FileTree) (name : String) : FileTree :=
  t.addDirectories (PathName.ofText name).places

/-- The tree with a file added, and all directories it is in. -/
def addFile (t : FileTree) (name : String) (data : ByteArray) : FileTree :=
  match (PathName.ofText name).places.getLast? with
  | none => t
  | some place =>
      (t.addDirectories (PathName.ofText name).places.dropLast).insert place (.file data)

/-- Whether a place is under the working directory. -/
def isInside (place : List String) : Bool :=
  !(place.head?.any fun name => name = ".." || name = "/")

/-- The name and the bytes of every file under the working directory. -/
def files (t : FileTree) : List (String × ByteArray) :=
  t.entries.filterMap fun (place, node) =>
    match node with
    | .file data => if isInside place then some ("/".intercalate place, data) else none
    | .directory | .broken => none

end FileTree

end Befunge
