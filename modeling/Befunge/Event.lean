import Befunge.Bounds
import Befunge.Console
import Befunge.Shell
import Befunge.Trace

/-!
# Events

Everything worth telling that happens around a machine is an event.  An event has a
level of importance, the part of the interpreter it comes from, and a wording.
-/

namespace Befunge

/-- Why a file operation is not done. -/
inductive FileError where
  /-- Files are out of reach. -/
  | denied (name : String)
  /-- The operation failed at a path. -/
  | failed (failure : FileFailure) (path : String)
deriving DecidableEq, Repr

/-- The wording of a failed file operation. -/
def FileError.message : FileError → String
  | .denied name => "file access denied: " ++ name
  | .failed failure path =>
      match failure.number? with
      | some n => "[Errno " ++ toString n ++ "] " ++ failure.reason ++ ": " ++ Quoted.text path
      | none => failure.reason

/-- How important an event is. -/
inductive Level where
  | debug
  | info
  | warning
  | error
  | critical
deriving DecidableEq, Repr

namespace Level

/-- Levels in numbers. -/
def rank : Level → Nat
  | .debug => 10
  | .info => 20
  | .warning => 30
  | .error => 40
  | .critical => 50

/-- The word for a level. -/
def word : Level → String
  | .debug => "DEBUG"
  | .info => "INFO"
  | .warning => "WARNING"
  | .error => "ERROR"
  | .critical => "CRITICAL"

/-- All levels. -/
def all : List Level := [.debug, .info, .warning, .error, .critical]

end Level

/-- The part of the interpreter an event comes from. -/
inductive Channel where
  | interpreter
  | loader
  | devices
  | instructions
  | machine
deriving DecidableEq, Repr

/-- The name of a channel. -/
def Channel.name : Channel → String
  | .interpreter => "funge"
  | .loader => "funge.loader"
  | .devices => "funge.devices"
  | .instructions => "funge.instructions"
  | .machine => "funge.machine"

/-- Something that happened. -/
inductive Event where
  /-- A program was not valid UTF-8. -/
  | readBytewise
  /-- A program was laid out. -/
  | loaded (cells : Nat) (bounds : Bounds)
  /-- A program is about to run. -/
  | started (name : String) (args : List String)
  /-- A pointer made another one. -/
  | spawned (parent child : Int) (position : Vec)
  /-- A pointer stopped. -/
  | stopped (id : Int) (position : Vec)
  /-- A pointer ended the program. -/
  | quit (code : Int)
  /-- The program used up its ticks. -/
  | exhausted (maxTicks : Int)
  /-- A command was executed. -/
  | executed (record : TraceRecord)
  /-- A file is about to be read. -/
  | reading (name : String)
  /-- A file is about to be written. -/
  | writing (bytes : Nat) (name : String) (offset : Int)
  /-- A text is about to be run in the command interpreter. -/
  | executing (text : String)
  /-- Writing to the console failed. -/
  | outputFailed (id : Int) (cause : StreamError)
  /-- Reading from the console failed. -/
  | inputFailed (id : Int) (cause : StreamError)
  /-- Reading a file failed. -/
  | readFailed (id : Int) (name : String) (cause : FileError)
  /-- Writing a file failed. -/
  | writeFailed (id : Int) (name : String) (cause : FileError)
  /-- Running a text failed. -/
  | executeFailed (id : Int) (text : String) (cause : CommandError)
  /-- A pointer loaded a fingerprint. -/
  | fingerprintLoaded (id : Int) (name : String)
  /-- A pointer unloaded a fingerprint. -/
  | fingerprintUnloaded (id : Int) (name : String)
deriving DecidableEq

namespace Event

/-- How important an event is. -/
def level : Event → Level
  | .readBytewise => .info
  | .exhausted .. | .outputFailed .. | .inputFailed .. | .readFailed .. | .writeFailed ..
  | .executeFailed .. => .warning
  | _ => .debug

/-- Where an event comes from. -/
def channel : Event → Channel
  | .started .. => .interpreter
  | .readBytewise | .loaded .. => .loader
  | .reading .. | .writing .. | .executing .. => .devices
  | .spawned .. | .stopped .. | .quit .. | .exhausted .. | .executed .. => .machine
  | .outputFailed .. | .inputFailed .. | .readFailed .. | .writeFailed .. | .executeFailed ..
  | .fingerprintLoaded .. | .fingerprintUnloaded .. => .instructions

/-- The wording of an event. -/
def message : Event → String
  | .readBytewise => "source is not valid UTF-8, reading it as Latin-1"
  | .loaded cells bounds => "loaded " ++ toString cells ++ " cells, bounds " ++ bounds.text
  | .started name args => "running " ++ name ++ " with args " ++ Quoted.listing args
  | .spawned parent child position =>
      "IP " ++ toString parent ++ " spawned IP " ++ toString child ++ " at " ++ position.text
  | .stopped id position => "IP " ++ toString id ++ " stopped at " ++ position.text
  | .quit code => "halted with exit code " ++ toString code
  | .exhausted maxTicks => "tick budget of " ++ toString maxTicks ++ " exhausted"
  | .executed record => record.text
  | .reading name => "reading " ++ name
  | .writing bytes name offset =>
      "writing " ++ toString bytes ++ " bytes to " ++ name ++ " at offset " ++ toString offset
  | .executing text => "executing " ++ Quoted.text text
  | .outputFailed id cause => "IP " ++ toString id ++ ": output failed: " ++ cause.message
  | .inputFailed id cause => "IP " ++ toString id ++ ": input failed: " ++ cause.message
  | .readFailed id name cause =>
      "IP " ++ toString id ++ ": cannot read " ++ name ++ ": " ++ cause.message
  | .writeFailed id name cause =>
      "IP " ++ toString id ++ ": cannot write " ++ name ++ ": " ++ cause.message
  | .executeFailed id text cause =>
      "IP " ++ toString id ++ ": cannot execute " ++ Quoted.text text ++ ": " ++ cause.message
  | .fingerprintLoaded id name => "IP " ++ toString id ++ " loaded fingerprint " ++ name
  | .fingerprintUnloaded id name => "IP " ++ toString id ++ " unloaded fingerprint " ++ name

/-- The record of an executed command. -/
def record? : Event → Option TraceRecord
  | .executed record => some record
  | _ => none

/-- Whether an event is logged.  Executed commands are logged only where that is asked for, and
where all their numbers can be written. -/
def isLogged (trace : Bool) (threshold : Level) (e : Event) : Bool :=
  e.record?.all (fun r => trace && r.isWritable) && threshold.rank ≤ e.level.rank

end Event

end Befunge
