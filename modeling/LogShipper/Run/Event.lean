import LogShipper.Calendar.Timestamp
import LogShipper.Document.Compiled

/-!
# Events

What a run tells about itself while it goes on.
-/

namespace LogShipper

/-- How important an event is. -/
inductive EventLevel where
  | error
  | warn
  | info
  | debug
deriving DecidableEq, Repr

namespace EventLevel

/-- The word for a level. -/
def word : EventLevel → String
  | .error => "ERROR"
  | .warn => "WARN"
  | .info => "INFO"
  | .debug => "DEBUG"

/-- The least verbosity that shows events of the level. -/
def rank : EventLevel → Nat
  | .error => 1
  | .warn => 2
  | .info => 3
  | .debug => 4

end EventLevel

/-- Something that happened in a run. -/
inductive Event where
  | pluginFound (path : String)
  | exclusionsUnusable (field : String)
  | pieceSkipped (skipped : SkippedPiece)
  | compiled (sections : Nat) (joining : Bool) (skipped : Nat)
  | fileCreated (path : String) (bytes : Nat)
  | generated (documents : Nat)
  | noJoiningDocument
  | failed (message : String)
deriving DecidableEq, Repr

namespace Event

/-- How important an event is. -/
def level : Event → EventLevel
  | .failed _ => .error
  | .pieceSkipped _ | .noJoiningDocument => .warn
  | .pluginFound _ | .fileCreated .. | .generated _ => .info
  | .exclusionsUnusable _ | .compiled .. => .debug

/-- What an event says. -/
def message : Event → String
  | .pluginFound _ => "Output plugin found"
  | .exclusionsUnusable _ => "Exclusion list has no usable entries, filter omitted"
  | .pieceSkipped skipped => "Skipping invalid field entry: " ++ skipped.complaint
  | .compiled .. => "Compiled configuration"
  | .fileCreated .. => "Configuration file created"
  | .generated _ => "Configuration generated"
  | .noJoiningDocument =>
    "No multiline document produced: MULTILINE_START_STATE_RULE is empty"
  | .failed message => message

/-- What an event is about, by name. -/
def details : Event → List (String × Json)
  | .pluginFound path => [("path", .string path)]
  | .exclusionsUnusable field => [("field", .string field)]
  | .pieceSkipped skipped =>
    [("setting", .string skipped.setting), ("entry", .string skipped.piece)]
  | .compiled sections joining skipped =>
    [("sections", .int sections), ("multiline", .bool joining), ("warnings", .int skipped)]
  | .fileCreated path bytes => [("path", .string path), ("bytes", .int bytes)]
  | .generated documents => [("artifacts", .int documents)]
  | .noJoiningDocument | .failed _ => []

/-- The event and its time on one line, as JSON. -/
def jsonLine (time : Calendar.Instant) (e : Event) : String :=
  (Json.object [("timestamp", .string time.toText), ("level", .string e.level.word),
    ("fields", .object (("message", .string e.message) :: e.details))]).compact

/-- The event and its time on one line, for a reader. -/
def plainLine (time : Calendar.Instant) (e : Event) : String :=
  let details := e.details.map fun (name, v) => ", " ++ name ++ ": " ++ v.compact
  time.toText ++ " " ++ e.level.word ++ " " ++ e.message ++ String.join details

end Event

/-- What happens while a snapshot is compiled, in order. -/
def Settings.compileEvents (s : Settings) : List Event :=
  let subjects := [Subject.containerName, .imageName, .logLine].filter s.hasUnusableExclusions
  let compiled := s.documents
  subjects.map (.exclusionsUnusable ·.field) ++ compiled.skipped.map .pieceSkipped ++
    [.compiled compiled.sections.length compiled.joining?.isSome compiled.skipped.length]

end LogShipper
