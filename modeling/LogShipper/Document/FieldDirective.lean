import LogShipper.Json.Form
import LogShipper.Section.Basic
import LogShipper.Settings.Basic
import LogShipper.Text.Pieces

/-!
# Field directives

Two settings list fields to add to a record or to set in it, as keys and values with a colon
between them. Pieces without a colon are left out with a warning.
-/

namespace LogShipper

/-- A key and the value it gets. -/
structure FieldDirective where
  key : String
  value : String
deriving DecidableEq, Repr

namespace FieldDirective

/-- The directive of a piece: what stands before and after its first colon, without blanks around;
none without a colon. -/
def parse? (piece : String) : Option FieldDirective :=
  (Text.cutAt? ':' piece.toList).map fun (key, value) =>
    { key := String.ofList (Text.trim key), value := String.ofList (Text.trim value) }

/-- What is said about a piece without a colon. -/
def complaint (piece : String) : String :=
  "Expected format 'key:value', got '" ++ piece ++ "'"

/-- The value of an entry for the directive. -/
def text (d : FieldDirective) : String :=
  d.key ++ " " ++ d.value

end FieldDirective

/-- A piece of a setting that was left out. -/
structure SkippedPiece where
  setting : String
  piece : String
  complaint : String
deriving DecidableEq, Repr

instance : JsonForm SkippedPiece where
  shape := .record "FieldWarning" [⟨"setting", .text, .fault⟩, ⟨"entry", .text, .fault⟩,
    ⟨"message", .text, .fault⟩]
  toJson w := .object [("setting", .string w.setting), ("entry", .string w.piece),
    ("message", .string w.complaint)]
  ofJson?
    | .object [("setting", .string setting), ("entry", .string piece),
        ("message", .string complaint)] => some { setting, piece, complaint }
    | _ => none

/-- The sections that change fields, and what was left out of them. -/
structure FieldChanges where
  sections : List Section
  skipped : List SkippedPiece
deriving DecidableEq, Repr

namespace FieldChanges

/-- The field that the engine reads a message into. -/
def rawField : String := "log"

/-- The field that filters and the output know a message by. -/
def messageField : String := "message"

/-- The beginning of a section that changes fields. -/
def modify : Section :=
  (Section.new .filter).entry "Name" "modify" |>.entry "Match" "*"

/-- The section that is always there: a message gets its proper field name. -/
def rename : Section :=
  modify.entry "Rename" (rawField ++ " " ++ messageField)

/-- The pieces of a list of directives; an empty text has none. -/
def pieces (list : String) : List String :=
  if list = "" then [] else Text.splitPieces ',' list

/-- The directives of a list. -/
def directives (list : String) : List FieldDirective :=
  (pieces list).filterMap FieldDirective.parse?

/-- What is left out of a list that is the value of a setting. -/
def skippedOf (setting : Setting) (list : String) : List SkippedPiece :=
  ((pieces list).filter fun p => (FieldDirective.parse? p).isNone).map fun p =>
    { setting := setting.name, piece := p, complaint := FieldDirective.complaint p }

/-- The section for the directives of a list, if there are any. -/
def block? (word : String) (list : String) : Option Section :=
  match directives list with
  | [] => none
  | ds => some (ds.foldl (fun s d => s.entry word d.text) modify)

/-- The settings that hold directives, with the word for each. Additions come before settings. -/
def groups : List (Setting × String) :=
  [(.additionalFields, "Add"), (.setFields, "Set")]

/-- The sections of a snapshot that change fields. -/
def ofSettings (s : Settings) : FieldChanges :=
  { sections := rename :: groups.filterMap fun (k, word) => block? word (s.value k)
    skipped := groups.flatMap fun (k, _) => skippedOf k (s.value k) }

end FieldChanges

end LogShipper
