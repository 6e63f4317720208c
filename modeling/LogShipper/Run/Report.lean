import LogShipper.Calendar.Timestamp
import LogShipper.Digest.Sha256
import LogShipper.Document.FieldDirective

/-!
# Reports

What a run that came to its end has written, from which settings, and what it left out.
-/

namespace LogShipper

/-- A document that was written: where, how many bytes, and their digest. -/
structure WrittenDocument where
  path : String
  bytes : Nat
  sha256 : String
deriving DecidableEq, Repr

/-- The record of a text that was written to a path. -/
def WrittenDocument.ofText (path text : String) : WrittenDocument :=
  { path, bytes := text.utf8ByteSize, sha256 := Digest.sha256Text text }

instance : JsonForm WrittenDocument where
  shape := .record "WrittenArtifact" [⟨"path", .text, .fault⟩, ⟨"bytes", .count, .fault⟩,
    ⟨"sha256", .text, .fault⟩]
  toJson a := .object [("path", .string a.path), ("bytes", .int a.bytes),
    ("sha256", .string a.sha256)]
  ofJson?
    | .object [("path", .string path), ("bytes", .int (.ofNat bytes)),
        ("sha256", .string sha256)] => some { path, bytes, sha256 }
    | _ => none

/-- The version of the program that reports name. -/
def programVersion : String := "1.0.0"

/-- What a run has done. -/
structure Report where
  programVersion : String
  generatedAt : Calendar.Instant
  settingsHash : String
  written : List WrittenDocument
  skipped : List SkippedPiece
deriving DecidableEq, Repr

instance : JsonForm Report where
  shape := .record "GenerateReport" [⟨"generator_version", .text, .fault⟩,
    ⟨"generated_at", .checked "an RFC 3339 formatted date and time string"
      Calendar.Instant.complaint?, .fault⟩,
    ⟨"settings_hash", .text, .fault⟩,
    ⟨"artifacts", .list (JsonForm.shape WrittenDocument), .fault⟩,
    ⟨"warnings", .list (JsonForm.shape SkippedPiece), .fault⟩]
  toJson r := .object [("generator_version", .string r.programVersion),
    ("generated_at", .string r.generatedAt.toText),
    ("settings_hash", .string r.settingsHash),
    ("artifacts", .array (r.written.map JsonForm.toJson)),
    ("warnings", .array (r.skipped.map JsonForm.toJson))]
  ofJson?
    | .object [("generator_version", .string programVersion), ("generated_at", .string time),
        ("settings_hash", .string settingsHash), ("artifacts", .array written),
        ("warnings", .array skipped)] => do
      let generatedAt ← (Calendar.Instant.parse time).toOption
      let written ← written.mapM JsonForm.ofJson?
      let skipped ← skipped.mapM JsonForm.ofJson?
      return { programVersion, generatedAt, settingsHash, written, skipped }
    | _ => none

end LogShipper
