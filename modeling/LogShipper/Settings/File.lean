import LogShipper.Digest.Sha256
import LogShipper.Disk.Basic
import LogShipper.Json.Form
import LogShipper.Settings.Basic

/-!
# Settings as JSON

A settings file is a record whose fields may all be left out. What it gives is one more source over
the presets.
-/

namespace LogShipper

namespace Settings

/-- What a list of members gives: the strings among their values. -/
def sourceOfMembers (members : List (String × Json)) : Source :=
  fun n => (Json.member? n members).bind Json.string?

instance : JsonForm Settings where
  shape := .record "Settings" (Setting.all.map fun k => ⟨k.name, .text, .omitted⟩)
  toJson s := .object (s.entries.map fun (n, v) => (n, .string v))
  ofJson?
    | .object members => some (presets.overlay (sourceOfMembers members))
    | _ => none

/-- The digest of the canonical text, by which two snapshots are told apart. -/
def fingerprint (s : Settings) : String :=
  Digest.sha256Text (JsonForm.canonical s)

end Settings

/-- Why settings could not be loaded. -/
inductive SettingsFault where
  | fileNotFound (path : String)
  | unreadable (fault : OsFault)
  | malformed (fault : Json.Fault) (text : String)

namespace SettingsFault

/-- What a fault says. -/
def message : SettingsFault → String
  | .fileNotFound path => "Settings file not found: " ++ path
  | .unreadable fault => "Failed to read settings file: " ++ fault.message
  | .malformed fault text => "Failed to parse settings: " ++ fault.describe text

end SettingsFault

namespace Settings

/-- The snapshot of a settings text. -/
def ofText (text : String) : Except SettingsFault Settings :=
  match JsonForm.decode text with
  | .ok s => .ok s
  | .error fault => .error (.malformed fault text)

/-- The snapshot of a settings file, from what reading it gave. -/
def ofFile (path : String) (content : Except OsFault ByteArray) : Except SettingsFault Settings :=
  match content with
  | .error .notFound => .error (.fileNotFound path)
  | .error fault => .error (.unreadable fault)
  | .ok bytes =>
    match String.fromUTF8? bytes with
    | none => .error (.unreadable .notText)
    | some text => ofText text

/-- The presets, under a settings file if one is named, under a source. -/
def load {m : Type → Type} [Monad m] (read : String → m (Except OsFault ByteArray))
    (file? : Option String) (source : Source) : m (Except SettingsFault Settings) := do
  match file? with
  | none => return .ok (ofSource source)
  | some path =>
    match ofFile path (← read path) with
    | .ok s => return .ok (s.overlay source)
    | .error fault => return .error fault

/-- What loading from a disk gives. -/
def loadFrom (d : Disk) (file? : Option String) (source : Source) :
    Except SettingsFault Settings :=
  Id.run (load (fun path => pure (d.read (.ofString path))) file? source)

end Settings

end LogShipper
