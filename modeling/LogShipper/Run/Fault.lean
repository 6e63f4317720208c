import LogShipper.Disk.Fault
import LogShipper.Exclusivity

/-!
# Faults of runs

Why a run did not produce its documents: the plugin is missing, settings are in conflict, or a
document could not be written.
-/

namespace LogShipper

/-- Why a plugin counts as missing. -/
inductive PluginAbsence where
  | notFound
  | permissionDenied
  | other
deriving DecidableEq, Repr

namespace PluginAbsence

/-- The reasons. -/
def all : List PluginAbsence :=
  [.notFound, .permissionDenied, .other]

/-- The word in JSON. -/
def word : PluginAbsence → String
  | .notFound => "not_found"
  | .permissionDenied => "permission_denied"
  | .other => "other"

instance : JsonForm PluginAbsence where
  shape := .choice (all.map word)
  toJson r := .string r.word
  ofJson? v := v.string?.bind fun w => all.find? (·.word = w)

end PluginAbsence

/-- A plugin that cannot be opened. -/
structure PluginFault where
  path : String
  cause : OsFault
deriving DecidableEq, Repr

namespace PluginFault

/-- Why the plugin counts as missing. -/
def reason (f : PluginFault) : PluginAbsence :=
  match f.cause with
  | .notFound => .notFound
  | .permissionDenied => .permissionDenied
  | _ => .other

/-- What the fault says. -/
def message (f : PluginFault) : String :=
  match f.cause with
  | .notFound => f.path ++ " file not found. Configuration will not be created."
  | .permissionDenied =>
    "Permission denied when accessing " ++ f.path ++ ". Check your file permissions."
  | cause =>
    "An unexpected error occurred while checking " ++ f.path ++ ": " ++ cause.message

end PluginFault

/-- A document that could not be written. -/
structure WriteFault where
  path : String
  cause : OsFault
deriving DecidableEq, Repr

/-- What the fault says. -/
def WriteFault.message (f : WriteFault) : String :=
  "Failed to write " ++ f.path ++ ": " ++ f.cause.message

/-- Why a run did not come to its end. -/
inductive RunFault where
  | conflict (c : Conflict)
  | pluginMissing (f : PluginFault)
  | notWritten (f : WriteFault)
  | notSerialized (complaint : String)
deriving DecidableEq, Repr

/-- What a fault says. -/
def RunFault.message : RunFault → String
  | .conflict c => "Validation failed: " ++ c.message
  | .pluginMissing f => f.message
  | .notWritten f => f.message
  | .notSerialized complaint => "Serialization error: " ++ complaint

end LogShipper
