import LogShipper.Json.Form
import LogShipper.Settings.Basic

/-!
# Settings that exclude each other

Some settings come in pairs of which only one may be given. A rule that is broken is reported as a
violation, and a snapshot is valid when there is none.
-/

namespace LogShipper

/-- Two settings, by name, that may not both be non-empty. -/
structure ExclusiveRule where
  name : String
  first : String
  second : String
deriving DecidableEq, Repr

/-- A broken rule. -/
structure Violation where
  rule : String
  settings : String × String
  message : String
deriving DecidableEq, Repr

/-- The outcome of a check. -/
structure Verdict where
  valid : Bool
  violations : List Violation
deriving DecidableEq, Repr

/-- The broken rules of a snapshot that was refused. -/
structure Conflict where
  violations : List Violation
deriving DecidableEq, Repr

namespace ExclusiveRule

/-- The snapshot has a non-empty value under the name. -/
def isGiven (s : Settings) (name : String) : Bool :=
  match s.valueOf? name with
  | some v => v ≠ ""
  | none => false

/-- The violation of the rule by a snapshot, if it breaks it. -/
def violation? (r : ExclusiveRule) (s : Settings) : Option Violation :=
  if isGiven s r.first && isGiven s r.second then
    some { rule := r.name, settings := (r.first, r.second)
           message := "Cannot use both " ++ r.first ++ " and " ++ r.second }
  else none

/-- Containers are chosen by a pattern or by exclusions. -/
def containerName : ExclusiveRule :=
  { name := "container_name", first := Setting.matchContainerName.name
    second := Setting.skipContainerNames.name }

/-- Images are chosen by a pattern or by exclusions. -/
def imageName : ExclusiveRule :=
  { name := "image_name", first := Setting.matchImageName.name
    second := Setting.skipImageNames.name }

/-- Lines are chosen by a pattern or by exclusions. -/
def lineFilter : ExclusiveRule :=
  { name := "line_filter", first := Setting.includeLine.name
    second := Setting.excludeLines.name }

/-- The rules, in the order in which they are checked. -/
def all : List ExclusiveRule :=
  [containerName, imageName, lineFilter]

end ExclusiveRule

namespace Settings

/-- The rules that a snapshot breaks. -/
def violations (s : Settings) : List Violation :=
  ExclusiveRule.all.filterMap (·.violation? s)

/-- All violations, without refusing the snapshot. -/
def check (s : Settings) : Verdict :=
  { valid := s.violations.isEmpty, violations := s.violations }

/-- Refuse a snapshot that breaks a rule. -/
def validate (s : Settings) : Except Conflict Unit :=
  if s.violations.isEmpty then .ok () else .error ⟨s.violations⟩

end Settings

/-- What a conflict says. -/
def Conflict.message (c : Conflict) : String :=
  "; ".intercalate (c.violations.map (·.message))

/-! ## JSON -/

instance : JsonForm Violation where
  shape := .record "ValidationViolation" [⟨"rule", .text, .fault⟩,
    ⟨"settings", .pair .text, .fault⟩, ⟨"message", .text, .fault⟩]
  toJson v := .object [("rule", .string v.rule),
    ("settings", .array [.string v.settings.1, .string v.settings.2]),
    ("message", .string v.message)]
  ofJson?
    | .object [("rule", .string rule), ("settings", .array [.string first, .string second]),
        ("message", .string message)] => some { rule, settings := (first, second), message }
    | _ => none

instance : JsonForm Verdict where
  shape := .record "ValidationResult" [⟨"valid", .flag, .fault⟩,
    ⟨"violations", .list (JsonForm.shape Violation), .fault⟩]
  toJson v := .object [("valid", .bool v.valid),
    ("violations", .array (v.violations.map JsonForm.toJson))]
  ofJson?
    | .object [("valid", .bool valid), ("violations", .array items)] => do
      return { valid, violations := ← items.mapM JsonForm.ofJson? }
    | _ => none

end LogShipper
