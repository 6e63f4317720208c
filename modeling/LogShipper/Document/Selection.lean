import LogShipper.Section.Basic
import LogShipper.Settings.Basic
import LogShipper.Text.Pieces

/-!
# Selections of records

Records are selected by container name, by image name and by log line. For each of them one setting
holds a pattern that has to match, and another a list of patterns that may not.
-/

namespace LogShipper

/-- What records are selected by. -/
inductive Subject where
  | containerName
  | imageName
  | logLine
deriving DecidableEq, Repr

namespace Subject

/-- The field of a record. -/
def field : Subject → String
  | .containerName => "docker_container_name"
  | .imageName => "docker_container_image"
  | .logLine => "message"

/-- The setting for the pattern that has to match. -/
def matchSetting : Subject → Setting
  | .containerName => .matchContainerName
  | .imageName => .matchImageName
  | .logLine => .includeLine

/-- The setting for the patterns that may not match. -/
def skipSetting : Subject → Setting
  | .containerName => .skipContainerNames
  | .imageName => .skipImageNames
  | .logLine => .excludeLines

end Subject

/-- Which records are kept. -/
inductive Selection where
  | matching (pattern : String)
  | excluding (patterns : List String)
deriving DecidableEq, Repr

namespace Selection

/-- The selection by a pattern, or else by a list of exclusions; none when both are blank or empty.
The pattern is taken without the blanks around it. -/
def of? (pattern exclusions : String) : Option Selection :=
  if pattern ≠ "" then some (.matching (Text.trimmed pattern))
  else
    match Text.splitEntries ',' exclusions with
    | [] => none
    | patterns => some (.excluding patterns)

/-- The rules of a selection: a directive and a pattern each. -/
def rules : Selection → List (String × String)
  | .matching pattern => [("Regex", pattern)]
  | .excluding patterns => patterns.map ("Exclude", ·)

/-- The filter section that selects by a field. -/
def toSection (field : String) (selection : Selection) : Section :=
  let head := (Section.new .filter).aligned 7 |>.entry "Name" "grep" |>.entry "Match" "*"
  selection.rules.foldl (fun s rule => s.entry rule.1 (field ++ " " ++ rule.2)) (head.aligned 0)

end Selection

namespace Settings

/-- The selection by a subject. -/
def selection? (s : Settings) (subject : Subject) : Option Selection :=
  Selection.of? (s.value subject.matchSetting) (s.value subject.skipSetting)

/-- The filter section for a subject. -/
def filter? (s : Settings) (subject : Subject) : Option Section :=
  (s.selection? subject).map (·.toSection subject.field)

/-- Exclusions are given for a subject, but there is no pattern among them. -/
def hasUnusableExclusions (s : Settings) (subject : Subject) : Bool :=
  s.value subject.skipSetting ≠ "" && (s.selection? subject).isNone

end Settings

end LogShipper
