import LogShipper.Document.Blocks
import LogShipper.Document.FieldDirective
import LogShipper.Document.Selection
import LogShipper.Exclusivity

/-!
# Compiled documents

A valid snapshot is compiled to the main document, whose sections have a fixed order, and to the
document that says how, when lines are joined. No document exists for a snapshot that
breaks a rule.
-/

namespace LogShipper

/-- What a snapshot is compiled to. -/
structure Compiled where
  sections : List Section
  main : String
  joining? : Option String
  skipped : List SkippedPiece
deriving DecidableEq, Repr

namespace Settings

/-- The filters by container and image name, which need nested names to be lifted first. -/
def nameFilters (s : Settings) : List Section :=
  match [Subject.containerName, Subject.imageName].filterMap s.filter? with
  | [] => []
  | filters => Blocks.lifting :: filters

/-- The sections of the main document. -/
def sections (s : Settings) : List Section :=
  [Blocks.service s, Blocks.input s, Blocks.metadata] ++ s.nameFilters ++
    (s.filter? .logLine).toList ++ (FieldChanges.ofSettings s).sections ++ [Blocks.output s]

/-- The documents of a snapshot, whether it is valid or not. -/
def documents (s : Settings) : Compiled :=
  { sections := s.sections
    main := Section.renderAll s.sections
    joining? := s.joiningSection?.map Section.render
    skipped := (FieldChanges.ofSettings s).skipped }

/-- The documents of a valid snapshot. -/
def compile (s : Settings) : Except Conflict Compiled := do
  s.validate
  return s.documents

end Settings

end LogShipper
