import LogShipper.Section.Basic

/-!
# Edits of sections

The ways to change a section, as values. A section is the outcome of the edits made to a new one.
-/

namespace LogShipper.Section

/-- A change of a section. -/
inductive Edit where
  | aligned (column : Nat)
  | entry (key value : String)
  | entryAt (column : Nat) (key value : String)
  | comment (text : String)
  | verbatim (text : String)
deriving DecidableEq, Repr

/-- The section after a change. -/
def edit (s : Section) : Edit → Section
  | .aligned column => s.aligned column
  | .entry key value => s.entry key value
  | .entryAt column key value => s.entryAt column key value
  | .comment text => s.comment text
  | .verbatim text => s.verbatim text

/-- The section that a list of changes makes of a new one. -/
def ofEdits (kind : Section.Kind) (edits : List Edit) : Section :=
  edits.foldl edit (new kind)

end LogShipper.Section
