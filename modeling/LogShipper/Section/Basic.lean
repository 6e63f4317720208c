import LogShipper.Section.Kind

/-!
# Sections

A section is a header and lines that are appended to it. An entry remembers the column that was in
force when it was appended, so its text does not change later.
-/

namespace LogShipper

/-- A line in the body of a section. -/
inductive Line where
  /-- A key, padded to the column, and its value. -/
  | entry (key value : String) (column : Nat)
  | comment (text : String)
  /-- A line that is formatted already. -/
  | verbatim (text : String)
deriving DecidableEq, Repr

namespace Line

/-- What stands before every line of a body. -/
def indent : String := "    "

/-- A text with blanks behind it up to a number of characters. -/
def padRight (width : Nat) (s : String) : String :=
  s ++ String.ofList (List.replicate (width - s.length) ' ')

/-- A line without its indentation and its line break. -/
def text : Line → String
  | .entry key value column => padRight column key ++ " " ++ value
  | .comment text => if text = "" then "#" else "# " ++ text
  | .verbatim text => text

/-- A line of a document. -/
def render (l : Line) : String :=
  indent ++ l.text ++ "\n"

/-- The key and value of an entry. -/
def keyValue? : Line → Option (String × String)
  | .entry key value _ => some (key, value)
  | _ => none

end Line

/-- A section: its kind, the column for the next entries, and its lines. -/
structure Section where
  kind : Section.Kind
  column : Nat
  lines : List Line
deriving DecidableEq, Repr

namespace Section

/-- A section without lines. -/
def new (kind : Section.Kind) : Section :=
  { kind, column := 0, lines := [] }

/-- The section with a line more. -/
def append (s : Section) (l : Line) : Section :=
  { s with lines := s.lines ++ [l] }

/-- The section with another column for the entries that follow. -/
def aligned (s : Section) (column : Nat) : Section :=
  { s with column }

/-- An entry at the current column. -/
def entry (s : Section) (key value : String) : Section :=
  s.append (.entry key value s.column)

/-- An entry at a column of its own. -/
def entryAt (s : Section) (column : Nat) (key value : String) : Section :=
  s.append (.entry key value column)

/-- A comment. -/
def comment (s : Section) (text : String) : Section :=
  s.append (.comment text)

/-- A line that is formatted already. -/
def verbatim (s : Section) (text : String) : Section :=
  s.append (.verbatim text)

/-- The keys and values of the entries, in order. -/
def entries (s : Section) : List (String × String) :=
  s.lines.filterMap Line.keyValue?

/-- The value of the first entry with that key. -/
def get? (s : Section) (key : String) : Option String :=
  (s.entries.find? (·.1 = key)).map (·.2)

/-- An empty line, the header, and the lines. -/
def render (s : Section) : String :=
  "\n[" ++ s.kind.header ++ "]\n" ++ String.join (s.lines.map Line.render)

/-- The texts of sections, one after the other. -/
def renderAll (sections : List Section) : String :=
  String.join (sections.map render)

/-- Another column changes no text. -/
theorem render_aligned (s : Section) (column : Nat) : (s.aligned column).render = s.render :=
  rfl

end Section

end LogShipper
