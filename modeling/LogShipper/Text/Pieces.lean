import LogShipper.Text.Blank

/-!
# Lists written in one text

A list setting is one text with a separator between its pieces. `pieces` cuts at every separator,
`entries` keeps the trimmed pieces that are not blank, and `cutAt?` cuts at the first separator
only.
-/

namespace LogShipper.Text

/-- The stretches between separators. There is always one more of them than there are separators,
so the empty text has one empty piece. -/
def pieces (sep : Char) : List Char → List (List Char)
  | [] => [[]]
  | c :: s => if c = sep then [] :: pieces sep s else (pieces sep s).modifyHead (c :: ·)

/-- The pieces that are not blank, without the blanks around them. -/
def entries (sep : Char) (s : List Char) : List (List Char) :=
  ((pieces sep s).map trim).filter (· ≠ [])

/-- The text before and after the first separator, if there is one. -/
def cutAt? (sep : Char) : List Char → Option (List Char × List Char)
  | [] => none
  | c :: s => if c = sep then some ([], s) else (cutAt? sep s).map fun (a, b) => (c :: a, b)

/-- The function `pieces` on strings. -/
def splitPieces (sep : Char) (s : String) : List String :=
  (pieces sep s.toList).map String.ofList

/-- The function `entries` on strings. -/
def splitEntries (sep : Char) (s : String) : List String :=
  (entries sep s.toList).map String.ofList

theorem pieces_ne_nil (sep : Char) (s : List Char) : pieces sep s ≠ [] := by
  cases s with
  | nil => simp [pieces]
  | cons c s =>
    simp only [pieces]
    split
    · simp
    · cases h : pieces sep s with
      | nil => exact absurd h (pieces_ne_nil sep s)
      | cons p ps => simp

/-- A separator cuts its text in two, and the pieces are those of the parts. -/
theorem pieces_append_cons (sep : Char) (a b : List Char) :
    pieces sep (a ++ sep :: b) = pieces sep a ++ pieces sep b := by
  induction a with
  | nil => simp [pieces]
  | cons c a ih =>
    simp only [List.cons_append, pieces, ih]
    split
    · rfl
    · cases h : pieces sep a with
      | nil => exact absurd h (pieces_ne_nil sep a)
      | cons p ps => rfl

end LogShipper.Text
