import LogShipper.Text.Pieces

/-!
# Paths

A path names a place by the steps that lead to it from the root or from the working directory. A
step is a name, one dot for the same directory or two dots for the one above. Where slashes meet
there is no step between them, but the text of a path grows with them, and so does the text of the
paths above it.
-/

namespace LogShipper

/-- What stands between the slashes of a path's text, behind the slash at its beginning if there is
one. -/
structure Path where
  absolute : Bool
  pieces : List String
deriving DecidableEq, Repr

namespace Path

/-- The path that a text names. -/
def ofString (text : String) : Path :=
  match text.toList with
  | [] => { absolute := false, pieces := [] }
  | '/' :: chars => { absolute := true, pieces := (Text.pieces '/' chars).map String.ofList }
  | chars => { absolute := false, pieces := (Text.pieces '/' chars).map String.ofList }

/-- The text that names the path. -/
def text (p : Path) : String :=
  (if p.absolute then "/" else "") ++ "/".intercalate p.pieces

/-- The number of bytes of the path's text. -/
def size (p : Path) : Nat :=
  p.text.utf8ByteSize

/-- The steps that the path takes. -/
def steps (p : Path) : List String :=
  p.pieces.filter (· ≠ "")

/-- The text ends with a slash. -/
def trailingSlash (p : Path) : Bool :=
  p.pieces.getLast? = some ""

/-- The path of no steps, which names nothing. -/
def isEmpty (p : Path) : Bool :=
  !p.absolute && p.pieces.isEmpty

/-- Pieces without the empty ones and the single dots at their end. -/
def dropIdle (pieces : List String) : List String :=
  (pieces.reverse.dropWhile fun piece => piece = "" || piece = ".").reverse

/-- The path up to its last part. Empty pieces and single dots at the end are no parts, but a dot
that begins a path from the working directory is one. -/
def trimmed (p : Path) : Path :=
  match p.absolute, p.pieces with
  | false, first :: rest => { p with pieces := first :: dropIdle rest }
  | _, pieces => { p with pieces := dropIdle pieces }

/-- The path without its last part. The root and the empty path have no parent. -/
def parent? (p : Path) : Option Path :=
  match p.trimmed.pieces with
  | [] => none
  | pieces => some { p with pieces := pieces.dropLast }.trimmed

theorem length_dropIdle_le (pieces : List String) : (dropIdle pieces).length ≤ pieces.length := by
  have h := (List.dropWhile_suffix (l := pieces.reverse)
    fun piece => piece = "" || piece = ".").length_le
  simpa [dropIdle] using h

theorem length_trimmed_le (p : Path) : p.trimmed.pieces.length ≤ p.pieces.length := by
  unfold trimmed
  split
  · next first rest _ h =>
    have := length_dropIdle_le rest
    simp only [h, List.length_cons]
    omega
  · exact length_dropIdle_le _

/-- Every parent has fewer pieces. -/
theorem length_parent?_lt {p q : Path} (h : p.parent? = some q) :
    q.pieces.length < p.pieces.length := by
  have hp := length_trimmed_le p
  unfold parent? at h
  split at h
  · simp at h
  · next hne =>
    obtain rfl := Option.some.inj h
    have hq := length_trimmed_le { p with pieces := p.trimmed.pieces.dropLast }
    have := List.length_pos_iff.2 hne
    simp only [List.length_dropLast] at hq
    omega

/-- The path with all that lie above it, nearest first. -/
def ancestry (p : Path) : List Path :=
  p :: match _h : p.parent? with
    | none => []
    | some q => ancestry q
termination_by p.pieces.length
decreasing_by exact length_parent?_lt _h

end Path

end LogShipper
