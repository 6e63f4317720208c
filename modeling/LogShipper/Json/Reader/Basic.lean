import LogShipper.Json.Fault

/-!
# Readers

A reader takes characters off the front of what is left of a text, and gives a value and the rest,
or the first fault. Loops over elements, members and characters take at least one character a
turn, so the text at their start serves as their clock.
-/

namespace LogShipper.Json

/-- A reader of values of a type. -/
abbrev Reader (α : Type) := List Char → Except Fault (α × List Char)

/-- The blanks that may stand between the parts of a value. -/
def isSpace (c : Char) : Bool :=
  c == ' ' || c == '\n' || c == '\t' || c == '\r'

/-- What is left behind the blanks. -/
def skipSpace (s : List Char) : List Char :=
  s.dropWhile isSpace

/-- What is left behind the letters of a word. -/
def expectWord : List Char → List Char → Except Fault (List Char)
  | [], s => .ok s
  | _ :: _, [] => .error (.before .endInValue [])
  | w :: word, c :: s =>
    if c = w then expectWord word s else .error (.within .wordExpected (c :: s))

/-- What is left behind the colon between a name and its value. -/
def expectColon (s : List Char) : Except Fault (List Char) :=
  match skipSpace s with
  | [] => .error (.within .endInObject [])
  | ':' :: r => .ok r
  | r => .error (.within .colonExpected r)

/-- What comes next between brackets: a part that begins with what is left, or the bracket that
closes, already taken off. -/
inductive Next where
  | part (left : List Char)
  | close (left : List Char)

/-- What comes next in a list. -/
def nextItem (first : Bool) (s : List Char) : Except Fault Next :=
  match skipSpace s with
  | [] => .error (.within .endInList [])
  | ']' :: r => .ok (.close r)
  | c :: r =>
    if first then .ok (.part (c :: r))
    else if c = ',' then
      match skipSpace r with
      | [] => .error (.within .endInValue [])
      | ']' :: r => .error (.within .trailingComma (']' :: r))
      | r => .ok (.part r)
    else .error (.within .commaOrListEndExpected (c :: r))

/-- What comes next in an object: a member, with the quote before its name already taken off. -/
def nextMember (first : Bool) (s : List Char) : Except Fault Next :=
  match skipSpace s with
  | [] => .error (.within .endInObject [])
  | '\x7d' :: r => .ok (.close r)
  | c :: r =>
    if first then
      if c = '"' then .ok (.part r) else .error (.within .nameExpected (c :: r))
    else if c = ',' then
      match skipSpace r with
      | [] => .error (.within .endInValue [])
      | '"' :: r => .ok (.part r)
      | '\x7d' :: r => .error (.within .trailingComma ('\x7d' :: r))
      | r => .error (.within .nameExpected r)
    else .error (.within .commaOrObjectEndExpected (c :: r))

/-- What is left behind a list whose last allowed element has been read. -/
def closeList (s : List Char) : Except Fault (List Char) :=
  match skipSpace s with
  | [] => .error (.within .endInList [])
  | ']' :: r => .ok r
  | ',' :: r =>
    match skipSpace r with
    | ']' :: r => .error (.within .trailingComma (']' :: r))
    | r => .error (.within .trailingCharacters r)
  | r => .error (.within .trailingCharacters r)

/-- The elements of a list behind its opening bracket, folded from the left. -/
def foldItems {σ : Type} (step : σ → Reader σ) :
    List Char → Bool → σ → Reader σ
  | [], _, _, s => .error (.before .endInList s)
  | _ :: clock, first, state, s => do
    match ← nextItem first s with
    | .close r => .ok (state, r)
    | .part r =>
      let (state, r) ← step state r
      foldItems step clock false state r

/-- The value of a text that holds nothing else. -/
def readAll {α : Type} (reader : Reader α) (text : String) : Except Fault α := do
  let (v, s) ← reader text.toList
  match skipSpace s with
  | [] => .ok v
  | r => .error (.within .trailingCharacters r)

end LogShipper.Json
