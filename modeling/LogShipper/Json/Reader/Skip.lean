import LogShipper.Json.Reader.Number
import LogShipper.Json.Reader.Text

/-!
# Passing over a value

The value of a member that nobody looks at has only to be well formed. It may be nested to any
depth: the open brackets are kept in a list instead of in nested calls.
-/

namespace LogShipper.Json

/-- An open bracket. -/
inductive Bracket where
  | list
  | object
deriving DecidableEq

/-- The character that closes a bracket. -/
def Bracket.closer : Bracket → Char
  | .list => ']'
  | .object => '\x7d'

/-- The fault of a text that ends between the brackets. -/
def Bracket.endCause : Bracket → Cause
  | .list => .endInList
  | .object => .endInObject

/-- The fault of a part that is not followed by a comma or the closing bracket. -/
def Bracket.separatorCause : Bracket → Cause
  | .list => .commaOrListEndExpected
  | .object => .commaOrObjectEndExpected

/-- What a reader that passes over a value waits for: a value, or what may follow one. -/
inductive Awaited where
  | value
  | separator
deriving DecidableEq

/-- What is left behind a value without parts. -/
def skipSimple (c : Char) (r : List Char) : Except Fault (List Char) :=
  if c = 'n' then expectWord "ull".toList r
  else if c = 't' then expectWord "rue".toList r
  else if c = 'f' then expectWord "alse".toList r
  else if c = '-' then skipNumber r
  else if c = '"' then skipString r
  else if c.isDigit then skipNumber (c :: r)
  else .error (.within .valueExpected (c :: r))

/-- What is left behind the name of a member and its colon. -/
def skipName (s : List Char) : Except Fault (List Char) :=
  match skipSpace s with
  | [] => .error (.within .endInObject [])
  | '"' :: r => do
    let r ← skipString r
    expectColon r
  | r => .error (.within .nameExpected r)

/-- What is left when the value that is awaited, or the rest of it, is behind and all open brackets
are closed. The innermost bracket comes first. -/
def skipFrom : List Char → List Bracket → Awaited → List Char → Except Fault (List Char)
  | _, [], .separator, s => .ok s
  | [], _, .value, s => .error (.before .endInValue s)
  | [], b :: _, .separator, s => .error (.before b.endCause s)
  | _ :: clock, brackets, .value, s =>
    match skipSpace s with
    | [] => .error (.within .endInValue [])
    | c :: r =>
      if c = '[' then
        match skipSpace r with
        | [] => .error (.within .endInList [])
        | ']' :: r => skipFrom clock brackets .separator r
        | r => skipFrom clock (.list :: brackets) .value r
      else if c = '\x7b' then
        match skipSpace r with
        | [] => .error (.within .endInObject [])
        | '\x7d' :: r => skipFrom clock brackets .separator r
        | r => do
          let r ← skipName r
          skipFrom clock (.object :: brackets) .value r
      else do
        let r ← skipSimple c r
        skipFrom clock brackets .separator r
  | _ :: clock, b :: brackets, .separator, s =>
    match skipSpace s with
    | [] => .error (.within b.endCause [])
    | c :: r =>
      if c = b.closer then skipFrom clock brackets .separator r
      else if c = ',' then
        match b with
        | .list => skipFrom clock (.list :: brackets) .value r
        | .object => do
          let r ← skipName r
          skipFrom clock (.object :: brackets) .value r
      else .error (.within b.separatorCause (c :: r))

/-- What is left behind a value. -/
def skipValue (s : List Char) : Except Fault (List Char) :=
  skipFrom s [] .value s

end LogShipper.Json
