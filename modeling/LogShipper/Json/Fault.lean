import LogShipper.Json.Printer
import LogShipper.Text.Quoted

/-!
# Faults of JSON texts

The first fault met from left to right decides. A fault is a cause and a place, and the place is
given by the number of bytes that are left behind it, so that a reader needs no counter: what is
left of the text is all it has to know.
-/

namespace LogShipper.Json

/-- What was found where something else was expected. -/
inductive Found where
  | null
  | bool (b : Bool)
  | int (n : Int)
  | real (x : Decimal.Binary64)
  | string (s : String)
  | sequence
  | map

/-- What is wrong with a text. -/
inductive Cause where
  -- the text ends too early
  | endInValue
  | endInString
  | endInList
  | endInObject
  -- the text is not JSON
  | valueExpected
  | wordExpected
  | colonExpected
  | commaOrListEndExpected
  | commaOrObjectEndExpected
  | nameExpected
  | trailingComma
  | trailingCharacters
  | badEscape
  | loneSurrogate
  | unfinishedSurrogate
  | controlCharacter
  | badNumber
  | numberTooLarge
  | nestedTooDeeply
  -- the text is JSON but of another shape
  | wrongType (found : Found) (expected : String)
  | wrongValue (found : Found) (expected : String)
  | wrongLength (length : Nat) (expected : String)
  | duplicateField (name : String)
  | missingField (name : String)
  | unknownVariant (variant : String) (known : List String)
  | refused (complaint : String)

/-- The three kinds of faults. -/
inductive Category where
  | endOfText
  | grammar
  | shape
deriving DecidableEq

/-- A cause, and the number of bytes of the text that lie behind its place. -/
structure Fault where
  cause : Cause
  bytesLeft : Nat

/-- Something found, in words. -/
def Found.text : Found → String
  | .null => "null"
  | .bool b => "boolean `" ++ String.ofList (word b) ++ "`"
  | .int n => "integer `" ++ String.ofList (Decimal.integer n) ++ "`"
  | .real x => "floating point `" ++ String.ofList (numberLayout.text x) ++ "`"
  | .string s => "string " ++ Text.quoted s
  | .sequence => "sequence"
  | .map => "map"

/-- Names in backticks with commas between them, after how many of them are allowed. -/
def oneOf (names : List String) : String :=
  "one of " ++ ", ".intercalate (names.map fun n => "`" ++ n ++ "`")

/-- What a cause says. -/
def Cause.message : Cause → String
  | .endInValue => "EOF while parsing a value"
  | .endInString => "EOF while parsing a string"
  | .endInList => "EOF while parsing a list"
  | .endInObject => "EOF while parsing an object"
  | .valueExpected => "expected value"
  | .wordExpected => "expected ident"
  | .colonExpected => "expected `:`"
  | .commaOrListEndExpected => "expected `,` or `]`"
  | .commaOrObjectEndExpected => "expected `,` or `\x7d`"
  | .nameExpected => "key must be a string"
  | .trailingComma => "trailing comma"
  | .trailingCharacters => "trailing characters"
  | .badEscape => "invalid escape"
  | .loneSurrogate => "lone leading surrogate in hex escape"
  | .unfinishedSurrogate => "unexpected end of hex escape"
  | .controlCharacter => "control character (\\u0000-\\u001F) found while parsing a string"
  | .badNumber => "invalid number"
  | .numberTooLarge => "number out of range"
  | .nestedTooDeeply => "recursion limit exceeded"
  | .wrongType found expected => "invalid type: " ++ found.text ++ ", expected " ++ expected
  | .wrongValue found expected => "invalid value: " ++ found.text ++ ", expected " ++ expected
  | .wrongLength length expected =>
    "invalid length " ++ String.ofList (Decimal.digits length) ++ ", expected " ++ expected
  | .duplicateField name => "duplicate field `" ++ name ++ "`"
  | .missingField name => "missing field `" ++ name ++ "`"
  | .unknownVariant variant known =>
    "unknown variant `" ++ variant ++ "`, expected " ++ oneOf known
  | .refused complaint => complaint

/-- The kind of a cause. -/
def Cause.category : Cause → Category
  | .endInValue | .endInString | .endInList | .endInObject => .endOfText
  | .wrongType .. | .wrongValue .. | .wrongLength .. | .duplicateField _ | .missingField _
  | .unknownVariant .. | .refused _ => .shape
  | _ => .grammar

/-- The number of bytes of a text. -/
def byteCount (s : List Char) : Nat :=
  s.foldl (fun n c => n + c.utf8Size) 0

/-- A fault before what is left. -/
def Fault.before (cause : Cause) (left : List Char) : Fault :=
  ⟨cause, byteCount left⟩

/-- A fault behind the first byte of what is left, or at the end when nothing is. -/
def Fault.within (cause : Cause) (left : List Char) : Fault :=
  ⟨cause, byteCount left - 1⟩

/-- The line and the byte column behind the given bytes. Both count from the last line break, the
line from one and the column from zero. -/
def placeAfter (bytes : List UInt8) : Nat × Nat :=
  bytes.foldl (fun place b => if b = 10 then (place.1 + 1, 0) else (place.1, place.2 + 1)) (1, 0)

/-- The fault in words, with its place in the text. -/
def Fault.describe (f : Fault) (text : String) : String :=
  let bytes := text.toUTF8.data.toList
  let (line, column) := placeAfter (bytes.take (bytes.length - f.bytesLeft))
  let number (n : Nat) := String.ofList (Decimal.digits n)
  f.cause.message ++ " at line " ++ number line ++ " column " ++ number column

end LogShipper.Json
