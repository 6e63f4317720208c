import LogShipper.Json.Reader.Skip
import LogShipper.Json.Reader.Value

/-!
# Reading values of a shape

A shape says what a value has to look like. A record is written as an object with its fields in any
order, unknown members being passed over, or as an array with its fields in order. What is read is
always the object with the fields in order.
-/

namespace LogShipper.Json

/-- What stands for a field that is not given. -/
inductive Absence where
  /-- The field has to be given. -/
  | fault
  /-- The field is null. -/
  | null
  /-- The field is left out of what is read. -/
  | omitted
deriving DecidableEq

/-- A named field of a record, with what is known about its values. -/
structure Field (α : Type) where
  name : String
  content : α
  absence : Absence := .fault

/-- What a value has to look like. -/
inductive Shape where
  /-- A string. -/
  | text
  /-- A string that a check has no complaint about, and what the check asks for. -/
  | checked (expected : String) (complaint? : String → Option String)
  /-- A truth value. -/
  | flag
  /-- A natural number of 64 bits. -/
  | count
  /-- Null or a value of the shape. -/
  | nullable (shape : Shape)
  /-- An array of values of the shape. -/
  | list (shape : Shape)
  /-- An array of two values of the shape. -/
  | pair (shape : Shape)
  /-- A record with its name. -/
  | record (name : String) (fields : List (Field Shape))
  /-- One of some words, as a string or as the only name of an object. -/
  | choice (words : List String)

/-! ## Values of another type -/

/-- The fault of a value of another type than expected. What can be read of it is read first. -/
def misread {α : Type} (expected : String) (s : List Char) : Except Fault α := do
  let fault (found : Found) (r : List Char) := .error (.before (.wrongType found expected) r)
  let number (negative : Bool) (r : List Char) := do
    match ← readNumber negative r with
    | (.int n, r) => fault (.int n) r
    | (.real x, r) => fault (.real x) r
    | (_, r) => .error (.within .valueExpected r)
  match s with
  | 'n' :: r => fault .null (← expectWord "ull".toList r)
  | 't' :: r => fault (.bool true) (← expectWord "rue".toList r)
  | 'f' :: r => fault (.bool false) (← expectWord "alse".toList r)
  | '-' :: r => number true r
  | '"' :: r =>
    let (text, r) ← readString r
    fault (.string text) r
  | '[' :: r => fault .sequence ('[' :: r)
  | '\x7b' :: r => fault .map ('\x7b' :: r)
  | r => if digitNext r then number false r else .error (.within .valueExpected r)

/-- Give what is left behind the blanks to a reader, if there is anything. -/
def atValue {α : Type} (reader : Reader α) : Reader α := fun s =>
  match skipSpace s with
  | [] => .error (.within .endInValue [])
  | r => reader r

/-! ## Simple shapes -/

/-- A string. -/
def readText (expected : String) : Reader String := atValue fun s =>
  match s with
  | '"' :: r => readString r
  | r => misread expected r

/-- A string that is checked. -/
def readChecked (expected : String) (complaint? : String → Option String) : Reader Json :=
  fun s => do
    let (text, r) ← readText expected s
    match complaint? text with
    | none => .ok (.string text, r)
    | some complaint => .error (.before (.refused complaint) r)

/-- A truth value. -/
def readFlag : Reader Json := atValue fun s =>
  match s with
  | 't' :: r => do .ok (.bool true, ← expectWord "rue".toList r)
  | 'f' :: r => do .ok (.bool false, ← expectWord "alse".toList r)
  | r => misread "a boolean" r

/-- How counts are called. -/
def countName : String := "usize"

/-- A natural number of 64 bits. -/
def readCount : Reader Json := atValue fun s => do
  let fromNumber (negative : Bool) (r : List Char) := do
    match ← readNumber negative r with
    | (.int (.ofNat n), r) => .ok (.int n, r)
    | (.int n, r) => .error (.before (.wrongValue (.int n) countName) r)
    | (.real x, r) => .error (.before (.wrongType (.real x) countName) r)
    | (_, r) => .error (.within .valueExpected r)
  match s with
  | '-' :: r => fromNumber true r
  | r => if digitNext r then fromNumber false r else misread countName r

/-- Null or another value. -/
def readNullable (inner : Reader Json) : Reader Json := fun s =>
  match skipSpace s with
  | 'n' :: r => do .ok (.null, ← expectWord "ull".toList r)
  | r => inner r

/-! ## Lists -/

/-- An array of any length. -/
def readList (item : Reader Json) : Reader Json := atValue fun s =>
  match s with
  | '[' :: r => readItems item r
  | r => misread "a sequence" r

/-- An array of two. -/
def readPair (item : Reader Json) : Reader Json := atValue fun s => do
  let expected := "an array of length 2"
  let short (n : Nat) (r : List Char) := .error (.before (.wrongLength n expected) r)
  match s with
  | '[' :: r =>
    match ← nextItem true r with
    | .close r => short 0 r
    | .part r =>
      let (first, r) ← item r
      match ← nextItem false r with
      | .close r => short 1 r
      | .part r =>
        let (second, r) ← item r
        .ok (.array [first, second], ← closeList r)
  | r => misread expected r

/-! ## Choices -/

/-- One of the words, read as a string whose opening quote is taken off. -/
def readWord (words : List String) : Reader String := fun s => do
  let (word, r) ← readString s
  if word ∈ words then .ok (word, r) else .error (.before (.unknownVariant word words) r)

/-- A null that stands for nothing more to say. -/
def readUnit (s : List Char) : Except Fault (List Char) := do
  let (_, r) ← atValue (fun s =>
    match s with
    | 'n' :: r => do .ok ((), ← expectWord "ull".toList r)
    | r => misread "unit" r) s
  .ok r

/-- One of the words, as a string or as the name of the only member of an object, whose value is
null. -/
def readChoice (words : List String) : Reader Json := atValue fun s => do
  match s with
  | '"' :: r =>
    let (word, r) ← readWord words r
    .ok (.string word, r)
  | '\x7b' :: r =>
    match skipSpace r with
    | [] => .error (.within .endInObject [])
    | '"' :: r =>
      let (word, r) ← readWord words r
      let r ← expectColon r
      let r ← readUnit r
      match skipSpace r with
      | [] => .error (.before .endInObject [])
      | '\x7d' :: r => .ok (.string word, r)
      | r => .error (.before .valueExpected r)
    | r => .error (.within .nameExpected r)
  | r => .error (.within .valueExpected r)

/-! ## Records -/

/-- The fields of a record in order, from the members that were given; or the first field that has
to be given and was not. -/
def arrange (given : List (String × Json)) :
    List (Field (Reader Json)) → Except Cause (List (String × Json))
  | [] => .ok []
  | f :: fields =>
    match member? f.name given, f.absence with
    | some v, _ => do .ok ((f.name, v) :: (← arrange given fields))
    | none, .fault => .error (.missingField f.name)
    | none, .null => do .ok ((f.name, .null) :: (← arrange given fields))
    | none, .omitted => arrange given fields

/-- What is left of an object whose reading is given up behind a name. -/
def abandon (s : List Char) : List Char :=
  match skipSpace s with
  | '\x7d' :: r => r
  | r => r

/-- One member of a record: a field that was not given before, or an unknown member. -/
def readMember (fields : List (Field (Reader Json))) (given : List (String × Json))
    (name : String) : Reader (List (String × Json)) := fun s =>
  match fields.find? (·.name = name) with
  | some f =>
    if (member? name given).isSome then .error (.before (.duplicateField name) (abandon s))
    else do
      let (v, r) ← f.content (← expectColon s)
      .ok ((name, v) :: given, r)
  | none => do .ok (given, ← skipValue (← expectColon s))

/-- A record written as an object, behind its opening bracket. -/
def readNamed (fields : List (Field (Reader Json))) : Reader Json := fun s => do
  let (given, r) ← foldMembers (readMember fields) s true [] s
  match arrange given fields with
  | .ok members => .ok (.object members, r)
  | .error cause => .error (.before cause r)

/-- A record written as an array, behind its opening bracket; `count` elements of it are behind
already. Only fields that may be left out can be missing at its end. -/
def readPositional (name : String) (size : Nat) :
    List (Field (Reader Json)) → Nat → List (String × Json) → Reader Json
  | [], _, done, s => do .ok (.object done.reverse, ← closeList s)
  | f :: fields, count, done, s => do
    match ← nextItem (count == 0) s with
    | .part r =>
      let (v, r) ← f.content r
      readPositional name size fields (count + 1) ((f.name, v) :: done) r
    | .close r =>
      if (f :: fields).all (·.absence = .omitted) then .ok (.object done.reverse, r)
      else
        let expected := "struct " ++ name ++ " with " ++ String.ofList (Decimal.digits size) ++
          " elements"
        .error (.before (.wrongLength count expected) r)

/-- A record in either form. -/
def readRecord (name : String) (fields : List (Field (Reader Json))) : Reader Json :=
  atValue fun s =>
    match s with
    | '[' :: r => readPositional name fields.length fields 0 [] r
    | '\x7b' :: r => readNamed fields r
    | r => misread ("struct " ++ name) r

mutual

/-- A value of the shape. -/
def Shape.read : Shape → Reader Json
  | .text => fun s => do
    let (text, r) ← readText "a string" s
    .ok (.string text, r)
  | .checked expected complaint? => readChecked expected complaint?
  | .flag => readFlag
  | .count => readCount
  | .nullable shape => readNullable shape.read
  | .list shape => readList shape.read
  | .pair shape => readPair shape.read
  | .record name fields => readRecord name (fieldReaders fields)
  | .choice words => readChoice words

/-- The fields with readers of their values. -/
def fieldReaders : List (Field Shape) → List (Field (Reader Json))
  | [] => []
  | ⟨name, shape, absence⟩ :: fields => ⟨name, shape.read, absence⟩ :: fieldReaders fields

end

/-- The value of the shape that a text holds. -/
def Shape.parse (shape : Shape) (text : String) : Except Fault Json :=
  readAll shape.read text

end LogShipper.Json
