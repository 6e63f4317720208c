import LogShipper.Json.Reader.Number
import LogShipper.Json.Reader.Text

/-!
# Reading any value

A value of unknown shape is read whole, with every member as it stands. Brackets may be nested to a
fixed depth; one level more is a fault.
-/

namespace LogShipper.Json

/-- How deep brackets may be nested in a value that is read whole. -/
def maxDepth : Nat := 127

/-- The members of an object behind its opening bracket, folded from the left. The step is given the
name and what is left behind it. -/
def foldMembers {σ : Type} (step : σ → String → Reader σ) :
    List Char → Bool → σ → Reader σ
  | [], _, _, s => .error (.before .endInObject s)
  | _ :: clock, first, state, s => do
    match ← nextMember first s with
    | .close r => .ok (state, r)
    | .part r =>
      let (name, r) ← readString r
      let (state, r) ← step state name r
      foldMembers step clock false state r

/-- An array behind its opening bracket. -/
def readItems (item : Reader Json) : Reader Json := fun s => do
  let (done, r) ← foldItems (fun done r => do
    let (v, r) ← item r
    .ok (v :: done, r)) s true [] s
  .ok (.array done.reverse, r)

/-- An object behind its opening bracket. -/
def readMembers (item : Reader Json) : Reader Json := fun s => do
  let (done, r) ← foldMembers (fun done name r => do
    let r ← expectColon r
    let (v, r) ← item r
    .ok ((name, v) :: done, r)) s true [] s
  .ok (.object done.reverse, r)

/-- A value whose parts are read by `inner`; no brackets are allowed where there is none. -/
def readNested (inner : Option (Reader Json)) : Reader Json := fun s =>
  match skipSpace s with
  | [] => .error (.within .endInValue [])
  | 'n' :: r => do .ok (.null, ← expectWord "ull".toList r)
  | 't' :: r => do .ok (.bool true, ← expectWord "rue".toList r)
  | 'f' :: r => do .ok (.bool false, ← expectWord "alse".toList r)
  | '-' :: r => readNumber true r
  | '"' :: r => do
    let (text, r) ← readString r
    .ok (.string text, r)
  | c :: r =>
    if c.isDigit then readNumber false (c :: r)
    else if c = '[' ∨ c = '\x7b' then
      match inner with
      | none => .error (.within .nestedTooDeeply (c :: r))
      | some item => if c = '[' then readItems item r else readMembers item r
    else .error (.within .valueExpected (c :: r))

/-- A value with brackets nested at most `depth` deep. -/
def readValue : Nat → Reader Json
  | 0 => readNested none
  | depth + 1 => readNested (some (readValue depth))

/-- The value that a text holds. -/
def parse (text : String) : Except Fault Json :=
  readAll (readValue maxDepth) text

end LogShipper.Json
