import LogShipper.Decimal.Binary64

/-!
# JSON values

A value as it stands in a text: the members of an object are kept in their order and a name may
occur more than once. A number is an integer or a number of the 64-bit binary format.
-/

namespace LogShipper

/-- A JSON value. -/
inductive Json where
  | null
  | bool (b : Bool)
  | int (n : Int)
  | real (x : Decimal.Binary64)
  | string (s : String)
  | array (items : List Json)
  | object (members : List (String × Json))
deriving BEq, Inhabited

namespace Json

/-- The value of the first member of that name. -/
def member? (name : String) (members : List (String × Json)) : Option Json :=
  (members.find? (·.1 = name)).map (·.2)

/-- The text of a string value. -/
def string? : Json → Option String
  | .string s => some s
  | _ => none

/-- The text of a string value, or nothing for null. -/
def stringOrNull? : Json → Option (Option String)
  | .null => some none
  | .string s => some (some s)
  | _ => none

end Json

end LogShipper
