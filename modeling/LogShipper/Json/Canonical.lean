import LogShipper.Json.Printer

/-!
# The canonical form

Two values that differ in the order of members only have the same canonical form: at every depth
the members are sorted by the bytes of their names, and of members with one name the last is kept.
-/

namespace LogShipper.Json

/-- The UTF-8 bytes of a name. -/
def nameBytes (name : String) : List UInt8 :=
  name.toUTF8.data.toList

/-- The order of names: byte by byte, and a beginning comes before the longer name. -/
def nameBefore (a b : String) : Bool :=
  decide (nameBytes a < nameBytes b)

/-- Put a member into a sorted list, in the place of a member with the same name. -/
def insertMember (name : String) (value : Json) : List (String × Json) → List (String × Json)
  | [] => [(name, value)]
  | (k, v) :: rest =>
    if name = k then (name, value) :: rest
    else if nameBefore name k then (name, value) :: (k, v) :: rest
    else (k, v) :: insertMember name value rest

mutual

/-- The value with the members of every object sorted and without repeated names. -/
def sorted : Json → Json
  | .array items => .array (sortedItems items)
  | .object members => .object (sortedMembers [] members)
  | v => v

/-- Every element sorted. -/
def sortedItems : List Json → List Json
  | [] => []
  | v :: rest => v.sorted :: sortedItems rest

/-- Members put one by one into a sorted list, so that the last of a name stays. -/
def sortedMembers (done : List (String × Json)) : List (String × Json) → List (String × Json)
  | [] => done
  | (k, v) :: rest => sortedMembers (insertMember k v.sorted done) rest

end

/-- The compact text of the sorted value. -/
def canonical (v : Json) : String :=
  v.sorted.compact

end LogShipper.Json
