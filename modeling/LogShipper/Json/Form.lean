import LogShipper.Json.Reader.Shape
import LogShipper.Json.Canonical

/-!
# Types with a JSON form

A type has a JSON form when its values are written as values of one shape and can be read back from
them.
-/

namespace LogShipper

/-- A type whose values have a JSON form. -/
class JsonForm (α : Type) where
  /-- What the values look like. -/
  shape : Json.Shape
  /-- The value as JSON, with the fields of a record in order. -/
  toJson : α → Json
  /-- The value that a JSON value of the shape stands for. -/
  ofJson? : Json → Option α

namespace JsonForm

variable {α : Type} [JsonForm α]

/-- The compact text of a value. -/
def encode (x : α) : String :=
  (toJson x).compact

/-- The canonical text of a value. -/
def canonical (x : α) : String :=
  (toJson x).canonical

/-- The value that a text stands for. Values of the shape always stand for one, so the last fault
is never met. -/
def decode (text : String) : Except Json.Fault α := do
  match ofJson? (← (shape α).parse text) with
  | some x => .ok x
  | none => .error ⟨.refused "value of another shape", 0⟩

end JsonForm

end LogShipper
