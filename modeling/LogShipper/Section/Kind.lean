import LogShipper.Json.Form

/-!
# Kinds of sections

What a section configures, with the word in its header and the word by which it is known in JSON.
-/

namespace LogShipper

/-- What a section configures. -/
inductive Section.Kind where
  | service
  | input
  | filter
  | output
  | multilineParser
deriving DecidableEq, Repr

namespace Section.Kind

/-- The kinds of sections. -/
def all : List Section.Kind :=
  [.service, .input, .filter, .output, .multilineParser]

/-- The word in a section's header. -/
def header : Section.Kind → String
  | .service => "SERVICE"
  | .input => "INPUT"
  | .filter => "FILTER"
  | .output => "OUTPUT"
  | .multilineParser => "MULTILINE_PARSER"

/-- The word in JSON. -/
def word : Section.Kind → String
  | .service => "service"
  | .input => "input"
  | .filter => "filter"
  | .output => "output"
  | .multilineParser => "multiline_parser"

/-- The kind of a word. -/
def ofWord? (w : String) : Option Section.Kind :=
  all.find? (·.word = w)

instance : JsonForm Section.Kind where
  shape := .choice (all.map word)
  toJson k := .string k.word
  ofJson? v := v.string?.bind ofWord?

end Section.Kind

end LogShipper
