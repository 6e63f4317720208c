import LogShipper.Decimal.Digits
import LogShipper.Json.Form
import LogShipper.Section.Basic
import LogShipper.Settings.Basic
import LogShipper.Text.Pieces

/-!
# Joining lines

Lines that belong together are joined by a chain of rules. The first rule finds the line that starts
a message; the others find the lines that continue it and stay in one state. Without continuation
patterns the first rule stands alone and leads nowhere.
-/

namespace LogShipper

/-- A rule of the chain: in a state, a line that matches the pattern leads to the next state. -/
structure JoiningRule where
  state : String
  pattern : String
  next? : Option String
deriving DecidableEq, Repr

namespace JoiningRule

/-- The name under which the parser is known. -/
def parserName : String := "multiline-regex"

/-- The state in which every chain begins. -/
def startState : String := "start_state"

/-- The state of lines that continue a message. -/
def continuationState : String := "cont"

/-- How long the engine waits for another line of a message, in milliseconds. -/
def flushTimeout : Nat := 1000

/-- The rule for the line that starts a message, whose pattern is put between slashes. -/
def start (pattern : String) (next? : Option String) : JoiningRule :=
  { state := startState, pattern := "/" ++ pattern ++ "/", next? }

/-- A rule for a line that continues a message. -/
def continuation (pattern : String) : JoiningRule :=
  { state := continuationState, pattern, next? := some continuationState }

/-- The rule leads nowhere. -/
def isLast (r : JoiningRule) : Bool :=
  r.next?.isNone

/-- A text between quotes, as it is. -/
def between (text : String) : String :=
  "\"" ++ text ++ "\""

/-- How many blanks stand before the next state. -/
def gap (r : JoiningRule) : Nat :=
  if r.state = startState then 2 else 21

/-- The line of a rule, without indentation. -/
def render (r : JoiningRule) : String :=
  let line := "rule      " ++ Line.padRight 15 (between r.state) ++ " " ++ between r.pattern
  match r.next? with
  | none => line
  | some next => line ++ Line.padRight r.gap "" ++ between next

/-- The chain of rules for a start pattern and a list of continuation patterns; there is none
without a start pattern. -/
def chain (startPattern continuations : String) : List JoiningRule :=
  if startPattern = "" then []
  else
    match Text.splitEntries ';' continuations with
    | [] => [start startPattern none]
    | patterns => start startPattern (some continuationState) :: patterns.map continuation

/-- What is explained before the rules. -/
def hints : List String :=
  ["",
    "Regex rules for multiline parsing",
    "---------------------------------",
    "",
    "configuration hints:",
    "",
    " - first state always has the name: start_state",
    " - every field in the rule must be inside double quotes",
    "",
    "rules |   state name  | regex pattern                  | next state",
    "------|---------------|--------------------------------------------"]

/-- The head of the section that defines the parser. -/
def parserHead : Section :=
  (Section.new .multilineParser).aligned 13 |>.entry "name" parserName |>.entry "type" "regex"
    |>.entry "flush_timeout" (String.ofList (Decimal.digits flushTimeout))

/-- The section that defines the parser by a chain of rules. -/
def parserSection (rules : List JoiningRule) : Section :=
  rules.foldl (fun s r => s.verbatim r.render) (hints.foldl Section.comment parserHead)

instance : JsonForm JoiningRule where
  shape := .record "MultilineRule" [⟨"state", .text, .fault⟩, ⟨"pattern", .text, .fault⟩,
    ⟨"next_state", .nullable .text, .null⟩]
  toJson r := .object [("state", .string r.state), ("pattern", .string r.pattern),
    ("next_state", (r.next?.map Json.string).getD .null)]
  ofJson?
    | .object [("state", .string state), ("pattern", .string pattern), ("next_state", next)] =>
      next.stringOrNull?.map fun next? => { state, pattern, next? }
    | _ => none

end JoiningRule

namespace Settings

/-- The chain of rules of a snapshot. -/
def joiningRules (s : Settings) : List JoiningRule :=
  JoiningRule.chain (s.value .joinStart) (s.value .joinContinuations)

/-- The section that defines the parser, when lines are joined. -/
def joiningSection? (s : Settings) : Option Section :=
  if s.joinsLines then some (JoiningRule.parserSection s.joiningRules) else none

end Settings

end LogShipper
