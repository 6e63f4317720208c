import LogShipper.CommandLine.Arguments
import LogShipper.Run.Generate

/-!
# Invocations

The commands of the program with their options, and what an argument list asks for.
-/

namespace LogShipper.CommandLine

/-- How events are written. -/
inductive LogFormat where
  | pretty
  | json
deriving DecidableEq, Repr

/-- The format of that name. -/
def LogFormat.ofName? : String → Option LogFormat
  | "pretty" => some .pretty
  | "json" => some .json
  | _ => none

/-- What the program is asked to do. -/
inductive Command where
  /-- Check the plugin, compile, and write the documents. -/
  | generate (targets : Targets)
  /-- Compile, and print the main document or the one that says how lines are joined. -/
  | render (joining : Bool)
  /-- Check for settings that exclude each other. -/
  | validate
deriving DecidableEq, Repr

/-- A command with the options that hold for all commands. -/
structure Invocation where
  command : Command
  settingsFile? : Option String
  logLevel : String
  logFormat : LogFormat
deriving DecidableEq, Repr

/-- What an argument list asks for. -/
inductive Reading where
  | invocation (i : Invocation)
  | help
  | misuse
deriving DecidableEq, Repr

/-- Options whose value is a path, which may not be empty. -/
def pathSwitch (long : String) : Switch :=
  { long, accepts := (· ≠ "") }

/-- The options that hold for every command. -/
def commonSwitches : List Switch :=
  [{ pathSwitch "settings" with short? := some 's' },
    { long := "log-level" },
    { long := "log-format", accepts := fun v => (LogFormat.ofName? v).isSome }]

/-- The commands with options of their own. -/
def commandSwitches : List (String × List Switch) :=
  [("generate", [pathSwitch "output", pathSwitch "multiline-output", pathSwitch "plugin",
      { long := "skip-plugin-check", takesValue := false }]),
    ("render", [{ long := "multiline", takesValue := false }]),
    ("validate", [])]

/-- The command that explains the others. -/
def helpCommand : String := "help"

/-- The names of all commands. -/
def commandNames : List String :=
  commandSwitches.map (·.1) ++ [helpCommand]

/-- The command of that name, with the options that were given. -/
def commandOf (name : String) (given : Given) : Command :=
  if name = "generate" then
    .generate
      { main := (given.value? "output").getD Targets.usualMain
        joining := (given.value? "multiline-output").getD Targets.usualJoining
        plugin? :=
          if (given.value? "skip-plugin-check").isSome then none
          else some ((given.value? "plugin").getD Targets.usualPlugin) }
  else if name = "render" then .render (given.value? "multiline").isSome
  else .validate

/-- The invocation of a command with the options that were given, those behind the command first. -/
def invocationOf (name : String) (given : Given) : Invocation :=
  { command := commandOf name given
    settingsFile? := given.value? "settings"
    logLevel := (given.value? "log-level").getD "info"
    logFormat := ((given.value? "log-format").bind LogFormat.ofName?).getD .pretty }

/-- Help is given on all commands or on one. -/
def readHelp (words : List String) : Reading :=
  match words with
  | [] => .help
  | [name] => if name ∈ commandNames then .help else .misuse
  | _ => .misuse

/-- What an argument list asks for. -/
def read (args : List String) : Reading :=
  match scan commonSwitches commandNames [] none args with
  | .help => .help
  | .misuse | .ended .. => .misuse
  | .command name words outer outerPending =>
    if name = helpCommand then readHelp words
    else
      let own := (commandSwitches.find? (·.1 = name)).elim [] (·.2)
      match scan (own ++ commonSwitches) [] [] none words with
      | .help => .help
      | .misuse | .command .. => .misuse
      | .ended inner innerPending =>
        match settle inner innerPending, settle outer outerPending with
        | some inner, some outer => .invocation (invocationOf name (inner ++ outer))
        | _, _ => .misuse

/-! ## Explanation -/

/-- An option as it is written. -/
def Switch.usage (o : Switch) : String :=
  let short := o.short?.elim "" fun c => "-" ++ c.toString ++ ", "
  short ++ "--" ++ o.long ++ (if o.takesValue then " <VALUE>" else "")

/-- How the program is used. -/
def usage : String :=
  let own := commandSwitches.map fun (name, switches) =>
    "  " ++ name ++ String.join (switches.map fun o => " [" ++ o.usage ++ "]")
  "\n".intercalate (["Usage: [OPTIONS] <COMMAND>", "", "Commands:"] ++ own ++
    ["  " ++ helpCommand ++ " [COMMAND]", "", "Options:"] ++
    commonSwitches.map fun o => "  " ++ o.usage)

end LogShipper.CommandLine
