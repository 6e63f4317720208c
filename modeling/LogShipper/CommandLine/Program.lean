import LogShipper.CommandLine.Invocation

/-!
# The program

What the program does with an argument list and an environment, for any system that it runs on. It
answers with an exit status and with what it prints; events go to a log on the way.
-/

namespace LogShipper.CommandLine

/-! ## Logs -/

/-- The word for each verbosity, from nothing at all to everything. -/
def verbosityWords : List String :=
  ["off", "error", "warn", "info", "debug", "trace"]

/-- How much is logged for a text that names a level, in any case, or gives its number. The empty
text stands for errors only, and nothing is logged for any other text.

A filter of the logging library can say more than this: it can set levels for single modules and
spans, and where it is taken from the environment and is malformed, the option's level stands in
for it. Such texts are not read that way here. What the log shows on the error stream depends on
it, and neither the standard output nor the exit status does. -/
def verbosityOf (text : String) : Nat :=
  let word := text.map Char.toLower
  if word = "" then EventLevel.error.rank
  else
    match verbosityWords.findIdx? (· = word) with
    | some n => n
    | none =>
      ((List.range verbosityWords.length).find? fun n =>
        String.ofList (Decimal.digits n) = word).getD 0

/-- The environment variable that says how much is logged, before any option. -/
def verbosityVariable : String := "RUST_LOG"

/-- How much an invocation logs. -/
def Invocation.verbosity (i : Invocation) (environment : Source) : Nat :=
  verbosityOf ((environment verbosityVariable).getD i.logLevel)

/-! ## Outcomes -/

/-- How the program ended. -/
inductive ExitStatus where
  | success
  | failure
  | conflict
  | misuse
deriving DecidableEq, Repr

/-- The number of an exit status. -/
def ExitStatus.code : ExitStatus → UInt32
  | .success => 0
  | .failure => 1
  | .conflict => 2
  | .misuse => 2

/-- How the program ended, and what it printed. -/
structure Outcome where
  status : ExitStatus
  output : String
deriving DecidableEq, Repr

/-- A value on lines of its own. -/
def printed (v : Json) : String :=
  v.indented ++ "\n"

/-- The status of a run that failed. -/
def statusOf : RunFault → ExitStatus
  | .conflict _ => .conflict
  | _ => .failure

/-! ## Running -/

/-- The system that the program runs on. -/
structure System (m : Type → Type) where
  readFile : String → m (Except OsFault ByteArray)
  probe : String → m (Except OsFault Unit)
  write : String → String → m (Except OsFault Unit)
  now : m Calendar.Instant
  /-- Write an event to the log. -/
  log : LogFormat → Event → m Unit
  /-- Explain how the program is used, to someone who asked or who was mistaken about it. -/
  explain : (mistaken : Bool) → m Unit

namespace System

variable {m : Type → Type} [Monad m] (system : System m)

/-- Write an event to the log when the verbosity reaches its level. -/
def logAt (verbosity : Nat) (format : LogFormat) (e : Event) : m Unit :=
  if e.level.rank ≤ verbosity then system.log format e else pure ()

/-- The system as the surroundings of a run. -/
def host (verbosity : Nat) (format : LogFormat) : Host m where
  probe := system.probe
  write := system.write
  now := system.now
  note := system.logAt verbosity format
  countValidation := pure ()

/-- Do what a command says, for a snapshot. -/
def perform (host : Host m) (s : Settings) : Command → m Outcome
  | .generate targets => do
    match ← (host.generate s targets).run with
    | .ok report =>
      let result := Json.object [("report", JsonForm.toJson report), ("success", .bool true)]
      return { status := .success, output := printed result.sorted }
    | .error fault =>
      host.note (.failed fault.message)
      let result := Json.object [("error", .string fault.message), ("success", .bool false)]
      return { status := statusOf fault, output := printed result.sorted }
  | .render joining => do
    match ← (host.compile s).run with
    | .ok compiled =>
      match if joining then compiled.joining? else some compiled.main with
      | some document => return { status := .success, output := document }
      | none =>
        host.note .noJoiningDocument
        return { status := .success, output := "" }
    | .error c =>
      let fault := RunFault.conflict c
      host.note (.failed fault.message)
      return { status := statusOf fault, output := "" }
  | .validate =>
    let verdict := s.check
    return { status := if verdict.valid then .success else .conflict
             output := printed (JsonForm.toJson verdict) }

/-- Load the settings of an invocation, and do what its command says. -/
def invoke (environment : Source) (i : Invocation) : m Outcome := do
  let host := system.host (i.verbosity environment) i.logFormat
  match ← Settings.load system.readFile i.settingsFile? environment with
  | .ok s => perform host s i.command
  | .error fault =>
    host.note (.failed fault.message)
    return { status := .failure, output := "" }

/-- What the program does. -/
def run (environment : Source) (args : List String) : m Outcome :=
  match read args with
  | .help => do
    system.explain false
    return { status := .success, output := "" }
  | .misuse => do
    system.explain true
    return { status := .misuse, output := "" }
  | .invocation i => system.invoke environment i

end System

end LogShipper.CommandLine
