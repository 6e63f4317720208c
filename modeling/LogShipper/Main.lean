import LogShipper.CommandLine.Program
import LogShipper.Disk.FileSystem
import Std.Time.DateTime

/-!
# The command line on a real system

Files, the clock, the environment and the standard streams. Nothing is decided here: what is done
and what is said comes from the program.
-/

namespace LogShipper.CommandLine

/-! ## Faults -/

/-- The fault of an error of the system. -/
def faultOf : IO.Error → OsFault
  | .noFileOrDirectory _ code text | .permissionDenied _ code text | .alreadyExists _ code text
  | .inappropriateType _ code text | .invalidArgument _ code text | .noSuchThing _ code text
  | .resourceExhausted _ code text | .interrupted _ code text | .otherError code text
  | .resourceBusy code text | .resourceVanished code text | .unsupportedOperation code text
  | .hardwareFault code text | .unsatisfiedConstraints code text | .illegalOperation code text
  | .protocolError code text | .timeExpired code text => .ofNumber code.toNat text
  | .unexpectedEof => .other "unexpected end of file"
  | .userError text => .other text

/-- The outcome of an action that may fail. -/
def attempt {α : Type} (action : IO α) : IO (Except OsFault α) := do
  match ← action.toBaseIO with
  | .ok x => return .ok x
  | .error e => return .error (faultOf e)

/-! ## Files -/

/-- Open a file for reading, and no more. -/
def probeFile (path : String) : IO (Except OsFault Unit) :=
  attempt do
    let _ ← IO.FS.Handle.mk path .read

/-- The files of the system. A path is taken for a directory if the dot in it can be opened. -/
def realFiles : FileSystem IO where
  makeDirectory p := attempt (IO.FS.createDir p.text)
  isDirectory p := do return (← probeFile (p.text ++ "/.")).toBool
  createFile p content := attempt (IO.FS.writeBinFile p.text content)

/-! ## Clock, log and environment -/

/-- The time. -/
def currentTime : IO Calendar.Instant := do
  let now ← Std.Time.Timestamp.now
  let seconds := now.val.second.val
  let date := Std.Time.PlainDate.ofEpochDay ⟨seconds / 86400⟩
  let ofDay := (seconds % 86400).toNat
  return { date := { year := date.year.toInt, month := date.month.val.toNat
                     day := date.day.val.toNat }
           hour := ofDay / 3600, minute := ofDay / 60 % 60, second := ofDay % 60
           nanosecond := now.val.nano.val.toNat }

/-- Write an event on a line of standard error. -/
def logEvent (format : LogFormat) (e : Event) : IO Unit := do
  let time ← currentTime
  match format with
  | .json => IO.eprintln (e.jsonLine time)
  | .pretty => IO.eprintln (e.plainLine time)

/-- The variables of the environment that the program looks at. -/
def environment : IO Source := do
  let names := verbosityVariable :: Setting.all.map (·.name)
  let given ← names.filterMapM fun n => do return (← IO.getEnv n).map (n, ·)
  return .ofList given

/-- The system that the program is started on. -/
def realSystem : System IO where
  readFile path := attempt (IO.FS.readBinFile path)
  probe := probeFile
  write path text := realFiles.write (.ofString path) text.toUTF8
  now := currentTime
  log := logEvent
  explain mistaken := if mistaken then IO.eprintln usage else IO.println usage

end LogShipper.CommandLine

open LogShipper.CommandLine in
/-- Do what the arguments ask for, print what comes of it, and end with its status. -/
def main (args : List String) : IO UInt32 := do
  let outcome ← realSystem.run (← environment) args
  IO.print outcome.output
  return outcome.status.code
