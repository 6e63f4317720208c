import LogShipper.Run.Generate

/-!
# Sessions

A session puts requests to one program, one after the other: it holds the snapshot in force, a disk,
a destination in memory on which some paths fail, and the number of validations.
-/

namespace LogShipper

/-- A destination that keeps what is written to it, and refuses some paths. -/
structure Memory where
  /-- The paths that are refused, with what is said then. The first of a path counts. -/
  refused : List (String × String)
  /-- The paths and texts that were written, in order. -/
  written : List (String × String)
deriving DecidableEq, Repr

namespace Memory

/-- Nothing is refused and nothing was written. -/
def empty : Memory :=
  { refused := [], written := [] }

/-- Refuse a path from now on. -/
def refuse (mem : Memory) (path message : String) : Memory :=
  { mem with refused := (path, message) :: mem.refused }

/-- Accept a path again. -/
def accept (mem : Memory) (path : String) : Memory :=
  { mem with refused := mem.refused.filter (·.1 ≠ path) }

/-- Write a text to a path, unless that is refused. -/
def write (mem : Memory) (path text : String) : Memory × Option OsFault :=
  match mem.refused.find? (·.1 = path) with
  | some (_, message) => (mem, some (.other message))
  | none => ({ mem with written := mem.written ++ [(path, text)] }, none)

end Memory

/-- The state of a session. -/
structure Session where
  settings : Settings
  validations : UInt32
  disk : Disk
  memory : Memory
  time : Calendar.Instant

/-- Where a run of a session writes to. -/
inductive Destination where
  | memory
  | disk
deriving DecidableEq, Repr

/-- What is asked of a session. -/
inductive Request where
  /-- Take the snapshot of a source. -/
  | useSource (source : Source)
  /-- Take the snapshot of a settings text. -/
  | useText (text : String)
  | fingerprint
  | check
  | validate
  | compile
  | resetCount
  | refuse (path message : String)
  | accept (path : String)
  | generate (targets : Targets) (destination : Destination)

/-- What a session answers. -/
inductive Answer where
  | done
  | malformed (fault : SettingsFault)
  | fingerprint (digest : String)
  | verdict (v : Verdict)
  | validated (outcome : Except Conflict Unit)
  | compiled (outcome : Except Conflict Compiled)
  | generated (outcome : Except RunFault Report)

namespace Session

/-- The session at its start: the presets, and nothing validated or written. -/
def start (disk : Disk) (time : Calendar.Instant) : Session :=
  { settings := .presets, validations := 0, disk, memory := .empty, time }

/-- Write a text to a path of a destination. -/
def write (destination : Destination) (path text : String) (s : Session) :
    Except OsFault Unit × Session :=
  let outcome (fault? : Option OsFault) : Except OsFault Unit :=
    match fault? with
    | none => .ok ()
    | some fault => .error fault
  match destination with
  | .memory =>
    let (memory, fault?) := s.memory.write path text
    (outcome fault?, { s with memory })
  | .disk =>
    let (disk, fault?) := s.disk.write (.ofString path) text.toUTF8
    (outcome fault?, { s with disk })

/-- A session as the surroundings of a run. Plugins are looked for on its disk. -/
def host (destination : Destination) : Host (StateM Session) where
  probe path := do return ((← get).disk.openNode (.ofString path)).map fun _ => ()
  write path text := fun s => pure (write destination path text s)
  now := do return (← get).time
  note _ := pure ()
  countValidation := modify fun s => { s with validations := s.validations + 1 }

/-- Take a snapshot. -/
def use (settings : Settings) : StateM Session Unit :=
  modify fun s => { s with settings }

/-- The answer to a request. -/
def answer : Request → StateM Session Answer
  | .useSource source => do
    use (.ofSource source)
    return .done
  | .useText text => do
    match Settings.ofText text with
    | .ok settings =>
      use settings
      return .done
    | .error fault => return .malformed fault
  | .fingerprint => do return .fingerprint (← get).settings.fingerprint
  | .check => do return .verdict (← get).settings.check
  | .validate => do return .validated (← ((host .memory).validate (← get).settings).run)
  | .compile => do return .compiled (← ((host .memory).compile (← get).settings).run)
  | .resetCount => do
    modify fun s => { s with validations := 0 }
    return .done
  | .refuse path message => do
    modify fun s => { s with memory := s.memory.refuse path message }
    return .done
  | .accept path => do
    modify fun s => { s with memory := s.memory.accept path }
    return .done
  | .generate targets destination => do
    return .generated (← ((host destination).generate (← get).settings targets).run)

end Session

end LogShipper
