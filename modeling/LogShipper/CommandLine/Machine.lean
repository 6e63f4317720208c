import LogShipper.CommandLine.Program

/-!
# Machines

A system that is only a value: a disk, a clock that stands still, and the log so far.
-/

namespace LogShipper.CommandLine

/-- A disk, the time, and the events that were logged, in order and with their format. -/
structure Machine where
  disk : Disk
  time : Calendar.Instant
  log : List (LogFormat × Event)

namespace Machine

/-- A machine with nothing logged. -/
def start (disk : Disk) (time : Calendar.Instant) : Machine :=
  { disk, time, log := [] }

/-- The machine as a system. -/
def system : System (StateM Machine) where
  readFile path := do return (← get).disk.read (.ofString path)
  probe path := do return ((← get).disk.openNode (.ofString path)).map fun _ => ()
  write path text := fun s =>
    match s.disk.write (.ofString path) text.toUTF8 with
    | (disk, none) => pure (.ok (), { s with disk })
    | (disk, some fault) => pure (.error fault, { s with disk })
  now := do return (← get).time
  log format e := modify fun s => { s with log := s.log ++ [(format, e)] }
  explain _ := pure ()

/-- What the program does on a machine, and the machine afterwards. -/
def run (machine : Machine) (environment : Source) (args : List String) : Outcome × Machine :=
  Id.run ((system.run environment args).run machine)

end Machine

end LogShipper.CommandLine
