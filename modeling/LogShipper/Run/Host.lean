import LogShipper.Calendar.Instant
import LogShipper.Disk.Fault
import LogShipper.Run.Event

/-!
# Hosts

What a run needs from its surroundings. A run is written for any host, so that the same run can
work on files, in memory, or on a disk that is only a value.
-/

namespace LogShipper

/-- The surroundings of a run. -/
structure Host (m : Type → Type) where
  /-- Try to open the file at a path for reading. -/
  probe : String → m (Except OsFault Unit)
  /-- Make the directories above a path, and put a file with the text there. -/
  write : String → String → m (Except OsFault Unit)
  /-- The time. -/
  now : m Calendar.Instant
  /-- Take note of an event. -/
  note : Event → m Unit
  /-- Take note that a snapshot was validated. -/
  countValidation : m Unit

end LogShipper
