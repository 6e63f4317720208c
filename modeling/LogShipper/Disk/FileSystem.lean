import LogShipper.Disk.Fault
import LogShipper.Disk.Path

/-!
# Systems of files

How a file is put at a path above which directories are missing. This is written for any system that
can make one directory, tell whether there is one, and put a file into a directory that exists.
-/

namespace LogShipper

/-- What it takes to put files at paths. -/
structure FileSystem (m : Type → Type) where
  /-- Make one directory, in a directory that exists. -/
  makeDirectory : Path → m (Except OsFault Unit)
  /-- Tell whether a directory is at the path. -/
  isDirectory : Path → m Bool
  /-- Put a file with the content at a path, in place of an old one, in a directory that exists. -/
  createFile : Path → ByteArray → m (Except OsFault Unit)

namespace FileSystem

variable {m : Type → Type} [Monad m] (system : FileSystem m)

/-- A directory that could not be made will do if it is there. -/
def settle (p : Path) (fault : OsFault) : m (Except OsFault Unit) := do
  return if ← system.isDirectory p then .ok () else .error fault

/-- Make the first directory of the list; each is in the one after it. Where that is missing it is
made first. On a fault the directories made so far stay. -/
def makeDirectories : List Path → m (Except OsFault Unit)
  | [] => return .ok ()
  | p :: above => do
    if p.isEmpty then return .ok ()
    match ← system.makeDirectory p with
    | .ok () => return .ok ()
    | .error .notFound =>
      match ← makeDirectories above with
      | .error fault => return .error fault
      | .ok () =>
        match ← system.makeDirectory p with
        | .ok () => return .ok ()
        | .error fault => system.settle p fault
    | .error fault => system.settle p fault

/-- Make the directories above a path. -/
def makeAbove (p : Path) : m (Except OsFault Unit) :=
  system.makeDirectories (p.parent?.elim [] Path.ancestry)

/-- Make the directories above a path, and put a file with the content there. -/
def write (p : Path) (content : ByteArray) : m (Except OsFault Unit) := do
  match ← system.makeAbove p with
  | .ok () => system.createFile p content
  | .error fault => return .error fault

end FileSystem

end LogShipper
