import LogShipper.Disk.FileSystem

/-!
# Disks

A tree of directories and regular files with a working directory. Operations answer as a Linux
system does for a user who may do everything, on a tree without links.
-/

namespace LogShipper

/-- A regular file or a directory. Of entries with one name only the first can be reached. -/
inductive Node where
  | file (content : ByteArray)
  | directory (entries : List (String × Node))

namespace Node

/-- The node of that name. -/
def find? (name : String) (entries : List (String × Node)) : Option Node :=
  (entries.find? (·.1 = name)).map (·.2)

/-- The entries with the node of that name put in place of the old one, or at the end. -/
def setEntry (name : String) (node : Node) : List (String × Node) → List (String × Node)
  | [] => [(name, node)]
  | (n, old) :: rest =>
    if n = name then (n, node) :: rest else (n, old) :: setEntry name node rest

theorem find?_setEntry_self (name : String) (node : Node) (entries : List (String × Node)) :
    find? name (setEntry name node entries) = some node := by
  induction entries with
  | nil => simp [setEntry, find?]
  | cons e rest ih =>
    obtain ⟨n, old⟩ := e
    by_cases h : n = name
    · simp [setEntry, find?, h]
    · simpa [setEntry, find?, h] using ih

theorem find?_setEntry_of_ne {name other : String} (h : other ≠ name) (node : Node)
    (entries : List (String × Node)) :
    find? other (setEntry name node entries) = find? other entries := by
  induction entries with
  | nil => simp [setEntry, find?, h.symm]
  | cons e rest ih =>
    obtain ⟨n, old⟩ := e
    by_cases hn : n = name
    · subst hn
      simp [setEntry, find?, h.symm]
    · by_cases ho : n = other
      · subst ho
        simp [setEntry, find?, hn]
      · simpa [setEntry, find?, hn, ho] using ih

/-- The node at a place below this one, given by the names that lead there. -/
def at? : Node → List String → Option Node
  | node, [] => some node
  | .file _, _ :: _ => none
  | .directory entries, name :: place =>
    match find? name entries with
    | none => none
    | some node => node.at? place

/-- The tree with a node put at a place. Directories that are missing on the way are made; nothing
is put below a regular file. -/
def put : Node → List String → Node → Node
  | _, [], new => new
  | .file content, _ :: _, _ => .file content
  | .directory entries, name :: place, new =>
    let old := (find? name entries).getD (.directory [])
    .directory (setEntry name (old.put place new) entries)

mutual

/-- Every place below a node, with the content of a file and nothing for a directory. -/
def contents : Node → List (List String × Option ByteArray)
  | .file _ => []
  | .directory entries => contentsOfEntries entries

/-- Every place below the entries of a directory, the entries among them. -/
def contentsOfEntries : List (String × Node) → List (List String × Option ByteArray)
  | [] => []
  | (name, node) :: rest =>
    let content := match node with
      | .file content => some content
      | .directory _ => none
    let below := node.contents.map fun (place, c) => (name :: place, c)
    ([name], content) :: below ++ contentsOfEntries rest

end

end Node

/-- A tree and the place of the working directory in it. -/
structure Disk where
  root : Node
  home : List String

namespace Disk

/-- The longest name, in bytes. -/
def maxNameSize : Nat := 255

/-- The longest text of a path, in bytes. -/
def maxPathSize : Nat := 4095

/-- The node at a place. -/
def node? (d : Disk) (place : List String) : Option Node :=
  d.root.at? place

/-- A directory is at the place. -/
def enter (d : Disk) (place : List String) : Except OsFault Unit :=
  match d.node? place with
  | none => .error .notFound
  | some (.file _) => .error .notADirectory
  | some (.directory _) => .ok ()

/-- The place that one step leads to from another place, which has to be a directory. What a name
leads to need not exist. -/
def step (d : Disk) (place : List String) (name : String) : Except OsFault (List String) := do
  d.enter place
  if name = "." then .ok place
  else if name = ".." then .ok place.dropLast
  else if maxNameSize < name.utf8ByteSize then .error .nameTooLong
  else .ok (place ++ [name])

/-- The place that the steps of a path start from. -/
def start (d : Disk) (p : Path) : Except OsFault (List String) :=
  if p.steps.any (·.toList.contains '\x00') then .error .nulInName
  else if maxPathSize < p.size then .error .nameTooLong
  else if p.isEmpty then .error .notFound
  else .ok (if p.absolute then [] else d.home)

/-- The place that a path leads to. All but the last step end at directories. -/
def locate (d : Disk) (p : Path) : Except OsFault (List String) := do
  p.steps.foldlM d.step (← d.start p)

/-- The node that is opened for reading at a path. -/
def openNode (d : Disk) (p : Path) : Except OsFault Node := do
  match d.node? (← d.locate p) with
  | none => .error .notFound
  | some (.file content) => if p.trailingSlash then .error .notADirectory else .ok (.file content)
  | some (.directory entries) => .ok (.directory entries)

/-- The content of the file at a path. -/
def read (d : Disk) (p : Path) : Except OsFault ByteArray := do
  match ← d.openNode p with
  | .file content => .ok content
  | .directory _ => .error .isADirectory

/-- A directory is at the path. -/
def isDirectory (d : Disk) (p : Path) : Bool :=
  match d.openNode p with
  | .ok (.directory _) => true
  | _ => false

/-- The disk with a node put at a place. -/
def put (d : Disk) (place : List String) (node : Node) : Disk :=
  { d with root := d.root.put place node }

/-- Make one directory, in a directory that exists. -/
def makeDirectory (d : Disk) (p : Path) : Except OsFault Disk := do
  let place ← d.locate p
  match d.node? place with
  | some _ => .error .alreadyExists
  | none => .ok (d.put place (.directory []))

/-- Put a file with the content at a path, in place of an old one, in a directory that exists. A
slash at the end names a directory, whatever the last step may be. -/
def createFile (d : Disk) (p : Path) (content : ByteArray) : Except OsFault Disk := do
  if p.trailingSlash then
    d.enter (← p.steps.dropLast.foldlM d.step (← d.start p))
    .error .isADirectory
  else
    let place ← d.locate p
    match d.node? place with
    | some (.directory _) => .error .isADirectory
    | _ => .ok (d.put place (.file content))

/-- A change of the disk, which stays as it is on a fault. -/
def change (f : Disk → Except OsFault Disk) : StateM Disk (Except OsFault Unit) := fun d =>
  match f d with
  | .ok d' => pure (.ok (), d')
  | .error fault => pure (.error fault, d)

/-- Disks are a system of files. -/
def system : FileSystem (StateM Disk) where
  makeDirectory p := change (·.makeDirectory p)
  isDirectory p := do return (← get).isDirectory p
  createFile p content := change (·.createFile p content)

/-- The disk that an action leaves behind, and the fault if it ended with one. -/
def after (d : Disk) (action : StateM Disk (Except OsFault Unit)) : Disk × Option OsFault :=
  match (action.run d).run with
  | (.ok (), d') => (d', none)
  | (.error fault, d') => (d', some fault)

/-- Make the first directory of the list, and before that those of the others that are missing. -/
def makeDirectories (d : Disk) (ps : List Path) : Disk × Option OsFault :=
  d.after (system.makeDirectories ps)

/-- Make the directories above a path, and put a file with the content there. -/
def write (d : Disk) (p : Path) (content : ByteArray) : Disk × Option OsFault :=
  d.after (system.write p content)

/-- The directories at the top of a system's tree. -/
def topDirectories : List String :=
  ["bin", "boot", "dev", "etc", "home", "lib", "media", "mnt", "opt", "proc", "root", "run",
    "sbin", "srv", "sys", "tmp", "usr", "var"]

/-- The disk with no more than the directories at the top and a working directory in one of them.
Its name is empty, as no step of a path is, so that a path which leaves it does not find it
again. -/
def fresh : Disk :=
  let top := Node.directory (topDirectories.map (·, .directory []))
  let home := ["tmp", ""]
  { root := top.put home (.directory []), home }

/-- The disk with files, and directories where there is no content, at paths from the working
directory. -/
def ofFiles (files : List (String × Option ByteArray)) : Disk :=
  files.foldl (fun d (path, content?) =>
    let p := Path.ofString path
    match content? with
    | some content => (d.write p content).1
    | none => (d.makeDirectories p.ancestry).1) fresh

/-- Every place below the working directory, with the content of a file and nothing for a
directory. -/
def listing (d : Disk) : List (List String × Option ByteArray) :=
  match d.node? d.home with
  | some node => node.contents
  | none => []

end Disk

end LogShipper
