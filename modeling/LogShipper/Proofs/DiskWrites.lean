import LogShipper.Disk.Basic

/-!
# What writing does to a disk

A write makes directories and puts one file at one place. What was on the disk before stays there:
directories are still directories, and files still have their contents, but for the file at that
place. So a path that led somewhere still leads there, and what is read at it can only have changed
if it leads to the place that was written to.
-/

namespace LogShipper

/-! ## Nodes at places -/

namespace Node

/-- What a node may have become by changes below it: a file is as it was, and a directory is a
directory. -/
inductive Kept : Node → Node → Prop where
  | file (content : ByteArray) : Kept (.file content) (.file content)
  | directory (entries entries' : List (String × Node)) :
      Kept (.directory entries) (.directory entries')

theorem Kept.refl (node : Node) : node.Kept node := by
  cases node with
  | file content => exact .file content
  | directory entries => exact .directory entries entries

theorem at?_append (node : Node) (place below : List String) :
    node.at? (place ++ below) = (node.at? place).bind (·.at? below) := by
  induction place generalizing node with
  | nil => rfl
  | cons name place ih =>
      cases node with
      | file content => rfl
      | directory entries =>
          rw [List.cons_append, at?, at?]
          cases find? name entries with
          | none => rfl
          | some child => exact ih child

/-- A new node is found where it was put, when it was put into a directory. -/
theorem at?_put_self {node : Node} {parent : List String} {entries : List (String × Node)}
    (h : node.at? parent = some (.directory entries)) (name : String) (new : Node) :
    (node.put (parent ++ [name]) new).at? (parent ++ [name]) = some new := by
  induction parent generalizing node with
  | nil =>
      obtain rfl := Option.some.inj h
      simp only [List.nil_append, put, at?, find?_setEntry_self]
  | cons step parent ih =>
      cases node with
      | file content => cases h
      | directory children =>
          rw [at?] at h
          cases hchild : find? step children with
          | none =>
              rw [hchild] at h
              cases h
          | some child =>
              rw [hchild] at h
              simp only [List.cons_append, put, at?, find?_setEntry_self, hchild, Option.getD_some]
              exact ih h

/-- Nodes elsewhere are kept when a node is put where no directory is. -/
theorem exists_at?_put {node : Node} {place : List String}
    (hplace : ∀ entries, node.at? place ≠ some (.directory entries)) (new : Node)
    {other : List String} (hother : other ≠ place) {old : Node} (hold : node.at? other = some old) :
    ∃ kept, (node.put place new).at? other = some kept ∧ old.Kept kept := by
  induction place generalizing node other with
  | nil =>
      -- The node itself is replaced, so it is a file and has nothing below it.
      cases node with
      | directory entries => exact absurd rfl (hplace entries)
      | file content =>
          cases other with
          | nil => exact absurd rfl hother
          | cons step other => cases hold
  | cons name place ih =>
      cases node with
      | file content => exact ⟨old, hold, .refl old⟩
      | directory entries =>
          cases other with
          | nil =>
              obtain rfl := Option.some.inj hold
              exact ⟨_, rfl, .directory entries _⟩
          | cons step other =>
              rw [at?] at hold
              by_cases hstep : step = name
              · subst hstep
                cases hchild : find? step entries with
                | none =>
                    rw [hchild] at hold
                    cases hold
                | some child =>
                    rw [hchild] at hold
                    have hbelow : ∀ es, child.at? place ≠ some (.directory es) := by
                      intro es hes
                      refine hplace es ?_
                      rw [at?, hchild]
                      exact hes
                    simp only [put, at?, find?_setEntry_self, hchild, Option.getD_some]
                    exact ih hbelow (fun h => hother (congrArg _ h)) hold
              · refine ⟨old, ?_, .refl old⟩
                rw [put, at?, find?_setEntry_of_ne hstep]
                exact hold

end Node

namespace Disk

/-! ## Steps -/

section

variable {d : Disk} {place next : List String} {name : String}

theorem enter_eq_ok_iff :
    d.enter place = .ok () ↔ ∃ entries, d.node? place = some (.directory entries) := by
  unfold enter
  split
  · next h => simp [h]
  · next h => simp [h]
  · next entries h => simp [h]

/-- A step is taken from a directory. -/
theorem enter_of_step (h : d.step place name = .ok next) : d.enter place = .ok () := by
  unfold step at h
  cases henter : d.enter place with
  | ok _ => rfl
  | error fault =>
      rw [henter] at h
      cases h

/-- Where a step leads to does not depend on the disk it is taken on. -/
theorem step_eq_of_enter {d' : Disk} (h : d.enter place = .ok ()) (h' : d'.enter place = .ok ())
    (name : String) : d'.step place name = d.step place name := by
  unfold step
  rw [h, h']

/-- The step back leads to a directory. -/
theorem exists_directory_dropLast (h : d.enter place = .ok ()) :
    ∃ entries, d.node? place.dropLast = some (.directory entries) := by
  obtain ⟨entries, hentries⟩ := enter_eq_ok_iff.mp h
  rcases List.eq_nil_or_concat place with rfl | ⟨parent, last, rfl⟩
  · exact ⟨entries, hentries⟩
  · rw [List.concat_eq_append] at hentries
    rw [List.concat_eq_append, List.dropLast_concat]
    unfold node? at hentries
    rw [Node.at?_append] at hentries
    obtain ⟨node, hnode, hlast⟩ := Option.bind_eq_some_iff.mp hentries
    cases node with
    | file content => cases hlast
    | directory siblings => exact ⟨siblings, hnode⟩

/-- A step that does not lead to a directory leads from one to a name in it. -/
theorem eq_append_of_step (h : d.step place name = .ok next)
    (hnext : ∀ entries, d.node? next ≠ some (.directory entries)) : next = place ++ [name] := by
  have henter := enter_of_step h
  unfold step at h
  rw [henter] at h
  change (if name = "." then _ else if name = ".." then _ else _) = _ at h
  by_cases hdot : name = "."
  · rw [if_pos hdot] at h
    obtain rfl := Except.ok.inj h
    obtain ⟨entries, hentries⟩ := enter_eq_ok_iff.mp henter
    exact absurd hentries (hnext entries)
  · rw [if_neg hdot] at h
    by_cases hback : name = ".."
    · rw [if_pos hback] at h
      obtain rfl := Except.ok.inj h
      obtain ⟨entries, hentries⟩ := exists_directory_dropLast henter
      exact absurd hentries (hnext entries)
    · rw [if_neg hback] at h
      split at h
      · cases h
      · exact (Except.ok.inj h).symm

end

/-! ## Paths that lead nowhere yet -/

section

variable {d : Disk} {p : Path} {place : List String}

/-- The steps of a path from where it starts. -/
theorem locate_eq_ok_iff :
    d.locate p = .ok place ↔ ∃ first, d.start p = .ok first ∧
      p.steps.foldlM d.step first = .ok place := by
  unfold locate
  cases d.start p with
  | error fault => exact ⟨nofun, nofun⟩
  | ok first => exact ⟨fun h => ⟨first, rfl, h⟩, fun ⟨_, hfirst, h⟩ => Except.ok.inj hfirst ▸ h⟩

/-- A path that takes no steps and does not end with a slash is the root. -/
theorem start_of_steps_eq_nil (hslash : p.trailingSlash = false) (hsteps : p.steps = [])
    (h : d.start p = .ok place) : place = [] := by
  have hpieces : p.pieces = [] := by
    rcases List.eq_nil_or_concat p.pieces with hnil | ⟨init, last, hlast⟩
    · exact hnil
    · -- The last piece would be empty, as all are.
      rw [List.concat_eq_append] at hlast
      have hempty : last = "" := by
        have hall := List.filter_eq_nil_iff.mp hsteps last (by simp [hlast])
        simpa using hall
      rw [Path.trailingSlash, hlast, List.getLast?_concat, hempty] at hslash
      simp at hslash
  unfold start Path.isEmpty at h
  rw [hsteps, hpieces] at h
  change (if maxPathSize < p.size then _ else _) = _ at h
  split at h
  · cases h
  · cases habsolute : p.absolute with
    | false =>
        rw [habsolute] at h
        cases h
    | true =>
        rw [habsolute] at h
        exact (Except.ok.inj h).symm

/-- A path that leads to no directory leads to the root or into a directory. -/
theorem parent_of_locate (hslash : p.trailingSlash = false) (h : d.locate p = .ok place)
    (hplace : ∀ entries, d.node? place ≠ some (.directory entries)) :
    place = [] ∨ ∃ parent name, place = parent ++ [name] ∧
      ∃ entries, d.node? parent = some (.directory entries) := by
  obtain ⟨first, hfirst, hsteps⟩ := locate_eq_ok_iff.mp h
  rcases List.eq_nil_or_concat p.steps with hnil | ⟨init, last, hlast⟩
  · rw [hnil] at hsteps
    obtain rfl := Except.ok.inj hsteps
    exact Or.inl (start_of_steps_eq_nil hslash hnil hfirst)
  · rw [hlast, List.concat_eq_append, List.foldlM_append] at hsteps
    cases hinit : init.foldlM d.step first with
    | error fault =>
        rw [hinit] at hsteps
        cases hsteps
    | ok parent =>
        rw [hinit] at hsteps
        have hstep : d.step parent last = .ok place := by
          change (d.step parent last >>= pure) = _ at hsteps
          rwa [bind_pure] at hsteps
        exact Or.inr ⟨parent, last, eq_append_of_step hstep hplace,
          enter_eq_ok_iff.mp (enter_of_step hstep)⟩

end

/-! ## Disks that are written to -/

/-- What a disk may have become by writing. Every directory is still there, and so is every file
with its content, but for the file at one place if that is given. -/
structure Later (d d' : Disk) (place? : Option (List String)) : Prop where
  home : d'.home = d.home
  directory : ∀ place entries, d.node? place = some (.directory entries) →
    ∃ entries', d'.node? place = some (.directory entries')
  file : ∀ place content, place? ≠ some place → d.node? place = some (.file content) →
    d'.node? place = some (.file content)

namespace Later

variable {d d' d'' : Disk} {place? : Option (List String)}

theorem refl (d : Disk) (place? : Option (List String)) : d.Later d place? where
  home := rfl
  directory _ entries h := ⟨entries, h⟩
  file _ _ _ h := h

/-- Nothing was replaced on the way to a disk on which something is. -/
theorem trans (h : d.Later d' none) (h' : d'.Later d'' place?) : d.Later d'' place? where
  home := h'.home.trans h.home
  directory place entries hentries := by
    obtain ⟨entries', hentries'⟩ := h.directory place entries hentries
    exact h'.directory place entries' hentries'
  file place content hplace hcontent :=
    h'.file place content hplace (h.file place content nofun hcontent)

theorem enter {place : List String} (h : d.Later d' place?) (henter : d.enter place = .ok ()) :
    d'.enter place = .ok () := by
  obtain ⟨entries, hentries⟩ := enter_eq_ok_iff.mp henter
  exact enter_eq_ok_iff.mpr (h.directory place entries hentries)

theorem steps {place last : List String} {names : List String} (h : d.Later d' place?)
    (hlast : names.foldlM d.step place = .ok last) : names.foldlM d'.step place = .ok last := by
  induction names generalizing place with
  | nil => exact hlast
  | cons name names ih =>
      rw [List.foldlM_cons] at hlast
      cases hstep : d.step place name with
      | error fault =>
          rw [hstep] at hlast
          cases hlast
      | ok next =>
          rw [hstep] at hlast
          have henter := enter_of_step hstep
          rw [List.foldlM_cons, step_eq_of_enter henter (h.enter henter), hstep]
          exact ih hlast

/-- A path still leads where it led. -/
theorem locate {p : Path} {place : List String} (h : d.Later d' place?)
    (hplace : d.locate p = .ok place) : d'.locate p = .ok place := by
  obtain ⟨first, hfirst, hsteps⟩ := locate_eq_ok_iff.mp hplace
  refine locate_eq_ok_iff.mpr ⟨first, ?_, h.steps hsteps⟩
  unfold start at hfirst ⊢
  rw [h.home]
  exact hfirst

end Later

/-- A node that is put where no directory is replaces at most a file. -/
theorem later_put {d : Disk} {place : List String}
    (hplace : ∀ entries, d.node? place ≠ some (.directory entries)) (new : Node) :
    d.Later (d.put place new) (some place) where
  home := rfl
  directory other entries h := by
    have hother : other ≠ place := fun heq => hplace entries (heq ▸ h)
    obtain ⟨kept, hkept, hold⟩ := Node.exists_at?_put hplace new hother h
    cases hold with
    | directory _ entries' => exact ⟨entries', hkept⟩
  file other content hother h := by
    obtain ⟨kept, hkept, hold⟩ :=
      Node.exists_at?_put hplace new (fun heq => hother (congrArg some heq.symm)) h
    cases hold with
    | file _ => exact hkept

/-! ## What actions leave behind -/

/-- A fault is forgiven where a directory is at the path. -/
def settled (d : Disk) (p : Path) (fault : OsFault) : Disk × Option OsFault :=
  if d.isDirectory p then (d, none) else (d, some fault)

section

variable (d : Disk) (p : Path)

theorem after_bind (x : StateM Disk (Except OsFault Unit))
    (f : Except OsFault Unit → StateM Disk (Except OsFault Unit)) :
    d.after (x >>= f) =
      match d.after x with
      | (d', none) => d'.after (f (.ok ()))
      | (d', some fault) => d'.after (f (.error fault)) := by
  simp only [after, StateT.run_bind, Id.run_bind]
  rcases (x.run d).run with ⟨_ | _, d'⟩ <;> rfl

theorem after_change (f : Disk → Except OsFault Disk) :
    d.after (change f) =
      match f d with
      | .ok d' => (d', none)
      | .error fault => (d, some fault) := by
  simp only [after, change, StateT.run]
  cases f d <;> rfl

theorem after_settle (fault : OsFault) : d.after (system.settle p fault) = d.settled p fault := by
  unfold FileSystem.settle after settled
  simp only [system]
  cases h : d.isDirectory p <;> simp [h]

theorem after_makeDirectory :
    d.after (system.makeDirectory p) =
      match d.makeDirectory p with
      | .ok d' => (d', none)
      | .error fault => (d, some fault) :=
  d.after_change _

theorem makeDirectories_cons (above : List Path) :
    d.makeDirectories (p :: above) =
      if p.isEmpty then (d, none)
      else
        match d.makeDirectory p with
        | .ok d' => (d', none)
        | .error .notFound =>
          match d.makeDirectories above with
          | (d', some fault) => (d', some fault)
          | (d', none) =>
            match d'.makeDirectory p with
            | .ok d'' => (d'', none)
            | .error fault => d'.settled p fault
        | .error fault => d.settled p fault := by
  -- The right side speaks of the directories above, so only the left side is opened.
  change d.after (system.makeDirectories (p :: above)) = _
  rw [FileSystem.makeDirectories]
  cases p.isEmpty with
  | true => rfl
  | false =>
    simp only [Bool.false_eq_true, if_false, after_bind, after_makeDirectory]
    cases d.makeDirectory p with
    | ok d' => rfl
    | error fault =>
      cases fault with
      | notFound =>
        rw [show d.makeDirectories above = d.after (system.makeDirectories above) from rfl]
        dsimp only
        rw [after_bind]
        rcases d.after (system.makeDirectories above) with ⟨d', _ | fault⟩
        · dsimp only
          rw [after_bind, after_makeDirectory]
          cases d'.makeDirectory p with
          | ok _ => rfl
          | error fault => exact d'.after_settle p fault
        · rfl
      | _ => exact d.after_settle p _

/-- The disk when the directories above a path are made, which is what a write begins with. -/
def makeAbove : Disk × Option OsFault :=
  d.after (system.makeAbove p)

theorem makeAbove_eq : d.makeAbove p = d.makeDirectories (p.parent?.elim [] Path.ancestry) := rfl

theorem write_eq (content : ByteArray) :
    d.write p content =
      match d.makeAbove p with
      | (d', some fault) => (d', some fault)
      | (d', none) =>
        match d'.createFile p content with
        | .ok d'' => (d'', none)
        | .error fault => (d', some fault) := by
  unfold write FileSystem.write makeAbove
  rw [after_bind]
  rcases d.after (system.makeAbove p) with ⟨d', _ | fault⟩
  · exact d'.after_change _
  · rfl

end

/-! ## Directories that are made -/

theorem later_of_makeDirectory {d d' : Disk} {p : Path} (h : d.makeDirectory p = .ok d') :
    d.Later d' none := by
  unfold makeDirectory at h
  cases hplace : d.locate p with
  | error fault =>
      rw [hplace] at h
      cases h
  | ok place =>
      rw [hplace] at h
      dsimp only [bind, Except.bind] at h
      cases hnode : d.node? place with
      | some node =>
          rw [hnode] at h
          cases h
      | none =>
          rw [hnode] at h
          obtain rfl := Except.ok.inj h
          have hempty : ∀ entries, d.node? place ≠ some (.directory entries) := by
            rw [hnode]
            nofun
          have hlater := later_put hempty (.directory [])
          refine ⟨hlater.home, hlater.directory, ?_⟩
          intro other content _ hcontent
          -- There was no file at the place of the new directory.
          refine hlater.file other content ?_ hcontent
          rintro ⟨⟩
          rw [hnode] at hcontent
          cases hcontent

/-- To make directories replaces nothing, also where that ends with a fault. -/
theorem later_makeDirectories (d : Disk) (ps : List Path) :
    d.Later (d.makeDirectories ps).1 none := by
  have hsettled (d : Disk) (p : Path) (fault : OsFault) : (d.settled p fault).1 = d := by
    unfold settled
    split <;> rfl
  induction ps generalizing d with
  | nil => exact .refl d none
  | cons p above ih =>
      rw [makeDirectories_cons]
      split
      · exact .refl d none
      · split
        · next d' hmade => exact later_of_makeDirectory hmade
        · have habove := ih d
          split
          · next d' fault h =>
            rw [h] at habove
            exact habove
          · next d' h =>
            rw [h] at habove
            split
            · next d'' hmade => exact habove.trans (later_of_makeDirectory hmade)
            · rw [hsettled]
              exact habove
        · rw [hsettled]
          exact .refl d none

theorem later_makeAbove (d : Disk) (p : Path) : d.Later (d.makeAbove p).1 none :=
  later_makeDirectories d _

/-! ## Files that are written -/

theorem openNode_of_locate {d : Disk} {p : Path} {place : List String}
    (h : d.locate p = .ok place) :
    d.openNode p = match d.node? place with
      | none => .error .notFound
      | some (.file content) =>
        if p.trailingSlash then .error .notADirectory else .ok (.file content)
      | some (.directory entries) => .ok (.directory entries) := by
  unfold openNode
  rw [h]
  rfl

/-- A content is read at a path that leads to a file and does not ask for a directory. -/
theorem read_eq_ok_iff {d : Disk} {p : Path} {content : ByteArray} :
    d.read p = .ok content ↔ p.trailingSlash = false ∧ ∃ place, d.locate p = .ok place ∧
      d.node? place = some (.file content) := by
  unfold read
  cases hplace : d.locate p with
  | error fault =>
      have hopen : d.openNode p = .error fault := by
        unfold openNode
        rw [hplace]
        rfl
      rw [hopen]
      exact ⟨nofun, nofun⟩
  | ok place =>
      rw [openNode_of_locate hplace]
      simp only [Except.ok.injEq, exists_eq_left']
      cases d.node? place with
      | none => exact ⟨nofun, nofun⟩
      | some node =>
          cases node with
          | directory entries => exact ⟨nofun, nofun⟩
          | file old =>
              cases p.trailingSlash with
              | true => exact ⟨nofun, nofun⟩
              | false =>
                  change Except.ok old = _ ↔ _
                  simp

/-- Two paths lead to one place. -/
def SamePlace (d : Disk) (p q : Path) : Prop :=
  ∃ place, d.locate p = .ok place ∧ d.locate q = .ok place

/-- What is read at a path is still read there, unless it leads to the place of another file. -/
theorem Later.read {d d' : Disk} {p : Path} {place? : Option (List String)} {content : ByteArray}
    (h : d.Later d' place?) (hcontent : d.read p = .ok content)
    (hplace : ∀ place, d'.locate p = .ok place → place? ≠ some place) :
    d'.read p = .ok content := by
  obtain ⟨hslash, place, hlocate, hnode⟩ := read_eq_ok_iff.mp hcontent
  have hlocate' := h.locate hlocate
  exact read_eq_ok_iff.mpr
    ⟨hslash, place, hlocate', h.file place content (hplace place hlocate') hnode⟩

theorem bind_ne_ok {α β : Type} {x : Except OsFault α} {f : α → Except OsFault β} {b : β}
    (h : ∀ a, f a ≠ .ok b) : x >>= f ≠ .ok b := by
  cases x with
  | error fault => nofun
  | ok a => exact h a

/-- Files are put where no directory is, at paths that do not ask for one. -/
theorem createFile_eq_ok {d d' : Disk} {p : Path} {content : ByteArray}
    (h : d.createFile p content = .ok d') :
    p.trailingSlash = false ∧ ∃ place, d.locate p = .ok place ∧
      (∀ entries, d.node? place ≠ some (.directory entries)) ∧
      d' = d.put place (.file content) := by
  unfold createFile at h
  cases hslash : p.trailingSlash with
  | true =>
      -- Whether the steps can be taken or not, this ends with a fault.
      rw [hslash, if_pos rfl] at h
      refine absurd h (bind_ne_ok fun first => bind_ne_ok fun above => bind_ne_ok fun _ => ?_)
      nofun
  | false =>
      rw [hslash, if_neg Bool.false_ne_true] at h
      cases hplace : d.locate p with
      | error fault =>
          rw [hplace] at h
          cases h
      | ok place =>
          rw [hplace] at h
          dsimp only [bind, Except.bind] at h
          cases hnode : d.node? place with
          | none =>
              rw [hnode] at h
              exact ⟨rfl, place, rfl, by simp [hnode], (Except.ok.inj h).symm⟩
          | some node =>
              rw [hnode] at h
              cases node with
              | directory entries => cases h
              | file old => exact ⟨rfl, place, rfl, by simp [hnode], (Except.ok.inj h).symm⟩

/-- A file that was put is at the end of its path, and nothing else was replaced. -/
theorem of_createFile {d d' : Disk} {p : Path} {content : ByteArray}
    (h : d.createFile p content = .ok d') :
    ∃ place, d.Later d' (some place) ∧ d'.locate p = .ok place ∧ d'.read p = .ok content := by
  obtain ⟨hslash, place, hplace, hnode, rfl⟩ := createFile_eq_ok h
  have hlater := later_put hnode (.file content)
  have hfile : (d.put place (.file content)).node? place = some (.file content) := by
    rcases parent_of_locate hslash hplace hnode with rfl | ⟨parent, name, rfl, entries, hparent⟩
    · rfl
    · exact Node.at?_put_self hparent name (.file content)
  have hlocate := hlater.locate hplace
  exact ⟨place, hlater, hlocate, read_eq_ok_iff.mpr ⟨hslash, place, hlocate, hfile⟩⟩

/-- A name in the working directory has no directories above it that could be made. -/
theorem write_of_isEmpty {d d' : Disk} {p q : Path} {content : ByteArray}
    (hparent : p.parent? = some q) (hempty : q.isEmpty = true)
    (hcreate : d.createFile p content = .ok d') : d.write p content = (d', none) := by
  have habove : d.makeAbove p = (d, none) := by
    rw [makeAbove_eq, hparent, Option.elim_some, Path.ancestry, makeDirectories_cons, if_pos hempty]
  rw [write_eq, habove]
  dsimp only
  rw [hcreate]

/-- **A write that succeeds puts its content at its path and replaces no other file.** -/
theorem of_write {d d' : Disk} {p : Path} {content : ByteArray}
    (h : d.write p content = (d', none)) :
    ∃ place, d.Later d' (some place) ∧ d'.locate p = .ok place ∧ d'.read p = .ok content := by
  have habove := later_makeAbove d p
  rw [write_eq] at h
  rcases hmade : d.makeAbove p with ⟨made, _ | fault⟩
  · rw [hmade] at h habove
    dsimp only at h habove
    cases hcreate : made.createFile p content with
    | error fault =>
        rw [hcreate] at h
        cases h
    | ok after =>
        rw [hcreate] at h
        obtain rfl : after = d' := (Prod.mk.inj h).1
        obtain ⟨place, hlater, hplace⟩ := of_createFile hcreate
        exact ⟨place, habove.trans hlater, hplace⟩
  · rw [hmade] at h
    cases h

theorem read_of_write {d d' : Disk} {p : Path} {content : ByteArray}
    (h : d.write p content = (d', none)) : d'.read p = .ok content := by
  obtain ⟨_, -, -, hread⟩ := of_write h
  exact hread

/-- What is read at a path is still read there when another place was written to. -/
theorem read_of_write_other {d d' : Disk} {p q : Path} {content content' : ByteArray}
    (h : d.write q content' = (d', none)) (hread : d.read p = .ok content)
    (hother : ¬ d'.SamePlace p q) : d'.read p = .ok content := by
  obtain ⟨place, hlater, hplace, -⟩ := of_write h
  refine hlater.read hread ?_
  rintro _ hlocate ⟨⟩
  exact hother ⟨place, hlocate, hplace⟩

end Disk

end LogShipper
