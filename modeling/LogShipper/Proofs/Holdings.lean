import LogShipper.Proofs.DiskWrites

/-!
# What is where on a disk

A disk is looked at as a map from places to what is there, a file with its content or a directory.
There is something at a place only if directories are at all places above it. To put a file or an
empty directory into a directory, where no directory is, changes the map at one place.
-/

namespace LogShipper

/-- What is at a place, apart from what is below it. -/
inductive Holding where
  | file (content : ByteArray)
  | directory

/-- Files are compared by their bytes. -/
instance : DecidableEq Holding
  | .file a, .file b =>
      decidable_of_iff (a.data = b.data)
        ⟨fun h => congrArg Holding.file (ByteArray.ext h), fun h => by cases h; rfl⟩
  | .directory, .directory => isTrue rfl
  | .file _, .directory | .directory, .file _ => isFalse nofun

namespace Node

/-- What the node is, apart from what is below it. -/
def holding : Node → Holding
  | .file content => .file content
  | .directory _ => .directory

theorem holding_eq_file_iff {node : Node} {content : ByteArray} :
    node.holding = .file content ↔ node = .file content := by
  cases node <;> simp [holding]

theorem holding_eq_directory_iff {node : Node} :
    node.holding = .directory ↔ ∃ entries, node = .directory entries := by
  cases node <;> simp [holding]

theorem Kept.holding_eq {old new : Node} (h : old.Kept new) : new.holding = old.holding := by
  cases h <;> rfl

/-! ## Nodes that are put into directories -/

theorem setEntry_setEntry (name : String) (a b : Node) (entries : List (String × Node)) :
    setEntry name b (setEntry name a entries) = setEntry name b entries := by
  induction entries with
  | nil => simp [setEntry]
  | cons e rest ih =>
      obtain ⟨n, old⟩ := e
      by_cases h : n = name
      · simp [setEntry, h]
      · simp [setEntry, h, ih]

/-- Of two nodes that are put at one place the second stays. -/
theorem put_put (node : Node) (place : List String) (a b : Node) :
    (node.put place a).put place b = node.put place b := by
  induction place generalizing node with
  | nil => rfl
  | cons name place ih =>
      cases node with
      | file content => rfl
      | directory entries =>
          simp only [put, find?_setEntry_self, Option.getD_some, setEntry_setEntry, ih]

/-- Nothing is found elsewhere that was not there before, when a node with nothing below it is put
into a directory. -/
theorem at?_put_eq_none {node : Node} {parent : List String} {entries : List (String × Node)}
    (hparent : node.at? parent = some (.directory entries)) {name : String} {new : Node}
    (hnew : ∀ step below, new.at? (step :: below) = none) {other : List String}
    (hother : other ≠ parent ++ [name]) (hnone : node.at? other = none) :
    (node.put (parent ++ [name]) new).at? other = none := by
  induction parent generalizing node other with
  | nil =>
      obtain rfl := Option.some.inj hparent
      cases other with
      | nil => cases hnone
      | cons step below =>
          rw [at?] at hnone
          by_cases hstep : step = name
          · subst hstep
            rw [List.nil_append, put, at?, find?_setEntry_self]
            cases below with
            | nil => exact absurd rfl hother
            | cons next below => exact hnew next below
          · rw [List.nil_append, put, at?, find?_setEntry_of_ne hstep]
            exact hnone
  | cons first parent ih =>
      cases node with
      | file content => cases hparent
      | directory children =>
          rw [at?] at hparent
          cases hchild : find? first children with
          | none =>
              rw [hchild] at hparent
              cases hparent
          | some child =>
              rw [hchild] at hparent
              cases other with
              | nil => cases hnone
              | cons step below =>
                  rw [at?] at hnone
                  by_cases hstep : step = first
                  · subst hstep
                    rw [hchild] at hnone
                    simp only [List.cons_append, put, at?, find?_setEntry_self, hchild,
                      Option.getD_some]
                    exact ih hparent (fun h => hother (congrArg _ h)) hnone
                  · rw [List.cons_append, put, at?, find?_setEntry_of_ne hstep]
                    exact hnone

end Node

namespace Disk

/-- What is at a place, if anything is. -/
def holding? (d : Disk) (place : List String) : Option Holding :=
  (d.node? place).map Node.holding

variable {d : Disk} {place : List String}

theorem holding?_eq_none_iff : d.holding? place = none ↔ d.node? place = none :=
  Option.map_eq_none_iff

theorem holding?_eq_file_iff {content : ByteArray} :
    d.holding? place = some (.file content) ↔ d.node? place = some (.file content) := by
  simp [holding?, Node.holding_eq_file_iff]

theorem holding?_eq_directory_iff :
    d.holding? place = some .directory ↔ ∃ entries, d.node? place = some (.directory entries) := by
  rw [holding?, Option.map_eq_some_iff]
  constructor
  · rintro ⟨node, hnode, hdirectory⟩
    obtain ⟨entries, rfl⟩ := Node.holding_eq_directory_iff.mp hdirectory
    exact ⟨entries, hnode⟩
  · rintro ⟨entries, hnode⟩
    exact ⟨_, hnode, rfl⟩

/-- Where something is, directories are above it. -/
theorem directory_of_append {step : String} {below : List String} {here : Holding}
    (h : d.holding? (place ++ step :: below) = some here) :
    d.holding? place = some .directory := by
  rw [holding?, node?, Node.at?_append] at h
  rw [holding?, node?]
  cases hnode : d.root.at? place with
  | none =>
      rw [hnode] at h
      cases h
  | some node =>
      rw [hnode] at h
      cases node with
      | file content => cases h
      | directory entries => rfl

/-- All that is above a directory are directories. -/
theorem directory_above {above : List String} (h : d.holding? place = some .directory)
    (habove : above <+: place) : d.holding? above = some .directory := by
  obtain ⟨below, rfl⟩ := habove
  cases below with
  | nil => rwa [List.append_nil] at h
  | cons step below => exact directory_of_append h

theorem put_put (d : Disk) (place : List String) (a b : Node) :
    (d.put place a).put place b = d.put place b := by
  rw [put, put, put, Node.put_put]

theorem holding?_put {parent : List String} {name : String} {new : Node}
    (hparent : d.holding? parent = some .directory)
    (hfree : d.holding? (parent ++ [name]) ≠ some .directory)
    (hnew : ∀ step below, new.at? (step :: below) = none) (other : List String) :
    (d.put (parent ++ [name]) new).holding? other =
      if other = parent ++ [name] then some new.holding else d.holding? other := by
  obtain ⟨entries, hentries⟩ := holding?_eq_directory_iff.mp hparent
  by_cases hother : other = parent ++ [name]
  · rw [if_pos hother, hother, holding?, node?, put, Node.at?_put_self hentries]
    rfl
  · rw [if_neg hother, holding?, holding?, node?, node?, put]
    cases hold : d.root.at? other with
    | none =>
        rw [Node.at?_put_eq_none hentries hnew hother hold]
    | some old =>
        have hplace : ∀ es, d.root.at? (parent ++ [name]) ≠ some (.directory es) :=
          fun es hes => hfree (holding?_eq_directory_iff.mpr ⟨es, hes⟩)
        obtain ⟨kept, hkept, hsame⟩ := Node.exists_at?_put hplace new hother hold
        rw [hkept, Option.map_some, Option.map_some, hsame.holding_eq]

end Disk

end LogShipper
