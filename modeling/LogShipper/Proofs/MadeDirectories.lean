import LogShipper.Proofs.Holdings
import LogShipper.Proofs.PathParents
import Mathlib.Data.List.Induction

/-!
# Directories that are made on the way

A path whose steps are names leads from where it starts to the place under those names, and the walk
there goes well as far as directories go. When all directories above a place are to be made, those
that are missing are made one after the other, from above, and the disk differs at these places
alone. A file on the way stops all of it before anything is made.
-/

namespace LogShipper.Disk

open LogShipper.Path (IsName)

/-- The place that a path starts from. -/
def base (d : Disk) (p : Path) : List String :=
  if p.absolute then [] else d.home

/-- The place under the steps of a path. -/
def target (d : Disk) (p : Path) : List String :=
  d.base p ++ p.steps

/-! ## Walks -/

section

variable {d : Disk} {place first : List String} {names : List String} {name : String}

theorem enter_of_directory (h : d.holding? place = some .directory) : d.enter place = .ok () :=
  enter_eq_ok_iff.mpr (holding?_eq_directory_iff.mp h)

theorem enter_of_none (h : d.holding? place = none) : d.enter place = .error .notFound := by
  rw [enter, holding?_eq_none_iff.mp h]

theorem enter_of_file {content : ByteArray} (h : d.holding? place = some (.file content)) :
    d.enter place = .error .notADirectory := by
  rw [enter, holding?_eq_file_iff.mp h]

theorem step_of_directory (hname : IsName name) (h : d.holding? place = some .directory) :
    d.step place name = .ok (place ++ [name]) := by
  rw [step, enter_of_directory h]
  show (if name = "." then _ else _) = _
  rw [if_neg hname.ne_dot, if_neg hname.ne_back, if_neg (Nat.not_lt.mpr hname.size_le)]

theorem step_of_fault {fault : OsFault} (h : d.enter place = .error fault) :
    d.step place name = .error fault := by
  rw [step, h]
  rfl

theorem walk_concat : (names ++ [name]).foldlM d.step first =
    names.foldlM d.step first >>= fun last => d.step last name := by
  rw [List.foldlM_append]
  simp

/-- A walk under names leads to a place where something is. -/
theorem walk_of_present (hnames : ∀ name ∈ names, IsName name) {here : Holding}
    (h : d.holding? (first ++ names) = some here) :
    names.foldlM d.step first = .ok (first ++ names) := by
  induction names using List.reverseRecOn generalizing here with
  | nil => rw [List.append_nil]; rfl
  | append_singleton names name ih =>
      rw [← List.append_assoc] at h
      have hparent := directory_of_append h
      rw [List.forall_mem_append, List.forall_mem_singleton] at hnames
      rw [walk_concat, ih hnames.1 hparent, ← List.append_assoc]
      exact step_of_directory hnames.2 hparent

/-- A walk into a directory. -/
theorem walk_of_directory (hnames : ∀ n ∈ names ++ [name], IsName n)
    (h : d.holding? (first ++ names) = some .directory) :
    (names ++ [name]).foldlM d.step first = .ok (first ++ names ++ [name]) := by
  rw [List.forall_mem_append, List.forall_mem_singleton] at hnames
  rw [walk_concat, walk_of_present hnames.1 h]
  exact step_of_directory hnames.2 h

/-- A walk ends where something is missing, if there is no file before. -/
theorem walk_of_missing (hnames : ∀ n ∈ names, IsName n)
    (hfirst : d.holding? first = some .directory)
    (hfree : ∀ above, above <+: first ++ names → ∀ content, d.holding? above ≠ some (.file content))
    (hnone : d.holding? (first ++ names) = none) :
    (names ++ [name]).foldlM d.step first = .error .notFound := by
  induction names using List.reverseRecOn generalizing name with
  | nil =>
      rw [List.append_nil, hfirst] at hnone
      cases hnone
  | append_singleton names last ih =>
      have hbefore := (List.forall_mem_append.mp hnames).1
      have hbegins : first ++ names <+: first ++ (names ++ [last]) := by
        rw [← List.append_assoc]
        exact List.prefix_append _ _
      rw [walk_concat]
      cases hparent : d.holding? (first ++ names) with
      | none =>
          rw [ih hbefore (fun above habove => hfree above (habove.trans hbegins)) hparent]
          rfl
      | some h =>
          cases h with
          | file content => exact absurd hparent (hfree _ hbegins content)
          | directory =>
              rw [walk_of_directory hnames hparent]
              rw [← List.append_assoc] at hnone
              exact step_of_fault (enter_of_none hnone)

/-- A walk ends at a file. -/
theorem walk_of_file (hnames : ∀ n ∈ names, IsName n)
    (hfirst : d.holding? first = some .directory) {above : List String}
    (habove : above <+: first ++ names) {content : ByteArray}
    (hfile : d.holding? above = some (.file content)) :
    (names ++ [name]).foldlM d.step first = .error .notADirectory := by
  induction names using List.reverseRecOn generalizing name with
  | nil =>
      rw [List.append_nil] at habove
      rw [directory_above hfirst habove] at hfile
      cases hfile
  | append_singleton names last ih =>
      have hbefore := (List.forall_mem_append.mp hnames).1
      rw [← List.append_assoc, List.prefix_concat_iff] at habove
      rw [walk_concat]
      rcases habove with rfl | habove
      · have hparent := directory_of_append hfile
        rw [walk_of_directory hnames hparent]
        exact step_of_fault (enter_of_file hfile)
      · rw [ih hbefore habove]
        rfl

end

/-! ## Places of paths -/

section

variable {d : Disk} {p : Path} {names : List String} {name : String}

theorem target_concat (d : Disk) (hsteps : p.steps = names ++ [name]) :
    d.target p = d.base p ++ names ++ [name] := by
  rw [target, hsteps, List.append_assoc]

/-- The place of the parent is the one above. -/
theorem exists_parent_target (hp : p.Named) (hsteps : p.steps = names ++ [name]) :
    ∃ q, p.parent? = some q ∧ q.Named ∧ q.steps = names ∧
      ∀ d : Disk, d.base q = d.base p ∧ d.target q = d.base p ++ names := by
  obtain ⟨q, hparent, hq, habsolute, hnames⟩ := hp.exists_parent hsteps
  have hbase (d : Disk) : d.base q = d.base p := by rw [base, base, habsolute]
  exact ⟨q, hparent, hq, hnames, fun d => ⟨hbase d, by rw [target, hbase, hnames]⟩⟩

theorem isEmpty_of_steps (h : p.steps ≠ []) : p.isEmpty = false := by
  rw [Path.isEmpty, Bool.and_eq_false_iff]
  right
  cases hpieces : p.pieces with
  | nil => exact absurd (by rw [Path.steps, hpieces]; rfl) h
  | cons piece pieces => rfl

theorem start_of_named (hp : p.Named) (hempty : p.isEmpty = false) :
    d.start p = .ok (d.base p) := by
  have hnul : ¬ p.steps.any (·.toList.contains '\x00') = true := by
    rw [List.any_eq_true]
    rintro ⟨step, hstep, hcontains⟩
    exact (hp.names step hstep).no_nul (List.contains_iff_mem.mp hcontains)
  rw [start, if_neg hnul, if_neg (Nat.not_lt.mpr hp.size_le), hempty, if_neg Bool.false_ne_true]
  rfl

/-- A path leads where the walk under its steps leads. -/
theorem locate_of_named (hp : p.Named) (hempty : p.isEmpty = false) :
    d.locate p = p.steps.foldlM d.step (d.base p) := by
  rw [locate, start_of_named hp hempty]
  rfl

theorem locate_of_directory (hp : p.Named) (hsteps : p.steps = names ++ [name])
    (h : d.holding? (d.base p ++ names) = some .directory) :
    d.locate p = .ok (d.base p ++ names ++ [name]) := by
  have hempty : p.isEmpty = false := isEmpty_of_steps (by simp [hsteps])
  rw [locate_of_named hp hempty, hsteps]
  exact walk_of_directory (hsteps ▸ hp.names) h

theorem locate_of_present (hp : p.Named) (hempty : p.isEmpty = false) {here : Holding}
    (h : d.holding? (d.target p) = some here) : d.locate p = .ok (d.target p) := by
  rw [locate_of_named hp hempty]
  exact walk_of_present hp.names h

theorem isDirectory_of_locate {place : List String} (h : d.locate p = .ok place) :
    d.isDirectory p = true ↔ d.holding? place = some .directory := by
  rw [isDirectory, openNode_of_locate h, holding?]
  cases d.node? place with
  | none => simp
  | some node =>
      cases node with
      | directory entries => simp [Node.holding]
      | file content => cases p.trailingSlash <;> simp [Node.holding]

theorem isDirectory_of_fault {fault : OsFault} (h : d.locate p = .error fault) :
    d.isDirectory p = false := by
  rw [isDirectory, openNode, h]
  rfl

/-! ## Directories that are made -/

theorem makeDirectory_of_fault {fault : OsFault} (h : d.locate p = .error fault) :
    d.makeDirectory p = .error fault := by
  rw [makeDirectory, h]
  rfl

theorem makeDirectory_of_present {place : List String} (h : d.locate p = .ok place)
    {here : Holding} (hpresent : d.holding? place = some here) :
    d.makeDirectory p = .error .alreadyExists := by
  obtain ⟨node, hnode, -⟩ := Option.map_eq_some_iff.mp hpresent
  rw [makeDirectory, h]
  dsimp only [bind, Except.bind]
  rw [hnode]

theorem makeDirectory_of_none {place : List String} (h : d.locate p = .ok place)
    (hnone : d.holding? place = none) : d.makeDirectory p = .ok (d.put place (.directory [])) := by
  rw [makeDirectory, h]
  dsimp only [bind, Except.bind]
  rw [holding?_eq_none_iff.mp hnone]

theorem makeDirectories_of_ok {d' : Disk} {above : List Path} (hempty : p.isEmpty = false)
    (h : d.makeDirectory p = .ok d') : d.makeDirectories (p :: above) = (d', none) := by
  rw [makeDirectories_cons, hempty, if_neg Bool.false_ne_true, h]

theorem makeDirectories_of_notFound {d' d'' : Disk} {above : List Path}
    (hempty : p.isEmpty = false) (h : d.makeDirectory p = .error .notFound)
    (habove : d.makeDirectories above = (d', none)) (hmade : d'.makeDirectory p = .ok d'') :
    d.makeDirectories (p :: above) = (d'', none) := by
  rw [makeDirectories_cons, hempty, if_neg Bool.false_ne_true, h]
  dsimp only
  rw [habove]
  dsimp only
  rw [hmade]

/-- A fault is forgiven if there is a directory in spite of it. -/
theorem makeDirectories_of_fault {fault : OsFault} {above : List Path}
    (hempty : p.isEmpty = false) (h : d.makeDirectory p = .error fault)
    (hfault : fault ≠ .notFound) :
    d.makeDirectories (p :: above) = if d.isDirectory p then (d, none) else (d, some fault) := by
  rw [makeDirectories_cons, hempty, if_neg Bool.false_ne_true, h]
  cases fault with
  | notFound => exact absurd rfl hfault
  | _ => rfl

theorem not_concat_begins {place : List String} : ¬ place ++ [name] <+: place := by
  intro h
  have hlength := h.length_le
  rw [List.length_append, List.length_singleton] at hlength
  omega

/-- The disk with directories at a place and above it. -/
structure Opened (d d' : Disk) (place : List String) : Prop where
  home : d'.home = d.home
  holding : ∀ other, d'.holding? other =
    if other <+: place then some .directory else d.holding? other

theorem Opened.refl {place : List String} (h : d.holding? place = some .directory) :
    d.Opened d place where
  home := rfl
  holding other := by
    by_cases hother : other <+: place
    · rw [if_pos hother, directory_above h hother]
    · rw [if_neg hother]

theorem Opened.directory {d' : Disk} {place : List String} (h : d.Opened d' place) :
    d'.holding? place = some .directory := by
  rw [h.holding, if_pos List.prefix_rfl]

theorem Opened.base_eq {d' : Disk} {place : List String} (h : d.Opened d' place) (p : Path) :
    d'.base p = d.base p := by
  rw [base, base, h.home]

theorem Opened.holding_concat {d' : Disk} {parent : List String} (h : d.Opened d' parent) :
    d'.holding? (parent ++ [name]) = d.holding? (parent ++ [name]) := by
  rw [h.holding, if_neg not_concat_begins]

/-- A directory that is made in one that is there. -/
theorem Opened.put {d' : Disk} {parent : List String} (h : d.Opened d' parent)
    (hnone : d.holding? (parent ++ [name]) = none) :
    d.Opened (d'.put (parent ++ [name]) (.directory [])) (parent ++ [name]) := by
  have hnone' := h.holding_concat.trans hnone
  refine ⟨h.home, fun other => ?_⟩
  rw [holding?_put h.directory (by simp [hnone']) (fun _ _ => rfl), h.holding]
  by_cases hother : other = parent ++ [name]
  · rw [if_pos hother, hother, if_pos List.prefix_rfl, Node.holding]
  · simp only [List.prefix_concat_iff, hother, false_or, if_false]

theorem Opened.exists_makeDirectory {d' : Disk} (h : d.Opened d' (d.base p ++ names))
    (hp : p.Named) (hsteps : p.steps = names ++ [name])
    (hnone : d.holding? (d.base p ++ names ++ [name]) = none) :
    ∃ d'', d'.makeDirectory p = .ok d'' ∧ d.Opened d'' (d.base p ++ names ++ [name]) := by
  have hlocate := locate_of_directory hp hsteps (by rw [h.base_eq]; exact h.directory)
  rw [h.base_eq] at hlocate
  exact ⟨_, makeDirectory_of_none hlocate (h.holding_concat.trans hnone), h.put hnone⟩

theorem makeDirectories_of_directory (hp : p.Named)
    (h : d.holding? (d.target p) = some .directory) : d.makeDirectories p.ancestry = (d, none) := by
  rw [Path.ancestry]
  cases hempty : p.isEmpty with
  | true => rw [makeDirectories_cons, if_pos hempty]
  | false =>
      have hlocate := locate_of_present hp hempty h
      have hmade := makeDirectory_of_present hlocate h
      rw [makeDirectories_of_fault hempty hmade (by decide),
        if_pos ((isDirectory_of_locate hlocate).mpr h)]

theorem ancestry_of_parent {q : Path} (h : p.parent? = some q) : p.ancestry = p :: q.ancestry := by
  rw [Path.ancestry]
  split
  · next hnone =>
    rw [hnone] at h
    cases h
  · next q' hparent =>
    rw [hparent] at h
    rw [Option.some.inj h]

/-- Where no file is on the way, all directories that are missing are made. -/
theorem exists_makeDirectories (hp : p.Named) (hbase : d.holding? (d.base p) = some .directory)
    (hfree : ∀ above, above <+: d.target p → ∀ content, d.holding? above ≠ some (.file content)) :
    ∃ d', d.makeDirectories p.ancestry = (d', none) ∧ d.Opened d' (d.target p) := by
  induction hsteps : p.steps using List.reverseRecOn generalizing p with
  | nil =>
      have htarget : d.target p = d.base p := by rw [target, hsteps, List.append_nil]
      rw [← htarget] at hbase
      exact ⟨d, makeDirectories_of_directory hp hbase, .refl hbase⟩
  | append_singleton names name ih =>
      have htarget := d.target_concat hsteps
      rw [htarget] at hfree ⊢
      have hempty : p.isEmpty = false := isEmpty_of_steps (by simp [hsteps])
      obtain ⟨q, hparent, hq, hnames, hplace⟩ := exists_parent_target hp hsteps
      obtain ⟨hqbase, hqtarget⟩ := hplace d
      have hqfree := fun above (habove : above <+: d.base p ++ names) =>
        hfree above (habove.trans (List.prefix_append _ _))
      cases hholding : d.holding? (d.base p ++ names ++ [name]) with
      | some h =>
          cases h with
          | file content => exact absurd hholding (hfree _ List.prefix_rfl content)
          | directory =>
              refine ⟨d, makeDirectories_of_directory hp ?_, .refl hholding⟩
              rw [htarget, hholding]
      | none =>
          rw [ancestry_of_parent hparent]
          cases habove : d.holding? (d.base p ++ names) with
          | some h =>
              cases h with
              | file content => exact absurd habove (hqfree _ List.prefix_rfl content)
              | directory =>
                  obtain ⟨d', hmade, hopened⟩ :=
                    (Opened.refl habove).exists_makeDirectory hp hsteps hholding
                  exact ⟨d', makeDirectories_of_ok hempty hmade, hopened⟩
          | none =>
              -- The parent is made first, and then this is a directory in it.
              have hlocate : d.locate p = .error .notFound := by
                rw [locate_of_named hp hempty, hsteps]
                exact walk_of_missing (hnames ▸ hq.names) hbase hqfree habove
              obtain ⟨d', hmade, hopened⟩ := ih hq (hqbase.symm ▸ hbase)
                (hqtarget ▸ hqfree) hnames
              rw [hqtarget] at hopened
              obtain ⟨d'', hmade', hopened'⟩ := hopened.exists_makeDirectory hp hsteps hholding
              have hmissing := makeDirectory_of_fault hlocate
              exact ⟨d'', makeDirectories_of_notFound hempty hmissing hmade hmade', hopened'⟩

/-- A file on the way stops everything. -/
theorem exists_makeDirectories_fault (hp : p.Named)
    (hbase : d.holding? (d.base p) = some .directory) {above : List String}
    (habove : above <+: d.target p) {content : ByteArray}
    (hfile : d.holding? above = some (.file content)) :
    ∃ fault, d.makeDirectories p.ancestry = (d, some fault) := by
  rcases List.eq_nil_or_concat p.steps with hsteps | ⟨names, name, hsteps⟩
  · rw [target, hsteps, List.append_nil] at habove
    rw [directory_above hbase habove] at hfile
    cases hfile
  · rw [List.concat_eq_append] at hsteps
    have hempty : p.isEmpty = false := isEmpty_of_steps (by simp [hsteps])
    rw [Path.ancestry]
    rw [target, hsteps, ← List.append_assoc, List.prefix_concat_iff] at habove
    rcases habove with rfl | habove
    · rw [← d.target_concat hsteps] at hfile
      have hlocate := locate_of_present hp hempty hfile
      have hmade := makeDirectory_of_present hlocate hfile
      refine ⟨_, (makeDirectories_of_fault hempty hmade (by decide)).trans (if_neg ?_)⟩
      rw [isDirectory_of_locate hlocate, hfile]
      simp
    · have hlocate : d.locate p = .error .notADirectory := by
        rw [locate_of_named hp hempty, hsteps]
        exact walk_of_file (hp.names_above hsteps) hbase habove hfile
      have hmade := makeDirectory_of_fault hlocate
      refine ⟨_, (makeDirectories_of_fault hempty hmade (by decide)).trans (if_neg ?_)⟩
      rw [isDirectory_of_fault hlocate]
      exact Bool.false_ne_true

end

end LogShipper.Disk
