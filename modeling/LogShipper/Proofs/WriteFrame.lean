import LogShipper.Proofs.MadeDirectories
import Mathlib.Data.List.Infix

/-!
# What a write touches

A write makes the directories that are missing above a place, and then puts a file there. It
succeeds when no file is above the place and no directory is at it, and then the disk differs at
that place and at the empty places above it, and nowhere else. When it fails there may be new
directories, but no file has changed and nothing is gone. A path that ends with a slash asks for a
directory, so no file is ever put there.
-/

namespace LogShipper.Disk

/-- A path names a directory if one is at its place. A slash at the end names one too, as the
system reads it like a dot after it. -/
def NamesDirectory (d : Disk) (p : Path) : Prop :=
  p.trailingSlash = true ∨ d.holding? (d.target p) = some .directory

instance (d : Disk) : DecidablePred d.NamesDirectory :=
  fun _ => inferInstanceAs (Decidable (_ ∨ _))

/-- No file is above the place of a path. -/
def Unblocked (d : Disk) (p : Path) : Prop :=
  ∀ above, above <+: d.target p → above ≠ d.target p →
    ∀ content, d.holding? above ≠ some (.file content)

theorem namesDirectory_iff {d : Disk} {p : Path} (h : p.trailingSlash = false) :
    d.NamesDirectory p ↔ d.holding? (d.target p) = some .directory := by
  rw [NamesDirectory, h, or_iff_right Bool.false_ne_true]

theorem no_file_iff {here : Option Holding} :
    (∀ content, here ≠ some (.file content)) ↔ here = none ∨ here = some .directory := by
  rcases here with _ | _ | _ <;> simp

instance (d : Disk) : DecidablePred d.Unblocked := fun p =>
  decidable_of_iff
    (∀ above ∈ (d.target p).inits, above ≠ d.target p →
      d.holding? above = none ∨ d.holding? above = some .directory)
    (by simp only [Unblocked, List.mem_inits, no_file_iff])

/-! ## Files that are put into directories -/

section

variable {d : Disk} {p : Path} {names : List String} {name : String}

/-- With a slash at the end nothing is created. -/
theorem createFile_of_trailingSlash (hp : p.Named) (hsteps : p.steps = names ++ [name])
    (hparent : d.holding? (d.base p ++ names) = some .directory) (h : p.trailingSlash = true)
    (content : ByteArray) : d.createFile p content = .error .isADirectory := by
  have hwalk : p.steps.dropLast.foldlM d.step (d.base p) = .ok (d.base p ++ names) := by
    rw [hsteps, List.dropLast_concat]
    exact walk_of_present (hp.names_above hsteps) hparent
  rw [createFile, if_pos h, start_of_named hp (isEmpty_of_steps (by simp [hsteps]))]
  dsimp only [bind, Except.bind]
  rw [hwalk]
  dsimp only
  rw [enter_of_directory hparent]

theorem createFile_of_locate {place : List String} (h : p.trailingSlash = false)
    (hlocate : d.locate p = .ok place) (content : ByteArray) :
    d.createFile p content =
      if d.holding? place = some .directory then .error .isADirectory
      else .ok (d.put place (.file content)) := by
  rw [createFile, h, if_neg Bool.false_ne_true, hlocate]
  dsimp only [bind, Except.bind]
  cases hnode : d.node? place with
  | none => rw [if_neg (by simp [holding?_eq_none_iff.mpr hnode])]
  | some node =>
      cases node with
      | file old => rw [if_neg (by simp [holding?_eq_file_iff.mpr hnode])]
      | directory entries => rw [if_pos (holding?_eq_directory_iff.mpr ⟨entries, hnode⟩)]

theorem createFile_of_directory (hp : p.Named) (hsteps : p.steps = names ++ [name])
    (hparent : d.holding? (d.base p ++ names) = some .directory) (content : ByteArray) :
    d.createFile p content =
      if d.NamesDirectory p then .error .isADirectory
      else .ok (d.put (d.target p) (.file content)) := by
  cases hslash : p.trailingSlash with
  | true =>
      have hnames : d.NamesDirectory p := Or.inl hslash
      rw [createFile_of_trailingSlash hp hsteps hparent hslash, if_pos hnames]
  | false =>
      rw [createFile_of_locate hslash (locate_of_directory hp hsteps hparent),
        ← d.target_concat hsteps]
      simp only [namesDirectory_iff hslash]

theorem makeAbove_of_parent {q : Path} (d : Disk) (h : p.parent? = some q) :
    d.makeAbove p = d.makeDirectories q.ancestry := by
  rw [makeAbove_eq, h, Option.elim_some]

/-- A write into a directory that is there. -/
theorem write_of_directory (hp : p.Named) (hsteps : p.steps = names ++ [name])
    (hparent : d.holding? (d.base p ++ names) = some .directory) (content : ByteArray) :
    d.write p content =
      if d.NamesDirectory p then (d, some .isADirectory)
      else (d.put (d.target p) (.file content), none) := by
  obtain ⟨q, hq, hqnamed, -, hplace⟩ := exists_parent_target hp hsteps
  have habove : d.makeAbove p = (d, none) := by
    rw [makeAbove_of_parent d hq]
    exact makeDirectories_of_directory hqnamed ((hplace d).2 ▸ hparent)
  rw [write_eq, habove]
  dsimp only
  rw [createFile_of_directory hp hsteps hparent]
  by_cases h : d.NamesDirectory p
  · rw [if_pos h, if_pos h]
  · rw [if_neg h, if_neg h]

/-! ## All that a write can do -/

theorem unblocked_iff (hsteps : p.steps = names ++ [name]) :
    d.Unblocked p ↔ ∀ above, above <+: d.base p ++ names →
      ∀ content, d.holding? above ≠ some (.file content) := by
  rw [Unblocked, d.target_concat hsteps]
  constructor
  · intro h above habove
    refine h above (habove.trans (List.prefix_append _ _)) ?_
    rintro rfl
    exact not_concat_begins habove
  · intro h above habove hne
    exact h above ((List.prefix_concat_iff.mp habove).resolve_left hne)

/-- Where no file is on the way, a write is one into a directory that was made before. -/
theorem exists_write_eq (hp : p.Named) (hsteps : p.steps = names ++ [name])
    (hbase : d.holding? (d.base p) = some .directory) (h : d.Unblocked p) :
    ∃ d', d.Opened d' (d.base p ++ names) ∧
      ∀ content, d.write p content = d'.write p content := by
  obtain ⟨q, hq, hqnamed, -, hplace⟩ := exists_parent_target hp hsteps
  obtain ⟨hqbase, hqtarget⟩ := hplace d
  obtain ⟨d', hmade, hopened⟩ := exists_makeDirectories hqnamed (hqbase.symm ▸ hbase)
    (hqtarget.symm ▸ (unblocked_iff hsteps).mp h)
  rw [hqtarget] at hopened
  refine ⟨d', hopened, fun content => ?_⟩
  have hagain : d'.makeDirectories q.ancestry = (d', none) := by
    refine makeDirectories_of_directory hqnamed ?_
    rw [(hplace d').2, hopened.base_eq, hopened.directory]
  rw [write_eq, makeAbove_of_parent d hq, hmade, write_eq, makeAbove_of_parent d' hq, hagain]

/-- A file on the way stops a write. -/
theorem exists_write_fault (hp : p.Named) (hsteps : p.steps = names ++ [name])
    (hbase : d.holding? (d.base p) = some .directory) (h : ¬ d.Unblocked p) :
    ∃ fault, ∀ content, d.write p content = (d, some fault) := by
  rw [unblocked_iff hsteps] at h
  push Not at h
  obtain ⟨above, habove, old, hfile⟩ := h
  obtain ⟨q, hq, hqnamed, -, hplace⟩ := exists_parent_target hp hsteps
  obtain ⟨hqbase, hqtarget⟩ := hplace d
  obtain ⟨fault, hmade⟩ := exists_makeDirectories_fault hqnamed (hqbase.symm ▸ hbase)
    (hqtarget.symm ▸ habove) hfile
  refine ⟨fault, fun content => ?_⟩
  rw [write_eq, makeAbove_of_parent d hq, hmade]

/-- The disk with a file in a directory, in place of an old one. -/
theorem holding?_put_file (hsteps : p.steps = names ++ [name])
    (hparent : d.holding? (d.base p ++ names) = some .directory) (h : ¬ d.NamesDirectory p)
    (content : ByteArray) (other : List String) :
    (d.put (d.target p) (.file content)).holding? other =
      if other = d.target p then some (.file content) else d.holding? other := by
  have hfree : d.holding? (d.target p) ≠ some .directory := fun hdirectory => h (Or.inr hdirectory)
  rw [d.target_concat hsteps] at hfree ⊢
  exact holding?_put hparent hfree (fun _ _ => rfl) other

/-- Of two writes into a directory the second stays. -/
theorem write_put (hp : p.Named) (hsteps : p.steps = names ++ [name])
    (hparent : d.holding? (d.base p ++ names) = some .directory) (h : ¬ d.NamesDirectory p)
    (earlier content : ByteArray) :
    (d.put (d.target p) (.file earlier)).write p content = d.write p content := by
  have hholding := holding?_put_file hsteps hparent h earlier
  have hparent' : (d.put (d.target p) (.file earlier)).holding? (d.base p ++ names) =
      some .directory := by
    rw [hholding, d.target_concat hsteps, if_neg (by simp), hparent]
  have hnames : ¬ (d.put (d.target p) (.file earlier)).NamesDirectory p := by
    rintro (hslash | hdirectory)
    · exact h (Or.inl hslash)
    · rw [show (d.put (d.target p) (.file earlier)).target p = d.target p from rfl, hholding,
        if_pos rfl] at hdirectory
      cases hdirectory
  rw [write_of_directory hp hsteps hparent', if_neg hnames, write_of_directory hp hsteps hparent,
    if_neg h]
  exact congrArg (·, none) (put_put d (d.target p) (.file earlier) (.file content))

end

/-! ## What is elsewhere -/

/-- The disk with a file at a place, directories above it, and all else as it was. -/
structure Replaced (d d' : Disk) (place : List String) (content : ByteArray) : Prop where
  written : d'.holding? place = some (.file content)
  kept : ∀ other, other ≠ place → ∀ h, d.holding? other = some h → d'.holding? other = some h
  made : ∀ other, other ≠ place → d.holding? other = none →
    d'.holding? other = if other <+: place then some .directory else none

/-- All that was on the disk is there as it was, and what is new are directories above a place. -/
structure FilesKept (d d' : Disk) (place : List String) : Prop where
  kept : ∀ other h, d.holding? other = some h → d'.holding? other = some h
  made : ∀ other h, d.holding? other = none → d'.holding? other = some h →
    h = .directory ∧ other <+: place

/-- What a write at a path does, and that it does nothing else. -/
structure WriteFrame (d : Disk) (p : Path) (content : ByteArray) : Prop where
  succeeds_iff : p.trailingSlash = false →
    ((d.write p content).2 = none ↔ d.Unblocked p ∧ d.holding? (d.target p) ≠ some .directory)
  /-- The system reads a slash at the end like a dot after it, which names a directory. -/
  refused_of_trailingSlash : p.trailingSlash = true → (d.write p content).2 ≠ none
  replaced : (d.write p content).2 = none →
    d.Replaced (d.write p content).1 (d.target p) content
  filesKept : (d.write p content).2 ≠ none → d.FilesKept (d.write p content).1 (d.target p)
  home : (d.write p content).1.home = d.home
  /-- Whatever an earlier write at the path came to, it makes no difference. -/
  wins : ∀ earlier, (d.write p earlier).1.write p content = d.write p content
  again : ((d.write p content).1.write p content).1 = (d.write p content).1

section

variable {d : Disk} {p : Path} {content : ByteArray}

theorem FilesKept.refl (d : Disk) (place : List String) : d.FilesKept d place where
  kept _ _ h := h
  made other h hnone hsome := by
    rw [hnone] at hsome
    cases hsome

theorem Opened.target_eq {d' : Disk} {place : List String} (h : d.Opened d' place) :
    d'.target p = d.target p := by
  rw [target, target, h.base_eq]

/-- To open the parent of a place makes no directory at it. -/
theorem Opened.namesDirectory_iff {d' : Disk} {names : List String} {name : String}
    (hsteps : p.steps = names ++ [name]) (h : d.Opened d' (d.base p ++ names)) :
    d'.NamesDirectory p ↔ d.NamesDirectory p := by
  rw [NamesDirectory, NamesDirectory, h.target_eq, d.target_concat hsteps, h.holding_concat]

theorem Opened.filesKept {d' : Disk} {parent place : List String} (h : d.Opened d' parent)
    (hparent : parent <+: place)
    (hfree : ∀ above, above <+: parent → ∀ content, d.holding? above ≠ some (.file content)) :
    d.FilesKept d' place where
  kept other h' hold := by
    rw [h.holding]
    by_cases hother : other <+: parent
    · cases h' with
      | file content => exact absurd hold (hfree other hother content)
      | directory => rw [if_pos hother]
    · rw [if_neg hother, hold]
  made other h' hnone hsome := by
    rw [h.holding] at hsome
    by_cases hother : other <+: parent
    · rw [if_pos hother] at hsome
      exact ⟨(Option.some.inj hsome).symm, hother.trans hparent⟩
    · rw [if_neg hother, hnone] at hsome
      cases hsome

/-- A write that is refused whatever its content is. -/
theorem writeFrame_of_refused {d' : Disk} {fault : OsFault}
    (hrefused : ¬ (d.Unblocked p ∧ ¬ d.NamesDirectory p))
    (hwrite : ∀ content, d.write p content = (d', some fault))
    (hagain : ∀ content, d'.write p content = (d', some fault)) (hhome : d'.home = d.home)
    (hkept : d.FilesKept d' (d.target p)) : d.WriteFrame p content where
  succeeds_iff hslash := by
    rw [hwrite, Ne, ← namesDirectory_iff hslash]
    exact iff_of_false (Option.some_ne_none fault) hrefused
  refused_of_trailingSlash _ := by
    rw [hwrite]
    exact Option.some_ne_none fault
  replaced h := by
    rw [hwrite] at h
    cases h
  filesKept _ := by
    rw [hwrite]
    exact hkept
  home := by rw [hwrite, hhome]
  wins earlier := by rw [hwrite, hwrite, hagain]
  again := by rw [hwrite, hagain]

/-- A write whose place is free, after the directories above it were made. -/
theorem writeFrame_of_put {d' : Disk} {names : List String} {name : String}
    (hp : p.Named) (hsteps : p.steps = names ++ [name]) (hfree : d.Unblocked p)
    (hnames : ¬ d.NamesDirectory p) (hopened : d.Opened d' (d.base p ++ names))
    (hwrite : ∀ content, d.write p content = d'.write p content) : d.WriteFrame p content := by
  have htarget := d.target_concat hsteps
  have hnames' := mt (hopened.namesDirectory_iff hsteps).mp hnames
  have hparent : d'.holding? (d'.base p ++ names) = some .directory := by
    rw [hopened.base_eq, hopened.directory]
  have hput (content : ByteArray) :
      d.write p content = (d'.put (d'.target p) (.file content), none) := by
    rw [hwrite, write_of_directory hp hsteps hparent, if_neg hnames']
  have hholding := holding?_put_file hsteps hparent hnames' content
  have hkept := hopened.filesKept (List.prefix_append _ [name]) ((unblocked_iff hsteps).mp hfree)
  have hwins (earlier : ByteArray) : (d.write p earlier).1.write p content = d.write p content := by
    rw [hput earlier, hwrite]
    exact write_put hp hsteps hparent hnames' earlier content
  refine ⟨fun hslash => ?_, fun hslash => absurd (Or.inl hslash) hnames, fun _ => ⟨?_, ?_, ?_⟩,
    ?_, ?_, hwins, congrArg Prod.fst (hwins content)⟩
  · rw [hput, Ne, ← namesDirectory_iff hslash]
    exact iff_of_true rfl ⟨hfree, hnames⟩
  · rw [hput, hholding, hopened.target_eq, if_pos rfl]
  · intro other hother h hold
    rw [hput, hholding, hopened.target_eq, if_neg hother]
    exact hkept.kept other h hold
  · intro other hother hnone
    rw [hput, hholding, hopened.target_eq, if_neg hother, hopened.holding, hnone]
    rw [htarget] at hother ⊢
    simp only [List.prefix_concat_iff, hother, false_or]
  · intro hrefused
    rw [hput] at hrefused
    exact absurd rfl hrefused
  · rw [hput]
    exact hopened.home

/-- **A write touches its place and nothing else.** At a path whose steps are names, on any disk on
which the path starts at a directory, a write succeeds exactly when no file is above the place of
the path and no directory is at it, unless the path ends with a slash, where no write succeeds. The
file is then there, the directories above it are there, and all else is as it was. When the write
fails no file has changed and nothing is gone. Of two writes the second decides, and to repeat one
changes nothing. -/
theorem writeFrame_of_named (hp : p.Named) (hsteps : p.steps ≠ [])
    (hbase : d.holding? (d.base p) = some .directory) (content : ByteArray) :
    d.WriteFrame p content := by
  obtain ⟨names, name, hlast⟩ := (List.eq_nil_or_concat p.steps).resolve_left hsteps
  rw [List.concat_eq_append] at hlast
  by_cases hfree : d.Unblocked p
  · obtain ⟨d', hopened, hwrite⟩ := exists_write_eq hp hlast hbase hfree
    by_cases hnames : d.NamesDirectory p
    · have hrefused (content : ByteArray) : d'.write p content = (d', some .isADirectory) := by
        rw [write_of_directory hp hlast (by rw [hopened.base_eq, hopened.directory]),
          if_pos ((hopened.namesDirectory_iff hlast).mpr hnames)]
      have hwrite' (content : ByteArray) : d.write p content = (d', some .isADirectory) := by
        rw [hwrite, hrefused]
      refine writeFrame_of_refused (fun h => h.2 hnames) hwrite' hrefused hopened.home ?_
      rw [d.target_concat hlast]
      exact hopened.filesKept (List.prefix_append _ _) ((unblocked_iff hlast).mp hfree)
    · exact writeFrame_of_put hp hlast hfree hnames hopened hwrite
  · obtain ⟨fault, hwrite⟩ := exists_write_fault hp hlast hbase hfree
    exact writeFrame_of_refused (fun h => hfree h.1) hwrite hwrite rfl (.refl d _)

end

/-- A disk with a file in its working directory, and nothing else there. -/
def oneNote : Disk :=
  { root := .directory [("srv", .directory [("notes", .file "old".toUTF8)])], home := ["srv"] }

/-- Two directories are made for a file, and a file is in the way of another. -/
theorem writeFrame_oneNote :
    (Path.ofString "etc/nested/out.conf").Named ∧ (Path.ofString "notes/out.conf").Named ∧
      ∀ content,
        (oneNote.write (.ofString "etc/nested/out.conf") content).2 = none ∧
        oneNote.WriteFrame (.ofString "etc/nested/out.conf") content ∧
        (oneNote.write (.ofString "notes/out.conf") content).2 ≠ none ∧
        oneNote.WriteFrame (.ofString "notes/out.conf") content := by
  have hfree : (Path.ofString "etc/nested/out.conf").Named := ⟨by decide, by decide⟩
  have hblocked : (Path.ofString "notes/out.conf").Named := ⟨by decide, by decide⟩
  refine ⟨hfree, hblocked, fun content => ?_⟩
  have hframe := writeFrame_of_named (d := oneNote) hfree (by decide) (by decide) content
  have hframe' := writeFrame_of_named (d := oneNote) hblocked (by decide) (by decide) content
  refine ⟨(hframe.succeeds_iff (by decide)).mpr (by decide), hframe, ?_, hframe'⟩
  rw [Ne, hframe'.succeeds_iff (by decide)]
  decide

end LogShipper.Disk
