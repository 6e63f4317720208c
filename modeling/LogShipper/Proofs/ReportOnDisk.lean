import LogShipper.Proofs.DiskWrites
import LogShipper.Proofs.StoredRuns

/-!
# Reports and the disk

A report is put together from the texts that were to be written, without a look at the files. Still
it is true of the disk when the run is over, since a later write replaces no file but its own. The
exception are two documents in one file: both are reported, and only the later one is there.
-/

namespace LogShipper

/-- What is said of a document is true of a disk: a file is at its path, of that size and with that
digest. -/
def WrittenDocument.TrueOf (w : WrittenDocument) (d : Disk) : Prop :=
  ∃ content, d.read (.ofString w.path) = .ok content ∧ content.size = w.bytes ∧
    Digest.sha256Hex content = w.sha256

/-- Two texts name one file. -/
def Disk.SameFile (d : Disk) (p q : String) : Prop :=
  d.SamePlace (.ofString p) (.ofString q)

/-! ## Documents that are written one after the other -/

section

variable {d d' : Disk} {docs : List (String × String)}

/-- Documents are all written when the first is and then the others are. -/
theorem writeAll_cons_eq_none {doc : String × String}
    (h : Store.onDisk.writeAll d (doc :: docs) = (d', none)) :
    ∃ next, d.write (.ofString doc.1) doc.2.toUTF8 = (next, none) ∧
      Store.onDisk.writeAll next docs = (d', none) := by
  obtain ⟨cause, -, hfault⟩ | hnext := Store.onDisk.writeAll_cons_cases h
  · cases hfault
  · exact hnext

theorem writeAll_pair {next : Disk} {doc doc' : String × String}
    (h : d.write (.ofString doc.1) doc.2.toUTF8 = (next, none))
    (h' : next.write (.ofString doc'.1) doc'.2.toUTF8 = (d', none)) :
    Store.onDisk.writeAll d [doc, doc'] = (d', none) := by
  unfold Store.writeAll Store.writeAll Store.writeAll Store.onDisk
  dsimp only
  rw [h]
  dsimp only
  rw [h']

/-- A path still leads where it led when documents were written. -/
theorem locate_writeAll (h : Store.onDisk.writeAll d docs = (d', none)) {p : Path}
    {place : List String} (hplace : d.locate p = .ok place) : d'.locate p = .ok place := by
  induction docs generalizing d with
  | nil =>
      obtain rfl := (Prod.mk.inj h).1
      exact hplace
  | cons doc docs ih =>
      obtain ⟨next, hwrite, hrest⟩ := writeAll_cons_eq_none h
      obtain ⟨_, hlater, -⟩ := Disk.of_write hwrite
      exact ih hrest (hlater.locate hplace)

/-- A file is as it was unless a document was written to it. -/
theorem read_writeAll (h : Store.onDisk.writeAll d docs = (d', none)) {p : Path}
    {content : ByteArray} (hcontent : d.read p = .ok content)
    (hdocs : ∀ doc ∈ docs, ¬ d'.SamePlace p (.ofString doc.1)) : d'.read p = .ok content := by
  induction docs generalizing d with
  | nil =>
      obtain rfl := (Prod.mk.inj h).1
      exact hcontent
  | cons doc docs ih =>
      obtain ⟨next, hwrite, hrest⟩ := writeAll_cons_eq_none h
      obtain ⟨target, hlater, htarget, -⟩ := Disk.of_write hwrite
      refine ih hrest (hlater.read hcontent ?_) fun other hother =>
        hdocs other (List.mem_cons_of_mem _ hother)
      -- The path and the document would still lead to one place in the end.
      rintro place hplace ⟨⟩
      exact hdocs doc List.mem_cons_self
        ⟨target, locate_writeAll hrest hplace, locate_writeAll hrest htarget⟩

/-- A document is there when all are written, unless a later one was written to the same file. -/
theorem read_of_writeAll (h : Store.onDisk.writeAll d docs = (d', none))
    {before after : List (String × String)} {doc : String × String}
    (hdocs : docs = before ++ doc :: after)
    (hafter : ∀ other ∈ after, ¬ d'.SameFile doc.1 other.1) :
    d'.read (.ofString doc.1) = .ok doc.2.toUTF8 := by
  subst hdocs
  induction before generalizing d with
  | nil =>
      obtain ⟨next, hwrite, hrest⟩ := writeAll_cons_eq_none h
      obtain ⟨_, -, -, hread⟩ := Disk.of_write hwrite
      exact read_writeAll hrest hread hafter
  | cons first before ih =>
      obtain ⟨next, -, hrest⟩ := writeAll_cons_eq_none h
      exact ih hrest

/-- No document is written to a path that ends with a slash. -/
theorem trailingSlash_of_writeAll (h : Store.onDisk.writeAll d docs = (d', none))
    {doc : String × String} (hdoc : doc ∈ docs) : (Path.ofString doc.1).trailingSlash = false := by
  induction docs generalizing d with
  | nil => cases hdoc
  | cons first docs ih =>
      obtain ⟨next, hwrite, hrest⟩ := writeAll_cons_eq_none h
      rcases List.mem_cons.mp hdoc with rfl | hmem
      · obtain ⟨_, -, -, hread⟩ := Disk.of_write hwrite
        exact (Disk.read_eq_ok_iff.mp hread).1
      · exact ih hrest hmem

end

/-! ## Reports -/

/-- What a report of documents on a disk amounts to. -/
structure ReportedOn (report : Report) (d : Disk) : Prop where
  /-- What is said of a document is true unless a later document is in the same file. -/
  standing : ∀ before w after, report.written = before ++ w :: after →
    (∀ w' ∈ after, ¬ d.SameFile w.path w'.path) → w.TrueOf d
  /-- The last document is in its file in any case. For one in the same file the report is true only
  as far as it says the same of both. -/
  replaced : ∀ before w between w', report.written = before ++ w :: (between ++ [w']) →
    d.SameFile w.path w'.path → (w.TrueOf d ↔ w.bytes = w'.bytes ∧ w.sha256 = w'.sha256)

theorem trueOf_ofText {path text : String} {d : Disk}
    (h : d.read (.ofString path) = .ok text.toUTF8) : (WrittenDocument.ofText path text).TrueOf d :=
  ⟨text.toUTF8, h, rfl, rfl⟩

theorem standing_writeAll {d d' : Disk} {docs : List (String × String)}
    (h : Store.onDisk.writeAll d docs = (d', none)) {before after : List WrittenDocument}
    {w : WrittenDocument} (hw : docs.map (fun doc => .ofText doc.1 doc.2) = before ++ w :: after)
    (hafter : ∀ w' ∈ after, ¬ d'.SameFile w.path w'.path) : w.TrueOf d' := by
  obtain ⟨before, rest, rfl, rfl, hrest⟩ := List.map_eq_append_iff.mp hw
  obtain ⟨doc, after, rfl, rfl, rfl⟩ := List.map_eq_cons_iff.mp hrest
  refine trueOf_ofText (read_of_writeAll h rfl ?_)
  intro other hother
  exact hafter (.ofText other.1 other.2) (List.mem_map_of_mem hother)

/-- Files at one place have one content. -/
theorem read_congr_samePlace {d : Disk} {p q : Path} (hsame : d.SamePlace p q)
    (hp : p.trailingSlash = false) {content : ByteArray} (hq : d.read q = .ok content) :
    d.read p = .ok content := by
  obtain ⟨place, hplace, hplace'⟩ := hsame
  obtain ⟨-, place', hlocate, hnode⟩ := Disk.read_eq_ok_iff.mp hq
  rw [hplace'] at hlocate
  obtain rfl := Except.ok.inj hlocate
  exact Disk.read_eq_ok_iff.mpr ⟨hp, place, hplace, hnode⟩

theorem replaced_writeAll {d d' : Disk} {docs : List (String × String)}
    (h : Store.onDisk.writeAll d docs = (d', none)) {before between : List WrittenDocument}
    {w w' : WrittenDocument}
    (hw : docs.map (fun doc => .ofText doc.1 doc.2) = before ++ w :: (between ++ [w']))
    (hsame : d'.SameFile w.path w'.path) :
    w.TrueOf d' ↔ w.bytes = w'.bytes ∧ w.sha256 = w'.sha256 := by
  have hlast : w'.TrueOf d' := by
    have hw' : docs.map (fun doc => .ofText doc.1 doc.2) =
        (before ++ w :: between) ++ w' :: [] := by
      rw [hw, List.append_assoc, List.cons_append]
    exact standing_writeAll h hw' nofun
  have hslash : (Path.ofString w.path).trailingSlash = false := by
    have hmem : w ∈ docs.map fun doc => .ofText doc.1 doc.2 := by
      rw [hw]
      exact List.mem_append_right _ List.mem_cons_self
    obtain ⟨doc, hdoc, rfl⟩ := List.mem_map.mp hmem
    exact trailingSlash_of_writeAll h hdoc
  obtain ⟨content, hread, hsize, hdigest⟩ := hlast
  have hfirst := read_congr_samePlace hsame hslash hread
  rw [← hsize, ← hdigest]
  constructor
  · rintro ⟨found, hfound, hfoundSize, hfoundDigest⟩
    rw [hfirst] at hfound
    obtain rfl := Except.ok.inj hfound
    exact ⟨hfoundSize.symm, hfoundDigest.symm⟩
  · rintro ⟨hbytes, hsha⟩
    exact ⟨content, hfirst, hbytes.symm, hsha.symm⟩

/-! ## Runs -/

/-- A run that succeeds on a disk has written all its documents. -/
theorem writeAll_of_generate {s : Settings} {targets : Targets} {st st' : Session}
    {report : Report}
    (h : runFrom ((Session.host .disk).generate s targets) st = (.ok report, st')) :
    ∃ c, s.compile = .ok c ∧
      report.written = (c.placed targets).map (fun doc => .ofText doc.1 doc.2) ∧
      Store.onDisk.writeAll st.disk (c.placed targets) = (st'.disk, none) := by
  have hcourse := Session.follows_onDisk.course_generate s targets st
  rw [h] at hcourse
  obtain ⟨c, hc, hreport, hwrites⟩ := hcourse.of_ok
  exact ⟨c, hc, congrArg Report.written hreport, hwrites⟩

/-- A run whose documents can be written comes to a report. -/
theorem generate_eq_ok_of_writeAll {s : Settings} {targets : Targets} {st : Session} {d' : Disk}
    (hvalid : s.violations = []) (hplugin : targets.plugin? = none)
    (hwrites : Store.onDisk.writeAll st.disk (s.documents.placed targets) = (d', none)) :
    ∃ st', runFrom ((Session.host .disk).generate s targets) st =
        (.ok (s.reportOf s.documents st.time (s.documents.placed targets)), st') ∧
      st'.disk = d' := by
  have hrun := Session.follows_onDisk.acts_generate_store s targets st
  have hstore : Store.onDisk.generate s targets st.files = _ :=
    Store.onDisk.generate_of_writeAll hvalid hplugin hwrites
  rw [hstore] at hrun
  obtain ⟨houtcome, hfiles⟩ := Prod.mk.inj hrun
  exact ⟨_, Prod.ext houtcome rfl, congrArg Prod.fst hfiles⟩

/-- Lines are joined from a line on that begins with an x. -/
def joinedSource : Source :=
  .ofList [("MULTILINE_START_STATE_RULE", "^x")]

/-- The snapshot of that source. -/
def joinedLines : Settings :=
  .ofSource joinedSource

theorem exists_placed_joinedLines (targets : Targets) :
    ∃ text, text.utf8ByteSize ≠ joinedLines.documents.main.utf8ByteSize ∧
      joinedLines.documents.placed targets =
        [(targets.main, joinedLines.documents.main), (targets.joining, text)] := by
  have hsize : ∀ text, joinedLines.documents.joining? = some text →
      text.utf8ByteSize ≠ joinedLines.documents.main.utf8ByteSize := by
    decide +kernel
  have hsome : joinedLines.documents.joining?.isSome = true := by decide
  obtain ⟨text, htext⟩ := Option.isSome_iff_exists.mp hsome
  refine ⟨text, hsize text htext, ?_⟩
  rw [Compiled.placed, htext]
  rfl

/-- The two documents in two files of the working directory. -/
def twoFiles : Targets :=
  { main := "out.conf", joining := "joining.conf", plugin? := none }

/-- The two documents in one file of the working directory. -/
def oneFile : Targets :=
  { main := "out.conf", joining := "out.conf", plugin? := none }

theorem exists_writeAll_twoFiles (text text' : String) :
    ∃ d', Store.onDisk.writeAll .fresh [(twoFiles.main, text), (twoFiles.joining, text')] =
      (d', none) := by
  have hparent : (Path.ofString "out.conf").parent? = some ⟨false, []⟩ := by decide
  have hparent' : (Path.ofString "joining.conf").parent? = some ⟨false, []⟩ := by decide
  obtain ⟨d, d', hcreate, hcreate'⟩ : ∃ d d',
      Disk.fresh.createFile (.ofString "out.conf") text.toUTF8 = .ok d ∧
      d.createFile (.ofString "joining.conf") text'.toUTF8 = .ok d' :=
    ⟨_, _, rfl, rfl⟩
  exact ⟨d', writeAll_pair (Disk.write_of_isEmpty hparent rfl hcreate)
    (Disk.write_of_isEmpty hparent' rfl hcreate')⟩

theorem exists_writeAll_oneFile (text text' : String) :
    ∃ d', Store.onDisk.writeAll .fresh [(oneFile.main, text), (oneFile.joining, text')] =
        (d', none) ∧
      d'.SameFile oneFile.main oneFile.joining := by
  have hparent : (Path.ofString "out.conf").parent? = some ⟨false, []⟩ := by decide
  obtain ⟨d, d', hcreate, hcreate', hlocate⟩ : ∃ d d',
      Disk.fresh.createFile (.ofString "out.conf") text.toUTF8 = .ok d ∧
      d.createFile (.ofString "out.conf") text'.toUTF8 = .ok d' ∧
      d'.locate (.ofString "out.conf") = .ok ["tmp", "", "out.conf"] :=
    ⟨_, _, rfl, rfl, rfl⟩
  exact ⟨d', writeAll_pair (Disk.write_of_isEmpty hparent rfl hcreate)
    (Disk.write_of_isEmpty hparent rfl hcreate'), _, hlocate, hlocate⟩

/-- **A report is true of the disk, but for documents that were replaced.** When a run succeeds on
a disk, whatever its settings, its paths, its plugin and what was on the disk before, every
document of the report is in its file as it is reported, unless a later document of the report was
written to that file. -/
theorem reportedOn_disk {s : Settings} {targets : Targets} {st st' : Session} {report : Report}
    (h : runFrom ((Session.host .disk).generate s targets) st = (.ok report, st')) :
    ReportedOn report st'.disk := by
  obtain ⟨c, -, hwritten, hall⟩ := writeAll_of_generate h
  exact
    { standing := fun before w after hw hafter =>
        standing_writeAll hall (hwritten ▸ hw) hafter
      replaced := fun before w between w' hw hsame =>
        replaced_writeAll hall (hwritten ▸ hw) hsame }

theorem reportedOn_disk_twoFiles :
    ∃ report st', runFrom ((Session.host .disk).generate joinedLines twoFiles) .fresh =
        (.ok report, st') ∧
      report.written.length = 2 ∧ ReportedOn report st'.disk := by
  obtain ⟨text, -, hplaced⟩ := exists_placed_joinedLines twoFiles
  obtain ⟨d', hwrites⟩ := exists_writeAll_twoFiles joinedLines.documents.main text
  rw [← hplaced] at hwrites
  have hvalid : joinedLines.violations = [] := by decide
  obtain ⟨st', hrun, -⟩ := @generate_eq_ok_of_writeAll joinedLines twoFiles .fresh
    d' hvalid rfl hwrites
  refine ⟨_, st', hrun, ?_, reportedOn_disk hrun⟩
  rw [Settings.reportOf, List.length_map]
  exact congrArg List.length hplaced

/-- Where both documents go to one file, what is reported of the first is not true of it. -/
theorem not_trueOf_oneFile :
    ∃ report st' w, runFrom ((Session.host .disk).generate joinedLines oneFile) .fresh =
        (.ok report, st') ∧
      w ∈ report.written ∧ ¬ w.TrueOf st'.disk := by
  obtain ⟨text, hsize, hplaced⟩ := exists_placed_joinedLines oneFile
  obtain ⟨d', hwrites, hsame⟩ := exists_writeAll_oneFile joinedLines.documents.main text
  rw [← hplaced] at hwrites
  have hwritten : (joinedLines.documents.placed oneFile).map
      (fun doc => WrittenDocument.ofText doc.1 doc.2) =
    [] ++ .ofText oneFile.main joinedLines.documents.main ::
      ([] ++ [.ofText oneFile.joining text]) := by
    rw [hplaced]
    rfl
  have hreplaced := replaced_writeAll hwrites hwritten hsame
  have hvalid : joinedLines.violations = [] := by decide
  obtain ⟨st', hrun, rfl⟩ := @generate_eq_ok_of_writeAll joinedLines oneFile .fresh
    d' hvalid rfl hwrites
  refine ⟨_, st', _, hrun, ?_, fun htrue => hsize (hreplaced.mp htrue).1.symm⟩
  show _ ∈ (joinedLines.documents.placed oneFile).map fun doc => WrittenDocument.ofText doc.1 doc.2
  rw [hwritten]
  exact List.mem_cons_self

end LogShipper
