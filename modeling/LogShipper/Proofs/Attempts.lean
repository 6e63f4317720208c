import LogShipper.Proofs.StoredRuns
import Mathlib.Data.List.Forall2

/-!
# What a run writes

A run is written for any host. Here it is put on one that notes every write it is asked for, whether
it is carried out or refused, so that the writes and their order can be talked about. Such a log is
a store like others. The list of documents is written up to the first that is refused, and what is
checked before that list is written asks for nothing.
-/

namespace LogShipper

/-- A host with the plugins of a disk that notes what it is asked to write, and refuses some
paths. -/
def Host.recorder (disk : Disk) (refusal? : String → Option OsFault) (time : Calendar.Instant) :
    Host (StateM WriteLog) where
  probe path := pure ((disk.openNode (.ofString path)).map fun _ => ())
  write path text := fun asked => pure
    (match refusal? path with
      | none => .ok ()
      | some cause => .error cause, asked ++ [(path, text)])
  now := pure time
  note _ := pure ()
  countValidation := pure ()

/-! ## Documents in their order -/

/-- The writes that a list of documents leads to: all up to the first that is refused. -/
def attempts (refusal? : String → Option OsFault) : List (String × String) → WriteLog
  | [] => []
  | d :: ds => d :: if (refusal? d.1).isNone then attempts refusal? ds else []

/-- The first refusal on the way through a list of documents. -/
def firstRefusal? (refusal? : String → Option OsFault) (docs : List (String × String)) :
    Option WriteFault :=
  docs.findSome? fun d => (refusal? d.1).map fun cause => { path := d.1, cause }

section

variable {refusal? : String → Option OsFault} {d : String × String} {cause : OsFault}

theorem attempts_cons_of_accepted (h : refusal? d.1 = none) (ds : List (String × String)) :
    attempts refusal? (d :: ds) = d :: attempts refusal? ds := by
  rw [attempts, h]
  rfl

theorem attempts_cons_of_refused (h : refusal? d.1 = some cause) (ds : List (String × String)) :
    attempts refusal? (d :: ds) = [d] := by
  rw [attempts, h]
  rfl

/-- The last document is asked for in any case. -/
theorem attempts_singleton (refusal? : String → Option OsFault) (d : String × String) :
    attempts refusal? [d] = [d] := by
  rw [attempts, attempts, ite_self]

theorem firstRefusal?_cons_of_accepted (h : refusal? d.1 = none) (ds : List (String × String)) :
    firstRefusal? refusal? (d :: ds) = firstRefusal? refusal? ds := by
  rw [firstRefusal?, List.findSome?_cons, h]
  rfl

theorem firstRefusal?_cons_of_refused (h : refusal? d.1 = some cause)
    (ds : List (String × String)) :
    firstRefusal? refusal? (d :: ds) = some { path := d.1, cause } := by
  rw [firstRefusal?, List.findSome?_cons, h]
  rfl

/-- A write that is asked for and refused is the first refusal. -/
theorem firstRefusal?_of_mem_attempts {docs : List (String × String)} {w : String × String}
    (hw : w ∈ attempts refusal? docs) (hcause : refusal? w.1 = some cause) :
    firstRefusal? refusal? docs = some { path := w.1, cause } := by
  induction docs with
  | nil => exact absurd hw List.not_mem_nil
  | cons d ds ih =>
      cases hd : refusal? d.1 with
      | none =>
          rw [attempts_cons_of_accepted hd] at hw
          rw [firstRefusal?_cons_of_accepted hd]
          rcases List.mem_cons.mp hw with rfl | hmem
          · rw [hd] at hcause
            exact absurd hcause (Option.some_ne_none cause).symm
          · exact ih hmem
      | some _ =>
          -- Nothing is asked for behind a refusal, so this is the write in question.
          rw [attempts_cons_of_refused hd] at hw
          obtain rfl := List.mem_singleton.mp hw
          exact firstRefusal?_cons_of_refused hcause ds

/-- There is no refusal exactly when every write that is asked for is accepted. -/
theorem firstRefusal?_eq_none_iff {docs : List (String × String)} :
    firstRefusal? refusal? docs = none ↔ ∀ w ∈ attempts refusal? docs, refusal? w.1 = none := by
  constructor
  · intro h w hw
    cases hcause : refusal? w.1 with
    | none => rfl
    | some cause =>
        rw [firstRefusal?_of_mem_attempts hw hcause] at h
        exact absurd h (Option.some_ne_none _)
  · intro h
    induction docs with
    | nil => rfl
    | cons d ds ih =>
        cases hd : refusal? d.1 with
        | none =>
            rw [attempts_cons_of_accepted hd, List.forall_mem_cons] at h
            rw [firstRefusal?_cons_of_accepted hd]
            exact ih h.2
        | some cause =>
            rw [attempts_cons_of_refused hd] at h
            have hnone := h d List.mem_cons_self
            rw [hd] at hnone
            exact absurd hnone (Option.some_ne_none cause)

/-- Without a refusal every document is asked for. -/
theorem attempts_of_firstRefusal?_eq_none {docs : List (String × String)}
    (h : firstRefusal? refusal? docs = none) : attempts refusal? docs = docs := by
  induction docs with
  | nil => rfl
  | cons d ds ih =>
      cases hd : refusal? d.1 with
      | none =>
          rw [firstRefusal?_cons_of_accepted hd] at h
          rw [attempts_cons_of_accepted hd, ih h]
      | some cause =>
          rw [firstRefusal?_cons_of_refused hd] at h
          exact absurd h (Option.some_ne_none _)

end

/-! ## Runs -/

/-- The plugin of the targets can be opened on a disk, or none is asked for. -/
def Targets.PluginReady (targets : Targets) (disk : Disk) : Prop :=
  ∀ path, targets.plugin? = some path → ∃ node, disk.openNode (.ofString path) = .ok node

/-- Nothing is kept but what was asked for. -/
def Store.recording (disk : Disk) (refusal? : String → Option OsFault) : Store WriteLog where
  opens _ path := (disk.openNode (.ofString path)).map fun _ => ()
  write asked path text := (asked ++ [(path, text)], refusal? path)

theorem follows_recorder (disk : Disk) (refusal? : String → Option OsFault)
    (time : Calendar.Instant) :
    (Host.recorder disk refusal? time).Follows (Store.recording disk refusal?).host
      fun asked => (asked, time) where
  probe _ _ := rfl
  write _ _ _ := rfl
  now _ := rfl
  note _ _ := rfl
  countValidation _ := rfl

/-- Documents are asked for in their order up to the first refusal, which is the fault then. -/
theorem writeAll_recording (disk : Disk) (refusal? : String → Option OsFault)
    (docs : List (String × String)) (asked : WriteLog) :
    (Store.recording disk refusal?).writeAll asked docs =
      (asked ++ attempts refusal? docs, firstRefusal? refusal? docs) := by
  induction docs generalizing asked with
  | nil => rw [Store.writeAll, attempts, List.append_nil, firstRefusal?, List.findSome?_nil]
  | cons d ds ih =>
      have hwrite : (Store.recording disk refusal?).write asked d.1 d.2 =
          (asked ++ [d], refusal? d.1) := rfl
      rw [Store.writeAll, hwrite]
      cases hd : refusal? d.1 with
      | some cause => rw [attempts_cons_of_refused hd, firstRefusal?_cons_of_refused hd]
      | none =>
          dsimp only
          rw [attempts_cons_of_accepted hd, firstRefusal?_cons_of_accepted hd, ih,
            List.append_assoc, List.singleton_append]

theorem pluginReady_of_opens {disk : Disk} {refusal? : String → Option OsFault} {asked : WriteLog}
    {targets : Targets} (h : (Store.recording disk refusal?).Opens asked targets) :
    targets.PluginReady disk := by
  intro path hplugin
  have hopens : (disk.openNode (.ofString path)).map (fun _ => ()) = .ok () := h path hplugin
  cases hnode : disk.openNode (.ofString path) with
  | ok node => exact ⟨node, rfl⟩
  | error cause =>
      rw [hnode] at hopens
      cases hopens

theorem openNode_of_opens_eq_error {disk : Disk} {refusal? : String → Option OsFault}
    {asked : WriteLog} {path : String} {cause : OsFault}
    (h : (Store.recording disk refusal?).opens asked path = .error cause) :
    disk.openNode (.ofString path) = .error cause := by
  have hopens : (disk.openNode (.ofString path)).map (fun _ => ()) = .error cause := h
  cases hnode : disk.openNode (.ofString path) with
  | ok node =>
      rw [hnode] at hopens
      cases hopens
  | error cause' =>
      rw [hnode] at hopens
      exact congrArg _ (Except.error.inj hopens)

/-! ## The account of a run -/

/-- What there is to say of a run by the writes that it asks for and by its outcome. -/
structure Account (s : Settings) (targets : Targets) (disk : Disk)
    (refusal? : String → Option OsFault) (time : Calendar.Instant) (writes : WriteLog)
    (outcome : Except RunFault Report) : Prop where
  /-- Without the plugin nothing is written, whatever the settings are. -/
  pluginMissing : ∀ path cause, targets.plugin? = some path →
    disk.openNode (.ofString path) = .error cause →
    writes = [] ∧ outcome = .error (.pluginMissing { path, cause })
  /-- Nothing is written for settings that clash. -/
  conflict : targets.PluginReady disk → ∀ subject, s.Clashes subject →
    writes = [] ∧ ∃ c, s.compile = .error c ∧ outcome = .error (.conflict c)
  /-- Otherwise the main document is written first, and the other one behind it exactly when the
  main document was accepted and a start pattern is given. -/
  documents : targets.PluginReady disk → (∀ subject, ¬ s.Clashes subject) →
    ∃ c, s.compile = .ok c ∧
      (refusal? targets.main ≠ none ∨ s.value .joinStart = "" → writes = [(targets.main, c.main)]) ∧
      (refusal? targets.main = none → s.value .joinStart ≠ "" → ∃ text, c.joining? = some text ∧
        writes = [(targets.main, c.main), (targets.joining, text)])
  /-- A run succeeds when the main document was written and nothing was refused. -/
  ok_iff : (∃ report, outcome = .ok report) ↔
    (∃ c, s.compile = .ok c ∧ (targets.main, c.main) ∈ writes) ∧ ∀ w ∈ writes, refusal? w.1 = none
  /-- A write that is refused is the fault of the run. -/
  notWritten : ∀ w ∈ writes, ∀ cause, refusal? w.1 = some cause →
    outcome = .error (.notWritten { path := w.1, cause })
  /-- The report has a record of each write, in order, and is about these settings. -/
  report : ∀ r, outcome = .ok r → ∃ c, s.compile = .ok c ∧
    List.Forall₂ (fun (w : String × String) document => document.path = w.1 ∧
      document.bytes = w.2.utf8ByteSize ∧ document.sha256 = Digest.sha256Text w.2)
      writes r.written ∧
    r.settingsHash = s.fingerprint ∧ r.skipped = c.skipped ∧ r.programVersion = "1.0.0" ∧
    r.generatedAt = time

theorem Settings.joining?_eq_none_iff (s : Settings) :
    s.documents.joining? = none ↔ s.value .joinStart = "" := by
  unfold documents joiningSection? joinsLines
  by_cases h : s.value .joinStart = "" <;> simp [h]

variable {disk : Disk} {refusal? : String → Option OsFault} {time : Calendar.Instant}
  {s : Settings} {targets : Targets}

theorem not_pluginMissing {path : String} {cause : OsFault} (hready : targets.PluginReady disk)
    (hplugin : targets.plugin? = some path) : disk.openNode (.ofString path) ≠ .error cause := by
  obtain ⟨node, hnode⟩ := hready path hplugin
  rw [hnode]
  nofun

/-- A run that fails and asks for nothing has no report, and no main document. -/
theorem not_ok_iff_of_nil (fault : RunFault) :
    (∃ report : Report, (.error fault : Except RunFault Report) = .ok report) ↔
      (∃ c, s.compile = .ok c ∧ (targets.main, c.main) ∈ ([] : WriteLog)) ∧
        ∀ w ∈ ([] : WriteLog), refusal? w.1 = none := by
  constructor
  · rintro ⟨_, h⟩
    cases h
  · rintro ⟨⟨_, -, h⟩, -⟩
    exact absurd h List.not_mem_nil

theorem account_of_pluginMissing {path : String} {cause : OsFault}
    (hplugin : targets.plugin? = some path)
    (hopen : disk.openNode (.ofString path) = .error cause) :
    Account s targets disk refusal? time [] (.error (.pluginMissing { path, cause })) where
  pluginMissing path' cause' hplugin' hopen' := by
    rw [hplugin] at hplugin'
    obtain rfl := Option.some.inj hplugin'
    rw [hopen] at hopen'
    obtain rfl := Except.error.inj hopen'
    exact ⟨rfl, rfl⟩
  conflict hready := absurd hopen (not_pluginMissing hready hplugin)
  documents hready := absurd hopen (not_pluginMissing hready hplugin)
  ok_iff := not_ok_iff_of_nil _
  notWritten _ hw := absurd hw List.not_mem_nil
  report := nofun

theorem account_of_broken (hready : targets.PluginReady disk) (hbroken : s.violations ≠ []) :
    Account s targets disk refusal? time [] (.error (.conflict ⟨s.violations⟩)) where
  pluginMissing _ _ hplugin hopen := absurd hopen (not_pluginMissing hready hplugin)
  conflict _ _ _ := ⟨rfl, _, Settings.compile_of_broken hbroken, rfl⟩
  documents _ hvalid := absurd (s.violations_eq_nil_iff.mpr hvalid) hbroken
  ok_iff := not_ok_iff_of_nil _
  notWritten _ hw := absurd hw List.not_mem_nil
  report := nofun

/-- The main document is the first that is asked for. -/
theorem main_mem_attempts (c : Compiled) :
    (targets.main, c.main) ∈ attempts refusal? (c.placed targets) := by
  rw [Compiled.placed, attempts]
  exact List.mem_cons_self

theorem account_of_valid (hready : targets.PluginReady disk) (hvalid : s.violations = []) :
    Account s targets disk refusal? time (attempts refusal? (s.documents.placed targets))
      ((firstRefusal? refusal? (s.documents.placed targets)).elim
        (.ok (s.reportOf s.documents time (s.documents.placed targets)))
        fun fault => .error (.notWritten fault)) where
  pluginMissing _ _ hplugin hopen := absurd hopen (not_pluginMissing hready hplugin)
  conflict _ subject hclash := absurd hclash (s.violations_eq_nil_iff.mp hvalid subject)
  documents _ _ := by
    refine ⟨s.documents, Settings.compile_of_valid hvalid, ?_, ?_⟩
    · rintro (hrefused | hstart)
      · obtain ⟨cause, hcause⟩ := Option.ne_none_iff_exists'.mp hrefused
        exact attempts_cons_of_refused hcause _
      · rw [Compiled.placed, s.joining?_eq_none_iff.mpr hstart]
        exact attempts_singleton refusal? _
    · intro haccepted hstart
      obtain ⟨text, htext⟩ :=
        Option.ne_none_iff_exists'.mp (mt s.joining?_eq_none_iff.mp hstart)
      refine ⟨text, htext, ?_⟩
      rw [Compiled.placed, htext, attempts_cons_of_accepted haccepted]
      exact congrArg _ (attempts_singleton refusal? _)
  ok_iff := by
    have hmain : ∃ c, s.compile = .ok c ∧
        (targets.main, c.main) ∈ attempts refusal? (s.documents.placed targets) :=
      ⟨s.documents, Settings.compile_of_valid hvalid, main_mem_attempts s.documents⟩
    rw [and_iff_right hmain, ← firstRefusal?_eq_none_iff]
    cases firstRefusal? refusal? (s.documents.placed targets) with
    | none => exact ⟨fun _ => rfl, fun _ => ⟨_, rfl⟩⟩
    | some fault => exact ⟨nofun, nofun⟩
  notWritten w hw cause hcause := by
    rw [firstRefusal?_of_mem_attempts hw hcause, Option.elim_some]
  report r hr := by
    refine ⟨s.documents, Settings.compile_of_valid hvalid, ?_⟩
    cases hfault : firstRefusal? refusal? (s.documents.placed targets) with
    | none =>
        rw [hfault] at hr
        obtain rfl := Except.ok.inj hr
        rw [attempts_of_firstRefusal?_eq_none hfault]
        refine ⟨?_, rfl, rfl, rfl, rfl⟩
        exact List.forall₂_map_right_iff.mpr (List.forall₂_same.mpr fun _ _ => ⟨rfl, rfl, rfl⟩)
    | some fault =>
        rw [hfault] at hr
        cases hr

/-- The documents of a valid snapshot are written with the plugin there, or one of them is not. -/
theorem exists_account_of_writes {asked asked' : WriteLog} {fault? : Option WriteFault}
    (time : Calendar.Instant) (hready : targets.PluginReady disk) (hvalid : s.violations = [])
    (hwrites : (Store.recording disk refusal?).writeAll asked (s.documents.placed targets) =
      (asked', fault?)) :
    ∃ writes, asked' = asked ++ writes ∧
      Account s targets disk refusal? time writes
        (fault?.elim (.ok (s.reportOf s.documents time (s.documents.placed targets)))
          fun fault => .error (.notWritten fault)) := by
  rw [writeAll_recording] at hwrites
  obtain ⟨rfl, rfl⟩ := Prod.mk.inj hwrites
  exact ⟨_, rfl, account_of_valid hready hvalid⟩

/-- **A run writes what its account says.** For all settings, targets and disks, whatever paths are
refused and whatever was written before, a run on the recording host asks for the writes of an
account and for no other, and comes to its outcome. -/
theorem generate_has_account (s : Settings) (targets : Targets) (disk : Disk)
    (refusal? : String → Option OsFault) (time : Calendar.Instant) (asked : WriteLog) :
    ∃ writes outcome, Account s targets disk refusal? time writes outcome ∧
      runFrom ((Host.recorder disk refusal? time).generate s targets) asked =
        (outcome, asked ++ writes) := by
  have hcourse := (follows_recorder disk refusal? time).course_generate s targets asked
  rcases hrun : runFrom ((Host.recorder disk refusal? time).generate s targets) asked with
    ⟨outcome, asked'⟩
  rw [hrun] at hcourse
  cases hcourse with
  | pluginMissing hplugin hopens =>
      exact ⟨[], _, account_of_pluginMissing hplugin (openNode_of_opens_eq_error hopens),
        by rw [List.append_nil]⟩
  | conflict hplugin hcompile =>
      have hbroken := Settings.violations_ne_nil_of_compile hcompile
      rw [Settings.compile_of_broken hbroken] at hcompile
      obtain rfl := Except.error.inj hcompile
      exact ⟨[], _, account_of_broken (pluginReady_of_opens hplugin) hbroken,
        by rw [List.append_nil]⟩
  | notWritten hplugin hcompile hwrites =>
      obtain ⟨hvalid, rfl⟩ := Settings.compile_eq_ok_iff.mp hcompile
      obtain ⟨writes, rfl, haccount⟩ :=
        exists_account_of_writes time (pluginReady_of_opens hplugin) hvalid hwrites
      exact ⟨writes, _, haccount, rfl⟩
  | done hplugin hcompile hwrites =>
      obtain ⟨hvalid, rfl⟩ := Settings.compile_eq_ok_iff.mp hcompile
      obtain ⟨writes, rfl, haccount⟩ :=
        exists_account_of_writes time (pluginReady_of_opens hplugin) hvalid hwrites
      exact ⟨writes, _, haccount, rfl⟩

end LogShipper
