import LogShipper.Proofs.CommandsOnFiles
import LogShipper.Proofs.ReportOnDisk

/-!
# The commands agree

Three ways lead from one snapshot to a verdict, to printed documents and to files. They are the same
ways up to where they part: a conflict is one for every command, and what is written is what would
be printed.
-/

namespace LogShipper

theorem Section.render_ne_empty (sec : Section) : sec.render ≠ "" := by
  intro h
  have hsize := congrArg String.length h
  simp [render] at hsize

theorem Settings.joining?_ne_some_empty (s : Settings) : s.documents.joining? ≠ some "" := by
  intro h
  obtain ⟨sec, -, hsec⟩ := Option.map_eq_some_iff.mp h
  exact sec.render_ne_empty hsec

namespace CommandLine

/-- Arguments ask for a command with settings from a file or without one. How much is logged, and
how, they may say as they like. -/
def Asks (args : List String) (command : Command) (file? : Option String) : Prop :=
  ∃ logLevel logFormat,
    read args = .invocation { command, settingsFile? := file?, logLevel, logFormat }

section

variable {machine : Machine} {environment : Source} {args : List String} {command : Command}
  {file? : Option String} {s : Settings}

theorem run_of_asks (hload : Settings.loadFrom machine.disk file? environment = .ok s)
    (h : Asks args command file?) :
    (machine.run environment args).1 = (command.onFiles s machine.files).1 ∧
      (machine.run environment args).2.disk = (command.onFiles s machine.files).2.1 := by
  obtain ⟨logLevel, logFormat, hread⟩ := h
  exact run_of_loaded hread hload

end

/-- What became of a disk when the texts of the two documents were written to targets. The second
text is empty when there is no such document. -/
structure WrittenTo (targets : Targets) (main joining : String) (before after : Disk) : Prop where
  /-- The main document is written, and the other one after it if it exists, and nothing else is
  done. -/
  alone : joining = "" → before.write (.ofString targets.main) main.toUTF8 = (after, none)
  both : joining ≠ "" → ∃ between,
    before.write (.ofString targets.main) main.toUTF8 = (between, none) ∧
      between.write (.ofString targets.joining) joining.toUTF8 = (after, none)
  /-- If they are two files, each holds its text in the end, or what it held when nothing was
  written to it. -/
  main_read : ¬ after.SameFile targets.main targets.joining →
    after.read (.ofString targets.main) = .ok main.toUTF8
  joining_read : joining ≠ "" → after.read (.ofString targets.joining) = .ok joining.toUTF8
  joining_kept : joining = "" → ¬ after.SameFile targets.main targets.joining →
    ∀ content, before.read (.ofString targets.joining) = .ok content →
      after.read (.ofString targets.joining) = .ok content

theorem writtenTo_of_writeAll {targets : Targets} {main : String} {joining? : Option String}
    (hne : joining? ≠ some "") {before after : Disk}
    (h : Store.onDisk.writeAll before ((targets.main, main) ::
      (joining?.map fun text => (targets.joining, text)).toList) = (after, none)) :
    WrittenTo targets main (joining?.getD "") before after := by
  obtain ⟨next, hmain, hrest⟩ := writeAll_cons_eq_none h
  cases joining? with
  | none =>
      obtain rfl := (Prod.mk.inj hrest).1
      exact
        { alone := fun _ => hmain
          both := fun hne => absurd rfl hne
          main_read := fun _ => Disk.read_of_write hmain
          joining_read := fun hne => absurd rfl hne
          joining_kept := fun _ hfile _ hcontent =>
            Disk.read_of_write_other hmain hcontent fun ⟨place, h, h'⟩ => hfile ⟨place, h', h⟩ }
  | some text =>
      have htext : text ≠ "" := fun heq => hne (congrArg some heq)
      obtain ⟨last, hjoining, hend⟩ := writeAll_cons_eq_none hrest
      obtain rfl := (Prod.mk.inj hend).1
      exact
        { alone := fun heq => absurd heq htext
          both := fun _ => ⟨next, hmain, hjoining⟩
          main_read := Disk.read_of_write_other hjoining (Disk.read_of_write hmain)
          joining_read := fun _ => Disk.read_of_write hjoining
          joining_kept := fun heq => absurd heq htext }

/-- What the commands make of settings that are loaded on a machine. -/
structure CommandsAgree (machine : Machine) (environment : Source) (file? : Option String)
    (s : Settings) : Prop where
  /-- Any command that looks for no plugin ends with 2 exactly when settings clash. -/
  verdict : ∀ args command, Asks args command file? →
    (∀ targets, command = .generate targets → targets.plugin? = none) →
      ((machine.run environment args).1.status.code = 2 ↔ ∃ subject, s.Clashes subject)
  /-- All files stay as they are unless documents are to be generated. -/
  unchanged : ∀ args command, Asks args command file? →
    (∀ targets, command ≠ .generate targets) →
      (machine.run environment args).2.disk = machine.disk
  /-- Generating ends with 0 only after writing the text that would be printed, and then the text
  that would be printed about joined lines if there is any. -/
  writes : ∀ args targets main joining, Asks args (.generate targets) file? →
    Asks main (.render false) file? → Asks joining (.render true) file? →
      (machine.run environment args).1.status.code = 0 →
        WrittenTo targets (machine.run environment main).1.output
          (machine.run environment joining).1.output machine.disk
          (machine.run environment args).2.disk
  /-- Nothing of that depends on what is logged, or how. -/
  unlogged : ∀ args args' command environment', Asks args command file? → Asks args' command file? →
    (∀ k : Setting, environment' k.name = environment k.name) →
      (machine.run environment' args').1 = (machine.run environment args).1 ∧
        (machine.run environment' args').2.disk = (machine.run environment args).2.disk

/-- **The commands agree** on any machine and in any environment, for a settings file that loads or
without one. -/
theorem commandsAgree {machine : Machine} {environment : Source} {file? : Option String}
    {s : Settings} (hload : Settings.loadFrom machine.disk file? environment = .ok s) :
    CommandsAgree machine environment file? s where
  verdict args command hasks hplugin := by
    have hthere : command.PluginThere machine.disk := by
      cases command with
      | generate targets => exact fun path hpath => nomatch (hplugin targets rfl).symm.trans hpath
      | render joining => trivial
      | validate => trivial
    rw [(run_of_asks hload hasks).1, Command.code_eq_two_iff, s.violations_ne_nil_iff]
    exact and_iff_left hthere
  unchanged args command hasks hcommand := by
    refine (run_of_asks hload hasks).2.trans ?_
    cases command with
    | generate targets => exact absurd rfl (hcommand targets)
    | render joining => rfl
    | validate => rfl
  writes args targets main joining hgenerate hmain hjoining hcode := by
    obtain ⟨houtcome, hdisk⟩ := run_of_asks hload hgenerate
    rw [houtcome] at hcode
    obtain ⟨hvalid, hwrites⟩ := Command.writeAll_of_code_eq_zero hcode
    have hmain : (machine.run environment main).1.output = s.documents.main := by
      rw [(run_of_asks hload hmain).1, Command.onFiles, Settings.compile_of_valid hvalid]
      rfl
    have hjoining : (machine.run environment joining).1.output = s.documents.joining?.getD "" := by
      rw [(run_of_asks hload hjoining).1, Command.onFiles, Settings.compile_of_valid hvalid]
      rfl
    rw [hmain, hjoining, hdisk]
    exact writtenTo_of_writeAll s.joining?_ne_some_empty hwrites
  unlogged args args' command environment' hasks hasks' henvironment := by
    have hload' := (Settings.loadFrom_congr machine.disk file? henvironment).trans hload
    obtain ⟨houtcome, hdisk⟩ := run_of_asks hload hasks
    obtain ⟨houtcome', hdisk'⟩ := run_of_asks hload' hasks'
    exact ⟨houtcome'.trans houtcome.symm, hdisk'.trans hdisk.symm⟩

/-- Arguments that ask for the documents in two files, with a format of the log before and a level
behind the command. -/
def generating : List String :=
  ["--log-format", "json", "generate", "--output", "out.conf", "--multiline-output", "joining.conf",
    "--skip-plugin-check", "--log-level", "debug"]

theorem commandsAgree_twoFiles :
    Settings.loadFrom Machine.fresh.disk none joinedSource = .ok joinedLines ∧
      (Asks generating (.generate twoFiles) none ∧ Asks ["render"] (.render false) none ∧
        Asks ["render", "--multiline"] (.render true) none ∧ Asks ["validate"] .validate none) ∧
      (Machine.fresh.run joinedSource generating).1.status.code = 0 ∧
      CommandsAgree Machine.fresh joinedSource none joinedLines := by
  have hload : Settings.loadFrom Machine.fresh.disk none joinedSource = .ok joinedLines := rfl
  have hgenerating : Asks generating (.generate twoFiles) none := ⟨"debug", .json, rfl⟩
  refine ⟨hload, ⟨hgenerating, ⟨_, _, rfl⟩, ⟨_, _, rfl⟩, ⟨_, _, rfl⟩⟩, ?_, commandsAgree hload⟩
  obtain ⟨text, -, hplaced⟩ := exists_placed_joinedLines twoFiles
  obtain ⟨d', hwrites⟩ := exists_writeAll_twoFiles joinedLines.documents.main text
  rw [← hplaced] at hwrites
  have hrun : Store.onDisk.generate joinedLines twoFiles Machine.fresh.files = _ :=
    Store.onDisk.generate_of_writeAll (by decide) rfl hwrites
  rw [(run_of_asks hload hgenerating).1, Command.onFiles, hrun]
  rfl

end CommandLine

end LogShipper
