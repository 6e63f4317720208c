import LogShipper.CommandLine.Machine
import LogShipper.Proofs.Following
import LogShipper.Run.Session

/-!
# Runs on stores

The hosts of sessions and of the command line do much besides keeping documents: they count, and
they write logs. What a run comes to and what it leaves behind depends on none of that. It is
decided by a store, which says what can be opened and what a write makes of it, and by the time.
-/

namespace LogShipper

/-- A way to keep documents: what can be opened, and what a write makes of what is kept. -/
structure Store (β : Type) where
  opens : β → String → Except OsFault Unit
  write : β → String → String → β × Option OsFault

namespace Store

/-- Documents are files. -/
def onDisk : Store Disk where
  opens d path := (d.openNode (.ofString path)).map fun _ => ()
  write d path text := d.write (.ofString path) text.toUTF8

/-- Documents are kept in memory, and plugins are looked for on a disk. -/
def inMemory : Store (Disk × Memory) where
  opens b path := (b.1.openNode (.ofString path)).map fun _ => ()
  write b path text := ((b.1, (b.2.write path text).1), (b.2.write path text).2)

variable {β : Type} (store : Store β)

/-- Write documents in their order, up to the first that is refused. -/
def writeAll (b : β) : List (String × String) → β × Option WriteFault
  | [] => (b, none)
  | d :: ds =>
    match store.write b d.1 d.2 with
    | (b, none) => writeAll b ds
    | (b, some cause) => (b, some { path := d.1, cause })

/-- The first document is refused, which is the fault then, or it is written and the others are
next. -/
theorem writeAll_cons_cases {b b' : β} {d : String × String} {ds : List (String × String)}
    {fault? : Option WriteFault} (h : store.writeAll b (d :: ds) = (b', fault?)) :
    (∃ cause, store.write b d.1 d.2 = (b', some cause) ∧ fault? = some { path := d.1, cause }) ∨
      ∃ next, store.write b d.1 d.2 = (next, none) ∧ store.writeAll next ds = (b', fault?) := by
  rw [writeAll] at h
  rcases hwrite : store.write b d.1 d.2 with ⟨next, _ | cause⟩
  · rw [hwrite] at h
    exact Or.inr ⟨next, rfl, h⟩
  · rw [hwrite] at h
    obtain ⟨rfl, rfl⟩ := Prod.mk.inj h
    exact Or.inl ⟨cause, rfl, rfl⟩

/-- What a run comes to once the plugin is there, and what it leaves behind. -/
def produce (s : Settings) (targets : Targets) (at' : β × Calendar.Instant) :
    Except RunFault Report × (β × Calendar.Instant) :=
  match s.compile with
  | .error c => (.error (.conflict c), at')
  | .ok c =>
    match store.writeAll at'.1 (c.placed targets) with
    | (b, none) => (.ok (s.reportOf c at'.2 (c.placed targets)), (b, at'.2))
    | (b, some fault) => (.error (.notWritten fault), (b, at'.2))

/-- What a run comes to, and what it leaves behind. -/
def generate (s : Settings) (targets : Targets) (at' : β × Calendar.Instant) :
    Except RunFault Report × (β × Calendar.Instant) :=
  match targets.plugin? with
  | none => store.produce s targets at'
  | some path =>
    match store.opens at'.1 path with
    | .ok () => store.produce s targets at'
    | .error cause => (.error (.pluginMissing { path, cause }), at')

/-- A run comes to its report when the snapshot is valid, no plugin is asked for and all documents
can be written. -/
theorem generate_of_writeAll {s : Settings} {targets : Targets} {at' : β × Calendar.Instant} {b : β}
    (hvalid : s.violations = []) (hplugin : targets.plugin? = none)
    (hwrites : store.writeAll at'.1 (s.documents.placed targets) = (b, none)) :
    store.generate s targets at' =
      (.ok (s.reportOf s.documents at'.2 (s.documents.placed targets)), (b, at'.2)) := by
  unfold generate produce
  rw [hplugin, Settings.compile_of_valid hvalid]
  dsimp only
  rw [hwrites]

/-! ## The ways to end on a store -/

/-- The plugin of the targets can be opened, or none is asked for. -/
def Opens (b : β) (targets : Targets) : Prop :=
  ∀ path, targets.plugin? = some path → store.opens b path = .ok ()

/-- The ways in which a run ends on a store, with what each leaves behind. -/
inductive Course (s : Settings) (targets : Targets) (at' : β × Calendar.Instant) :
    Except RunFault Report × (β × Calendar.Instant) → Prop where
  | pluginMissing {path : String} {cause : OsFault} (hplugin : targets.plugin? = some path)
      (hopens : store.opens at'.1 path = .error cause) :
      Course s targets at' (.error (.pluginMissing { path, cause }), at')
  | conflict {c : Conflict} (hplugin : store.Opens at'.1 targets)
      (hcompile : s.compile = .error c) :
      Course s targets at' (.error (.conflict c), at')
  | notWritten {c : Compiled} {b : β} {fault : WriteFault} (hplugin : store.Opens at'.1 targets)
      (hcompile : s.compile = .ok c)
      (hwrites : store.writeAll at'.1 (c.placed targets) = (b, some fault)) :
      Course s targets at' (.error (.notWritten fault), (b, at'.2))
  | done {c : Compiled} {b : β} (hplugin : store.Opens at'.1 targets) (hcompile : s.compile = .ok c)
      (hwrites : store.writeAll at'.1 (c.placed targets) = (b, none)) :
      Course s targets at' (.ok (s.reportOf c at'.2 (c.placed targets)), (b, at'.2))

/-- A run that comes to a report has written all it was to write. -/
theorem Course.of_ok {s : Settings} {targets : Targets} {at' after : β × Calendar.Instant}
    {report : Report} (h : store.Course s targets at' (.ok report, after)) :
    ∃ c, s.compile = .ok c ∧ report = s.reportOf c at'.2 (c.placed targets) ∧
      store.writeAll at'.1 (c.placed targets) = (after.1, none) := by
  cases h with
  | done _ hcompile hwrites => exact ⟨_, hcompile, rfl, hwrites⟩

theorem course_produce (s : Settings) {targets : Targets} {at' : β × Calendar.Instant}
    (hplugin : store.Opens at'.1 targets) :
    store.Course s targets at' (store.produce s targets at') := by
  unfold produce
  cases hcompile : s.compile with
  | error c => exact .conflict hplugin hcompile
  | ok c =>
      dsimp only
      rcases hwrites : store.writeAll at'.1 (c.placed targets) with ⟨b, _ | fault⟩
      · exact .done hplugin hcompile hwrites
      · exact .notWritten hplugin hcompile hwrites

/-- A run ends in one of four ways. -/
theorem course_generate (s : Settings) (targets : Targets) (at' : β × Calendar.Instant) :
    store.Course s targets at' (store.generate s targets at') := by
  unfold generate
  cases hplugin : targets.plugin? with
  | none => exact store.course_produce s fun _ h => nomatch hplugin.symm.trans h
  | some path =>
      dsimp only
      cases hopens : store.opens at'.1 path with
      | error cause => exact .pluginMissing hplugin hopens
      | ok _ =>
          refine store.course_produce s fun path' hpath' => ?_
          obtain rfl := Option.some.inj (hplugin.symm.trans hpath')
          exact hopens

end Store

/-! ## Hosts with a store -/

namespace Store

variable {β : Type} (store : Store β)

/-- A host of which the state is what is kept, and the time. -/
def host : Host (StateM (β × Calendar.Instant)) where
  probe path := do return store.opens (← get).1 path
  write path text := fun at' => pure
    (match (store.write at'.1 path text).2 with
      | none => .ok ()
      | some fault => .error fault, ((store.write at'.1 path text).1, at'.2))
  now := do return (← get).2
  note _ := pure ()
  countValidation := pure ()

theorem idle_host : store.host.Idle id where
  probe _ _ := rfl
  now _ := rfl
  note _ _ := rfl

theorem wrote_host (docs : List (String × String)) (at' : β × Calendar.Instant) :
    store.host.wrote docs at' =
      ((store.writeAll at'.1 docs).2, ((store.writeAll at'.1 docs).1, at'.2)) := by
  induction docs generalizing at' with
  | nil => rfl
  | cons d ds ih =>
      have hwrite : ((store.host.write d.1 d.2).run at').run =
          (match (store.write at'.1 d.1 d.2).2 with
            | none => .ok ()
            | some fault => .error fault, ((store.write at'.1 d.1 d.2).1, at'.2)) := rfl
      rw [Host.wrote, hwrite, writeAll]
      rcases store.write at'.1 d.1 d.2 with ⟨b, _ | cause⟩
      · exact ih (b, at'.2)
      · rfl

theorem runFrom_produce (s : Settings) (targets : Targets) (at' : β × Calendar.Instant) :
    runFrom (store.host.produce s targets) at' = store.produce s targets at' := by
  have hcompiled : store.host.compiled s at' = at' := store.idle_host.view_compiled s at'
  rw [store.host.runFrom_produce, hcompiled, produce]
  cases s.compile with
  | error c => rfl
  | ok c =>
      dsimp only
      rw [store.wrote_host]
      rcases store.writeAll at'.1 (c.placed targets) with ⟨b, _ | fault⟩ <;> rfl

/-- A run on the host of a store comes to what the store makes of it. -/
theorem runFrom_generate (s : Settings) (targets : Targets) (at' : β × Calendar.Instant) :
    runFrom (store.host.generate s targets) at' = store.generate s targets at' := by
  rw [store.host.runFrom_generate, store.host.runFrom_lookForPlugin, generate]
  cases targets.plugin? with
  | none => exact store.runFrom_produce s targets at'
  | some path =>
      have hprobe : ((store.host.probe path).run at').run = (store.opens at'.1 path, at') := rfl
      dsimp only
      rw [store.host.runFrom_requirePlugin, hprobe]
      cases store.opens at'.1 path with
      | error cause => rfl
      | ok _ => exact store.runFrom_produce s targets at'

end Store

namespace Host.Follows

variable {σ β : Type} {host : Host (StateM σ)} {store : Store β} {view : σ → β × Calendar.Instant}
  (hfollows : host.Follows store.host view)

include hfollows

theorem acts_compile_store (s : Settings) :
    Acts view (host.compile s).run fun at' => (s.compile, at') := by
  intro st
  have hrun := hfollows.acts_compile s st
  rw [store.host.runFrom_compile] at hrun
  exact hrun.trans (congrArg (Prod.mk _) (store.idle_host.view_compiled s (view st)))

/-- **A run comes to what its store makes of it.** -/
theorem acts_generate_store (s : Settings) (targets : Targets) :
    Acts view (host.generate s targets).run (store.generate s targets) :=
  fun st => (hfollows.acts_generate s targets st).trans (store.runFrom_generate s targets (view st))

/-- A run on a host that has a store ends as it does on the store. -/
theorem course_generate (s : Settings) (targets : Targets) (st : σ) :
    store.Course s targets (view st)
      ((runFrom (host.generate s targets) st).1,
        view (runFrom (host.generate s targets) st).2) := by
  have hrun : ((runFrom (host.generate s targets) st).1,
      view (runFrom (host.generate s targets) st).2) = store.generate s targets (view st) :=
    hfollows.acts_generate_store s targets st
  rw [hrun]
  exact store.course_generate s targets (view st)

end Host.Follows

/-! ## The hosts of the program -/

/-- The beginning of a year. -/
def newYear : Calendar.Instant :=
  { date := { year := 2000, month := 1, day := 1 }, hour := 0, minute := 0, second := 0
    nanosecond := 0 }

namespace Session

/-- What a run on the disk of a session can tell of the session. -/
def files (st : Session) : Disk × Calendar.Instant :=
  (st.disk, st.time)

/-- What a run in the memory of a session can tell of the session. -/
def kept (st : Session) : (Disk × Memory) × Calendar.Instant :=
  ((st.disk, st.memory), st.time)

/-- A session on a fresh disk of which nothing was asked yet. -/
def fresh : Session :=
  start .fresh newYear

theorem follows_onDisk : (host .disk).Follows Store.onDisk.host files where
  probe _ _ := rfl
  write _ _ _ := rfl
  now _ := rfl
  note _ _ := rfl
  countValidation _ := rfl

theorem follows_inMemory : (host .memory).Follows Store.inMemory.host kept where
  probe _ _ := rfl
  write _ _ _ := rfl
  now _ := rfl
  note _ _ := rfl
  countValidation _ := rfl

end Session

namespace CommandLine.Machine

/-- What a run on a machine can tell of the machine, which leaves out the log. -/
def files (machine : Machine) : Disk × Calendar.Instant :=
  (machine.disk, machine.time)

/-- A machine with a fresh disk. -/
def fresh : Machine :=
  start .fresh newYear

/-- Whatever is logged, and how. -/
theorem follows_onDisk (verbosity : Nat) (format : LogFormat) :
    (system.host verbosity format).Follows Store.onDisk.host files where
  probe _ _ := rfl
  write path text machine := by
    dsimp only [System.host, system, StateT.run, Store.host, Store.onDisk, files]
    rcases machine.disk.write (.ofString path) text.toUTF8 with ⟨disk, _ | fault⟩ <;> rfl
  now _ := rfl
  note e machine := by
    show ((), files ((system.logAt verbosity format e).run machine).run.2) = _
    unfold System.logAt
    split <;> rfl
  countValidation _ := rfl

end CommandLine.Machine

end LogShipper
