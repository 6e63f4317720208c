import LogShipper.Proofs.JoiningAgreement
import LogShipper.Proofs.StoredRuns

/-!
# The pair of documents over many runs

Runs of one session write to the same two paths, one run after the other, and any write may be
refused. The main document is written first. So it can only refer to a parser that is not in the
other document if the run that wrote it was refused the other document: then the paths hold
documents of different runs until a run comes through.
-/

namespace LogShipper

/-! ## What a memory holds -/

namespace Memory

variable {mem mem' : Memory} {path text : String}

/-- What a path holds is the last text that was written to it. -/
def held? (mem : Memory) (path : String) : Option String :=
  mem.written.reverse.lookup path

theorem held?_of_write (h : mem.write path text = (mem', none)) (other : String) :
    mem'.held? other = if other = path then some text else mem.held? other := by
  unfold write at h
  split at h
  · cases h
  · obtain rfl := (Prod.mk.inj h).1
    unfold held?
    rw [List.reverse_append, List.reverse_singleton, List.singleton_append, List.lookup_cons]
    by_cases hother : other = path
    · rw [hother, beq_self_eq_true, if_pos rfl]
    · rw [beq_eq_false_iff_ne.mpr hother, if_neg hother]

/-- Nothing is written to a path that is refused. -/
theorem eq_of_write_refused {cause : OsFault} (h : mem.write path text = (mem', some cause)) :
    mem' = mem := by
  unfold write at h
  split at h
  · exact (Prod.mk.inj h).1.symm
  · cases h

end Memory

/-! ## Stores with something beside them -/

/-- Documents are kept as in a store, and something that no write changes is beside it. -/
def Store.beside {β : Type} (store : Store β) (γ : Type) : Store (β × γ) where
  opens b path := store.opens b.1 path
  write b path text := (((store.write b.1 path text).1, b.2), (store.write b.1 path text).2)

theorem Store.snd_of_writeAll_beside {β γ : Type} {store : Store β} {b b' : β × γ}
    {docs : List (String × String)} {fault? : Option WriteFault}
    (h : (store.beside γ).writeAll b docs = (b', fault?)) : b'.2 = b.2 := by
  induction docs generalizing b with
  | nil =>
      obtain rfl := (Prod.mk.inj h).1
      rfl
  | cons d ds ih =>
      obtain ⟨cause, hwrite, -⟩ | ⟨next, hwrite, hrest⟩ := writeAll_cons_cases _ h
      · obtain rfl := (Prod.mk.inj hwrite).1
        rfl
      · obtain rfl := (Prod.mk.inj hwrite).1
        exact (ih hrest).trans rfl

theorem Store.Course.beside_snd {β γ : Type} {store : Store β} {s : Settings} {targets : Targets}
    {at' after : (β × γ) × Calendar.Instant} {outcome : Except RunFault Report}
    (h : (store.beside γ).Course s targets at' (outcome, after)) : after.1.2 = at'.1.2 := by
  cases h with
  | pluginMissing => rfl
  | conflict => rfl
  | notWritten _ _ hwrites => exact snd_of_writeAll_beside hwrites
  | done _ _ hwrites => exact snd_of_writeAll_beside hwrites

theorem Session.follows_besideMemory :
    (host .disk).Follows (Store.onDisk.beside Memory).host kept where
  probe _ _ := rfl
  write _ _ _ := rfl
  now _ := rfl
  note _ _ := rfl
  countValidation _ := rfl

/-! ## Past runs -/

/-- A run that is over: the snapshot and the targets it was for, and what it came to. -/
structure PastRun where
  settings : Settings
  targets : Targets
  outcome : Except RunFault Report

namespace PastRun

/-- The main document, if the run wrote it. -/
def main? (r : PastRun) : Option String :=
  match r.outcome with
  | .ok _ => some r.settings.documents.main
  | .error (.notWritten fault) =>
    if fault.path = r.targets.main then none else some r.settings.documents.main
  | .error _ => none

/-- The document that says how lines are joined, if the run wrote it. -/
def joining? (r : PastRun) : Option String :=
  match r.outcome with
  | .ok _ => r.settings.documents.joining?
  | .error _ => none

end PastRun

/-! ## One run -/

theorem Memory.write_of_inMemory {b b' : Disk × Memory} {path text : String}
    {fault? : Option OsFault} (h : Store.inMemory.write b path text = (b', fault?)) :
    b.2.write path text = (b'.2, fault?) := by
  obtain ⟨rfl, rfl⟩ := Prod.mk.inj h
  rfl

/-- The documents that are written before the first refusal take the place of the old ones. -/
theorem held?_of_writeAll {c : Compiled} {targets : Targets} (hne : targets.main ≠ targets.joining)
    {b b' : Disk × Memory} {fault? : Option WriteFault}
    (h : Store.inMemory.writeAll b (c.placed targets) = (b', fault?)) :
    b'.2.held? targets.main =
        (if fault?.map (·.path) = some targets.main then none else some c.main).or
          (b.2.held? targets.main) ∧
      b'.2.held? targets.joining =
        (if fault?.isSome then none else c.joining?).or (b.2.held? targets.joining) := by
  unfold Compiled.placed at h
  obtain ⟨cause, hmain, rfl⟩ | ⟨next, hmain, hrest⟩ := Store.writeAll_cons_cases _ h
  · rw [Memory.eq_of_write_refused (Memory.write_of_inMemory hmain)]
    simp
  · have hheld := Memory.held?_of_write (Memory.write_of_inMemory hmain)
    cases hjoining : c.joining? with
    | none =>
        rw [hjoining] at hrest
        obtain ⟨rfl, rfl⟩ := Prod.mk.inj hrest
        simp [hheld, hne.symm]
    | some text =>
        rw [hjoining] at hrest
        obtain ⟨cause, hsecond, rfl⟩ | ⟨last, hsecond, hend⟩ := Store.writeAll_cons_cases _ hrest
        · rw [Memory.eq_of_write_refused (Memory.write_of_inMemory hsecond)]
          simp [hheld, hne.symm]
        · have hheld' := Memory.held?_of_write (Memory.write_of_inMemory hsecond)
          obtain ⟨rfl, rfl⟩ := Prod.mk.inj hend
          simp [hheld, hheld', hne]

/-- **A run puts the documents it wrote in place of the old ones.** -/
theorem held?_of_course {s : Settings} {targets : Targets} (hne : targets.main ≠ targets.joining)
    {at' after : (Disk × Memory) × Calendar.Instant} {outcome : Except RunFault Report}
    (h : Store.inMemory.Course s targets at' (outcome, after)) :
    after.1.2.held? targets.main =
        (PastRun.mk s targets outcome).main?.or (at'.1.2.held? targets.main) ∧
      after.1.2.held? targets.joining =
        (PastRun.mk s targets outcome).joining?.or (at'.1.2.held? targets.joining) := by
  cases h with
  | pluginMissing => exact ⟨rfl, rfl⟩
  | conflict => exact ⟨rfl, rfl⟩
  | notWritten _ hcompile hwrites =>
      obtain ⟨-, rfl⟩ := Settings.compile_eq_ok_iff.mp hcompile
      obtain ⟨hmain, hjoining⟩ := held?_of_writeAll hne hwrites
      refine ⟨hmain.trans ?_, hjoining⟩
      simp only [Option.map_some, Option.some.injEq]
      rfl
  | done _ hcompile hwrites =>
      obtain ⟨-, rfl⟩ := Settings.compile_eq_ok_iff.mp hcompile
      exact held?_of_writeAll hne hwrites

/-! ## Many runs -/

namespace Request

/-- If the request is for a run to memory, then that is to these two paths. -/
def WritesTo (main joining : String) : Request → Prop
  | .generate targets .memory => targets.main = main ∧ targets.joining = joining
  | _ => True

/-- The run that a request is for, if it is for one to memory. -/
def run? (st : Session) : Request → Option PastRun
  | .generate targets .memory =>
    let outcome := (runFrom ((Session.host .memory).generate st.settings targets) st).1
    some { settings := st.settings, targets, outcome }
  | _ => none

end Request

namespace Session

/-- A session and its past runs to memory, the latest first, after one more request. -/
def ask (at' : Session × List PastRun) (r : Request) : Session × List PastRun :=
  (((answer r).run at'.1).run.2, (r.run? at'.1).toList ++ at'.2)

/-- A session after requests, with the runs to memory that were among them. -/
def replay (st : Session) (requests : List Request) : Session × List PastRun :=
  requests.foldl ask (st, [])

theorem memory_of_generate_disk (targets : Targets) (st : Session) :
    ((answer (.generate targets .disk)).run st).run.2.memory = st.memory :=
  (follows_besideMemory.course_generate st.settings targets st).beside_snd

/-- What a path holds is changed by runs to memory only. -/
theorem memory_written_answer {r : Request} {st : Session} (h : r.run? st = none) :
    ((answer r).run st).run.2.memory.written = st.memory.written := by
  have hkept : ∀ st' : Session, st'.kept = st.kept → st'.memory.written = st.memory.written :=
    fun st' heq => congrArg (fun c => c.1.2.written) heq
  cases r with
  | generate targets destination =>
      cases destination with
      | memory => cases h
      | disk => rw [memory_of_generate_disk]
  | useText text =>
      unfold answer
      dsimp only
      cases Settings.ofText text <;> rfl
  | validate =>
      show (runFrom ((host .memory).validate st.settings) st).2.memory.written = _
      rw [(host .memory).runFrom_validate]
      rfl
  | compile =>
      exact hkept _ (congrArg Prod.snd (follows_inMemory.acts_compile_store st.settings st))
  | useSource | fingerprint | check | resetCount | refuse | accept => rfl

end Session

/-! ## What the paths hold -/

/-- The paths hold what the runs to them, latest first, have written there last. -/
structure Accounted (main joining : String) (mem : Memory) (runs : List PastRun) : Prop where
  main_eq : mem.held? main = runs.findSome? PastRun.main?
  joining_eq : mem.held? joining = runs.findSome? PastRun.joining?
  ended : ∀ r ∈ runs, r.targets.main = main ∧ r.targets.joining = joining ∧
    Ending r.settings r.targets r.outcome

namespace Accounted

variable {main joining : String} {mem : Memory} {runs : List PastRun}

theorem start : Accounted main joining .empty [] where
  main_eq := rfl
  joining_eq := rfl
  ended _ h := nomatch h

theorem congr {mem' : Memory} (h : Accounted main joining mem runs)
    (hwritten : mem'.written = mem.written) : Accounted main joining mem' runs := by
  have hheld : ∀ path, mem'.held? path = mem.held? path := fun path => by
    rw [Memory.held?, hwritten, Memory.held?]
  exact ⟨(hheld main).trans h.main_eq, (hheld joining).trans h.joining_eq, h.ended⟩

/-- A run adds to the account what it wrote. -/
theorem cons {mem' : Memory} {r : PastRun} (h : Accounted main joining mem runs)
    (hmain : mem'.held? main = r.main?.or (mem.held? main))
    (hjoining : mem'.held? joining = r.joining?.or (mem.held? joining))
    (hr : r.targets.main = main ∧ r.targets.joining = joining ∧
      Ending r.settings r.targets r.outcome) : Accounted main joining mem' (r :: runs) where
  main_eq := by
    rw [hmain, h.main_eq, List.findSome?_cons]
    cases r.main? <;> rfl
  joining_eq := by
    rw [hjoining, h.joining_eq, List.findSome?_cons]
    cases r.joining? <;> rfl
  ended past hpast := by
    rcases List.mem_cons.mp hpast with rfl | hpast
    · exact hr
    · exact h.ended past hpast

/-- One request keeps the account. -/
theorem ask {at' : Session × List PastRun} {r : Request} (hne : main ≠ joining)
    (hr : r.WritesTo main joining) (h : Accounted main joining at'.1.memory at'.2) :
    Accounted main joining (Session.ask at' r).1.memory (Session.ask at' r).2 := by
  unfold Session.ask
  cases hrun : r.run? at'.1 with
  | none => exact h.congr (Session.memory_written_answer hrun)
  | some past =>
      obtain ⟨targets, rfl⟩ : ∃ targets, r = .generate targets .memory := by
        unfold Request.run? at hrun
        split at hrun
        · exact ⟨_, rfl⟩
        · cases hrun
      obtain rfl := Option.some.inj hrun
      obtain ⟨rfl, rfl⟩ := hr
      obtain ⟨hmain, hjoining⟩ :=
        held?_of_course hne (Session.follows_inMemory.course_generate at'.1.settings targets at'.1)
      exact h.cons hmain hjoining ⟨rfl, rfl, ending_generate _ _ _ _⟩

/-- All requests together do. -/
theorem foldl_ask (hne : main ≠ joining) {requests : List Request}
    (hrequests : ∀ r ∈ requests, r.WritesTo main joining) {at' : Session × List PastRun}
    (h : Accounted main joining at'.1.memory at'.2) :
    Accounted main joining (requests.foldl Session.ask at').1.memory
      (requests.foldl Session.ask at').2 := by
  induction requests generalizing at' with
  | nil => exact h
  | cons r rest ih =>
      rw [List.foldl_cons]
      exact ih (fun r' hr' => hrequests r' (List.mem_cons_of_mem _ hr'))
        (h.ask hne (hrequests r List.mem_cons_self))

end Accounted

/-! ## The pair -/

theorem Compiled.of_mem_placed {c : Compiled} {targets : Targets} {d : String × String}
    (h : d ∈ c.placed targets) : d.1 = targets.main ∨ d.1 = targets.joining := by
  rcases List.mem_cons.mp h with rfl | hrest
  · exact Or.inl rfl
  · obtain ⟨text, -, rfl⟩ := Option.map_eq_some_iff.mp (Option.mem_toList.mp hrest)
    exact Or.inr rfl

namespace PastRun

variable {r : PastRun} {main : String}

/-- A run writes the other document only after the main one. -/
theorem joining?_of_main?_eq_none (h : r.main? = none) : r.joining? = none := by
  unfold main? at h
  unfold joining?
  cases houtcome : r.outcome with
  | ok report =>
      rw [houtcome] at h
      cases h
  | error fault => rfl

/-- A run that wrote the main document came to its end or was refused the other one. -/
theorem of_main?_eq_some (h : r.main? = some main)
    (hended : Ending r.settings r.targets r.outcome) :
    ∃ c, r.settings.compile = .ok c ∧ c.main = main ∧
      (r.joining? = c.joining? ∨
        ∃ cause, r.outcome = .error (.notWritten { path := r.targets.joining, cause })) := by
  unfold main? at h
  unfold joining?
  generalize houtcome : r.outcome = outcome at h hended
  cases hended with
  | pluginMissing => cases h
  | conflict => cases h
  | done hcompile time =>
      obtain ⟨-, rfl⟩ := Settings.compile_eq_ok_iff.mp hcompile
      exact ⟨_, hcompile, Option.some.inj h, Or.inl rfl⟩
  | notWritten hcompile hd cause =>
      obtain ⟨-, rfl⟩ := Settings.compile_eq_ok_iff.mp hcompile
      dsimp only at h
      split at h
      · cases h
      · next hpath =>
        have hjoining := (Compiled.of_mem_placed hd).resolve_left hpath
        exact ⟨_, hcompile, Option.some.inj h, Or.inr ⟨cause, hjoining ▸ rfl⟩⟩

end PastRun

/-- The document names a parser for joined lines, in a section that says what is read. -/
def Compiled.NamesParser (c : Compiled) : Prop :=
  ∃ input ∈ c.sections, input.kind = .input ∧ input.HasKey "multiline.parser"

theorem Settings.namesParser_iff (s : Settings) :
    s.documents.NamesParser ↔ s.joiningRules ≠ [] := by
  have hmem : ∀ input, input ∈ s.sections ∧ input.kind = .input ↔ input = Blocks.input s := by
    intro input
    rw [← @List.mem_singleton _ input, ← s.filter_kind_sections, List.mem_filter,
      decide_eq_true_iff]
  rw [← Blocks.hasKey_input_iff s (Or.inr rfl)]
  constructor
  · rintro ⟨input, hin, hkind, hkey⟩
    rwa [(hmem input).mp ⟨hin, hkind⟩] at hkey
  · intro hkey
    obtain ⟨hin, hkind⟩ := (hmem (Blocks.input s)).mpr rfl
    exact ⟨_, hin, hkind, hkey⟩

/-- Two paths after runs to them, the latest first. -/
structure PairKept (main joining : String) (mem : Memory) (runs : List PastRun) : Prop where
  /-- A path holds what was written to it last, and nothing before that. -/
  main_eq : mem.held? main = runs.findSome? PastRun.main?
  joining_eq : mem.held? joining = runs.findSome? PastRun.joining?
  /-- The main document is that of the last run that wrote one. If it names a parser, the other
  document is there and is of the same snapshot, unless that run was refused the other document, and
  then the other path holds what earlier runs left there. -/
  pair : ∀ text, mem.held? main = some text → ∃ later r earlier c,
    runs = later ++ r :: earlier ∧ (∀ r' ∈ later, r'.main? = none) ∧
      r.settings.compile = .ok c ∧ c.main = text ∧
      (c.NamesParser →
        (∃ text', c.joining? = some text' ∧ mem.held? joining = some text') ∨
          (∃ cause, r.outcome = .error (.notWritten { path := joining, cause })) ∧
            mem.held? joining = earlier.findSome? PastRun.joining?)

theorem Accounted.pairKept {main joining : String} {mem : Memory} {runs : List PastRun}
    (h : Accounted main joining mem runs) : PairKept main joining mem runs where
  main_eq := h.main_eq
  joining_eq := h.joining_eq
  pair text htext := by
    rw [h.main_eq] at htext
    obtain ⟨later, r, earlier, rfl, hr, hlater⟩ := List.findSome?_eq_some_iff.mp htext
    obtain ⟨-, rfl, hended⟩ := h.ended r (by simp)
    obtain ⟨c, hc, hmain, hjoining⟩ := PastRun.of_main?_eq_some hr hended
    -- The runs after that one have not written the other document either.
    have hnone : later.findSome? PastRun.joining? = none :=
      List.findSome?_eq_none_iff.mpr fun r' hr' => PastRun.joining?_of_main?_eq_none (hlater r' hr')
    have hheld : mem.held? r.targets.joining =
        r.joining?.or (earlier.findSome? PastRun.joining?) := by
      rw [h.joining_eq, List.findSome?_append, hnone, Option.none_or, List.findSome?_cons]
      cases r.joining? <;> rfl
    refine ⟨later, r, earlier, c, rfl, hlater, hc, hmain, fun hparser => ?_⟩
    obtain ⟨-, rfl⟩ := Settings.compile_eq_ok_iff.mp hc
    have hsome := r.settings.isSome_joining?_iff.mpr (r.settings.namesParser_iff.mp hparser)
    obtain ⟨text', htext'⟩ := Option.isSome_iff_exists.mp hsome
    rcases hjoining with hjoining | ⟨cause, houtcome⟩
    · rw [hjoining, htext'] at hheld
      exact Or.inl ⟨text', htext', hheld⟩
    · have hnone : r.joining? = none := by
        rw [PastRun.joining?, houtcome]
      rw [hnone] at hheld
      exact Or.inr ⟨⟨cause, houtcome⟩, hheld⟩

/-- **The other document follows the main one, unless it is refused.** This is so after any requests
to a session whose runs to memory all write to these two paths. -/
theorem pairKept_replay {main joining : String} (hne : main ≠ joining) (disk : Disk)
    (time : Calendar.Instant) {requests : List Request}
    (h : ∀ r ∈ requests, r.WritesTo main joining) :
    PairKept main joining (Session.replay (.start disk time) requests).1.memory
      (Session.replay (.start disk time) requests).2 :=
  (Accounted.start.foldl_ask hne h).pairKept

/-- The source of a snapshot for which lines are joined. -/
def joinedFrom (start : String) : Source :=
  .ofList [("MULTILINE_START_STATE_RULE", start)]

/-- A run without a plugin to two files that are kept in memory. -/
def runInMemory : Request :=
  .generate { main := "out.conf", joining := "joining.conf", plugin? := none } .memory

/-- Two runs for two snapshots, of which the second is refused the other document. -/
def secondRefused : List Request :=
  [.useSource (joinedFrom "^x"), runInMemory, .useSource (joinedFrom "^y"),
    .refuse "joining.conf" "disk full", runInMemory]

/-- The main document is then of the second snapshot, and the other one still of the first. -/
theorem pairKept_secondRefused :
    "out.conf" ≠ "joining.conf" ∧
      (∀ r ∈ secondRefused, r.WritesTo "out.conf" "joining.conf") ∧
      PairKept "out.conf" "joining.conf" (Session.fresh.replay secondRefused).1.memory
        (Session.fresh.replay secondRefused).2 ∧
      (Session.fresh.replay secondRefused).1.memory.held? "out.conf" =
        some (Settings.ofSource (joinedFrom "^y")).documents.main ∧
      (Session.fresh.replay secondRefused).1.memory.held? "joining.conf" =
        (Settings.ofSource (joinedFrom "^x")).documents.joining? := by
  have hne : "out.conf" ≠ "joining.conf" := by decide
  have hrequests : ∀ r ∈ secondRefused, r.WritesTo "out.conf" "joining.conf" := by
    simp [secondRefused, runInMemory, Request.WritesTo]
  exact ⟨hne, hrequests, pairKept_replay hne _ _ hrequests, rfl, rfl⟩

/-- One run that is refused the other document. -/
def firstRefused : List Request :=
  [.useSource (joinedFrom "^x"), .refuse "joining.conf" "disk full", runInMemory]

/-- The main document names a parser then, and nothing is where the parser should be. -/
theorem namesParser_firstRefused :
    ∃ c, (Settings.ofSource (joinedFrom "^x")).compile = .ok c ∧ c.NamesParser ∧
      (Session.fresh.replay firstRefused).1.memory.held? "out.conf" = some c.main ∧
      (Session.fresh.replay firstRefused).1.memory.held? "joining.conf" = none := by
  have hvalid : (Settings.ofSource (joinedFrom "^x")).violations = [] := by decide
  have hparser := (Settings.ofSource (joinedFrom "^x")).namesParser_iff.mpr (by decide)
  exact ⟨_, Settings.compile_of_valid hvalid, hparser, rfl, rfl⟩

end LogShipper
