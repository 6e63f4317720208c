import LogShipper.Proofs.DocumentPair
import LogShipper.Proofs.Following

/-!
# No way around validation

The program counts how often it validates. A snapshot is validated when that is asked for, when it
is compiled, and when a run gets as far as compiling it. Here any such operations are done one after
the other, each with a snapshot and surroundings of its own, and a record is kept of them. The count
is that of the record, whatever came of the operations, and nothing was compiled or asked to be
written that was not valid.
-/

namespace LogShipper

/-! ## Surroundings that count -/

/-- A host with a count that nothing but validating changes, and that by one. Otherwise the host is
free: files are there or not, and writes fail as it likes. -/
structure CountingHost {σ : Type} (count : σ → UInt32) where
  host : Host (StateM σ)
  idle : host.Idle count
  write : ∀ path text st, count ((host.write path text).run st).run.2 = count st
  validated : ∀ st, count (host.countValidation.run st).run.2 = count st + 1

namespace CountingHost

variable {σ : Type} {count : σ → UInt32} (around : CountingHost count)

theorem count_validate (s : Settings) (st : σ) :
    count (runFrom (around.host.validate s) st).2 = count st + 1 := by
  rw [around.host.runFrom_validate]
  exact around.validated st

theorem count_compiled (s : Settings) (st : σ) :
    count (around.host.compiled s st) = count st + 1 := by
  rw [around.idle.view_compiled, around.validated]

theorem count_compile (s : Settings) (st : σ) :
    count (runFrom (around.host.compile s) st).2 = count st + 1 := by
  rw [around.host.runFrom_compile]
  exact around.count_compiled s st

/-- Writing counts nothing, whatever comes of it. -/
theorem count_wrote (docs : WriteLog) (st : σ) :
    count (around.host.wrote docs st).2 = count st := by
  induction docs generalizing st with
  | nil => rfl
  | cons d ds ih =>
      have hwrite := around.write d.1 d.2 st
      rw [Host.wrote]
      rcases hrun : ((around.host.write d.1 d.2).run st).run with ⟨cause | _, st'⟩
      · rw [hrun] at hwrite
        exact hwrite
      · rw [hrun] at hwrite
        dsimp only at hwrite ⊢
        rw [ih, around.idle.view_noted, hwrite]

theorem count_produce (s : Settings) (targets : Targets) (st : σ) :
    count (runFrom (around.host.produce s targets) st).2 = count st + 1 := by
  rw [around.host.runFrom_produce]
  cases s.compile with
  | error c => exact around.count_compiled s st
  | ok c =>
      have hwrote := around.count_wrote (c.placed targets) (around.host.compiled s st)
      rw [around.count_compiled] at hwrote
      dsimp only
      rcases hrun : around.host.wrote (c.placed targets) (around.host.compiled s st) with
        ⟨_ | fault, st'⟩
      · rw [hrun] at hwrote
        exact (around.idle.view_reported s c _ st').trans hwrote
      · rw [hrun] at hwrote
        exact hwrote

/-- A run counts once if it has found its plugin, and else not at all. -/
theorem count_generate (s : Settings) (targets : Targets) (st : σ) :
    count (runFrom (around.host.generate s targets) st).2 =
      if (runFrom (around.host.lookForPlugin targets) st).1.isOk then count st + 1
      else count st := by
  have hlook := around.idle.view_lookForPlugin targets st
  rw [around.host.runFrom_generate]
  rcases hrun : runFrom (around.host.lookForPlugin targets) st with ⟨fault | _, ready⟩
  · rw [hrun] at hlook
    exact hlook
  · rw [hrun] at hlook
    exact (around.count_produce s targets ready).trans (congrArg (· + 1) hlook)

end CountingHost

/-! ## Operations and what they have done -/

/-- What is asked of the program, each time with surroundings of its own. -/
inductive Operation {σ : Type} (count : σ → UInt32) where
  | check (s : Settings)
  | validate (s : Settings) (around : CountingHost count)
  | compile (s : Settings) (around : CountingHost count)
  | generate (s : Settings) (targets : Targets) (around : CountingHost count)
  /-- The count is set to nothing. -/
  | reset (act : σ → σ) (h : ∀ st, count (act st) = 0)
  /-- Something else goes on: files come and go, or a destination begins to fail. -/
  | aside (act : σ → σ) (h : ∀ st, count (act st) = count st)

/-- An operation that was done, with its snapshot and what came of it. A run has looked for its
plugin, has asked for writes, and has come to an outcome. -/
inductive Done where
  | checked (s : Settings) (verdict : Verdict)
  | validated (s : Settings) (outcome : Except Conflict Unit)
  | compiled (s : Settings) (outcome : Except Conflict Compiled)
  | generated (s : Settings) (targets : Targets) (plugin : Except PluginFault Unit)
      (asked : WriteLog) (outcome : Except RunFault Report)
  | reset
  | aside

namespace Done

/-- The operation has validated its snapshot, whatever came of it. A run does so once it has its
plugin. -/
def validates : Done → Bool
  | .validated .. | .compiled .. => true
  | .generated _ _ plugin _ _ => plugin.isOk
  | .checked .. | .reset | .aside => false

def isReset : Done → Bool
  | .reset => true
  | _ => false

/-- Documents were made, and writes asked for, of a valid snapshot only. -/
def Gated : Done → Prop
  | .compiled s outcome => (∃ c, outcome = .ok c) → s.check.valid = true
  | .generated s _ _ asked _ => asked ≠ [] → s.check.valid = true
  | _ => True

/-- How many have validated since the last reset, of operations of which the latest is first. -/
def validations (past : List Done) : Nat :=
  (past.takeWhile fun d => !d.isReset).countP validates

theorem validations_cons (d : Done) (past : List Done) :
    validations (d :: past) =
      if d.isReset then 0 else if d.validates then validations past + 1 else validations past := by
  unfold validations
  cases hreset : d.isReset <;> cases hvalidates : d.validates <;> simp [hreset, hvalidates]

end Done

namespace Operation

variable {σ : Type} {count : σ → UInt32}

/-- Do an operation. A run is watched for its writes, which it does not notice. -/
def perform (st : σ) : Operation count → Done × σ
  | .check s => (.checked s s.check, st)
  | .validate s around =>
    let (outcome, st') := runFrom (around.host.validate s) st
    (.validated s outcome, st')
  | .compile s around =>
    let (outcome, st') := runFrom (around.host.compile s) st
    (.compiled s outcome, st')
  | .generate s targets around =>
    let (outcome, st', asked) := runFrom (around.host.noting.generate s targets) (st, [])
    (.generated s targets (runFrom (around.host.lookForPlugin targets) st).1 asked outcome, st')
  | .reset act _ => (.reset, act st)
  | .aside act _ => (.aside, act st)

/-- A state, and what was done on the way there, with one operation more. -/
def advance (at' : σ × List Done) (op : Operation count) : σ × List Done :=
  ((op.perform at'.1).2, (op.perform at'.1).1 :: at'.2)

/-- A state after operations, and what they have done, the latest first. -/
def performAll (st : σ) (ops : List (Operation count)) : σ × List Done :=
  ops.foldl advance (st, [])

/-- What one operation does to the count. -/
theorem count_perform (op : Operation count) (st : σ) :
    count (op.perform st).2 =
      if (op.perform st).1.isReset then 0
      else if (op.perform st).1.validates then count st + 1 else count st := by
  cases op with
  | check s => rfl
  | validate s around => exact around.count_validate s st
  | compile s around => exact around.count_compile s st
  | generate s targets around =>
      have hrun := congrArg Prod.snd
        (around.host.follows_noting.acts_generate s targets (st, []))
      exact (congrArg count hrun).trans (around.count_generate s targets st)
  | reset act h => exact h st
  | aside act h => exact h st

theorem gated_perform (op : Operation count) (st : σ) : (op.perform st).1.Gated := by
  have hvalid : ∀ s : Settings, s.violations = [] → s.check.valid = true :=
    fun s h => List.isEmpty_iff.mpr h
  cases op with
  | compile s around =>
      show (∃ c, (runFrom (around.host.compile s) st).1 = .ok c) → s.check.valid = true
      rw [around.host.runFrom_compile]
      rintro ⟨c, hc⟩
      exact hvalid s (Settings.compile_eq_ok_iff.mp hc).1
  | generate s targets around =>
      intro hasked
      by_cases hs : s.violations = []
      · exact hvalid s hs
      · exact absurd (around.host.noted_of_broken hs targets (st, [])) hasked
  | check | validate | reset | aside => trivial

end Operation

/-! ## Many operations -/

/-- The count is that of the validations since the last reset, as far as it can show their number,
and nothing came of a snapshot that is not valid. -/
structure Unbypassed (count : UInt32) (past : List Done) : Prop where
  counted : count.toNat = Done.validations past % UInt32.size
  compiled : ∀ s c, .compiled s (.ok c) ∈ past → s.check.valid = true
  written : ∀ s targets plugin asked outcome,
    .generated s targets plugin asked outcome ∈ past → asked ≠ [] → s.check.valid = true

namespace Unbypassed

variable {σ : Type} {count : σ → UInt32} {at' : σ × List Done}

theorem start {c : UInt32} (h : c = 0) : Unbypassed c [] where
  counted := by
    rw [h]
    rfl
  compiled _ _ hmem := nomatch hmem
  written _ _ _ _ _ hmem := nomatch hmem

theorem advance (h : Unbypassed (count at'.1) at'.2) (op : Operation count) :
    Unbypassed (count (Operation.advance at' op).1) (Operation.advance at' op).2 where
  counted := by
    unfold Operation.advance
    dsimp only
    rw [op.count_perform, Done.validations_cons]
    split
    · rfl
    · split
      · rw [UInt32.toNat_add, h.counted]
        exact Nat.mod_add_mod _ _ 1
      · exact h.counted
  compiled s c hmem := by
    rcases List.mem_cons.mp hmem with heq | hpast
    · have hgated := op.gated_perform at'.1
      rw [← heq] at hgated
      exact hgated ⟨c, rfl⟩
    · exact h.compiled s c hpast
  written s targets plugin asked outcome hmem := by
    rcases List.mem_cons.mp hmem with heq | hpast
    · have hgated := op.gated_perform at'.1
      rw [← heq] at hgated
      exact hgated
    · exact h.written s targets plugin asked outcome hpast

theorem foldl_advance (h : Unbypassed (count at'.1) at'.2) (ops : List (Operation count)) :
    Unbypassed (count (ops.foldl Operation.advance at').1) (ops.foldl Operation.advance at').2 := by
  induction ops generalizing at' with
  | nil => exact h
  | cons op ops ih =>
      rw [List.foldl_cons]
      exact ih (h.advance op)

end Unbypassed

/-! ## Sessions -/

namespace Session

/-- The surroundings that a session gives to runs. -/
def counting (destination : Destination) : CountingHost validations where
  host := host destination
  idle :=
    { probe := fun _ _ => rfl
      now := fun _ => rfl
      note := fun _ _ => rfl }
  write _ _ _ := by cases destination <;> rfl
  validated _ := rfl

/-- The operation that a request comes to in a session. -/
def operation (st : Session) : Request → Operation validations
  | .useSource source => .aside (fun st => ((answer (.useSource source)).run st).run.2) fun _ => rfl
  | .useText text =>
    .aside (fun st => ((answer (.useText text)).run st).run.2) fun st => by
      unfold answer
      dsimp only
      cases Settings.ofText text <;> rfl
  | .fingerprint => .aside (fun st => ((answer .fingerprint).run st).run.2) fun _ => rfl
  | .refuse path message =>
    .aside (fun st => ((answer (.refuse path message)).run st).run.2) fun _ => rfl
  | .accept path => .aside (fun st => ((answer (.accept path)).run st).run.2) fun _ => rfl
  | .resetCount => .reset (fun st => ((answer .resetCount).run st).run.2) fun _ => rfl
  | .check => .check st.settings
  | .validate => .validate st.settings (counting .memory)
  | .compile => .compile st.settings (counting .memory)
  | .generate targets destination => .generate st.settings targets (counting destination)

theorem perform_operation (st : Session) (r : Request) :
    ((st.operation r).perform st).2 = ((answer r).run st).run.2 := by
  cases r with
  | generate targets destination =>
      exact congrArg Prod.snd
        ((host destination).follows_noting.acts_generate st.settings targets (st, []))
  | _ => rfl

/-- The operations that requests come to, each in the session as it is then. -/
def operations (st : Session) : List Request → List (Operation validations)
  | [] => []
  | r :: rs => st.operation r :: operations ((answer r).run st).run.2 rs

theorem foldl_operations (requests : List Request) (st : Session) (runs : List PastRun)
    (past : List Done) :
    ((st.operations requests).foldl Operation.advance (st, past)).1 =
      (requests.foldl ask (st, runs)).1 := by
  induction requests generalizing st runs past with
  | nil => rfl
  | cons r rs ih =>
      have hnext : Operation.advance (st, past) (st.operation r) =
          ((ask (st, runs) r).1, ((st.operation r).perform st).1 :: past) := by
        rw [ask, ← perform_operation]
        rfl
      rw [operations, List.foldl_cons, List.foldl_cons, hnext]
      exact ih (ask (st, runs) r).1 (ask (st, runs) r).2 _

/-- A session that has just been started counts its validations, whatever is asked of it. -/
theorem unbypassed_replay (disk : Disk) (time : Calendar.Instant) (requests : List Request) :
    Unbypassed ((start disk time).replay requests).1.validations
      (Operation.performAll (start disk time) ((start disk time).operations requests)).2 := by
  rw [replay, ← foldl_operations requests (start disk time) [] []]
  exact (Unbypassed.start rfl).foldl_advance _

end Session

/-- **Validation cannot be bypassed.** Whatever is done from a count of nothing on, each time with
any snapshot and in any surroundings, the count is that of the validations since the last reset,
and nothing was compiled or asked to be written that is not valid. -/
theorem unbypassed_performAll {σ : Type} {count : σ → UInt32} {st : σ} (hstart : count st = 0)
    (ops : List (Operation count)) :
    Unbypassed (count (Operation.performAll st ops).1) (Operation.performAll st ops).2 :=
  (Unbypassed.start hstart).foldl_advance ops

/-- Two settings that clash. -/
def clashing : Settings :=
  .ofSource (.ofList [("INCLUDE_LINE", "a"), ("EXCLUDE_LINES", "b")])

/-- A run to one file that looks for no plugin. -/
def toOneFile : Targets :=
  { main := "out.conf", joining := "joining.conf", plugin? := none }

/-- A count is set to nothing. Behind that two settings clash three times, a run misses its plugin,
and another one is refused its file. -/
def mixedOperations : List (Operation Session.validations) :=
  [.compile .presets (Session.counting .memory),
    .reset (fun st => { st with validations := 0 }) fun _ => rfl,
    .check clashing,
    .validate clashing (Session.counting .memory),
    .generate .presets .usual (Session.counting .disk),
    .aside (fun st => { st with memory := st.memory.refuse "out.conf" "disk full" }) fun _ => rfl,
    .generate .presets toOneFile (Session.counting .memory),
    .generate clashing toOneFile (Session.counting .memory),
    .compile clashing (Session.counting .disk)]

theorem unbypassed_mixedOperations :
    Session.fresh.validations = 0 ∧
      Unbypassed (Operation.performAll Session.fresh mixedOperations).1.validations
        (Operation.performAll Session.fresh mixedOperations).2 ∧
      (Operation.performAll Session.fresh mixedOperations).1.validations = 4 := by
  have hstart : Session.validations Session.fresh = 0 := rfl
  exact ⟨hstart, unbypassed_performAll hstart mixedOperations, rfl⟩

end LogShipper
