import LogShipper.Proofs.AnyHost

/-!
# Hosts that follow others

Much of what a host does makes no difference to what is of interest about a run. A view of the
host's state may be left alone by all but some of its actions, or it may be all that these depend
on: then the host follows another one, whose state is the view. A run cannot tell the difference.
So to see what a run asks to be written it is put on a host that does what its own host does and
takes note of every write beside that.
-/

namespace LogShipper

/-! ## What a host leaves alone -/

/-- Neither looking for plugins nor the time nor notes change what the view shows. -/
structure Host.Idle {σ γ : Type} (host : Host (StateM σ)) (view : σ → γ) : Prop where
  probe : ∀ path st, view ((host.probe path).run st).run.2 = view st
  now : ∀ st, view (host.now.run st).run.2 = view st
  note : ∀ e st, view ((host.note e).run st).run.2 = view st

namespace Host.Idle

variable {σ γ : Type} {host : Host (StateM σ)} {view : σ → γ} (hidle : host.Idle view)

include hidle

theorem view_noted (e : Event) (st : σ) : view (host.noted e st) = view st :=
  hidle.note e st

/-- All that compiling does to a host is to have it count. -/
theorem view_compiled (s : Settings) (st : σ) :
    view (host.compiled s st) = view (host.countValidation.run st).run.2 := by
  have hnotes : ∀ (events : List Event) (st : σ),
      view (events.foldl (fun st e => host.noted e st) st) = view st := by
    intro events
    induction events with
    | nil => exact fun _ => rfl
    | cons e es ih => exact fun st => (ih _).trans (hidle.view_noted e st)
  unfold compiled
  dsimp only
  split
  · exact hnotes _ _
  · rfl

theorem view_lookForPlugin (targets : Targets) (st : σ) :
    view (runFrom (host.lookForPlugin targets) st).2 = view st := by
  rw [host.runFrom_lookForPlugin]
  cases targets.plugin? with
  | none => rfl
  | some path =>
      have hprobe := hidle.probe path st
      dsimp only
      rw [host.runFrom_requirePlugin]
      rcases hfound : ((host.probe path).run st).run with ⟨cause | _, st'⟩
      · rw [hfound] at hprobe
        exact hprobe
      · rw [hfound] at hprobe
        exact (hidle.view_noted _ st').trans hprobe

theorem view_reported (s : Settings) (c : Compiled) (docs : WriteLog) (st : σ) :
    view (host.reported st s c docs).2 = view st :=
  (hidle.now _).trans (hidle.view_noted _ st)

end Host.Idle

/-! ## Actions that are seen through a view -/

/-- What an action answers, and what the view shows afterwards, is a function of what the view shows
before. -/
def Acts {σ γ α : Type} (view : σ → γ) (act : StateM σ α) (h : γ → α × γ) : Prop :=
  ∀ st, ((act.run st).run.1, view (act.run st).run.2) = h (view st)

namespace Acts

variable {σ γ α β : Type} {view : σ → γ}

theorem pure (a : α) : Acts view (Pure.pure a : StateM σ α) fun c => (a, c) :=
  fun _ => rfl

theorem bind {act : StateM σ α} {next : α → StateM σ β} {h : γ → α × γ} {k : α → γ → β × γ}
    (hact : Acts view act h) (hnext : ∀ a, Acts view (next a) (k a)) :
    Acts view (act >>= next) fun c => k (h c).1 (h c).2 := by
  intro st
  have hstep := hact st
  have hrest := hnext (act.run st).run.1 (act.run st).run.2
  dsimp only
  rw [← hstep]
  exact hrest

theorem congr {act : StateM σ α} {h h' : γ → α × γ} (hact : Acts view act h)
    (heq : ∀ c, h c = h' c) : Acts view act h' :=
  fun st => (hact st).trans (heq _)

end Acts

/-! ## Hosts that follow others -/

/-- A host follows another one if a view of its state is all that matters, and shows what the other
one makes of it. -/
structure Host.Follows {σ σ' : Type} (host' : Host (StateM σ')) (host : Host (StateM σ))
    (view : σ' → σ) : Prop where
  probe : ∀ path, Acts view (host'.probe path) (host.probe path).run
  write : ∀ path text, Acts view (host'.write path text) (host.write path text).run
  now : Acts view host'.now host.now.run
  note : ∀ e, Acts view (host'.note e) (host.note e).run
  countValidation : Acts view host'.countValidation host.countValidation.run

namespace Host.Follows

variable {σ σ' : Type} {host' : Host (StateM σ')} {host : Host (StateM σ)} {view : σ' → σ}
  (hfollows : host'.Follows host view)

include hfollows

theorem view_noted (e : Event) (st : σ') : view (host'.noted e st) = host.noted e (view st) :=
  congrArg Prod.snd (hfollows.note e st)

theorem view_compiled (s : Settings) (st : σ') :
    view (host'.compiled s st) = host.compiled s (view st) := by
  have hcount : view (host'.countValidation.run st).run.2 =
      (host.countValidation.run (view st)).run.2 := congrArg Prod.snd (hfollows.countValidation st)
  unfold compiled
  dsimp only
  rw [← hcount]
  split
  · exact (List.foldl_hom view fun st e => (hfollows.view_noted e st).symm).symm
  · rfl

theorem acts_wrote (docs : WriteLog) (st : σ') :
    ((host'.wrote docs st).1, view (host'.wrote docs st).2) = host.wrote docs (view st) := by
  induction docs generalizing st with
  | nil => rfl
  | cons d ds ih =>
      have hwrite := hfollows.write d.1 d.2 st
      rw [wrote, wrote]
      rw [show ((host.write d.1 d.2).run (view st)).run = _ from hwrite.symm]
      rcases ((host'.write d.1 d.2).run st).run with ⟨cause | _, st'⟩
      · rfl
      · dsimp only
        rw [ih, hfollows.view_noted]

theorem acts_lookForPlugin (targets : Targets) :
    Acts view (host'.lookForPlugin targets).run (runFrom (host.lookForPlugin targets)) := by
  intro st
  show ((runFrom _ st).1, view (runFrom _ st).2) = _
  rw [host'.runFrom_lookForPlugin, host.runFrom_lookForPlugin]
  cases targets.plugin? with
  | none => rfl
  | some path =>
      dsimp only
      rw [host'.runFrom_requirePlugin, host.runFrom_requirePlugin]
      rw [show ((host.probe path).run (view st)).run = _ from (hfollows.probe path st).symm]
      rcases ((host'.probe path).run st).run with ⟨cause | _, st'⟩
      · rfl
      · exact congrArg (Prod.mk _) (hfollows.view_noted _ st')

theorem acts_compile (s : Settings) :
    Acts view (host'.compile s).run (runFrom (host.compile s)) := by
  intro st
  show ((runFrom _ st).1, view (runFrom _ st).2) = _
  rw [host'.runFrom_compile, host.runFrom_compile, hfollows.view_compiled]

theorem acts_produce (s : Settings) (targets : Targets) :
    Acts view (host'.produce s targets).run (runFrom (host.produce s targets)) := by
  intro st
  show ((runFrom _ st).1, view (runFrom _ st).2) = _
  rw [host'.runFrom_produce, host.runFrom_produce, ← hfollows.view_compiled]
  cases s.compile with
  | error c => rfl
  | ok c =>
      dsimp only
      rw [← hfollows.acts_wrote]
      rcases host'.wrote (c.placed targets) (host'.compiled s st) with ⟨_ | fault, st'⟩
      · have hnow := hfollows.now (host'.noted (.generated (c.placed targets).length) st')
        dsimp only [reported]
        rw [← hfollows.view_noted]
        rw [show (host.now.run (view _)).run = _ from hnow.symm]
      · rfl

/-- **A run follows its host.** What it comes to on the one host is what it comes to on the
other. -/
theorem acts_generate (s : Settings) (targets : Targets) :
    Acts view (host'.generate s targets).run (runFrom (host.generate s targets)) := by
  intro st
  have hlook : ((runFrom (host'.lookForPlugin targets) st).1,
      view (runFrom (host'.lookForPlugin targets) st).2) =
      runFrom (host.lookForPlugin targets) (view st) := hfollows.acts_lookForPlugin targets st
  show ((runFrom _ st).1, view (runFrom _ st).2) = _
  rw [host'.runFrom_generate, host.runFrom_generate, ← hlook]
  rcases runFrom (host'.lookForPlugin targets) st with ⟨fault | _, st'⟩
  · rfl
  · exact hfollows.acts_produce s targets st'

end Host.Follows

/-! ## Noted writes -/

/-- An action, with something beside its state that it leaves alone. -/
def beside {σ ω α : Type} (act : StateM σ α) : StateM (σ × ω) α :=
  fun st => pure ((act.run st.1).run.1, ((act.run st.1).run.2, st.2))

namespace Host

variable {σ : Type} (host : Host (StateM σ))

/-- The same host, but every write that it is asked for is noted beside its state. -/
def noting : Host (StateM (σ × WriteLog)) where
  probe path := beside (host.probe path)
  write path text := fun st => beside (host.write path text) (st.1, st.2 ++ [(path, text)])
  now := beside host.now
  note e := beside (host.note e)
  countValidation := beside host.countValidation

/-- A run does not notice that its writes are noted. -/
theorem follows_noting : host.noting.Follows host Prod.fst where
  probe _ _ := rfl
  write _ _ _ := rfl
  now _ := rfl
  note _ _ := rfl
  countValidation _ := rfl

theorem idle_noting : host.noting.Idle Prod.snd where
  probe _ _ := rfl
  now _ := rfl
  note _ _ := rfl

/-- Nothing is asked to be written of a snapshot that breaks a rule. -/
theorem noted_of_broken {s : Settings} (hbroken : s.violations ≠ []) (targets : Targets)
    (st : σ × WriteLog) : (runFrom (host.noting.generate s targets) st).2.2 = st.2 := by
  have hlook := host.idle_noting.view_lookForPlugin targets st
  rw [host.noting.runFrom_generate]
  rcases hrun : runFrom (host.noting.lookForPlugin targets) st with ⟨fault | _, ready⟩
  · rw [hrun] at hlook
    exact hlook
  · rw [hrun] at hlook
    dsimp only
    rw [host.noting.runFrom_produce, Settings.compile_of_broken hbroken]
    exact (host.idle_noting.view_compiled s ready).trans hlook

end Host

end LogShipper
