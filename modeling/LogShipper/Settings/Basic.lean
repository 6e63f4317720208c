import LogShipper.Settings.Name

/-!
# Snapshots of settings

A snapshot gives every setting a value. It is built in layers: the presets, and over them sources
that give values to some names. A value that is given counts even when it is empty.
-/

namespace LogShipper

/-- A source gives values to some names, known or not. -/
abbrev Source := String → Option String

namespace Source

/-- The source that gives nothing. -/
def empty : Source := fun _ => none

/-- The source of a list of names with values; the first value of a name counts. -/
def ofList (pairs : List (String × String)) : Source :=
  fun n => (pairs.find? (·.1 = n)).map (·.2)

end Source

/-- A snapshot: a value for every setting. -/
structure Settings where
  value : Setting → String

namespace Settings

@[ext] theorem ext {s t : Settings} (h : ∀ k, s.value k = t.value k) : s = t := by
  cases s
  cases t
  exact congrArg Settings.mk (funext h)

/-- The settings with their values, in the order of the catalogue. -/
def entries (s : Settings) : List (String × String) :=
  Setting.all.map fun k => (k.name, s.value k)

/-- The value under a name; there is none under a name that is not in the catalogue. -/
def valueOf? (s : Settings) (n : String) : Option String :=
  (Setting.ofName? n).map s.value

/-- The presets. -/
def presets : Settings :=
  ⟨Setting.preset⟩

/-- The snapshot under a source, whose values count before its own. -/
def overlay (s : Settings) (source : Source) : Settings :=
  ⟨fun k => (source k.name).getD (s.value k)⟩

/-- The presets under a source. -/
def ofSource (source : Source) : Settings :=
  presets.overlay source

/-- A start pattern is given, so that lines are joined. -/
def joinsLines (s : Settings) : Bool :=
  s.value .joinStart ≠ ""

instance : DecidableEq Settings := fun s t =>
  decidable_of_iff (∀ k ∈ Setting.all, s.value k = t.value k)
    ⟨fun h => Settings.ext fun k => h k (Setting.mem_all k), fun h _ _ => h ▸ rfl⟩

theorem valueOf?_name (s : Settings) (k : Setting) : s.valueOf? k.name = some (s.value k) := by
  simp [valueOf?, Setting.ofName?_name]

theorem value_overlay (s : Settings) (source : Source) (k : Setting) :
    (s.overlay source).value k = (source k.name).getD (s.value k) :=
  rfl

end Settings

end LogShipper
