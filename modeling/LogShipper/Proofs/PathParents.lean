import LogShipper.Disk.Basic
import Mathlib.Data.List.TakeWhile

/-!
# Steps of paths and of their parents

A parent is found on the text of a path: its last part is taken off, with the slashes and single
dots around it. For paths whose steps are names this takes off the last step, and the text that is
left is no longer than before. So what the system can take of a path it can take of all above it.
-/

namespace LogShipper.Path

/-- A step is a name that the system can take. -/
structure IsName (step : String) : Prop where
  ne_dot : step ≠ "."
  ne_back : step ≠ ".."
  no_nul : '\x00' ∉ step.toList
  size_le : step.utf8ByteSize ≤ Disk.maxNameSize

instance : DecidablePred IsName := fun step =>
  decidable_of_iff
    (step ≠ "." ∧ step ≠ ".." ∧ '\x00' ∉ step.toList ∧ step.utf8ByteSize ≤ Disk.maxNameSize)
    ⟨fun ⟨hdot, hback, hnul, hsize⟩ => ⟨hdot, hback, hnul, hsize⟩,
      fun h => ⟨h.ne_dot, h.ne_back, h.no_nul, h.size_le⟩⟩

/-- All steps of a path are names, and its text is not too long. -/
structure Named (p : Path) : Prop where
  names : ∀ step ∈ p.steps, IsName step
  size_le : p.size ≤ Disk.maxPathSize

/-! ## What is taken off a path -/

theorem exists_idle_tail (pieces : List String) :
    ∃ tail, pieces = dropIdle pieces ++ tail ∧ ∀ piece ∈ tail, piece = "" ∨ piece = "." := by
  refine ⟨(pieces.reverse.takeWhile fun piece => piece = "" || piece = ".").reverse, ?_, ?_⟩
  · rw [dropIdle, ← List.reverse_append, List.takeWhile_append_dropWhile, List.reverse_reverse]
  · intro piece hpiece
    simpa using List.mem_takeWhile_imp (List.mem_reverse.mp hpiece)

theorem not_idle_of_getLast?_dropIdle {pieces : List String} {piece : String}
    (h : (dropIdle pieces).getLast? = some piece) : piece ≠ "" := by
  rw [dropIdle, List.getLast?_reverse] at h
  have hnot := List.head?_dropWhile_not (fun piece => piece = "" || piece = ".") pieces.reverse
  rw [h] at hnot
  rintro rfl
  cases hnot

/-- The first piece of a path from the working directory stays where it is. -/
theorem trimmed_cases (p : Path) :
    p.trimmed = { p with pieces := dropIdle p.pieces } ∨
      ∃ first rest, p.pieces = first :: rest ∧
        p.trimmed = { p with pieces := first :: dropIdle rest } := by
  unfold trimmed
  split
  · next first rest _ hpieces => exact Or.inr ⟨first, rest, hpieces, rfl⟩
  · exact Or.inl rfl

theorem absolute_trimmed (p : Path) : p.trimmed.absolute = p.absolute := by
  rcases p.trimmed_cases with h | ⟨first, rest, -, h⟩ <;> rw [h]

theorem exists_tail_trimmed (p : Path) :
    ∃ tail, p.pieces = p.trimmed.pieces ++ tail ∧ ∀ piece ∈ tail, piece = "" ∨ piece = "." := by
  rcases p.trimmed_cases with h | ⟨first, rest, hpieces, h⟩
  · rw [h]
    exact exists_idle_tail p.pieces
  · obtain ⟨tail, htail, hidle⟩ := exists_idle_tail rest
    refine ⟨tail, ?_, hidle⟩
    rw [h, hpieces, List.cons_append, ← htail]

theorem trimmed_begins (p : Path) : p.trimmed.pieces <+: p.pieces := by
  obtain ⟨tail, htail, -⟩ := p.exists_tail_trimmed
  exact ⟨tail, htail.symm⟩

/-- Without single dots among the steps, what is taken off holds no step. -/
theorem steps_trimmed {p : Path} (h : "." ∉ p.steps) : p.trimmed.steps = p.steps := by
  obtain ⟨tail, htail, hidle⟩ := p.exists_tail_trimmed
  have hnone : tail.filter (· ≠ "") = [] := by
    rw [List.filter_eq_nil_iff]
    intro piece hpiece hne
    rcases hidle piece hpiece with rfl | rfl
    · exact absurd rfl (of_decide_eq_true hne)
    · refine h (List.mem_filter.mpr ⟨?_, hne⟩)
      rw [htail]
      exact List.mem_append_right _ hpiece
  rw [steps, steps, htail, List.filter_append, hnone, List.append_nil]

/-- What is left of a path with steps ends with one of them. -/
theorem trailingSlash_trimmed {p : Path} (h : p.trimmed.steps ≠ []) :
    p.trimmed.trailingSlash = false := by
  rw [trailingSlash, decide_eq_false_iff_not]
  intro hlast
  rcases p.trimmed_cases with htrimmed | ⟨first, rest, -, htrimmed⟩
  · rw [htrimmed] at hlast
    exact not_idle_of_getLast?_dropIdle hlast rfl
  · rw [htrimmed] at hlast h
    rcases hrest : dropIdle rest with _ | ⟨piece, more⟩
    · rw [hrest] at hlast h
      obtain rfl : first = "" := Option.some.inj hlast
      exact h rfl
    · rw [hrest, List.getLast?_cons_cons, ← hrest] at hlast
      exact not_idle_of_getLast?_dropIdle hlast rfl

/-! ## Parents -/

theorem parent?_eq_of_trimmed {p : Path} {init : List String} {last : String}
    (h : p.trimmed.pieces = init ++ [last]) :
    p.parent? = some { p with pieces := init }.trimmed := by
  unfold parent?
  split
  · next hnil =>
    rw [hnil] at h
    cases List.append_ne_nil_of_right_ne_nil init (List.cons_ne_nil last []) h.symm
  · rw [h, List.dropLast_concat]

/-- The parent of a path without single dots takes all steps but the last. -/
theorem exists_parent {p : Path} {names : List String} {name : String} (hdot : "." ∉ p.steps)
    (hsteps : p.steps = names ++ [name]) :
    ∃ q, p.parent? = some q ∧ q.absolute = p.absolute ∧ q.steps = names ∧
      q.pieces <+: p.pieces := by
  have htrimmed := (steps_trimmed hdot).trans hsteps
  have hslash := trailingSlash_trimmed (p := p) (by simp [htrimmed])
  rcases List.eq_nil_or_concat p.trimmed.pieces with hnil | ⟨init, last, hlast⟩
  · rw [steps, hnil] at htrimmed
    cases List.append_ne_nil_of_right_ne_nil names (List.cons_ne_nil name []) htrimmed.symm
  · rw [List.concat_eq_append] at hlast
    have hne : last ≠ "" := by
      rw [trailingSlash, hlast, List.getLast?_concat, decide_eq_false_iff_not] at hslash
      exact fun h => hslash (congrArg some h)
    have hinit : init.filter (· ≠ "") = names := by
      have hkept : [last].filter (· ≠ "") = [last] := by simp [hne]
      rw [steps, hlast, List.filter_append, hkept] at htrimmed
      exact List.append_inj_left' htrimmed rfl
    have hdot' : "." ∉ ({ p with pieces := init } : Path).steps := by
      rw [steps, hinit]
      intro hmem
      rw [hsteps] at hdot
      exact hdot (List.mem_append_left _ hmem)
    refine ⟨_, parent?_eq_of_trimmed hlast, absolute_trimmed _, ?_, ?_⟩
    · rw [steps_trimmed hdot', steps, hinit]
    · have hbegins : init <+: p.trimmed.pieces := ⟨[last], hlast.symm⟩
      exact (trimmed_begins _).trans (hbegins.trans p.trimmed_begins)

/-- A path has no longer text than one that it begins. -/
theorem size_le_of_begins {p q : Path} (habsolute : q.absolute = p.absolute)
    (h : q.pieces <+: p.pieces) : q.size ≤ p.size := by
  obtain ⟨tail, htail⟩ := h
  have hjoined :
      ("/".intercalate q.pieces).utf8ByteSize ≤ ("/".intercalate p.pieces).utf8ByteSize := by
    rw [← htail]
    by_cases hq : q.pieces = []
    · rw [hq, String.intercalate_nil]
      exact Nat.zero_le _
    · by_cases ht : tail = []
      · rw [ht, List.append_nil]
      · rw [String.intercalate_append_of_ne_nil hq ht, String.utf8ByteSize_append,
          String.utf8ByteSize_append]
        omega
  rw [size, size, text, text, String.utf8ByteSize_append, String.utf8ByteSize_append, habsolute]
  omega

namespace Named

variable {p : Path} {names : List String} {name : String}

theorem dot_not_mem (h : p.Named) : "." ∉ p.steps :=
  fun hmem => (h.names "." hmem).ne_dot rfl

theorem names_above (h : p.Named) (hsteps : p.steps = names ++ [name]) :
    ∀ step ∈ names, IsName step := by
  have hnames := h.names
  rw [hsteps, List.forall_mem_append] at hnames
  exact hnames.1

/-- The system can take the parents of what it can take. -/
theorem exists_parent (h : p.Named) (hsteps : p.steps = names ++ [name]) :
    ∃ q, p.parent? = some q ∧ q.Named ∧ q.absolute = p.absolute ∧ q.steps = names := by
  obtain ⟨q, hparent, habsolute, hnames, hbegins⟩ := Path.exists_parent h.dot_not_mem hsteps
  have hsize := (size_le_of_begins habsolute hbegins).trans h.size_le
  exact ⟨q, hparent, ⟨hnames ▸ h.names_above hsteps, hsize⟩, habsolute, hnames⟩

end Named

end LogShipper.Path
