import LogShipper.Proofs.JoiningDocument
import Mathlib.Logic.Relation

/-!
# Closed chains

The rules of a chain name the states that they lead to, and a name may be anybody's: the engine does
not complain about a state that no rule has, or about one that is never entered. In a chain made
from settings neither happens. There is one rule for the start and one for each continuation pattern
that is not blank; blanks and separators alone are no continuations, and then the start is the end.
-/

namespace LogShipper

namespace JoiningRule

/-- A rule leads from one state to another. -/
def Leads (rules : List JoiningRule) (a b : String) : Prop :=
  ∃ r ∈ rules, r.state = a ∧ r.next? = some b

/-- The rules are those for a start pattern and for pieces of a list of continuations, and they are
closed as the transitions of a machine that begins in its start state. -/
structure ClosedChain (startPattern : String) (pieces : List String)
    (rules : List JoiningRule) : Prop where
  nil_iff : rules = [] ↔ startPattern = ""
  length_eq : startPattern ≠ "" → rules.length = 1 + pieces.length
  /-- The start pattern is not trimmed. -/
  first : ∀ r, rules.head? = some r →
    r.state = "start_state" ∧ r.pattern = "/" ++ startPattern ++ "/" ∧
      (0 < pieces.length → r.next? = some "cont") ∧ (pieces.length = 0 → r.next? = none)
  others : startPattern ≠ "" → rules.tail = pieces.map fun piece =>
    { state := "cont", pattern := Text.trimmed piece, next? := some "cont" }
  /-- Where a rule leads to there is a rule. -/
  named : ∀ r ∈ rules, ∀ next, r.next? = some next → ∃ r' ∈ rules, r'.state = next
  /-- Every rule is for a state that can be entered. -/
  reached : ∀ r ∈ rules, Relation.ReflTransGen (Leads rules) "start_state" r.state
  /-- The start is not entered again. -/
  start_unnamed : ∀ r ∈ rules, r.next? ≠ some "start_state"
  isLast_iff : ∀ r ∈ rules, r.isLast = true ↔ rules = [r]

/-! ## The two kinds of chains -/

section

variable {startPattern : String}

/-- There is nothing to close in an empty chain. -/
theorem closedChain_nil (pieces : List String) : ClosedChain "" pieces [] where
  nil_iff := iff_of_true rfl rfl
  length_eq h := absurd rfl h
  first := nofun
  others h := absurd rfl h
  named := nofun
  reached := nofun
  start_unnamed := nofun
  isLast_iff := nofun

/-- A start without continuations leads nowhere. -/
theorem closedChain_singleton (h : startPattern ≠ "") :
    ClosedChain startPattern [] [start startPattern none] where
  nil_iff := iff_of_false (List.cons_ne_nil _ _) h
  length_eq _ := rfl
  first r hr := by
    obtain rfl := Option.some.inj hr
    exact ⟨rfl, rfl, nofun, fun _ => rfl⟩
  others _ := rfl
  named r hr next hnext := by
    obtain rfl := List.mem_singleton.mp hr
    cases hnext
  reached r hr := by
    obtain rfl := List.mem_singleton.mp hr
    exact .refl
  start_unnamed r hr := by
    obtain rfl := List.mem_singleton.mp hr
    nofun
  isLast_iff r hr := by
    obtain rfl := List.mem_singleton.mp hr
    exact iff_of_true rfl rfl

/-- The rules of a start with continuations. -/
def looped (startPattern : String) (pieces : List String) : List JoiningRule :=
  start startPattern (some continuationState) ::
    pieces.map fun piece => continuation (Text.trimmed piece)

variable {pieces : List String}

/-- Every rule of such a chain leads to the state of continuations. -/
theorem next?_of_mem_looped {r : JoiningRule} (hr : r ∈ looped startPattern pieces) :
    r.next? = some continuationState := by
  rcases List.mem_cons.mp hr with rfl | hrest
  · rfl
  · obtain ⟨piece, -, rfl⟩ := List.mem_map.mp hrest
    rfl

/-- With a continuation there is a rule for that state, and the start leads to it. -/
theorem closedChain_looped (h : startPattern ≠ "") (hne : pieces ≠ []) :
    ClosedChain startPattern pieces (looped startPattern pieces) where
  nil_iff := iff_of_false (List.cons_ne_nil _ _) h
  length_eq _ := by
    rw [looped, List.length_cons, List.length_map, Nat.add_comm]
  first r hr := by
    obtain rfl := Option.some.inj hr
    exact ⟨rfl, rfl, fun _ => rfl, fun hlen => absurd (List.length_eq_zero_iff.mp hlen) hne⟩
  others _ := rfl
  named r hr next hnext := by
    obtain ⟨piece, hpiece⟩ := List.exists_mem_of_ne_nil pieces hne
    obtain rfl := Option.some.inj ((next?_of_mem_looped hr).symm.trans hnext)
    exact ⟨_, List.mem_cons_of_mem _ (List.mem_map_of_mem hpiece), rfl⟩
  reached r hr := by
    rcases List.mem_cons.mp hr with rfl | hrest
    · exact .refl
    · obtain ⟨piece, -, rfl⟩ := List.mem_map.mp hrest
      exact .single ⟨_, List.mem_cons_self, rfl, rfl⟩
  start_unnamed r hr := by
    rw [next?_of_mem_looped hr]
    decide
  isLast_iff r hr := by
    constructor
    · intro hlast
      rw [isLast, next?_of_mem_looped hr] at hlast
      cases hlast
    · intro hsingle
      have hlen := congrArg List.length hsingle
      rw [looped, List.length_cons, List.length_map, List.length_singleton,
        Nat.add_eq_right] at hlen
      exact absurd (List.length_eq_zero_iff.mp hlen) hne

end

end JoiningRule

open JoiningRule in
/-- **The chain of rules is a closed machine.** For every snapshot it is made of the start pattern
and of the pieces of the list of continuations that are not blank; it names no state that it does
not have, has none that is not reached, and ends only where the start stands alone. -/
theorem closedChain_joiningRules (s : Settings) :
    ClosedChain (s.value .joinStart)
      ((Text.splitPieces ';' (s.value .joinContinuations)).filter
        fun piece => ¬ piece.toList.all Text.isBlank)
      s.joiningRules := by
  generalize hpieces : (Text.splitPieces ';' (s.value .joinContinuations)).filter
    (fun piece => ¬ piece.toList.all Text.isBlank) = pieces
  have hentries : Text.splitEntries ';' (s.value .joinContinuations) = pieces.map Text.trimmed := by
    rw [Text.splitEntries_eq_map_filter, hpieces]
  by_cases hstart : s.value .joinStart = ""
  · rw [s.joiningRules_eq_nil_iff.mpr hstart, hstart]
    exact closedChain_nil pieces
  · rw [Settings.joiningRules, chain_eq hstart, hentries]
    cases pieces with
    | nil => exact closedChain_singleton hstart
    | cons piece rest =>
        rw [if_neg (by simp), List.map_map]
        exact closedChain_looped hstart (List.cons_ne_nil _ _)

/-- A list of blanks and separators gives no continuation. -/
example :
    (Settings.ofSource (.ofList [("MULTILINE_START_STATE_RULE", " x "),
      ("MULTILINE_CUSTOM_RULES", ";; \t ;")])).joiningRules =
      [{ state := "start_state", pattern := "/ x /", next? := none }] := by
  decide

end LogShipper
