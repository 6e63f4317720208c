import LogShipper.Proofs.Slots
import LogShipper.Proofs.Written

/-!
# Effective views

What the main document shows of a snapshot: some values as they are, and for others only what is
left of them when they are trimmed, cut into pieces, or ruled out by another setting. The view is
said from the settings alone. It is the same thing as a list of texts for each slot, and it
determines the sections of the document.
-/

namespace LogShipper

/-- What the main document shows of a snapshot. -/
@[ext] structure EffectiveView where
  logLevel : String
  logsPath : String
  readFromHead? : Option String
  ignoreOlder : String
  selection? : Subject → Option Selection
  additions : List String
  replacements : List String
  logsToken : String
  listenerUrl : String
  streamType : String
  outputId : String
  headers : String

namespace Settings

/-- What is shown of the two settings for a subject: the pattern that is given, without the blanks
around it, or else the exclusions, if there are any. -/
def shownSelection? (s : Settings) (subject : Subject) : Option Selection :=
  if s.value subject.matchSetting ≠ "" then
    some (.matching (Text.trimmed (s.value subject.matchSetting)))
  else if exclusions (s.value subject.skipSetting) ≠ [] then
    some (.excluding (exclusions (s.value subject.skipSetting)))
  else none

/-- The effective view of a snapshot. Where reading starts is shown only when lines are joined. -/
def view (s : Settings) : EffectiveView :=
  { logLevel := s.value .logLevel
    logsPath := s.value .logsPath
    readFromHead? := if s.value .joinStart ≠ "" then some (s.value .readFromHead) else none
    ignoreOlder := s.value .ignoreOlder
    selection? := s.shownSelection?
    additions := directiveTexts (s.value .additionalFields)
    replacements := directiveTexts (s.value .setFields)
    logsToken := s.value .logsToken
    listenerUrl := s.value .listenerUrl
    streamType := s.value .streamType
    outputId := s.value .outputId
    headers := s.value .headers }

end Settings

/-! ## Views as texts at slots -/

namespace EffectiveView

/-- The pattern of a selection, if it is by one. -/
def patternOf : Option Selection → List String
  | some (.matching pattern) => [pattern]
  | _ => []

/-- The exclusions of a selection. -/
def exclusionsOf : Option Selection → List String
  | some (.excluding patterns) => patterns
  | _ => []

/-- The texts that a view gives each slot. An empty age or header line is not written. -/
def texts (v : EffectiveView) : Slot → List String
  | .logLevel => [v.logLevel]
  | .logsPath => [v.logsPath]
  | .readFromHead => v.readFromHead?.toList
  | .ignoreOlder => if v.ignoreOlder = "" then [] else [v.ignoreOlder]
  | .pattern subject => patternOf (v.selection? subject)
  | .exclusion subject => exclusionsOf (v.selection? subject)
  | .addition => v.additions
  | .replacement => v.replacements
  | .logsToken => [v.logsToken]
  | .listenerUrl => [v.listenerUrl]
  | .streamType => [v.streamType]
  | .outputId => [v.outputId]
  | .headers => if v.headers = "" then [] else [v.headers]

/-- Exclusions are selected by only when there are some. -/
def Proper (v : EffectiveView) : Prop :=
  ∀ subject, v.selection? subject ≠ some (.excluding [])

/-- A selection that is not by an empty list of exclusions is known by its texts. -/
theorem selection_eq_of_texts {a b : Option Selection} (ha : a ≠ some (.excluding []))
    (hb : b ≠ some (.excluding [])) (hpattern : patternOf a = patternOf b)
    (hexclusions : exclusionsOf a = exclusionsOf b) : a = b := by
  rcases a with _ | ⟨p⟩ | ⟨_ | ⟨p, ps⟩⟩ <;> rcases b with _ | ⟨q⟩ | ⟨_ | ⟨q, qs⟩⟩ <;>
    simp_all [patternOf, exclusionsOf]

theorem eq_of_ite_eq {a b : String}
    (h : (if a = "" then [] else [a]) = if b = "" then [] else [b]) : a = b := by
  by_cases ha : a = "" <;> by_cases hb : b = "" <;> simp_all

/-- **A view is known by its texts.** -/
theorem eq_of_texts_eq {v w : EffectiveView} (hv : v.Proper) (hw : w.Proper)
    (h : v.texts = w.texts) : v = w := by
  have hslot : ∀ p, v.texts p = w.texts p := fun p => congrFun h p
  have hhead : v.readFromHead?.toList = w.readFromHead?.toList := hslot .readFromHead
  have hselection : v.selection? = w.selection? := funext fun subject =>
    selection_eq_of_texts (hv subject) (hw subject) (hslot (.pattern subject))
      (hslot (.exclusion subject))
  ext1
  · exact List.head_eq_of_cons_eq (hslot .logLevel)
  · exact List.head_eq_of_cons_eq (hslot .logsPath)
  · simpa using congrArg List.head? hhead
  · exact eq_of_ite_eq (hslot .ignoreOlder)
  · exact hselection
  · exact hslot .addition
  · exact hslot .replacement
  · exact List.head_eq_of_cons_eq (hslot .logsToken)
  · exact List.head_eq_of_cons_eq (hslot .listenerUrl)
  · exact List.head_eq_of_cons_eq (hslot .streamType)
  · exact List.head_eq_of_cons_eq (hslot .outputId)
  · exact eq_of_ite_eq (hslot .headers)

end EffectiveView

namespace Settings

theorem view_proper (s : Settings) : s.view.Proper := by
  intro subject h
  have h : s.shownSelection? subject = some (.excluding []) := h
  unfold shownSelection? at h
  by_cases hmatch : s.value subject.matchSetting ≠ ""
  · rw [if_pos hmatch] at h
    exact Selection.noConfusion (Option.some.inj h)
  · rw [if_neg hmatch] at h
    by_cases hskip : exclusions (s.value subject.skipSetting) ≠ []
    · rw [if_pos hskip] at h
      exact hskip (Selection.excluding.inj (Option.some.inj h))
    · rw [if_neg hskip] at h
      cases h

/-! ## The document of a view -/

/-- The rules for a subject are those of its selection in the view. -/
theorem rulesFor_eq_view (s : Settings) (subject : Subject) :
    s.rulesFor subject = (s.view.selection? subject).elim [] Selection.rules := by
  show s.rulesFor subject = (s.shownSelection? subject).elim [] Selection.rules
  unfold rulesFor shownSelection?
  by_cases hmatch : s.value subject.matchSetting ≠ ""
  · rw [if_pos hmatch, if_pos hmatch]
    rfl
  · rw [if_neg hmatch, if_neg hmatch]
    by_cases hskip : exclusions (s.value subject.skipSetting) ≠ []
    · rw [if_pos hskip]
      rfl
    · rw [if_neg hskip, not_not.mp hskip]
      rfl

theorem joinsLines_eq_view (s : Settings) : s.joinsLines = s.view.readFromHead?.isSome := by
  unfold joinsLines view
  by_cases h : s.value .joinStart ≠ "" <;> simp [h]

/-- Where reading starts is the same for two snapshots with one view that join lines. -/
theorem readFromHead_eq_of_view_eq {s t : Settings} (h : s.view = t.view)
    (hs : s.joinsLines = true) : s.value .readFromHead = t.value .readFromHead := by
  have ht : t.joinsLines = true := by rw [joinsLines_eq_view, ← h, ← joinsLines_eq_view, hs]
  have hhead : s.view.readFromHead? = t.view.readFromHead? := congrArg _ h
  unfold view at hhead
  unfold joinsLines at hs ht
  rw [if_pos (of_decide_eq_true hs), if_pos (of_decide_eq_true ht)] at hhead
  exact Option.some.inj hhead

theorem input_eq_of_view_eq {s t : Settings} (h : s.view = t.view) :
    Blocks.input s = Blocks.input t := by
  have hpath : s.value .logsPath = t.value .logsPath := congrArg EffectiveView.logsPath h
  have hage : s.value .ignoreOlder = t.value .ignoreOlder := congrArg EffectiveView.ignoreOlder h
  have hjoins : s.joinsLines = t.joinsLines := by
    rw [joinsLines_eq_view, h, ← joinsLines_eq_view]
  rw [Blocks.input_eq, Blocks.input_eq, hpath, hage]
  by_cases hs : s.joinsLines = true
  · rw [readFromHead_eq_of_view_eq h hs, hjoins]
  · have ht : ¬ t.joinsLines = true := hjoins ▸ hs
    rw [if_neg hs, if_neg ht]

/-- **Nothing but the view is in the document.** Snapshots with one view have the same sections. -/
theorem sections_eq_of_view_eq {s t : Settings} (h : s.view = t.view) :
    s.sections = t.sections := by
  have hfilter : ∀ subject, s.filter? subject = t.filter? subject := fun subject => by
    rw [filter?_eq_ite, filter?_eq_ite, rulesFor_eq_view, rulesFor_eq_view, h]
  have hadd : directiveTexts (s.value .additionalFields) =
      directiveTexts (t.value .additionalFields) := congrArg EffectiveView.additions h
  have hset : directiveTexts (s.value .setFields) = directiveTexts (t.value .setFields) :=
    congrArg EffectiveView.replacements h
  have hfields : (FieldChanges.ofSettings s).sections = (FieldChanges.ofSettings t).sections := by
    simp only [FieldChanges.sections_ofSettings, FieldChanges.block?_eq_ite, hadd, hset]
  have hservice : Blocks.service s = Blocks.service t := by
    have hlevel : s.value .logLevel = t.value .logLevel := congrArg EffectiveView.logLevel h
    rw [Blocks.service, hlevel]
    rfl
  have houtput : Blocks.output s = Blocks.output t := by
    have htoken : s.value .logsToken = t.value .logsToken := congrArg EffectiveView.logsToken h
    have hurl : s.value .listenerUrl = t.value .listenerUrl := congrArg EffectiveView.listenerUrl h
    have htype : s.value .streamType = t.value .streamType := congrArg EffectiveView.streamType h
    have hid : s.value .outputId = t.value .outputId := congrArg EffectiveView.outputId h
    have hheaders : s.value .headers = t.value .headers := congrArg EffectiveView.headers h
    rw [Blocks.output, htoken, hurl, htype, hid, hheaders]
    rfl
  rw [sections, sections, nameFilters_eq_ite, nameFilters_eq_ite, hservice, houtput, hfields,
    input_eq_of_view_eq h, hfilter, hfilter, hfilter]

/-! ## The characters of a view -/

theorem mem_of_mem_directiveTexts {list t : String} {c : Char} (ht : t ∈ directiveTexts list)
    (hc : c ∈ t.toList) : c = ' ' ∨ c ∈ list.toList := by
  obtain ⟨piece, hpiece, htext⟩ := List.mem_filterMap.mp ht
  have hkey := (List.takeWhile_sublist (l := piece.toList) (· ≠ ':')).subset
  have hvalue := ((List.tail_sublist _).trans
    (List.dropWhile_sublist (l := piece.toList) (· ≠ ':'))).subset
  have hpiece : c ∈ piece.toList → c ∈ list.toList := Text.mem_of_mem_splitPieces hpiece
  unfold directiveText? at htext
  split at htext
  · obtain rfl := Option.some.inj htext
    simp only [String.toList_append, List.mem_append, Text.trimmed, String.toList_ofList] at hc
    rcases hc with (hc | hblank) | hc
    · exact Or.inr (hpiece (hkey (Text.mem_of_mem_trim hc)))
    · exact Or.inl (List.mem_singleton.mp hblank)
    · exact Or.inr (hpiece (hvalue (Text.mem_of_mem_trim hc)))
  · cases htext

theorem mem_of_mem_shownSelection {s : Settings} {subject : Subject} {t : String} {c : Char}
    (ht : t ∈ EffectiveView.patternOf (s.shownSelection? subject) ++
      EffectiveView.exclusionsOf (s.shownSelection? subject)) (hc : c ∈ t.toList) :
    ∃ k, c ∈ (s.value k).toList := by
  unfold shownSelection? at ht
  by_cases hmatch : s.value subject.matchSetting ≠ ""
  · rw [if_pos hmatch] at ht
    have heq : t = Text.trimmed (s.value subject.matchSetting) := List.mem_singleton.mp ht
    rw [heq, Text.trimmed, String.toList_ofList] at hc
    exact ⟨subject.matchSetting, Text.mem_of_mem_trim hc⟩
  · rw [if_neg hmatch] at ht
    by_cases hskip : exclusions (s.value subject.skipSetting) ≠ []
    · rw [if_pos hskip] at ht
      have hentry : t ∈ Text.splitEntries ',' (s.value subject.skipSetting) :=
        (splitEntries_eq_exclusions _).symm ▸ ht
      exact ⟨subject.skipSetting, Text.mem_of_mem_splitEntries hentry hc⟩
    · rw [if_neg hskip] at ht
      exact absurd ht List.not_mem_nil

/-- The texts of a view are made of characters of the settings, and of the blanks between keys and
values. -/
theorem mem_value_of_mem_texts {s : Settings} {p : Slot} {t : String} {c : Char}
    (ht : t ∈ s.view.texts p) (hc : c ∈ t.toList) : c = ' ' ∨ ∃ k, c ∈ (s.value k).toList := by
  -- A slot shows a value, a value that is left out when empty, or what a list gives.
  have hvalue : ∀ k, t ∈ [s.value k] → ∃ k, c ∈ (s.value k).toList := fun k hk =>
    ⟨k, List.mem_singleton.mp hk ▸ hc⟩
  have hvalueUnlessEmpty : ∀ k, t ∈ (if s.value k = "" then [] else [s.value k]) →
      ∃ k, c ∈ (s.value k).toList := fun k hk => by
    by_cases hk' : s.value k = ""
    · rw [if_pos hk'] at hk
      exact absurd hk List.not_mem_nil
    · rw [if_neg hk'] at hk
      exact hvalue k hk
  have hdirectives : ∀ k, t ∈ directiveTexts (s.value k) → c = ' ' ∨ ∃ k, c ∈ (s.value k).toList :=
    fun k hk => (mem_of_mem_directiveTexts hk hc).imp_right fun h => ⟨k, h⟩
  cases p with
  | logLevel => exact Or.inr (hvalue .logLevel ht)
  | logsPath => exact Or.inr (hvalue .logsPath ht)
  | readFromHead =>
      have ht : t ∈ (if s.value .joinStart ≠ "" then some (s.value .readFromHead)
        else none).toList := ht
      by_cases hjoin : s.value .joinStart ≠ ""
      · rw [if_pos hjoin] at ht
        exact Or.inr (hvalue .readFromHead ht)
      · rw [if_neg hjoin] at ht
        exact absurd ht List.not_mem_nil
  | ignoreOlder => exact Or.inr (hvalueUnlessEmpty .ignoreOlder ht)
  | pattern subject => exact Or.inr (mem_of_mem_shownSelection (List.mem_append_left _ ht) hc)
  | exclusion subject => exact Or.inr (mem_of_mem_shownSelection (List.mem_append_right _ ht) hc)
  | addition => exact hdirectives .additionalFields ht
  | replacement => exact hdirectives .setFields ht
  | logsToken => exact Or.inr (hvalue .logsToken ht)
  | listenerUrl => exact Or.inr (hvalue .listenerUrl ht)
  | streamType => exact Or.inr (hvalue .streamType ht)
  | outputId => exact Or.inr (hvalue .outputId ht)
  | headers => exact Or.inr (hvalueUnlessEmpty .headers ht)

/-- Settings without line feeds give a view without line feeds. -/
theorem newline_not_mem_view {s : Settings} (h : ∀ k, '\n' ∉ (s.value k).toList) {p : Slot}
    {t : String} (ht : t ∈ s.view.texts p) : '\n' ∉ t.toList := by
  intro hc
  rcases mem_value_of_mem_texts ht hc with hblank | ⟨k, hk⟩
  · exact absurd hblank (by decide)
  · exact h k hk

end Settings

end LogShipper
