import LogShipper.Document.Selection
import LogShipper.Proofs.Pieces

/-!
# Slots of the main document

The texts that settings hold stand at few places of the main document, each the end of a line that
begins with words of its own. No such beginning is the beginning of another, so a line is at no two
places and shows one text: what stands behind is free text and cannot change what is read.
-/

namespace LogShipper

/-- A place of the main document at which a text of the settings stands. -/
inductive Slot where
  | logLevel
  | logsPath
  | readFromHead
  | ignoreOlder
  | pattern (subject : Subject)
  | exclusion (subject : Subject)
  | addition
  | replacement
  | logsToken
  | listenerUrl
  | streamType
  | outputId
  | headers
deriving DecidableEq, Repr

namespace Slot

/-- The slots in the order of the document. -/
def all : List Slot :=
  [.logLevel, .logsPath, .readFromHead, .ignoreOlder, .pattern .containerName,
    .exclusion .containerName, .pattern .imageName, .exclusion .imageName, .pattern .logLine,
    .exclusion .logLine, .addition, .replacement, .logsToken, .listenerUrl, .streamType, .outputId,
    .headers]

theorem mem_all (p : Slot) : p ∈ all := by
  cases p with
  | pattern subject => cases subject <;> decide
  | exclusion subject => cases subject <;> decide
  | _ => decide

/-- What a line begins with that shows a text at a slot. -/
def lead : Slot → String
  | .logLevel => "    Log_Level    "
  | .logsPath => "    Path         "
  | .readFromHead => "    read_from_head "
  | .ignoreOlder => "    ignore_older "
  | .pattern subject => "    Regex " ++ subject.field ++ " "
  | .exclusion subject => "    Exclude " ++ subject.field ++ " "
  | .addition => "    Add "
  | .replacement => "    Set "
  | .logsToken => "    logzio_token "
  | .listenerUrl => "    logzio_url   "
  | .streamType => "    logzio_type  "
  | .outputId => "    id "
  | .headers => "    headers      "

/-- No line begins as two slots ask for: among their beginnings none begins with another. -/
theorem lead_prefix_free : ∀ p ∈ all, ∀ q ∈ all, p.lead.toList <+: q.lead.toList → p = q := by
  decide +kernel

theorem newline_not_mem_lead (p : Slot) : '\n' ∉ p.lead.toList := by
  have h : ∀ p ∈ all, '\n' ∉ p.lead.toList := by decide +kernel
  exact h p (mem_all p)

/-- A line that shows a text at one slot begins as no other slot asks for. -/
theorem lead_prefix_append_iff {p q : Slot} {t : String} :
    p.lead.toList <+: (q.lead ++ t).toList ↔ p = q := by
  rw [String.toList_append]
  constructor
  · -- Of two beginnings of one line the shorter is a beginning of the other.
    intro h
    rcases List.prefix_or_prefix_of_prefix h (List.prefix_append q.lead.toList t.toList) with
      hpq | hqp
    · exact lead_prefix_free p (mem_all p) q (mem_all q) hpq
    · exact (lead_prefix_free q (mem_all q) p (mem_all p) hqp).symm
  · rintro rfl
    exact List.prefix_append _ _

/-! ## Reading a line -/

/-- The text that a line shows at a slot. -/
def textAt? (l : String) (p : Slot) : Option (Slot × String) :=
  if p.lead.toList <+: l.toList then
    some (p, String.ofList (l.toList.drop p.lead.toList.length))
  else none

/-- The slot and the text that a line shows, if it is at a slot. -/
def readLine? (l : String) : Option (Slot × String) :=
  all.findSome? (textAt? l)

theorem textAt?_lead_append (p q : Slot) (t : String) :
    textAt? (q.lead ++ t) p = if p = q then some (q, t) else none := by
  unfold textAt?
  by_cases h : p = q
  · subst h
    rw [if_pos (lead_prefix_append_iff.mpr rfl), if_pos rfl, String.toList_append,
      List.drop_left, String.ofList_toList]
  · rw [if_neg (fun hp => h (lead_prefix_append_iff.mp hp)), if_neg h]

theorem findSome?_ite_eq {β : Type} {p : Slot} {b : β} {ps : List Slot} (h : p ∈ ps) :
    ps.findSome? (fun q => if q = p then some b else none) = some b := by
  induction ps with
  | nil => exact absurd h List.not_mem_nil
  | cons q ps ih =>
      by_cases hq : q = p
      · rw [List.findSome?_cons, if_pos hq]
      · rw [List.findSome?_cons, if_neg hq]
        rcases List.mem_cons.mp h with heq | hmem
        · exact absurd heq.symm hq
        · exact ih hmem

/-- **A line is read back.** What follows the beginning of a slot is its text, whatever it is. -/
theorem readLine?_lead_append (p : Slot) (t : String) : readLine? (p.lead ++ t) = some (p, t) := by
  have hread : textAt? (p.lead ++ t) = fun q => if q = p then some (p, t) else none :=
    funext fun q => textAt?_lead_append q p t
  rw [readLine?, hread]
  exact findSome?_ite_eq (mem_all p)

/-! ## Reading a document -/

/-- The texts at slots of a list, slot by slot. -/
def shown (texts : Slot → List String) (slots : List Slot) : List (Slot × String) :=
  slots.flatMap fun p => (texts p).map (p, ·)

theorem shown_singleton (texts : Slot → List String) (p : Slot) :
    shown texts [p] = (texts p).map (p, ·) :=
  List.flatMap_singleton _ _

theorem shown_append (texts : Slot → List String) (a b : List Slot) :
    shown texts (a ++ b) = shown texts a ++ shown texts b :=
  List.flatMap_append

theorem mem_shown_iff {texts : Slot → List String} {slots : List Slot} {e : Slot × String} :
    e ∈ shown texts slots ↔ e.1 ∈ slots ∧ e.2 ∈ texts e.1 := by
  unfold shown
  rw [List.mem_flatMap]
  constructor
  · rintro ⟨p, hp, he⟩
    obtain ⟨t, ht, rfl⟩ := List.mem_map.mp he
    exact ⟨hp, ht⟩
  · rintro ⟨hp, ht⟩
    exact ⟨e.1, hp, List.mem_map.mpr ⟨e.2, ht, rfl⟩⟩

/-- The texts that a document shows at a slot, found line by line. -/
def textsIn (document : String) (p : Slot) : List String :=
  ((Text.lines document).filterMap readLine?).filterMap fun e => if e.1 = p then some e.2 else none

theorem filterMap_at (p q : Slot) (ts : List String) :
    (ts.map (q, ·)).filterMap (fun e => if e.1 = p then some e.2 else none) =
      if q = p then ts else [] := by
  rw [List.filterMap_map]
  by_cases h : q = p
  · simp [h]
  · simp [h]

theorem flatMap_ite_eq {p : Slot} {ts : List String} :
    all.flatMap (fun q => if q = p then ts else []) = ts := by
  cases p with
  | pattern subject => cases subject <;> simp [all]
  | exclusion subject => cases subject <;> simp [all]
  | _ => simp [all]

/-- The texts of a slot are found among those of all slots. -/
theorem filterMap_shown (texts : Slot → List String) (p : Slot) :
    (shown texts all).filterMap (fun e => if e.1 = p then some e.2 else none) = texts p := by
  have hslot : ∀ q, ((texts q).map (q, ·)).filterMap
      (fun e => if e.1 = p then some e.2 else none) = if q = p then texts p else [] := fun q => by
    rw [filterMap_at]
    by_cases h : q = p
    · rw [if_pos h, if_pos h, h]
    · rw [if_neg h, if_neg h]
  rw [shown, List.filterMap_flatMap]
  simp only [hslot]
  exact flatMap_ite_eq

end Slot

end LogShipper
