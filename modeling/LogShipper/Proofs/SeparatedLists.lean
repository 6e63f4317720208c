import LogShipper.Proofs.Pieces

/-!
# Lists written with separators

A list setting is cut at its separators, and each part is an entry by itself: trimmed, and left out
if nothing is left of it. Nothing else has to be known about the cutting. Two laws, one for a text
with a separator in it and one for a text without, determine the entries of every text, and what
else is true of entries is drawn from these laws alone.
-/

namespace LogShipper.Text

/-! ## Texts and their first separators -/

/-- A text with a separator is cut by the first one, and the part behind it is shorter. -/
theorem exists_first_cut {sep : Char} {s : String} (h : sep ∈ s.toList) :
    ∃ a b, s = a ++ String.singleton sep ++ b ∧ sep ∉ a.toList ∧ b.length < s.length := by
  obtain ⟨⟨a, b⟩, hcut⟩ := Option.isSome_iff_exists.mp (cutAt?_isSome_iff.mpr h)
  have hs : s = String.ofList a ++ String.singleton sep ++ String.ofList b := by
    apply String.toList_injective
    rw [eq_append_of_cutAt? hcut]
    simp
  refine ⟨String.ofList a, String.ofList b, hs, ?_, ?_⟩
  · rw [String.toList_ofList]
    exact not_mem_of_cutAt? hcut
  · rw [hs, String.length_append, String.length_append, String.length_singleton]
    omega

/-- What holds of texts without separators, and of a text if it holds of the part behind its first
separator, holds of all texts. -/
theorem cut_induction {sep : Char} {P : String → Prop}
    (uncut : ∀ a, sep ∉ a.toList → P a)
    (cut : ∀ a b, sep ∉ a.toList → P b → P (a ++ String.singleton sep ++ b)) (s : String) :
    P s := by
  by_cases h : sep ∈ s.toList
  · obtain ⟨a, b, rfl, ha, hlength⟩ := exists_first_cut h
    exact cut a b ha (cut_induction uncut cut b)
  · exact uncut s h
termination_by s.length

/-- A text that can stand between separators as it is. -/
structure IsEntry (sep : Char) (e : String) : Prop extends Bare e where
  free : sep ∉ e.toList

/-! ## The laws of cutting -/

/-- What a function does that cuts lists: the two parts around a separator are lists of their own,
and a text without separators is one entry, or none if all of it is blank. -/
structure CutsAt (sep : Char) (split : String → List String) : Prop where
  cut : ∀ a b, split (a ++ String.singleton sep ++ b) = split a ++ split b
  uncut : ∀ a, sep ∉ a.toList → split a = if a.toList.all isBlank then [] else [trimmed a]

namespace CutsAt

variable {sep : Char} {split : String → List String}

/-- The laws leave nothing open. -/
theorem unique {split' : String → List String} (h : CutsAt sep split) (h' : CutsAt sep split') :
    split = split' := by
  funext s
  induction s using @cut_induction sep with
  | uncut a ha => rw [h.uncut a ha, h'.uncut a ha]
  | cut a b ha ih => rw [h.cut, h'.cut, h.uncut a ha, h'.uncut a ha, ih]

theorem split_empty (h : CutsAt sep split) : split "" = [] := by
  rw [h.uncut "" List.not_mem_nil]
  rfl

theorem split_entry (h : CutsAt sep split) {e : String} (he : IsEntry sep e) : split e = [e] := by
  have hblank : ¬ e.toList.all isBlank = true := by
    rw [← bare_trimmed_iff, he.trimmed_eq]
    exact he.toBare
  rw [h.uncut e he.free, if_neg hblank, he.trimmed_eq]

theorem isEntry_of_mem_uncut (h : CutsAt sep split) {a e : String} (ha : sep ∉ a.toList)
    (he : e ∈ split a) : IsEntry sep e := by
  rw [h.uncut a ha] at he
  by_cases hblank : a.toList.all isBlank = true
  · rw [if_pos hblank] at he
    exact absurd he List.not_mem_nil
  · rw [if_neg hblank, List.mem_singleton] at he
    subst he
    refine ⟨(bare_trimmed_iff a).mpr hblank, fun hmem => ha ?_⟩
    rw [trimmed, String.toList_ofList] at hmem
    exact mem_of_mem_trim hmem

theorem isEntry_of_mem (h : CutsAt sep split) {s e : String} (he : e ∈ split s) :
    IsEntry sep e := by
  induction s using @cut_induction sep with
  | uncut a ha => exact h.isEntry_of_mem_uncut ha he
  | cut a b ha ih =>
      rw [h.cut, List.mem_append] at he
      rcases he with hea | heb
      · exact h.isEntry_of_mem_uncut ha hea
      · exact ih heb

/-- Entries that are joined by separators are cut apart again. -/
theorem split_intercalate (h : CutsAt sep split) {es : List String}
    (hes : ∀ e ∈ es, IsEntry sep e) : split ((String.singleton sep).intercalate es) = es := by
  induction es with
  | nil =>
      rw [String.intercalate_nil]
      exact h.split_empty
  | cons e es ih =>
      rw [List.forall_mem_cons] at hes
      cases es with
      | nil =>
          rw [String.intercalate_singleton]
          exact h.split_entry hes.1
      | cons e' es =>
          rw [String.intercalate_cons_cons, h.cut, h.split_entry hes.1, ih hes.2,
            List.singleton_append]

end CutsAt

/-! ## Entries -/

theorem cutsAt_splitEntries (sep : Char) : CutsAt sep (splitEntries sep) where
  cut a b := by
    have hlist : (a ++ String.singleton sep ++ b).toList = a.toList ++ sep :: b.toList := by simp
    rw [splitEntries, entries, hlist, pieces_append_cons, List.map_append, List.filter_append,
      List.map_append]
    rfl
  uncut a ha := by
    rw [splitEntries_eq_map_filter, splitPieces, pieces_of_not_mem ha, List.map_singleton,
      String.ofList_toList]
    by_cases hblank : a.toList.all isBlank = true
    · rw [if_pos hblank, List.filter_cons_of_neg (by simpa using hblank), List.filter_nil,
        List.map_nil]
    · rw [if_neg hblank, List.filter_cons_of_pos (by simpa using hblank), List.filter_nil,
        List.map_singleton]

/-- What is known of the entries of all lists with a separator. -/
structure SeparatedLists (sep : Char) (split : String → List String) : Prop where
  laws : CutsAt sep split
  determined : ∀ split', CutsAt sep split' → split' = split
  entries : ∀ s, ∀ e ∈ split s, IsEntry sep e
  joined : ∀ es, (∀ e ∈ es, IsEntry sep e) → split ((String.singleton sep).intercalate es) = es
  again : ∀ s, split ((String.singleton sep).intercalate (split s)) = split s

/-- **Lists are cut by two laws.** Whatever the separator is, a blank or not, the entries of a text
are those of its parts around a separator, and a text without separators is one trimmed entry or
none. So entries are bare, they can be joined and cut apart again, and what has been cut once is not
changed by that. -/
theorem separatedLists_splitEntries (sep : Char) : SeparatedLists sep (splitEntries sep) where
  laws := cutsAt_splitEntries sep
  determined _ h := h.unique (cutsAt_splitEntries sep)
  entries _ _ he := (cutsAt_splitEntries sep).isEntry_of_mem he
  joined _ hes := (cutsAt_splitEntries sep).split_intercalate hes
  again _ := (cutsAt_splitEntries sep).split_intercalate fun _ he =>
    (cutsAt_splitEntries sep).isEntry_of_mem he

/-- A blank may be the separator, and then other blanks are trimmed. -/
example : splitEntries ' ' "  a \t b\u00a0 \u3000 " = ["a", "b"] := by
  decide

end LogShipper.Text
