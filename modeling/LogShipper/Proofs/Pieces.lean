import LogShipper.Text.Pieces
import Mathlib.Data.List.Basic
import Mathlib.Data.List.TakeWhile

/-!
# Cutting and trimming texts

What the pieces of a text keep of it. No piece holds the separator, every other character is in
some piece, and there is one piece more than there are separators. Lines are the pieces between
line feeds: a text written line by line is cut back into its lines exactly when none of them holds
a line feed.
-/

namespace LogShipper.Text

/-! ## Trimming -/

theorem mem_of_mem_trim {c : Char} {s : List Char} (h : c ∈ trim s) : c ∈ s := by
  unfold trim trimEnd trimStart at h
  have h₁ := (List.dropWhile_sublist isBlank).subset (List.mem_reverse.mp h)
  exact (List.dropWhile_sublist isBlank).subset (List.mem_reverse.mp h₁)

/-- Nothing is left of a text exactly when all of it is blank. -/
theorem trim_eq_nil_iff (s : List Char) : trim s = [] ↔ ∀ c ∈ s, isBlank c = true := by
  unfold trim trimEnd trimStart
  rw [List.reverse_eq_nil_iff, List.dropWhile_eq_nil_iff]
  constructor
  · intro h
    -- A character that is left in front would not be blank.
    have hnil : s.dropWhile isBlank = [] := by
      by_contra hne
      have hblank := h _ (List.mem_reverse.mpr (List.head_mem hne))
      rw [List.head_dropWhile_not isBlank hne] at hblank
      exact Bool.noConfusion hblank
    exact List.dropWhile_eq_nil_iff.mp hnil
  · intro h c hc
    exact h c ((List.dropWhile_sublist isBlank).subset (List.mem_reverse.mp hc))

theorem trimEnd_prefix (s : List Char) : trimEnd s <+: s := by
  have hsuffix := List.dropWhile_suffix isBlank (l := s.reverse)
  rw [← List.reverse_prefix, List.reverse_reverse] at hsuffix
  exact hsuffix

/-- A trimmed text does not begin with a blank. -/
theorem not_isBlank_of_head?_trim {c : Char} {s : List Char} (h : (trim s).head? = some c) :
    ¬ isBlank c = true := by
  obtain ⟨rest, hrest⟩ := trimEnd_prefix (trimStart s)
  have hstart : (trimStart s).head? = some c := by
    rw [← hrest, List.head?_append, show (trimEnd (trimStart s)).head? = some c from h]
    rfl
  have hnot := List.head?_dropWhile_not isBlank s
  rw [← trimStart, hstart] at hnot
  exact Bool.eq_false_iff.mp hnot

/-- A trimmed text does not end with a blank. -/
theorem not_isBlank_of_getLast?_trim {c : Char} {s : List Char}
    (h : (trim s).getLast? = some c) : ¬ isBlank c = true := by
  rw [trim, trimEnd, List.getLast?_reverse] at h
  have hnot := List.head?_dropWhile_not isBlank (trimStart s).reverse
  rw [h] at hnot
  exact Bool.eq_false_iff.mp hnot

/-- The same as `trim_eq_nil_iff` on strings. -/
theorem trimmed_eq_empty_iff (t : String) : trimmed t = "" ↔ t.toList.all isBlank = true := by
  rw [trimmed, List.all_eq_true, ← trim_eq_nil_iff, ← String.toList_eq_nil_iff,
    String.toList_ofList]

/-- A text that is not empty and has no blank at either end. -/
structure Bare (t : String) : Prop where
  nonempty : t ≠ ""
  head : ∀ c, t.toList.head? = some c → ¬ isBlank c = true
  last : ∀ c, t.toList.getLast? = some c → ¬ isBlank c = true

/-- Trimming bares a text if anything is left of it. -/
theorem bare_trimmed_iff (t : String) : Bare (trimmed t) ↔ ¬ t.toList.all isBlank = true := by
  constructor
  · intro h hblank
    exact h.nonempty ((trimmed_eq_empty_iff t).mpr hblank)
  · intro hblank
    refine ⟨mt (trimmed_eq_empty_iff t).mp hblank, ?_, ?_⟩
    · intro c hc
      rw [trimmed, String.toList_ofList] at hc
      exact not_isBlank_of_head?_trim hc
    · intro c hc
      rw [trimmed, String.toList_ofList] at hc
      exact not_isBlank_of_getLast?_trim hc

/-- Nothing is trimmed off a text without blanks at its ends. -/
theorem Bare.trimmed_eq {t : String} (h : Bare t) : trimmed t = t := by
  have hstart : trimStart t.toList = t.toList := by
    rw [trimStart, List.dropWhile_eq_self_iff]
    intro hpos
    rw [← List.head_eq_getElem_zero (List.ne_nil_of_length_pos hpos)]
    exact h.head _ (List.head?_eq_some_head _)
  have hend : t.toList.reverse.dropWhile isBlank = t.toList.reverse := by
    rw [List.dropWhile_eq_self_iff]
    intro hpos
    rw [← List.head_eq_getElem_zero (List.ne_nil_of_length_pos hpos)]
    refine h.last _ ?_
    rw [← List.head?_reverse]
    exact List.head?_eq_some_head _
  rw [trimmed, trim, hstart, trimEnd, hend, List.reverse_reverse, String.ofList_toList]

/-! ## Pieces -/

/-- The pieces are the text without its separators. -/
theorem flatten_pieces (sep : Char) (s : List Char) :
    (pieces sep s).flatten = s.filter (· ≠ sep) := by
  induction s with
  | nil => rfl
  | cons c s ih =>
      by_cases hc : c = sep
      · rw [pieces, if_pos hc, List.flatten_cons, List.nil_append, ih]
        simp [hc]
      · obtain ⟨p, ps, hs⟩ := List.exists_cons_of_ne_nil (pieces_ne_nil sep s)
        rw [hs, List.flatten_cons] at ih
        rw [pieces, if_neg hc, hs, List.modifyHead_cons, List.flatten_cons, List.cons_append, ih]
        simp [hc]

/-- The characters of the pieces are those of the text that are no separators. -/
theorem exists_mem_pieces_iff {sep c : Char} {s : List Char} :
    (∃ p ∈ pieces sep s, c ∈ p) ↔ c ∈ s ∧ c ≠ sep := by
  rw [← List.mem_flatten, flatten_pieces, List.mem_filter, decide_eq_true_eq]

theorem mem_of_mem_splitPieces {sep c : Char} {list piece : String}
    (hpiece : piece ∈ splitPieces sep list) (hc : c ∈ piece.toList) : c ∈ list.toList := by
  obtain ⟨p, hp, rfl⟩ := List.mem_map.mp hpiece
  rw [String.toList_ofList] at hc
  exact (exists_mem_pieces_iff.mp ⟨p, hp, hc⟩).1

/-- The separator is in no piece. -/
theorem not_mem_of_mem_pieces {sep : Char} {s p : List Char} (h : p ∈ pieces sep s) :
    sep ∉ p :=
  fun hmem => (exists_mem_pieces_iff.mp ⟨p, h, hmem⟩).2 rfl

theorem pieces_of_not_mem {sep : Char} {s : List Char} (h : sep ∉ s) : pieces sep s = [s] := by
  induction s with
  | nil => rfl
  | cons c s ih =>
      have hne : ¬ c = sep := fun heq => h (heq ▸ List.mem_cons_self)
      have hs : sep ∉ s := fun hmem => h (List.mem_cons_of_mem _ hmem)
      rw [pieces, if_neg hne, ih hs]
      rfl

/-- Pieces that are joined by separators are what the text is cut into again. There has to be one,
since the empty text has one empty piece. -/
theorem pieces_intercalate {sep : Char} {ps : List (List Char)} (hne : ps ≠ [])
    (h : ∀ p ∈ ps, sep ∉ p) : pieces sep ([sep].intercalate ps) = ps := by
  induction ps with
  | nil => exact absurd rfl hne
  | cons p ps ih =>
      rw [List.forall_mem_cons] at h
      cases ps with
      | nil =>
          rw [List.intercalate_singleton]
          exact pieces_of_not_mem h.1
      | cons q qs =>
          rw [List.intercalate_cons_cons, List.append_assoc, List.singleton_append,
            pieces_append_cons, pieces_of_not_mem h.1, ih (List.cons_ne_nil _ _) h.2,
            List.singleton_append]

/-- The same on strings, with the pieces of some text. -/
theorem splitPieces_intercalate {list : String} {ps : List String} (hne : ps ≠ [])
    (h : ∀ p ∈ ps, p ∈ splitPieces ',' list) : splitPieces ',' (",".intercalate ps) = ps := by
  have hsep : ∀ p ∈ ps.map String.toList, ',' ∉ p := by
    intro p hp
    obtain ⟨t, ht, rfl⟩ := List.mem_map.mp hp
    obtain ⟨q, hq, rfl⟩ := List.mem_map.mp (h t ht)
    rw [String.toList_ofList]
    exact not_mem_of_mem_pieces hq
  have htext : (",".intercalate ps).toList = [','].intercalate (ps.map String.toList) :=
    String.toList_intercalate
  rw [splitPieces, htext, pieces_intercalate (mt List.map_eq_nil_iff.mp hne) hsep, List.map_map]
  simp [Function.comp_def]

/-- There is one piece more than there are separators. -/
theorem length_pieces (sep : Char) (s : List Char) :
    (pieces sep s).length = s.count sep + 1 := by
  induction s with
  | nil => rfl
  | cons c s ih =>
      by_cases hc : c = sep
      · rw [pieces, if_pos hc, List.length_cons, ih, hc, List.count_cons_self]
      · rw [pieces, if_neg hc, List.length_modifyHead, ih, List.count_cons_of_ne hc]

/-- The entries are the pieces that are not blank, trimmed. -/
theorem entries_eq_map_filter (sep : Char) (s : List Char) :
    entries sep s = ((pieces sep s).filter fun p => ¬ p.all isBlank).map trim := by
  rw [entries, List.filter_map]
  congr 1
  apply List.filter_congr
  intro p _
  rw [Function.comp_apply, decide_eq_decide, ne_eq, trim_eq_nil_iff, List.all_eq_true]

/-- The same on strings. -/
theorem splitEntries_eq_map_filter (sep : Char) (list : String) :
    splitEntries sep list =
      ((splitPieces sep list).filter fun piece => ¬ piece.toList.all isBlank).map trimmed := by
  unfold splitEntries splitPieces
  rw [entries_eq_map_filter, List.filter_map, List.map_map, List.map_map]
  simp [Function.comp_def, trimmed]

theorem mem_of_mem_splitEntries {sep c : Char} {list entry : String}
    (hentry : entry ∈ splitEntries sep list) (hc : c ∈ entry.toList) : c ∈ list.toList := by
  rw [splitEntries_eq_map_filter] at hentry
  obtain ⟨piece, hpiece, rfl⟩ := List.mem_map.mp hentry
  rw [trimmed, String.toList_ofList] at hc
  exact mem_of_mem_splitPieces (List.mem_of_mem_filter hpiece) (mem_of_mem_trim hc)

/-! ## The first separator -/

theorem cutAt?_isSome_iff {sep : Char} {s : List Char} :
    (cutAt? sep s).isSome = true ↔ sep ∈ s := by
  induction s with
  | nil => simp [cutAt?]
  | cons c s ih =>
      by_cases hc : c = sep
      · simp [cutAt?, hc]
      · rw [cutAt?, if_neg hc, Option.isSome_map, ih, List.mem_cons]
        constructor
        · exact Or.inr
        · rintro (heq | hs)
          · exact absurd heq.symm hc
          · exact hs

/-- The two parts and the separator between them are the whole text. -/
theorem eq_append_of_cutAt? {sep : Char} {s a b : List Char} (h : cutAt? sep s = some (a, b)) :
    s = a ++ sep :: b := by
  induction s generalizing a with
  | nil => simp [cutAt?] at h
  | cons c s ih =>
      by_cases hc : c = sep
      · rw [cutAt?, if_pos hc] at h
        obtain ⟨rfl, rfl⟩ := Prod.mk.inj (Option.some.inj h)
        rw [hc, List.nil_append]
      · rw [cutAt?, if_neg hc] at h
        obtain ⟨⟨a', b'⟩, hs, heq⟩ := Option.map_eq_some_iff.mp h
        obtain ⟨rfl, rfl⟩ := Prod.mk.inj heq
        rw [ih hs, List.cons_append]

/-- It is the first separator that cuts. -/
theorem not_mem_of_cutAt? {sep : Char} {s a b : List Char} (h : cutAt? sep s = some (a, b)) :
    sep ∉ a := by
  induction s generalizing a with
  | nil => simp [cutAt?] at h
  | cons c s ih =>
      by_cases hc : c = sep
      · rw [cutAt?, if_pos hc] at h
        obtain ⟨rfl, rfl⟩ := Prod.mk.inj (Option.some.inj h)
        exact List.not_mem_nil
      · rw [cutAt?, if_neg hc] at h
        obtain ⟨⟨a', b'⟩, hs, heq⟩ := Option.map_eq_some_iff.mp h
        obtain ⟨rfl, rfl⟩ := Prod.mk.inj heq
        rw [List.mem_cons, not_or]
        exact ⟨fun heq => hc heq.symm, ih hs⟩

/-- A text is cut behind the characters in front of the first separator. -/
theorem cutAt?_eq_ite (sep : Char) (s : List Char) :
    cutAt? sep s =
      if sep ∈ s then some (s.takeWhile (· ≠ sep), (s.dropWhile (· ≠ sep)).tail) else none := by
  induction s with
  | nil => rfl
  | cons c s ih =>
      by_cases hc : c = sep
      · simp [cutAt?, hc]
      · have hmem : sep ∈ c :: s ↔ sep ∈ s := by rw [List.mem_cons, or_iff_right (Ne.symm hc)]
        rw [cutAt?, if_neg hc, ih]
        by_cases hs : sep ∈ s <;> simp [hc, hmem, hs]

/-- A text is cut behind a part without separators. -/
theorem cutAt?_append_cons {sep : Char} {a b : List Char} (h : sep ∉ a) :
    cutAt? sep (a ++ sep :: b) = some (a, b) := by
  induction a with
  | nil => rw [List.nil_append, cutAt?, if_pos rfl]
  | cons c a ih =>
      rw [List.mem_cons, not_or] at h
      rw [List.cons_append, cutAt?, if_neg fun heq => h.1 heq.symm, ih h.2]
      rfl

/-! ## Lines -/

/-- The text of lines, each with a line feed behind it. -/
def ofLines (lines : List String) : String :=
  String.join (lines.map (· ++ "\n"))

/-- The lines of a text: what stands between its line feeds. -/
def lines (s : String) : List String :=
  splitPieces '\n' s

theorem toList_ofLines_cons (l : String) (ls : List String) :
    (ofLines (l :: ls)).toList = l.toList ++ '\n' :: (ofLines ls).toList := by
  simp [ofLines]

theorem ofLines_append (a b : List String) : ofLines (a ++ b) = ofLines a ++ ofLines b := by
  simp [ofLines]

/-- A text written line by line has the lines of what was written, and an empty rest behind them. -/
theorem lines_ofLines (ls : List String) : lines (ofLines ls) = ls.flatMap lines ++ [""] := by
  induction ls with
  | nil => rfl
  | cons l ls ih =>
      unfold lines splitPieces at ih ⊢
      rw [toList_ofLines_cons, pieces_append_cons, List.map_append, ih, List.flatMap_cons,
        List.append_assoc]

theorem lines_of_not_mem {l : String} (h : '\n' ∉ l.toList) : lines l = [l] := by
  rw [lines, splitPieces, pieces_of_not_mem h, List.map_singleton, String.ofList_toList]

/-- Lines without line feeds are read back. -/
theorem lines_ofLines_of_not_mem {ls : List String} (h : ∀ l ∈ ls, '\n' ∉ l.toList) :
    lines (ofLines ls) = ls ++ [""] := by
  have hlines : ls.flatMap lines = ls.flatMap fun l => [l] :=
    List.flatMap_congr fun l hl => lines_of_not_mem (h l hl)
  rw [lines_ofLines, hlines, List.flatMap_singleton']

theorem count_ofLines_cons (l : String) (ls : List String) :
    (ofLines (l :: ls)).toList.count '\n' =
      l.toList.count '\n' + (ofLines ls).toList.count '\n' + 1 := by
  rw [toList_ofLines_cons, List.count_append, List.count_cons_self, Nat.add_assoc]

theorem length_le_count_ofLines (ls : List String) :
    ls.length ≤ (ofLines ls).toList.count '\n' := by
  induction ls with
  | nil => exact Nat.zero_le _
  | cons l ls ih =>
      rw [count_ofLines_cons, List.length_cons]
      omega

/-- A text written line by line has as many line feeds as lines exactly when no line holds one. -/
theorem count_ofLines_eq_iff {ls : List String} :
    (ofLines ls).toList.count '\n' = ls.length ↔ ∀ l ∈ ls, '\n' ∉ l.toList := by
  induction ls with
  | nil => simp [ofLines]
  | cons l ls ih =>
      have hle := length_le_count_ofLines ls
      rw [count_ofLines_cons, List.length_cons, List.forall_mem_cons, ← ih,
        ← List.count_eq_zero]
      omega

/-- A text written line by line is cut into the lines that were written, and the empty rest, in
number only if no line holds a line feed. -/
theorem length_lines_ofLines_eq_iff {ls : List String} :
    (lines (ofLines ls)).length = ls.length + 1 ↔ ∀ l ∈ ls, '\n' ∉ l.toList := by
  unfold lines splitPieces
  rw [List.length_map, length_pieces, Nat.add_right_cancel_iff, count_ofLines_eq_iff]

end LogShipper.Text
