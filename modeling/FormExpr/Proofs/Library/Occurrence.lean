import FormExpr.Library.Builtin
import FormExpr.Proofs.Text.Search

/-!
# Texts inside texts

Five functions ask where one text stands in another, and all answers follow from the first
occurrence. A text that contains another is cut in two there; a text starts with another if nothing
comes before the first occurrence, while what it ends with need not be the first occurrence.
-/

namespace FormExpr.Library

open Text (IsFirstCut splitFirst?)

variable {F : Forest} {s sep before after : List Char}

/-! ### The parts around the separator -/

theorem substringBefore_of_isFirstCut (hcut : IsFirstCut sep s before after) :
    substringBefore s sep = before := by
  rw [substringBefore, Text.splitFirst?_eq_some_iff.2 hcut]
  rfl

theorem substringAfter_of_isFirstCut (hcut : IsFirstCut sep s before after) :
    substringAfter s sep = after := by
  rw [substringAfter, Text.splitFirst?_eq_some_iff.2 hcut]
  rfl

/-- A text that contains the separator is cut by it for the first time. -/
theorem isFirstCut_of_contains (hcontains : Text.contains s sep = true) :
    IsFirstCut sep s (substringBefore s sep) (substringAfter s sep) := by
  obtain ⟨⟨before, after⟩, hsplit⟩ := Option.isSome_iff_exists.1 hcontains
  have hcut := Text.splitFirst?_eq_some_iff.1 hsplit
  rwa [substringBefore_of_isFirstCut hcut, substringAfter_of_isFirstCut hcut]

theorem substrings_of_not_contains (hcontains : Text.contains s sep = false) :
    substringBefore s sep = [] ∧ substringAfter s sep = [] := by
  have hnone : splitFirst? sep s = none := Option.not_isSome_iff_eq_none.1 (Bool.eq_false_iff.1 hcontains)
  rw [substringBefore, substringAfter, hnone]
  exact ⟨rfl, rfl⟩

/-- A prefix is a separator with nothing before it. -/
theorem prefix_iff_substringBefore_eq_nil :
    sep <+: s ↔ Text.contains s sep = true ∧ substringBefore s sep = [] := by
  constructor
  · intro hbegins
    have hcontains : Text.contains s sep = true := Text.contains_eq_true_iff.2 hbegins.isInfix
    exact ⟨hcontains, (isFirstCut_of_contains hcontains).before_eq_nil hbegins⟩
  · rintro ⟨hcontains, hbefore⟩
    have hcut := isFirstCut_of_contains hcontains
    rw [hbefore, Text.isFirstCut_nil_iff] at hcut
    exact ⟨_, hcut.symm⟩

/-! ### The functions -/

/-- A text that contains another is cut at its first occurrence, and what the five functions answer
is decided by that cut and by the ends of the text. -/
theorem occurrences_cut_texts (context : Context F) (environment : Environment) (v w : Value F) :
    let s := v.toText.toList
    let sep := w.toText.toList
    ∃ (contained starts ends : Bool) (before after : List Char),
      Registry.builtin.call "contains" context environment [v, w] = .ok (.boolean contained) ∧
      Registry.builtin.call "starts-with" context environment [v, w] = .ok (.boolean starts) ∧
      Registry.builtin.call "ends-with" context environment [v, w] = .ok (.boolean ends) ∧
      Registry.builtin.call "substring-before" context environment [v, w] = .ok (.ofChars before) ∧
      Registry.builtin.call "substring-after" context environment [v, w] = .ok (.ofChars after) ∧
      (contained = true ↔ ∃ q r, s = q ++ sep ++ r) ∧
      (contained = true →
        s = before ++ sep ++ after ∧ ∀ q r, before ++ sep = q ++ sep ++ r → r = []) ∧
      (contained = false → before = [] ∧ after = []) ∧
      (starts = true ↔ contained = true ∧ before = []) ∧
      (ends = true ↔ ∃ q, s = q ++ sep) := by
  intro s sep
  refine ⟨Text.contains s sep, sep.isPrefixOf s, sep.isSuffixOf s, substringBefore s sep,
    substringAfter s sep, rfl, rfl, rfl, rfl, rfl, ?_, ?_, substrings_of_not_contains, ?_, ?_⟩
  · rw [Text.contains_eq_true_iff]
    exact exists₂_congr fun q r => eq_comm
  · intro hcontains
    have hcut := isFirstCut_of_contains hcontains
    exact ⟨hcut.whole, hcut.first⟩
  · rw [List.isPrefixOf_iff_prefix, prefix_iff_substringBefore_eq_nil]
  · rw [List.isSuffixOf_iff_suffix]
    exact exists_congr fun q => eq_comm

/-- A separator that overlaps itself is cut off where it first begins. -/
example : substringBefore "banana".toList "ana".toList = "b".toList ∧
    substringAfter "banana".toList "ana".toList = "na".toList := by
  decide

end FormExpr.Library
