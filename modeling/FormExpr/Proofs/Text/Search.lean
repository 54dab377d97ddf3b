import FormExpr.Text.Search
import Mathlib.Data.List.Basic

/-!
# The first occurrence

A search walks along the text and stops at the first place where the separator stands. So it cuts
the text there exactly if the separator occurs in it at all, and in what has been passed, with the
separator put behind it, the separator occurs at the end alone, however it overlaps itself.
-/

namespace FormExpr.Text

variable {sep s before after : List Char}

/-- The parts of a text around an occurrence of `sep` that no other occurrence precedes. -/
structure IsFirstCut (sep s before after : List Char) : Prop where
  whole : s = before ++ sep ++ after
  first : ∀ q r, before ++ sep = q ++ sep ++ r → r = []

theorem stripStart?_eq_some_iff : stripStart? sep s = some after ↔ s = sep ++ after := by
  rw [stripStart?]
  constructor
  · intro hstrip
    split at hstrip
    · rename_i hbegins
      rw [← Option.some.inj hstrip]
      exact List.prefix_iff_eq_append.1 (List.isPrefixOf_iff_prefix.1 hbegins) |>.symm
    · cases hstrip
  · rintro rfl
    rw [if_pos (List.isPrefixOf_iff_prefix.2 (List.prefix_append sep after)), List.drop_left]

theorem stripStart?_eq_none_iff : stripStart? sep s = none ↔ ¬ sep <+: s := by
  rw [stripStart?, ← List.isPrefixOf_iff_prefix]
  split
  · rename_i hbegins
    simp [hbegins]
  · rename_i hbegins
    simp [hbegins]

/-! ### Cuts along the text -/

/-- Nothing comes before a separator at the very start. -/
theorem isFirstCut_nil_iff : IsFirstCut sep s [] after ↔ s = sep ++ after := by
  constructor
  · exact IsFirstCut.whole
  · intro hwhole
    refine ⟨hwhole, fun q r hocc => ?_⟩
    have hlength := congrArg List.length hocc
    simp only [List.nil_append, List.length_append] at hlength
    exact List.eq_nil_of_length_eq_zero (by omega)

/-- A character at which the separator does not begin is passed. -/
theorem isFirstCut_cons_iff {c : Char} (hbegins : ¬ sep <+: c :: s) :
    IsFirstCut sep (c :: s) (c :: before) after ↔ IsFirstCut sep s before after := by
  constructor
  · rintro ⟨hwhole, hfirst⟩
    refine ⟨List.tail_eq_of_cons_eq hwhole, fun q r hocc => hfirst (c :: q) r ?_⟩
    rw [List.cons_append, hocc, List.cons_append, List.cons_append]
  · rintro ⟨rfl, hfirst⟩
    refine ⟨rfl, fun q r hocc => ?_⟩
    cases q with
    | nil =>
      -- An occurrence at the start would be one in the whole text.
      refine absurd ?_ hbegins
      rw [← List.cons_append, ← List.cons_append, hocc, List.nil_append, List.append_assoc]
      exact List.prefix_append sep (r ++ after)
    | cons d q =>
      rw [List.cons_append, List.cons_append, List.cons_append, List.cons.injEq] at hocc
      exact hfirst q r hocc.2

namespace IsFirstCut

/-- An occurrence at the start is the first one. -/
theorem before_eq_nil (hcut : IsFirstCut sep s before after) (hbegins : sep <+: s) :
    before = [] := by
  have hbefore : before ++ sep <+: s := by
    rw [hcut.whole]
    exact List.prefix_append (before ++ sep) after
  have hlength : sep.length ≤ (before ++ sep).length := by
    rw [List.length_append]
    omega
  obtain ⟨r, hr⟩ := List.prefix_of_prefix_length_le hbegins hbefore hlength
  have hnil := hcut.first [] r (by rw [List.nil_append, hr])
  rwa [hnil, List.append_nil, List.self_eq_append_left] at hr

theorem exists_before_eq_cons {c : Char} (hcut : IsFirstCut sep (c :: s) before after)
    (hbegins : ¬ sep <+: c :: s) : ∃ passed, before = c :: passed := by
  cases before with
  | nil =>
    refine absurd ?_ hbegins
    rw [isFirstCut_nil_iff.1 hcut]
    exact List.prefix_append sep after
  | cons d passed =>
    have hwhole := hcut.whole
    rw [List.cons_append, List.cons_append, List.cons.injEq] at hwhole
    exact ⟨passed, by rw [hwhole.1]⟩

end IsFirstCut

/-! ### The search -/

theorem splitFirst?_eq_some_iff :
    splitFirst? sep s = some (before, after) ↔ IsFirstCut sep s before after := by
  induction s generalizing before with
  | nil =>
    rw [splitFirst?, Option.map_eq_some_iff]
    constructor
    · rintro ⟨rest, hstrip, hcut⟩
      obtain ⟨rfl, rfl⟩ := Prod.mk.inj hcut
      exact isFirstCut_nil_iff.2 (stripStart?_eq_some_iff.1 hstrip)
    · intro hcut
      have hnil : before = [] := by
        have hwhole := hcut.whole.symm
        rw [List.append_eq_nil_iff, List.append_eq_nil_iff] at hwhole
        exact hwhole.1.1
      subst hnil
      exact ⟨after, stripStart?_eq_some_iff.2 (isFirstCut_nil_iff.1 hcut), rfl⟩
  | cons c s ih =>
    rw [splitFirst?]
    cases hstrip : stripStart? sep (c :: s) with
    | some rest =>
      have hstart := stripStart?_eq_some_iff.1 hstrip
      constructor
      · intro hcut
        obtain ⟨rfl, rfl⟩ := Prod.mk.inj (Option.some.inj hcut)
        exact isFirstCut_nil_iff.2 hstart
      · intro hcut
        obtain rfl := hcut.before_eq_nil ⟨rest, hstart.symm⟩
        have hafter := isFirstCut_nil_iff.1 hcut
        rw [hstart, List.append_cancel_left_eq] at hafter
        rw [hafter]
    | none =>
      have hbegins := stripStart?_eq_none_iff.1 hstrip
      dsimp only
      rw [Option.map_eq_some_iff]
      constructor
      · rintro ⟨⟨passed, rest⟩, hsplit, hcut⟩
        obtain ⟨rfl, rfl⟩ := Prod.mk.inj hcut
        exact (isFirstCut_cons_iff hbegins).2 (ih.1 hsplit)
      · intro hcut
        obtain ⟨passed, rfl⟩ := hcut.exists_before_eq_cons hbegins
        exact ⟨(passed, after), ih.2 ((isFirstCut_cons_iff hbegins).1 hcut), rfl⟩

/-- The search succeeds exactly if the separator occurs. -/
theorem contains_eq_true_iff : contains s sep = true ↔ sep <:+: s := by
  rw [contains]
  induction s with
  | nil =>
    rw [splitFirst?, Option.isSome_map, List.infix_nil, Option.isSome_iff_exists]
    simp only [stripStart?_eq_some_iff]
    constructor
    · rintro ⟨rest, hnil⟩
      exact (List.append_eq_nil_iff.1 hnil.symm).1
    · rintro rfl
      exact ⟨[], rfl⟩
  | cons c s ih =>
    rw [splitFirst?, List.infix_cons_iff, ← ih]
    cases hstrip : stripStart? sep (c :: s) with
    | some rest =>
      have hbegins : sep <+: c :: s := ⟨rest, (stripStart?_eq_some_iff.1 hstrip).symm⟩
      simp [hbegins]
    | none =>
      have hbegins := stripStart?_eq_none_iff.1 hstrip
      simp [hbegins]

end FormExpr.Text
