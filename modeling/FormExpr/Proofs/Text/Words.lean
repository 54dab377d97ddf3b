import FormExpr.Proofs.Text.Blank

/-!
# Splitting and joining

A text that is joined with a separator is split into the pieces of its parts, so whatever is done
with the pieces may be done part by part. The words of a text are its items, the runs of characters
between its blanks; joined with single blanks the items make a text with the same words.
-/

namespace FormExpr.Text

/-! ### Pieces -/

theorem splitAll_eq_splitOnP (p : Char → Bool) (s : List Char) : splitAll p s = s.splitOnP p := by
  induction s with
  | nil => rfl
  | cons c rest ih =>
    rw [splitAll, List.splitOnP_cons_eq_if_modifyHead, ih]
    cases hrest : rest.splitOnP p with
    | nil => exact absurd hrest (List.splitOnP_ne_nil p rest)
    | cons piece pieces => rfl

theorem join_eq_intercalate (sep : List Char) (pieces : List (List Char)) :
    join sep pieces = sep.intercalate pieces := by
  induction pieces with
  | nil => rfl
  | cons piece pieces ih =>
    cases pieces with
    | nil => rw [List.intercalate_singleton, join]
    | cons next rest =>
      rw [List.intercalate_cons_cons, ← ih, join]
      exact nofun

/-- No separator is left in a piece. -/
theorem eq_false_of_mem_splitAll {p : Char → Bool} {s piece : List Char}
    (hpiece : piece ∈ splitAll p s) : ∀ c ∈ piece, p c = false := by
  induction s generalizing piece with
  | nil =>
    obtain rfl := List.mem_singleton.1 hpiece
    exact nofun
  | cons c rest ih =>
    rw [splitAll] at hpiece
    split at hpiece
    · rcases List.mem_cons.1 hpiece with rfl | hrest
      · exact nofun
      · exact ih hrest
    · rename_i hc
      have hfree : p c = false := Bool.eq_false_iff.2 hc
      split at hpiece
      · obtain rfl := List.mem_singleton.1 hpiece
        simpa using hfree
      · rename_i first pieces hsplit
        rcases List.mem_cons.1 hpiece with rfl | hrest
        · exact List.forall_mem_cons.2 ⟨hfree, ih (hsplit ▸ List.mem_cons_self)⟩
        · exact ih (hsplit ▸ List.mem_cons_of_mem _ hrest)

section

variable {p : Char → Bool} {sep : Char} (hsep : p sep = true)

include hsep

theorem splitAll_append_cons (s rest : List Char) :
    splitAll p (s ++ sep :: rest) = splitAll p s ++ splitAll p rest := by
  simp only [splitAll_eq_splitOnP]
  exact List.splitOnP_append_cons s rest hsep

theorem splitAll_join {parts : List (List Char)} (hne : parts ≠ []) :
    splitAll p (join [sep] parts) = parts.flatMap (splitAll p) := by
  induction parts with
  | nil => exact absurd rfl hne
  | cons part parts ih =>
    cases parts with
    | nil => rw [join, List.flatMap_singleton]
    | cons next rest =>
      have hjoin : join [sep] (part :: next :: rest) = part ++ sep :: join [sep] (next :: rest) := by
        rw [join, List.append_assoc, List.singleton_append]
        exact nofun
      rw [hjoin, splitAll_append_cons hsep, ih (List.cons_ne_nil next rest), ← List.flatMap_cons]

/-- The pieces that are kept of a joined text are those that are kept of its parts, if an empty
piece is not kept. -/
theorem filter_splitAll_join {keep : List Char → Bool} (hkeep : keep [] = false)
    (parts : List (List Char)) :
    (splitAll p (join [sep] parts)).filter keep =
      parts.flatMap fun part => (splitAll p part).filter keep := by
  rcases eq_or_ne parts [] with rfl | hne
  · simp [join, splitAll, hkeep]
  · rw [splitAll_join hsep hne, List.filter_flatMap]

end

/-! ### Words -/

structure IsItem (item : List Char) : Prop where
  ne_nil : item ≠ []
  noBlank : NoBlank item

instance (item : List Char) : Decidable (IsItem item) :=
  decidable_of_iff (item ≠ [] ∧ (item.all fun c => !isBlank c) = true)
    ⟨fun h => ⟨h.1, by simpa [NoBlank] using h.2⟩,
      fun h => ⟨h.ne_nil, by simpa [NoBlank] using h.noBlank⟩⟩

theorem words_append_cons {c : Char} (hc : isBlank c = true) (s rest : List Char) :
    words (s ++ c :: rest) = words s ++ words rest := by
  rw [words, splitAll_append_cons hc, List.filter_append]
  rfl

theorem words_cons {c : Char} (hc : isBlank c = true) (rest : List Char) :
    words (c :: rest) = words rest :=
  words_append_cons hc [] rest

theorem IsItem.words_eq {item : List Char} (h : IsItem item) : words item = [item] := by
  rw [words, splitAll_eq_splitOnP, List.splitOnP_eq_singleton h.noBlank]
  simpa using h.ne_nil

theorem isItem_of_mem_words {s word : List Char} (hword : word ∈ words s) : IsItem word := by
  rw [words, List.mem_filter] at hword
  exact ⟨by simpa using hword.2, eq_false_of_mem_splitAll hword.1⟩

theorem flatMap_words {items : List (List Char)} (hitems : ∀ item ∈ items, IsItem item) :
    items.flatMap words = items := by
  induction items with
  | nil => rfl
  | cons item items ih =>
    rw [List.forall_mem_cons] at hitems
    rw [List.flatMap_cons, hitems.1.words_eq, ih hitems.2, List.singleton_append]

theorem words_join {items : List (List Char)} (hitems : ∀ item ∈ items, IsItem item) :
    words (join [' '] items) = items := by
  have hparts : words (join [' '] items) = items.flatMap words :=
    filter_splitAll_join (p := isBlank) (by decide) rfl items
  rw [hparts, flatMap_words hitems]

/-- The items of a text, one after the other: blanks do not count, and an item goes on up to the
next blank or the end. -/
inductive Items : List Char → List (List Char) → Prop where
  | nil : Items [] []
  | blank {c : Char} {s : List Char} {items : List (List Char)} (hc : isBlank c = true)
    (hrest : Items s items) : Items (c :: s) items
  | item {item s : List Char} {items : List (List Char)} (hitem : IsItem item)
    (hend : ∀ c ∈ s.head?, isBlank c = true) (hrest : Items s items) :
    Items (item ++ s) (item :: items)

theorem Items.words_eq {s : List Char} {items : List (List Char)} (h : Items s items) :
    words s = items := by
  induction h with
  | nil => rfl
  | blank hc _ ih => rw [words_cons hc, ih]
  | @item item s items hitem hend _ ih =>
    cases s with
    | nil =>
      rw [← ih, List.append_nil, hitem.words_eq]
      rfl
    | cons c rest =>
      have hc : isBlank c = true := hend c rfl
      rw [words_append_cons hc, hitem.words_eq, ← ih, words_cons hc, List.singleton_append]

theorem IsItem.cons {c : Char} (hc : isBlank c = false) {s : List Char} (hs : NoBlank s) :
    IsItem (c :: s) :=
  ⟨List.cons_ne_nil c s, noBlank_cons.2 ⟨hc, hs⟩⟩

/-- A character that is not blank begins an item or goes in front of the one that begins behind it.
-/
theorem exists_items (s : List Char) : ∃ items, Items s items := by
  induction s with
  | nil => exact ⟨[], .nil⟩
  | cons c rest ih =>
    obtain ⟨items, hrest⟩ := ih
    cases hc : isBlank c with
    | true => exact ⟨items, .blank hc hrest⟩
    | false =>
      cases hrest with
      | nil => exact ⟨[[c]], .item (.cons hc noBlank_nil) nofun .nil⟩
      | blank hd hrest =>
        refine ⟨[c] :: items, .item (.cons hc noBlank_nil) ?_ (.blank hd hrest)⟩
        rintro _ ⟨⟩
        exact hd
      | item hitem hend hrest => exact ⟨_, .item (.cons hc hitem.noBlank) hend hrest⟩

theorem items_iff {s : List Char} {items : List (List Char)} : Items s items ↔ words s = items := by
  refine ⟨Items.words_eq, ?_⟩
  rintro rfl
  obtain ⟨items, hitems⟩ := exists_items s
  rwa [hitems.words_eq]

end FormExpr.Text
