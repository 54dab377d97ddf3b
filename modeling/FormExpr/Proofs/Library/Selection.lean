import FormExpr.Library.Builtin
import FormExpr.Proofs.Number.Value
import FormExpr.Proofs.Text.Words

/-!
# Lists of items in a text

All functions of lists take a text to be the list of its items. A list that is joined from items
with single blanks is read back item by item, and a text with other blanks between its items, or
with blanks around them, is read as the text that is joined from them.
-/

namespace FormExpr.Library

open Text (Items IsItem join trim words)
open Binary64 (IsInteger)

variable {F : Forest}

/-! ### The functions as functions of the items -/

theorem items_ofChars (s : List Char) : items (.ofChars s : Value F) = words s := by
  rw [items, Value.ofChars, Value.toText, String.toList_ofList]

theorem spreadTexts_map_ofChars (texts : List (List Char)) :
    Value.spreadTexts (texts.map Value.ofChars : List (Value F)) = texts := by
  induction texts with
  | nil => rfl
  | cons s texts ih =>
    have hcons : Value.spreadTexts ((s :: texts).map Value.ofChars : List (Value F)) =
        (String.ofList s).toList :: Value.spreadTexts (texts.map Value.ofChars : List (Value F)) := rfl
    rw [hcons, ih, String.toList_ofList]

/-- Behind the last item of a list in memory no index finds any. -/
theorem getElem?_toIndex {items : List (List Char)} (hlength : items.length < 2 ^ 64) {x : Float}
    {i : Int} (hx : IsInteger x i) : items[Binary64.toIndex x]? = items[i.toNat]? := by
  rw [hx.toIndex_eq]
  rcases le_total i.toNat (2 ^ 64 - 1) with hle | hge
  · rw [min_eq_left hle]
  · rw [min_eq_right hge, List.getElem?_eq_none (by omega), List.getElem?_eq_none (by omega)]

section

variable (context : Context F) (environment : Environment)

theorem call_join (sep : String) (texts : List (List Char)) :
    Registry.builtin.call "join" context environment
        (.string sep :: (texts.map .ofChars : List (Value F))) =
      .ok (.ofChars (join sep.toList texts)) := by
  have hcall : Registry.builtin.call "join" context environment
      (.string sep :: (texts.map .ofChars : List (Value F))) =
        .ok (.ofChars (join sep.toList (Value.spreadTexts (texts.map .ofChars)))) := rfl
  rw [hcall, spreadTexts_map_ofChars]

theorem call_countSelected (v : Value F) :
    Registry.builtin.call "count-selected" context environment [v] =
      .ok (.number (Float.ofNat (items v).length)) := rfl

theorem call_selected (v wanted : Value F) :
    Registry.builtin.call "selected" context environment [v, wanted] =
      .ok (.boolean (decide (trim wanted.toText.toList ∈ items v))) := by
  rw [← List.contains_eq_mem]
  rfl

theorem call_selectedAt (v index : Value F) :
    Registry.builtin.call "selected-at" context environment [v, index] =
      selectedAt ⟨"selected-at", context, environment⟩ v index := rfl

/-- An index beyond the items, or below zero, gives the empty text. -/
theorem call_selectedAt_integer {v index : Value F} (hlength : (items v).length < 2 ^ 64) {i : Int}
    (hindex : IsInteger (index.toNumber environment.zone) i) :
    Registry.builtin.call "selected-at" context environment [v, index] =
      .ok (.ofChars (if 0 ≤ i then (items v)[i.toNat]?.getD [] else [])) := by
  rw [call_selectedAt, selectedAt, Call.zone]
  dsimp only
  rw [hindex.1, Bool.true_and, getElem?_toIndex hlength hindex]
  simp only [hindex.nonneg_iff, decide_eq_true_eq]
  split_ifs <;> rfl

/-- Normalizing blanks joins the items with one blank each. -/
theorem call_normalizeSpace (v : Value F) :
    Registry.builtin.call "normalize-space" context environment [v] =
      .ok (.ofChars (join [' '] (items v))) := rfl

/-! ### Lists and texts -/

/-- A list joined from items is counted, searched and read by number as those items. Any text is
made into the joined list of its items, once and for all, and no function tells the two apart. -/
theorem lists_read_alike :
    (∀ parts : List (List Char), (∀ part ∈ parts, IsItem part) →
      let list : Value F := .ofChars (join [' '] parts)
      Registry.builtin.call "join" context environment (.string " " :: parts.map .ofChars) =
        .ok list ∧
      Registry.builtin.call "count-selected" context environment [list] =
        .ok (.number (Float.ofNat parts.length)) ∧
      (∀ wanted : Value F, Registry.builtin.call "selected" context environment [list, wanted] =
        .ok (.boolean (decide (trim wanted.toText.toList ∈ parts)))) ∧
      (parts.length < 2 ^ 64 → ∀ (index : Value F) (i : Int),
        IsInteger (index.toNumber environment.zone) i →
          Registry.builtin.call "selected-at" context environment [list, index] =
            .ok (.ofChars (if 0 ≤ i then parts[i.toNat]?.getD [] else [])))) ∧
    ∀ v : Value F, ∃ parts, Items v.toText.toList parts ∧
      let list : Value F := .ofChars (join [' '] parts)
      Registry.builtin.call "normalize-space" context environment [v] = .ok list ∧
      Registry.builtin.call "normalize-space" context environment [list] = .ok list ∧
      Registry.builtin.call "count-selected" context environment [v] =
        Registry.builtin.call "count-selected" context environment [list] ∧
      (∀ wanted : Value F, Registry.builtin.call "selected" context environment [v, wanted] =
        Registry.builtin.call "selected" context environment [list, wanted]) ∧
      ∀ index : Value F, Registry.builtin.call "selected-at" context environment [v, index] =
        Registry.builtin.call "selected-at" context environment [list, index] := by
  constructor
  · intro parts hparts list
    have hitems : items list = parts := by
      rw [items_ofChars, Text.words_join hparts]
    refine ⟨call_join context environment " " parts, ?_, ?_, ?_⟩
    · rw [call_countSelected, hitems]
    · intro wanted
      rw [call_selected, hitems]
    · intro hlength index i hindex
      rw [call_selectedAt_integer context environment (by rwa [hitems]) hindex, hitems]
  · intro v
    have hparts : ∀ part ∈ items v, IsItem part := fun part => Text.isItem_of_mem_words
    have hitems : items (.ofChars (join [' '] (items v)) : Value F) = items v := by
      rw [items_ofChars, Text.words_join hparts]
    refine ⟨items v, Text.items_iff.2 rfl, call_normalizeSpace context environment v, ?_, ?_, ?_, ?_⟩
    · rw [call_normalizeSpace, hitems]
    · rw [call_countSelected, call_countSelected, hitems]
    · intro wanted
      rw [call_selected, call_selected, hitems]
    · intro index
      rw [call_selectedAt, call_selectedAt, selectedAt, selectedAt, hitems]

end

/-- Two colours, one of them asked for between blanks and the other by its number. -/
theorem lists_read_alike_colours :
    let environment : Environment := .standard .summerTime ⟨0, 0, 0⟩ fun _ => 0
    let parts := ["red".toList, "dark-blue".toList]
    let list : Value ⟨[]⟩ := .ofChars (join [' '] parts)
    (∀ part ∈ parts, IsItem part) ∧ parts.length < 2 ^ 64 ∧ IsInteger 1 1 ∧
    Registry.builtin.call "count-selected" ⟨none, 0, 0⟩ environment [list] = .ok (.number 2) ∧
    Registry.builtin.call "selected" ⟨none, 0, 0⟩ environment [list, .string "\u00a0red "] =
      .ok (.boolean true) ∧
    Registry.builtin.call "selected-at" ⟨none, 0, 0⟩ environment [list, .number 1] =
      .ok (.string "dark-blue") := by
  intro environment parts list
  have hparts : ∀ part ∈ parts, IsItem part := by decide
  have hlength : parts.length < 2 ^ 64 := by decide
  have hwanted : trim "\u00a0red ".toList ∈ parts := by decide
  obtain ⟨-, hcount, hselected, hat⟩ :=
    (lists_read_alike (F := ⟨[]⟩) ⟨none, 0, 0⟩ environment).1 parts hparts
  have hfound := hselected (.string "\u00a0red ")
  rw [Value.toText, decide_eq_true hwanted] at hfound
  exact ⟨hparts, hlength, Binary64.isInteger_one, hcount, hfound,
    hat hlength (.number 1) 1 Binary64.isInteger_one⟩

end FormExpr.Library
