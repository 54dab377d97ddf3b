import FormExpr.Pattern.Engine
import Mathlib.Data.List.Infix
import Mathlib.Data.Option.Basic

/-!
# What is documented of a pattern engine

An engine is known by what its documentation says: it reads no pattern that leaves a group or a
class open or closes one that is not, what it has read it finds wherever it occurs, a group without
a number is the pattern inside, and `^` and `$` hold at the ends of the text. From this follows what
the frame of a pattern does.
-/

namespace FormExpr.Pattern

/-! ### Patterns that close what they open -/

/-- Whether the text, in a comment or not, closes the given numbers of brackets and parentheses and
all that it opens itself. Escaped characters do not count, nor parentheses in brackets, nor a
bracket that closes right after the first one that opens. -/
def closes : Bool → Nat → Nat → List Char → Bool
  | comment, brackets, parentheses, [] => !comment && brackets == 0 && parentheses == 0
  | _, _, _, ['\\'] => false
  | comment, brackets, parentheses, '\\' :: _ :: rest => closes comment brackets parentheses rest
  | true, brackets, parentheses, c :: rest => closes (c != ')') brackets parentheses rest
  | false, 0, parentheses, '(' :: '?' :: '#' :: rest => closes true 0 parentheses rest
  | false, 0, parentheses, '[' :: '^' :: ']' :: rest => closes false 1 parentheses rest
  | false, 0, parentheses, '[' :: ']' :: rest => closes false 1 parentheses rest
  | false, brackets, parentheses, '[' :: rest => closes false (brackets + 1) parentheses rest
  | false, brackets + 1, parentheses, ']' :: rest => closes false brackets parentheses rest
  | false, 0, parentheses, '(' :: rest => closes false 0 (parentheses + 1) rest
  | false, 0, 0, ')' :: _ => false
  | false, 0, parentheses + 1, ')' :: rest => closes false 0 parentheses rest
  | false, brackets, parentheses, _ :: rest => closes false brackets parentheses rest

def Closed (pattern : List Char) : Prop :=
  closes false 0 0 pattern = true

instance (pattern : List Char) : Decidable (Closed pattern) :=
  inferInstanceAs (Decidable (_ = _))

def commentEnds : List Char → Bool
  | [] => false
  | c :: rest => c == '\n' || c ∉ ['(', ')', '[', ']', '\\'] && commentEnds rest

def commentsEnd : List Char → Bool
  | [] => true
  | '\\' :: _ :: rest => commentsEnd rest
  | '(' :: '?' :: '#' :: rest => commentsEnd rest
  | '#' :: rest => commentEnds rest && commentsEnd rest
  | _ :: rest => commentsEnd rest

/-- Where a flag may let number signs begin comments, these end with a line break. -/
def CommentsEnd (pattern : List Char) : Prop :=
  ['(', '?'] <:+: pattern → 'x' ∈ pattern → commentsEnd pattern = true

instance (pattern : List Char) : Decidable (CommentsEnd pattern) :=
  inferInstanceAs (Decidable (_ → _))

/-! ### Engines -/

def grouped (pattern : List Char) : List Char :=
  ['(', '?', ':'] ++ pattern ++ [')']

theorem framed_eq (pattern : List Char) : framed pattern = '^' :: grouped pattern ++ ['$'] := by
  simp [framed, grouped]

def frames (pattern : List Char) : List (List Char) :=
  [grouped pattern, '^' :: grouped pattern, framed pattern]

namespace Engine

def Reads (engine : Engine) (pattern : List Char) : Prop :=
  (engine.read? pattern).isSome

/-- What the documentation of an engine says. `fits` holds of the texts that meet no limit of the
engine, such as one of nesting, and `span` gives the characters from one place of a text to another
that a pattern can be matched against. -/
structure Documented (engine : Engine) (fits : List Char → Prop)
    (span : List Char → List Char → Nat → Nat → Prop) : Prop where
  occurs : ∀ {pattern search}, engine.read? pattern = some search → ∀ s,
    ∃ found, search s = some found ∧ (found = true ↔ ∃ i j, span pattern s i j)
  closed : ∀ {pattern}, CommentsEnd pattern → fits pattern → engine.Reads pattern → Closed pattern
  framed_closed : ∀ {pattern}, CommentsEnd pattern → fits (framed pattern) →
    engine.Reads (framed pattern) → Closed (framed pattern)
  group : ∀ {pattern}, CommentsEnd pattern → Closed pattern → fits (grouped pattern) →
    (engine.Reads (grouped pattern) ↔ engine.Reads pattern) ∧
    (engine.Reads pattern → ∀ s i j, span (grouped pattern) s i j ↔ span pattern s i j)
  start : ∀ {pattern}, CommentsEnd pattern → Closed pattern → fits ('^' :: grouped pattern) →
    (engine.Reads ('^' :: grouped pattern) ↔ engine.Reads (grouped pattern)) ∧
    (engine.Reads (grouped pattern) → ∀ s i j,
      span ('^' :: grouped pattern) s i j ↔ i = 0 ∧ span (grouped pattern) s i j)
  stop : ∀ {pattern}, CommentsEnd pattern → Closed pattern →
    fits ('^' :: grouped pattern ++ ['$']) →
    (engine.Reads ('^' :: grouped pattern ++ ['$']) ↔ engine.Reads ('^' :: grouped pattern)) ∧
    (engine.Reads ('^' :: grouped pattern) → ∀ s i j,
      span ('^' :: grouped pattern ++ ['$']) s i j ↔
        span ('^' :: grouped pattern) s i j ∧ j = s.length)

/-- There is no answer if the frame is not read or the search is given up. -/
theorem matchesWhole?_eq_none_iff {engine : Engine} {pattern s : List Char} :
    engine.matchesWhole? pattern s = none ↔
      engine.read? (framed pattern) = none ∨
      ∃ search, engine.read? (framed pattern) = some search ∧ search s = none := by
  rw [matchesWhole?]
  cases engine.read? (framed pattern) <;> simp

namespace Documented

variable {engine : Engine} {fits : List Char → Prop}
  {span : List Char → List Char → Nat → Nat → Prop} {pattern : List Char}

/-- A search for the framed pattern is answered if the frame is read at all. -/
theorem matchesWhole?_cases (h : engine.Documented fits span) (pattern s : List Char) :
    (¬ engine.Reads (framed pattern) ∧ engine.matchesWhole? pattern s = none) ∨
    engine.Reads (framed pattern) ∧ ∃ found, engine.matchesWhole? pattern s = some found ∧
      (found = true ↔ ∃ i j, span (framed pattern) s i j) := by
  unfold Reads matchesWhole?
  cases hread : engine.read? (framed pattern) with
  | none => exact Or.inl ⟨nofun, rfl⟩
  | some search => exact Or.inr ⟨rfl, h.occurs hread s⟩

section

variable (h : engine.Documented fits span) (hcomments : CommentsEnd pattern)
  (hfits : ∀ text ∈ pattern :: frames pattern, fits text)
include h hcomments hfits

/-- A pattern that closes what it opens is read in its frame exactly if it is read alone. -/
theorem reads_framed_iff_of_closed (hclosed : Closed pattern) :
    engine.Reads (framed pattern) ↔ engine.Reads pattern := by
  rw [framed_eq, (h.stop hcomments hclosed (framed_eq pattern ▸ hfits _ (by simp [frames]))).1,
    (h.start hcomments hclosed (hfits _ (by simp [frames]))).1,
    (h.group hcomments hclosed (hfits _ (by simp [frames]))).1]

/-- The frame is read exactly if the pattern is, unless it closes what the pattern does not. -/
theorem reads_framed_iff (hframe : Closed (framed pattern) → Closed pattern) :
    engine.Reads (framed pattern) ↔ engine.Reads pattern := by
  by_cases hclosed : Closed pattern
  · exact h.reads_framed_iff_of_closed hcomments hfits hclosed
  · refine iff_of_false (fun hread => ?_) fun hread => ?_
    · exact hclosed (hframe (h.framed_closed hcomments (hfits _ (by simp [frames])) hread))
    · exact hclosed (h.closed hcomments (hfits _ List.mem_cons_self) hread)

end

/-- This one closes the group that it is put into, and opens another. -/
example : ¬ Closed "a)|(?:b".toList ∧ Closed (framed "a)|(?:b".toList) := by decide

section

variable (h : engine.Documented fits span) (hcomments : CommentsEnd pattern)
  (hfits : ∀ text ∈ pattern :: frames pattern, fits text)
include h hcomments hfits

/-- The framed pattern occurs exactly if the pattern itself spans the text. -/
theorem exists_span_framed_iff (hread : engine.Reads pattern) (s : List Char) :
    (∃ i j, span (framed pattern) s i j) ↔ span pattern s 0 s.length := by
  have hclosed := h.closed hcomments (hfits _ List.mem_cons_self) hread
  have hstop := h.stop hcomments hclosed (framed_eq pattern ▸ hfits _ (by simp [frames]))
  have hstart := h.start hcomments hclosed (hfits _ (by simp [frames]))
  have hgroup := h.group hcomments hclosed (hfits _ (by simp [frames]))
  have hgrouped := hgroup.1.2 hread
  have hstarted := hstart.1.2 hgrouped
  simp only [framed_eq, hstop.2 hstarted, hstart.2 hgrouped, hgroup.2 hread]
  constructor
  · rintro ⟨_, _, ⟨rfl, hspan⟩, rfl⟩
    exact hspan
  · intro hspan
    exact ⟨0, s.length, ⟨rfl, hspan⟩, rfl⟩

end

end Documented

end Engine

end FormExpr.Pattern
