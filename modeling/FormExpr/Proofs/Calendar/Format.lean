import FormExpr.Calendar.Format
import FormExpr.Proofs.Function.Shape

/-!
# Formats that are refused

A format is refused for its first bad escape: a percent sign at the end, or one before a letter that
names no part of a date. No date makes a difference.
-/

namespace FormExpr.Moment

def formatCodes : List Char :=
  ['%', 'Y', 'y', 'm', 'n', 'b', 'd', 'e', 'H', 'h', 'M', 'S', '3', 'a']

/-- Which letters are known does not depend on the clock. -/
theorem escape?_eq_none_iff {w : WallClock} {code : Char} :
    escape? w code = none ↔ code ∉ formatCodes := by
  unfold escape? formatCodes
  split <;> simp_all

/-- The first bad escape of a format, as the error that reports it. -/
inductive BadEscape : List Char → Error → Prop where
  | dangling : BadEscape ['%'] .danglingEscape
  | unknown {code : Char} {rest : List Char} (hcode : code ∉ formatCodes) :
    BadEscape ('%' :: code :: rest) (.unknownEscape code)
  | escape {code : Char} {rest : List Char} {e : Error} (hcode : code ∈ formatCodes)
    (hrest : BadEscape rest e) : BadEscape ('%' :: code :: rest) e
  | plain {c : Char} {rest : List Char} {e : Error} (hc : c ≠ '%') (hrest : BadEscape rest e) :
    BadEscape (c :: rest) e

theorem BadEscape.error_eq {s : List Char} {e : Error} (h : BadEscape s e) :
    e = .danglingEscape ∨ ∃ code, e = .unknownEscape code := by
  induction h with
  | dangling => exact Or.inl rfl
  | unknown => exact Or.inr ⟨_, rfl⟩
  | escape _ _ ih => exact ih
  | plain _ _ ih => exact ih

/-- The first bad escape is reported, whatever the clock. -/
theorem formatWall_eq_error_iff {w : WallClock} {s : List Char} {e : Error} :
    formatWall w s = .error e ↔ BadEscape s e := by
  fun_induction formatWall w s with
  | case1 =>
    constructor
    · intro h
      cases h
    · intro h
      cases h
  | case2 =>
    constructor
    · intro h
      cases h
      exact .dangling
    · intro h
      cases h with
      | dangling => rfl
      | plain hc => exact absurd rfl hc
  | case3 code rest text hcode ih =>
    have hmem : code ∈ formatCodes := by
      by_contra hnot
      rw [escape?_eq_none_iff.2 hnot] at hcode
      cases hcode
    rw [map_eq_error_iff, ih]
    constructor
    · exact .escape hmem
    · intro h
      cases h with
      | unknown hnot => exact absurd hmem hnot
      | escape _ hrest => exact hrest
      | plain hc => exact absurd rfl hc
  | case4 code rest hcode =>
    have hnot := escape?_eq_none_iff.1 hcode
    constructor
    · intro h
      cases h
      exact .unknown hnot
    · intro h
      cases h with
      | unknown => rfl
      | escape hmem => exact absurd hmem hnot
      | plain hc => exact absurd rfl hc
  | case5 c rest hdangling hescape ih =>
    have hc : c ≠ '%' := by
      intro heq
      cases rest with
      | nil => exact hdangling heq rfl
      | cons code rest => exact hescape code rest heq rfl
    rw [map_eq_error_iff, ih]
    constructor
    · exact .plain hc
    · intro h
      cases h with
      | plain _ hrest => exact hrest
      | _ => exact absurd rfl hc

/-- Only a point in time is formatted, so only then does a bad escape matter. -/
theorem format_eq_error_iff {m : Moment} {s : List Char} {e : Error} :
    m.format s = .error e ↔ m.isValid = true ∧ BadEscape s e := by
  cases m with
  | valid t => exact formatWall_eq_error_iff.trans (and_iff_right rfl).symm
  | _ => simp [format, isValid]

end FormExpr.Moment
