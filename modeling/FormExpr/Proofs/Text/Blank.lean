import FormExpr.Proofs.Text.Digit
import FormExpr.Text.Blank
import Mathlib.Data.List.TakeWhile

/-!
# Texts without blanks

Trimming takes nothing off a text without blanks, and digits are none.
-/

namespace FormExpr.Text

def NoBlank (s : List Char) : Prop :=
  ∀ c ∈ s, isBlank c = false

@[simp]
theorem noBlank_nil : NoBlank [] := by
  simp [NoBlank]

@[simp]
theorem noBlank_cons {c : Char} {s : List Char} :
    NoBlank (c :: s) ↔ isBlank c = false ∧ NoBlank s := by
  simp [NoBlank]

@[simp]
theorem noBlank_append {s t : List Char} : NoBlank (s ++ t) ↔ NoBlank s ∧ NoBlank t := by
  simp [NoBlank, or_imp, forall_and]

theorem dropWhile_isBlank {s : List Char} (h : NoBlank s) : s.dropWhile isBlank = s := by
  cases s with
  | nil => rfl
  | cons c rest =>
    rw [List.dropWhile_cons, (noBlank_cons.1 h).1]
    rfl

/-- Nothing is trimmed where nothing is blank. -/
theorem trim_eq_self {s : List Char} (h : NoBlank s) : trim s = s := by
  have hreverse : NoBlank s.reverse := by
    intro c hc
    exact h c (List.mem_reverse.1 hc)
  rw [trim, trimStart, dropWhile_isBlank h, trimEnd, dropWhile_isBlank hreverse,
    List.reverse_reverse]

/-- A text is trimmed away if it is all blanks. -/
theorem trim_eq_nil_iff {s : List Char} : trim s = [] ↔ ∀ c ∈ s, isBlank c = true := by
  induction s with
  | nil => exact iff_of_true rfl nofun
  | cons c rest ih =>
    cases hc : isBlank c with
    | true =>
      have htrim : trim (c :: rest) = trim rest := by
        rw [trim, trimStart, List.dropWhile_cons_of_pos hc, ← trimStart, ← trim]
      rw [htrim, ih, List.forall_mem_cons, hc]
      exact (and_iff_right rfl).symm
    | false =>
      -- Only the end is trimmed, and that does not reach over `c`.
      rw [trim, trimStart, List.dropWhile_cons_of_neg (by simp [hc]), trimEnd,
        List.reverse_eq_nil_iff, List.dropWhile_eq_nil_iff]
      simp only [List.mem_reverse]

theorem noBlank_of_isDigit {digits : List Char} (hdigits : ∀ c ∈ digits, c.isDigit = true) :
    NoBlank digits := by
  intro c hc
  obtain ⟨hlow, hhigh⟩ := (isDigit_iff c).1 (hdigits c hc)
  unfold isBlank
  simp only [Bool.or_eq_false_iff, Bool.and_eq_false_iff, decide_eq_false_iff_not,
    beq_eq_false_iff_ne]
  omega

end FormExpr.Text
