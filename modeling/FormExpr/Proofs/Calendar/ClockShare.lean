import FormExpr.Calendar.ClockShare
import FormExpr.Proofs.Text.Scan

/-!
# The grammar of clock texts

A clock text is read exactly when it is the text of fields of the right lengths, and then as those
fields: each of them ends where its length, or a character that is no digit, says so.
-/

namespace FormExpr

open Text

namespace OffsetClockText

def pointed (fraction : List Char) : List Char :=
  if fraction.isEmpty then [] else '.' :: fraction

def sign (negative : Bool) : Char :=
  if negative then '-' else '+'

def text (t : OffsetClockText) : List Char :=
  t.hour ++ ':' :: (t.minute ++ ':' :: (t.second ++ (pointed t.fraction ++
    sign t.negative :: (t.offsetHour ++ ':' :: t.offsetMinute))))

structure WellFormed (t : OffsetClockText) : Prop where
  hour : DigitRun 2 2 t.hour
  minute : DigitRun 2 2 t.minute
  second : DigitRun 2 2 t.second
  fraction : DigitRun 0 3 t.fraction
  offsetHour : DigitRun 2 2 t.offsetHour
  offsetMinute : DigitRun 2 2 t.offsetMinute

theorem sign?_eq (negative : Bool) (rest : List Char) :
    sign? (sign negative :: rest) = some (negative, rest) := by
  cases negative <;> rfl

theorem eq_cons_of_sign? {s rest : List Char} {negative : Bool}
    (hsign : sign? s = some (negative, rest)) : s = sign negative :: rest := by
  unfold sign? at hsign
  split at hsign <;> cases hsign <;> rfl

theorem fraction?_eq {fraction : List Char} (hfraction : DigitRun 0 3 fraction) (negative : Bool)
    (rest : List Char) :
    fraction? (pointed fraction ++ sign negative :: rest) =
      some (fraction, sign negative :: rest) := by
  have hsign : isDecimalDigit (sign negative) = false ∧ sign negative ≠ '.' := by
    cases negative <;> decide
  cases fraction with
  | nil =>
    rw [pointed, List.isEmpty_nil, if_pos rfl, List.nil_append, fraction?]
    intro after heq
    exact hsign.2 (List.cons.inj heq).1
  | cons c digits =>
    refine run?_append _ hfraction.isDecimalDigit (Nat.le_add_left 1 _) hfraction.le_most
      (Or.inr ?_)
    rintro d ⟨⟩
    exact hsign.1

/-- A fraction is a point with up to three digits, or nothing. -/
theorem eq_append_of_fraction? {s fraction rest : List Char}
    (hfraction : fraction? s = some (fraction, rest)) :
    s = pointed fraction ++ rest ∧ DigitRun 0 3 fraction := by
  unfold fraction? at hfraction
  split at hfraction
  · obtain ⟨rfl, hrun⟩ := DigitRun.of_run? hfraction
    have hnonempty : fraction ≠ [] := List.ne_nil_of_length_pos hrun.least_le
    refine ⟨?_, hrun.isDecimalDigit, Nat.zero_le _, hrun.le_most⟩
    rw [pointed, List.isEmpty_eq_false_iff.2 hnonempty]
    rfl
  · cases hfraction
    exact ⟨rfl, by simp, Nat.le_refl 0, Nat.zero_le 3⟩

/-- The clock texts are the texts of well-formed fields, and the fields are read back. -/
theorem ofText?_eq_some_iff {s : List Char} {t : OffsetClockText} :
    ofText? s = some t ↔ t.WellFormed ∧ s = t.text := by
  constructor
  · intro htext
    simp only [ofText?, bind, Option.bind_eq_some_iff, Option.ite_none_right_eq_some,
      Option.some.injEq, List.isEmpty_iff] at htext
    obtain ⟨⟨hour, s₁⟩, hhour, s₂, hcolon, ⟨minute, s₃⟩, hminute, s₄, hcolon', ⟨second, s₅⟩, hsecond,
      ⟨fraction, s₆⟩, hfraction, ⟨negative, s₇⟩, hsign, ⟨offsetHour, s₈⟩, hoffsetHour, s₉, hcolon'',
      ⟨offsetMinute, s₁₀⟩, hoffsetMinute, rfl, rfl⟩ := htext
    obtain ⟨rfl, hour'⟩ := DigitRun.of_run? hhour
    obtain rfl := eq_cons_of_char? hcolon
    obtain ⟨rfl, minute'⟩ := DigitRun.of_run? hminute
    obtain rfl := eq_cons_of_char? hcolon'
    obtain ⟨rfl, second'⟩ := DigitRun.of_run? hsecond
    obtain ⟨rfl, fraction'⟩ := eq_append_of_fraction? hfraction
    obtain rfl := eq_cons_of_sign? hsign
    obtain ⟨rfl, offsetHour'⟩ := DigitRun.of_run? hoffsetHour
    obtain rfl := eq_cons_of_char? hcolon''
    obtain ⟨rfl, offsetMinute'⟩ := DigitRun.of_run? hoffsetMinute
    refine ⟨⟨hour', minute', second', fraction', offsetHour', offsetMinute'⟩, ?_⟩
    rw [text, List.append_nil]
  · rintro ⟨h, rfl⟩
    have hlast := h.offsetMinute.run?_eq []
    rw [List.append_nil] at hlast
    simp only [ofText?, text, h.hour.run?_eq, h.minute.run?_eq, h.second.run?_eq,
      fraction?_eq h.fraction, sign?_eq, h.offsetHour.run?_eq, hlast, char?_cons_self,
      bind, Option.bind_some, List.isEmpty_nil, if_true]

end OffsetClockText

end FormExpr
