import FormExpr.Text.Scan

/-!
# What a scanning step takes

A step that succeeds has split the text: the piece it gives and the rest make up the text again. It
takes a given piece off when the piece cannot go on in the rest.
-/

namespace FormExpr.Text

theorem eq_cons_of_char? {c : Char} {s rest : List Char} (hchar : char? c s = some rest) :
    s = c :: rest := by
  cases s with
  | nil => cases hchar
  | cons d tail =>
    rw [char?] at hchar
    split at hchar
    · rename_i heq
      rw [heq, Option.some.inj hchar]
    · cases hchar

/-- A run lies at the front of the text, holds characters of the class alone, and has a length
within its bounds. -/
theorem eq_append_of_run? {p : Char → Bool} {least most : Nat} {s run rest : List Char}
    (hrun : run? p least most s = some (run, rest)) :
    s = run ++ rest ∧ (∀ c ∈ run, p c = true) ∧ least ≤ run.length ∧ run.length ≤ most := by
  rw [run?] at hrun
  split at hrun
  · cases hrun
  · rename_i hleast
    simp only [Option.some.injEq, Prod.mk.injEq] at hrun
    obtain ⟨rfl, rfl⟩ := hrun
    have htake : (s.take most).takeWhile p <+: s :=
      (List.takeWhile_prefix p).trans (List.take_prefix most s)
    refine ⟨?_, ?_, Nat.le_of_not_lt hleast, ?_⟩
    · exact (List.prefix_iff_eq_append.1 htake).symm
    · intro c hc
      exact List.all_eq_true.1 List.all_takeWhile c hc
    · exact Nat.le_trans (List.takeWhile_prefix p).length_le (List.length_take_le most s)

@[simp]
theorem char?_cons_self (c : Char) (rest : List Char) : char? c (c :: rest) = some rest := by
  simp [char?]

theorem run?_append {p : Char → Bool} {least most : Nat} {run : List Char} (rest : List Char)
    (hclass : ∀ c ∈ run, p c = true) (hleast : least ≤ run.length) (hmost : run.length ≤ most)
    (hend : run.length = most ∨ ∀ c ∈ rest.head?, p c = false) :
    run? p least most (run ++ rest) = some (run, rest) := by
  have hrun : ((run ++ rest).take most).takeWhile p = run := by
    rw [List.take_append, List.take_of_length_le hmost, List.takeWhile_append_of_pos hclass]
    have hstop : (rest.take (most - run.length)).takeWhile p = [] := by
      rcases hend with hfull | hboundary
      · rw [hfull, Nat.sub_self]
        rfl
      · cases rest with
        | nil => simp
        | cons c rest =>
          have hc : p c = false := hboundary c rfl
          cases most - run.length with
          | zero => rfl
          | succ n => simp [hc]
    rw [hstop, List.append_nil]
  simp only [run?, hrun]
  rw [if_neg (Nat.not_lt_of_le hleast), List.drop_left]

/-- A reader that wants nothing behind a run has read one up to the end. -/
theorem run?_eq_of_whole {p : Char → Bool} {least most : Nat} {s digits : List Char}
    (hwhole : ((run? p least most s).bind fun (digits, rest) =>
      if rest.isEmpty then some digits else none) = some digits) :
    run? p least most s = some (digits, []) := by
  simp only [Option.bind_eq_some_iff, Option.ite_none_right_eq_some, Option.some.injEq,
    List.isEmpty_iff] at hwhole
  obtain ⟨⟨run, rest⟩, hrun, rfl, rfl⟩ := hwhole
  exact hrun

/-! ### Runs of digits -/

structure DigitRun (least most : Nat) (digits : List Char) : Prop where
  isDecimalDigit : ∀ c ∈ digits, isDecimalDigit c = true
  least_le : least ≤ digits.length
  le_most : digits.length ≤ most

namespace DigitRun

variable {least most width : Nat} {s digits rest : List Char}

theorem of_run? (hrun : run? Text.isDecimalDigit least most s = some (digits, rest)) :
    s = digits ++ rest ∧ DigitRun least most digits := by
  obtain ⟨hsplit, hclass, hleast, hmost⟩ := eq_append_of_run? hrun
  exact ⟨hsplit, hclass, hleast, hmost⟩

theorem ne_nil (h : DigitRun least most digits) (hleast : 0 < least) : digits ≠ [] :=
  List.ne_nil_of_length_pos (Nat.lt_of_lt_of_le hleast h.least_le)

theorem length_eq (h : DigitRun width width digits) : digits.length = width :=
  Nat.le_antisymm h.le_most h.least_le

theorem run?_eq (h : DigitRun width width digits) (rest : List Char) :
    run? Text.isDecimalDigit width width (digits ++ rest) = some (digits, rest) :=
  run?_append rest h.isDecimalDigit h.least_le h.le_most (Or.inl h.length_eq)

end DigitRun

end FormExpr.Text
