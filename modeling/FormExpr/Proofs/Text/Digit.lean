import FormExpr.Text.Digit
import Mathlib.Algebra.Order.Monoid.Unbundled.Pow
import Mathlib.Tactic.Ring

/-!
# Numbers in decimal digits

A run of digits denotes its value in base ten, so cutting the last digits off divides by a power of
ten, and a number written with leading zeros is read back.
-/

namespace FormExpr.Text

/-! ### Digits -/

theorem isDigit_iff (c : Char) : c.isDigit = true ↔ 48 ≤ c.toNat ∧ c.toNat ≤ 57 := by
  simp only [Char.isDigit, Bool.and_eq_true, decide_eq_true_eq, ge_iff_le, UInt32.le_iff_toNat_le]
  exact Iff.rfl

/-- In ASCII there are no other digits than the ten of the first range. -/
theorem isDecimalDigit_of_ascii {c : Char} (hascii : c.toNat < 128) :
    isDecimalDigit c = c.isDigit := by
  have hfirst : ∀ first ∈ digitZeros.tail, 128 ≤ first := by decide
  have hlater : (digitZeros.tail.any fun first => first ≤ c.toNat && c.toNat < first + 10) =
      false := by
    rw [List.any_eq_false]
    intro first hmem
    have hle := hfirst first hmem
    simp only [Bool.and_eq_true, decide_eq_true_eq]
    omega
  have hsplit : isDecimalDigit c = ((48 ≤ c.toNat && c.toNat < 58) || false) := by
    rw [← hlater]
    rfl
  rw [hsplit, Bool.or_false, Bool.eq_iff_iff, isDigit_iff, Bool.and_eq_true, decide_eq_true_eq,
    decide_eq_true_eq]
  omega

theorem digitValue_le {c : Char} (hdigit : c.isDigit = true) : digitValue c ≤ 9 := by
  have hle := ((isDigit_iff c).1 hdigit).2
  have hzero : '0'.toNat = 48 := rfl
  unfold digitValue
  omega

/-! ### Values -/

theorem naturalOf_eq_ofDigitChars (digits : List Char) :
    naturalOf digits = Nat.ofDigitChars 10 digits 0 := rfl

/-- Digits in front count by the number of digits behind them. -/
theorem naturalOf_append (xs ys : List Char) :
    naturalOf (xs ++ ys) = naturalOf xs * 10 ^ ys.length + naturalOf ys := by
  simp only [naturalOf_eq_ofDigitChars]
  rw [Nat.ofDigitChars_append, Nat.ofDigitChars_eq_ofDigitChars_zero, Nat.mul_comm]

theorem naturalOf_cons (c : Char) (digits : List Char) :
    naturalOf (c :: digits) = digitValue c * 10 ^ digits.length + naturalOf digits := by
  rw [← List.singleton_append, naturalOf_append]
  simp [naturalOf]

/-- As many digits as a power of ten has zeros denote less than it. -/
theorem naturalOf_lt {digits : List Char} (hdigits : ∀ c ∈ digits, c.isDigit = true) :
    naturalOf digits < 10 ^ digits.length := by
  induction digits with
  | nil => simp [naturalOf]
  | cons c digits ih =>
    rw [List.forall_mem_cons] at hdigits
    have hrest := ih hdigits.2
    have hfirst := Nat.mul_le_mul_right (10 ^ digits.length) (digitValue_le hdigits.1)
    rw [naturalOf_cons, List.length_cons, pow_succ]
    omega

/-- Cutting off the last digits divides by a power of ten. -/
theorem naturalOf_append_div {xs ys : List Char} (hys : ∀ c ∈ ys, c.isDigit = true) :
    naturalOf (xs ++ ys) / 10 ^ ys.length = naturalOf xs := by
  rw [naturalOf_append, Nat.mul_comm, Nat.mul_add_div (Nat.pow_pos (by norm_num)),
    Nat.div_eq_of_lt (naturalOf_lt hys), Nat.add_zero]

theorem isDigit_of_mem_replicate {n : Nat} {c : Char} (hc : c ∈ List.replicate n '0') :
    c.isDigit = true := by
  rw [List.eq_of_mem_replicate hc]
  rfl

theorem naturalOf_append_replicate (digits : List Char) (places : Nat) :
    naturalOf (digits ++ List.replicate places '0') = naturalOf digits * 10 ^ places := by
  rw [naturalOf_append, List.length_replicate, naturalOf_eq_ofDigitChars,
    naturalOf_eq_ofDigitChars (List.replicate places '0'), Nat.ofDigitChars_replicate_zero,
    Nat.mul_zero, Nat.add_zero]

theorem naturalOf_replicate_append (places : Nat) (digits : List Char) :
    naturalOf (List.replicate places '0' ++ digits) = naturalOf digits := by
  rw [naturalOf_append, naturalOf_eq_ofDigitChars (List.replicate places '0'),
    Nat.ofDigitChars_replicate_zero, Nat.mul_zero, Nat.zero_mul, Nat.zero_add]

/-- The digits of a number denote it. -/
theorem naturalOf_toDigits (n : Nat) : naturalOf (Nat.toDigits 10 n) = n :=
  Nat.ofDigitChars_ten_toDigits

theorem isDigit_toDigits (n : Nat) : ∀ c ∈ Nat.toDigits 10 n, c.isDigit = true :=
  fun _ hc => Nat.isDigit_of_mem_toDigits (by norm_num) le_rfl hc

theorem toDigits_ne_nil (n : Nat) : Nat.toDigits 10 n ≠ [] := by
  rw [← List.length_pos_iff]
  exact Nat.length_toDigits_pos

/-- The first digits of a fraction, filled up with zeros, are its value in units of the last of
them, rounded down. -/
theorem naturalOf_take_append_replicate {digits : List Char}
    (hdigits : ∀ c ∈ digits, c.isDigit = true) (places : Nat) :
    naturalOf ((digits ++ List.replicate places '0').take places) =
      naturalOf digits * 10 ^ places / 10 ^ digits.length := by
  obtain ⟨text, htext⟩ : ∃ text, text = digits ++ List.replicate places '0' := ⟨_, rfl⟩
  have hrest : ∀ c ∈ text.drop places, c.isDigit = true := by
    intro c hc
    rcases List.mem_append.1 (htext ▸ List.mem_of_mem_drop hc) with hdigit | hzero
    · exact hdigits c hdigit
    · exact isDigit_of_mem_replicate hzero
  have hlength : (text.drop places).length = digits.length := by simp [htext]
  have hvalue : naturalOf text = naturalOf digits * 10 ^ places := by
    rw [htext, naturalOf_append_replicate]
  rw [← htext, ← hvalue, ← hlength, ← naturalOf_append_div hrest, List.take_append_drop]

/-! ### Numbers in a text -/

/-- Only runs of ASCII digits are read. -/
theorem natural?_eq_some_iff {digits : List Char} {n : Nat} :
    natural? digits = some n ↔
      digits ≠ [] ∧ (∀ c ∈ digits, c.isDigit = true) ∧ naturalOf digits = n := by
  rw [natural?, ← List.all_eq_true]
  cases digits with
  | nil => simp
  | cons c rest => cases (c :: rest).all Char.isDigit <;> simp

structure Denotes (least most : Nat) (digits : List Char) (n : Nat) : Prop where
  isDigit : ∀ c ∈ digits, c.isDigit = true
  least_le : least ≤ digits.length
  le_most : digits.length ≤ most
  value : naturalOf digits = n

theorem denotes_iff (least most : Nat) (digits : List Char) (n : Nat) :
    Denotes least most digits n ↔
      digits.all Char.isDigit = true ∧ least ≤ digits.length ∧ digits.length ≤ most ∧
      naturalOf digits = n := by
  rw [List.all_eq_true]
  constructor
  · rintro ⟨hdigits, hleast, hmost, hvalue⟩
    exact ⟨hdigits, hleast, hmost, hvalue⟩
  · rintro ⟨hdigits, hleast, hmost, hvalue⟩
    exact ⟨hdigits, hleast, hmost, hvalue⟩

instance (least most : Nat) (digits : List Char) (n : Nat) :
    Decidable (Denotes least most digits n) :=
  decidable_of_iff' _ (denotes_iff least most digits n)

namespace Denotes

variable {least most : Nat} {digits : List Char} {n : Nat}

theorem isDecimalDigit (h : Denotes least most digits n) :
    ∀ c ∈ digits, isDecimalDigit c = true :=
  fun c hc => isDecimalDigit_of_isDigit c (h.isDigit c hc)

theorem length_eq (h : Denotes most most digits n) : digits.length = most :=
  Nat.le_antisymm h.le_most h.least_le

theorem of_le {least' most' : Nat} (h : Denotes least most digits n) (hleast : least' ≤ least)
    (hmost : digits.length ≤ most') : Denotes least' most' digits n :=
  ⟨h.isDigit, hleast.trans h.least_le, hmost, h.value⟩

theorem lt (h : Denotes least most digits n) : n < 10 ^ most := by
  rw [← h.value]
  exact (naturalOf_lt h.isDigit).trans_le (Nat.pow_le_pow_right (by norm_num) h.le_most)

theorem natural?_eq (h : Denotes least most digits n) (hleast : 0 < least) :
    natural? digits = some n := by
  have hnonempty : digits ≠ [] := List.ne_nil_of_length_pos (hleast.trans_le h.least_le)
  exact natural?_eq_some_iff.2 ⟨hnonempty, h.isDigit, h.value⟩

end Denotes

/-! ### Padded numbers -/

theorem isDigit_of_mem_padded {width n : Nat} {c : Char} (hc : c ∈ padded width n) :
    c.isDigit = true := by
  rcases List.mem_append.1 hc with hzero | hdigit
  · exact isDigit_of_mem_replicate hzero
  · exact isDigit_toDigits n c hdigit

theorem naturalOf_padded (width n : Nat) : naturalOf (padded width n) = n := by
  unfold padded
  rw [naturalOf_replicate_append, naturalOf_toDigits]

theorem padded_inj {width a b : Nat} : padded width a = padded width b ↔ a = b := by
  refine ⟨fun h => ?_, congrArg _⟩
  rw [← naturalOf_padded width a, h, naturalOf_padded]

/-- A number with digits enough is not filled up. -/
theorem padded_eq_toDigits {width n : Nat} (hn : 10 ^ width ≤ n) :
    padded (width + 1) n = Nat.toDigits 10 n := by
  have hlength : width + 1 ≤ (Nat.toDigits 10 n).length := by
    rcases Nat.eq_zero_or_pos width with rfl | hwidth
    · exact Nat.length_toDigits_pos
    · rw [Nat.succ_le_iff, ← Nat.not_le, Nat.length_toDigits_le_iff (by norm_num) hwidth, Nat.not_lt]
      exact hn
  unfold padded
  dsimp only
  rw [Nat.sub_eq_zero_of_le hlength, List.replicate_zero, List.nil_append]

theorem denotes_padded {width n : Nat} (hwidth : 0 < width) (hn : n < 10 ^ width) :
    Denotes width width (padded width n) n := by
  have hle : (Nat.toDigits 10 n).length ≤ width :=
    (Nat.length_toDigits_le_iff (by norm_num) hwidth).2 hn
  have hlength : (padded width n).length = width := by
    unfold padded
    rw [List.length_append, List.length_replicate]
    omega
  exact ⟨fun c => isDigit_of_mem_padded, hlength.ge, hlength.le, naturalOf_padded width n⟩

end FormExpr.Text
