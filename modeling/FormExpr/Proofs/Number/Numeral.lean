import FormExpr.Proofs.Calendar.DateText
import FormExpr.Proofs.Number.Shortest
import FormExpr.Proofs.Text.Blank

/-!
# A written number is read back

Positional and scientific notation are both digits, a point before more digits, and an exponent.
Reading such a layout takes each part off as far as the next one begins, so it finds a decimal of
the value that was written, and the decimal rounds to the number. A date text, which has a dash
after digits, is never laid out so.
-/

namespace FormExpr

open Binary64 Text

/-! ### Layouts -/

namespace Numeral

structure Layout where
  whole : List Char
  fraction : List Char
  exponent : Option Int
  whole_ne_nil : whole ≠ []
  isDigit_whole : ∀ c ∈ whole, c.isDigit = true
  isDigit_fraction : ∀ c ∈ fraction, c.isDigit = true

namespace Layout

def exponentText : Option Int → List Char
  | none => []
  | some e => 'e' :: (if e < 0 then '-' else '+') :: Nat.toDigits 10 e.natAbs

def afterWhole (l : Layout) : List Char :=
  if l.fraction.isEmpty then exponentText l.exponent
  else '.' :: (l.fraction ++ exponentText l.exponent)

def text (l : Layout) : List Char :=
  l.whole ++ l.afterWhole

def numeral (l : Layout) (negative : Bool) : Numeral :=
  ⟨negative, l.whole, l.fraction, l.exponent.getD 0⟩

def value (l : Layout) : ℚ :=
  (l.numeral false).toDecimal.value

end Layout

def signed (negative : Bool) (s : List Char) : List Char :=
  if negative then '-' :: s else s

/-! ### Reading a layout -/

theorem span_isDigit {xs rest : List Char} (hxs : ∀ c ∈ xs, c.isDigit = true)
    (hend : ∀ c ∈ rest.head?, c.isDigit = false) :
    (xs ++ rest).span Char.isDigit = (xs, rest) := by
  rw [List.span_eq_takeWhile_dropWhile, List.takeWhile_append_of_pos hxs,
    List.dropWhile_append_of_pos hxs]
  cases rest with
  | nil => simp
  | cons c rest =>
    have hc : c.isDigit = false := hend c rfl
    simp [hc]

theorem natural?_toDigits (n : Nat) : natural? (Nat.toDigits 10 n) = some n := by
  have hne : (Nat.toDigits 10 n).isEmpty = false := by
    rw [List.isEmpty_eq_false_iff]
    exact toDigits_ne_nil n
  have hall : (Nat.toDigits 10 n).all Char.isDigit = true := List.all_eq_true.2 (isDigit_toDigits n)
  rw [natural?, hne, hall, naturalOf_toDigits]
  rfl

theorem exponent?_exponentText (e : Option Int) :
    exponent? (Layout.exponentText e) = some (e.getD 0) := by
  cases e with
  | none => rfl
  | some e =>
    unfold Layout.exponentText exponent?
    dsimp only
    rw [if_pos (Or.inl rfl)]
    by_cases hnegative : e < 0
    · have hvalue : -(e.natAbs : Int) = e := by omega
      rw [if_pos hnegative, sign, natural?_toDigits]
      exact congrArg some hvalue
    · have hvalue : (e.natAbs : Int) = e := by omega
      rw [if_neg hnegative, sign, natural?_toDigits]
      exact congrArg some hvalue

theorem head_exponentText (e : Option Int) :
    ∀ c ∈ (Layout.exponentText e).head?, c = 'e' := by
  cases e with
  | none => simp [Layout.exponentText]
  | some e => simp [Layout.exponentText]

theorem places_afterWhole (l : Layout) :
    places l.afterWhole = (l.fraction, Layout.exponentText l.exponent) := by
  have hhead := head_exponentText l.exponent
  unfold Layout.afterWhole
  by_cases hempty : l.fraction.isEmpty = true
  · rw [if_pos hempty, List.isEmpty_iff.1 hempty]
    cases htail : Layout.exponentText l.exponent with
    | nil => rfl
    | cons c rest =>
      rw [htail] at hhead
      obtain rfl : c = 'e' := hhead c rfl
      rfl
  · rw [if_neg hempty]
    refine span_isDigit l.isDigit_fraction ?_
    intro c hc
    rw [hhead c hc]
    rfl

theorem head_afterWhole (l : Layout) : ∀ c ∈ l.afterWhole.head?, c = '.' ∨ c = 'e' := by
  intro c hc
  unfold Layout.afterWhole at hc
  split_ifs at hc with hempty
  · exact Or.inr (head_exponentText l.exponent c hc)
  · exact Or.inl (by simpa using hc.symm)

theorem sign_signed (negative : Bool) (l : Layout) :
    sign (signed negative l.text) = (negative, l.text) := by
  cases negative with
  | true => rfl
  | false =>
    unfold signed Layout.text
    have hdigit := l.isDigit_whole
    cases hwhole : l.whole with
    | nil => exact absurd hwhole l.whole_ne_nil
    | cons c rest =>
      rw [hwhole] at hdigit
      have hc := hdigit c List.mem_cons_self
      have hminus : c ≠ '-' := by
        rintro rfl
        exact absurd hc (by decide)
      have hplus : c ≠ '+' := by
        rintro rfl
        exact absurd hc (by decide)
      rw [if_neg Bool.false_ne_true, List.cons_append]
      unfold sign
      split
      · simp_all
      · simp_all
      · rfl

/-- A numeral that is laid out is read into its parts. -/
theorem ofText?_text (negative : Bool) (l : Layout) :
    ofText? (signed negative l.text) = some (l.numeral negative) := by
  have hboundary : ∀ c ∈ l.afterWhole.head?, c.isDigit = false := by
    intro c hc
    rcases head_afterWhole l c hc with rfl | rfl <;> rfl
  have hwhole : l.whole.isEmpty = false := by
    rw [List.isEmpty_eq_false_iff]
    exact l.whole_ne_nil
  unfold ofText?
  rw [sign_signed]
  dsimp only
  rw [Layout.text, span_isDigit l.isDigit_whole hboundary]
  dsimp only
  rw [places_afterWhole, hwhole]
  dsimp only
  rw [Bool.false_and, if_neg Bool.false_ne_true, exponent?_exponentText]
  rfl

namespace Layout

theorem noBlank_exponentText (e : Option Int) : NoBlank (exponentText e) := by
  have hmarks : isBlank 'e' = false ∧ isBlank '-' = false ∧ isBlank '+' = false := by decide
  obtain ⟨hletter, hminus, hplus⟩ := hmarks
  cases e with
  | none => exact noBlank_nil
  | some e =>
    have hdigits := noBlank_of_isDigit (isDigit_toDigits e.natAbs)
    unfold exponentText
    dsimp only
    split_ifs <;> simp [hletter, hminus, hplus, hdigits]

theorem noBlank_text (negative : Bool) (l : Layout) : NoBlank (signed negative l.text) := by
  have hmarks : isBlank '.' = false ∧ isBlank '-' = false := by decide
  have hwhole := noBlank_of_isDigit l.isDigit_whole
  have hfraction := noBlank_of_isDigit l.isDigit_fraction
  have hexponent := noBlank_exponentText l.exponent
  have htext : NoBlank l.text := by
    unfold text afterWhole
    split_ifs <;> simp [hmarks.1, hwhole, hfraction, hexponent]
  cases negative with
  | false => exact htext
  | true => exact noBlank_cons.2 ⟨hmarks.2, htext⟩

/-- A sign stands first, and after the digits there is a point or the letter of the exponent. -/
theorem not_isDateText (negative : Bool) (l : Layout) :
    isDateText (signed negative l.text) = false := by
  rw [Bool.eq_false_iff]
  intro hdate
  obtain ⟨⟨c, rest, hfirst, hsign⟩, after, hafter⟩ := dash_of_isDateText hdate
  cases negative with
  | true =>
    rw [signed, if_pos rfl, List.cons.injEq] at hfirst
    exact hsign hfirst.1.symm
  | false =>
    have hdigits : ∀ c ∈ l.whole, isDecimalDigit c = true :=
      fun c hc => isDecimalDigit_of_isDigit c (l.isDigit_whole c hc)
    have hhead := head_afterWhole l
    rw [signed, if_neg Bool.false_ne_true, text, List.dropWhile_append_of_pos hdigits] at hafter
    cases htail : l.afterWhole with
    | nil => simp [htail] at hafter
    | cons c rest =>
      rw [htail] at hhead hafter
      have hc := hhead c rfl
      have hdigit : isDecimalDigit c = false := by
        rcases hc with rfl | rfl <;> decide
      rw [List.dropWhile_cons, hdigit, if_neg Bool.false_ne_true, List.cons.injEq] at hafter
      rcases hc with rfl | rfl <;> exact absurd hafter.1 (by decide)

theorem named?_text (negative : Bool) (l : Layout) :
    Number.named? (signed negative l.text) = none := by
  obtain ⟨c, rest, hwhole⟩ := List.exists_cons_of_ne_nil l.whole_ne_nil
  have hc : c.isDigit = true := l.isDigit_whole c (by rw [hwhole]; exact List.mem_cons_self)
  have hname : c ≠ 'I' ∧ c ≠ '+' ∧ c ≠ '-' := by
    refine ⟨?_, ?_, ?_⟩ <;>
    · rintro rfl
      exact absurd hc (by decide)
  unfold Number.named? signed text
  rw [hwhole]
  cases negative <;> simp [hname]

/-- And it is read as the double nearest to its decimal. -/
theorem parse_text (negative : Bool) (l : Layout) :
    Number.parse (signed negative l.text) =
      ofMagnitude negative (l.numeral false).toDecimal.toMagnitude := by
  rw [Number.parse, named?_text, Numeral.ofText?_text]
  rfl

theorem text_of_fraction {l : Layout} (hexponent : l.exponent = none)
    (hfraction : l.fraction.isEmpty = false) : l.text = l.whole ++ '.' :: l.fraction := by
  rw [text, afterWhole, hfraction, if_neg Bool.false_ne_true, hexponent, exponentText,
    List.append_nil]

theorem text_of_whole {l : Layout} (hexponent : l.exponent = none)
    (hfraction : l.fraction.isEmpty = true) : l.text = l.whole := by
  rw [text, afterWhole, if_pos hfraction, hexponent, exponentText, List.append_nil]

theorem value_eq (l : Layout) :
    l.value =
      naturalOf (l.whole ++ l.fraction) * 10 ^ (l.exponent.getD 0 - l.fraction.length) := rfl

end Layout

end Numeral

/-! ### Writing a decimal -/

namespace Number

open Numeral (Layout signed)

section

variable {digits : List Char} (hdigits : ∀ c ∈ digits, c.isDigit = true)

include hdigits

theorem exists_layout_inside (point : Nat) (hpos : 0 < point) (hlt : point < digits.length) :
    ∃ l : Layout, digits.take point ++ '.' :: digits.drop point = l.text ∧
      l.value = naturalOf digits * 10 ^ ((point : Int) - digits.length) := by
  have hwhole : digits.take point ≠ [] := by
    rw [← List.length_pos_iff, List.length_take]
    omega
  have hpoint : (digits.drop point).isEmpty = false := by
    rw [List.isEmpty_eq_false_iff, ← List.length_pos_iff, List.length_drop]
    omega
  refine ⟨⟨digits.take point, digits.drop point, none, hwhole,
    fun c hc => hdigits c (List.mem_of_mem_take hc),
    fun c hc => hdigits c (List.mem_of_mem_drop hc)⟩, ?_, ?_⟩
  · rw [Layout.text_of_fraction rfl hpoint]
  · rw [Layout.value_eq]
    dsimp only
    rw [List.take_append_drop, List.length_drop, Option.getD_none]
    congr 2
    omega

variable (hne : digits ≠ [])

include hne

theorem exists_layout_leadingZeros (zeros : Nat) :
    ∃ l : Layout, '0' :: '.' :: (List.replicate zeros '0' ++ digits) = l.text ∧
      l.value = naturalOf digits * 10 ^ (-(zeros : Int) - digits.length) := by
  have hfraction : ∀ c ∈ List.replicate zeros '0' ++ digits, c.isDigit = true := by
    intro c hc
    rcases List.mem_append.1 hc with hzero | hdigit
    · exact isDigit_of_mem_replicate hzero
    · exact hdigits c hdigit
  have hpoint : (List.replicate zeros '0' ++ digits).isEmpty = false := by simp [hne]
  refine ⟨⟨['0'], _, none, by simp, by simp, hfraction⟩, ?_, ?_⟩
  · rw [Layout.text_of_fraction rfl hpoint]
    rfl
  · rw [Layout.value_eq]
    dsimp only
    rw [List.singleton_append, ← List.cons_append, ← List.replicate_succ,
      naturalOf_replicate_append, List.length_append, List.length_replicate, Option.getD_none]
    congr 2
    omega

theorem exists_layout_trailingZeros (zeros : Nat) :
    ∃ l : Layout, digits ++ List.replicate zeros '0' = l.text ∧
      l.value = naturalOf digits * 10 ^ (zeros : Int) := by
  have hwhole : ∀ c ∈ digits ++ List.replicate zeros '0', c.isDigit = true := by
    intro c hc
    rcases List.mem_append.1 hc with hdigit | hzero
    · exact hdigits c hdigit
    · exact isDigit_of_mem_replicate hzero
  refine ⟨⟨digits ++ List.replicate zeros '0', [], none, by simp [hne], hwhole, by simp⟩, ?_, ?_⟩
  · rw [Layout.text_of_whole rfl rfl]
  · rw [Layout.value_eq]
    dsimp only
    rw [List.append_nil, naturalOf_append_replicate, Option.getD_none, List.length_nil,
      Nat.cast_zero, sub_zero, zpow_zero, mul_one, zpow_natCast]
    push_cast
    rfl

theorem exists_layout_positional (point : Int) :
    ∃ l : Layout, positional digits point = l.text ∧
      l.value = naturalOf digits * 10 ^ (point - digits.length) := by
  unfold positional
  split_ifs with hsmall hinside
  · obtain ⟨l, htext, hvalue⟩ := exists_layout_leadingZeros hdigits hne (-point).toNat
    have hzeros : -(((-point).toNat : Nat) : Int) = point := by omega
    rw [hzeros] at hvalue
    exact ⟨l, htext, hvalue⟩
  · obtain ⟨l, htext, hvalue⟩ :=
      exists_layout_inside hdigits point.toNat (by omega) (by omega)
    have hpoint : (point.toNat : Int) = point := by omega
    rw [hpoint] at hvalue
    exact ⟨l, htext, hvalue⟩
  · obtain ⟨l, htext, hvalue⟩ :=
      exists_layout_trailingZeros hdigits hne (point - digits.length).toNat
    have hzeros : ((point - digits.length).toNat : Int) = point - digits.length := by omega
    rw [hzeros] at hvalue
    exact ⟨l, htext, hvalue⟩

theorem exists_layout_scientific (point : Int) :
    ∃ l : Layout, scientific digits point = l.text ∧
      l.value = naturalOf digits * 10 ^ (point - digits.length) := by
  cases digits with
  | nil => exact absurd rfl hne
  | cons first rest =>
    cases rest with
    | nil =>
      refine ⟨⟨[first], [], some (point - 1), hne, hdigits, by simp⟩, rfl, ?_⟩
      rw [Layout.value_eq]
      simp
    | cons second rest =>
      rw [List.forall_mem_cons] at hdigits
      refine ⟨⟨[first], second :: rest, some (point - 1), by simp, by simpa using hdigits.1,
        hdigits.2⟩, rfl, ?_⟩
      rw [Layout.value_eq]
      dsimp only
      rw [List.singleton_append, Option.getD_some, List.length_cons (a := first)]
      congr 2
      push_cast
      omega

end

/-- Whatever its size, a decimal is written as a numeral of the same value. -/
theorem exists_layout_writeDecimal (d : Decimal) :
    ∃ l : Layout, writeDecimal d = l.text ∧ l.value = d.value := by
  have hvalue : ∀ length : Nat, d.value =
      naturalOf (Nat.toDigits 10 d.digits) * 10 ^ ((length : Int) + d.exponent - length) := by
    intro length
    rw [naturalOf_toDigits, add_sub_cancel_left, Decimal.value]
  rw [hvalue (Nat.toDigits 10 d.digits).length]
  unfold writeDecimal
  dsimp only
  split_ifs
  · exact exists_layout_positional (isDigit_toDigits _) (toDigits_ne_nil _) _
  · exact exists_layout_scientific (isDigit_toDigits _) (toDigits_ne_nil _) _

/-! ### Writing and reading a number -/

def shown (x : Float) : Float :=
  if x == 0 then 0 else x

theorem shown_eq {x : Float} (hx : magnitude x ≤ infinityBits) :
    shown x = if magnitude x = 0 then 0 else x := by
  have hplace : (x == 0) = true ↔ magnitude x = 0 := by
    rw [zero_eq_ofMagnitude,
      beq_iff_place_eq hx (by rw [magnitude_ofMagnitude false (Nat.zero_le _)]; simp),
      place_ofMagnitude false (Nat.zero_le _), place]
    split_ifs <;> omega
  unfold shown
  split_ifs with h₁ h₂ h₂
  · rfl
  · exact absurd (hplace.1 h₁) h₂
  · exact absurd (hplace.2 h₂) h₁
  · rfl

inductive WrittenAs (x : Float) : List Char → Prop
  | nan (hx : infinityBits < magnitude x) : WrittenAs x "NaN".toList
  | infinity (hx : magnitude x = infinityBits) :
    WrittenAs x (signed (isNegative x) "Infinity".toList)
  | zero (hx : magnitude x = 0) : WrittenAs x ['0']
  | finite (hpos : 0 < magnitude x) (hlt : magnitude x < infinityBits) (l : Layout)
    (hvalue : l.value = (Dyadic.ofBits (magnitude x)).shortest.value) :
    WrittenAs x (signed (isNegative x) l.text)

/-- Every double is written in one of the ways. -/
theorem writtenAs_write (x : Float) : WrittenAs x (write x) := by
  have hinfinity : 0 < infinityBits := by decide
  unfold write
  rw [isNaN_eq, isInf_eq]
  rcases lt_trichotomy (magnitude x) infinityBits with hlt | heq | hgt
  · rw [decide_eq_false hlt.not_gt, decide_eq_false hlt.ne]
    rcases Nat.eq_zero_or_pos (magnitude x) with hzero | hpos
    · have hsign : (isNegative x && magnitude x != 0) = false := by simp [hzero]
      simp only [Bool.false_eq_true, if_false, hsign, if_pos hzero]
      exact .zero hzero
    · have hsign : (isNegative x && magnitude x != 0) = isNegative x := by simp [hpos.ne']
      simp only [Bool.false_eq_true, if_false, hsign, if_neg hpos.ne']
      obtain ⟨l, htext, hvalue⟩ :=
        exists_layout_writeDecimal (Dyadic.ofBits (magnitude x)).shortest
      rw [htext]
      exact .finite hpos hlt l hvalue
  · have hsign : (isNegative x && magnitude x != 0) = isNegative x := by
      simp [heq, hinfinity.ne']
    rw [decide_eq_false heq.not_gt, decide_eq_true heq]
    simp only [Bool.false_eq_true, if_false, if_true, hsign]
    exact .infinity heq
  · rw [decide_eq_true hgt]
    simp only [if_true]
    exact .nan hgt

namespace WrittenAs

variable {x : Float} {s : List Char}

theorem noBlank (h : WrittenAs x s) : NoBlank s := by
  cases h with
  | nan => simp [isBlank]
  | infinity => cases isNegative x <;> simp [signed, isBlank]
  | zero => simp [isBlank]
  | finite hpos hlt l => exact l.noBlank_text _

theorem not_isDateText (h : WrittenAs x s) : isDateText s = false := by
  have hname : isDateText "NaN".toList = false ∧ isDateText "Infinity".toList = false ∧
      isDateText "-Infinity".toList = false ∧ isDateText ['0'] = false := by decide
  obtain ⟨hnan, hinfinity, hminus, hzero⟩ := hname
  cases h with
  | nan => exact hnan
  | infinity =>
    cases isNegative x with
    | false => exact hinfinity
    | true => exact hminus
  | zero => exact hzero
  | finite hpos hlt l => exact l.not_isDateText _

theorem parse_eq (h : WrittenAs x s) (hx : magnitude x ≤ infinityBits) : parse s = shown x := by
  rw [shown_eq hx]
  cases h with
  | nan hnan => exact absurd hx hnan.not_ge
  | infinity hinfinity =>
    have hpositive : parse "Infinity".toList = ofMagnitude false infinityBits := by decide
    have hnegative : parse "-Infinity".toList = ofMagnitude true infinityBits := by decide
    have hne : magnitude x ≠ 0 := by
      rw [hinfinity]
      decide
    rw [if_neg hne, ← ofMagnitude_magnitude hx, isNegative_ofMagnitude _ hx, hinfinity]
    cases isNegative x with
    | false => exact hpositive
    | true => exact hnegative
  | zero hzero =>
    rw [if_pos hzero]
    decide
  | finite hpos hlt l hvalue =>
    rw [if_neg hpos.ne', Layout.parse_text, Decimal.toMagnitude_congr hvalue,
      Dyadic.toMagnitude_shortest (Dyadic.isCanonical_ofBits hpos) (by rwa [Dyadic.toBits_ofBits]),
      Dyadic.toBits_ofBits, ofMagnitude_magnitude hx]

theorem isNaN_parse (h : WrittenAs x s) (hx : infinityBits < magnitude x) :
    (parse s).isNaN = true := by
  cases h with
  | nan => decide
  | infinity hinfinity => omega
  | zero hzero => omega
  | finite hpos hlt => omega

end WrittenAs

theorem write_of_zero {x : Float} (hx : magnitude x = 0) : write x = ['0'] := by
  have hinfinity : 0 < infinityBits := by decide
  have h := writtenAs_write x
  generalize write x = s at h
  cases h with
  | nan hnan => omega
  | infinity hinfinite => omega
  | zero => rfl
  | finite hpos => omega

theorem write_of_isNaN {x : Float} (hx : x.isNaN = true) : write x = "NaN".toList := by
  rw [write, if_pos hx]

theorem write_shown {x : Float} (hx : magnitude x ≤ infinityBits) : write (shown x) = write x := by
  rw [shown_eq hx]
  split_ifs with hzero
  · have hmagnitude : magnitude (0 : Float) = 0 := by decide
    rw [write_of_zero hzero, write_of_zero hmagnitude]
  · rfl

/-- What is written is no date text, so both readers take it for a number. -/
theorem ofText_write (z : Zone) (x : Float) :
    isDateText (trim (write x)) = false ∧ ofText z (write x) = parse (write x) := by
  have h := writtenAs_write x
  have hdate : isDateText (trim (write x)) = false := by
    rw [trim_eq_self h.noBlank]
    exact h.not_isDateText
  refine ⟨hdate, ?_⟩
  rw [ofText, hdate, if_neg Bool.false_ne_true, trim_eq_self h.noBlank]

/-- Writing again what has been read gives the same text. -/
theorem write_parse_write (x : Float) : write (parse (write x)) = write x := by
  cases hx : x.isNaN with
  | false =>
    rw [isNaN_eq, decide_eq_false_iff_not, not_lt] at hx
    rw [(writtenAs_write x).parse_eq hx, write_shown hx]
  | true =>
    have hparse := (writtenAs_write x).isNaN_parse (by rwa [isNaN_eq, decide_eq_true_iff] at hx)
    rw [write_of_isNaN hparse, write_of_isNaN hx]

/-- Every number is read back from its text, in any zone and without ever being taken for a date;
and a number that was read from some text is always written in the same way. -/
theorem parse_write (z : Zone) (x : Float) :
    (x.isNaN = false → parse (write x) = shown x ∧ ofText z (write x) = shown x) ∧
    (x.isNaN = true → (parse (write x)).isNaN = true ∧ (ofText z (write x)).isNaN = true) ∧
    isDateText (trim (write x)) = false ∧
    ∀ t, write (parse (write (parse t))) = write (parse t) ∧
      write (ofText z (write (parse t))) = write (parse t) := by
  obtain ⟨hdate, hread⟩ := ofText_write z x
  refine ⟨?_, ?_, hdate, ?_⟩
  · intro hx
    rw [isNaN_eq, decide_eq_false_iff_not, not_lt] at hx
    have hparse := (writtenAs_write x).parse_eq hx
    exact ⟨hparse, hread.trans hparse⟩
  · intro hx
    rw [isNaN_eq, decide_eq_true_iff] at hx
    have hparse := (writtenAs_write x).isNaN_parse hx
    exact ⟨hparse, by rwa [hread]⟩
  · intro t
    have hagain := write_parse_write (parse t)
    exact ⟨hagain, by rwa [(ofText_write z (parse t)).2]⟩

/-- A number below a millionth, which is written with an exponent, and the undefined number. -/
theorem parse_write_scientific :
    let x : Float := -1.5e-7
    x.isNaN = false ∧ write x = "-1.5e-7".toList ∧ parse (write x) = x ∧
    ofText .summerTime (write x) = x ∧ nan.isNaN = true ∧ (parse (write nan)).isNaN = true := by
  intro x
  have hx : x.isNaN = false := by decide +kernel
  have hshown : shown x = x := by decide +kernel
  have htext : write x = "-1.5e-7".toList := by decide +kernel
  have hnan : nan.isNaN = true := by decide +kernel
  obtain ⟨hparse, hread⟩ := (parse_write .summerTime x).1 hx
  rw [hshown] at hparse hread
  exact ⟨hx, htext, hparse, hread, hnan, ((parse_write .summerTime nan).2.1 hnan).1⟩

end Number

end FormExpr
