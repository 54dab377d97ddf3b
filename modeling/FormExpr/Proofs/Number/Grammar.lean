import FormExpr.Proofs.Number.Numeral

/-!
# The grammar of numerals

A text is a number exactly if it is one of three names or a numeral: an optional sign, a significand
and an optional exponent. The forms below say so without regard to how a text is read. Each part is
read back from its form, as far as the next part begins, and a part that is read has its form.

Readers of doubles commonly take the names `inf`, `infinity` and `nan` too, in any case. A text that
holds nothing but what numerals are made of, with some digit among it, is never such a name.
-/

namespace FormExpr

open Binary64 Text

namespace Numeral

/-! ### Forms -/

def IsDigits (s : List Char) : Prop :=
  s ≠ [] ∧ ∀ c ∈ s, c.isDigit = true

inductive SignForm : List Char → Bool → Prop
  | absent : SignForm [] false
  | plus : SignForm ['+'] false
  | minus : SignForm ['-'] true

/-- Digits with an optional point and further digits, or a point and then digits; with the digits
before and after the point. -/
inductive SignificandForm : List Char → List Char → List Char → Prop
  | whole {ds : List Char} (digits : IsDigits ds) : SignificandForm ds ds []
  | point {ds fs : List Char} (digits : IsDigits ds) (further : ∀ c ∈ fs, c.isDigit = true) :
    SignificandForm (ds ++ '.' :: fs) ds fs
  | pointFirst {fs : List Char} (digits : IsDigits fs) : SignificandForm ('.' :: fs) [] fs

inductive ExponentForm : List Char → Int → Prop
  | absent : ExponentForm [] 0
  | written {letter : Char} {ss ds : List Char} {negative : Bool}
    (letter_eq : letter = 'e' ∨ letter = 'E') (sign : SignForm ss negative) (digits : IsDigits ds) :
    ExponentForm (letter :: (ss ++ ds))
      (if negative then -(naturalOf ds : Int) else naturalOf ds)

inductive Form : List Char → Numeral → Prop
  | intro {ss ms es whole fraction : List Char} {negative : Bool} {e : Int}
    (sign : SignForm ss negative) (significand : SignificandForm ms whole fraction)
    (exponent : ExponentForm es e) :
    Form (ss ++ (ms ++ es)) ⟨negative, whole, fraction, e⟩

/-! ### Signs -/

theorem SignForm.sign_eq {ss rest : List Char} {negative : Bool} (h : SignForm ss negative)
    (hrest : ∀ c ∈ rest.head?, c ≠ '-' ∧ c ≠ '+') : sign (ss ++ rest) = (negative, rest) := by
  cases h with
  | plus | minus => rfl
  | absent =>
    rw [List.nil_append]
    unfold sign
    split
    · exact absurd rfl (hrest '-' rfl).1
    · exact absurd rfl (hrest '+' rfl).2
    · rfl

theorem exists_signForm (s : List Char) : ∃ ss, SignForm ss (sign s).1 ∧ s = ss ++ (sign s).2 := by
  unfold sign
  split
  · exact ⟨['-'], .minus, rfl⟩
  · exact ⟨['+'], .plus, rfl⟩
  · exact ⟨[], .absent, rfl⟩

theorem IsDigits.head {ds : List Char} (h : IsDigits ds) (rest : List Char) :
    ∀ c ∈ (ds ++ rest).head?, c.isDigit = true := by
  intro c hc
  rw [List.head?_append_of_ne_nil _ h.1] at hc
  exact h.2 c (List.mem_of_mem_head? hc)

theorem not_sign_of_isDigit {c : Char} (hc : c.isDigit = true) : c ≠ '-' ∧ c ≠ '+' := by
  constructor <;>
  · rintro rfl
    exact absurd hc (by decide)

/-! ### Exponents -/

theorem natural?_eq_some {ds : List Char} (h : IsDigits ds) :
    natural? ds = some (naturalOf ds) :=
  natural?_eq_some_iff.2 ⟨h.1, h.2, rfl⟩

theorem exponent?_cons (letter : Char) (rest : List Char) :
    exponent? (letter :: rest) =
      if letter = 'e' ∨ letter = 'E' then
        (natural? (sign rest).2).map fun n : Nat => if (sign rest).1 then -(n : Int) else n
      else none := by
  rw [exponent?]
  dsimp only
  cases natural? (sign rest).2 <;> rfl

/-- The exponents that are read are those of the grammar. -/
theorem exponent?_eq_some_iff {s : List Char} {e : Int} :
    exponent? s = some e ↔ ExponentForm s e := by
  constructor
  · intro hexponent
    cases s with
    | nil =>
      cases hexponent
      exact .absent
    | cons letter rest =>
      rw [exponent?_cons, Option.ite_none_right_eq_some] at hexponent
      obtain ⟨hletter, hvalue⟩ := hexponent
      obtain ⟨n, hdigits, rfl⟩ := Option.map_eq_some_iff.1 hvalue
      obtain ⟨hne, hall, rfl⟩ := natural?_eq_some_iff.1 hdigits
      obtain ⟨ss, hsign, hrest⟩ := exists_signForm rest
      have hform := ExponentForm.written hletter hsign ⟨hne, hall⟩
      rwa [← hrest] at hform
  · intro hform
    cases hform with
    | absent => rfl
    | @written letter ss ds negative hletter hsign hdigits =>
      have hhead : ∀ c ∈ ds.head?, c ≠ '-' ∧ c ≠ '+' := by
        intro c hc
        exact not_sign_of_isDigit (hdigits.2 c (List.mem_of_mem_head? hc))
      rw [exponent?_cons, if_pos hletter, hsign.sign_eq hhead, natural?_eq_some hdigits]
      rfl

theorem ExponentForm.head {s : List Char} {e : Int} (h : ExponentForm s e) :
    ∀ c ∈ s.head?, c = 'e' ∨ c = 'E' := by
  cases h with
  | absent => simp
  | written hletter => simpa using hletter

/-! ### Significands -/

/-- The digits up to the next other character. -/
theorem span_isDigit_eq_iff {s run rest : List Char} :
    s.span Char.isDigit = (run, rest) ↔
      s = run ++ rest ∧ (∀ c ∈ run, c.isDigit = true) ∧ ∀ c ∈ rest.head?, c.isDigit = false := by
  constructor
  · intro hspan
    rw [List.span_eq_takeWhile_dropWhile, Prod.mk.injEq] at hspan
    obtain ⟨rfl, rfl⟩ := hspan
    refine ⟨List.takeWhile_append_dropWhile.symm, ?_, ?_⟩
    · exact fun c hc => List.all_eq_true.1 List.all_takeWhile c hc
    · intro c hc
      have hhead := List.head?_dropWhile_not Char.isDigit s
      rw [Option.mem_def] at hc
      rw [hc] at hhead
      simpa using hhead
  · rintro ⟨rfl, hrun, hend⟩
    exact span_isDigit hrun hend

theorem exists_significandForm {s whole after fraction rest : List Char}
    (hspan : s.span Char.isDigit = (whole, after)) (hplaces : places after = (fraction, rest))
    (hdigit : ¬ (whole = [] ∧ fraction = [])) :
    ∃ ms, SignificandForm ms whole fraction ∧ s = ms ++ rest := by
  obtain ⟨rfl, hwhole, -⟩ := span_isDigit_eq_iff.1 hspan
  unfold places at hplaces
  split at hplaces
  · rename_i tail
    obtain ⟨rfl, hfraction, -⟩ := span_isDigit_eq_iff.1 hplaces
    by_cases hne : whole = []
    · subst hne
      exact ⟨'.' :: fraction, .pointFirst ⟨fun h => hdigit ⟨rfl, h⟩, hfraction⟩, rfl⟩
    · exact ⟨whole ++ '.' :: fraction, .point ⟨hne, hwhole⟩ hfraction, by simp⟩
  · rw [Prod.mk.injEq] at hplaces
    obtain ⟨rfl, rfl⟩ := hplaces
    exact ⟨whole, .whole ⟨fun h => hdigit ⟨h, rfl⟩, hwhole⟩, rfl⟩

namespace SignificandForm

variable {ms whole fraction : List Char} (h : SignificandForm ms whole fraction)

include h

/-- A significand is read as far as something stands that is neither a digit nor a point. -/
theorem reads {rest : List Char} (hrest : ∀ c ∈ rest.head?, c.isDigit = false ∧ c ≠ '.') :
    ∃ after, (ms ++ rest).span Char.isDigit = (whole, after) ∧ places after = (fraction, rest) := by
  have hboundary : ∀ c ∈ rest.head?, c.isDigit = false := fun c hc => (hrest c hc).1
  cases h with
  | whole digits =>
    refine ⟨rest, span_isDigit digits.2 hboundary, ?_⟩
    unfold places
    split
    · exact absurd rfl (hrest '.' rfl).2
    · rfl
  | point digits further =>
    refine ⟨'.' :: (fraction ++ rest), ?_, span_isDigit further hboundary⟩
    rw [List.append_assoc]
    exact span_isDigit digits.2 (by simp)
  | pointFirst digits =>
    exact ⟨'.' :: (fraction ++ rest), span_isDigit_eq_iff.2 ⟨rfl, by simp, by simp⟩,
      span_isDigit digits.2 hboundary⟩

theorem some_digit : ¬ (whole = [] ∧ fraction = []) := by
  rintro ⟨hwhole, hfraction⟩
  cases h with
  | whole digits | point digits => exact digits.1 hwhole
  | pointFirst digits => exact digits.1 hfraction

theorem head (rest : List Char) : ∀ c ∈ (ms ++ rest).head?, c ≠ '-' ∧ c ≠ '+' := by
  intro c hc
  cases h with
  | whole digits => exact not_sign_of_isDigit (digits.head rest c hc)
  | point digits =>
    rw [List.append_assoc] at hc
    exact not_sign_of_isDigit (digits.head _ c hc)
  | pointFirst digits =>
    obtain rfl : '.' = c := by simpa using hc
    decide

end SignificandForm

/-! ### Numerals -/

/-- A text that is read as a numeral has the form of one, -/
theorem form_of_ofText? {s : List Char} {n : Numeral} (htext : ofText? s = some n) : Form s n := by
  obtain ⟨ss, hsign, hs⟩ := exists_signForm s
  unfold ofText? at htext
  dsimp only at htext
  split at htext
  · cases htext
  · rename_i hdigit
    obtain ⟨e, hexponent, rfl⟩ := Option.map_eq_some_iff.1 htext
    obtain ⟨ms, hsignificand, hunsigned⟩ :=
      exists_significandForm (s := (sign s).2) Prod.mk.eta.symm Prod.mk.eta.symm
        (by simpa using hdigit)
    have hform := Form.intro hsign hsignificand (exponent?_eq_some_iff.1 hexponent)
    rwa [← hunsigned, ← hs] at hform

/-- and every text of that form is read. -/
theorem Form.ofText?_eq {s : List Char} {n : Numeral} (h : Form s n) : ofText? s = some n := by
  obtain @⟨ss, ms, es, whole, fraction, negative, e, hsign, hsignificand, hexponent⟩ := h
  have hletter : ∀ c ∈ es.head?, c.isDigit = false ∧ c ≠ '.' := by
    intro c hc
    rcases hexponent.head c hc with rfl | rfl <;> decide
  obtain ⟨after, hspan, hplaces⟩ := hsignificand.reads hletter
  have hdigit : ¬ (whole.isEmpty && fraction.isEmpty) = true := by
    simpa using hsignificand.some_digit
  unfold ofText?
  rw [hsign.sign_eq (hsignificand.head es)]
  dsimp only
  rw [hspan]
  dsimp only
  rw [hplaces]
  dsimp only
  rw [if_neg hdigit, exponent?_eq_some_iff.2 hexponent]
  rfl

/-- A numeral is read exactly where it has its form, and with the parts that the form has. -/
theorem ofText?_eq_some_iff {s : List Char} {n : Numeral} : ofText? s = some n ↔ Form s n :=
  ⟨form_of_ofText?, Form.ofText?_eq⟩

end Numeral

namespace Number

open Numeral (Form SignForm SignificandForm ExponentForm)

def IsName (s : List Char) : Prop :=
  s = "Infinity".toList ∨ s = "+Infinity".toList ∨ s = "-Infinity".toList

def IsNumeral (s : List Char) : Prop :=
  ∃ n, Form s n

/-! ### What is read is a number -/

theorem toMagnitude_le_infinityBits (d : Decimal) : d.toMagnitude ≤ infinityBits := by
  unfold Decimal.toMagnitude
  dsimp only
  split_ifs
  · exact Nat.zero_le _
  · exact le_rfl
  · exact Nat.zero_le _
  · exact nearest_le_infinityBits _ _

theorem isNaN_toFloat (n : Numeral) : n.toFloat.isNaN = false := by
  have hle := toMagnitude_le_infinityBits n.toDecimal
  rw [Numeral.toFloat, isNaN_eq, magnitude_ofMagnitude _ hle, decide_eq_false hle.not_gt]

theorem isNaN_parse_of_isName {s : List Char} (h : IsName s) : (parse s).isNaN = false := by
  rcases h with rfl | rfl | rfl <;> decide

theorem named?_eq_none {s : List Char} (h : ¬ IsName s) : named? s = none := by
  simp only [IsName, not_or] at h
  rw [named?, if_neg (not_or.2 ⟨h.1, h.2.1⟩), if_neg h.2.2]

/-- The texts that are numbers are the names of the infinities and the numerals. -/
theorem isNaN_parse_eq_false_iff (s : List Char) :
    (parse s).isNaN = false ↔ IsName s ∨ IsNumeral s := by
  by_cases hname : IsName s
  · exact iff_of_true (isNaN_parse_of_isName hname) (Or.inl hname)
  · rw [or_iff_right hname, parse, named?_eq_none hname]
    cases htext : Numeral.ofText? s with
    | none =>
      have hnumeral : ¬ IsNumeral s := by
        rintro ⟨n, hform⟩
        rw [hform.ofText?_eq] at htext
        cases htext
      exact iff_of_false (by decide) hnumeral
    | some n => exact iff_of_true (isNaN_toFloat n) ⟨n, Numeral.form_of_ofText? htext⟩

/-! ### What numerals are made of -/

def IsMark (c : Char) : Prop :=
  c.isDigit = true ∨ c ∈ ['.', 'e', 'E', '+', '-']

structure Spelled (s : List Char) : Prop where
  isMark : ∀ c ∈ s, IsMark c
  digit : ∃ c ∈ s, c.isDigit = true

theorem isMark_of_isDigits {ds : List Char} (hds : ∀ c ∈ ds, c.isDigit = true) :
    ∀ c ∈ ds, IsMark c :=
  fun c hc => Or.inl (hds c hc)

theorem isMark_of_signForm {ss : List Char} {negative : Bool} (h : SignForm ss negative) :
    ∀ c ∈ ss, IsMark c := by
  cases h <;> simp [IsMark]

theorem isMark_of_exponentForm {es : List Char} {e : Int} (h : ExponentForm es e) :
    ∀ c ∈ es, IsMark c := by
  cases h with
  | absent => simp
  | written hletter hsign hdigits =>
    rw [List.forall_mem_cons, List.forall_mem_append]
    refine ⟨?_, isMark_of_signForm hsign, isMark_of_isDigits hdigits.2⟩
    rcases hletter with rfl | rfl <;> exact Or.inr (by decide)

theorem spelled_of_isDigits {ds : List Char} (h : Numeral.IsDigits ds) : Spelled ds := by
  obtain ⟨c, hc⟩ := List.exists_mem_of_ne_nil ds h.1
  exact ⟨isMark_of_isDigits h.2, c, hc, h.2 c hc⟩

/-- Marks around a spelled text leave it spelled. -/
theorem Spelled.enclose {s before after : List Char} (h : Spelled s)
    (hbefore : ∀ c ∈ before, IsMark c) (hafter : ∀ c ∈ after, IsMark c) :
    Spelled (before ++ (s ++ after)) := by
  obtain ⟨c, hc, hdigit⟩ := h.digit
  constructor
  · rw [List.forall_mem_append, List.forall_mem_append]
    exact ⟨hbefore, h.isMark, hafter⟩
  · exact ⟨c, List.mem_append_right before (List.mem_append_left after hc), hdigit⟩

theorem spelled_of_significandForm {ms whole fraction : List Char}
    (h : SignificandForm ms whole fraction) : Spelled ms := by
  have hpoint : ∀ c ∈ ['.'], IsMark c := by simp [IsMark]
  have hnone : ∀ c ∈ ([] : List Char), IsMark c := by simp
  cases h with
  | whole digits => exact spelled_of_isDigits digits
  | point digits further =>
    refine (spelled_of_isDigits digits).enclose hnone ?_
    rw [List.forall_mem_cons]
    exact ⟨hpoint '.' List.mem_cons_self, isMark_of_isDigits further⟩
  | pointFirst digits =>
    have hspelled := (spelled_of_isDigits digits).enclose hpoint hnone
    rwa [List.append_nil] at hspelled

/-- A numeral is spelled with marks and has a digit. -/
theorem IsNumeral.spelled {s : List Char} (h : IsNumeral s) : Spelled s := by
  obtain ⟨n, hsign, hsignificand, hexponent⟩ := h
  exact (spelled_of_significandForm hsignificand).enclose (isMark_of_signForm hsign)
    (isMark_of_exponentForm hexponent)

/-! ### Names in any case -/

/-- One of the names that readers of doubles take in any case, with an optional sign. -/
inductive IsCommonName : List Char → Prop
  | intro {ss name : List Char} {negative : Bool} (sign : SignForm ss negative)
    (name_mem : name.map Char.toLower ∈ ["inf", "infinity", "nan"].map String.toList) :
    IsCommonName (ss ++ name)

theorem isDigit_of_isAlpha {c : Char} (hc : c.isAlpha = true) : c.isDigit = false := by
  simp only [Char.isAlpha, Char.isUpper, Char.isLower, Bool.or_eq_true,
    Bool.and_eq_true, decide_eq_true_eq, ge_iff_le, UInt32.le_iff_toNat_le] at hc
  rw [Bool.eq_false_iff, Ne, isDigit_iff]
  have hletters : ('A' : Char).val.toNat = 65 ∧ ('a' : Char).val.toNat = 97 := ⟨rfl, rfl⟩
  have hval : c.toNat = c.val.toNat := rfl
  omega

/-- No common name has a digit. -/
theorem IsCommonName.no_digit {s : List Char} (h : IsCommonName s) :
    ∀ c ∈ s, c.isDigit = false := by
  obtain @⟨ss, name, negative, hsign, hname⟩ := h
  have hletters : ∀ t ∈ ["inf", "infinity", "nan"].map String.toList, ∀ d ∈ t,
      d.isAlpha = true := by simp
  rw [List.forall_mem_append]
  constructor
  · cases hsign <;> simp
  · intro c hc
    have halpha := hletters _ hname _ (List.mem_map_of_mem hc)
    rw [Char.isAlpha_toLower_eq_isAlpha] at halpha
    exact isDigit_of_isAlpha halpha

/-- So the look at the marks shuts out the common names, and no numeral. -/
theorem isNumeral_iff_spelled (s : List Char) :
    IsNumeral s ↔ Spelled s ∧ (IsNumeral s ∨ IsCommonName s) := by
  constructor
  · exact fun h => ⟨h.spelled, Or.inl h⟩
  · rintro ⟨hspelled, hnumeral | hname⟩
    · exact hnumeral
    · obtain ⟨c, hc, hdigit⟩ := hspelled.digit
      rw [hname.no_digit c hc] at hdigit
      cases hdigit

/-- Exactly the names and the numerals are read as numbers. The numerals are in turn the spelled
texts among all that a reader takes who knows the common names too. -/
theorem parse_grammar (s : List Char) :
    ((parse s).isNaN = false ↔ IsName s ∨ IsNumeral s) ∧
    (IsNumeral s ↔ Spelled s ∧ (IsNumeral s ∨ IsCommonName s)) :=
  ⟨isNaN_parse_eq_false_iff s, isNumeral_iff_spelled s⟩

end Number

end FormExpr
