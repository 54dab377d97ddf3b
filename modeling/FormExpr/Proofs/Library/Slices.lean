import FormExpr.Library.Builtin
import FormExpr.Proofs.Number.Sum

/-!
# Slices of a text

One function keeps the characters whose positions, counted from one and read as doubles, lie between
two bounds; the other cuts a slice between two places counted from zero, with negative ones counted
from the end. The bounds split a text wherever they are, since positions as doubles never go down.
Between integers whose doubles are exact the positions are those of a slice, so the two functions
agree.
-/

namespace FormExpr.Library

open Binary64 (IsInteger exactLimit infinity)

variable {F : Forest}

/-! ### Characters between bounds -/

def charsFrom (i : Nat) (start stop : Float) (s : List Char) : List Char :=
  (s.zipIdx i).filterMap fun (c, i) =>
    let position := Float.ofNat i
    if position ≥ start && position < stop then some c else none

/-- The characters between two bounds, position by position. -/
theorem between_eq_charsFrom (start stop : Float) (s : List Char) :
    between start stop s = charsFrom 1 start stop s := rfl

section

variable {x y z : Float}

theorem charsFrom_cons (i : Nat) (x y : Float) (c : Char) (s : List Char) :
    charsFrom i x y (c :: s) =
      if x ≤ Float.ofNat i ∧ Float.ofNat i < y then c :: charsFrom (i + 1) x y s
      else charsFrom (i + 1) x y s := by
  rw [charsFrom, List.zipIdx_cons, List.filterMap_cons]
  by_cases hbetween : x ≤ Float.ofNat i ∧ Float.ofNat i < y
  · rw [if_pos hbetween]
    simp only [ge_iff_le, hbetween, decide_true, Bool.and_self, if_true]
    rfl
  · rw [if_neg hbetween]
    rw [not_and_or] at hbetween
    rcases hbetween with hlow | hhigh
    · simp only [ge_iff_le, hlow, decide_false, Bool.false_and, Bool.false_eq_true, if_false]
      rfl
    · simp only [hhigh, decide_false, Bool.and_false, Bool.false_eq_true, if_false]
      rfl

theorem lt_iff_not_le_ofNat (hy : y.isNaN = false) (i : Nat) :
    Float.ofNat i < y ↔ ¬ y ≤ Float.ofNat i :=
  (Binary64.not_le_iff hy (Binary64.isNaN_ofNat i)).symm

/-- Past the upper bound there is nothing more to keep. -/
theorem charsFrom_eq_nil {i : Nat} (hy : y ≤ Float.ofNat i) (x : Float) (s : List Char) :
    charsFrom i x y s = [] := by
  induction s generalizing i with
  | nil => rfl
  | cons c s ih =>
    have hnext : y ≤ Float.ofNat (i + 1) :=
      Binary64.le_of_le_of_le hy (Binary64.ofNat_le_ofNat (Nat.le_succ i))
    have hout : ¬ (x ≤ Float.ofNat i ∧ Float.ofNat i < y) := by
      rw [lt_iff_not_le_ofNat (Binary64.isNaN_of_le hy).1]
      exact fun hin => hin.2 hy
    rw [charsFrom_cons, if_neg hout, ih hnext]

/-- What lies between two bounds is split by every bound between them. -/
theorem charsFrom_append {y' : Float} (hxy : x ≤ y) (hyy : y ≤ y') (hyy' : y' ≤ y) (hyz : y' ≤ z)
    (i : Nat) (s : List Char) :
    charsFrom i x y s ++ charsFrom i y' z s = charsFrom i x z s := by
  obtain ⟨-, hy⟩ := Binary64.isNaN_of_le hxy
  obtain ⟨hy', hz⟩ := Binary64.isNaN_of_le hyz
  induction s generalizing i with
  | nil => rfl
  | cons c s ih =>
    have ih := ih (i + 1)
    by_cases hsplit : y ≤ Float.ofNat i
    · -- Nothing is left for the part before the split.
      have hsplit' : y' ≤ Float.ofNat i := Binary64.le_of_le_of_le hyy' hsplit
      have hlow : x ≤ Float.ofNat i := Binary64.le_of_le_of_le hxy hsplit
      have hnext : y ≤ Float.ofNat (i + 1) :=
        Binary64.le_of_le_of_le hsplit (Binary64.ofNat_le_ofNat (Nat.le_succ i))
      rw [charsFrom_eq_nil hnext, List.nil_append] at ih
      rw [charsFrom_eq_nil hsplit, List.nil_append, charsFrom_cons, charsFrom_cons, ih]
      simp only [hsplit', hlow, true_and]
    · have hsplit' : ¬ y' ≤ Float.ofNat i := fun hle => hsplit (Binary64.le_of_le_of_le hyy hle)
      have hbefore : Float.ofNat i < y := (lt_iff_not_le_ofNat hy i).2 hsplit
      have hend : Float.ofNat i < z :=
        (lt_iff_not_le_ofNat hz i).2 fun hle => hsplit' (Binary64.le_of_le_of_le hyz hle)
      rw [charsFrom_cons i y' z, if_neg fun hin => hsplit' hin.1, charsFrom_cons, charsFrom_cons, ← ih]
      simp only [hbefore, hend, and_true]
      split
      · rw [List.cons_append]
      · rfl

end

/-- Between positions that are exact doubles lie the characters of a slice. -/
theorem charsFrom_eq_slice {lo hi : Nat} (hlo : lo ≤ hi) (hhi : hi + 1 < exactLimit) (i : Nat)
    (s : List Char) :
    charsFrom (i + 1) (Float.ofNat (lo + 1)) (Float.ofNat (hi + 1)) s =
      slice (lo - i) (hi - i) s := by
  induction s generalizing i with
  | nil => simp [charsFrom, slice]
  | cons c s ih =>
    have hlow := Binary64.ofNat_le_ofNat_iff (n := i + 1) (show lo + 1 < exactLimit by omega)
    have hhigh := Binary64.ofNat_le_ofNat_iff (n := i + 1) hhi
    rw [charsFrom_cons, ih]
    simp only [lt_iff_not_le_ofNat (Binary64.isNaN_ofNat (hi + 1)), hlow, hhigh]
    unfold slice
    rcases Nat.lt_or_ge i hi with hlt | hge
    · have hstop : hi - i = hi - (i + 1) + 1 := by omega
      rw [hstop, List.take_succ_cons]
      rcases Nat.lt_or_ge i lo with hlt' | hge'
      · have hstart : lo - i = lo - (i + 1) + 1 := by omega
        rw [if_neg (by omega), hstart, List.drop_succ_cons]
      · have hstart : lo - i = 0 := by omega
        have hstart' : lo - (i + 1) = 0 := by omega
        rw [if_pos (by omega), hstart, hstart', List.drop_zero, List.drop_zero]
    · have hstop : hi - i = 0 := by omega
      have hstop' : hi - (i + 1) = 0 := by omega
      rw [if_neg (by omega), hstop, hstop', List.take_zero, List.take_zero, List.drop_nil,
        List.drop_nil]

/-! ### Places -/

/-- The place from zero to `length` at an index; a negative index counts from the end. -/
def clamped (index : Int) (length : Nat) : Nat :=
  (min (if index < 0 then index + length else index) length).toNat

theorem place_of_isInteger {x : Float} {index : Int} (hx : IsInteger x index) (length : Nat) :
    place x length = clamped index length := by
  rw [place, Binary64.isNaN_of_isFinite hx.1, Binary64.isInf_of_isFinite hx.1, hx.truncInt_eq,
    if_neg Bool.false_ne_true, if_neg Bool.false_ne_true, clamped]
  dsimp only
  split_ifs <;> omega

/-! ### The two functions -/

section

variable (context : Context F) (environment : Environment) (v : Value F)

theorem call_substring {start length : Value F} {a b : Int}
    (hstart : IsInteger (start.toNumber environment.zone) a)
    (hlength : IsInteger (length.toNumber environment.zone) b) :
    Registry.builtin.call "substring" context environment [v, start, length] =
      .ok (.ofChars (charsFrom 1 (start.toNumber environment.zone)
        (start.toNumber environment.zone + length.toNumber environment.zone) v.toText.toList)) := by
  have hcall : Registry.builtin.call "substring" context environment [v, start, length] =
      .ok (.ofChars (between (Binary64.roundHalfUp (start.toNumber environment.zone))
        (Binary64.roundHalfUp (start.toNumber environment.zone) +
          Binary64.roundHalfUp (length.toNumber environment.zone)) v.toText.toList)) := rfl
  rw [hcall, hstart.roundHalfUp_eq, hlength.roundHalfUp_eq, between_eq_charsFrom]

theorem call_substring_toEnd {start : Value F} {a : Int}
    (hstart : IsInteger (start.toNumber environment.zone) a) :
    Registry.builtin.call "substring" context environment [v, start] =
      .ok (.ofChars (charsFrom 1 (start.toNumber environment.zone) infinity v.toText.toList)) := by
  have hcall : Registry.builtin.call "substring" context environment [v, start] =
      .ok (.ofChars (between (Binary64.roundHalfUp (start.toNumber environment.zone)) infinity
        v.toText.toList)) := rfl
  rw [hcall, hstart.roundHalfUp_eq, between_eq_charsFrom]

theorem call_substr (start stop : Value F) :
    Registry.builtin.call "substr" context environment [v, start, stop] =
      .ok (.ofChars (slice (place (start.toNumber environment.zone) v.toText.toList.length)
        (place (stop.toNumber environment.zone) v.toText.toList.length) v.toText.toList)) := rfl

theorem call_substr_of_isInteger {start stop : Value F} {i j : Int}
    (hstart : IsInteger (start.toNumber environment.zone) i)
    (hstop : IsInteger (stop.toNumber environment.zone) j) :
    Registry.builtin.call "substr" context environment [v, start, stop] =
      .ok (.ofChars (slice (clamped i v.toText.toList.length) (clamped j v.toText.toList.length)
        v.toText.toList)) := by
  rw [call_substr, place_of_isInteger hstart, place_of_isInteger hstop]

/-- Without an end a slice goes to the length of the text. -/
theorem call_substr_toEnd (start : Value F) {stop : Value F}
    (hstop : IsInteger (stop.toNumber environment.zone) v.toText.toList.length) :
    Registry.builtin.call "substr" context environment [v, start] =
      Registry.builtin.call "substr" context environment [v, start, stop] := by
  have hlength : place (stop.toNumber environment.zone) v.toText.toList.length =
      v.toText.toList.length := by
    rw [place_of_isInteger hstop, clamped]
    omega
  rw [call_substr, hlength]
  rfl

/-- A slice of characters is what lies between the positions after its places. -/
theorem call_substring_eq_slice {first length : Value F} {lo hi : Nat} (hlo : lo ≤ hi)
    (hhi : hi + 1 < exactLimit)
    (hfirst : IsInteger (first.toNumber environment.zone) (lo + 1))
    (hlength : IsInteger (length.toNumber environment.zone) (hi - lo)) :
    Registry.builtin.call "substring" context environment [v, first, length] =
      .ok (.ofChars (slice lo hi v.toText.toList)) := by
  have hlast := hfirst.add hlength (Binary64.isInteger_ofNat hhi) (by omega)
  rw [call_substring context environment v hfirst hlength, hlast.eq_ofNat (Nat.succ_pos hi) hhi,
    hfirst.eq_ofNat (n := lo + 1) (Nat.succ_pos lo) (by omega), charsFrom_eq_slice hlo hhi 0]
  rfl

end

/-- A text from an integer position on is split by every later one. A slice between two places holds
the characters at those places, and as long as positions are exact it is what lies between the
positions after them; without an end it goes to the last place. -/
theorem slices_agree (context : Context F) (environment : Environment) (v : Value F) :
    let z := environment.zone
    let s := v.toText.toList
    let substring := Registry.builtin.call "substring" context environment
    let substr := Registry.builtin.call "substr" context environment
    (∀ (start rest length : Value F) (a b : Int), IsInteger (start.toNumber z) a →
      IsInteger (rest.toNumber z) b → IsInteger (length.toNumber z) (b - a) → a ≤ b →
        ∃ left right, substring [v, start, length] = .ok (.ofChars left) ∧
          substring [v, rest] = .ok (.ofChars right) ∧
          substring [v, start] = .ok (.ofChars (left ++ right))) ∧
    (∀ (start stop : Value F) (i j : Int), IsInteger (start.toNumber z) i →
      IsInteger (stop.toNumber z) j →
        let lo := clamped i s.length
        let hi := clamped j s.length
        substr [v, start, stop] = .ok (.ofChars ((s.take hi).drop lo)) ∧
        (hi ≤ lo → substr [v, start, stop] = .ok (.ofChars [])) ∧
        (lo < hi → hi + 1 < exactLimit → ∀ first length : Value F,
          IsInteger (first.toNumber z) (lo + 1) → IsInteger (length.toNumber z) (hi - lo) →
            substr [v, start, stop] = substring [v, first, length])) ∧
    ∀ start stop : Value F, IsInteger (stop.toNumber z) s.length →
      substr [v, start] = substr [v, start, stop] := by
  refine ⟨?_, ?_, ?_⟩
  · intro start rest length a b hstart hrest hlength hab
    have hsum := hstart.add hlength hrest (by omega)
    refine ⟨_, _, call_substring context environment v hstart hlength,
      call_substring_toEnd context environment v hrest, ?_⟩
    rw [call_substring_toEnd context environment v hstart, charsFrom_append]
    · exact (hstart.le_iff hsum).2 hab
    · exact (hsum.le_iff hrest).2 le_rfl
    · exact (hrest.le_iff hsum).2 le_rfl
    · exact Binary64.le_infinity (Binary64.isNaN_of_isFinite hrest.1)
  · intro start stop i j hstart hstop lo hi
    have hslice := call_substr_of_isInteger context environment v hstart hstop
    refine ⟨hslice, ?_, ?_⟩
    · intro hle
      have hnil : slice lo hi v.toText.toList = [] :=
        List.drop_eq_nil_of_le ((List.length_take_le hi _).trans hle)
      rw [← hnil]
      exact hslice
    · intro hlt hhi first length hfirst hlength
      rw [call_substring_eq_slice context environment v hlt.le hhi hfirst hlength]
      exact hslice
  · intro start stop hstop
    exact call_substr_toEnd context environment v start hstop

/-- A text with a character of two bytes is split at its fourth one, and cut from the third last
character up to the last. -/
theorem slices_agree_naive :
    let environment : Environment := .standard .summerTime ⟨0, 0, 0⟩ fun _ => 0
    let v : Value ⟨[]⟩ := .string "naïve"
    let substring := Registry.builtin.call "substring" ⟨none, 0, 0⟩ environment
    let substr := Registry.builtin.call "substr" ⟨none, 0, 0⟩ environment
    IsInteger 2 2 ∧ IsInteger 4 4 ∧ (2 : Int) ≤ 4 ∧ IsInteger 5 5 ∧
    (∃ left right, substring [v, .number 2, .number 2] = .ok (.ofChars left) ∧
      substring [v, .number 4] = .ok (.ofChars right) ∧
      substring [v, .number 2] = .ok (.ofChars (left ++ right))) ∧
    IsInteger (-3) (-3) ∧ IsInteger (-1) (-1) ∧ IsInteger 3 3 ∧ clamped (-3) 5 = 2 ∧
    clamped (-1) 5 = 4 ∧ 4 + 1 < exactLimit ∧
    substr [v, .number (-3), .number (-1)] = substring [v, .number 3, .number 2] ∧
    substr [v, .number (-3)] = substr [v, .number (-3), .number 5] := by
  intro environment v substring substr
  have htwo : IsInteger 2 2 := by decide
  have hthree : IsInteger 3 3 := by decide
  have hfour : IsInteger 4 4 := by decide
  have hfive : IsInteger 5 5 := by decide
  have hthird : IsInteger (-3) (-3) := by decide
  have hlast : IsInteger (-1) (-1) := by decide
  have hlength : v.toText.toList.length = 5 := by decide
  have hlo : clamped (-3) v.toText.toList.length = 2 := by
    rw [hlength]
    rfl
  have hhi : clamped (-1) v.toText.toList.length = 4 := by
    rw [hlength]
    rfl
  obtain ⟨hsplit, hslice, hopen⟩ := slices_agree ⟨none, 0, 0⟩ environment v
  refine ⟨htwo, hfour, by decide, hfive, ?_, hthird, hlast, hthree, rfl, rfl, by decide, ?_, ?_⟩
  · exact hsplit (.number 2) (.number 4) (.number 2) 2 4 htwo hfour htwo (by decide)
  · have hagree := (hslice (.number (-3)) (.number (-1)) (-3) (-1) hthird hlast).2.2
    rw [hlo, hhi] at hagree
    exact hagree (by decide) (by decide) (.number 3) (.number 2) hthree htwo
  · have hend := hopen (.number (-3)) (.number 5)
    rw [hlength] at hend
    exact hend hfive

end FormExpr.Library
