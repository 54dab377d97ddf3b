import FormExpr.Function.Registry
import Mathlib.Data.List.Basic

/-!
# Functions by the shape of their arguments

A function takes the lists of arguments whose length is in its range. Those of a shape are the
lists that the shape takes apart, so on them a function of that shape is the function it was made
from, and the answer to an unmatched list is never given.
-/

namespace FormExpr

variable {F : Forest}

/-! ### Outcomes and tables -/

theorem bind_eq_error_iff {α β : Type} {x : Except Error α} {f : α → Except Error β} {e : Error} :
    x >>= f = .error e ↔ x = .error e ∨ ∃ a, x = .ok a ∧ f a = .error e := by
  cases x <;> simp [bind, Except.bind]

theorem bind_eq_error_iff_of_ok {α β : Type} {x : Except Error α} {f : α → Except Error β}
    (hf : ∀ a, ∃ b, f a = .ok b) {e : Error} : x >>= f = .error e ↔ x = .error e := by
  rw [bind_eq_error_iff, or_iff_left]
  rintro ⟨a, -, he⟩
  obtain ⟨b, hb⟩ := hf a
  rw [hb] at he
  cases he

theorem map_eq_error_iff {α β : Type} {x : Except Error α} {f : α → β} {e : Error} :
    x.map f = .error e ↔ x = .error e := by
  cases x <;> simp [Except.map]

theorem map_eq_ok_iff {α β : Type} {x : Except Error α} {f : α → β} {b : β} :
    x.map f = .ok b ↔ ∃ a, x = .ok a ∧ f a = b := by
  cases x <;> simp [Except.map]

theorem lookup_isSome_iff {α : Type} {entries : List (String × α)} {name : String} :
    (entries.lookup name).isSome = true ↔ name ∈ entries.map Prod.fst := by
  rw [List.lookup_isSome_iff, List.mem_map]
  constructor
  · rintro ⟨entry, hentry, hname⟩
    exact ⟨entry, hentry, (eq_of_beq hname).symm⟩
  · rintro ⟨entry, hentry, rfl⟩
    exact ⟨entry, hentry, BEq.rfl⟩

theorem Registry.mem_entries_of_find? {r : Registry F} {name : String} {f : Function F}
    (hfind : r.find? name = some f) : (name, f) ∈ r.entries := by
  obtain ⟨before, after, heq, -⟩ := List.lookup_eq_some_iff.1 hfind
  rw [heq]
  simp

namespace Function

def Takes (f : Function F) (args : List (Value F)) : Prop :=
  f.minArgs ≤ args.length ∧ ∀ most ∈ f.maxArgs, args.length ≤ most

theorem apply_of_length_lt {f : Function F} {args : List (Value F)}
    (hlength : args.length < f.minArgs) (call : Call F) :
    f.apply call args = .error (.tooFewArguments call.function) := by
  rw [apply, if_pos hlength]

theorem apply_of_lt_length {f : Function F} {args : List (Value F)} {most : Nat}
    (hleast : f.minArgs ≤ args.length) (hmost : most ∈ f.maxArgs) (hlength : most < args.length)
    (call : Call F) : f.apply call args = .error (.tooManyArguments call.function) := by
  have hany : f.maxArgs.any (· < args.length) = true := by
    rw [Option.mem_def.1 hmost]
    exact decide_eq_true hlength
  rw [apply, if_neg (Nat.not_lt.2 hleast), if_pos hany]

/-- With a number of arguments in range the function runs. -/
theorem apply_of_takes {f : Function F} {args : List (Value F)} (htakes : f.Takes args)
    (call : Call F) : f.apply call args = f.run call args := by
  obtain ⟨hleast, hmost⟩ := htakes
  have hany : ¬ f.maxArgs.any (· < args.length) = true := by
    rw [Option.any_eq_true]
    rintro ⟨most, hmem, hlt⟩
    exact Nat.not_lt.2 (hmost most hmem) (of_decide_eq_true hlt)
  rw [apply, if_neg (Nat.not_lt.2 hleast), if_neg hany]

/-- A call by name is a call of the function that the table has under it. -/
theorem call_of_find? {r : Registry F} {name : String} {f : Function F}
    (hfind : r.find? name = some f) (context : Context F) (environment : Environment)
    (args : List (Value F)) :
    r.call name context environment args = f.apply ⟨name, context, environment⟩ args := by
  rw [Registry.call, Registry.resolve, hfind]
  rfl

/-! ### The lists that a shape takes -/

section Shapes

variable {args : List (Value F)}

theorem takes_optional {f : Call F → Option (Value F) → Result F} (h : (optional f).Takes args) :
    args = [] ∨ ∃ a, args = [a] := by
  have hmost : args.length ≤ 1 := h.2 1 rfl
  rcases Nat.le_one_iff_eq_zero_or_eq_one.1 hmost with hzero | hone
  · exact Or.inl (List.length_eq_zero_iff.1 hzero)
  · exact Or.inr (List.length_eq_one_iff.1 hone)

theorem takes_unary {f : Call F → Value F → Result F} (h : (unary f).Takes args) :
    ∃ a, args = [a] :=
  List.length_eq_one_iff.1 (Nat.le_antisymm (h.2 1 rfl) h.1)

theorem takes_unaryOptional {f : Call F → Value F → Option (Value F) → Result F}
    (h : (unaryOptional f).Takes args) : (∃ a, args = [a]) ∨ ∃ a b, args = [a, b] := by
  have hleast : 1 ≤ args.length := h.1
  have hmost : args.length ≤ 2 := h.2 2 rfl
  rcases Nat.lt_or_ge 1 args.length with htwo | hone
  · exact Or.inr (List.length_eq_two.1 (Nat.le_antisymm hmost htwo))
  · exact Or.inl (List.length_eq_one_iff.1 (Nat.le_antisymm hone hleast))

theorem takes_binary {f : Call F → Value F → Value F → Result F} (h : (binary f).Takes args) :
    ∃ a b, args = [a, b] :=
  List.length_eq_two.1 (Nat.le_antisymm (h.2 2 rfl) h.1)

theorem takes_binaryOptional {f : Call F → Value F → Value F → Option (Value F) → Result F}
    (h : (binaryOptional f).Takes args) : (∃ a b, args = [a, b]) ∨ ∃ a b c, args = [a, b, c] := by
  have hleast : 2 ≤ args.length := h.1
  have hmost : args.length ≤ 3 := h.2 3 rfl
  rcases Nat.lt_or_ge 2 args.length with hthree | htwo
  · exact Or.inr (List.length_eq_three.1 (Nat.le_antisymm hmost hthree))
  · exact Or.inl (List.length_eq_two.1 (Nat.le_antisymm htwo hleast))

theorem takes_ternary {f : Call F → Value F → Value F → Value F → Result F}
    (h : (ternary f).Takes args) : ∃ a b c, args = [a, b, c] :=
  List.length_eq_three.1 (Nat.le_antisymm (h.2 3 rfl) h.1)

theorem takes_variadicFrom1 {f : Call F → Value F → List (Value F) → Result F}
    (h : (variadicFrom1 f).Takes args) : ∃ a rest, args = a :: rest :=
  List.exists_cons_of_length_pos h.1

theorem takes_variadicFrom2 {f : Call F → Value F → Value F → List (Value F) → Result F}
    (h : (variadicFrom2 f).Takes args) : ∃ a b rest, args = a :: b :: rest := by
  have hleast : 2 ≤ args.length := h.1
  obtain ⟨a, tail, rfl⟩ := List.exists_cons_of_length_pos (Nat.lt_of_lt_of_le Nat.two_pos hleast)
  obtain ⟨b, rest, rfl⟩ := List.exists_cons_of_length_pos (Nat.le_of_succ_le_succ hleast)
  exact ⟨a, b, rest, rfl⟩

end Shapes

/-! ### Functions that succeed on all lists they take -/

def Succeeds (f : Function F) : Prop :=
  ∀ call args, f.Takes args → ∃ v, f.run call args = .ok v

theorem succeeds_nullary {f : Call F → Result F} (h : ∀ call, ∃ v, f call = .ok v) :
    (nullary f).Succeeds :=
  fun call _ _ => h call

theorem succeeds_optional {f : Call F → Option (Value F) → Result F}
    (h : ∀ call a, ∃ v, f call a = .ok v) : (optional f).Succeeds :=
  fun call args _ => h call args.head?

theorem succeeds_unary {f : Call F → Value F → Result F} (h : ∀ call a, ∃ v, f call a = .ok v) :
    (unary f).Succeeds := by
  intro call args htakes
  obtain ⟨a, rfl⟩ := takes_unary htakes
  exact h call a

theorem succeeds_unaryOptional {f : Call F → Value F → Option (Value F) → Result F}
    (h : ∀ call a b, ∃ v, f call a b = .ok v) : (unaryOptional f).Succeeds := by
  intro call args htakes
  obtain ⟨a, rfl⟩ | ⟨a, b, rfl⟩ := takes_unaryOptional htakes
  · exact h call a none
  · exact h call a (some b)

theorem succeeds_binary {f : Call F → Value F → Value F → Result F}
    (h : ∀ call a b, ∃ v, f call a b = .ok v) : (binary f).Succeeds := by
  intro call args htakes
  obtain ⟨a, b, rfl⟩ := takes_binary htakes
  exact h call a b

theorem succeeds_binaryOptional {f : Call F → Value F → Value F → Option (Value F) → Result F}
    (h : ∀ call a b c, ∃ v, f call a b c = .ok v) : (binaryOptional f).Succeeds := by
  intro call args htakes
  obtain ⟨a, b, rfl⟩ | ⟨a, b, c, rfl⟩ := takes_binaryOptional htakes
  · exact h call a b none
  · exact h call a b (some c)

theorem succeeds_ternary {f : Call F → Value F → Value F → Value F → Result F}
    (h : ∀ call a b c, ∃ v, f call a b c = .ok v) : (ternary f).Succeeds := by
  intro call args htakes
  obtain ⟨a, b, c, rfl⟩ := takes_ternary htakes
  exact h call a b c

theorem succeeds_variadic {least : Nat} {f : Call F → List (Value F) → Result F}
    (h : ∀ call args, ∃ v, f call args = .ok v) : (variadic least f).Succeeds :=
  fun call args _ => h call args

theorem succeeds_variadicFrom1 {f : Call F → Value F → List (Value F) → Result F}
    (h : ∀ call a rest, ∃ v, f call a rest = .ok v) : (variadicFrom1 f).Succeeds := by
  intro call args htakes
  obtain ⟨a, rest, rfl⟩ := takes_variadicFrom1 htakes
  exact h call a rest

theorem succeeds_variadicFrom2 {f : Call F → Value F → Value F → List (Value F) → Result F}
    (h : ∀ call a b rest, ∃ v, f call a b rest = .ok v) : (variadicFrom2 f).Succeeds := by
  intro call args htakes
  obtain ⟨a, b, rest, rfl⟩ := takes_variadicFrom2 htakes
  exact h call a b rest

end Function

end FormExpr
