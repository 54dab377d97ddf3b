import FormExpr.Library.Builtin
import FormExpr.Proofs.Function.Shape
import FormExpr.Proofs.Operator.Clocks

/-!
# Clocks that calls look up

The number of a date is counted from what its clock shows, and the day of an evaluation is on the
clock of its environment. A call breaks off when it looks up a clock that has left the calendar.
The table `Reads` gives the clocks by the names of the built-in functions.
-/

namespace FormExpr

variable {F : Forest}

namespace Function

def ReadsBy (f : Function F) (clocks : Call F → List (Value F) → ZonedTime → Prop) : Prop :=
  ∀ call args t, t ∈ f.reads call args ↔ clocks call args t

theorem counting_readsBy (f : Function F) (counted : List (Value F) → List (Value F)) :
    (f.counting counted).ReadsBy fun _ args t => .date (.valid t) ∈ counted args := by
  intro call args t
  change t ∈ (counted args).flatMap Value.clocks ↔ _
  simp only [List.mem_flatMap, Value.mem_clocks_iff, exists_eq_right]

theorem dated_readsBy (f : Function F) :
    f.dated.ReadsBy fun call _ t => t = call.environment.now :=
  fun _ _ _ => List.mem_singleton

theorem readsBy_of_reads_eq_nil {f : Function F} (hnone : f.reads = fun _ _ => []) :
    f.ReadsBy fun _ _ _ => False := by
  intro call args t
  rw [hnone]
  exact List.mem_nil_iff t

/-- A call breaks off at a clock only with as many arguments as the function takes. -/
theorem perform_eq_none_iff {f : Function F} {call : Call F} {args : List (Value F)} :
    f.perform call args = none ↔ f.Takes args ∧ ∃ t ∈ f.reads call args, ¬ t.OnCalendar := by
  have htakes : f.Takes args ↔
      (f.minArgs ≤ args.length && !f.maxArgs.any (· < args.length)) = true := by
    unfold Takes
    cases f.maxArgs <;> simp
  unfold perform
  simp only [ite_eq_left_iff, reduceCtorEq, imp_false, not_not,
    Bool.and_eq_true, List.any_eq_true, decide_eq_true_eq, htakes]

/-- A call that does not break off answers as the function does. -/
theorem perform_eq_some_apply {f : Function F} {call : Call F} {args : List (Value F)}
    (hruns : f.perform call args ≠ none) : f.perform call args = some (f.apply call args) :=
  if_neg fun hbreaks => hruns (if_pos hbreaks)

end Function

namespace Library

/-! ### The table -/

/-- A bound, or the weight of a true value, when every value has its weight. -/
def IsWeighed (args : List (Value F)) (v : Value F) : Prop :=
  ∃ least most rest, args = least :: most :: rest ∧ rest.length % 2 = 0 ∧
    (v = least ∨ v = most ∨
      ∃ i value, rest[2 * i]? = some value ∧ value.toBool = true ∧ rest[2 * i + 1]? = some v)

def IsSeed (args : List (Value F)) (v : Value F) : Prop :=
  ∃ nodes rest, args = .nodeSet nodes :: rest ∧ v ∈ rest

/-- The clocks that the function of a name looks up: those of dates that it takes the number of, or
the clock of the environment. -/
def Reads : String → Call F → List (Value F) → ZonedTime → Prop
  | "number" | "floor" | "ceiling" | "abs" | "int" | "round" | "sqrt" | "exp" | "exp10" | "log"
  | "log10" | "sin" | "cos" | "tan" | "asin" | "acos" | "atan" | "atan2" | "pow" | "max" | "min"
  | "decimal-date-time" | "uuid" => fun _ args t => .date (.valid t) ∈ args
  | "substring" | "substr" | "selected-at" => fun _ args t => .date (.valid t) ∈ args.tail
  | "checklist" => fun _ args t => .date (.valid t) ∈ args.take 2
  | "weighted-checklist" => fun _ args t => IsWeighed args (.date (.valid t))
  | "randomize" => fun _ args t => IsSeed args (.date (.valid t))
  | "decimal-time" | "today" => fun call _ t => t = call.environment.now
  | _ => fun _ _ _ => False

/-! ### Arguments that are counted -/

theorem mem_trueWeights_iff {rest : List (Value F)} {v : Value F} :
    v ∈ trueWeights rest ↔
      ∃ i value, rest[2 * i]? = some value ∧ value.toBool = true ∧ rest[2 * i + 1]? = some v := by
  fun_induction trueWeights rest with
  | case1 value weight rest htrue ih =>
    rw [List.mem_cons, ih]
    constructor
    · rintro (rfl | ⟨i, hi⟩)
      · exact ⟨0, value, rfl, htrue, rfl⟩
      · exact ⟨i + 1, hi⟩
    · rintro ⟨_ | i, other, hi⟩
      · exact Or.inl (Option.some.inj hi.2.2).symm
      · exact Or.inr ⟨i, other, hi⟩
  | case2 value weight rest hfalse ih =>
    rw [ih]
    constructor
    · rintro ⟨i, hi⟩
      exact ⟨i + 1, hi⟩
    · rintro ⟨_ | i, other, hi⟩
      · obtain rfl := Option.some.inj hi.1
        exact absurd hi.2.1 hfalse
      · exact ⟨i, other, hi⟩
  | case3 rest hshort =>
    refine iff_of_false List.not_mem_nil ?_
    rintro ⟨i, value, -, -, hweight⟩
    rcases rest with _ | ⟨first, _ | ⟨second, rest⟩⟩
    · cases hweight
    · simp at hweight
    · exact hshort first second rest rfl

theorem mem_countedWeights_iff {args : List (Value F)} {v : Value F} :
    v ∈ countedWeights args ↔ IsWeighed args v := by
  unfold countedWeights
  split
  · rename_i least most rest
    rw [List.mem_ite_nil_right]
    simp only [List.mem_cons, mem_trueWeights_iff]
    constructor
    · rintro ⟨heven, hv⟩
      exact ⟨least, most, rest, rfl, heven, hv⟩
    · rintro ⟨_, _, _, heq, heven, hv⟩
      cases heq
      exact ⟨heven, hv⟩
  · rename_i hshort
    refine iff_of_false List.not_mem_nil ?_
    rintro ⟨least, most, rest, rfl, -⟩
    exact hshort least most rest rfl

theorem mem_countedSeed_iff {args : List (Value F)} {v : Value F} :
    v ∈ countedSeed args ↔ IsSeed args v := by
  unfold countedSeed
  split
  · rename_i nodes rest
    constructor
    · intro hv
      exact ⟨nodes, rest, rfl, hv⟩
    · rintro ⟨_, _, heq, hv⟩
      cases heq
      exact hv
  · rename_i hother
    refine iff_of_false List.not_mem_nil ?_
    rintro ⟨nodes, rest, rfl, -⟩
    exact hother nodes rest rfl

/-! ### All functions -/

theorem logic_readsBy : ∀ entry ∈ (logic : List (String × Function F)),
    entry.2.ReadsBy (Reads entry.1) := by
  simp only [logic, List.forall_mem_cons]
  refine ⟨?_, ?_, ?_, ?_, ?_, ?_, ?_, ?_, List.forall_mem_nil _⟩
  all_goals exact Function.readsBy_of_reads_eq_nil rfl

theorem numeric_readsBy (f : Float → Float) :
    (numeric f : Function F).ReadsBy fun _ args t => .date (.valid t) ∈ args :=
  Function.counting_readsBy _ id

theorem numeric₂_readsBy (f : Float → Float → Float) :
    (numeric₂ f : Function F).ReadsBy fun _ args t => .date (.valid t) ∈ args :=
  Function.counting_readsBy _ id

theorem arithmetic_readsBy : ∀ entry ∈ (arithmetic : List (String × Function F)),
    entry.2.ReadsBy (Reads entry.1) := by
  simp only [arithmetic, List.forall_mem_cons]
  refine ⟨Function.counting_readsBy _ id, numeric_readsBy _, numeric_readsBy _, numeric_readsBy _,
    numeric_readsBy _, Function.counting_readsBy _ id, numeric_readsBy _, numeric_readsBy _,
    numeric_readsBy _, numeric_readsBy _, numeric_readsBy _, numeric_readsBy _, numeric_readsBy _,
    numeric_readsBy _, numeric_readsBy _, numeric_readsBy _, numeric_readsBy _, numeric₂_readsBy _,
    numeric₂_readsBy _, Function.readsBy_of_reads_eq_nil rfl, List.forall_mem_nil _⟩

theorem text_readsBy : ∀ entry ∈ (text : List (String × Function F)),
    entry.2.ReadsBy (Reads entry.1) := by
  simp only [text, List.forall_mem_cons]
  refine ⟨?_, ?_, ?_, ?_, ?_, ?_, ?_, ?_, ?_, ?_, Function.counting_readsBy _ List.tail,
    Function.counting_readsBy _ List.tail, ?_, List.forall_mem_nil _⟩
  all_goals exact Function.readsBy_of_reads_eq_nil rfl

theorem nodeSet_readsBy : ∀ entry ∈ (nodeSet : List (String × Function F)),
    entry.2.ReadsBy (Reads entry.1) := by
  simp only [nodeSet, List.forall_mem_cons]
  refine ⟨?_, ?_, ?_, ?_, ?_, ?_, ?_, ?_, List.forall_mem_nil _⟩
  all_goals exact Function.readsBy_of_reads_eq_nil rfl

theorem aggregate_readsBy : ∀ entry ∈ (aggregate : List (String × Function F)),
    entry.2.ReadsBy (Reads entry.1) := by
  simp only [aggregate, List.forall_mem_cons]
  refine ⟨Function.readsBy_of_reads_eq_nil rfl, Function.counting_readsBy _ id,
    Function.counting_readsBy _ id, Function.counting_readsBy _ (List.take 2), ?_,
    List.forall_mem_nil _⟩
  exact fun call args t => (Function.counting_readsBy _ _ call args t).trans mem_countedWeights_iff

theorem dates_readsBy : ∀ entry ∈ (dates : List (String × Function F)),
    entry.2.ReadsBy (Reads entry.1) := by
  simp only [dates, List.forall_mem_cons]
  refine ⟨?_, ?_, Function.counting_readsBy _ id, Function.dated_readsBy _,
    Function.dated_readsBy _, ?_, ?_, ?_, ?_, ?_, List.forall_mem_nil _⟩
  all_goals exact Function.readsBy_of_reads_eq_nil rfl

theorem selection_readsBy : ∀ entry ∈ (selection : List (String × Function F)),
    entry.2.ReadsBy (Reads entry.1) := by
  simp only [selection, List.forall_mem_cons]
  exact ⟨Function.readsBy_of_reads_eq_nil rfl, Function.counting_readsBy _ List.tail,
    Function.readsBy_of_reads_eq_nil rfl, List.forall_mem_nil _⟩

theorem chance_readsBy : ∀ entry ∈ (chance : List (String × Function F)),
    entry.2.ReadsBy (Reads entry.1) := by
  simp only [chance, List.forall_mem_cons]
  refine ⟨Function.readsBy_of_reads_eq_nil rfl, Function.counting_readsBy _ id, ?_,
    List.forall_mem_nil _⟩
  exact fun call args t => (Function.counting_readsBy _ _ call args t).trans mem_countedSeed_iff

theorem coding_readsBy : ∀ entry ∈ (coding : List (String × Function F)),
    entry.2.ReadsBy (Reads entry.1) := by
  simp only [coding, List.forall_mem_cons]
  refine ⟨?_, ?_, ?_, List.forall_mem_nil _⟩
  all_goals exact Function.readsBy_of_reads_eq_nil rfl

end Library

/-- Every built-in function looks up the clocks of the table. -/
theorem Registry.builtin_readsBy {name : String} {f : Function F}
    (hfind : builtin.find? name = some f) : f.ReadsBy (Library.Reads name) := by
  have hmem := mem_entries_of_find? hfind
  simp only [builtin, List.mem_append, or_assoc] at hmem
  rcases hmem with h | h | h | h | h | h | h | h | h
  · exact Library.logic_readsBy _ h
  · exact Library.arithmetic_readsBy _ h
  · exact Library.text_readsBy _ h
  · exact Library.nodeSet_readsBy _ h
  · exact Library.aggregate_readsBy _ h
  · exact Library.dates_readsBy _ h
  · exact Library.selection_readsBy _ h
  · exact Library.chance_readsBy _ h
  · exact Library.coding_readsBy _ h

end FormExpr
