import FormExpr.Proofs.Operator.DateSubstitution

/-!
# Node sets in comparisons

A plain comparison asks for one member of a node set that satisfies it. Where the date rule counts
days, it takes the whole set for the text of its first node, and the other members have no say. So
comparison by members survives for sets whose members have one text, and as long as the rule has
nothing to redirect.
-/

namespace FormExpr

variable {F : Forest}

namespace Comparison

variable (c : Comparison) (z : Zone) {nodes : List (Node F)} {l r v : Value F}

theorem Redirected.symm {c : Comparison} (hredirected : c.Redirected l r) : c.Redirected r l := by
  obtain ⟨hl, hr, ⟨hc, hlText, hrText, hlooks⟩ | ⟨hset, hdated⟩⟩ := hredirected
  · exact ⟨hr, hl, Or.inl ⟨hc, hrText, hlText, hlooks.symm⟩⟩
  · exact ⟨hr, hl, Or.inr ⟨hset.symm, hdated.symm⟩⟩

/-! ### Plain comparison goes by members -/

theorem values_eq_any (h : ¬ (l.kind = .nodeSet ∧ r.kind = .boolean))
    (h' : ¬ (l.kind = .boolean ∧ r.kind = .nodeSet)) :
    c.values z l r = l.parts.any fun a => r.parts.any fun b => c.scalars z a b := by
  unfold values
  split
  · exact absurd ⟨rfl, rfl⟩ h
  · exact absurd ⟨rfl, rfl⟩ h'
  · rfl

/-- A node set compares by its members, except with a boolean. -/
theorem values_nodeSet_left (hv : v.kind ≠ .boolean) :
    c.values z (.nodeSet nodes) v = true ↔
      ∃ n ∈ nodes, c.values z (.string n.stringValue) v = true := by
  rw [values_eq_any c z (fun h => hv h.2) (by simp [Value.kind]), Value.parts, List.any_map,
    List.any_eq_true]
  refine exists_congr fun n => and_congr_right fun _ => ?_
  rw [values_eq_any c z (by simp [Value.kind]) (by simp [Value.kind])]
  simp [Value.parts]

theorem values_nodeSet_right (hv : v.kind ≠ .boolean) :
    c.values z v (.nodeSet nodes) = true ↔
      ∃ n ∈ nodes, c.values z v (.string n.stringValue) = true := by
  rw [values_eq_any c z (by simp [Value.kind]) (fun h => hv h.1), List.any_eq_true]
  constructor
  · rintro ⟨a, ha, hany⟩
    obtain ⟨b, hb, hab⟩ := List.any_eq_true.1 hany
    obtain ⟨n, hn, rfl⟩ := List.mem_map.1 hb
    refine ⟨n, hn, ?_⟩
    rw [values_eq_any c z (by simp [Value.kind]) (by simp [Value.kind]), List.any_eq_true]
    exact ⟨a, ha, by simpa [Value.parts] using hab⟩
  · rintro ⟨n, hn, hvalues⟩
    rw [values_eq_any c z (by simp [Value.kind]) (by simp [Value.kind]), List.any_eq_true]
      at hvalues
    obtain ⟨a, ha, hany⟩ := hvalues
    refine ⟨a, ha, List.any_eq_true.2 ⟨.string n.stringValue, ?_, ?_⟩⟩
    · exact List.mem_map.2 ⟨n, hn, rfl⟩
    · simpa [Value.parts] using hany

end Comparison

namespace Value

/-- The first of equal texts is any of them. -/
theorem toText_nodeSet {nodes : List (Node F)} {s : String} (hne : nodes ≠ [])
    (hall : ∀ n ∈ nodes, n.stringValue = s) : (nodeSet nodes).toText = s := by
  cases hfirst : Node.first? nodes with
  | none =>
    cases nodes with
    | nil => exact absurd rfl hne
    | cons n rest => cases hfirst
  | some n =>
    rw [toText, Node.firstString, hfirst, Option.map_some, Option.getD_some]
    exact hall n (Node.first?_mem hfirst)

end Value

namespace Evaluator

open Comparison Operator

def Holds (e : Evaluator F) (l : Value F) (c : Comparison) (r : Value F) : Prop :=
  e.evaluate l (.compare c) r = .ok (.boolean true)

def HoldsPlainly (e : Evaluator F) (l : Value F) (c : Comparison) (r : Value F) : Prop :=
  apply e.environment.zone l (.compare c) r = .ok (.boolean true)

section

variable {e : Evaluator F} {c : Comparison} {nodes : List (Node F)} {l r v : Value F}

theorem holdsPlainly_iff : e.HoldsPlainly l c r ↔ c.values e.environment.zone l r = true := by
  rw [HoldsPlainly, apply_compare, Except.ok.injEq, Value.boolean.injEq]

/-- Where the rule redirects nothing, a comparison comes out as it does without. -/
theorem holds_iff_holdsPlainly (hrule : e.ReadsDates) (hredirected : ¬ c.Redirected l r) :
    e.Holds l c r ↔ e.HoldsPlainly l c r := by
  rw [Holds, hrule.evaluate_eq, evaluate_dateRule_of_not_redirected _ c hredirected, HoldsPlainly]

/-- Where the rule counts days, a node set is its text. -/
theorem evaluate_nodeSet_of_countsDays (hrule : e.ReadsDates)
    (hcounts : CountsDays (.nodeSet nodes) v) :
    e.evaluate (.nodeSet nodes) (.compare c) v =
      e.evaluate (.string (Value.nodeSet nodes).toText) (.compare c) v ∧
    e.evaluate v (.compare c) (.nodeSet nodes) =
      e.evaluate v (.compare c) (.string (Value.nodeSet nodes).toText) := by
  obtain ⟨-, hv, hdated⟩ := hcounts
  simp only [hrule.evaluate_eq]
  apply evaluate_dateRule_congr e.environment.zone (by simp) hv (by simp [Value.kind])
    (by simp [Value.kind]) hdated
  · exact hdated.imp_left (Value.isDated_nodeSet_iff rfl).1
  · exact Value.toNumber_nodeSet e.environment.zone rfl

/-- Where no days are counted a node set is compared by its members. -/
theorem holds_nodeSet_iff_of_not_countsDays (hrule : e.ReadsDates) (hv : v.kind ≠ .boolean)
    (hcounts : ¬ CountsDays (.nodeSet nodes) v) :
    (e.Holds (.nodeSet nodes) c v ↔ ∃ n ∈ nodes, e.HoldsPlainly (.string n.stringValue) c v) ∧
    (e.Holds v c (.nodeSet nodes) ↔ ∃ n ∈ nodes, e.HoldsPlainly v c (.string n.stringValue)) := by
  have hleft : ¬ c.Redirected (.nodeSet nodes) v := fun h => hcounts h.countsDays
  have hright : ¬ c.Redirected v (.nodeSet nodes) := fun h => hleft h.symm
  rw [holds_iff_holdsPlainly hrule hleft, holds_iff_holdsPlainly hrule hright]
  simp only [holdsPlainly_iff]
  exact ⟨values_nodeSet_left c _ hv, values_nodeSet_right c _ hv⟩

theorem exists_mem_stringValue_iff {p : String → Prop} {s : String} (hne : nodes ≠ [])
    (hall : ∀ n ∈ nodes, n.stringValue = s) : (∃ n ∈ nodes, p n.stringValue) ↔ p s := by
  constructor
  · rintro ⟨n, hn, hp⟩
    rwa [hall n hn] at hp
  · intro hp
    obtain ⟨n, hn⟩ := List.exists_mem_of_ne_nil nodes hne
    refine ⟨n, hn, ?_⟩
    rwa [hall n hn]

/-- A node set whose members have one text compares like this text. -/
theorem holds_nodeSet_iff_holds_string (hrule : e.ReadsDates) (hv : v.kind ≠ .boolean) {s : String}
    (hne : nodes ≠ []) (hall : ∀ n ∈ nodes, n.stringValue = s) :
    (e.Holds (.nodeSet nodes) c v ↔ e.Holds (.string s) c v) ∧
    (e.Holds v c (.nodeSet nodes) ↔ e.Holds v c (.string s)) := by
  have htext : (Value.nodeSet nodes).toText = s := Value.toText_nodeSet hne hall
  by_cases hcounts : CountsDays (.nodeSet nodes) v
  · obtain ⟨hleft, hright⟩ := evaluate_nodeSet_of_countsDays (c := c) hrule hcounts
    rw [htext] at hleft hright
    exact ⟨by rw [Holds, hleft, Holds], by rw [Holds, hright, Holds]⟩
  · have hplain : ¬ CountsDays (.string s : Value F) v := by
      rintro ⟨-, -, hdated⟩
      refine hcounts ⟨by simp [Value.kind], hv, ?_⟩
      exact hdated.imp_left (Value.isDated_nodeSet_iff htext).2
    have hleft : ¬ c.Redirected (.string s) v := fun h => hplain h.countsDays
    have hright : ¬ c.Redirected v (.string s) := fun h => hleft h.symm
    obtain ⟨hsetLeft, hsetRight⟩ := holds_nodeSet_iff_of_not_countsDays (c := c) hrule hv hcounts
    rw [hsetLeft, hsetRight, holds_iff_holdsPlainly hrule hleft, holds_iff_holdsPlainly hrule hright]
    exact ⟨exists_mem_stringValue_iff (p := fun t => e.HoldsPlainly (.string t) c v) hne hall,
      exists_mem_stringValue_iff (p := fun t => e.HoldsPlainly v c (.string t)) hne hall⟩

end

/-- How a node set compares with a value that is no boolean. Where the date rule counts days, the
set stands for the text of its first node. Otherwise some member has to satisfy the plain
comparison. A member that satisfies the comparison of the evaluator itself is asked for if all
members have one text, or if the rule neither counts days nor redirects a member. -/
theorem holds_nodeSet {e : Evaluator F} (hrule : e.ReadsDates) (nodes : List (Node F))
    {v : Value F} (hv : v.kind ≠ .boolean) (c : Comparison) :
    let nodeSet : Value F := .nodeSet nodes
    (CountsDays nodeSet v →
      e.evaluate nodeSet (.compare c) v = e.evaluate (.string nodeSet.toText) (.compare c) v ∧
      e.evaluate v (.compare c) nodeSet = e.evaluate v (.compare c) (.string nodeSet.toText)) ∧
    (¬ CountsDays nodeSet v →
      (e.Holds nodeSet c v ↔ ∃ n ∈ nodes, e.HoldsPlainly (.string n.stringValue) c v) ∧
      (e.Holds v c nodeSet ↔ ∃ n ∈ nodes, e.HoldsPlainly v c (.string n.stringValue))) ∧
    ((nodes ≠ [] ∧ ∃ s, ∀ n ∈ nodes, n.stringValue = s) ∨
        (¬ CountsDays nodeSet v ∧ ∀ n ∈ nodes, ¬ c.Redirected (.string n.stringValue) v) →
      (e.Holds nodeSet c v ↔ ∃ n ∈ nodes, e.Holds (.string n.stringValue) c v) ∧
      (e.Holds v c nodeSet ↔ ∃ n ∈ nodes, e.Holds v c (.string n.stringValue))) := by
  refine ⟨evaluate_nodeSet_of_countsDays hrule, holds_nodeSet_iff_of_not_countsDays hrule hv, ?_⟩
  rintro (⟨hne, s, hall⟩ | ⟨hcounts, hredirected⟩)
  · obtain ⟨hleft, hright⟩ := holds_nodeSet_iff_holds_string (c := c) hrule hv hne hall
    rw [hleft, hright]
    exact ⟨(exists_mem_stringValue_iff (p := fun t => e.Holds (.string t) c v) hne hall).symm,
      (exists_mem_stringValue_iff (p := fun t => e.Holds v c (.string t)) hne hall).symm⟩
  · obtain ⟨hleft, hright⟩ := holds_nodeSet_iff_of_not_countsDays (c := c) hrule hv hcounts
    rw [hleft, hright]
    constructor
    · refine exists_congr fun n => and_congr_right fun hn => ?_
      exact (holds_iff_holdsPlainly hrule (hredirected n hn)).symm
    · refine exists_congr fun n => and_congr_right fun hn => ?_
      exact (holds_iff_holdsPlainly hrule fun h => hredirected n hn h.symm).symm

/-! ### A set of two days -/

def twoDays : Forest :=
  ⟨[.node .document [] [
    .node (.element "day" none) [] [.node (.text "2018-01-01") [] []],
    .node (.element "day" none) [] [.node (.text "2018-01-02") [] []]]]⟩

def firstDay : Node twoDays := ⟨0, [0], by decide⟩

def secondDay : Node twoDays := ⟨0, [1], by decide⟩

/-- Days that are counted are compared as numbers. -/
theorem eastern_holds_eq_iff {l r : Value twoDays} (hcounts : CountsDays l r) :
    eastern.Holds l .eq r ↔
      Comparison.eq.numbers (l.toNumber (.fixed 7200)) (r.toNumber (.fixed 7200)) = true := by
  rw [Holds, readsDates_eastern.evaluate_eq, evaluate_dateRule_of_countsDays _ _ hcounts,
    Except.ok.injEq, Value.boolean.injEq]
  exact Iff.rfl

/-- The second of two days satisfies an equality that the set of both does not. -/
theorem not_holds_nodeSet_iff_exists :
    ¬ ∀ (F : Forest) (e : Evaluator F) (nodes : List (Node F)) (v : Value F) (c : Comparison),
      e.ReadsDates → v.kind ≠ .boolean →
        (e.Holds (.nodeSet nodes) c v ↔ ∃ n ∈ nodes, e.Holds (.string n.stringValue) c v) := by
  intro hall
  have hiff := hall twoDays eastern [firstDay, secondDay] (.string "2018-01-02") .eq
    readsDates_eastern (by decide)
  have hsecond : (eastern : Evaluator twoDays).Holds (.string secondDay.stringValue) .eq
      (.string "2018-01-02") := by
    rw [eastern_holds_eq_iff (by decide +kernel)]
    decide +kernel
  have hboth : ¬ eastern.Holds (.nodeSet [firstDay, secondDay]) .eq (.string "2018-01-02") := by
    rw [eastern_holds_eq_iff (by decide +kernel)]
    decide +kernel
  exact hboth (hiff.2 ⟨secondDay, by simp, hsecond⟩)

/-- The set of both days compares like its first. -/
theorem holds_nodeSet_twoDays :
    (eastern : Evaluator twoDays).ReadsDates ∧
    (Value.string "2018-01-02" : Value twoDays).kind ≠ .boolean ∧
    eastern.evaluate (.nodeSet [secondDay, firstDay]) (.compare .eq) (.string "2018-01-02") =
      eastern.evaluate (.string "2018-01-01") (.compare .eq) (.string "2018-01-02") := by
  have hkind : (Value.string "2018-01-02" : Value twoDays).kind ≠ .boolean := by decide
  have htext : (Value.nodeSet [secondDay, firstDay]).toText = "2018-01-01" := by decide +kernel
  refine ⟨readsDates_eastern, hkind, ?_⟩
  rw [((holds_nodeSet readsDates_eastern [secondDay, firstDay] hkind .eq).1 (by decide +kernel)).1,
    htext]

end Evaluator

end FormExpr
