import FormExpr.Proofs.Pattern.Engine

/-!
# The standard engine on a pattern and its frames

Where the standard engine reads a pattern in each step of its frame as it should, it does what is
documented of engines. So the documentation can be met, and a pattern at hand is checked by reading.
-/

namespace FormExpr.Pattern

/-! ### Runs -/

namespace Expr

variable {text : Array Char} {s t : State} {p q : Expr}

theorem mem_run_seq :
    t ∈ (seq p q).run text s ↔ ∃ u ∈ p.run text s, t ∈ q.run text u := by
  rw [run, dropRepeats, List.mem_eraseDups, List.mem_flatMap]

theorem mem_run_assertion {a : Assertion} :
    t ∈ (assertion a).run text s ↔ a.holds text s.position = true ∧ t = s := by
  rw [run]
  split
  · rename_i hholds
    rw [List.mem_singleton, and_iff_right hholds]
  · rename_i hholds
    exact iff_of_false List.not_mem_nil fun h => hholds h.1

def prepared (e : Expr) : Expr :=
  if e.usesCaptures then e else e.withoutCaptures

def Passes (e : Expr) (cs : List Char) (i j : Nat) : Prop :=
  i ≤ cs.length ∧ ∃ t ∈ e.prepared.run cs.toArray ⟨i, []⟩, t.position = j

/-- A pattern occurs if it passes between some two places. -/
theorem occursIn_iff {e : Expr} {cs : List Char} :
    e.occursIn cs = true ↔ ∃ i j, e.Passes cs i j := by
  rw [occursIn, List.any_eq_true]
  refine exists_congr fun i => ?_
  unfold Passes
  rw [List.mem_range, List.size_toArray, Nat.lt_succ_iff, Bool.not_eq_true',
    List.isEmpty_eq_false_iff_exists_mem]
  simp [prepared]

theorem prepared_assertion_seq (a : Assertion) (e : Expr) :
    (seq (assertion a) e).prepared = seq (assertion a) e.prepared := by
  unfold prepared
  cases huses : e.usesCaptures <;> simp [usesCaptures, withoutCaptures, huses]

theorem prepared_seq_assertion (a : Assertion) (e : Expr) :
    (seq e (assertion a)).prepared = seq e.prepared (assertion a) := by
  unfold prepared
  cases huses : e.usesCaptures <;> simp [usesCaptures, withoutCaptures, huses]

/-- From the start of the text only what begins there is matched. -/
theorem passes_textStart_iff {e : Expr} {cs : List Char} {i j : Nat} :
    (seq (assertion .textStart) e).Passes cs i j ↔ i = 0 ∧ e.Passes cs i j := by
  unfold Passes
  simp only [prepared_assertion_seq, mem_run_seq, mem_run_assertion, Assertion.holds, beq_iff_eq]
  constructor
  · rintro ⟨hi, t, ⟨_, ⟨hzero, rfl⟩, ht⟩, hj⟩
    exact ⟨hzero, hi, t, ht, hj⟩
  · rintro ⟨hzero, hi, t, ht, hj⟩
    exact ⟨hi, t, ⟨_, ⟨hzero, rfl⟩, ht⟩, hj⟩

/-- To the end of the text only what ends there is matched. -/
theorem passes_textEnd_iff {e : Expr} {cs : List Char} {i j : Nat} :
    (seq e (assertion .textEnd)).Passes cs i j ↔ e.Passes cs i j ∧ j = cs.length := by
  unfold Passes
  simp only [prepared_seq_assertion, mem_run_seq, mem_run_assertion, Assertion.holds, beq_iff_eq,
    List.size_toArray]
  constructor
  · rintro ⟨hi, _, ⟨t, ht, hend, rfl⟩, rfl⟩
    exact ⟨⟨hi, _, ht, rfl⟩, hend⟩
  · rintro ⟨⟨hi, t, ht, rfl⟩, hend⟩
    exact ⟨hi, t, ⟨t, ht, hend, rfl⟩, rfl⟩

end Expr

/-! ### Frames -/

section Frames

variable {p q : List Char}

theorem grouped_inj (h : grouped p = grouped q) : p = q :=
  List.append_cancel_left (List.append_cancel_right h)

/-- The start of a frame ends with the group, and the frame does not. -/
theorem start_ne_framed : '^' :: grouped p ≠ '^' :: grouped q ++ ['$'] := by
  intro h
  have hends : '^' :: (['(', '?', ':'] ++ p) ++ [')'] = '^' :: grouped q ++ ['$'] := h
  exact absurd (List.append_inj_right' hends rfl) (by decide)

/-- A pattern that begins with neither of these is not a frame itself. -/
theorem eq_of_grouped_mem_frames (hhead : q.head? ≠ some '(' ∧ q.head? ≠ some '^')
    (h : grouped p ∈ q :: frames q) : p = q := by
  simp only [frames, framed_eq, List.mem_cons, List.not_mem_nil, or_false] at h
  rcases h with rfl | h | h | h
  · exact absurd rfl hhead.1
  · exact grouped_inj h
  · exact absurd (List.cons.inj h).1 (by decide)
  · exact absurd (List.cons.inj h).1 (by decide)

theorem eq_of_start_mem_frames (hhead : q.head? ≠ some '(' ∧ q.head? ≠ some '^')
    (h : '^' :: grouped p ∈ q :: frames q) : p = q := by
  simp only [frames, framed_eq, List.mem_cons, List.not_mem_nil, or_false] at h
  rcases h with rfl | h | h | h
  · exact absurd rfl hhead.2
  · exact absurd (List.cons.inj h).1 (by decide)
  · exact grouped_inj (List.cons.inj h).2
  · exact absurd h start_ne_framed

theorem eq_of_stop_mem_frames (hhead : q.head? ≠ some '(' ∧ q.head? ≠ some '^')
    (h : '^' :: grouped p ++ ['$'] ∈ q :: frames q) : p = q := by
  simp only [frames, framed_eq, List.mem_cons, List.not_mem_nil, or_false] at h
  rcases h with rfl | h | h | h
  · exact absurd rfl hhead.2
  · exact absurd (List.cons.inj h).1 (by decide)
  · exact absurd h.symm start_ne_framed
  · exact grouped_inj (List.cons.inj (List.append_cancel_right h)).2

end Frames

namespace Engine

def standardSpan (pattern s : List Char) (i j : Nat) : Prop :=
  ∃ e, Expr.ofText? pattern = some e ∧ e.Passes s i j

theorem standardSpan_iff {pattern : List Char} {e : Expr} (h : Expr.ofText? pattern = some e)
    (s : List Char) (i j : Nat) : standardSpan pattern s i j ↔ e.Passes s i j := by
  simp [standardSpan, h]

theorem reads_standard {pattern : List Char} {e : Expr} (h : Expr.ofText? pattern = some e) :
    standard.Reads pattern := by
  simp [Reads, standard, h]

/-- The documentation holds of a pattern that the standard engine reads in each step of its frame as
its syntax says. -/
theorem documented_standard {pattern : List Char} {e : Expr}
    (hhead : pattern.head? ≠ some '(' ∧ pattern.head? ≠ some '^')
    (hclosed : ∀ text ∈ pattern :: frames pattern, Closed text)
    (halone : Expr.ofText? pattern = some e) (hgroup : Expr.ofText? (grouped pattern) = some e)
    (hstart : Expr.ofText? ('^' :: grouped pattern) = some (.seq (.assertion .textStart) e))
    (hstop : Expr.ofText? ('^' :: grouped pattern ++ ['$']) =
      some (.seq (.seq (.assertion .textStart) e) (.assertion .textEnd))) :
    standard.Documented (· ∈ pattern :: frames pattern) standardSpan where
  occurs := by
    intro p search hread s
    obtain ⟨e, he, rfl⟩ := Option.map_eq_some_iff.1 hread
    refine ⟨e.occursIn s, rfl, ?_⟩
    simp only [standardSpan_iff he, Expr.occursIn_iff]
  closed := fun _ hfits _ => hclosed _ hfits
  framed_closed := fun _ hfits _ => hclosed _ hfits
  group := by
    intro p _ _ hfits
    obtain rfl := eq_of_grouped_mem_frames hhead hfits
    refine ⟨iff_of_true (reads_standard hgroup) (reads_standard halone), fun _ s i j => ?_⟩
    rw [standardSpan_iff hgroup, standardSpan_iff halone]
  start := by
    intro p _ _ hfits
    obtain rfl := eq_of_start_mem_frames hhead hfits
    refine ⟨iff_of_true (reads_standard hstart) (reads_standard hgroup), fun _ s i j => ?_⟩
    rw [standardSpan_iff hstart, standardSpan_iff hgroup, Expr.passes_textStart_iff]
  stop := by
    intro p _ _ hfits
    obtain rfl := eq_of_stop_mem_frames hhead hfits
    refine ⟨iff_of_true (reads_standard hstop) (reads_standard hstart), fun _ s i j => ?_⟩
    rw [standardSpan_iff hstop, standardSpan_iff hstart, Expr.passes_textEnd_iff]

end Engine

end FormExpr.Pattern
