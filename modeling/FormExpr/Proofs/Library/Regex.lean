import FormExpr.Library.Builtin
import FormExpr.Proofs.Function.Shape
import FormExpr.Proofs.Pattern.Standard

/-!
# Matching against a pattern

The pattern is put as text into a group between the start and the end of the text. A pattern that
closes what it opens is refused when it is malformed, and else has to span the text. A malformed one
that closes the group and opens another is answered all the same, and a pattern that ends in a
comment is refused.
-/

namespace FormExpr.Library

open Pattern

section

variable {F : Forest} (context : Context F) {environment : Environment}

def matchOutcome : Option Bool → Result F
  | some found => .ok (.boolean found)
  | none => .error .malformedPattern

theorem call_regex (v pattern : Value F) :
    Registry.builtin.call "regex" context environment [v, pattern] = matchOutcome
      (environment.patterns.matchesWhole? pattern.toText.toList v.toText.toList) := by
  have hfind : Registry.builtin.find? "regex" = some (Function.binary (regex : Call F → _)) := rfl
  rw [Function.call_of_find? hfind, Function.apply_of_takes ⟨le_rfl, by rintro _ ⟨⟩; exact le_rfl⟩]
  change regex ⟨"regex", context, environment⟩ v pattern = _
  rw [regex]
  change (match environment.patterns.matchesWhole? _ _ with
    | some found => _
    | none => _) = _
  cases environment.patterns.matchesWhole? pattern.toText.toList v.toText.toList <;> rfl

/-- Of any engine that does what is documented, the answer is whether the framed pattern occurs in
the text, and an error if the frame is not read. Unless the frame closes what the pattern does not,
a comment takes in the end of the frame, or the engine meets a limit, this is an error exactly if
the pattern is malformed by itself, and else whether it spans the text. -/
theorem call_regex_of_documented {fits : List Char → Prop}
    {span : List Char → List Char → Nat → Nat → Prop}
    (hengine : environment.patterns.Documented fits span) (v pattern : Value F) :
    let p := pattern.toText.toList
    let s := v.toText.toList
    let answer := Registry.builtin.call "regex" context environment [v, pattern]
    ((answer = .error .malformedPattern ↔ ¬ environment.patterns.Reads (framed p)) ∧
      (environment.patterns.Reads (framed p) → ∃ found, answer = .ok (.boolean found) ∧
        (found = true ↔ ∃ i j, span (framed p) s i j))) ∧
    (CommentsEnd p → (Closed (framed p) → Closed p) → (∀ text ∈ p :: frames p, fits text) →
      (answer = .error .malformedPattern ↔ ¬ environment.patterns.Reads p) ∧
      (environment.patterns.Reads p → ∃ found, answer = .ok (.boolean found) ∧
        (found = true ↔ span p s 0 s.length))) := by
  intro p s answer
  have hframed : (answer = .error .malformedPattern ↔ ¬ environment.patterns.Reads (framed p)) ∧
      (environment.patterns.Reads (framed p) → ∃ found, answer = .ok (.boolean found) ∧
        (found = true ↔ ∃ i j, span (framed p) s i j)) := by
    have hanswer : answer = _ := call_regex context v pattern
    obtain ⟨hunread, hnone⟩ | ⟨hread, found, hfound, hiff⟩ := hengine.matchesWhole?_cases p s
    · rw [hanswer, hnone]
      exact ⟨iff_of_true rfl hunread, fun hread => absurd hread hunread⟩
    · rw [hanswer, hfound]
      exact ⟨iff_of_false nofun (not_not_intro hread), fun _ => ⟨found, rfl, hiff⟩⟩
  refine ⟨hframed, fun hcomments hframe hfits => ?_⟩
  have hreads := hengine.reads_framed_iff hcomments hfits hframe
  rw [hreads] at hframed
  refine ⟨hframed.1, fun hread => ?_⟩
  obtain ⟨found, hfound, hiff⟩ := hframed.2 hread
  exact ⟨found, hfound, hiff.trans (hengine.exists_span_framed_iff hcomments hfits hread s)⟩

end

/-- The first branch would be preferred, but only the second one spans the text. -/
theorem call_regex_of_documented_branches :
    let environment : Environment := .standard (.fixed 0) ⟨0, 0, 0⟩ fun _ => 0
    let p := "a|ab".toList
    environment.patterns.Documented (· ∈ p :: frames p) Engine.standardSpan ∧ CommentsEnd p ∧
    Closed p ∧ environment.patterns.Reads p ∧
    Registry.builtin.call "regex" ⟨none, 0, 0⟩ environment
      [(.string "ab" : Value ⟨[]⟩), .string "a|ab"] = .ok (.boolean true) ∧
    Engine.standardSpan p "ab".toList 0 2 := by
  intro environment p
  let e : Expr := .alt (.char (.char 'a')) (.seq (.char (.char 'a')) (.char (.char 'b')))
  have halone : Expr.ofText? p = some e := by decide +kernel
  have hengine := Engine.documented_standard (by decide) (by decide) halone (by decide +kernel)
    (by decide +kernel) (by decide +kernel)
  have hcomments : CommentsEnd p := by decide
  have hclosed : Closed p := by decide
  have hread : environment.patterns.Reads p := Engine.reads_standard halone
  have hspan : Engine.standardSpan p "ab".toList 0 2 :=
    (Engine.standardSpan_iff halone _ _ _).2 ⟨by decide, ⟨2, []⟩, by decide, rfl⟩
  obtain ⟨found, hfound, hiff⟩ := ((call_regex_of_documented ⟨none, 0, 0⟩ hengine
    (.string "ab" : Value ⟨[]⟩) (.string "a|ab")).2 hcomments (fun _ => hclosed)
    fun _ hmem => hmem).2 hread
  obtain rfl : found = true := hiff.2 hspan
  exact ⟨hengine, hcomments, hclosed, hread, hfound, hspan⟩

/-- Not every malformed pattern is refused, and not only malformed ones are. -/
theorem not_forall_malformedPattern_iff :
    (¬ ∀ (F : Forest) (context : Context F) (environment : Environment) (v pattern : Value F),
      ¬ environment.patterns.Reads pattern.toText.toList →
        Registry.builtin.call "regex" context environment [v, pattern] =
          .error .malformedPattern) ∧
    ¬ ∀ (F : Forest) (context : Context F) (environment : Environment) (v pattern : Value F),
      Registry.builtin.call "regex" context environment [v, pattern] = .error .malformedPattern →
        ¬ environment.patterns.Reads pattern.toText.toList := by
  let environment : Environment := .standard (.fixed 0) ⟨0, 0, 0⟩ fun _ => 0
  constructor
  · intro hall
    have hunread : ¬ environment.patterns.Reads "a)|(?:b".toList := by
      unfold Engine.Reads
      decide +kernel
    have hwhole : environment.patterns.matchesWhole? "a)|(?:b".toList "ab".toList = some true := by
      decide +kernel
    have hrefused := hall ⟨[]⟩ ⟨none, 0, 0⟩ environment (.string "ab") (.string "a)|(?:b") hunread
    rw [call_regex] at hrefused
    change matchOutcome (environment.patterns.matchesWhole? "a)|(?:b".toList "ab".toList) = _
      at hrefused
    rw [hwhole] at hrefused
    cases hrefused
  · intro hall
    have hread : environment.patterns.Reads "(?x)a #b".toList := by
      unfold Engine.Reads
      decide +kernel
    have hwhole : environment.patterns.matchesWhole? "(?x)a #b".toList "a".toList = none := by
      decide +kernel
    refine hall ⟨[]⟩ ⟨none, 0, 0⟩ environment (.string "a") (.string "(?x)a #b") ?_ hread
    rw [call_regex]
    exact congrArg matchOutcome hwhole

end FormExpr.Library
