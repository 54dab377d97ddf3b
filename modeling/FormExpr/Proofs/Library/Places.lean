import FormExpr.Proofs.Library.Selection
import Mathlib.Data.List.Forall2

/-!
# Places in texts

The points of several texts are the points of the text that is joined from them with semicolons, and
one malformed point anywhere spoils them all. So lengths and areas depend only on what is written
between the semicolons, and not on how the arguments share it out.
-/

namespace FormExpr

open Text (Items isBlank join splitAll)

namespace GeoPoint

/-! ### One point -/

/-- The text writes the point: a latitude, a longitude, and perhaps an altitude and an accuracy. -/
inductive Writes (s : List Char) : GeoPoint → Prop where
  | intro {latitude longitude : List Char} {tail : List (List Char)}
    (hitems : Items s (latitude :: longitude :: tail))
    (hlatitude : -90 ≤ Number.parse latitude ∧ Number.parse latitude ≤ 90)
    (hlongitude : -180 ≤ Number.parse longitude ∧ Number.parse longitude ≤ 180)
    (htail : acceptsTail tail = true) :
    Writes s ⟨Number.parse latitude, Number.parse longitude⟩

/-- The texts that are read are those that write the point. -/
theorem ofText?_eq_some_iff {s : List Char} {point : GeoPoint} :
    ofText? s = some point ↔ Writes s point := by
  constructor
  · intro htext
    unfold ofText? at htext
    split at htext
    · rename_i latitude longitude tail hwords
      dsimp only at htext
      split at htext
      · rename_i haccepted
        obtain ⟨hsouth, hnorth, hwest, heast, htail⟩ := haccepted
        rw [← Option.some_inj.1 htext]
        exact .intro (Text.items_iff.2 hwords) ⟨hsouth, hnorth⟩ ⟨hwest, heast⟩ htail
      · cases htext
    · cases htext
  · rintro ⟨hitems, hlatitude, hlongitude, htail⟩
    rw [ofText?, Text.items_iff.1 hitems]
    exact if_pos ⟨hlatitude.1, hlatitude.2, hlongitude.1, hlongitude.2, htail⟩

theorem ofText?_eq_none_iff {s : List Char} : ofText? s = none ↔ ∀ point, ¬ Writes s point := by
  simp only [Option.eq_none_iff_forall_ne_some, ne_eq, ofText?_eq_some_iff]

/-! ### Several points -/

theorem mem_segments {s segment : List Char} :
    segment ∈ segments s ↔ segment ∈ splitAll (· == ';') s ∧ ∃ c ∈ segment, isBlank c = false := by
  rw [segments, List.mem_filter, Bool.not_eq_true', List.isEmpty_eq_false_iff, ne_eq,
    Text.trim_eq_nil_iff]
  simp only [not_forall, Bool.not_eq_true, exists_prop]

/-- Texts that are joined have the segments that they have apart. -/
theorem segments_join (texts : List (List Char)) :
    segments (join [';'] texts) = texts.flatMap segments :=
  Text.filter_splitAll_join (p := (· == ';')) rfl rfl texts

theorem ofTexts?_join (texts : List (List Char)) :
    ofTexts? [join [';'] texts] = ofTexts? texts := by
  rw [ofTexts?, ofTexts?, List.flatMap_singleton, segments_join]

theorem mapM_ofText?_eq_some_iff {texts : List (List Char)} {points : List GeoPoint} :
    texts.mapM ofText? = some points ↔ List.Forall₂ Writes texts points := by
  induction texts generalizing points with
  | nil => simp [eq_comm]
  | cons s texts ih =>
    simp only [List.mapM_cons, Option.pure_def, Option.bind_eq_bind, Option.bind_eq_some_iff,
      ofText?_eq_some_iff, ih, Option.some_inj, List.forall₂_cons_left_iff]
    constructor
    · rintro ⟨point, hpoint, rest, hrest, rfl⟩
      exact ⟨point, rest, hpoint, hrest, rfl⟩
    · rintro ⟨point, rest, hpoint, hrest, rfl⟩
      exact ⟨point, hpoint, rest, hrest, rfl⟩

theorem mapM_ofText?_eq_none_iff {texts : List (List Char)} :
    texts.mapM ofText? = none ↔ ∃ s ∈ texts, ∀ point, ¬ Writes s point := by
  induction texts with
  | nil => simp
  | cons s texts ih =>
    simp only [List.mem_cons, exists_eq_or_imp]
    rw [← ih, ← ofText?_eq_none_iff, List.mapM_cons]
    cases ofText? s with
    | none => simp
    | some point => cases texts.mapM ofText? <;> simp

/-- One malformed segment spoils all points, and nothing else does. -/
theorem ofTexts?_eq_none_iff {texts : List (List Char)} :
    ofTexts? texts = none ↔ ∃ text ∈ texts, ∃ segment ∈ splitAll (· == ';') text,
      (∃ c ∈ segment, isBlank c = false) ∧ ∀ point, ¬ Writes segment point := by
  rw [ofTexts?, mapM_ofText?_eq_none_iff]
  simp only [List.mem_flatMap, mem_segments]
  constructor
  · rintro ⟨segment, ⟨text, htext, hsegment, hfilled⟩, hmalformed⟩
    exact ⟨text, htext, segment, hsegment, hfilled, hmalformed⟩
  · rintro ⟨text, htext, segment, hsegment, hfilled, hmalformed⟩
    exact ⟨segment, ⟨text, htext, hsegment, hfilled⟩, hmalformed⟩

end GeoPoint

namespace Library

open GeoPoint (Writes segments)

variable {F : Forest} (context : Context F) (environment : Environment)

def measureOf (name : String) : List GeoPoint → Float :=
  if name = "area" then GeoPoint.area else GeoPoint.distance

theorem call_measure {name : String} (hname : name ∈ ["area", "distance"]) {args : List (Value F)}
    (hargs : args ≠ []) :
    Registry.builtin.call name context environment args = measure (measureOf name) args := by
  obtain ⟨arg, rest, rfl⟩ := List.exists_cons_of_ne_nil hargs
  simp only [List.mem_cons, List.not_mem_nil, or_false] at hname
  rcases hname with rfl | rfl <;> rfl

/-- The points are what is written between the semicolons of all texts together, so a length or an
area can be taken from one text, from one text for each point, from the members of a node set, and
from any mixture of these. -/
theorem places_grouped_alike :
    (∀ texts : List (List Char), GeoPoint.ofTexts? texts = GeoPoint.ofTexts? [join [';'] texts]) ∧
    (∀ (texts : List (List Char)) (points : List GeoPoint),
      GeoPoint.ofTexts? texts = some points ↔
        List.Forall₂ Writes (texts.flatMap segments) points) ∧
    (∀ texts : List (List Char), GeoPoint.ofTexts? texts = none ↔
      ∃ text ∈ texts, ∃ segment ∈ splitAll (· == ';') text,
        (∃ c ∈ segment, isBlank c = false) ∧ ∀ point, ¬ Writes segment point) ∧
    ∀ name ∈ ["area", "distance"], ∀ args : List (Value F), args ≠ [] → ∃ x,
      Registry.builtin.call name context environment args = .ok (.number x) ∧
      Registry.builtin.call name context environment
        [.ofChars (join [';'] (Value.spreadTexts args))] = .ok (.number x) ∧
      ∀ args' : List (Value F), args' ≠ [] →
        (Value.spreadTexts args').flatMap segments = (Value.spreadTexts args).flatMap segments →
          Registry.builtin.call name context environment args' = .ok (.number x) := by
  refine ⟨fun texts => (GeoPoint.ofTexts?_join texts).symm,
    fun texts points => GeoPoint.mapM_ofText?_eq_some_iff,
    fun texts => GeoPoint.ofTexts?_eq_none_iff, ?_⟩
  intro name hname args hargs
  have halike : ∀ args' : List (Value F), args' ≠ [] →
      (Value.spreadTexts args').flatMap segments = (Value.spreadTexts args).flatMap segments →
        Registry.builtin.call name context environment args' = measure (measureOf name) args := by
    intro args' hargs' hsegments
    rw [call_measure context environment hname hargs', measure, measure, GeoPoint.ofTexts?,
      GeoPoint.ofTexts?, hsegments]
  refine ⟨_, halike args hargs rfl, halike _ (List.cons_ne_nil _ _) ?_, halike⟩
  have htexts : Value.spreadTexts [(.ofChars (join [';'] (Value.spreadTexts args)) : Value F)] =
      [join [';'] (Value.spreadTexts args)] := spreadTexts_map_ofChars [_]
  rw [htexts, List.flatMap_singleton, GeoPoint.segments_join]

def northernCorners : Forest :=
  ⟨[.node (.text "0 0;1 0;") [] [], .node (.text " \u00a0") [] [], .node (.text "1 1") [] []]⟩

/-- A node set with a blank member and another text, against a text of all points. -/
theorem places_grouped_alike_corners :
    let environment : Environment := .standard .summerTime ⟨0, 0, 0⟩ fun _ => 0
    let corners : List (Node northernCorners) :=
      [⟨0, [], by decide⟩, ⟨1, [], by decide⟩, ⟨2, [], by decide⟩]
    let args : List (Value northernCorners) := [.nodeSet corners, .string "0 1;"]
    let texts := ["0 0".toList, "1 0".toList, "1 1".toList, "0 1".toList]
    (Value.spreadTexts args).flatMap segments = texts ∧
    (Value.spreadTexts [(.string "0 0;1 0;1 1;0 1" : Value northernCorners)]).flatMap segments =
      texts ∧
    Registry.builtin.call "area" ⟨none, 0, 0⟩ environment args =
      Registry.builtin.call "area" ⟨none, 0, 0⟩ environment [.string "0 0;1 0;1 1;0 1"] := by
  intro environment corners args texts
  have hargs : (Value.spreadTexts args).flatMap segments = texts := by decide
  have htext : (Value.spreadTexts [(.string "0 0;1 0;1 1;0 1" : Value northernCorners)]).flatMap
      segments = texts := by decide
  obtain ⟨x, hcall, -, halike⟩ := (places_grouped_alike (F := northernCorners) ⟨none, 0, 0⟩
    environment).2.2.2 "area" List.mem_cons_self args (List.cons_ne_nil _ _)
  have hcall' := halike [.string "0 0;1 0;1 1;0 1"] (List.cons_ne_nil _ _) (htext.trans hargs.symm)
  exact ⟨hargs, htext, hcall.trans hcall'.symm⟩

end Library

end FormExpr
