import FormExpr.Proofs.Calendar.Format
import FormExpr.Proofs.Library.Clocks
import FormExpr.Proofs.Pattern.Engine

/-!
# Calls that the built-in functions refuse

A call with too few or too many arguments is refused for their number. With a number in range a
call breaks off if a clock that it looks up has left the calendar. Apart from that only a few
functions fail at all, each for the reasons that the table `Refusal` gives, and all others give a
value whatever the kinds of their arguments.
-/

namespace FormExpr

variable {F : Forest}

namespace Function

/-- On the arguments that it takes, the function fails exactly as the relation says. -/
def FailsBy (f : Function F) (reason : Call F → List (Value F) → Error → Prop) : Prop :=
  ∀ call args, f.Takes args → ∀ e, f.run call args = .error e ↔ reason call args e

theorem FailsBy.counting {f : Function F} {reason : Call F → List (Value F) → Error → Prop}
    (h : f.FailsBy reason) (counted : List (Value F) → List (Value F)) :
    (f.counting counted).FailsBy reason :=
  h

theorem FailsBy.dated {f : Function F} {reason : Call F → List (Value F) → Error → Prop}
    (h : f.FailsBy reason) : f.dated.FailsBy reason :=
  h

theorem Succeeds.failsBy {f : Function F} (h : f.Succeeds) : f.FailsBy fun _ _ _ => False := by
  intro call args htakes e
  obtain ⟨v, hv⟩ := h call args htakes
  rw [hv, iff_false]
  exact nofun

end Function

namespace Library

/-! ### Reasons -/

def LacksNodeSet (call : Call F) : List (Value F) → Error → Prop
  | v :: _, e => v.kind ≠ .nodeSet ∧ e = .nodeSetRequired call.function
  | [], _ => False

def LacksWholeSeed (call : Call F) : List (Value F) → Error → Prop
  | [.nodeSet _, seed], e =>
    ¬ ((seed.toNumber call.zone).isFinite = true ∧
      Binary64.isIntegral (seed.toNumber call.zone) = true) ∧
    e = .seedNotInteger call.function seed.toText
  | _, _ => False

def LacksPartner (call : Call F) : List (Value F) → Error → Prop
  | _ :: _ :: rest, e => rest.length % 2 = 1 ∧ e = .tooFewArguments call.function
  | _, _ => False

def HasBadEscape (call : Call F) : List (Value F) → Error → Prop
  | [v, format], e =>
    (v.toMoment call.zone).isValid = true ∧ Moment.BadEscape format.toText.toList e
  | _, _ => False

def algorithmNames : List String := ["MD5", "SHA-1", "SHA-256", "SHA-384", "SHA-512"]

def encodingNames : List String := ["base64", "hex"]

/-- The digester has no digest by the name of the algorithm, and says so in words of its own. -/
def LacksDigest (call : Call F) : List (Value F) → Error → Prop
  | message :: algorithm :: _, e =>
    call.environment.digester.digest algorithm.toText message.toText.toUTF8.toList = .error e
  | _, _ => False

def LacksEncoding (call : Call F) : List (Value F) → Error → Prop
  | [message, algorithm, encoding], e =>
    (∃ bytes, call.environment.digester.digest algorithm.toText message.toText.toUTF8.toList =
      .ok bytes) ∧
    encoding.toText.map Char.toLower ∉ encodingNames ∧
    e = .unsupportedEncoding (encoding.toText.map Char.toLower)
  | _, _ => False

def HasBadPattern (call : Call F) : List (Value F) → Error → Prop
  | [v, pattern], e =>
    let read := call.environment.patterns.read?
      ("^(?:".toList ++ pattern.toText.toList ++ ")$".toList)
    (read = none ∨ ∃ search, read = some search ∧ search v.toText.toList = none) ∧
    e = .malformedPattern
  | _, _ => False

def Refusal : String → Call F → List (Value F) → Error → Prop
  | "count" | "count-non-empty" | "sum" | "position" | "name" | "local-name" | "namespace-uri" =>
    LacksNodeSet
  | "randomize" => fun call args e => LacksNodeSet call args e ∨ LacksWholeSeed call args e
  | "weighted-checklist" => LacksPartner
  | "format-date" | "format-date-time" => HasBadEscape
  | "digest" => fun call args e => LacksDigest call args e ∨ LacksEncoding call args e
  | "regex" => HasBadPattern
  | _ => fun _ _ _ => False

/-! ### Functions of node sets -/

theorem members_eq_error_iff {call : Call F} {v : Value F} {e : Error} :
    members call v = .error e ↔ v.kind ≠ .nodeSet ∧ e = .nodeSetRequired call.function := by
  cases v <;> simp [members, Value.kind, eq_comm]

theorem lacksNodeSet_cons {call : Call F} {v : Value F} {rest : List (Value F)} {e : Error} :
    LacksNodeSet call (v :: rest) e ↔ members call v = .error e :=
  members_eq_error_iff.symm

theorem unary_failsBy_lacksNodeSet {f : Call F → Value F → Result F}
    (h : ∀ call v e, f call v = .error e ↔ members call v = .error e) :
    (Function.unary f).FailsBy LacksNodeSet := by
  intro call args htakes e
  obtain ⟨v, rfl⟩ := Function.takes_unary htakes
  exact (h call v e).trans lacksNodeSet_cons.symm

theorem optional_failsBy_lacksNodeSet {f : Call F → Option (Value F) → Result F}
    (hnone : ∀ call, ∃ v, f call none = .ok v)
    (hsome : ∀ call v e, f call (some v) = .error e ↔ members call v = .error e) :
    (Function.optional f).FailsBy LacksNodeSet := by
  intro call args htakes e
  obtain rfl | ⟨v, rfl⟩ := Function.takes_optional htakes
  · obtain ⟨v, hv⟩ := hnone call
    have hrun : (Function.optional f).run call [] = .ok v := hv
    rw [hrun]
    exact ⟨nofun, nofun⟩
  · exact (hsome call v e).trans lacksNodeSet_cons.symm

theorem position_failsBy : (Function.optional (position : Call F → _)).FailsBy LacksNodeSet := by
  apply optional_failsBy_lacksNodeSet
  · intro call
    exact ⟨_, rfl⟩
  · intro call v e
    apply bind_eq_error_iff_of_ok
    intro nodes
    split
    · exact ⟨_, rfl⟩
    · exact ⟨_, rfl⟩

theorem subjectName_failsBy (name : Node F → Option String) :
    (subjectName name).FailsBy LacksNodeSet := by
  apply optional_failsBy_lacksNodeSet
  · intro call
    exact ⟨_, rfl⟩
  · intro call v e
    have hsubject : subject call (some v) = .error e ↔ members call v = .error e :=
      map_eq_error_iff
    rw [← hsubject]
    exact bind_eq_error_iff_of_ok fun n => ⟨_, rfl⟩

/-! ### Shuffles -/

/-- A seed is refused unless it is a finite whole number, with its text in the error. -/
theorem seed_eq_error_iff {call : Call F} {v : Value F} {e : Error} :
    seed call v = .error e ↔
      ¬ ((v.toNumber call.zone).isFinite = true ∧
        Binary64.isIntegral (v.toNumber call.zone) = true) ∧
      e = .seedNotInteger call.function v.toText := by
  unfold seed
  dsimp only
  rw [← Bool.and_eq_true]
  split_ifs with hwhole
  · simp [hwhole]
  · simp [hwhole, eq_comm]

theorem lacksWholeSeed_pair {call : Call F} {v seedValue : Value F} {e : Error} :
    LacksWholeSeed call [v, seedValue] e ↔
      ∃ nodes, members call v = .ok nodes ∧ seed call seedValue = .error e := by
  simp only [seed_eq_error_iff]
  cases v with
  | nodeSet nodes => exact ⟨fun h => ⟨nodes, rfl, h⟩, fun ⟨_, _, h⟩ => h⟩
  | _ => exact ⟨nofun, nofun⟩

theorem randomize_failsBy : (Function.unaryOptional (randomize : Call F → _)).FailsBy
    (Refusal "randomize") := by
  intro call args htakes e
  change _ ↔ LacksNodeSet call args e ∨ LacksWholeSeed call args e
  obtain ⟨v, rfl⟩ | ⟨v, seedValue, rfl⟩ := Function.takes_unaryOptional htakes
  · have hseed : ¬ LacksWholeSeed call [v] e := by simp [LacksWholeSeed]
    rw [or_iff_left hseed, lacksNodeSet_cons]
    exact bind_eq_error_iff_of_ok fun nodes => ⟨_, rfl⟩
  · change randomize call v (some seedValue) = .error e ↔ _
    rw [lacksNodeSet_cons, lacksWholeSeed_pair, randomize, bind_eq_error_iff]
    refine or_congr_right (exists_congr fun nodes => and_congr_right fun _ => ?_)
    exact bind_eq_error_iff_of_ok fun seed => ⟨_, rfl⟩

/-! ### Checklists -/

/-- Weights come in pairs with what they weigh. -/
theorem allWeights?_eq_none_iff {z : Zone} {args : List (Value F)} :
    allWeights? z args = none ↔ args.length % 2 = 1 := by
  fun_induction allWeights? z args with
  | case1 => simp
  | case2 => simp
  | case3 value weight rest ih =>
    rw [Option.map_eq_none_iff, ih]
    simp only [List.length_cons]
    omega

theorem weightedChecklist_failsBy :
    (Function.variadicFrom2 (weightedChecklist : Call F → _)).FailsBy LacksPartner := by
  intro call args htakes e
  obtain ⟨least, most, rest, rfl⟩ := Function.takes_variadicFrom2 htakes
  change weightedChecklist call least most rest = .error e ↔
    rest.length % 2 = 1 ∧ e = .tooFewArguments call.function
  rw [← allWeights?_eq_none_iff (z := call.zone), weightedChecklist]
  cases allWeights? call.zone rest with
  | none => simp [eq_comm]
  | some weights => simp

/-! ### Dates, digests and patterns -/

theorem formatDate_failsBy :
    (Function.binary (formatDate : Call F → _)).FailsBy HasBadEscape := by
  intro call args htakes e
  obtain ⟨v, format, rfl⟩ := Function.takes_binary htakes
  have hformat : formatDate call v format = .error e ↔
      (v.toMoment call.zone).format format.toText.toList = .error e :=
    bind_eq_error_iff_of_ok fun s => ⟨_, rfl⟩
  exact hformat.trans Moment.format_eq_error_iff

/-- The standard digester knows its algorithms by their names in any case. -/
theorem digest_standard_eq_error_iff {name : String} {message : List UInt8} {e : Error} :
    Digest.Digester.standard.digest name message = .error e ↔
      name.map Char.toUpper ∉ algorithmNames ∧
      e = .unsupportedAlgorithm (name.map Char.toUpper) := by
  have hknown : (Digest.algorithms.lookup (name.map Char.toUpper)).isSome = true ↔
      name.map Char.toUpper ∈ algorithmNames := lookup_isSome_iff
  have hnamed : Digest.Digester.standard.digest name message = .error e ↔
      Digest.Algorithm.named name = .error e := map_eq_error_iff
  rw [hnamed, ← hknown, Digest.Algorithm.named]
  cases Digest.algorithms.lookup (name.map Char.toUpper) <;> simp [eq_comm]

theorem encoding_named_eq_error_iff {name : String} {e : Error} :
    Digest.Encoding.named name = .error e ↔ name.map Char.toLower ∉ encodingNames ∧
      e = .unsupportedEncoding (name.map Char.toLower) := by
  have hknown : ([("base64", Digest.Encoding.base64), ("hex", .hex)].lookup
      (name.map Char.toLower)).isSome = true ↔ name.map Char.toLower ∈ encodingNames :=
    lookup_isSome_iff
  rw [← hknown, Digest.Encoding.named]
  cases [("base64", Digest.Encoding.base64), ("hex", .hex)].lookup (name.map Char.toLower) <;>
    simp [eq_comm]

/-- The digest is made before the encoding is looked up. -/
theorem digester_ofText_eq_error_iff {digester : Digest.Digester}
    {message algorithm encoding : String} {e : Error} :
    digester.ofText message algorithm encoding = .error e ↔
      digester.digest algorithm message.toUTF8.toList = .error e ∨
      (∃ bytes, digester.digest algorithm message.toUTF8.toList = .ok bytes) ∧
        Digest.Encoding.named encoding = .error e := by
  have hencoding : ∀ bytes : List UInt8, (Digest.Encoding.named encoding >>= fun named =>
      (pure (named.run bytes) : Except Error (List Char))) = .error e ↔
      Digest.Encoding.named encoding = .error e :=
    fun bytes => bind_eq_error_iff_of_ok fun named => ⟨_, rfl⟩
  rw [Digest.Digester.ofText, bind_eq_error_iff]
  simp only [hencoding, exists_and_right]

theorem digest_failsBy : (Function.binaryOptional (digest : Call F → _)).FailsBy
    (Refusal "digest") := by
  intro call args htakes e
  change _ ↔ LacksDigest call args e ∨ LacksEncoding call args e
  have hdigest : ∀ message algorithm encoding, digest call message algorithm encoding = .error e ↔
      call.environment.digester.ofText message.toText algorithm.toText
        ((encoding.map Value.toText).getD "base64") = .error e :=
    fun _ _ _ => bind_eq_error_iff_of_ok fun s => ⟨_, rfl⟩
  obtain ⟨message, algorithm, rfl⟩ | ⟨message, algorithm, encoding, rfl⟩ :=
    Function.takes_binaryOptional htakes
  · have hdefault : ¬ Digest.Encoding.named "base64" = .error e := by
      rw [encoding_named_eq_error_iff]
      exact fun h => h.1 (by decide +kernel)
    refine (hdigest message algorithm none).trans (digester_ofText_eq_error_iff.trans ?_)
    exact or_congr_right (iff_of_false (fun h => hdefault h.2) nofun)
  · refine (hdigest message algorithm (some encoding)).trans (digester_ofText_eq_error_iff.trans ?_)
    rw [encoding_named_eq_error_iff]
    rfl

theorem regex_failsBy : (Function.binary (regex : Call F → _)).FailsBy HasBadPattern := by
  intro call args htakes e
  obtain ⟨v, pattern, rfl⟩ := Function.takes_binary htakes
  have hregex : regex call v pattern = .error e ↔
      call.environment.patterns.matchesWhole? pattern.toText.toList v.toText.toList = none ∧
      e = .malformedPattern := by
    rw [regex]
    cases call.environment.patterns.matchesWhole? pattern.toText.toList v.toText.toList <;>
      simp [eq_comm]
  rw [Pattern.Engine.matchesWhole?_eq_none_iff] at hregex
  exact hregex

/-! ### The tables -/

theorem logic_failsBy : ∀ entry ∈ (logic : List (String × Function F)),
    entry.2.FailsBy (Refusal entry.1) := by
  simp only [logic, List.forall_mem_cons]
  refine ⟨?_, ?_, ?_, ?_, ?_, ?_, ?_, ?_, List.forall_mem_nil _⟩
  · exact (Function.succeeds_nullary fun _ => ⟨_, rfl⟩).failsBy
  · exact (Function.succeeds_nullary fun _ => ⟨_, rfl⟩).failsBy
  · exact (Function.succeeds_unary fun _ _ => ⟨_, rfl⟩).failsBy
  · exact (Function.succeeds_unary fun _ _ => ⟨_, rfl⟩).failsBy
  · exact (Function.succeeds_unary fun _ _ => ⟨_, rfl⟩).failsBy
  · exact (Function.succeeds_ternary fun _ _ _ _ => ⟨_, rfl⟩).failsBy
  · exact (Function.succeeds_unary fun _ _ => ⟨_, rfl⟩).failsBy
  · exact (Function.succeeds_binary fun _ _ _ => ⟨_, rfl⟩).failsBy

theorem numeric_failsBy (f : Float → Float) :
    (numeric f : Function F).FailsBy fun _ _ _ => False :=
  (Function.succeeds_unary fun _ _ => ⟨_, rfl⟩).failsBy.counting id

theorem numeric₂_failsBy (f : Float → Float → Float) :
    (numeric₂ f : Function F).FailsBy fun _ _ _ => False :=
  (Function.succeeds_binary fun _ _ _ => ⟨_, rfl⟩).failsBy.counting id

theorem arithmetic_failsBy : ∀ entry ∈ (arithmetic : List (String × Function F)),
    entry.2.FailsBy (Refusal entry.1) := by
  simp only [arithmetic, List.forall_mem_cons]
  refine ⟨?_, numeric_failsBy _, numeric_failsBy _, numeric_failsBy _, numeric_failsBy _, ?_,
    numeric_failsBy _, numeric_failsBy _, numeric_failsBy _, numeric_failsBy _, numeric_failsBy _,
    numeric_failsBy _, numeric_failsBy _, numeric_failsBy _, numeric_failsBy _, numeric_failsBy _,
    numeric_failsBy _, numeric₂_failsBy _, numeric₂_failsBy _, ?_, List.forall_mem_nil _⟩
  · exact (Function.succeeds_optional fun _ _ => ⟨_, rfl⟩).failsBy.counting id
  · exact (Function.succeeds_unaryOptional fun _ _ _ => ⟨_, rfl⟩).failsBy.counting id
  · exact (Function.succeeds_nullary fun _ => ⟨_, rfl⟩).failsBy

theorem textual_failsBy (f : List Char → Value F) : (textual f).FailsBy fun _ _ _ => False :=
  (Function.succeeds_optional fun _ _ => ⟨_, rfl⟩).failsBy

theorem textual₂_failsBy (f : List Char → List Char → Value F) :
    (textual₂ f).FailsBy fun _ _ _ => False :=
  (Function.succeeds_binary fun _ _ _ => ⟨_, rfl⟩).failsBy

theorem text_failsBy : ∀ entry ∈ (text : List (String × Function F)),
    entry.2.FailsBy (Refusal entry.1) := by
  simp only [text, List.forall_mem_cons]
  refine ⟨textual_failsBy _, textual_failsBy _, textual_failsBy _, ?_, ?_, textual₂_failsBy _,
    textual₂_failsBy _, textual₂_failsBy _, textual₂_failsBy _, textual₂_failsBy _, ?_, ?_, ?_,
    List.forall_mem_nil _⟩
  · exact (Function.succeeds_variadic fun _ _ => ⟨_, rfl⟩).failsBy
  · exact (Function.succeeds_variadicFrom1 fun _ _ _ => ⟨_, rfl⟩).failsBy
  · exact (Function.succeeds_binaryOptional fun _ _ _ _ => ⟨_, rfl⟩).failsBy.counting List.tail
  · exact (Function.succeeds_binaryOptional fun _ _ _ _ => ⟨_, rfl⟩).failsBy.counting List.tail
  · exact (Function.succeeds_ternary fun _ _ _ _ => ⟨_, rfl⟩).failsBy

theorem nodeSet_failsBy : ∀ entry ∈ (nodeSet : List (String × Function F)),
    entry.2.FailsBy (Refusal entry.1) := by
  simp only [nodeSet, List.forall_mem_cons]
  refine ⟨?_, position_failsBy, ?_, ?_, subjectName_failsBy _, subjectName_failsBy _,
    subjectName_failsBy _, ?_, List.forall_mem_nil _⟩
  · exact (Function.succeeds_nullary fun _ => ⟨_, rfl⟩).failsBy
  · exact unary_failsBy_lacksNodeSet fun _ _ _ => bind_eq_error_iff_of_ok fun _ => ⟨_, rfl⟩
  · exact unary_failsBy_lacksNodeSet fun _ _ _ => bind_eq_error_iff_of_ok fun _ => ⟨_, rfl⟩
  · exact (Function.succeeds_unary fun _ _ => ⟨_, rfl⟩).failsBy

theorem aggregate_failsBy : ∀ entry ∈ (aggregate : List (String × Function F)),
    entry.2.FailsBy (Refusal entry.1) := by
  simp only [aggregate, List.forall_mem_cons]
  refine ⟨?_, ?_, ?_, ?_, weightedChecklist_failsBy.counting countedWeights, List.forall_mem_nil _⟩
  · exact unary_failsBy_lacksNodeSet fun _ _ _ => bind_eq_error_iff_of_ok fun _ => ⟨_, rfl⟩
  · exact (Function.succeeds_variadic fun _ _ => ⟨_, rfl⟩).failsBy.counting id
  · exact (Function.succeeds_variadic fun _ _ => ⟨_, rfl⟩).failsBy.counting id
  · exact (Function.succeeds_variadicFrom2 fun _ _ _ _ => ⟨_, rfl⟩).failsBy.counting (List.take 2)

theorem dates_failsBy : ∀ entry ∈ (dates : List (String × Function F)),
    entry.2.FailsBy (Refusal entry.1) := by
  simp only [dates, List.forall_mem_cons]
  refine ⟨?_, ?_, ?_, ?_, ?_, ?_, formatDate_failsBy, formatDate_failsBy, ?_, ?_,
    List.forall_mem_nil _⟩
  · exact (Function.succeeds_unary fun _ _ => ⟨_, rfl⟩).failsBy
  · exact (Function.succeeds_unary fun _ _ => ⟨_, rfl⟩).failsBy
  · exact (Function.succeeds_unary fun _ _ => ⟨_, rfl⟩).failsBy.counting id
  · exact (Function.succeeds_unary fun _ _ => ⟨_, rfl⟩).failsBy.dated
  · exact (Function.succeeds_nullary fun _ => ⟨_, rfl⟩).failsBy.dated
  · exact (Function.succeeds_nullary fun _ => ⟨_, rfl⟩).failsBy
  · exact (Function.succeeds_variadic fun _ _ => ⟨_, rfl⟩).failsBy
  · exact (Function.succeeds_variadic fun _ _ => ⟨_, rfl⟩).failsBy

theorem selection_failsBy : ∀ entry ∈ (selection : List (String × Function F)),
    entry.2.FailsBy (Refusal entry.1) := by
  simp only [selection, List.forall_mem_cons]
  refine ⟨?_, ?_, ?_, List.forall_mem_nil _⟩
  · exact (Function.succeeds_binary fun _ _ _ => ⟨_, rfl⟩).failsBy
  · exact (Function.succeeds_binary fun _ _ _ => ⟨_, rfl⟩).failsBy.counting List.tail
  · exact (Function.succeeds_unary fun _ _ => ⟨_, rfl⟩).failsBy

theorem chance_failsBy : ∀ entry ∈ (chance : List (String × Function F)),
    entry.2.FailsBy (Refusal entry.1) := by
  simp only [chance, List.forall_mem_cons]
  refine ⟨?_, ?_, randomize_failsBy.counting countedSeed, List.forall_mem_nil _⟩
  · exact (Function.succeeds_nullary fun _ => ⟨_, rfl⟩).failsBy
  · exact (Function.succeeds_optional fun _ _ => ⟨_, rfl⟩).failsBy.counting id

theorem coding_failsBy : ∀ entry ∈ (coding : List (String × Function F)),
    entry.2.FailsBy (Refusal entry.1) := by
  simp only [coding, List.forall_mem_cons]
  refine ⟨digest_failsBy, regex_failsBy, ?_, List.forall_mem_nil _⟩
  exact (Function.succeeds_unary fun _ _ => ⟨_, rfl⟩).failsBy

end Library

/-- Every built-in function fails by the table. -/
theorem Registry.builtin_failsBy {name : String} {f : Function F}
    (hfind : builtin.find? name = some f) : f.FailsBy (Library.Refusal name) := by
  have hmem := mem_entries_of_find? hfind
  simp only [builtin, List.mem_append, or_assoc] at hmem
  rcases hmem with h | h | h | h | h | h | h | h | h
  · exact Library.logic_failsBy _ h
  · exact Library.arithmetic_failsBy _ h
  · exact Library.text_failsBy _ h
  · exact Library.nodeSet_failsBy _ h
  · exact Library.aggregate_failsBy _ h
  · exact Library.dates_failsBy _ h
  · exact Library.selection_failsBy _ h
  · exact Library.chance_failsBy _ h
  · exact Library.coding_failsBy _ h

theorem Registry.builtin_minArgs_le {name : String} {f : Function F}
    (hfind : builtin.find? name = some f) : ∀ most ∈ f.maxArgs, f.minArgs ≤ most := by
  have hall : (builtin : Registry F).entries.all
      (fun entry => entry.2.maxArgs.all (entry.2.minArgs ≤ ·)) = true := rfl
  have hentry := List.all_eq_true.1 hall (name, f) (mem_entries_of_find? hfind)
  intro most hmost
  rw [Option.all_eq_true] at hentry
  exact of_decide_eq_true (hentry most hmost)

namespace Library

/-! ### What the errors say -/

section Errors

variable {call : Call F} {args : List (Value F)} {e : Error}

theorem LacksNodeSet.error_eq (h : LacksNodeSet call args e) :
    e = .nodeSetRequired call.function := by
  unfold LacksNodeSet at h
  split at h
  · exact h.2
  · cases h

theorem LacksWholeSeed.exists_error_eq (h : LacksWholeSeed call args e) :
    ∃ text, e = .seedNotInteger call.function text := by
  unfold LacksWholeSeed at h
  split at h
  · exact ⟨_, h.2⟩
  · cases h

theorem HasBadEscape.error_eq (h : HasBadEscape call args e) :
    e = .danglingEscape ∨ ∃ code, e = .unknownEscape code := by
  unfold HasBadEscape at h
  split at h
  · exact h.2.error_eq
  · cases h

theorem LacksEncoding.exists_error_eq (h : LacksEncoding call args e) :
    ∃ name, e = .unsupportedEncoding name := by
  unfold LacksEncoding at h
  split at h
  · exact ⟨_, h.2.2⟩
  · cases h

theorem HasBadPattern.error_eq (h : HasBadPattern call args e) : e = .malformedPattern := by
  unfold HasBadPattern at h
  split at h
  · exact h.2
  · cases h

/-- Only an argument without a partner is reported as a missing one, unless a digester does so. -/
theorem lacksPartner_or_lacksDigest {name function : String}
    (h : Refusal name call args (.tooFewArguments function)) :
    name = "weighted-checklist" ∧ LacksPartner call args (.tooFewArguments function) ∨
      name = "digest" ∧ LacksDigest call args (.tooFewArguments function) := by
  unfold Refusal at h
  split at h
  iterate 7 exact absurd h.error_eq nofun
  · rcases h with hnodes | hseed
    · exact absurd hnodes.error_eq nofun
    · exact absurd hseed.exists_error_eq nofun
  · exact Or.inl ⟨rfl, h⟩
  iterate 2 exact absurd h.error_eq nofun
  · rcases h with hdigest | hencoding
    · exact Or.inr ⟨rfl, hdigest⟩
    · exact absurd hencoding.exists_error_eq nofun
  · exact absurd h.error_eq nofun
  · cases h

end Errors

end Library

namespace Registry

/-! ### What comes of a call -/

def BreaksOff (call : Call F) (args : List (Value F)) : Prop :=
  ∃ t, Library.Reads call.function call args t ∧ ¬ t.OnCalendar

theorem perform_of_find? {r : Registry F} {name : String} {f : Function F}
    (hfind : r.find? name = some f) (context : Context F) (environment : Environment)
    (args : List (Value F)) :
    r.perform name context environment args = f.perform ⟨name, context, environment⟩ args := by
  rw [perform, resolve, hfind]

/-- A call breaks off if it reaches a run that looks up a clock off the calendar. -/
theorem builtin_perform_eq_none_iff {name : String} {f : Function F}
    (hfind : builtin.find? name = some f) (context : Context F) (environment : Environment)
    (args : List (Value F)) :
    builtin.perform name context environment args = none ↔
      f.Takes args ∧ BreaksOff ⟨name, context, environment⟩ args := by
  rw [perform_of_find? hfind, Function.perform_eq_none_iff]
  simp only [builtin_readsBy hfind _ args _, BreaksOff]

/-- Every other call is answered as the function answers. -/
theorem builtin_perform_of_not {name : String} {f : Function F}
    (hfind : builtin.find? name = some f) {context : Context F} {environment : Environment}
    {args : List (Value F)}
    (hruns : ¬ (f.Takes args ∧ BreaksOff ⟨name, context, environment⟩ args)) :
    builtin.perform name context environment args =
      some (f.apply ⟨name, context, environment⟩ args) := by
  rw [← builtin_perform_eq_none_iff hfind context environment args, perform_of_find? hfind] at hruns
  rw [perform_of_find? hfind, Function.perform_eq_some_apply hruns]

/-- A call of a built-in function is refused for the number of its arguments. Else it breaks off at
a clock that has left the calendar, or is refused for a reason of the table, or gives a value. No
function asks for an argument that it was not given, and the standard digester knows five algorithms
by name. -/
theorem builtin_perform_eq_iff {name : String} {f : Function F}
    (hfind : builtin.find? name = some f) (context : Context F) (environment : Environment)
    (args : List (Value F)) :
    let call : Call F := ⟨name, context, environment⟩
    let answer := builtin.perform name context environment args
    (args.length < f.minArgs → answer = some (.error (.tooFewArguments name))) ∧
    (∀ most ∈ f.maxArgs, most < args.length → answer = some (.error (.tooManyArguments name))) ∧
    (f.Takes args →
      (answer = none ↔ BreaksOff call args) ∧
      (∀ e, answer = some (.error e) ↔ ¬ BreaksOff call args ∧ Library.Refusal name call args e) ∧
      (¬ BreaksOff call args → (∀ e, ¬ Library.Refusal name call args e) →
        ∃ v, answer = some (.ok v)) ∧
      (answer = some (Function.unmatched call) →
        name = "weighted-checklist" ∧ Library.LacksPartner call args (.tooFewArguments name) ∨
        name = "digest" ∧ Library.LacksDigest call args (.tooFewArguments name))) ∧
    ∀ algorithm message e, Digest.Digester.standard.digest algorithm message = .error e ↔
      algorithm.map Char.toUpper ∉ Library.algorithmNames ∧
      e = .unsupportedAlgorithm (algorithm.map Char.toUpper) := by
  intro call answer
  have happly (hruns : ¬ (f.Takes args ∧ BreaksOff call args)) :
      answer = some (f.apply call args) := builtin_perform_of_not hfind hruns
  refine ⟨?_, ?_, ?_, fun _ _ _ => Library.digest_standard_eq_error_iff⟩
  · intro hfew
    rw [happly fun h => Nat.not_le_of_lt hfew h.1.1, Function.apply_of_length_lt hfew]
  · intro most hmost hmany
    have hleast := Nat.le_trans (builtin_minArgs_le hfind most hmost) (Nat.le_of_lt hmany)
    rw [happly fun h => Nat.not_le_of_lt hmany (h.1.2 most hmost),
      Function.apply_of_lt_length hleast hmost hmany]
  · intro htakes
    have hbreaks : answer = none ↔ BreaksOff call args := by
      rw [builtin_perform_eq_none_iff hfind, and_iff_right htakes]
    have hfails := builtin_failsBy hfind call args htakes
    have hrun (hruns : ¬ BreaksOff call args) : answer = some (f.run call args) := by
      rw [happly fun h => hruns h.2, Function.apply_of_takes htakes]
    have herror : ∀ e, answer = some (.error e) ↔
        ¬ BreaksOff call args ∧ Library.Refusal name call args e := by
      intro e
      by_cases hoff : BreaksOff call args
      · rw [hbreaks.2 hoff]
        exact iff_of_false nofun fun h => h.1 hoff
      · rw [hrun hoff, Option.some_inj, hfails, and_iff_right hoff]
    refine ⟨hbreaks, herror, ?_, ?_⟩
    · intro hruns hnever
      cases hvalue : f.run call args with
      | ok v => exact ⟨v, (hrun hruns).trans (congrArg some hvalue)⟩
      | error e => exact absurd ((hfails e).1 hvalue) (hnever e)
    · intro hunmatched
      exact Library.lacksPartner_or_lacksDigest ((herror _).1 hunmatched).2

/-- Names are known in any case, and of two unknown ones the algorithm is reported. -/
theorem builtin_perform_digest :
    let environment : Environment := .standard .summerTime ⟨0, 0, 3600⟩ fun _ => 0
    let answer : List (Value ⟨[]⟩) → Option (Result ⟨[]⟩) :=
      builtin.perform "digest" ⟨none, 1, 1⟩ environment
    builtin.find? "digest" = some (.binaryOptional (Library.digest : Call ⟨[]⟩ → _)) ∧
    answer [.string "abc"] = some (.error (.tooFewArguments "digest")) ∧
    answer [.string "abc", .string "md5", .string "hex", .boolean true] =
      some (.error (.tooManyArguments "digest")) ∧
    answer [.string "abc", .string "sha-3", .string "base32"] =
      some (.error (.unsupportedAlgorithm "SHA-3")) ∧
    ∃ v, answer [.string "abc", .string "md5", .string "Hex"] = some (.ok v) := by
  intro environment answer
  have hfind : builtin.find? "digest" =
      some (.binaryOptional (Library.digest : Call ⟨[]⟩ → _)) := rfl
  have hcall := builtin_perform_eq_iff hfind ⟨none, 1, 1⟩ environment
  have hthree : ∀ a b c : Value ⟨[]⟩,
      (Function.binaryOptional (Library.digest : Call ⟨[]⟩ → _)).Takes [a, b, c] := by
    intro a b c
    refine ⟨(by decide : 2 ≤ 3), ?_⟩
    rintro most ⟨⟩
    exact Nat.le_refl _
  have hruns : ∀ args : List (Value ⟨[]⟩),
      ¬ BreaksOff ⟨"digest", ⟨none, 1, 1⟩, environment⟩ args := by
    rintro args ⟨t, hreads, -⟩
    exact hreads
  refine ⟨hfind, (hcall _).1 Nat.one_lt_two, (hcall _).2.1 3 rfl (by decide : 3 < 4), ?_, ?_⟩
  · refine (((hcall _).2.2.1 (hthree _ _ _)).2.1 _).2 ⟨hruns _, Or.inl ?_⟩
    exact Library.digest_standard_eq_error_iff.2 ⟨by decide +kernel, by decide +kernel⟩
  · refine ((hcall _).2.2.1 (hthree _ _ _)).2.2.1 (hruns _) ?_
    rintro e (hunknown | ⟨-, hunknown, -⟩)
    · exact (Library.digest_standard_eq_error_iff.1 hunknown).1 (by decide +kernel)
    · exact hunknown (by decide +kernel)

/-- The last second of the calendar has a clock two hours on in the east. As a date it can be given,
but its number cannot be taken, although nothing is wrong with the arguments. -/
theorem exists_builtin_perform_number_eq_none :
    let environment : Environment := .standard (.fixed 7200) ⟨0, 0, 0⟩ fun _ => 0
    let context : Context ⟨[]⟩ := ⟨none, 1, 1⟩
    ∃ day : Value ⟨[]⟩,
      builtin.perform "date" context environment [.string "31 Dec 262142 23:59:59 +0000"] =
        some (.ok day) ∧
      (∀ e, ¬ Library.Refusal "number" ⟨"number", context, environment⟩ [day] e) ∧
      builtin.perform "number" context environment [day] = none := by
  intro environment context
  let last : ZonedTime := ⟨WallClock.maxSeconds, 0, 7200⟩
  have hfind : builtin.find? "number" =
      some (.counting (.optional (Library.number : Call ⟨[]⟩ → _)) id) := rfl
  have hmoment : Moment.ofText (.fixed 7200) "31 Dec 262142 23:59:59 +0000".toList =
      .valid last := by decide +kernel
  have hdate : builtin.find? "date" = some (.unary (Library.date : Call ⟨[]⟩ → _)) := rfl
  refine ⟨.date (.valid last), ?_, fun _ => id, ?_⟩
  · have htakes : (Function.unary (Library.date : Call ⟨[]⟩ → _)).Takes
        [.string "31 Dec 262142 23:59:59 +0000"] :=
      ⟨Nat.le_refl 1, by rintro _ ⟨⟩; exact Nat.le_refl 1⟩
    rw [builtin_perform_of_not hdate fun ⟨_, _, hreads, _⟩ => hreads,
      Function.apply_of_takes htakes]
    exact congrArg (fun m => some (Except.ok (Value.date m))) hmoment
  · rw [builtin_perform_eq_none_iff hfind]
    refine ⟨⟨Nat.zero_le 1, by rintro _ ⟨⟩; exact Nat.le_refl 1⟩, last, ?_, by decide⟩
    exact List.mem_singleton_self _

end Registry

end FormExpr
