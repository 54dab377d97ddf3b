import FormExpr.Host

/-!
# Casts at the boundary of a host function

What a value is as one of another kind, and what comes of a host function on a list of arguments,
said as relations. A host function that declares only kinds that its arguments may have comes to an
outcome on every list, and it sees nothing of the arguments but their casts.
-/

namespace FormExpr

variable {F : Forest} {z : Zone}

namespace Value

/-- What a value is as one of a kind. Only a node set is a node set. -/
inductive CastsTo (z : Zone) : Value F → Kind → Value F → Prop where
  | boolean (v : Value F) : CastsTo z v .boolean (.boolean v.toBool)
  | number (v : Value F) : CastsTo z v .number (.number (v.toNumber z))
  | string (v : Value F) : CastsTo z v .string (.string v.toText)
  | date (v : Value F) : CastsTo z v .date (.date (v.toMoment z))
  | nodeSet (nodes : List (Node F)) : CastsTo z (.nodeSet nodes) .nodeSet (.nodeSet nodes)

theorem castsTo_iff {v w : Value F} {kind : Kind} : CastsTo z v kind w ↔ v.cast z kind = .ok w := by
  constructor
  · rintro (_ | _ | _ | _ | _) <;> rfl
  · intro hcast
    cases kind with
    | nodeSet =>
      cases v with
      | nodeSet nodes =>
        cases hcast
        exact .nodeSet nodes
      | _ => cases hcast
    | _ =>
      cases hcast
      constructor

/-- Only a node set can be asked for in vain. -/
theorem cast_cases (z : Zone) (kind : Kind) (v : Value F) :
    (kind = .nodeSet ∧ v.kind ≠ .nodeSet ∧ v.cast z kind = .error (.notNodeSet v.kind)) ∨
    ∃ w, CastsTo z v kind w := by
  cases kind with
  | nodeSet =>
    cases v with
    | nodeSet nodes => exact Or.inr ⟨_, .nodeSet nodes⟩
    | _ => exact Or.inl ⟨rfl, by simp [Value.kind], rfl⟩
  | _ => exact Or.inr ⟨_, castsTo_iff.2 rfl⟩

end Value

namespace HostFunction

inductive AreCasts (z : Zone) : List (Value F) → List Kind → List (Value F) → Prop where
  | nil : AreCasts z [] [] []
  | cons {v w : Value F} {kind : Kind} {args casts : List (Value F)} {kinds : List Kind} :
    v.CastsTo z kind w → AreCasts z args kinds casts →
      AreCasts z (v :: args) (kind :: kinds) (w :: casts)

namespace AreCasts

variable {args casts : List (Value F)} {kinds : List Kind}

theorem length_eq (h : AreCasts z args kinds casts) : args.length = kinds.length := by
  induction h with
  | nil => rfl
  | cons _ _ ih => exact congrArg Nat.succ ih

theorem castArgs_eq (h : AreCasts z args kinds casts) : castArgs z args kinds = .ok casts := by
  induction h with
  | nil => rfl
  | cons hcast _ ih =>
    rw [castArgs, Value.castsTo_iff.1 hcast, ih]
    rfl

end AreCasts

/-- Arguments of accepted kinds can always be cast. -/
theorem exists_areCasts {kinds : List Kind} (hkinds : ∀ kind ∈ kinds, Accepts kind) (z : Zone)
    {args : List (Value F)} (hlength : args.length = kinds.length) :
    ∃ casts, AreCasts z args kinds casts := by
  induction kinds generalizing args with
  | nil =>
    obtain rfl := List.length_eq_zero_iff.1 hlength
    exact ⟨[], .nil⟩
  | cons kind kinds ih =>
    obtain ⟨hkind, hrest⟩ := List.forall_mem_cons.1 hkinds
    obtain ⟨v, args, rfl⟩ := List.exists_cons_of_length_eq_add_one hlength
    obtain ⟨casts, hcasts⟩ := ih hrest (Nat.succ.inj hlength)
    obtain ⟨rfl, -⟩ | ⟨w, hcast⟩ := Value.cast_cases z kind v
    · exact absurd hkind (by decide)
    · exact ⟨w :: casts, .cons hcast hcasts⟩

/-! ### Outcomes -/

inductive Outcome (f : HostFunction F) (z : Zone) (name : String) (args : List (Value F)) :
    Result F → Prop where
  | tooFew : args.length < f.argKinds.length →
      Outcome f z name args (.error (.tooFewArguments name))
  | tooMany : f.argKinds.length < args.length →
      Outcome f z name args (.error (.tooManyArguments name))
  | failed {casts : List (Value F)} {e : Error} : AreCasts z args f.argKinds casts →
      f.run casts = .error e → Outcome f z name args (.error e)
  | given {casts : List (Value F)} {raw v : Value F} : AreCasts z args f.argKinds casts →
      f.run casts = .ok raw → raw.CastsTo z f.resultKind v → Outcome f z name args (.ok v)
  | withheld {casts : List (Value F)} {raw : Value F} : AreCasts z args f.argKinds casts →
      f.run casts = .ok raw → f.resultKind = .nodeSet → raw.kind ≠ .nodeSet →
      Outcome f z name args (.error (.notNodeSet raw.kind))

theorem run_of_length_lt {f : HostFunction F} {args : List (Value F)}
    (hlength : args.length < f.argKinds.length) (call : Call F) :
    f.toFunction.run call args = .error (.tooFewArguments call.function) := by
  simp only [toFunction, if_pos hlength]
  rfl

theorem run_of_lt_length {f : HostFunction F} {args : List (Value F)}
    (hlength : f.argKinds.length < args.length) (call : Call F) :
    f.toFunction.run call args = .error (.tooManyArguments call.function) := by
  have hfew : ¬ args.length < f.argKinds.length := Nat.not_lt.2 (Nat.le_of_lt hlength)
  simp only [toFunction, if_neg hfew, if_pos hlength]
  rfl

theorem run_of_areCasts {f : HostFunction F} {args casts : List (Value F)} (call : Call F)
    (hcasts : AreCasts call.zone args f.argKinds casts) :
    f.toFunction.run call args = f.run casts >>= fun raw => raw.cast call.zone f.resultKind := by
  have hlength := hcasts.length_eq
  have hfew : ¬ args.length < f.argKinds.length := by omega
  have hmany : ¬ f.argKinds.length < args.length := by omega
  simp only [toFunction, if_neg hfew, if_neg hmany, hcasts.castArgs_eq]
  rfl

/-- A function of kinds that arguments may have comes to an outcome on every list. -/
theorem outcome_run {f : HostFunction F} (hkinds : ∀ kind ∈ f.argKinds, Accepts kind)
    (call : Call F) (args : List (Value F)) :
    f.Outcome call.zone call.function args (f.toFunction.run call args) := by
  rcases Nat.lt_trichotomy args.length f.argKinds.length with hfew | hlength | hmany
  · rw [run_of_length_lt hfew]
    exact .tooFew hfew
  · obtain ⟨casts, hcasts⟩ := exists_areCasts hkinds call.zone hlength
    rw [run_of_areCasts call hcasts]
    cases hrun : f.run casts with
    | error e => exact .failed hcasts hrun
    | ok raw =>
      change f.Outcome call.zone call.function args (raw.cast call.zone f.resultKind)
      obtain ⟨hkind, hraw, hcast⟩ | ⟨v, hv⟩ := Value.cast_cases call.zone f.resultKind raw
      · rw [hcast]
        exact .withheld hcasts hrun hkind hraw
      · rw [Value.castsTo_iff.1 hv]
        exact .given hcasts hrun hv
  · rw [run_of_lt_length hmany]
    exact .tooMany hmany

end HostFunction

end FormExpr
