import FormExpr.Proofs.Function.Shape
import FormExpr.Proofs.Host.Cast

/-!
# Adding functions to an evaluator

An attempt to add a function appends one entry to the table or changes nothing. So after any
attempts the table holds the built-in functions and those accepted since, every name means what it
meant when it was accepted, and the names that are taken decide the next attempt.
-/

namespace FormExpr

variable {F : Forest}

/-! ### Tables -/

namespace Registry

theorem contains_iff {r : Registry F} {name : String} :
    r.contains name = true ↔ name ∈ r.names :=
  lookup_isSome_iff

theorem insert_of_notMem {r : Registry F} {name : String} (hname : name ∉ r.names)
    (f : Function F) : r.insert name f = ⟨r.entries ++ [(name, f)]⟩ := by
  rw [insert, if_neg (mt contains_iff.1 hname)]

/-- A new entry at the end leaves the meaning of the names before it. -/
theorem find?_append_of_some {r : Registry F} {name : String} {f : Function F}
    (hfind : r.find? name = some f) (entries : List (String × Function F)) :
    (Registry.mk (r.entries ++ entries)).find? name = some f := by
  rw [find?] at hfind
  rw [find?, List.lookup_append, hfind, Option.some_or]

theorem find?_append_of_notMem {r : Registry F} {name : String} (hname : name ∉ r.names)
    (f : Function F) : (Registry.mk (r.entries ++ [(name, f)])).find? name = some f := by
  have hnone : r.entries.lookup name = none := by
    rw [← Option.not_isSome_iff_eq_none]
    exact mt contains_iff.1 hname
  rw [find?, List.lookup_append, hnone, Option.none_or]
  exact List.lookup_cons_self

theorem call_eq_of_find?_eq {r r' : Registry F} {name : String} (h : r.find? name = r'.find? name)
    (context : Context F) (environment : Environment) (args : List (Value F)) :
    r.call name context environment args = r'.call name context environment args := by
  rw [call, call, resolve, resolve, h]

section AddHost

variable {r : Registry F} {name : String} {f : HostFunction F}

/-- A name that is taken is refused before the kinds are looked at. -/
theorem addHost_of_mem (hname : name ∈ r.names) :
    r.addHost name f = .error (.functionExists name) := by
  rw [addHost, if_pos (contains_iff.2 hname)]

/-- Of the kinds that are not accepted the first one is reported. -/
theorem addHost_of_find?_eq_some (hname : name ∉ r.names) {kind : Kind}
    (hfind : f.argKinds.find? (fun kind => ¬ HostFunction.Accepts kind) = some kind) :
    r.addHost name f = .error (.unsupportedArgument name kind) := by
  rw [addHost, if_neg (mt contains_iff.1 hname), hfind]

theorem addHost_of_find?_eq_none (hname : name ∉ r.names)
    (hfind : f.argKinds.find? (fun kind => ¬ HostFunction.Accepts kind) = none) :
    r.addHost name f = .ok ⟨r.entries ++ [(name, f.toFunction)]⟩ := by
  rw [addHost, if_neg (mt contains_iff.1 hname), hfind, insert_of_notMem hname]

end AddHost

end Registry

/-! ### One attempt -/

theorem HostFunction.not_accepts_iff {kind : Kind} :
    ¬ Accepts kind ↔ kind = .date ∨ kind = .nodeSet := by
  cases kind <;> decide

/-- The table passes any arguments on; the function counts them itself. -/
theorem HostFunction.toFunction_takes (f : HostFunction F) (args : List (Value F)) :
    f.toFunction.Takes args :=
  ⟨Nat.zero_le _, fun _ hmost => nomatch hmost⟩

structure Registration (F : Forest) where
  name : String
  function : HostFunction F

namespace Registration

def entry (a : Registration F) : String × Function F :=
  (a.name, a.function.toFunction)

def HasUnsupportedKind (a : Registration F) : Prop :=
  ∃ kind ∈ a.function.argKinds, kind = .date ∨ kind = .nodeSet

theorem accepts_of_not_hasUnsupportedKind {a : Registration F} (h : ¬ a.HasUnsupportedKind) :
    ∀ kind ∈ a.function.argKinds, HostFunction.Accepts kind := by
  intro kind hmem
  by_contra hkind
  exact h ⟨kind, hmem, HostFunction.not_accepts_iff.1 hkind⟩

end Registration

namespace Evaluator

/-- What becomes of an attempt, by its name and the kinds of its arguments. -/
theorem add_cases (e : Evaluator F) (a : Registration F) :
    (a.name ∈ e.registry.names ∧ e.add a.name a.function = .error (.functionExists a.name)) ∨
    (a.name ∉ e.registry.names ∧ a.HasUnsupportedKind ∧
      ∃ kind, e.add a.name a.function = .error (.unsupportedArgument a.name kind)) ∨
    (a.name ∉ e.registry.names ∧ ¬ a.HasUnsupportedKind ∧
      e.add a.name a.function = .ok { e with registry := ⟨e.registry.entries ++ [a.entry]⟩ }) := by
  by_cases htaken : a.name ∈ e.registry.names
  · refine Or.inl ⟨htaken, ?_⟩
    rw [add, Registry.addHost_of_mem htaken]
    rfl
  refine Or.inr ?_
  cases hfind : a.function.argKinds.find? fun kind => ¬ HostFunction.Accepts kind with
  | some kind =>
    have hkind := List.find?_some hfind
    rw [decide_eq_true_eq, HostFunction.not_accepts_iff] at hkind
    refine Or.inl ⟨htaken, ⟨kind, List.mem_of_find?_eq_some hfind, hkind⟩, kind, ?_⟩
    rw [add, Registry.addHost_of_find?_eq_some htaken hfind]
    rfl
  | none =>
    refine Or.inr ⟨htaken, ?_, ?_⟩
    · rintro ⟨kind, hmem, hkind⟩
      have haccepts := List.find?_eq_none.1 hfind kind hmem
      rw [decide_eq_true_eq, HostFunction.not_accepts_iff] at haccepts
      exact haccepts hkind
    · rw [add, Registry.addHost_of_find?_eq_none htaken hfind]
      rfl

/-! ### Many attempts -/

def attempt (e : Evaluator F) (a : Registration F) : Evaluator F :=
  match e.add a.name a.function with
  | .ok e' => e'
  | .error _ => e

def attempts (e : Evaluator F) (as : List (Registration F)) : Evaluator F :=
  as.foldl attempt e

/-- The attempts that are accepted, each by the evaluator that those before it leave. -/
def accepted : Evaluator F → List (Registration F) → List (Registration F)
  | _, [] => []
  | e, a :: as =>
    match e.add a.name a.function with
    | .ok e' => a :: accepted e' as
    | .error _ => accepted e as

theorem attempts_cons (e : Evaluator F) (a : Registration F) (as : List (Registration F)) :
    e.attempts (a :: as) = (e.attempt a).attempts as := rfl

/-- An attempt either is accepted, and its entry comes last, or changes nothing. -/
theorem attempt_cases (e : Evaluator F) (a : Registration F) :
    (a.name ∉ e.registry.names ∧ ¬ a.HasUnsupportedKind ∧
      e.attempt a = { e with registry := ⟨e.registry.entries ++ [a.entry]⟩ } ∧
      ∀ as, e.accepted (a :: as) = a :: (e.attempt a).accepted as) ∨
    (e.attempt a = e ∧ ∀ as, e.accepted (a :: as) = (e.attempt a).accepted as) := by
  simp only [attempt, accepted]
  obtain ⟨-, hadd⟩ | ⟨-, -, kind, hadd⟩ | ⟨hname, hkinds, hadd⟩ := e.add_cases a
  · exact Or.inr (by simp [hadd])
  · exact Or.inr (by simp [hadd])
  · exact Or.inl (by simp [hadd, hname, hkinds])

/-- The accepted functions are added behind the others, in the order of the attempts. -/
theorem entries_attempts (e : Evaluator F) (as : List (Registration F)) :
    (e.attempts as).registry.entries =
      e.registry.entries ++ (e.accepted as).map Registration.entry := by
  induction as generalizing e with
  | nil => exact (List.append_nil _).symm
  | cons a as ih =>
    rw [attempts_cons, ih]
    obtain ⟨-, -, hattempt, haccepted⟩ | ⟨hattempt, haccepted⟩ := e.attempt_cases a
    · rw [haccepted, hattempt, List.map_cons, List.append_assoc, List.singleton_append]
    · rw [haccepted, hattempt]

theorem environment_attempts (e : Evaluator F) (as : List (Registration F)) :
    (e.attempts as).environment = e.environment := by
  induction as generalizing e with
  | nil => rfl
  | cons a as ih =>
    rw [attempts_cons, ih]
    obtain ⟨-, -, hattempt, -⟩ | ⟨hattempt, -⟩ := e.attempt_cases a
    · rw [hattempt]
    · rw [hattempt]

theorem find?_attempt_of_some {e : Evaluator F} {name : String} {f : Function F}
    (hfind : e.registry.find? name = some f) (a : Registration F) :
    (e.attempt a).registry.find? name = some f := by
  obtain ⟨-, -, hattempt, -⟩ | ⟨hattempt, -⟩ := e.attempt_cases a
  · rw [hattempt]
    exact Registry.find?_append_of_some hfind _
  · rwa [hattempt]

/-- No attempt changes what a name is bound to. -/
theorem find?_attempts_of_some {e : Evaluator F} {name : String} {f : Function F}
    (hfind : e.registry.find? name = some f) (as : List (Registration F)) :
    (e.attempts as).registry.find? name = some f := by
  induction as generalizing e with
  | nil => exact hfind
  | cons a as ih => exact ih (find?_attempt_of_some hfind a)

theorem find?_attempts_of_mem_accepted {e : Evaluator F} {a : Registration F}
    {as : List (Registration F)} (ha : a ∈ e.accepted as) :
    (e.attempts as).registry.find? a.name = some a.function.toFunction ∧
      ¬ a.HasUnsupportedKind := by
  induction as generalizing e with
  | nil => cases ha
  | cons other as ih =>
    rw [attempts_cons]
    obtain ⟨hname, hkinds, hattempt, haccepted⟩ | ⟨-, haccepted⟩ := e.attempt_cases other
    · rw [haccepted] at ha
      rcases List.mem_cons.1 ha with rfl | hrest
      · refine ⟨find?_attempts_of_some ?_ as, hkinds⟩
        rw [hattempt]
        exact Registry.find?_append_of_notMem hname _
      · exact ih hrest
    · rw [haccepted] at ha
      exact ih ha

/-- Under a name that stands for a host function the calls come to its outcomes. -/
theorem outcome_call_of_find? {e : Evaluator F} {a : Registration F}
    (hfind : e.registry.find? a.name = some a.function.toFunction)
    (hkinds : ¬ a.HasUnsupportedKind) (context : Context F) (args : List (Value F)) :
    a.function.Outcome e.environment.zone a.name args (e.call a.name context args) := by
  rw [call, Function.call_of_find? hfind,
    Function.apply_of_takes (a.function.toFunction_takes args)]
  exact HostFunction.outcome_run (Registration.accepts_of_not_hasUnsupportedKind hkinds)
    ⟨a.name, context, e.environment⟩ args

/-- A name that had a meaning before the attempts is called with the same answer after them. -/
theorem call_attempts_of_mem {e : Evaluator F} {name : String} (hname : name ∈ e.registry.names)
    (as : List (Registration F)) (context : Context F) (args : List (Value F)) :
    (e.attempts as).call name context args = e.call name context args := by
  obtain ⟨f, hfind⟩ := Option.isSome_iff_exists.1 (Registry.contains_iff.2 hname)
  rw [call, call, environment_attempts]
  exact Registry.call_eq_of_find?_eq ((find?_attempts_of_some hfind as).trans hfind.symm) _ _ _

/-! ### From the built-in functions -/

def Taken (accepted : List (Registration F)) (name : String) : Prop :=
  name ∈ (Registry.builtin : Registry F).names ∨ ∃ a ∈ accepted, a.name = name

/-- The names are those of built-in and of accepted functions. -/
theorem mem_names_attempts_standard {environment : Environment} {as : List (Registration F)}
    {name : String} :
    name ∈ ((standard environment).attempts as).registry.names ↔
      Taken ((standard environment).accepted as) name := by
  have hnames : ((standard environment).attempts as).registry.names =
      (Registry.builtin : Registry F).names ++
        ((standard environment).accepted as).map Registration.name := by
    rw [Registry.names, entries_attempts, List.map_append, List.map_map]
    rfl
  rw [hnames, List.mem_append, List.mem_map, Taken]

/-- After any attempts the table is made of the built-in and the accepted functions, and the taken
names decide the next attempt. Whatever is offered later, the calls of an accepted name come to the
outcomes of the function that was accepted under it, and those of a built-in name answer as from the
start. -/
theorem attempts_standard (environment : Environment) (before after : List (Registration F)) :
    let start : Evaluator F := standard environment
    let e := start.attempts before
    let taken := Taken (start.accepted before)
    e.registry.entries =
      (Registry.builtin : Registry F).entries ++ (start.accepted before).map Registration.entry ∧
    e.registry.size = (Registry.builtin : Registry F).size + (start.accepted before).length ∧
    (∀ a : Registration F,
      (e.add a.name a.function = .error (.functionExists a.name) ↔ taken a.name) ∧
      ((∃ kind, e.add a.name a.function = .error (.unsupportedArgument a.name kind)) ↔
        ¬ taken a.name ∧ a.HasUnsupportedKind) ∧
      ((∃ e', e.add a.name a.function = .ok e') ↔ ¬ taken a.name ∧ ¬ a.HasUnsupportedKind)) ∧
    (∀ a ∈ start.accepted before,
      (e.attempts after).registry.find? a.name = some a.function.toFunction ∧
      ∀ context args, a.function.Outcome environment.zone a.name args
        ((e.attempts after).call a.name context args)) ∧
    ∀ name ∈ (Registry.builtin : Registry F).names, ∀ context args,
      e.call name context args = start.call name context args := by
  intro start e taken
  refine ⟨start.entries_attempts before, ?_, ?_, ?_, ?_⟩
  · rw [Registry.size, start.entries_attempts before, List.length_append, List.length_map]
    rfl
  · intro a
    have htaken : a.name ∈ e.registry.names ↔ taken a.name := mem_names_attempts_standard
    rw [← htaken]
    obtain ⟨hname, hadd⟩ | ⟨hname, hkind, kind, hadd⟩ | ⟨hname, hkind, hadd⟩ := e.add_cases a
    · simp [hadd, hname]
    · simp [hadd, hname, hkind]
    · simp [hadd, hname, hkind]
  · intro a ha
    obtain ⟨hfind, hkinds⟩ := find?_attempts_of_mem_accepted ha
    have hafter := find?_attempts_of_some hfind after
    have hzone : (e.attempts after).environment = environment := by
      rw [environment_attempts, environment_attempts]
      rfl
    refine ⟨hafter, fun context args => ?_⟩
    rw [← hzone]
    exact outcome_call_of_find? hafter hkinds context args
  · intro name hname context args
    exact call_attempts_of_mem hname before context args

/-- A second function offered under a name is rejected, and so is one under a built-in name. -/
theorem attempts_standard_twice :
    let start : Evaluator ⟨[]⟩ := standard (.standard .summerTime ⟨0, 0, 3600⟩ fun _ => 0)
    let echo : HostFunction ⟨[]⟩ := ⟨[.string], .string, fun args => .ok (args.headD (.string ""))⟩
    let silent : HostFunction ⟨[]⟩ := ⟨[.number], .string, fun _ => .ok (.string "")⟩
    let before : List (Registration ⟨[]⟩) := [⟨"shout", echo⟩, ⟨"floor", silent⟩]
    let after : List (Registration ⟨[]⟩) := [⟨"shout", silent⟩]
    let e := start.attempts before
    start.accepted before = [⟨"shout", echo⟩] ∧ "floor" ∈ (Registry.builtin : Registry ⟨[]⟩).names ∧
    e.add "shout" silent = .error (.functionExists "shout") ∧
    (e.attempts after).registry.find? "shout" = some echo.toFunction ∧
    echo.Outcome .summerTime "shout" [.boolean false]
      ((e.attempts after).call "shout" ⟨none, 1, 1⟩ [.boolean false]) ∧
    ∀ context args, e.call "floor" context args = start.call "floor" context args := by
  intro start echo silent before after e
  have haccepted : start.accepted before = [⟨"shout", echo⟩] := rfl
  have hfloor : "floor" ∈ (Registry.builtin : Registry ⟨[]⟩).names := by decide
  have hmem : (⟨"shout", echo⟩ : Registration ⟨[]⟩) ∈ start.accepted before := by simp [haccepted]
  obtain ⟨-, -, hnext, hbound, hbuiltin⟩ :=
    attempts_standard (.standard .summerTime ⟨0, 0, 3600⟩ fun _ => 0) before after
  have hsecond := (hnext ⟨"shout", silent⟩).1.2 (Or.inr ⟨_, hmem, rfl⟩)
  exact ⟨haccepted, hfloor, hsecond, (hbound _ hmem).1, (hbound _ hmem).2 _ _,
    hbuiltin "floor" hfloor⟩

end Evaluator

end FormExpr
