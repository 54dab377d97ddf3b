import FormExpr.Library.Builtin
import FormExpr.Operator.DateRule

/-!
# The evaluator as a host sees it

A host calls functions by name, applies operators, adds functions of its own, and takes results in
the kind it asks for. A host function declares the kinds of its arguments and of its result; values
are cast to them on the way in and out.
-/

namespace FormExpr

variable {F : Forest}

structure HostFunction (F : Forest) where
  argKinds : List Kind
  resultKind : Kind
  run : List (Value F) → Result F

namespace HostFunction

def Accepts (kind : Kind) : Prop :=
  kind = .boolean ∨ kind = .number ∨ kind = .string

instance (kind : Kind) : Decidable (Accepts kind) :=
  inferInstanceAs (Decidable (_ ∨ _))

def castArgs (z : Zone) : List (Value F) → List Kind → Except Error (List (Value F))
  | v :: args, kind :: kinds => do return (← v.cast z kind) :: (← castArgs z args kinds)
  | _, _ => .ok []

def castReads (f : HostFunction F) (z : Zone) (args : List (Value F)) : List ZonedTime :=
  if args.length = f.argKinds.length then
    let ofArgs := (args.zip f.argKinds).flatMap fun (v, kind) => v.castClocks kind
    match castArgs z args f.argKinds >>= f.run with
    | .ok v => ofArgs ++ v.castClocks f.resultKind
    | .error _ => ofArgs
  else []

def toFunction (f : HostFunction F) : Function F :=
  { minArgs := 0
    maxArgs := none
    run := fun call args => do
      if args.length < f.argKinds.length then throw (.tooFewArguments call.function)
      if f.argKinds.length < args.length then throw (.tooManyArguments call.function)
      (← f.run (← castArgs call.zone args f.argKinds)).cast call.zone f.resultKind
    reads := fun call args => f.castReads call.zone args }

end HostFunction

namespace Registry

def addHost (r : Registry F) (name : String) (f : HostFunction F) : Except Error (Registry F) :=
  if r.contains name then .error (.functionExists name)
  else match f.argKinds.find? fun kind => ¬ HostFunction.Accepts kind with
    | some kind => .error (.unsupportedArgument name kind)
    | none => .ok (r.insert name f.toFunction)

end Registry

inductive ResultKind where
  | any
  | number
  | string
  | boolean
  | nodeSet
deriving DecidableEq, Repr

/-- The value in the shape that the host asked for; a date leaves as a boolean, a day count or its
full text. -/
def Value.deliver (z : Zone) (v : Value F) : ResultKind → Result F
  | .any => match v with
    | date m => .ok (.ofChars m.fullText)
    | v => .ok v
  | .number => .ok (.number (v.toNumber z))
  | .string => match v with
    | date m => .ok (.ofChars m.fullText)
    | v => .ok (.string v.toText)
  | .boolean => .ok (.boolean v.toBool)
  | .nodeSet => match v with
    | nodeSet nodes => .ok (.nodeSet nodes)
    | v => .error (.noNodeSetResult v.kind)

structure Evaluator (F : Forest) where
  registry : Registry F
  environment : Environment
  rule : OperandRule F
  ruleReads : Value F → Operator → Value F → List ZonedTime := fun _ _ _ => []

namespace Evaluator

def standard (environment : Environment) : Evaluator F :=
  { registry := .builtin
    environment
    rule := Operator.dateRule environment.zone
    ruleReads := Operator.dateRuleReads environment.zone }

def call (e : Evaluator F) (name : String) (context : Context F) (args : List (Value F)) :
    Result F :=
  e.registry.call name context e.environment args

def perform (e : Evaluator F) (name : String) (context : Context F) (args : List (Value F)) :
    Option (Result F) :=
  e.registry.perform name context e.environment args

def evaluate (e : Evaluator F) (l : Value F) (op : Operator) (r : Value F) : Result F :=
  Operator.evaluate e.rule e.environment.zone l op r

def performOperator (e : Evaluator F) (l : Value F) (op : Operator) (r : Value F) :
    Option (Result F) :=
  Operator.perform e.rule e.ruleReads e.environment.zone l op r

def add (e : Evaluator F) (name : String) (f : HostFunction F) : Except Error (Evaluator F) := do
  return { e with registry := ← e.registry.addHost name f }

def deliver (e : Evaluator F) (v : Value F) (kind : ResultKind) : Result F :=
  v.deliver e.environment.zone kind

def performDelivery (e : Evaluator F) (v : Value F) (kind : ResultKind) : Option (Result F) :=
  if kind = .number ∧ v.clocks.any (¬ ·.OnCalendar) then none else some (e.deliver v kind)

end Evaluator

end FormExpr
