import FormExpr.Digest.Algorithm
import FormExpr.Pattern.Engine
import FormExpr.Value.Basic

/-!
# Functions and their table

A function has a range for the number of its arguments. A call looks the function up by name, checks
the number of arguments, and only then runs it. A run that comes upon a clock that has left the
calendar breaks off, without a value and without an error.
-/

namespace FormExpr

abbrev Result (F : Forest) := Except Error (Value F)

structure Environment where
  zone : Zone
  clock : ZonedTime
  /-- An unlimited supply of random words. -/
  randomWords : Nat → UInt64
  digester : Digest.Digester
  patterns : Pattern.Engine

def Environment.standard (zone : Zone) (clock : ZonedTime) (randomWords : Nat → UInt64) :
    Environment :=
  { zone, clock, randomWords, digester := .standard, patterns := .standard }

def Environment.now (e : Environment) : ZonedTime :=
  e.zone.toLocal e.clock

structure Context (F : Forest) where
  node : Option (Node F)
  position : Nat
  size : Nat

structure Call (F : Forest) where
  function : String
  context : Context F
  environment : Environment

namespace Call

variable {F : Forest}

def zone (call : Call F) : Zone :=
  call.environment.zone

def contextText (call : Call F) : String :=
  (call.context.node.map Node.stringValue).getD ""

end Call

structure Function (F : Forest) where
  minArgs : Nat
  maxArgs : Option Nat
  run : Call F → List (Value F) → Result F
  /-- The clocks whose day and time of day on the wall a run looks up. -/
  reads : Call F → List (Value F) → List ZonedTime := fun _ _ => []

namespace Function

variable {F : Forest}

def apply (f : Function F) (call : Call F) (args : List (Value F)) : Result F :=
  if args.length < f.minArgs then .error (.tooFewArguments call.function)
  else if f.maxArgs.any (· < args.length) then .error (.tooManyArguments call.function)
  else f.run call args

/-- What comes of a call: the answer, or nothing when the run breaks off at a clock that it reads.
-/
def perform (f : Function F) (call : Call F) (args : List (Value F)) : Option (Result F) :=
  let runs := f.minArgs ≤ args.length && !f.maxArgs.any (· < args.length)
  if runs && (f.reads call args).any (¬ ·.OnCalendar) then none else some (f.apply call args)

def counting (f : Function F) (counted : List (Value F) → List (Value F)) : Function F :=
  { f with reads := fun _ args => (counted args).flatMap Value.clocks }

def dated (f : Function F) : Function F :=
  { f with reads := fun call _ => [call.environment.now] }

/-- The answer to a list of arguments that `apply` never passes on. -/
def unmatched (call : Call F) : Result F :=
  .error (.tooFewArguments call.function)

def nullary (f : Call F → Result F) : Function F :=
  { minArgs := 0, maxArgs := some 0, run := fun call _ => f call }

def optional (f : Call F → Option (Value F) → Result F) : Function F :=
  { minArgs := 0, maxArgs := some 1, run := fun call args => f call args.head? }

def unary (f : Call F → Value F → Result F) : Function F :=
  { minArgs := 1
    maxArgs := some 1
    run := fun call args =>
      match args with
      | a :: _ => f call a
      | [] => unmatched call }

def unaryOptional (f : Call F → Value F → Option (Value F) → Result F) : Function F :=
  { minArgs := 1
    maxArgs := some 2
    run := fun call args =>
      match args with
      | a :: rest => f call a rest.head?
      | [] => unmatched call }

def binary (f : Call F → Value F → Value F → Result F) : Function F :=
  { minArgs := 2
    maxArgs := some 2
    run := fun call args =>
      match args with
      | a :: b :: _ => f call a b
      | _ => unmatched call }

def binaryOptional (f : Call F → Value F → Value F → Option (Value F) → Result F) : Function F :=
  { minArgs := 2
    maxArgs := some 3
    run := fun call args =>
      match args with
      | a :: b :: rest => f call a b rest.head?
      | _ => unmatched call }

def ternary (f : Call F → Value F → Value F → Value F → Result F) : Function F :=
  { minArgs := 3
    maxArgs := some 3
    run := fun call args =>
      match args with
      | a :: b :: c :: _ => f call a b c
      | _ => unmatched call }

def variadic (least : Nat) (f : Call F → List (Value F) → Result F) : Function F :=
  { minArgs := least, maxArgs := none, run := f }

def variadicFrom1 (f : Call F → Value F → List (Value F) → Result F) : Function F :=
  variadic 1 fun call args =>
    match args with
    | a :: rest => f call a rest
    | [] => unmatched call

def variadicFrom2 (f : Call F → Value F → Value F → List (Value F) → Result F) : Function F :=
  variadic 2 fun call args =>
    match args with
    | a :: b :: rest => f call a b rest
    | _ => unmatched call

end Function

structure Registry (F : Forest) where
  entries : List (String × Function F)

namespace Registry

variable {F : Forest}

def empty : Registry F := ⟨[]⟩

def find? (r : Registry F) (name : String) : Option (Function F) :=
  r.entries.lookup name

def contains (r : Registry F) (name : String) : Bool :=
  (r.find? name).isSome

def size (r : Registry F) : Nat :=
  r.entries.length

def names (r : Registry F) : List String :=
  r.entries.map Prod.fst

/-- A function under a name that is taken replaces the earlier one. -/
def insert (r : Registry F) (name : String) (f : Function F) : Registry F :=
  if r.contains name then
    ⟨r.entries.map fun (other, g) => if other = name then (name, f) else (other, g)⟩
  else ⟨r.entries ++ [(name, f)]⟩

def resolve (r : Registry F) (name : String) : Except Error (Function F) :=
  match r.find? name with
  | some f => .ok f
  | none => .error (.unknownFunction name)

def call (r : Registry F) (name : String) (context : Context F) (environment : Environment)
    (args : List (Value F)) : Result F := do
  let f ← r.resolve name
  f.apply { function := name, context, environment } args

/-- What comes of a call by name, which may break off. -/
def perform (r : Registry F) (name : String) (context : Context F) (environment : Environment)
    (args : List (Value F)) : Option (Result F) :=
  match r.resolve name with
  | .ok f => f.perform { function := name, context, environment } args
  | .error e => some (.error e)

end Registry

end FormExpr
