import FormExpr.Library.NodeSet
import FormExpr.Library.Text

/-!
# Sums, extremes and checklists

A checklist asks whether the number of true arguments lies between two bounds, a weighted checklist
whether the sum of their weights does. A negative bound is no bound.
-/

namespace FormExpr.Library

variable {F : Forest}

/-- The sum of the numbers of the members; that of no members is negative zero. -/
def sum (call : Call F) (v : Value F) : Result F := do
  let nodes ← members call v
  return .number ((nodes.map (·.toNumber call.zone)).foldl (· + ·) (-0.0))

def extreme (beats : Float → Float → Bool) (xs : List Float) : Float :=
  match xs with
  | [] => Binary64.nan
  | x :: rest =>
    if xs.any Float.isNaN then Binary64.nan
    else rest.foldl (fun best candidate => if beats candidate best then candidate else best) x

def numbers (call : Call F) (args : List (Value F)) : List Float :=
  (Value.spread args).map (·.toNumber call.zone)

def extremum (beats : Float → Float → Bool) : Function F :=
  .counting (.variadic 1 fun call args => .ok (.number (extreme beats (numbers call args)))) id

def withinBounds (least most total : Float) : Bool :=
  (least < 0 || total ≥ least) && (most < 0 || total ≤ most)

/-- A node set counts its members with more than blanks, any other value counts when it is true. -/
def checked : Value F → Nat
  | .nodeSet nodes => nodes.countP Node.holds
  | v => if v.toBool then 1 else 0

def checklist (call : Call F) (least most : Value F) (args : List (Value F)) : Result F :=
  let total := Float.ofNat ((args.map checked).foldr (· + ·) 0)
  .ok (.boolean (withinBounds (least.toNumber call.zone) (most.toNumber call.zone) total))

/-- The weights that a pair adds in turn; two node sets are paired member by member. -/
def weights (z : Zone) : Value F → Value F → List Float
  | .nodeSet values, .nodeSet weights =>
    ((values.zip weights).filter fun (value, _) => value.holds).map fun (_, weight) =>
      weight.toNumber z
  | value, weight => if value.toBool then [weight.toNumber z] else []

def allWeights? (z : Zone) : List (Value F) → Option (List Float)
  | [] => some []
  | [_] => none
  | value :: weight :: rest => (allWeights? z rest).map (weights z value weight ++ ·)

def weightedChecklist (call : Call F) (least most : Value F) (args : List (Value F)) : Result F :=
  match allWeights? call.zone args with
  | none => .error (.tooFewArguments call.function)
  | some weights =>
    let total := weights.foldl (· + ·) 0.0
    .ok (.boolean (withinBounds (least.toNumber call.zone) (most.toNumber call.zone) total))

/-- The weights of the true values. Of two node sets the texts are weighed, which have no clocks. -/
def trueWeights : List (Value F) → List (Value F)
  | value :: weight :: rest => if value.toBool then weight :: trueWeights rest else trueWeights rest
  | _ => []

def countedWeights : List (Value F) → List (Value F)
  | least :: most :: rest => if rest.length % 2 = 0 then least :: most :: trueWeights rest else []
  | _ => []

def aggregate : List (String × Function F) :=
  [("sum", .unary sum),
    ("max", extremum (· > ·)),
    ("min", extremum (· < ·)),
    ("checklist", .counting (.variadicFrom2 checklist) (List.take 2)),
    ("weighted-checklist", .counting (.variadicFrom2 weightedChecklist) countedWeights)]

end FormExpr.Library
