import FormExpr.Library.NodeSet
import FormExpr.Random.Shuffle
import FormExpr.Random.Token

/-!
# Random values

Without a seed they are taken from the random words of the environment.
-/

namespace FormExpr.Library

variable {F : Forest}

def random (call : Call F) : Result F :=
  .ok (.number (Random.unit (call.environment.randomWords 0)))

/-- The longest token that is given out; a longer one is left empty. -/
def maxTokenLength : Nat := 1024

def uuid (call : Call F) (length : Option (Value F)) : Result F :=
  .ok <| .ofChars <| match length with
    | none => Random.uuid call.environment.randomWords
    | some length =>
      let length := length.toNumber call.zone
      if length > 0 && length ≤ Float.ofNat maxTokenLength then
        Random.token call.environment.randomWords (Binary64.toIndex length)
      else []

def seed (call : Call F) (v : Value F) : Except Error Float :=
  let x := v.toNumber call.zone
  if x.isFinite && Binary64.isIntegral x then .ok x
  else .error (.seedNotInteger call.function v.toText)

def randomize (call : Call F) (v : Value F) (seedValue : Option (Value F)) : Result F := do
  let nodes ← members call v
  match seedValue with
  | some seedValue =>
    let seed ← seed call seedValue
    return .nodeSet (Shuffle.seeded seed (Node.sort nodes))
  | none =>
    let draws := (List.range (nodes.length - 1)).map fun i =>
      Random.unit (call.environment.randomWords i)
    return .nodeSet (Shuffle.shuffle draws (Node.sort nodes))

def countedSeed : List (Value F) → List (Value F)
  | .nodeSet _ :: seed => seed
  | _ => []

def chance : List (String × Function F) :=
  [("random", .nullary random),
    ("uuid", .counting (.optional uuid) id),
    ("randomize", .counting (.unaryOptional randomize) countedSeed)]

end FormExpr.Library
