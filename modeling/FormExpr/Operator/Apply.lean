import FormExpr.Operator.Basic
import FormExpr.Value.Basic

/-!
# Applying operators

The rules of XPath 1.0, with dates beside numbers. A comparison that involves a node set holds when
it holds for some member, except against a boolean, where the node set counts as a boolean.
-/

namespace FormExpr

namespace Comparison

def numbers : Comparison → Float → Float → Bool
  | eq, x, y => x == y
  | ne, x, y => x != y
  | lt, x, y => x < y
  | le, x, y => x ≤ y
  | gt, x, y => x > y
  | ge, x, y => x ≥ y

def equality (c : Comparison) (equal : Bool) (otherwise : Bool) : Bool :=
  match c with
  | eq => equal
  | ne => !equal
  | _ => otherwise

variable {F : Forest}

/-- Compares two values of which none is a node set. Equality goes by booleans if either side is
one, else by numbers if either side is a number or a date, else by texts; order always goes by
numbers. -/
def scalars (c : Comparison) (z : Zone) (l r : Value F) : Bool :=
  let numeric := numbers c (l.toNumber z) (r.toNumber z)
  if l.kind = .boolean ∨ r.kind = .boolean then
    equality c (l.toBool == r.toBool) numeric
  else if l.kind = .number ∨ l.kind = .date ∨ r.kind = .number ∨ r.kind = .date then numeric
  else equality c (l.toText == r.toText) numeric

def values (c : Comparison) (z : Zone) (l r : Value F) : Bool :=
  match l, r with
  | .nodeSet _, .boolean _ => scalars (F := F) c z (.boolean l.toBool) (.boolean r.toBool)
  | .boolean _, .nodeSet _ => scalars (F := F) c z (.boolean l.toBool) (.boolean r.toBool)
  | _, _ => l.parts.any fun a => r.parts.any fun b => scalars c z a b

/-- The clocks whose days a comparison looks up: none when only truth counts or a node set is empty.
-/
def reads (c : Comparison) (l r : Value F) : List ZonedTime :=
  if (c = .eq ∨ c = .ne) ∧ (l.kind = .boolean ∨ r.kind = .boolean) then []
  else if l.parts.isEmpty || r.parts.isEmpty then []
  else l.clocks ++ r.clocks

end Comparison

def Arithmetic.numbers : Arithmetic → Float → Float → Float
  | plus, x, y => x + y
  | minus, x, y => x - y
  | times, x, y => x * y
  | div, x, y => x / y
  | mod, x, y => Binary64.remainder x y

namespace Operator

variable {F : Forest}

def apply (z : Zone) (l : Value F) (op : Operator) (r : Value F) : Except Error (Value F) :=
  match op with
  | or => .ok (.boolean (l.toBool || r.toBool))
  | and => .ok (.boolean (l.toBool && r.toBool))
  | compare c => .ok (.boolean (c.values z l r))
  | arith a => .ok (.number (a.numbers (l.toNumber z) (r.toNumber z)))
  | union =>
    match l, r with
    | .nodeSet a, .nodeSet b => .ok (.nodeSet (Node.union a b))
    | _, _ => .error (.unionOperands l.kind r.kind)

def reads (l : Value F) (op : Operator) (r : Value F) : List ZonedTime :=
  match op with
  | compare c => c.reads l r
  | arith _ => l.clocks ++ r.clocks
  | or | and | union => []

end Operator

end FormExpr
