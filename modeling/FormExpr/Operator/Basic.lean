/-!
# Binary operators
-/

namespace FormExpr

inductive Comparison where
  | eq
  | ne
  | lt
  | le
  | gt
  | ge
deriving DecidableEq, Repr

inductive Arithmetic where
  | plus
  | minus
  | times
  | div
  | mod
deriving DecidableEq, Repr

inductive Operator where
  | or
  | and
  | compare (c : Comparison)
  | arith (a : Arithmetic)
  | union
deriving DecidableEq, Repr

namespace Operator

def all : List Operator :=
  [.or, .and, .compare .eq, .compare .ne, .compare .lt, .compare .le, .compare .gt, .compare .ge,
    .arith .plus, .arith .minus, .arith .times, .arith .div, .arith .mod, .union]

def symbol : Operator → String
  | or => "or"
  | and => "and"
  | compare .eq => "="
  | compare .ne => "!="
  | compare .lt => "<"
  | compare .le => "<="
  | compare .gt => ">"
  | compare .ge => ">="
  | arith .plus => "+"
  | arith .minus => "-"
  | arith .times => "*"
  | arith .div => "div"
  | arith .mod => "mod"
  | union => "|"

def ofSymbol? (s : String) : Option Operator :=
  all.find? (·.symbol == s)

def isComparison : Operator → Bool
  | compare _ => true
  | _ => false

def isAdditive : Operator → Bool
  | arith .plus => true
  | arith .minus => true
  | _ => false

end Operator

end FormExpr
