/-!
# Kinds of values
-/

namespace FormExpr

inductive Kind where
  | boolean
  | number
  | string
  | date
  | nodeSet
deriving DecidableEq, Repr

def Kind.tag : Kind → String
  | boolean => "bool"
  | number => "num"
  | string => "str"
  | date => "date"
  | nodeSet => "arr"

end FormExpr
