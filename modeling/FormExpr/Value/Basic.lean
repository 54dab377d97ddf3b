import FormExpr.Calendar.MomentText
import FormExpr.Tree.Order
import FormExpr.Value.Kind

/-!
# Values and their casts

A value is a boolean, a number, a text, a date, or a list of nodes. Every cast is total: what cannot
be read is not a number, an invalid date, or the empty text. A node set is read as the string value
of its first node in document order. The number of a date goes by its clock, and is counted on where
the clock has left the calendar; calls and operators that take such a number break off.
-/

namespace FormExpr

inductive Value (F : Forest) where
  | boolean (b : Bool)
  | number (x : Float)
  | string (s : String)
  | date (m : Moment)
  | nodeSet (nodes : List (Node F))

namespace Number

def ofText (z : Zone) (s : List Char) : Float :=
  let t := Text.trim s
  if isDateText t then (Moment.ofDateText z t).toDays else parse t

end Number

namespace Node

variable {F : Forest}

def holds (n : Node F) : Bool :=
  !(Text.trim n.stringValue.toList).isEmpty

def toNumber (z : Zone) (n : Node F) : Float :=
  Number.ofText z n.stringValue.toList

def firstString (nodes : List (Node F)) : String :=
  ((first? nodes).map stringValue).getD ""

end Node

namespace Value

variable {F : Forest}

def kind : Value F → Kind
  | boolean _ => .boolean
  | number _ => .number
  | string _ => .string
  | date _ => .date
  | nodeSet _ => .nodeSet

def nodes? : Value F → Option (List (Node F))
  | nodeSet nodes => some nodes
  | _ => none

def ofChars (s : List Char) : Value F :=
  .string (String.ofList s)

def toBool : Value F → Bool
  | boolean b => b
  | number x => x != 0 && !x.isNaN
  | string s => !s.isEmpty
  | date m => m.isValid
  | nodeSet nodes => !nodes.isEmpty

def toText : Value F → String
  | boolean b => if b then "true" else "false"
  | number x => Number.toText x
  | string s => s
  | date m => String.ofList m.text
  | nodeSet nodes => Node.firstString nodes

def toNumber (z : Zone) : Value F → Float
  | boolean b => if b then 1 else 0
  | number x => x
  | string s => Number.ofText z s.toList
  | date m => m.toDays
  | nodeSet nodes => Number.ofText z (Node.firstString nodes).toList

def clocks : Value F → List ZonedTime
  | date (.valid t) => [t]
  | _ => []

def toMoment (z : Zone) : Value F → Moment
  | boolean _ => .invalid
  | number x => Moment.ofDays z x
  | string s => Moment.ofText z s.toList
  | date m => m
  | nodeSet nodes => Moment.ofText z (Node.firstString nodes).toList

def cast (z : Zone) (kind : Kind) (v : Value F) : Except Error (Value F) :=
  match kind with
  | .boolean => .ok (.boolean v.toBool)
  | .number => .ok (.number (v.toNumber z))
  | .string => .ok (.string v.toText)
  | .date => .ok (.date (v.toMoment z))
  | .nodeSet =>
    match v with
    | nodeSet _ => .ok v
    | _ => .error (.notNodeSet v.kind)

def castClocks (kind : Kind) (v : Value F) : List ZonedTime :=
  if kind = .number then v.clocks else []

/-- Equality of values of one kind: numbers as numbers, dates as instants, node sets as lists. -/
def same : Value F → Value F → Bool
  | boolean a, boolean b => a == b
  | number x, number y => x == y
  | string s, string t => s == t
  | date m, date m' => m.same m'
  | nodeSet a, nodeSet b => a == b
  | _, _ => false

/-- The parts of a value: the members of a node set as texts, any other value by itself. -/
def parts : Value F → List (Value F)
  | nodeSet nodes => nodes.map fun n => .string n.stringValue
  | v => [v]

end Value

end FormExpr
