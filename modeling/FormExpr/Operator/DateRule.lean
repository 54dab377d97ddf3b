import FormExpr.Operator.Apply

/-!
# Dates among operands

Before an operator is applied a rule may step in: it gives the result itself, or other operands to
go on with, or nothing. The date rule reads dates and date texts as day counts, so that they compare
and add like numbers. It leaves booleans alone, and so the comparison of a date with a boolean.
-/

namespace FormExpr

inductive Intervention (F : Forest) where
  | result (v : Value F)
  | proceed (l : Value F) (op : Operator) (r : Value F)

abbrev OperandRule (F : Forest) :=
  Value F → Operator → Value F → Option (Intervention F)

variable {F : Forest}

namespace Value

def looksLikeDate : Value F → Bool
  | string s => isDateText (Text.trim s.toList)
  | nodeSet nodes => isDateText (Text.trim (Node.firstString nodes).toList)
  | _ => false

end Value

namespace Operator

def readsDateTexts (op : Operator) : Bool :=
  op.isAdditive || op.isComparison

def dateRule (z : Zone) : OperandRule F := fun l op r =>
  match op with
  | .or | .and | .union => none
  | _ =>
    if l.kind = .boolean ∨ r.kind = .boolean then none
    else
      let dates := l.kind = .date ∨ r.kind = .date
      let dateTexts := op.readsDateTexts && (l.looksLikeDate || r.looksLikeDate)
      let x := l.toNumber z
      let y := r.toNumber z
      if dateTexts then
        match op with
        | .arith a => some (.result (.number (a.numbers x y)))
        | _ => some (.proceed (.number x) op (.number y))
      else if dates then some (.proceed (.number x) op (.number y))
      else none

def dateRuleReads (z : Zone) (l : Value F) (op : Operator) (r : Value F) : List ZonedTime :=
  if (dateRule z l op r).isSome then l.clocks ++ r.clocks else []

def evaluate (rule : OperandRule F) (z : Zone) (l : Value F) (op : Operator) (r : Value F) :
    Except Error (Value F) :=
  match rule l op r with
  | some (.result v) => .ok v
  | some (.proceed l op r) => apply z l op r
  | none => apply z l op r

def remainingReads (rule : OperandRule F) (l : Value F) (op : Operator) (r : Value F) :
    List ZonedTime :=
  match rule l op r with
  | some (.result _) => []
  | some (.proceed l op r) => reads l op r
  | none => reads l op r

/-- What comes of an operator: its outcome, or nothing when the rule or the operator that it leaves
breaks off at a clock. -/
def perform (rule : OperandRule F) (ruleReads : Value F → Operator → Value F → List ZonedTime)
    (z : Zone) (l : Value F) (op : Operator) (r : Value F) :
    Option (Except Error (Value F)) :=
  if (ruleReads l op r ++ remainingReads rule l op r).any (¬ ·.OnCalendar) then none
  else some (evaluate rule z l op r)

end Operator

end FormExpr
