import FormExpr.Library.Aggregate
import FormExpr.Library.Arithmetic
import FormExpr.Library.Chance
import FormExpr.Library.Coding
import FormExpr.Library.Dates
import FormExpr.Library.Logic
import FormExpr.Library.Selection

/-!
# The built-in functions
-/

namespace FormExpr

variable {F : Forest}

def Registry.builtin : Registry F :=
  ⟨Library.logic ++ Library.arithmetic ++ Library.text ++ Library.nodeSet ++ Library.aggregate ++
    Library.dates ++ Library.selection ++ Library.chance ++ Library.coding⟩

end FormExpr
