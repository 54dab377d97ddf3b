import FormExpr.Pattern.CharSet

/-!
# Patterns
-/

namespace FormExpr.Pattern

inductive Assertion where
  | textStart
  | textEnd
  /-- The end of the text, or a place before line breaks that end it. -/
  | textEndOrBreaks
  | lineStart
  | lineEnd
  | wordBoundary
  | noWordBoundary
  | wordStart
  | wordEnd
deriving DecidableEq, Repr

inductive Expr where
  | empty
  | char (s : CharSet)
  | assertion (a : Assertion)
  | seq (p q : Expr)
  | alt (p q : Expr)
  /-- What the inner pattern matches is kept under a number. -/
  | capture (group : Nat) (p : Expr)
  /-- The first way to match, and no other. -/
  | atomic (p : Expr)
  | repeated (p : Expr) (least : Nat) (most : Option Nat) (greedy : Bool)
  | lookAhead (negative : Bool) (p : Expr)
  | lookBehind (negative : Bool) (p : Expr)
  | backReference (group : Nat) (ignoreCase : Bool)
  | captured (group : Nat)
  | conditional (condition yes no : Expr)
deriving DecidableEq, Repr

namespace Expr

def isEmpty : Expr → Bool
  | empty => true
  | _ => false

def isRepeatable : Expr → Bool
  | empty | assertion _ | lookAhead _ _ | lookBehind _ _ => false
  | _ => true

def size? : Expr → Option Nat
  | empty | assertion _ | lookAhead _ _ | lookBehind _ _ | captured _ => some 0
  | char _ => some 1
  | seq p q => do return (← p.size?) + (← q.size?)
  | alt p q => do
    let m ← p.size?
    let n ← q.size?
    if m = n then some m else none
  | capture _ p | atomic p => p.size?
  | repeated p least most _ => do
    let n ← p.size?
    if most = some least then some (n * least) else none
  | backReference _ _ => none
  | conditional condition yes no => do
    let m := (← condition.size?) + (← yes.size?)
    let n ← no.size?
    if m = n then some m else none

def sizes? : Expr → Option (List Nat)
  | alt p q => do return (← p.sizes?) ++ (← q.sizes?)
  | p => p.size?.map ([·])

/-- Whether every look-behind has alternatives of a fixed size, and every range of a quantifier
ascends. -/
def isRegular : Expr → Bool
  | empty | char _ | assertion _ | backReference _ _ | captured _ => true
  | seq p q | alt p q => p.isRegular && q.isRegular
  | capture _ p | atomic p | lookAhead _ p => p.isRegular
  | repeated p least most _ => p.isRegular && most.all (least ≤ ·)
  | lookBehind _ p => p.isRegular && p.sizes?.isSome
  | conditional condition yes no => condition.isRegular && yes.isRegular && no.isRegular

def usesCaptures : Expr → Bool
  | empty | char _ | assertion _ => false
  | backReference _ _ | captured _ => true
  | seq p q | alt p q => p.usesCaptures || q.usesCaptures
  | capture _ p | atomic p | lookAhead _ p | lookBehind _ p | repeated p _ _ _ => p.usesCaptures
  | conditional condition yes no =>
    condition.usesCaptures || yes.usesCaptures || no.usesCaptures

end Expr

end FormExpr.Pattern
