import FormExpr.Pattern.Reader

/-!
# Pattern engines

Patterns are read and matched by an engine. Nothing is fixed about it here: it reads some texts as
patterns, and what it has read it looks for in a text, unless it gives up. `Engine.standard` is one
that runs; it knows the common syntax and only some of the named properties of characters.
-/

namespace FormExpr.Pattern

structure Engine where
  /-- Reads a pattern. The search says whether a text has a match, or nothing if it gives up. -/
  read? : List Char → Option (List Char → Option Bool)

def framed (pattern : List Char) : List Char :=
  ['^', '(', '?', ':'] ++ pattern ++ [')', '$']

namespace Engine

def matchesWhole? (engine : Engine) (pattern s : List Char) : Option Bool :=
  (engine.read? (framed pattern)).bind fun search => search s

def standard : Engine :=
  ⟨fun pattern => (Expr.ofText? pattern).map fun e s => some (e.occursIn s)⟩

end Engine

end FormExpr.Pattern
