import FormExpr.Pattern.Syntax

/-!
# Matching

A pattern takes a state, a place in the text and what the groups have matched, to the states in
which it can leave the text, the preferred ones first. A state that occurs again is dropped, so that
the number of ways to reach it does not count.
-/

namespace FormExpr.Pattern

structure State where
  position : Nat
  /-- The places where the last match of each group starts and ends. -/
  captures : List (Nat × Nat × Nat)
deriving DecidableEq, Repr

namespace State

def capture? (s : State) (group : Nat) : Option (Nat × Nat) :=
  s.captures.lookup group

def keep (s : State) (group start : Nat) : State :=
  { s with captures :=
      (group, start, s.position) :: s.captures.filter fun (other, _) => other != group }

end State

def dropRepeats (states : List State) : List State :=
  states.eraseDups

namespace Assertion

def isWordAt (text : Array Char) (i : Nat) : Bool :=
  text[i]?.any Unicode.isWordChar

def isWordBefore (text : Array Char) (i : Nat) : Bool :=
  0 < i && isWordAt text (i - 1)

def holds (text : Array Char) (i : Nat) : Assertion → Bool
  | textStart => i == 0
  | textEnd => i == text.size
  | textEndOrBreaks => (text.toList.drop i).all (· == '\n')
  | lineStart => i == 0 || text[i - 1]? == some '\n'
  | lineEnd => i == text.size || text[i]? == some '\n'
  | wordBoundary => isWordBefore text i != isWordAt text i
  | noWordBoundary => isWordBefore text i == isWordAt text i
  | wordStart => !isWordBefore text i && isWordAt text i
  | wordEnd => isWordBefore text i && !isWordAt text i

end Assertion

def byteLength (cs : List Char) : Nat :=
  (cs.map Char.utf8Size).foldr (· + ·) 0

def repeatsAt? (text : Array Char) (ignoreCase : Bool) (start stop i : Nat) : Option Nat :=
  let first := (text.extract start stop).toList
  let second := (text.extract i (i + (stop - start))).toList
  let same := if ignoreCase then
      first.map (Unicode.fold ·.toNat) == second.map (Unicode.fold ·.toNat) &&
        byteLength first == byteLength second
    else first == second
  if same then some (i + (stop - start)) else none

/-- The states that further rounds lead to, in the order of preference, after those found before.
`seen` holds the states tried before, with the rounds left at the time if their number is `limited`.
-/
def rounds (step : State → List State) (greedy limited : Bool) :
    Nat → List (Nat × State) × List State → State → List (Nat × State) × List State
  | 0, (seen, found), s => (seen, found ++ [s])
  | left + 1, (seen, found), s =>
    let key := (if limited then left else 0, s)
    if seen.contains key then (seen, found)
    else
      let found := if greedy then found else found ++ [s]
      let (seen, found) := (step s).foldl (rounds step greedy limited left) (key :: seen, found)
      (seen, if greedy then found ++ [s] else found)

/-- A round that does not count when it does not move on in the text. -/
def moving (step : State → List State) (s : State) : List State :=
  (step s).filter fun t => t.position != s.position

def exactly (step : State → List State) : Nat → List State → List State
  | 0, states => states
  | n + 1, states =>
    match states with
    | [] => []
    | _ => exactly step n (dropRepeats (states.flatMap step))

namespace Expr

/-- The states in which the pattern can leave the text, the preferred ones first. -/
def run (text : Array Char) : Expr → State → List State
  | empty, s => [s]
  | char set, s =>
    match text[s.position]? with
    | some c => if set.mem c then [{ s with position := s.position + 1 }] else []
    | none => []
  | assertion a, s => if a.holds text s.position then [s] else []
  | seq p q, s => dropRepeats ((p.run text s).flatMap (q.run text))
  | alt p q, s => dropRepeats (p.run text s ++ q.run text s)
  | capture group p, s => dropRepeats ((p.run text s).map fun t => t.keep group s.position)
  | atomic p, s => (p.run text s).take 1
  | repeated p least most greedy, s =>
    let start := exactly (p.run text) least [s]
    let (step, left) := match most with
      | some most => (p.run text, min (most - least) (text.size + 1))
      | none => (moving (p.run text), text.size + 1)
    dropRepeats (start.foldl (rounds step greedy (left ≤ text.size) left) ([], [])).2
  | lookAhead negative p, s =>
    match p.run text s with
    | [] => if negative then [s] else []
    | t :: _ => if negative then [] else [{ t with position := s.position }]
  | lookBehind negative p, s =>
    let sizes := (p.sizes?.getD []).filter (· ≤ s.position)
    let found := sizes.flatMap fun size =>
      (p.run text { s with position := s.position - size }).filter (·.position == s.position)
    match found with
    | [] => if negative then [s] else []
    | t :: _ => if negative then [] else [t]
  | backReference group ignoreCase, s =>
    match s.capture? group with
    | some (start, stop) =>
      match repeatsAt? text ignoreCase start stop s.position with
      | some position => [{ s with position }]
      | none => []
    | none => []
  | captured group, s => if (s.capture? group).isSome then [s] else []
  | conditional condition yes no, s =>
    match condition.run text s with
    | t :: _ => yes.run text t
    | [] => no.run text s

def withoutCaptures : Expr → Expr
  | seq p q => seq p.withoutCaptures q.withoutCaptures
  | alt p q => alt p.withoutCaptures q.withoutCaptures
  | capture _ p => p.withoutCaptures
  | atomic p => atomic p.withoutCaptures
  | repeated p least most greedy => repeated p.withoutCaptures least most greedy
  | lookAhead negative p => lookAhead negative p.withoutCaptures
  | lookBehind negative p => lookBehind negative p.withoutCaptures
  | conditional condition yes no =>
    conditional condition.withoutCaptures yes.withoutCaptures no.withoutCaptures
  | p => p

def occursIn (p : Expr) (text : List Char) : Bool :=
  let text := text.toArray
  let p := if p.usesCaptures then p else p.withoutCaptures
  (List.range (text.size + 1)).any fun i => !(p.run text ⟨i, []⟩).isEmpty

end Expr

end FormExpr.Pattern
