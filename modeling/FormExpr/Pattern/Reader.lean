import FormExpr.Pattern.ClassReader
import FormExpr.Pattern.Match
import FormExpr.Text.Search

/-!
# Reading patterns

The usual syntax with look-around, back references, atomic groups, possessive quantifiers and
conditionals. A flag that is set in the middle of a group holds from there on; it ends with the
group only if the group has flags of its own.
-/

namespace FormExpr.Pattern

structure Flags where
  ignoreCase : Bool
  multiLine : Bool
  dotAll : Bool
  swapGreed : Bool
  verbose : Bool
deriving DecidableEq, Repr

structure Progress where
  rest : List Char
  flags : Flags
  groups : Nat
  /-- The named groups, the latest first. -/
  names : List (String × Nat)
  /-- Whether a reference by number has been read. -/
  numbered : Bool
  references : List Nat
  /-- A group number as great as this is not read at all. -/
  groupLimit : Nat

abbrev Reader := StateT Progress Option

namespace Reader

inductive Trivia where
  | code
  | line
  | comment
deriving DecidableEq, Repr

/-- Drops comments in parentheses and, in verbose mode, blanks and comments up to the end of a line.
-/
def skipTrivia (verbose : Bool) : Trivia → List Char → Option (List Char)
  | .code, '(' :: '?' :: '#' :: rest => skipTrivia verbose .comment rest
  | .code, c :: rest =>
    if verbose && c == '#' then skipTrivia verbose .line rest
    else if verbose && [' ', '\r', '\n', '\t'].contains c then skipTrivia verbose .code rest
    else some (c :: rest)
  | .code, [] => some []
  | .line, c :: rest => skipTrivia verbose (if c = '\n' then .code else .line) rest
  | .line, [] => some []
  | .comment, '\\' :: _ :: rest => skipTrivia verbose .comment rest
  | .comment, c :: rest => skipTrivia verbose (if c = ')' then .code else .comment) rest
  | .comment, [] => none

def fail {α : Type} : Reader α := fun _ => none

def trivia : Reader Unit := do
  let s ← get
  match skipTrivia s.flags.verbose .code s.rest with
  | some rest => set { s with rest }
  | none => fail

def peek : Reader (List Char) := return (← get).rest

def advance (rest : List Char) : Reader Unit := modify ({ · with rest })

def liftOption {α : Type} : Option α → Reader α
  | some a => pure a
  | none => fail

def close : Reader Unit := do
  trivia
  match ← peek with
  | ')' :: rest => advance rest
  | _ => fail

def lowerHexValue (c : Char) : Option Nat :=
  if c.isDigit then some (c.toNat - 48)
  else if 'a' ≤ c ∧ c ≤ 'f' then some (c.toNat - 87)
  else if 'A' ≤ c ∧ c ≤ 'F' then some (c.toNat - 55)
  else none

def hexValue? (digits : List Char) : Option Nat :=
  digits.foldl (fun n c => do return (← n) * 16 + (← lowerHexValue c)) (some 0)

def hexChar? (width : Nat) (s : List Char) : Option (Char × List Char) := do
  let isHex (c : Char) := (lowerHexValue c).isSome
  let (digits, rest) ←
    if (s.take width).length = width ∧ (s.take width).all isHex then
      some (s.take width, s.drop width)
    else match s with
      | '\x7b' :: rest =>
        let digits := rest.takeWhile isHex
        match rest.drop digits.length with
        | '\x7d' :: rest =>
          if 0 < digits.length ∧ digits.length ≤ 8 then some (digits, rest) else none
        | _ => none
      | _ => none
  let code ← hexValue? digits
  if code.isValidChar then some (Char.ofNat code, rest) else none

def namedClass? (ignoreCase : Bool) : List Char → Option (CharSet × List Char)
  | 'd' :: rest => some (.digit, rest)
  | 'D' :: rest => some (.compl .digit, rest)
  | 's' :: rest => some (.space, rest)
  | 'S' :: rest => some (.compl .space, rest)
  | 'w' :: rest => some (.word, rest)
  | 'W' :: rest => some (.compl .word, rest)
  | 'h' :: rest => some (.hexDigit, rest)
  | 'H' :: rest => some (.compl .hexDigit, rest)
  | c :: '\x7b' :: rest =>
    if c = 'p' ∨ c = 'P' then
      let name := rest.takeWhile (· != '\x7d')
      match rest.drop name.length with
      | _ :: rest =>
        (CharSet.named? name).map fun s => ((s.foldIf ignoreCase).negateIf (c == 'P'), rest)
      | [] => none
    else none
  | c :: letter :: rest =>
    if c = 'p' ∨ c = 'P' then
      (CharSet.ofCategory? (String.ofList [letter.toLower])).map fun s =>
        ((s.foldIf ignoreCase).negateIf (c == 'P'), rest)
    else none
  | _ => none

def escapedChar? (letters : List Char) (s : List Char) : Option (Char × List Char) :=
  match s with
  | 'x' :: rest => hexChar? 2 rest
  | 'u' :: rest => hexChar? 4 rest
  | 'U' :: rest => hexChar? 8 rest
  | 'a' :: rest => some ('\x07', rest)
  | 'b' :: rest => some ('\x08', rest)
  | 'f' :: rest => some ('\x0c', rest)
  | 'n' :: rest => some ('\n', rest)
  | 'r' :: rest => some ('\r', rest)
  | 't' :: rest => some ('\t', rest)
  | 'v' :: rest => some ('\x0b', rest)
  | 'e' :: rest => some ('\x1b', rest)
  | c :: rest => if c.isAlphanum && !letters.contains c then none else some (c, rest)
  | [] => none

def namesClass (c : Char) : Bool :=
  "dDsSwWhHpP".toList.contains c

def classEscape? (ignoreCase : Bool) (s : List Char) : Option (ClassItem × List Char) :=
  if s.head?.any namesClass then (namedClass? ignoreCase s).map fun (s, rest) => (.set s, rest)
  else (escapedChar? ['k', 'A', 'z', 'B', 'K', 'G'] s).map fun (c, rest) => (.escaped c, rest)

def classItems? (ignoreCase : Bool) : Nat → Nat → List Char → Option (List ClassItem × List Char)
  | 0, _, _ => none
  | fuel + 1, depth, s =>
    let next (item : ClassItem) (depth : Nat) (rest : List Char) := do
      let (items, rest) ← classItems? ignoreCase fuel depth rest
      return (item :: items, rest)
    match s with
    | [] => none
    | '\\' :: rest => do
      let (item, rest) ← classEscape? ignoreCase rest
      next item depth rest
    | '[' :: rest => next (.raw '[') (depth + 1) rest
    | ']' :: rest =>
      if depth = 0 then some ([.raw ']'], rest) else next (.raw ']') (depth - 1) rest
    | c :: rest => next (.raw c) depth rest

def bracketClass : Reader Expr := do
  let s ← get
  let (sign, rest) := match s.rest with
    | '^' :: rest => ([ClassItem.raw '^'], rest)
    | rest => ([], rest)
  let (first, rest) := match rest with
    | ']' :: rest => ([ClassItem.raw ']'], rest)
    | rest => ([], rest)
  let ignoreCase := s.flags.ignoreCase
  let (items, rest) ← liftOption (classItems? ignoreCase (rest.length + 1) 0 rest)
  let set ← liftOption (classSet? ignoreCase (sign ++ first ++ items))
  advance rest
  return .char set

def isNameChar (c : Char) : Bool :=
  match Unicode.category c with
  | .nd | .nl | .no => true
  | _ => c == '_' || (Unicode.Ranges.ofText Unicode.alphabeticRuns).contains c

def name (opening : List Char) (closing : Char) : Reader String := do
  let rest ← liftOption (Text.stripStart? opening (← peek))
  let name := rest.takeWhile isNameChar
  match rest.drop name.length with
  | c :: rest =>
    if c = closing ∧ !name.isEmpty then
      advance rest
      return String.ofList name
    else fail
  | [] => fail

def refer (group : Nat) (numbered : Bool) : Reader Nat := do
  modify fun s =>
    { s with references := group :: s.references, numbered := s.numbered || numbered }
  return group

def numberReference : Reader Nat := do
  let s ← get
  let digits := s.rest.takeWhile Char.isDigit
  let group := Text.naturalOf digits
  if digits.isEmpty || s.groupLimit ≤ group then fail
  advance (s.rest.drop digits.length)
  refer group true

def namedReference (opening : List Char) (closing : Char) : Reader Nat := do
  let name ← name opening closing
  match (← get).names.lookup name with
  | some group => refer group false
  | none => refer (← liftOption (Text.natural? name.toList)) false

/-- The group that a signed number counts from here: minus one is the last group opened so far, plus
one the next to be opened. -/
def relativeGroup? (opened : Nat) (sign : Char) (n : Nat) : Option Nat :=
  if n = 0 then none
  else if sign = '+' then some (opened + n)
  else if sign = '-' ∧ n ≤ opened then some (opened + 1 - n)
  else none

def signedReference (opening : List Char) (closing : Char) : Reader Nat := do
  let s ← get
  match ← liftOption (Text.stripStart? opening s.rest) with
  | sign :: rest =>
    if sign = '+' ∨ sign = '-' then
      let digits := rest.takeWhile Char.isDigit
      let group ← liftOption (relativeGroup? s.groups sign (Text.naturalOf digits))
      match rest.drop digits.length with
      | c :: rest =>
        if c = closing then
          advance rest
          refer group false
        else fail
      | [] => fail
    else namedReference opening closing
  | [] => fail

def escape : Reader Expr := do
  let s ← get
  let ignoreCase := s.flags.ignoreCase
  let assertion (a : Assertion) (rest : List Char) : Reader Expr := do
    advance rest
    return .assertion a
  match s.rest with
  | 'k' :: '\'' :: _ =>
    advance (s.rest.drop 1)
    return .backReference (← signedReference ['\''] '\'') ignoreCase
  | 'k' :: rest =>
    advance rest
    return .backReference (← signedReference ['<'] '>') ignoreCase
  | 'A' :: rest => assertion .textStart rest
  | 'z' :: rest => assertion .textEnd rest
  | 'Z' :: rest => assertion .textEndOrBreaks rest
  | 'b' :: '\x7b' :: _ => fail
  | 'B' :: '\x7b' :: _ => fail
  | 'b' :: rest => assertion .wordBoundary rest
  | 'B' :: rest => assertion .noWordBoundary rest
  | '<' :: rest => assertion .wordStart rest
  | '>' :: rest => assertion .wordEnd rest
  -- A quantifier may follow these two, so they are put into a round of their own.
  | 'G' :: rest =>
    advance rest
    return .repeated (.assertion .textStart) 1 (some 1) true
  | 'K' :: rest =>
    advance rest
    return .repeated .empty 1 (some 1) true
  | c :: _ =>
    if c.isDigit then return .backReference (← numberReference) ignoreCase
    else if namesClass c then
      let (set, rest) ← liftOption (namedClass? ignoreCase s.rest)
      advance rest
      return .char set
    else
      let (char, rest) ← liftOption (escapedChar? [] s.rest)
      advance rest
      return .char ((CharSet.char char).foldIf (ignoreCase && ['x', 'u', 'U'].contains c))
  | [] => fail

def bounds? (verbose : Bool) (s : List Char) : Option (Nat × Option Nat × List Char) := do
  let skip := skipTrivia verbose .code
  let s ← skip s
  let low := s.takeWhile Char.isDigit
  let s ← skip (s.drop low.length)
  match s with
  | '\x7d' :: rest =>
    if low.isEmpty then none else some (Text.naturalOf low, some (Text.naturalOf low), rest)
  | ',' :: rest =>
    let s ← skip rest
    let high := s.takeWhile Char.isDigit
    let s ← skip (s.drop high.length)
    match s with
    | '\x7d' :: rest =>
      some (Text.naturalOf low, if high.isEmpty then none else some (Text.naturalOf high), rest)
    | _ => none
  | _ => none

def quantifier : Reader (Option (Nat × Option Nat)) := do
  trivia
  let s ← get
  match s.rest with
  | '?' :: rest => advance rest; return some (0, some 1)
  | '*' :: rest => advance rest; return some (0, none)
  | '+' :: rest => advance rest; return some (1, none)
  | '\x7b' :: rest =>
    match bounds? s.flags.verbose rest with
    | some (least, most, rest) => advance rest; return some (least, most)
    | none => return none
  | _ => return none

def mark (c : Char) : Reader Bool := do
  match ← peek with
  | d :: rest => if d = c then do advance rest; return true else return false
  | [] => return false

def quantify (p : Expr) : Reader Expr := do
  match ← quantifier with
  | none => return p
  | some (least, most) =>
    if !p.isRepeatable then fail
    trivia
    let lazy ← mark '?'
    let possessive ← mark '+'
    let repeated := Expr.repeated p least most (lazy == (← get).flags.swapGreed)
    return if possessive then .atomic repeated else repeated

def setFlag (c : Char) (value : Bool) (flags : Flags) : Option Flags :=
  match c with
  | 'i' => some { flags with ignoreCase := value }
  | 'm' => some { flags with multiLine := value }
  | 's' => some { flags with dotAll := value }
  | 'U' => some { flags with swapGreed := value }
  | 'x' => some { flags with verbose := value }
  | 'u' => if value then some flags else none
  | _ => none

/-- Reads flags up to a colon or the closing parenthesis, and tells whether it was the colon. At
least one letter has to stand after a minus sign, and before the parenthesis. -/
def flagLetters : Nat → Bool → Bool → Reader Bool
  | 0, _, _ => fail
  | fuel + 1, first, negative => do
    trivia
    match ← peek with
    | '-' :: rest =>
      if negative then fail
      advance rest
      flagLetters fuel first true
    | ')' :: rest =>
      if first then fail
      advance rest
      return false
    | ':' :: rest =>
      if negative && first then fail
      advance rest
      return true
    | c :: rest =>
      let s ← get
      let flags ← liftOption (setFlag c (!negative) s.flags)
      set { s with flags, rest }
      flagLetters fuel false negative
    | [] => fail

inductive Opening where
  | capture
  | named (opening : List Char) (closing : Char)
  | atomic
  | look (behind negative : Bool)
  | reference
  | conditional
  | flags

def opening : List Char → Opening × List Char
  | '?' :: '=' :: rest => (.look false false, rest)
  | '?' :: '!' :: rest => (.look false true, rest)
  | '?' :: '<' :: '=' :: rest => (.look true false, rest)
  | '?' :: '<' :: '!' :: rest => (.look true true, rest)
  | '?' :: '<' :: rest => (.named ['<'] '>', '<' :: rest)
  | '?' :: '\'' :: rest => (.named ['\''] '\'', '\'' :: rest)
  | '?' :: 'P' :: '<' :: rest => (.named ['<'] '>', '<' :: rest)
  | '?' :: 'P' :: '=' :: rest => (.reference, rest)
  | '?' :: '>' :: rest => (.atomic, rest)
  | '?' :: '(' :: rest => (.conditional, rest)
  | '?' :: rest => (.flags, rest)
  | rest => (.capture, rest)

def nextGroup : Reader Nat :=
  modifyGet fun s => (s.groups + 1, { s with groups := s.groups + 1 })

def maxDepth : Nat := 64

def branches : Expr → Expr × Expr
  | .alt yes no => (yes, no)
  | yes => (yes, .empty)

mutual

/-- Branches with bars between them. References by number and named groups exclude each other where
there is no bar. -/
def alternatives : Nat → Nat → Reader Expr
  | 0, _ => fail
  | fuel + 1, depth => do
    let first ← branch fuel depth .empty
    trivia
    match ← peek with
    | '|' :: rest =>
      advance rest
      return .alt first (← moreAlternatives fuel depth)
    | _ =>
      let s ← get
      if s.numbered && !s.names.isEmpty then fail
      return first

def moreAlternatives : Nat → Nat → Reader Expr
  | 0, _ => fail
  | fuel + 1, depth => do
    let first ← branch fuel depth .empty
    trivia
    match ← peek with
    | '|' :: rest =>
      advance rest
      return .alt first (← moreAlternatives fuel depth)
    | _ => return first

def branch : Nat → Nat → Expr → Reader Expr
  | 0, _, _ => fail
  | fuel + 1, depth, before => do
    let start := (← peek).length
    let p ← atom fuel depth
    let p ← quantify p
    if (← peek).length = start then return before
    else if p.isEmpty then branch fuel depth before
    else branch fuel depth (if before.isEmpty then p else .seq before p)

def atom : Nat → Nat → Reader Expr
  | 0, _ => fail
  | fuel + 1, depth => do
    trivia
    let s ← get
    let flags := s.flags
    match s.rest with
    | [] => return .empty
    | '.' :: rest =>
      advance rest
      return .char (if flags.dotAll then .all else .compl .newline)
    | '^' :: rest =>
      advance rest
      return .assertion (if flags.multiLine then .lineStart else .textStart)
    | '$' :: rest =>
      advance rest
      return .assertion (if flags.multiLine then .lineEnd else .textEnd)
    | '(' :: rest =>
      advance rest
      group fuel (depth + 1)
    | '\\' :: rest =>
      advance rest
      escape
    | '[' :: rest =>
      advance rest
      bracketClass
    | '+' :: _ | '*' :: _ | '?' :: _ | '|' :: _ | ')' :: _ => return .empty
    | c :: rest =>
      advance rest
      return .char ((CharSet.char c).foldIf flags.ignoreCase)

def group : Nat → Nat → Reader Expr
  | 0, _ => fail
  | fuel + 1, depth => do
    if maxDepth ≤ depth then fail
    trivia
    let (kind, rest) := opening (← peek)
    advance rest
    match kind with
    | .capture =>
      let number ← nextGroup
      let p ← alternatives fuel depth
      close
      return .capture number p
    | .named opening closing =>
      let number ← nextGroup
      let name ← name opening closing
      modify fun s =>
        { s with names := (name, number) :: s.names.filter fun (other, _) => other != name }
      let p ← alternatives fuel depth
      close
      return .capture number p
    | .atomic =>
      let p ← alternatives fuel depth
      close
      return .atomic p
    | .look behind negative =>
      let p ← alternatives fuel depth
      close
      return if behind then .lookBehind negative p else .lookAhead negative p
    | .reference => return .backReference (← namedReference [] ')') (← get).flags.ignoreCase
    | .conditional => conditional fuel depth
    | .flags =>
      let flags := (← get).flags
      if ← flagLetters (rest.length + 1) true false then
        let p ← alternatives fuel depth
        match ← peek with
        | ')' :: rest =>
          advance rest
          modify ({ · with flags })
          return p
        | _ => fail
      else return .empty

def conditional : Nat → Nat → Reader Expr
  | 0, _ => fail
  | fuel + 1, depth => do
    let condition : Expr ← match ← peek with
      | '\'' :: _ => Expr.captured <$> signedReference ['\''] '\''
      | '<' :: _ => Expr.captured <$> signedReference ['<'] '>'
      | c :: _ =>
        if c.isDigit then Expr.captured <$> numberReference else alternatives fuel depth
      | [] => fail
    close
    let start := (← peek).length
    let p ← alternatives fuel depth
    let stop := (← peek).length
    close
    if stop = start then
      match condition with
      | .captured _ => return condition
      | _ => fail
    else
      let (yes, no) := branches p
      return if yes.isEmpty && no.isEmpty then condition else .conditional condition yes no

end

end Reader

def Expr.ofText? (s : List Char) : Option Expr := do
  let start : Progress :=
    { rest := s, flags := ⟨false, false, false, false, false⟩, groups := 0, names := [],
      numbered := false, references := [], groupLimit := byteLength s / 2 }
  let (p, stop) ← Reader.alternatives (8 * (s.length + 2)) 0 start
  let refersBack (group : Nat) : Bool := 0 < group && group ≤ stop.groups
  if stop.rest.isEmpty && stop.references.all refersBack && p.isRegular then some p else none

end FormExpr.Pattern
