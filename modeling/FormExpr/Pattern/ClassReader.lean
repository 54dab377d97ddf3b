import FormExpr.Pattern.CharSet

/-!
# Bracketed classes

A class is read in two steps. Its extent is found by counting brackets, while escapes are replaced
by what they stand for; the items in between are then combined: ranges, named classes, nested
classes, and the operators `&&`, `--` and `~~`, which apply from left to right.
-/

namespace FormExpr.Pattern

inductive ClassItem where
  | raw (c : Char)
  | escaped (c : Char)
  /-- A class that is closed under change of case, or that says which case it means. -/
  | set (s : CharSet)
deriving Repr

namespace ClassItem

def literal? : ClassItem → Option Char
  | raw c => some c
  | escaped c => some c
  | set _ => none

def toSet (ignoreCase : Bool) : ClassItem → CharSet
  | raw c => (CharSet.char c).foldIf ignoreCase
  | escaped c => (CharSet.char c).foldIf ignoreCase
  | set s => s

end ClassItem

inductive SetOperator where
  | inter
  | diff
  | symmDiff
deriving DecidableEq, Repr

def SetOperator.apply : SetOperator → CharSet → CharSet → CharSet
  | inter => .inter
  | diff => .diff
  | symmDiff => .symmDiff

/-- A class that has been opened: its sign, what stands before the last operator, and the union of
the items after it. -/
structure OpenClass where
  negative : Bool
  left : Option (CharSet × SetOperator)
  items : CharSet

namespace OpenClass

def add (o : OpenClass) (s : CharSet) : OpenClass :=
  { o with items := .union o.items s }

def total (o : OpenClass) : CharSet :=
  match o.left with
  | some (left, op) => op.apply left o.items
  | none => o.items

def operator (o : OpenClass) (op : SetOperator) : OpenClass :=
  { o with left := some (o.total, op), items := .empty }

def close (o : OpenClass) : CharSet :=
  o.total.negateIf o.negative

end OpenClass

def asciiClass? (ignoreCase : Bool) : List ClassItem → Option (CharSet × List ClassItem)
  | .raw ':' :: rest =>
    let (negative, rest) := match rest with
      | .raw '^' :: rest => (true, rest)
      | rest => (false, rest)
    let name := rest.takeWhile fun item => match item with
      | .raw c => c != ':'
      | _ => false
    match rest.drop name.length with
    | .raw ':' :: .raw ']' :: rest =>
      (CharSet.asciiClass? (String.ofList (name.filterMap ClassItem.literal?))).map fun s =>
        ((s.foldIf ignoreCase).negateIf negative, rest)
    | _ => none
  | _ => none

def openClass (ignoreCase : Bool) (items : List ClassItem) : OpenClass × List ClassItem :=
  let (negative, items) := match items with
    | .raw '^' :: rest => (true, rest)
    | items => (false, items)
  let hyphens := items.takeWhile fun item => match item with
    | .raw '-' => true
    | _ => false
  let items := items.drop hyphens.length
  let add (o : OpenClass) (c : Char) := o.add ((CharSet.char c).foldIf ignoreCase)
  let start : OpenClass := ⟨negative, none, .empty⟩
  if hyphens.isEmpty then
    match items with
    | .raw ']' :: rest => (add start ']', rest)
    | items => (start, items)
  else (add start '-', items)

/-- One item or a range, with what follows; a hyphen before a closing bracket or before another
hyphen makes no range. -/
def range? (ignoreCase : Bool) (first : ClassItem) (rest : List ClassItem) :
    Option (CharSet × List ClassItem) :=
  let single := some (first.toSet ignoreCase, rest)
  match rest with
  | .raw '-' :: .raw ']' :: _ => single
  | .raw '-' :: .raw '-' :: _ => single
  | .raw '-' :: last :: rest => do
    let first ← first.literal?
    let last ← last.literal?
    if first.toNat ≤ last.toNat then
      some ((CharSet.range first.toNat last.toNat).foldIf ignoreCase, rest)
    else none
  | _ => single

def readClass? (ignoreCase : Bool) :
    Nat → OpenClass → List OpenClass → List ClassItem → Option CharSet
  | 0, _, _, _ => none
  | fuel + 1, current, outer, items =>
    let read := readClass? ignoreCase fuel
    match items with
    | [] => none
    | .raw ']' :: rest =>
      match outer with
      | [] => if rest.isEmpty then some current.close else none
      | next :: outer => read (next.add current.close) outer rest
    | .raw '[' :: rest =>
      match asciiClass? ignoreCase rest with
      | some (s, rest) => read (current.add s) outer rest
      | none =>
        let (inner, rest) := openClass ignoreCase rest
        read inner (current :: outer) rest
    | .raw '&' :: .raw '&' :: rest => read (current.operator .inter) outer rest
    | .raw '-' :: .raw '-' :: rest => read (current.operator .diff) outer rest
    | .raw '~' :: .raw '~' :: rest => read (current.operator .symmDiff) outer rest
    | item :: rest =>
      match range? ignoreCase item rest with
      | some (s, rest) => read (current.add s) outer rest
      | none => none

def classSet? (ignoreCase : Bool) (items : List ClassItem) : Option CharSet :=
  let (start, rest) := openClass ignoreCase items
  readClass? ignoreCase (items.length + 1) start [] rest

end FormExpr.Pattern
