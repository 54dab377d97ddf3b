import FormExpr.Text.Blank
import FormExpr.Text.Digit

/-!
# Reading a text from the left

Each step takes a piece off the front of a text and gives the piece with what follows it.
-/

namespace FormExpr.Text

def run? (p : Char → Bool) (least most : Nat) (s : List Char) : Option (List Char × List Char) :=
  let run := (s.take most).takeWhile p
  if run.length < least then none else some (run, s.drop run.length)

def char? (c : Char) : List Char → Option (List Char)
  | [] => none
  | d :: rest => if d = c then some rest else none

def number? (least most : Nat) (s : List Char) : Option (Nat × List Char) :=
  (run? Char.isDigit least most s).map fun (digits, rest) => (naturalOf digits, rest)

def blanks? (s : List Char) : Option (List Char) :=
  match s with
  | c :: rest => if isBlank c then some (trimStart rest) else none
  | [] => none

def name? (names : List String) (s : List Char) : Option (Nat × List Char) :=
  (names.findIdx? fun name => asciiLowerTake s == name.toList).map fun i => (i, s.drop 3)
where
  asciiLowerTake (s : List Char) : List Char := (s.take 3).map Char.toLower

end FormExpr.Text
