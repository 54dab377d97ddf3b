import FormExpr.Unicode.Case
import FormExpr.Unicode.Property

/-!
# Sets of characters

What stands for one character in a pattern: ranges and named classes, combined with the operations
of sets. Folding adds to a set every character that differs from a member in case only.
-/

namespace FormExpr.Pattern

open Unicode

inductive CharSet where
  | range (first last : Nat)
  | ranges (r : Ranges)
  | categories (cs : List Category)
  | digit
  | space
  | word
  | empty
  | union (a b : CharSet)
  | inter (a b : CharSet)
  | diff (a b : CharSet)
  | symmDiff (a b : CharSet)
  | compl (a : CharSet)
  | folded (a : CharSet)
deriving DecidableEq, Repr

namespace CharSet

def mem (c : Char) : CharSet → Bool
  | range first last => first ≤ c.toNat && c.toNat ≤ last
  | ranges r => r.contains c
  | categories cs => cs.contains (category c)
  | digit => Text.isDecimalDigit c
  | space => Text.isBlank c
  | word => isWordChar c
  | empty => false
  | union a b => a.mem c || b.mem c
  | inter a b => a.mem c && b.mem c
  | diff a b => a.mem c && !b.mem c
  | symmDiff a b => a.mem c != b.mem c
  | compl a => !a.mem c
  | folded a => (caseVariants c.toNat).any fun n => a.mem (Char.ofNat n)

def all : CharSet := compl empty

def char (c : Char) : CharSet := range c.toNat c.toNat

def newline : CharSet := char '\n'

def negateIf (negative : Bool) (s : CharSet) : CharSet :=
  if negative then compl s else s

def foldIf (ignoreCase : Bool) (s : CharSet) : CharSet :=
  if ignoreCase then folded s else s

def ofEnds (ends : List (Char × Char)) : CharSet :=
  ranges (ends.map fun (first, last) => (first.toNat, last.toNat))

def hexDigit : CharSet := ofEnds [('0', '9'), ('A', 'F'), ('a', 'f')]

def asciiClass? (name : String) : Option CharSet :=
  [("alnum", ofEnds [('0', '9'), ('A', 'Z'), ('a', 'z')]),
    ("alpha", ofEnds [('A', 'Z'), ('a', 'z')]),
    ("ascii", range 0 127),
    ("blank", ofEnds [('\t', '\t'), (' ', ' ')]),
    ("cntrl", ranges [(0, 31), (127, 127)]),
    ("digit", ofEnds [('0', '9')]),
    ("graph", ofEnds [('!', '~')]),
    ("lower", ofEnds [('a', 'z')]),
    ("print", ofEnds [(' ', '~')]),
    ("punct", ofEnds [('!', '/'), (':', '@'), ('[', '\x60'), ('\x7b', '~')]),
    ("space", ofEnds [('\t', '\r'), (' ', ' ')]),
    ("upper", ofEnds [('A', 'Z')]),
    ("word", ofEnds [('0', '9'), ('A', 'Z'), ('_', '_'), ('a', 'z')]),
    ("xdigit", hexDigit)].lookup name

def categoryNames : List (List String × List Category) :=
  [(["l", "letter"], [.lu, .ll, .lt, .lm, .lo]),
    (["lc", "casedletter"], [.lu, .ll, .lt]),
    (["lu", "uppercaseletter"], [.lu]),
    (["ll", "lowercaseletter"], [.ll]),
    (["lt", "titlecaseletter"], [.lt]),
    (["lm", "modifierletter"], [.lm]),
    (["lo", "otherletter"], [.lo]),
    (["m", "mark", "combiningmark"], [.mn, .mc, .me]),
    (["mn", "nonspacingmark"], [.mn]),
    (["mc", "spacingmark"], [.mc]),
    (["me", "enclosingmark"], [.me]),
    (["n", "number"], [.nd, .nl, .no]),
    (["nd", "decimalnumber", "digit"], [.nd]),
    (["nl", "letternumber"], [.nl]),
    (["no", "othernumber"], [.no]),
    (["p", "punctuation", "punct"], [.pc, .pd, .ps, .pe, .pi, .pf, .po]),
    (["pc", "connectorpunctuation"], [.pc]),
    (["pd", "dashpunctuation"], [.pd]),
    (["ps", "openpunctuation"], [.ps]),
    (["pe", "closepunctuation"], [.pe]),
    (["pi", "initialpunctuation"], [.pi]),
    (["pf", "finalpunctuation"], [.pf]),
    (["po", "otherpunctuation"], [.po]),
    (["s", "symbol"], [.sm, .sc, .sk, .so]),
    (["sm", "mathsymbol"], [.sm]),
    (["sc", "currencysymbol"], [.sc]),
    (["sk", "modifiersymbol"], [.sk]),
    (["so", "othersymbol"], [.so]),
    (["z", "separator"], [.zs, .zl, .zp]),
    (["zs", "spaceseparator"], [.zs]),
    (["zl", "lineseparator"], [.zl]),
    (["zp", "paragraphseparator"], [.zp]),
    (["c", "other"], [.cc, .cf, .cs, .co, .cn]),
    (["cc", "control", "cntrl"], [.cc]),
    (["cf", "format"], [.cf]),
    (["cs", "surrogate"], [.cs]),
    (["co", "privateuse"], [.co]),
    (["cn", "unassigned"], [.cn])]

def ofCategory? (name : String) : Option CharSet :=
  match name with
  | "any" => some all
  | "ascii" => some (range 0 127)
  | "assigned" => some (compl (categories [.cn]))
  | _ =>
    (categoryNames.find? fun (names, _) => names.contains name).map fun (_, cs) => categories cs

def ofScript? (name : String) : Option CharSet :=
  (scripts.find? fun (code, long, _) => code == name || long == name).map fun (_, _, runs) =>
    ranges (Ranges.ofText runs)

def ofProperty? (name : String) : Option CharSet :=
  match name with
  | "alphabetic" | "alpha" => some (ranges (Ranges.ofText alphabeticRuns))
  | "lowercase" | "lower" => some (ranges (Ranges.ofText lowercaseRuns))
  | "uppercase" | "upper" => some (ranges (Ranges.ofText uppercaseRuns))
  | "emoji" => some (ranges (Ranges.ofText emojiRuns))
  | "whitespace" | "wspace" | "space" => some space
  | "hexdigit" | "hex" =>
    some <| union hexDigit <|
      ranges [(0xFF10, 0xFF19), (0xFF21, 0xFF26), (0xFF41, 0xFF46)]
  | "asciihexdigit" | "ahex" => some hexDigit
  | "joincontrol" | "joinc" => some (range 0x200C 0x200D)
  | _ => none

/-- Case, blanks, underscores and hyphens do not count in a name, nor does a leading `is`. -/
def normalName (name : List Char) : String :=
  let kept := (name.filter fun c => !(c == ' ' || c == '_' || c == '-')).map Char.toLower
  String.ofList <| match kept with
    | 'i' :: 's' :: 'c' :: [] => kept
    | 'i' :: 's' :: rest => rest
    | _ => kept

def named? (name : List Char) : Option CharSet :=
  let (before, after) := name.span fun c => !(c == '=' || c == ':')
  match after with
  | [] =>
    let name := normalName name
    ofProperty? name <|> ofCategory? name <|> ofScript? name
  | _ :: value =>
    let negative := before.getLast? == some '!'
    let property := normalName (if negative then before.dropLast else before)
    let value := normalName value
    let found := match property with
      | "gc" | "generalcategory" => ofCategory? value
      | "sc" | "script" | "scx" | "scriptextensions" => ofScript? value
      | _ => none
    found.map (negateIf negative)

end CharSet

end FormExpr.Pattern
