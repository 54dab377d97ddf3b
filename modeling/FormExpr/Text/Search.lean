/-!
# Substrings

The first place where one text stands inside another cuts the second in two.
-/

namespace FormExpr.Text

def stripStart? (sep s : List Char) : Option (List Char) :=
  if sep.isPrefixOf s then some (s.drop sep.length) else none

def splitFirst? (sep : List Char) : List Char → Option (List Char × List Char)
  | [] => (stripStart? sep []).map ([], ·)
  | c :: rest =>
    match stripStart? sep (c :: rest) with
    | some after => some ([], after)
    | none => (splitFirst? sep rest).map fun (before, after) => (c :: before, after)

def contains (s sep : List Char) : Bool :=
  (splitFirst? sep s).isSome

/-- Each character found in `source` becomes the one at the same place of `target`, or nothing. -/
def translate (source target s : List Char) : List Char :=
  s.filterMap fun c =>
    match source.findIdx? (· == c) with
    | some i => target[i]?
    | none => some c

def asciiLower (s : List Char) : List Char :=
  s.map Char.toLower

end FormExpr.Text
