import FormExpr.Function.Registry
import FormExpr.Text.Search

/-!
# Texts

Positions count characters. `substring` counts from one and takes a length, `substr` counts from
zero and takes an end; a negative position there counts from the end of the text.
-/

namespace FormExpr

namespace Value

variable {F : Forest}

def spread (args : List (Value F)) : List (Value F) :=
  args.flatMap parts

def spreadTexts (args : List (Value F)) : List (List Char) :=
  (spread args).map fun v => v.toText.toList

end Value

namespace Library

open Text

variable {F : Forest}

/-- The characters at the positions, counted from one, from `start` up to but not including `stop`.
-/
def between (start stop : Float) (s : List Char) : List Char :=
  (s.zipIdx 1).filterMap fun (c, i) =>
    let position := Float.ofNat i
    if position ≥ start && position < stop then some c else none

/-- The place from zero to `length` that an index means; a negative one counts from the end. -/
def place (index : Float) (length : Nat) : Nat :=
  if index.isNaN then 0
  else if index.isInf then (if index > 0 then length else 0)
  else
    let i := Binary64.truncInt index
    if i < 0 then (length + i).toNat else min i.toNat length

def slice (start stop : Nat) (s : List Char) : List Char :=
  (s.take stop).drop start

def textOrContext (call : Call F) (v : Option (Value F)) : List Char :=
  match v with
  | some v => v.toText.toList
  | none => call.contextText.toList

def textual (f : List Char → Value F) : Function F :=
  .optional fun call v => .ok (f (textOrContext call v))

def textual₂ (f : List Char → List Char → Value F) : Function F :=
  .binary fun _ v w => .ok (f v.toText.toList w.toText.toList)

def normalizeSpace (s : List Char) : List Char :=
  join [' '] (words s)

def substringBefore (s sep : List Char) : List Char :=
  ((splitFirst? sep s).map Prod.fst).getD []

def substringAfter (s sep : List Char) : List Char :=
  ((splitFirst? sep s).map Prod.snd).getD []

def substring (call : Call F) (v start : Value F) (length : Option (Value F)) : Result F :=
  let start := Binary64.roundHalfUp (start.toNumber call.zone)
  let stop := match length with
    | some length => start + Binary64.roundHalfUp (length.toNumber call.zone)
    | none => Binary64.infinity
  .ok (.ofChars (between start stop v.toText.toList))

def substr (call : Call F) (v start : Value F) (stop : Option (Value F)) : Result F :=
  let s := v.toText.toList
  let start := place (start.toNumber call.zone) s.length
  let stop := match stop with
    | some stop => place (stop.toNumber call.zone) s.length
    | none => s.length
  .ok (.ofChars (slice start stop s))

def text : List (String × Function F) :=
  [("string", textual .ofChars),
    ("string-length", textual fun s => .number (Float.ofNat s.length)),
    ("normalize-space", textual fun s => .ofChars (normalizeSpace s)),
    ("concat", .variadic 0 fun _ args => .ok (.ofChars (Value.spreadTexts args).flatten)),
    ("join", .variadicFrom1 fun _ sep args =>
      .ok (.ofChars (join sep.toText.toList (Value.spreadTexts args)))),
    ("contains", textual₂ fun s sep => .boolean (contains s sep)),
    ("starts-with", textual₂ fun s start => .boolean (start.isPrefixOf s)),
    ("ends-with", textual₂ fun s stop => .boolean (stop.isSuffixOf s)),
    ("substring-before", textual₂ fun s sep => .ofChars (substringBefore s sep)),
    ("substring-after", textual₂ fun s sep => .ofChars (substringAfter s sep)),
    ("substring", .counting (.binaryOptional substring) List.tail),
    ("substr", .counting (.binaryOptional substr) List.tail),
    ("translate", .ternary fun _ s source target =>
      .ok (.ofChars (translate source.toText.toList target.toText.toList s.toText.toList)))]

end Library

end FormExpr
