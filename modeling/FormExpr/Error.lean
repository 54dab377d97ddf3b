import FormExpr.Value.Kind

/-!
# Errors

An evaluation that fails says why. Each cause belongs to a category, and has one wording.
-/

namespace FormExpr

namespace Error

inductive Category where
  | tooFewArguments
  | tooManyArguments
  | invalidArgument
  | unknownFunction
  | invalidFormat
  | invalidPattern
  | unsupportedAlgorithm
  | functionExists
  | unsupportedKind
  | invalidOperands
  | disjointTrees
deriving DecidableEq, Repr

def Category.label : Category → String
  | tooFewArguments => "too-few-args"
  | tooManyArguments => "too-many-args"
  | invalidArgument => "invalid-arg-type"
  | unknownFunction => "unknown-function"
  | invalidFormat => "invalid-format"
  | invalidPattern => "invalid-regex"
  | unsupportedAlgorithm => "unsupported-algorithm"
  | functionExists => "function-exists"
  | unsupportedKind => "unsupported-type"
  | invalidOperands => "invalid-operands"
  | disjointTrees => "disjoint-trees"

end Error

inductive Error where
  | tooFewArguments (function : String)
  | tooManyArguments (function : String)
  | nodeSetRequired (function : String)
  | seedNotInteger (function seed : String)
  | notNodeSet (kind : Kind)
  | noNodeSetResult (kind : Kind)
  | unknownFunction (name : String)
  | danglingEscape
  | unknownEscape (code : Char)
  | unsupportedEncoding (encoding : String)
  | malformedPattern
  | unsupportedAlgorithm (algorithm : String)
  | functionExists (name : String)
  | unsupportedArgument (function : String) (kind : Kind)
  | unionOperands (left right : Kind)
  | disjointTrees
  /-- A failure of a function that the host supplied, in its own words. -/
  | host (category : Error.Category) (message : String)
deriving DecidableEq, Repr

namespace Error

def category : Error → Category
  | tooFewArguments _ => .tooFewArguments
  | tooManyArguments _ => .tooManyArguments
  | nodeSetRequired _ => .invalidArgument
  | seedNotInteger _ _ => .invalidArgument
  | notNodeSet _ => .invalidArgument
  | noNodeSetResult _ => .invalidArgument
  | unknownFunction _ => .unknownFunction
  | danglingEscape => .invalidFormat
  | unknownEscape _ => .invalidFormat
  | unsupportedEncoding _ => .invalidFormat
  | malformedPattern => .invalidPattern
  | unsupportedAlgorithm _ => .unsupportedAlgorithm
  | functionExists _ => .functionExists
  | unsupportedArgument _ _ => .unsupportedKind
  | unionOperands _ _ => .invalidOperands
  | disjointTrees => .disjointTrees
  | host category _ => category

def message : Error → String
  | tooFewArguments function => s!"too few arguments for {function}()"
  | tooManyArguments function => s!"too many arguments for {function}()"
  | nodeSetRequired function => s!"{function}() must be called with a nodeset"
  | seedNotInteger function seed => s!"{function}() seed must be an integer, got {seed}"
  | notNodeSet kind => s!"expected a nodeset, got {kind.tag}"
  | noNodeSetResult kind => s!"cannot convert {kind.tag} to a nodeset"
  | unknownFunction name => s!"function not found: {name}()"
  | danglingEscape => "date format string ends with %"
  | unknownEscape code => s!"unrecognized date format code: %{code}"
  | unsupportedEncoding encoding => s!"unsupported digest encoding: {encoding}"
  | malformedPattern => "regex error"
  | unsupportedAlgorithm algorithm => s!"no support for digest algorithm {algorithm}"
  | functionExists name => s!"function already registered: {name}()"
  | unsupportedArgument function kind => s!"unsupported argument type for {function}(): {kind.tag}"
  | unionOperands left right => s!"union requires nodesets, got {left.tag} | {right.tag}"
  | disjointTrees => "document order requires a common root: nodes from different trees"
  | host _ message => message

def display (e : Error) : String :=
  s!"error: {e.message} ({e.category.label})"

end Error

end FormExpr
