import StepGlue.Expression
import StepGlue.Json
import StepGlue.Regex.Compile

/-! Step patterns in their two dialects, and what they compile to. -/

namespace StepGlue

/-- The pattern of a step definition: an expression, or a regular expression. -/
inductive Pattern
  | expression (source : String)
  | regex (source : String)
deriving DecidableEq, Repr, Inhabited

inductive PatternError
  | expression (e : ExpressionError)
  | regex (e : Regex.Error)
deriving DecidableEq, Repr

def PatternError.message : PatternError → String
  | .expression e => e.message
  | .regex e => e.message

namespace Pattern

/-- A source that starts with a caret or ends with a dollar sign is a regular expression. -/
def infer (source : String) : Pattern :=
  let s := source.toList
  if s.head? = some '^' ∨ s.getLast? = some '$' then .regex source else .expression source

def source : Pattern → String
  | .expression s | .regex s => s

def kind : Pattern → String
  | .expression _ => "expression"
  | .regex _ => "regex"

def toJson (p : Pattern) : Json := .obj [("kind", .str p.kind), ("source", .str p.source)]

/-- The regular expression that a pattern is compiled from. -/
def regexSource : Pattern → Except ExpressionError String
  | .expression s => regexOfExpression s
  | .regex s => .ok ("^(?:" ++ s ++ ")$")

def compileWith (sets : Regex.NamedSets) (p : Pattern) : Except PatternError Regex.Compiled := do
  let source ← p.regexSource.mapError .expression
  (Regex.compileWith sets source).mapError .regex

def compile (p : Pattern) : Except PatternError Regex.Compiled := p.compileWith Regex.namedClass

end Pattern

end StepGlue
