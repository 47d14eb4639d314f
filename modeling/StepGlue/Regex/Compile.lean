import StepGlue.Regex.Lower
import StepGlue.Regex.Reader
import StepGlue.Regex.Search
import StepGlue.Regex.Size

/-! Compiled patterns. -/

namespace StepGlue.Regex

/-- A pattern and the expression that it means. -/
structure Compiled where
  source : String
  expr : Expr
deriving Repr

/-- Reads a pattern, gives it its meaning and refuses it if it grows too large. -/
def compileWith (sets : NamedSets) (source : String) : Except Error Compiled := do
  let tree ← (readPattern source.toList).mapError (.malformed source)
  let (expr, _) ← (tree.lower sets {}).mapError (.malformed source)
  if sizeLimit < compiledSize tree expr then throw .tooLarge
  return ⟨source, expr⟩

def compile (source : String) : Except Error Compiled := compileWith namedClass source

def Compiled.isMatch (r : Compiled) (text : String) : Bool := StepGlue.Regex.isMatch r.expr text

end StepGlue.Regex
