import StepGlue.Keyword
import StepGlue.Pattern

/-! What is found in a file of step definitions. -/

namespace StepGlue

/-- A step definition as it stands in a source file. -/
structure GlueStep where
  pattern : Pattern
  line : Nat
  keyword : Option Keyword
deriving DecidableEq, Repr

/-- A place in a source file that cannot be understood. -/
structure GlueError where
  message : String
  line : Nat
deriving DecidableEq, Repr

/-- The definitions of a source file, and the ones that had to be left out. -/
structure GlueSteps where
  steps : List GlueStep := []
  rejected : List GlueError := []
deriving DecidableEq, Repr

def GlueSteps.append (a b : GlueSteps) : GlueSteps :=
  ⟨a.steps ++ b.steps, a.rejected ++ b.rejected⟩

end StepGlue
