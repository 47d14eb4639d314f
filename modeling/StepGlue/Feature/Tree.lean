import StepGlue.Text.Units

/-! The parts of a feature file. -/

namespace StepGlue

/-- The role of a step, which a conjunction takes over from the step before it. -/
inductive StepRole
  | given | when | «then»
deriving DecidableEq, Repr, Inhabited

/-- A step as written: its keyword, its role, its text, and the byte offset where it starts. -/
structure StepNode where
  keyword : String
  role : StepRole
  text : String
  start : Nat
deriving DecidableEq, Repr, Inhabited

/-- A table: its extent, and the trimmed cells of its rows. -/
structure Table where
  span : Span
  rows : List (List String)
deriving DecidableEq, Repr, Inhabited

/-- A scenario: its steps, and the tables of its example blocks that have one. -/
structure Scenario where
  steps : List StepNode
  examples : List Table
deriving DecidableEq, Repr, Inhabited

/-- A group of scenarios with a common background. -/
structure Rule where
  background : List StepNode
  scenarios : List Scenario
deriving DecidableEq, Repr, Inhabited

/-- A feature file: scenarios with a common background, and rules. -/
structure Feature where
  background : List StepNode
  scenarios : List Scenario
  rules : List Rule
deriving DecidableEq, Repr, Inhabited

end StepGlue
