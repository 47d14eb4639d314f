import StepGlue.Json
import StepGlue.Keyword

/-! A step of a feature file. -/

namespace StepGlue

structure Step where
  keyword : Keyword
  text : String
  line : Nat
deriving DecidableEq, Repr, Inhabited

def Step.toJson (s : Step) : Json :=
  .obj [("keyword", .str s.keyword.tag), ("text", .str s.text), ("line", .int s.line)]

end StepGlue
