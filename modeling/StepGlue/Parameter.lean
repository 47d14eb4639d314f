/-! The parameter types of an expression, each with the regular expression that its values
match. -/

namespace StepGlue

/-- The parameter types that an expression may name. The anonymous one takes any text. -/
inductive ParameterType
  | integer | decimal | word | string | anonymous
deriving DecidableEq, Repr

namespace ParameterType

def ofName? : String → Option ParameterType
  | "int" | "byte" | "short" | "long" | "biginteger" => some .integer
  | "float" | "double" | "bigdecimal" => some .decimal
  | "word" => some .word
  | "string" => some .string
  | "" => some .anonymous
  | _ => none

def fragment : ParameterType → String
  | .integer => "-?\\d+"
  | .decimal => "[-+]?\\d*\\.?\\d+(?:[eE][-+]?\\d+)?"
  | .word => "[^\\s]+"
  | .string => "\"(?:[^\"\\\\]|\\\\.)*\"|'(?:[^'\\\\]|\\\\.)*'"
  | .anonymous => ".*"

end ParameterType

end StepGlue
