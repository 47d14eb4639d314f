/-! Writing a text so that it stands for itself in a pattern. -/

namespace StepGlue.Regex

/-- The characters with a meaning of their own; a backslash takes it from them. -/
def isMeta (c : Char) : Bool := "\\.+*?()|[]\x7b\x7d^$#&-~".toList.contains c

/-- Puts a backslash before every character with a meaning of its own. -/
def escape : List Char → List Char
  | [] => []
  | c :: s => if isMeta c then '\\' :: c :: escape s else c :: escape s

end StepGlue.Regex
