import StepGlue.Json.Reader
import StepGlue.Marker.Kind
import StepGlue.Pattern
import StepGlue.Step

/-! Values of the library read back from their JSON form. -/

namespace StepGlue

/-- The name of a case without contents: a string, or an object whose one field is null. -/
def Json.caseName? : Json → Option String
  | .str s => some s
  | .obj [(name, .null)] => some name
  | _ => none

/-- A field that has to be there exactly once. -/
def Json.oneField? (fields : List (String × Json)) (name : String) : Option Json :=
  match fields.filter (·.1 == name) with
  | [(_, v)] => some v
  | _ => none

def Json.string? : Json → Option String
  | .str s => some s
  | _ => none

def Json.nat? : Json → Option Nat
  | .int n => if 0 ≤ n then some n.toNat else none
  | _ => none

def Keyword.ofJson? (j : Json) : Option Keyword := j.caseName?.bind Keyword.ofTag?

def Severity.ofJson? (j : Json) : Option Severity := j.caseName?.bind Severity.ofId?

def MarkerKind.ofJson? (j : Json) : Option MarkerKind := j.caseName?.bind MarkerKind.ofId?

/-- The values of named fields, in order, from an object or from an array of just these. -/
def Json.record? (names : List String) : Json → Option (List Json)
  | .obj fields => names.mapM (Json.oneField? fields)
  | .arr items => if items.length = names.length then some items else none
  | _ => none

def Step.ofJson? (j : Json) : Option Step := do
  match ← j.record? ["keyword", "text", "line"] with
  | [keyword, text, line] => return ⟨← Keyword.ofJson? keyword, ← text.string?, ← line.nat?⟩
  | _ => none

def Pattern.ofJson? (j : Json) : Option Pattern := do
  match ← j.record? ["kind", "source"] with
  | [kind, source] =>
    match ← kind.caseName? with
    | "expression" => return .expression (← source.string?)
    | "regex" => return .regex (← source.string?)
    | _ => none
  | _ => none

end StepGlue
