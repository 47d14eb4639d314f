import StepGlue.FileId
import StepGlue.Keyword
import StepGlue.Pattern

/-! Step definitions, and the ones that a step text matches. -/

namespace StepGlue

/-- A step definition: a pattern that compiles, and where it is written. -/
structure Definition where
  pattern : Pattern
  regex : Regex.Compiled
  file : FileId
  line : Nat
  keyword : Option Keyword

namespace Definition

def ofPattern (pattern : Pattern) (file : FileId) (line : Nat) (keyword : Option Keyword) :
    Except PatternError Definition := do
  return ⟨pattern, ← pattern.compile, file, line, keyword⟩

/-- Two definitions are the same if they put the same pattern at the same place; the keyword has
no say. -/
def same (a b : Definition) : Bool :=
  a.line == b.line && a.file == b.file && a.pattern == b.pattern

def accepts (d : Definition) (text : String) : Bool := d.regex.isMatch text

/-- The file's name and the line. -/
def shortLocation (d : Definition) : String := d.file.name ++ ":" ++ toString d.line

/-- The file's path and the line. -/
def fullLocation (d : Definition) : String := d.file.fullPath ++ ":" ++ toString d.line

/-- Of definitions that are the same, the first stays. -/
def firstOccurrences : List Definition → List Definition
  | [] => []
  | d :: ds => d :: (firstOccurrences ds).filter fun e => !d.same e

end Definition

/-- What a step text matches. -/
inductive Outcome
  | unmatched
  | single (d : Definition)
  | multiple (ds : List Definition)

namespace Outcome

def definitions : Outcome → List Definition
  | .unmatched => []
  | .single d => [d]
  | .multiple ds => ds

def isMatched : Outcome → Bool
  | .unmatched => false
  | _ => true

def name : Outcome → String
  | .unmatched => "none"
  | .single _ => "single"
  | .multiple _ => "multiple"

end Outcome

/-- The definitions that accept a text, in their order. -/
def matchStep (text : String) (definitions : List Definition) : Outcome :=
  match definitions.filter (·.accepts text) with
  | [] => .unmatched
  | [d] => .single d
  | ds => .multiple ds

end StepGlue
