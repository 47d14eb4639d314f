import StepGlue.Text.Blank

/-! The keywords that introduce a step. -/

namespace StepGlue

inductive Keyword
  | given | when | «then» | and | but | star
deriving DecidableEq, Repr, Inhabited

namespace Keyword

/-- The keyword as it is written in a feature file. -/
def text : Keyword → String
  | .given => "Given"
  | .when => "When"
  | .«then» => "Then"
  | .and => "And"
  | .but => "But"
  | .star => "*"

/-- The name of the keyword in exchanged data, where the star is spelled out. -/
def tag : Keyword → String
  | .star => "Star"
  | k => k.text

def all : List Keyword := [.given, .when, .«then», .and, .but, .star]

def ofTag? (s : String) : Option Keyword := all.find? (·.tag == s)

/-- A text that names no keyword, blanks at its ends removed. -/
structure Unknown where
  value : String
deriving DecidableEq, Repr

def Unknown.message (e : Unknown) : String := "invalid step keyword: " ++ e.value

/-- Reads a keyword, blanks around it and the case of its letters aside. -/
def parse (s : String) : Except Unknown Keyword :=
  let word := trim s.toList
  match all.find? fun k => eqIgnoringAsciiCase word k.text.toList with
  | some k => .ok k
  | none => .error ⟨String.ofList word⟩

end Keyword

end StepGlue
