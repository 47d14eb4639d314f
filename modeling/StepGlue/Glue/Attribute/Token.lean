/-! The tokens of a source file, brackets already matched. -/

namespace StepGlue.Attribute

inductive Delimiter
  | paren | bracket | brace
deriving DecidableEq, Repr, Inhabited

namespace Delimiter

def opening : Delimiter → Char
  | .paren => '('
  | .bracket => '['
  | .brace => '{'

def closing : Delimiter → Char
  | .paren => ')'
  | .bracket => ']'
  | .brace => '}'

def all : List Delimiter := [.paren, .bracket, .brace]

/-- The delimiter as messages name it. -/
def name : Delimiter → String
  | .paren => "parentheses"
  | .bracket => "square brackets"
  | .brace => "curly braces"

end Delimiter

/-- A token with the line it starts on. A raw identifier keeps its mark, and a mark of punctuation
knows whether another one follows at once. -/
inductive Token
  | ident (text : String) (line : Nat)
  | punct (char : Char) (joint : Bool) (line : Nat)
  | text (value : String) (line : Nat)
  | literal (line : Nat)
  | group (delimiter : Delimiter) (inner : List Token) (opened closed : Nat)
deriving Repr, Inhabited

namespace Token

def line : Token → Nat
  | .ident _ n | .punct _ _ n | .text _ n | .literal n | .group _ _ n _ => n

mutual

/-- The number of tokens in a token, itself counted. -/
def weight : Token → Nat
  | .group _ inner _ _ => 1 + weightAll inner
  | _ => 1

def weightAll : List Token → Nat
  | [] => 0
  | t :: ts => t.weight + weightAll ts

end

end Token

end StepGlue.Attribute
