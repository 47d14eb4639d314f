/-! The tree that a regular expression is read into. Every node keeps the region of the pattern
that it came from, so that a complaint can point at it. -/

namespace StepGlue.Regex

/-- A stretch of a pattern, counted in characters. -/
structure Region where
  start : Nat
  stop : Nat
deriving DecidableEq, Repr, Inhabited

inductive Flag
  | caseInsensitive | multiLine | dotAll | crlf | swapGreed | unicode | ignoreSpace
deriving DecidableEq, Repr

/-- One letter of a group of flags, or the minus sign that turns the letters after it off. -/
inductive FlagItem
  | minus
  | flag (f : Flag)
deriving DecidableEq, Repr

/-- Whether a list of flags turns a flag on or off; `none` if it does not mention it. -/
def flagState (f : Flag) : List FlagItem → Option Bool :=
  go true
where
  go (on : Bool) : List FlagItem → Option Bool
    | [] => none
    | .minus :: rest => go false rest
    | .flag g :: rest => if g = f then some on else go on rest

/-- A condition on a place of the text. -/
inductive Assertion
  | lineStart | lineEnd | textStart | textEnd
  | wordBoundary | notWordBoundary
  | wordStart | wordEnd | wordStartHalf | wordEndHalf
deriving DecidableEq, Repr

inductive Shorthand
  | digit | space | word
deriving DecidableEq, Repr

/-- A character that stands for itself. `isByte` marks the two-digit hexadecimal form, which
means a byte where characters are bytes. -/
structure Literal where
  region : Region
  char : Char
  isByte : Bool
deriving DecidableEq, Repr

/-- A named set of characters: one name, or a property and its value. -/
inductive ClassName
  | name (text : String)
  | value (property value : String)
deriving DecidableEq, Repr

inductive SetOp
  | inter | diff | symmDiff
deriving DecidableEq, Repr

/-- The names that may stand between brackets and colons inside a bracketed class. -/
inductive AsciiName
  | alnum | alpha | ascii | blank | cntrl | digit | graph | lower | print | punct | space | upper
  | word | xdigit
deriving DecidableEq, Repr

/-- What a bracketed class is made of. -/
inductive ClassTree
  | empty (region : Region)
  | literal (l : Literal)
  | range (region : Region) (first last : Literal)
  | ascii (region : Region) (name : AsciiName) (negated : Bool)
  | named (region : Region) (name : ClassName) (negated : Bool)
  | shorthand (region : Region) (kind : Shorthand) (negated : Bool)
  | bracketed (region : Region) (negated : Bool) (inner : ClassTree)
  | union (region : Region) (items : List ClassTree)
  | op (region : Region) (kind : SetOp) (left right : ClassTree)
deriving Repr

def ClassTree.region : ClassTree → Region
  | .empty r | .range r _ _ | .ascii r _ _ | .named r _ _ | .shorthand r _ _
  | .bracketed r _ _ | .union r _ | .op r _ _ _ => r
  | .literal l => l.region

/-- A group that remembers what it spans, or one that may change flags. -/
inductive GroupKind
  | capturing
  | flagged (items : List FlagItem)
deriving DecidableEq, Repr

def GroupKind.flags : GroupKind → List FlagItem
  | .capturing => []
  | .flagged items => items

inductive Tree
  | empty (region : Region)
  | flags (region : Region) (items : List FlagItem)
  | literal (l : Literal)
  | dot (region : Region)
  | assertion (region : Region) (kind : Assertion)
  | named (region : Region) (name : ClassName) (negated : Bool)
  | shorthand (region : Region) (kind : Shorthand) (negated : Bool)
  | bracketed (region : Region) (negated : Bool) (inner : ClassTree)
  | repetition (region : Region) (least : Nat) (most : Option Nat) (item : Tree)
  | group (region : Region) (kind : GroupKind) (body : Tree)
  | alternation (region : Region) (branches : List Tree)
  | sequence (region : Region) (items : List Tree)
deriving Repr

def Tree.region : Tree → Region
  | .empty r | .flags r _ | .dot r | .assertion r _ | .named r _ _ | .shorthand r _ _
  | .bracketed r _ _ | .repetition r _ _ _ | .group r _ _ | .alternation r _
  | .sequence r _ => r
  | .literal l => l.region

end StepGlue.Regex
