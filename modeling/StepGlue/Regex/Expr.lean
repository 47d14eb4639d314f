import StepGlue.Regex.Class

/-! Regular expressions over characters, and what it means that one spans a part of a text. -/

namespace StepGlue.Regex

/-- Conditions on the words at a place: whether a word character stands before it, and after. -/
inductive WordLook
  | boundary | notBoundary | start | stop | startHalf | stopHalf
deriving DecidableEq, Repr

/-- Conditions on a place of a text. -/
inductive Look
  | textStart | textEnd
  | lineStart | lineEnd
  | crlfStart | crlfEnd
  | word (kind : WordLook) (chars : CharClass)
deriving Repr

inductive Expr
  | empty
  | chars (s : CharClass)
  | look (l : Look)
  | seq (a b : Expr)
  | alt (a b : Expr)
  | rep (least : Nat) (most : Option Nat) (e : Expr)
deriving Repr

def WordLook.holds (before after : Bool) : WordLook → Bool
  | .boundary => before != after
  | .notBoundary => before == after
  | .start => !before && after
  | .stop => before && !after
  | .startHalf => !before
  | .stopHalf => !after

/-- Whether a condition holds at a place, given by the number of characters before it. -/
def Look.holds (text : Array Char) (i : Nat) : Look → Bool
  | .textStart => i == 0
  | .textEnd => i == text.size
  | .lineStart => i == 0 || text[i - 1]? == some '\n'
  | .lineEnd => text[i]? == none || text[i]? == some '\n'
  | .crlfStart =>
    i == 0 || text[i - 1]? == some '\n'
      || (text[i - 1]? == some '\r' && text[i]? != some '\n')
  | .crlfEnd =>
    text[i]? == none || text[i]? == some '\r'
      || (text[i]? == some '\n' && (i == 0 || text[i - 1]? != some '\r'))
  | .word kind chars =>
    let before := i != 0 && (text[i - 1]?).any chars.contains
    let after := (text[i]?).any chars.contains
    kind.holds before after

/-- The expression spans the text from one place to another. -/
inductive Spans (text : Array Char) : Expr → Nat → Nat → Prop
  | empty (i : Nat) : Spans text .empty i i
  | chars {s : CharClass} {i : Nat} {c : Char} (h : text[i]? = some c)
      (hc : s.contains c = true) : Spans text (.chars s) i (i + 1)
  | look {l : Look} {i : Nat} (h : l.holds text i = true) : Spans text (.look l) i i
  | seq {a b : Expr} {i j k : Nat} (ha : Spans text a i j) (hb : Spans text b j k) :
      Spans text (.seq a b) i k
  | altLeft {a b : Expr} {i j : Nat} (h : Spans text a i j) : Spans text (.alt a b) i j
  | altRight {a b : Expr} {i j : Nat} (h : Spans text b i j) : Spans text (.alt a b) i j
  | repDone {most : Option Nat} {e : Expr} {i : Nat} : Spans text (.rep 0 most e) i i
  | repMore {least : Nat} {most : Option Nat} {e : Expr} {i j k : Nat}
      (hm : most ≠ some 0) (h : Spans text e i j)
      (hr : Spans text (.rep (least - 1) (most.map (· - 1)) e) j k) :
      Spans text (.rep least most e) i k

/-- The expression spans some part of the text. -/
def Matches (e : Expr) (text : Array Char) : Prop :=
  ∃ i j, i ≤ text.size ∧ Spans text e i j

end StepGlue.Regex
