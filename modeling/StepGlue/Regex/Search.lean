import StepGlue.Regex.Expr

/-! Deciding whether a regular expression matches a text.

From a set of places where an expression may start, the set of places where it may end is
computed by recursion on the expression. A repetition without a bound stops when it reaches no
new place, which happens after at most as many rounds as the text has places. -/

namespace StepGlue.Regex

/-- The union of two ascending lists of places. -/
def mergePlaces : List Nat → List Nat → List Nat
  | [], b => b
  | a, [] => a
  | i :: a, j :: b =>
    if i < j then i :: mergePlaces a (j :: b)
    else if j < i then j :: mergePlaces (i :: a) b
    else i :: mergePlaces a b
termination_by a b => a.length + b.length

/-- The places of an ascending list that are not in another one. -/
def freshPlaces : List Nat → List Nat → List Nat
  | [], _ => []
  | a, [] => a
  | i :: a, j :: b =>
    if i < j then i :: freshPlaces a (j :: b)
    else if j < i then freshPlaces (i :: a) b
    else freshPlaces a b
termination_by a b => a.length + b.length

/-- Takes a step a number of times. -/
def iterate (step : List Nat → List Nat) : Nat → List Nat → List Nat
  | 0, s => s
  | n + 1, s => if s.isEmpty then s else iterate step n (step s)

/-- The places reached by at most a number of steps: `seen` holds those found so far, and only
the places of the last round are looked at again. -/
def reach (step : List Nat → List Nat) : Nat → List Nat → List Nat → List Nat
  | 0, seen, _ => seen
  | n + 1, seen, last =>
    let fresh := freshPlaces (step last) seen
    if fresh.isEmpty then seen else reach step n (mergePlaces seen fresh) fresh

/-- The places where an expression may end that starts at one of some places. -/
def ends (text : Array Char) : Expr → List Nat → List Nat
  | .empty, s => s
  | .chars cs, s =>
    s.filterMap fun i => if (text[i]?).any cs.contains then some (i + 1) else none
  | .look l, s => s.filter fun i => l.holds text i
  | .seq a b, s => ends text b (ends text a s)
  | .alt a b, s => mergePlaces (ends text a s) (ends text b s)
  | .rep least most e, s =>
    let start := iterate (ends text e) least s
    let rounds := match most with
      | none => text.size + 1
      | some n => n - least
    reach (ends text e) rounds start start

/-- Whether an expression spans some part of a text. -/
def isMatch (e : Expr) (text : String) : Bool :=
  let chars := text.toList.toArray
  !(ends chars e (List.range (chars.size + 1))).isEmpty

end StepGlue.Regex
