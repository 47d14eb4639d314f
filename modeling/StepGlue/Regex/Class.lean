/-! Sets of characters as ascending lists of code point ranges. -/

namespace StepGlue.Regex

/-- A set of characters: inclusive ranges of code points, ascending, with gaps between them. -/
abbrev CharClass := List (Nat × Nat)

namespace CharClass

def contains (s : CharClass) (c : Char) : Bool :=
  s.any fun r => r.1 ≤ c.toNat && c.toNat ≤ r.2

/-- The ranges of two lists in ascending order of their starts. -/
def interleave : List (Nat × Nat) → List (Nat × Nat) → List (Nat × Nat)
  | [], b => b
  | a, [] => a
  | r :: a, q :: b =>
    if r.1 ≤ q.1 then r :: interleave a (q :: b) else q :: interleave (r :: a) b
termination_by a b => a.length + b.length

/-- Joins ranges in one pass, the last joined range held apart. -/
def joinFrom (r : Nat × Nat) : List (Nat × Nat) → CharClass
  | [] => [r]
  | q :: qs =>
    if q.1 ≤ r.2 + 1 then joinFrom (r.1, max r.2 q.2) qs else r :: joinFrom q qs

def join : List (Nat × Nat) → CharClass
  | [] => []
  | r :: rs => joinFrom r rs

def union (a b : CharClass) : CharClass := join (interleave a b)

/-- The set of the ranges of a list in any order. -/
def ofRanges (rs : List (Nat × Nat)) : CharClass :=
  join (rs.mergeSort fun a b => a.1 ≤ b.1)

/-- The ranges between those of a set, from a given code point on. -/
def gapsFrom (start : Nat) : CharClass → List (Nat × Nat)
  | [] => if start ≤ 0x10FFFF then [(start, 0x10FFFF)] else []
  | r :: rs =>
    if start < r.1 then (start, r.1 - 1) :: gapsFrom (r.2 + 1) rs else gapsFrom (r.2 + 1) rs

/-- The characters that are not in a set. -/
def complement (s : CharClass) : CharClass := gapsFrom 0 (union s [(0xD800, 0xDFFF)])

def inter (a b : CharClass) : CharClass := complement (union (complement a) (complement b))

def diff (a b : CharClass) : CharClass := inter a (complement b)

def symmDiff (a b : CharClass) : CharClass := union (diff a b) (diff b a)

def single (c : Char) : CharClass := [(c.toNat, c.toNat)]

def anyChar : CharClass := complement []

end CharClass

/-- The value of a digit of base 36. -/
def digit36 (c : Char) : Nat := if c.isDigit then c.toNat - 48 else c.toNat - 87

/-- Reads ranges from pairs of numbers of base 36: the distance from the end of the last range,
and the number of further characters in this one. -/
def decodePairs : Nat → List (List Char) → CharClass
  | start, gap :: more :: rest =>
    let value := fun (s : List Char) => s.foldl (fun n c => 36 * n + digit36 c) 0
    let lo := start + value gap
    let hi := lo + value more
    (lo, hi) :: decodePairs (hi + 1) rest
  | _, _ => []

/-- The words of a text, cut at single spaces. -/
def spacedWords : List Char → List (List Char)
  | [] => [[]]
  | c :: s =>
    if c = ' ' then [] :: spacedWords s
    else match spacedWords s with
      | [] => [[c]]
      | w :: ws => (c :: w) :: ws

/-- The ranges of a table that is cut into lines. -/
def decodeRanges (lines : List String) : CharClass :=
  decodePairs 0 (lines.flatMap fun line => spacedWords line.toList)

end StepGlue.Regex
