import StepGlue.Regex.Expr
import StepGlue.Regex.Tree

/-! How large a compiled pattern is.

A pattern is compiled twice into a machine that reads bytes: once to read a text forwards, and
once to read it backwards. Only the forward machine has states for the ends of groups. A state
takes a fixed number of bytes, and one with several successors takes more for each of them. -/

namespace StepGlue.Regex

/-- The bytes of a state. -/
def stateSize : Nat := 32

/-- The bytes for each way out of a state that branches without reading. -/
def branchSize : Nat := 4

/-- The bytes for each way out of a state that reads a byte. -/
def transitionSize : Nat := 8

/-- The state in which something starts that may be skipped or done again. -/
def forkSize : Nat := stateSize + 2 * branchSize

/-- A range of bytes at one place of a character. -/
abbrev ByteRange := Nat × Nat

/-- How the code points of a range are written with some bytes after the first one. The range is
cut where a byte after the first one would not run from its least to its greatest value. -/
def byteRuns (mark : Nat) : Nat → Nat → Nat → List (List ByteRange)
  | 0, lo, hi => [[(mark + lo, mark + hi)]]
  | n + 1, lo, hi =>
    let block := Nat.pow 64 (n + 1)
    let a := lo / block
    let b := hi / block
    let inside (lead first last : Nat) : List (List ByteRange) :=
      (byteRuns 0x80 n (first % block) (last % block)).map ((mark + lead, mark + lead) :: ·)
    if a = b then inside a lo hi
    else
      let cutsLow := lo % block != 0
      let cutsHigh := hi % block != block - 1
      let first := if cutsLow then a + 1 else a
      let last := if cutsHigh then b - 1 else b
      (if cutsLow then inside a lo (block - 1) else [])
        ++ (if first ≤ last then
            [(mark + first, mark + last) :: List.replicate (n + 1) (0x80, 0xBF)] else [])
        ++ (if cutsHigh then inside b 0 hi else [])

/-- The first code point, the last one, the number of bytes after the first one and the mark on
the first one, by the length of characters. Surrogates are no characters. -/
def byteForms : List (Nat × Nat × Nat × Nat) :=
  [(0, 0x7F, 0, 0), (0x80, 0x7FF, 1, 0xC0), (0x800, 0xD7FF, 2, 0xE0), (0xE000, 0xFFFF, 2, 0xE0),
    (0x10000, 0x10FFFF, 3, 0xF0)]

/-- The characters of a set, as sequences of byte ranges in ascending order. -/
def CharClass.byteSequences (s : CharClass) : List (List ByteRange) :=
  s.flatMap fun (lo, hi) => byteForms.flatMap fun (least, greatest, n, mark) =>
    let a := max lo least
    let b := min hi greatest
    if a ≤ b then byteRuns mark n a b else []

/-- How many first ranges two sequences share. -/
def sharedLength : List ByteRange → List ByteRange → Nat
  | a :: s, b :: t => if a = b then sharedLength s t + 1 else 0
  | _, _ => 0

/-- The number of different beginnings of some ascending sequences. -/
def beginnings (before : List ByteRange) : List (List ByteRange) → Nat
  | [] => 0
  | s :: rest => s.length - sharedLength before s + beginnings s rest

/-- A set of one character. -/
def CharClass.isSingle : CharClass → Bool
  | [(lo, hi)] => lo == hi
  | _ => false

/-- The bytes of a backward machine for a set of characters. Sequences with the same beginning
share it. A set of ASCII characters takes one state, and one character as many as it has
bytes. -/
def CharClass.backwardSize (s : CharClass) : Nat :=
  let sequences := s.byteSequences
  if s.isSingle then stateSize * (sequences.flatMap id).length
  else if s.all (·.2 ≤ 0x7F) then 2 * stateSize + transitionSize * s.length
  else 2 * stateSize + stateSize * beginnings [] sequences + branchSize * sequences.length

/-- What may follow each of the first ranges of some sequences. -/
def followers : List (List ByteRange) → List (List (List ByteRange))
  | [] => []
  | [] :: rest => followers rest
  | (r :: tail) :: rest =>
    match followers rest, rest with
    | group :: groups, (q :: _) :: _ =>
      if r = q then (tail :: group) :: groups else [tail] :: group :: groups
    | groups, _ => [tail] :: groups

/-- The states that read some sequences, each given by what is left to be read there. -/
def readingStates : Nat → List (List ByteRange) → List (List (List ByteRange))
  | 0, _ => []
  | n + 1, sequences =>
    sequences :: ((followers sequences).filter (· != [[]])).flatMap (readingStates n)

/-- The most bytes that a character takes. -/
def maxCharBytes : Nat := 4

/-- The bytes of a forward machine for a set of characters. States with the same ends share
them. -/
def CharClass.forwardSize (s : CharClass) : Nat :=
  let sequences := s.byteSequences
  if s.isSingle || s.all (·.2 ≤ 0x7F) then s.backwardSize
  else
    (readingStates maxCharBytes sequences).eraseDups.foldl
      (fun n state => n + stateSize + transitionSize * (followers state).length) stateSize

/-- Whether an expression only ever spans nothing. -/
def Expr.isNarrow : Expr → Bool
  | .empty | .look _ => true
  | .chars _ => false
  | .seq a b | .alt a b => a.isNarrow && b.isNarrow
  | .rep _ most e => most == some 0 || e.isNarrow

/-- The bytes of a repetition of something of a given size. -/
def repetitionSize (least : Nat) (most : Option Nat) (size : Nat) : Nat :=
  match most with
  | none => max 1 least * size + forkSize
  | some n =>
    if n = least then max stateSize (n * size)
    else least * size + stateSize + (n - least) * (size + forkSize)

/-- The bounds of a repetition; to repeat what spans nothing adds nothing. -/
def repetitionBounds (least : Nat) (most : Option Nat) (narrow : Bool) : Nat × Option Nat :=
  if narrow then (min least 1, some ((most.map (min · 1)).getD 1)) else (least, most)

/-- The bytes of a machine for an expression, by the bytes for sets of characters. -/
def Expr.machineSize (classSize : CharClass → Nat) : Expr → Nat
  | .empty => stateSize
  | .chars s => classSize s
  | .look _ => stateSize
  | .seq a b => a.machineSize classSize + b.machineSize classSize
  | .alt a b =>
    2 * stateSize + 2 * branchSize + a.machineSize classSize + b.machineSize classSize
  | .rep least most e =>
    let (least, most) := repetitionBounds least most e.isNarrow
    repetitionSize least most (e.machineSize classSize)

/-- How many groups that remember what they span a pattern has, repeated ones counted as often as
they are compiled. -/
def Tree.captures : Tree → Nat
  | .repetition _ least most item => max least (most.getD 1) * item.captures
  | .group _ kind body => (if kind = .capturing then 1 else 0) + body.captures
  | .alternation _ branches => capturesOf branches
  | .sequence _ items => capturesOf items
  | _ => 0
where
  capturesOf : List Tree → Nat
    | [] => 0
    | t :: ts => t.captures + capturesOf ts

/-- The bytes of the larger of the two machines of a pattern. Without groups this is the backward
one, which shares less. -/
def compiledSize (tree : Tree) (e : Expr) : Nat :=
  let backward := e.machineSize CharClass.backwardSize
  if tree.captures = 0 then backward
  else max backward (e.machineSize CharClass.forwardSize + 2 * stateSize * tree.captures)

end StepGlue.Regex
