import StepGlue.Text.Units

/-! The lines of a text. -/

namespace StepGlue

/-- The pieces of a text between line feeds: one more than there are line feeds. -/
def splitLines : List Char → List (List Char)
  | [] => [[]]
  | c :: s =>
    if c = '\n' then [] :: splitLines s
    else match splitLines s with
      | [] => [[c]]
      | l :: ls => (c :: l) :: ls

/-- Removes one carriage return at the end. -/
def dropReturn (s : List Char) : List Char :=
  if s.getLast? = some '\r' then s.dropLast else s

/-- Removes all carriage returns at the end. -/
def dropReturns (s : List Char) : List Char := (s.reverse.dropWhile (· == '\r')).reverse

/-- The lines of a text as a reader counts them: the piece after a last line feed is a line only
if it holds something, and a line feed takes one carriage return before it along. -/
def textLines (s : List Char) : List (List Char) :=
  let pieces := splitLines s
  pieces.dropLast.map dropReturn ++ pieces.getLast?.toList.filter (· ≠ [])

/-- Where the line feeds of a text are, for telling the line of a byte. -/
structure LineMap where
  breaks : List Nat

namespace LineMap

def ofText (s : List Char) : LineMap := ⟨lineFeedOffsets 0 s⟩

/-- The one-based line of a byte offset. Line feeds are listed in ascending order, so the first one
that is not before the offset tells how many are. -/
def lineOf (m : LineMap) (offset : Nat) : Nat := m.breaks.findIdx (offset ≤ ·) + 1

end LineMap

end StepGlue
