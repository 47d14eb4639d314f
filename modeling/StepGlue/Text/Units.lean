/-! Lengths and offsets of a text in bytes of its UTF-8 form and in UTF-16 units. -/

namespace StepGlue

/-- The number of bytes that hold a text. -/
def byteLength : List Char → Nat
  | [] => 0
  | c :: s => c.utf8Size + byteLength s

/-- A character of the first plane takes one UTF-16 unit, any other takes two. -/
def utf16Width (c : Char) : Nat := if c.toNat ≤ 0xFFFF then 1 else 2

def utf16Length : List Char → Nat
  | [] => 0
  | c :: s => utf16Width c + utf16Length s

/-- A half-open range of byte offsets. -/
structure Span where
  start : Nat
  stop : Nat
deriving DecidableEq, Repr, Inhabited

/-- The part of a text that starts at a byte offset; `none` inside a character or past the end. -/
def dropBytes : Nat → List Char → Option (List Char)
  | 0, s => some s
  | _ + 1, [] => none
  | n + 1, c :: s => if c.utf8Size ≤ n + 1 then dropBytes (n + 1 - c.utf8Size) s else none

/-- The part of a text before a byte offset; `none` inside a character or past the end. -/
def takeBytes : Nat → List Char → Option (List Char)
  | 0, _ => some []
  | _ + 1, [] => none
  | n + 1, c :: s =>
    if c.utf8Size ≤ n + 1 then (takeBytes (n + 1 - c.utf8Size) s).map (c :: ·) else none

/-- The text of a span, if both ends stand between characters. -/
def Span.slice (p : Span) (s : List Char) : Option (List Char) :=
  (dropBytes p.start s).bind (takeBytes (p.stop - p.start))

/-- The number of line feeds of a text. -/
def lineFeeds (s : List Char) : Nat := s.count '\n'

/-- The byte offsets of the line feeds of a text whose first byte stands at a given offset. -/
def lineFeedOffsets : Nat → List Char → List Nat
  | _, [] => []
  | o, c :: s =>
    let later := lineFeedOffsets (o + c.utf8Size) s
    if c = '\n' then o :: later else later

end StepGlue
