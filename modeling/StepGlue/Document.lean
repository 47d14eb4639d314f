import StepGlue.Text.Lines
import StepGlue.Text.Units

/-! A text seen line by line.

Lines are numbered from one and end before their line feed. A place in a document is found by
line and text; it is turned into an editor position, a zero-based line and a count of UTF-16
units, for display. -/

namespace StepGlue

/-- The byte offset of the first occurrence of a text in another one. -/
def findText (needle : List Char) : List Char → Option Nat
  | [] => if needle.isEmpty then some 0 else none
  | c :: s =>
    if needle.isPrefixOf (c :: s) then some 0
    else (findText needle s).map (c.utf8Size + ·)

/-- A line of a document: the offset of its first byte, and its characters without the line
feed. -/
structure Line where
  start : Nat
  raw : List Char
deriving DecidableEq, Repr, Inhabited

/-- The text of a line, less one carriage return at its end. -/
def Line.text (l : Line) : List Char := dropReturn l.raw

/-- A text with the offsets at which its lines start. -/
structure Document where
  text : String
  lineStarts : List Nat

namespace Document

def ofText (s : String) : Document := ⟨s, 0 :: (lineFeedOffsets 0 s.toList).map (· + 1)⟩

def lineCount (d : Document) : Nat := d.lineStarts.length

/-- The offset at which a line starts, by its one-based number. -/
def lineStart? (d : Document) : Nat → Option Nat
  | 0 => none
  | n + 1 => d.lineStarts[n]?

/-- The offset at which a line ends: before the line feed that opens the next line. -/
def lineEnd (d : Document) (n : Nat) : Nat :=
  match d.lineStart? (n + 1) with
  | none => byteLength d.text.toList
  | some next => next - 1

/-- A line by its one-based number, cut out of the text. -/
def line? (d : Document) (n : Nat) : Option Line :=
  (d.lineStart? n).bind fun start =>
    ((Span.mk start (d.lineEnd n)).slice d.text.toList).map (Line.mk start)

end Document

/-- Where a text stands on a line: at a span, on the line but not literally, or nowhere, because
there is no such line. -/
inductive Location
  | span (at_ : Span)
  | lineOnly
  | outOfRange
deriving DecidableEq, Repr

/-- Finds the first occurrence of a text on a line. -/
def Document.locate (d : Document) (line : Nat) (needle : String) : Location :=
  match d.line? line with
  | none => .outOfRange
  | some l => match findText needle.toList l.text with
    | none => .lineOnly
    | some i => .span ⟨l.start + i, l.start + i + byteLength needle.toList⟩

/-- An editor position. -/
structure Position where
  line : Nat
  character : Nat
deriving DecidableEq, Repr, Inhabited

/-- The position after one more character. -/
def Position.next (p : Position) (c : Char) : Position :=
  if c = '\n' then ⟨p.line + 1, 0⟩ else ⟨p.line, p.character + utf16Width c⟩

/-- The position reached from a given one by reading up to a byte offset. A character whose
first byte lies before the offset is read whole. -/
def Position.after : Position → List Char → Nat → Position
  | p, [], _ => p
  | p, _ :: _, 0 => p
  | p, c :: s, n + 1 => (p.next c).after s (n + 1 - c.utf8Size)

/-- The position of a byte offset; an offset past the end has the position of the end. -/
def positionAt (text : String) (offset : Nat) : Position :=
  Position.after ⟨0, 0⟩ text.toList offset

/-- An editor range. -/
structure Range where
  start : Position
  stop : Position
deriving DecidableEq, Repr, Inhabited

def rangeOfSpan (text : String) (p : Span) : Range :=
  ⟨positionAt text p.start, positionAt text p.stop⟩

/-- The UTF-16 length of a line by its zero-based number, carriage returns at its end aside; zero
for a line that is not there. -/
def lineLength (text : String) (line : Nat) : Nat :=
  match (splitLines text.toList)[line]? with
  | none => 0
  | some l => utf16Length (dropReturns l)

end StepGlue
