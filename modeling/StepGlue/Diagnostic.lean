import StepGlue.Document
import StepGlue.Json
import StepGlue.Marker.Basic
import StepGlue.Text.Word

/-! Markers as an editor shows them. -/

namespace StepGlue

/-- The largest line number that an editor position can hold. -/
def maxEditorLine : Nat := word32 - 1

/-- The range of a marker: its span, the whole line if the text is known, or the start of the
line. -/
def Marker.range (text : Option String) (m : Marker) : Range :=
  let line := min (m.line - 1) maxEditorLine
  match text, m.span with
  | some t, some p => rangeOfSpan t p
  | some t, none =>
    let length := if 0 < m.line then lineLength t (m.line - 1) else 0
    ⟨⟨line, 0⟩, ⟨line, length⟩⟩
  | none, _ => ⟨⟨line, 0⟩, ⟨line, 0⟩⟩

/-- The number of a severity among editors. -/
def Severity.level : Severity → Nat
  | .error => 1
  | .warning => 2
  | .info => 3

def diagnosticSource : String := "cuke-glue"

/-- A finding in the form that an editor takes. -/
structure Diagnostic where
  range : Range
  severity : Severity
  code : String
  message : String
  data : List (String × String)
deriving DecidableEq, Repr

def Marker.diagnostic (text : Option String) (m : Marker) : Diagnostic :=
  ⟨m.range text, m.severity, m.kind.id, m.message, m.attributes⟩

def Position.toJson (p : Position) : Json :=
  .obj [("line", .int p.line), ("character", .int p.character)]

def Range.toJson (r : Range) : Json := .obj [("start", r.start.toJson), ("end", r.stop.toJson)]

/-- The data field is only written if there is something in it. -/
def Diagnostic.toJson (d : Diagnostic) : Json :=
  .obj ([("range", d.range.toJson), ("severity", .int d.severity.level), ("code", .str d.code),
    ("source", .str diagnosticSource), ("message", .str d.message)]
    ++ if d.data.isEmpty then []
      else [("data", .obj (d.data.map fun (k, v) => (k, .str v)))])

end StepGlue
