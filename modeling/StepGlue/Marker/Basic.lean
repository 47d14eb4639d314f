import StepGlue.Marker.Kind
import StepGlue.Text.Units

/-! Markers: what is reported about a line of a file. -/

namespace StepGlue

/-- A report on a line, on a part of it if there is a span. -/
structure Marker where
  kind : MarkerKind
  severity : Severity
  message : String
  line : Nat
  span : Option Span := none
  attributes : List (String × String) := []
deriving DecidableEq, Repr

/-- A marker with the usual severity of its kind. -/
def Marker.ofKind (kind : MarkerKind) (message : String) (line : Nat)
    (span : Option Span) (attributes : List (String × String)) : Marker :=
  ⟨kind, kind.severity, message, line, span, attributes⟩

end StepGlue
