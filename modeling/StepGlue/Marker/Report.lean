import StepGlue.Definition
import StepGlue.Document
import StepGlue.Marker.Store
import StepGlue.Step

/-! The markers that a project's findings become.

Each finding is one batch of store calls. A finding on a line that the document does not have
leaves no marker, and its batch is empty. -/

namespace StepGlue

/-- A batch around calls. -/
def inBatch (calls : List StoreCall) : List StoreCall :=
  .beginBatch :: (calls ++ [.endBatch])

/-- The batch that places a marker, or none. -/
def placing (file : FileId) (marker : Option Marker) : List StoreCall :=
  inBatch (marker.toList.map (.add file))

/-- Takes all markers off a file. -/
def cleaning (file : FileId) : List StoreCall := [.delete file MarkerKind.all]

def gherkinErrorMarker (message : String) (line : Nat) : Marker :=
  .ofKind .gherkinSyntaxError message line none []

def stepdefErrorMarker (message : String) (line : Nat) : Marker :=
  .ofKind .stepdefSyntaxError message line none []

/-- Builds a marker at the place of a text on a line, if the line is there. -/
def Document.markAt (doc : Document) (line : Nat) (text : String)
    (build : Option Span → Marker) : Option Marker :=
  match doc.locate line text with
  | .span p => some (build (some p))
  | .lineOnly => some (build none)
  | .outOfRange => none

def stepAttribute : String := "unmatched_step.step"

def pathAttribute : String := "unmatched_step.path"

def duplicatesAttribute : String := "duplicates"

/-- A step without a definition; the step and the path travel along as attributes. -/
def unmatchedMarker (file : FileId) (doc : Document) (step : Step) : Option Marker :=
  doc.markAt step.line step.text fun span =>
    .ofKind .unmatchedStep ("Step '" ++ step.text ++ "' does not have a matching glue code")
      step.line span
      [(pathAttribute, file.fullPath), (stepAttribute, step.toJson.compact)]

/-- A step with several definitions. -/
def multipleMarker (doc : Document) (step : Step) (ds : List Definition) : Option Marker :=
  doc.markAt step.line step.text fun span =>
    .ofKind .multipleStepDefinitions
      ("Step '" ++ step.text ++ "' have more than one glue code: "
        ++ ",".intercalate (ds.map Definition.shortLocation))
      step.line span
      [(duplicatesAttribute, ",".intercalate (ds.map Definition.fullLocation))]

/-- A step with one definition. -/
def matchedMarker (doc : Document) (step : Step) (d : Definition) : Option Marker :=
  doc.markAt step.line step.text fun span =>
    .ofKind .stepMatched ("Glued with " ++ d.shortLocation) step.line span []

/-- An example row with which some step has no definition. -/
def exampleMarker (doc : Document) (line : Nat) : Option Marker :=
  match doc.line? line with
  | none => none
  | some l =>
    let row := String.ofList (trim l.text)
    doc.markAt line row fun span =>
      .ofKind .exampleUnmatch ("No compatible step definition with " ++ row) line span []

/-- What is said about a step: a single match is only worth a marker if matches are reported. -/
def reportOutcome (reportMatches : Bool) (file : FileId) (doc : Document) (step : Step) :
    Outcome → List StoreCall
  | .unmatched => placing file (unmatchedMarker file doc step)
  | .single d => if reportMatches then placing file (matchedMarker doc step d) else []
  | .multiple ds => placing file (multipleMarker doc step ds)

end StepGlue
