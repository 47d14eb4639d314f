import StepGlue.Feature.Index
import StepGlue.Marker.Report
import StepGlue.Workspace.Basic

/-! Building a project: reading the glue that changed, and marking the features that this
concerns.

A build is a function of the workspace and of a snapshot of the file system. What it has to say
to the marker store it returns as a list of calls, so no answer of the store can change it. -/

namespace StepGlue

inductive BuildKind
  | full | incremental
deriving DecidableEq, Repr

/-- How many files a build has looked at. -/
structure BuildReport where
  glueFiles : Nat := 0
  featureFiles : Nat := 0
  removedFiles : Nat := 0
deriving DecidableEq, Repr

def BuildReport.toJson (r : BuildReport) : Json :=
  .obj [("glueFiles", .int r.glueFiles), ("featureFiles", .int r.featureFiles),
    ("removedFiles", .int r.removedFiles)]

/-- The definitions of a glue file whose patterns compile, and markers for the others. -/
def compileSteps (file : FileId) : List GlueStep → List Definition × List Marker
  | [] => ([], [])
  | s :: rest =>
    let (definitions, markers) := compileSteps file rest
    match Definition.ofPattern s.pattern file s.line s.keyword with
    | .ok d => (d :: definitions, markers)
    | .error e =>
      (definitions, stepdefErrorMarker
        ("Invalid step pattern '" ++ s.pattern.source ++ "': " ++ e.message) s.line :: markers)

/-- Reads a glue file: the definitions that it now contributes, if it can be understood, and the
calls that mark what is wrong with it. A file that cannot be read keeps its markers. -/
def indexGlue (e : Extractor) (file : FileId) (text : Except ReadError String) :
    Option (List Definition) × List StoreCall :=
  match text with
  | .error _ => (none, [])
  | .ok source => match e.extract source with
    | .error err =>
      (none, inBatch (cleaning file ++ placing file (stepdefErrorMarker err.message err.line)))
    | .ok found =>
      let (definitions, invalid) := compileSteps file found.steps
      let rejected := found.rejected.map fun err => stepdefErrorMarker err.message err.line
      (some definitions,
        inBatch (cleaning file ++ (rejected ++ invalid).flatMap fun m => placing file (some m)))

/-- What is known of a step of an outline: the definitions of the first row that gives it several,
once there is such a row. -/
abbrev Slot := Option (List Definition)

/-- A slot keeps what it holds; several definitions fill it if it is free. -/
def Slot.note (slot : Slot) : Outcome → Slot
  | .multiple ds => slot.or (some ds)
  | .unmatched | .single _ => slot

/-- The slots of an outline's steps, each beside what its step matches with a row filled in. -/
def meetRow (definitions : List Definition) (o : Outline) (slots : List Slot) (row : ExampleRow) :
    List (Slot × Outcome) :=
  slots.zip ((o.expand row).map fun s => matchStep s.text definitions)

/-- Goes through rows of an outline: marks those with which some step has no definition, and
returns the slots as they are after the last one. -/
def reportRows (file : FileId) (doc : Document) (definitions : List Definition) (o : Outline) :
    List Slot → List ExampleRow → List Slot × List StoreCall
  | slots, [] => (slots, [])
  | slots, row :: rows =>
    let met := meetRow definitions o slots row
    let calls :=
      if met.any fun (_, outcome) => !outcome.isMatched then
        placing file (exampleMarker doc row.line)
      else []
    let (slots, more) := reportRows file doc definitions o
      (met.map fun (slot, outcome) => slot.note outcome) rows
    (slots, calls ++ more)

/-- The markers of an outline: rows without a match, then the steps whose slots have been
filled. -/
def reportOutline (file : FileId) (doc : Document) (definitions : List Definition) (o : Outline) :
    List StoreCall :=
  let (slots, calls) := reportRows file doc definitions o (o.steps.map fun _ => none) o.rows
  calls ++ (o.steps.zip slots).flatMap fun (s, slot) =>
    match slot with
    | some ds => placing file (multipleMarker doc s ds)
    | none => []

/-- The markers of a feature file whose text is known. -/
def reportFeature (reportMatches : Bool) (file : FileId) (definitions : List Definition)
    (source : String) : List StoreCall :=
  match indexFeature source with
  | .error e => placing file (gherkinErrorMarker e.message e.line)
  | .ok index =>
    let doc := Document.ofText source
    (index.steps.flatMap fun s =>
        reportOutcome reportMatches file doc s (matchStep s.text definitions))
      ++ index.outlines.flatMap (reportOutline file doc definitions)

namespace Workspace

/-- Marks a feature file anew; one that cannot be read loses its markers. -/
def recomputeFeature (w : Workspace) (read : FileId → Except ReadError String) (file : FileId) :
    List StoreCall :=
  inBatch (cleaning file ++ match w.sourceText read file with
    | .error _ => []
    | .ok source =>
      reportFeature w.settings.reportMatches file w.repository.definitions source)

/-- A build under way: the workspace, whether glue has changed, the features that have changed,
and the counts and calls so far. -/
structure Progress where
  workspace : Workspace
  glueChanged : Bool := false
  features : List FileId := []
  report : BuildReport := {}
  calls : List StoreCall := []

namespace Progress

/-- Forgets a file that is no longer in the project. -/
def forget (p : Progress) (file : FileId) : Progress :=
  let w := p.workspace
  let contributes := w.repository.contributes file
  { p with
    workspace := { w with
      stamps := w.stamps.erase file
      repository := if contributes then w.repository.put file [] else w.repository }
    glueChanged := p.glueChanged || contributes
    report := { p.report with removedFiles := p.report.removedFiles + 1 }
    calls := p.calls ++ cleaning file }

/-- Whether a build has to look at a file. -/
def isChanged (w : Workspace) (s : Snapshot) (file : FileId) : Bool :=
  w.forced.contains file || w.overlays.contains file
    || w.stamps.get? file != some (s.stamp file)

/-- Looks at a file of the project: notes its stamp, and if it has changed, reads it as glue or
puts it down as a changed feature. -/
def visit (s : Snapshot) (p : Progress) (file : FileId) (kind : SourceKind) : Progress :=
  let w := p.workspace
  let noted := { w with stamps := w.stamps.insert file (s.stamp file) }
  if isChanged w s file then
    match kind with
    | .feature => { p with workspace := noted, features := p.features ++ [file] }
    | .glue e =>
      let (definitions, calls) := indexGlue e file (w.sourceText s.read file)
      { p with
        workspace := match definitions with
          | some ds => { noted with repository := w.repository.put file ds }
          | none => noted
        glueChanged := true
        report := { p.report with glueFiles := p.report.glueFiles + 1 }
        calls := p.calls ++ calls }
  else { p with workspace := noted }

end Progress

/-- The features that a build marks anew, of the files that it has looked at: all of them when
glue has changed, otherwise those that have changed themselves. -/
def Progress.toMark (p : Progress) (sources : List (FileId × SourceKind)) : List FileId :=
  if p.glueChanged then (sources.filter (·.2.isFeature)).map (·.1) else p.features

/-- The files that a build looks at, in order, each with what it is. -/
def sources (w : Workspace) (s : Snapshot) : List (FileId × SourceKind) :=
  (sortFiles s.files).filterMap fun f => (w.classify f).map fun k => (f, k)

/-- The files of the last build that are no longer in the project. -/
def gone (w : Workspace) (s : Snapshot) : List FileId :=
  let current := w.sources s
  w.stamps.keys.filter fun f => !current.any (·.1 == f)

/-- The start of a build: files that are gone are forgotten, and by a full build all that was
known. -/
def cleared (w : Workspace) (kind : BuildKind) (s : Snapshot) : Progress :=
  let p := (w.gone s).foldl Progress.forget { workspace := w }
  match kind with
  | .full => { p with workspace := { p.workspace with repository := {}, stamps := {} } }
  | .incremental => p

/-- A build that has looked at every file. -/
def surveyed (w : Workspace) (kind : BuildKind) (s : Snapshot) : Progress :=
  (w.sources s).foldl (fun p (f, k) => p.visit s f k) (w.cleared kind s)

/-- What a build leaves behind. -/
structure Built where
  workspace : Workspace
  report : BuildReport
  calls : List StoreCall

/-- Brings the project up to date. A full build forgets what it knew first. When glue has changed,
all features are marked anew, otherwise those that have changed themselves. -/
def build (w : Workspace) (kind : BuildKind) (s : Snapshot) : Built :=
  let p := w.surveyed kind s
  let features := p.toMark (w.sources s)
  let marks := features.flatMap (p.workspace.recomputeFeature s.read)
  { workspace := { p.workspace with overlays := {}, forced := [] }
    report := { p.report with featureFiles := features.length }
    calls := p.calls ++ marks }

/-- A workspace that is about to look at a feature again. Touching the file has given it a stamp,
or nothing: unless the stamp is new, the file is taken as changed. -/
def recalculating (w : Workspace) (file : FileId) (touched : Option Nat) : Workspace :=
  let isNew := touched.isSome && touched != (w.stamps.get? file).join
  if isNew then w else w.markDirty file

/-- Rebuilds after a request to look at a feature again; anything else is ignored. -/
def recalculate (w : Workspace) (file : FileId) (touched : Option Nat) (s : Snapshot) :
    Option Built :=
  if file.isFeature then some ((w.recalculating file touched).build .incremental s) else none

/-- A build on a file tree. -/
def buildOn (w : Workspace) (kind : BuildKind) (t : FileTree) : Built :=
  w.build kind (t.snapshot w.root w.settings.maxFileBytes)

/-- Touches a feature of a file tree and rebuilds. -/
def recalculateOn (w : Workspace) (file : FileId) (t : FileTree) : FileTree × Option Built :=
  if file.isFeature then
    let (t, touched) := t.touch file
    (t, w.recalculate file touched (t.snapshot w.root w.settings.maxFileBytes))
  else (t, none)

end Workspace

end StepGlue
