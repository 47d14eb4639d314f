import StepGlue.Config
import StepGlue.FileTree
import StepGlue.Glue.Extractor
import StepGlue.Project.Scan
import StepGlue.Repository

/-! A project that is kept up to date build by build. -/

namespace StepGlue

structure BuildSettings where
  reportMatches : Bool
  maxFileBytes : Nat
deriving DecidableEq, Repr

def BuildSettings.ofConfig (c : Config) : BuildSettings := ⟨c.reportMatches, c.maxFileBytes⟩

/-- The state of a project between builds. -/
structure Workspace where
  root : FileId
  settings : BuildSettings
  extractors : List Extractor := Extractor.all
  repository : Repository := {}
  /-- The modification stamps that the last build saw. -/
  stamps : FileMap (Option Nat) := {}
  /-- Files that the next build takes as changed. -/
  forced : List FileId := []
  /-- Texts that stand in for files in the next build. -/
  overlays : FileMap String := {}

/-- What a build sees of the file system: the files of the project in order, their texts and
their stamps. -/
structure Snapshot where
  files : List FileId
  read : FileId → Except ReadError String
  stamp : FileId → Option Nat

def FileTree.snapshot (t : FileTree) (root : FileId) (limit : Nat) : Snapshot where
  files := (t.scan root.segments limit).map fun p => ⟨root.segments ++ p.map .name⟩
  read := t.read
  stamp := t.stamp?

/-- What a file of a project is to a build. -/
inductive SourceKind
  | feature
  | glue (e : Extractor)

def SourceKind.isFeature : SourceKind → Bool
  | .feature => true
  | .glue _ => false

namespace Workspace

/-- A feature file, or a file that an extractor handles. -/
def classify (w : Workspace) (f : FileId) : Option SourceKind :=
  if f.isFeature then some .feature
  else (Extractor.find? w.extractors f.segments).map .glue

def isGlueFile (w : Workspace) (path : List Segment) : Bool :=
  (Extractor.find? w.extractors path).isSome

def contains (w : Workspace) (f : FileId) : Bool := f.isWithin w.root

def setOverlay (w : Workspace) (f : FileId) (text : String) : Workspace :=
  { w with overlays := w.overlays.insert f text }

def markDirty (w : Workspace) (f : FileId) : Workspace :=
  { w with forced := insertFile f w.forced }

/-- The text of a file: its overlay, or what the file system has. -/
def sourceText (w : Workspace) (read : FileId → Except ReadError String) (f : FileId) :
    Except ReadError String :=
  match w.overlays.get? f with
  | some text => .ok text
  | none => read f

end Workspace

end StepGlue
