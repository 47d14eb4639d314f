import StepGlue.Diagnostic
import StepGlue.Project.Root
import StepGlue.Url.Basic
import StepGlue.Workspace.Build

/-! A server: the projects that are open, and what its client has yet to be told.

Every path has at most one owner, the open project with the deepest root above it. Builds collect
the files whose markers have changed, and publishing empties that collection. -/

namespace StepGlue

/-- A project under the care of a server, with the markers of its files. -/
structure OpenProject where
  workspace : Workspace
  store : MarkerStore := {}

/-- The state of a server. -/
structure Server where
  config : Config := {}
  /-- Whether the client has said what it can do. -/
  hasCapabilities : Bool := false
  /-- The folders that the client has open. -/
  folders : List Url := []
  initialised : Bool := false
  /-- The open projects by their roots. -/
  projects : FileMap OpenProject := {}
  /-- The files whose markers have changed since the last publication, in order. -/
  changed : List FileId := []

/-- The findings on a file, as they are told to the client. -/
structure Publication where
  file : FileId
  diagnostics : List Diagnostic
deriving DecidableEq, Repr

def Publication.toJson (p : Publication) : Json :=
  .obj [("uri", .str p.file.url), ("diagnostics", .arr (p.diagnostics.map Diagnostic.toJson))]

/-- The deepest of some roots. -/
def deepest? : List FileId → Option FileId
  | [] => none
  | r :: rest => match deepest? rest with
    | some q => if r.segments.length ≤ q.segments.length then some q else some r
    | none => some r

namespace Server

def roots (s : Server) : List FileId := s.projects.keys

/-- Opens the project at a root, unless it is open. -/
def openProject (s : Server) (root : FileId) : Server :=
  if s.projects.contains root then s
  else
    let workspace : Workspace := { root, settings := .ofConfig s.config }
    { s with projects := s.projects.insert root { workspace } }

/-- The root of the open project that owns a file. -/
def ownerRoot? (s : Server) (f : FileId) : Option FileId :=
  deepest? (s.roots.filter (f.isWithin ·))

/-- The open project that owns a file. -/
def owner? (s : Server) (f : FileId) : Option OpenProject :=
  (s.ownerRoot? f).bind s.projects.get?

/-- The root that a path belongs to: that of its owner, else that of its project on disk, else
its directory. -/
def rootFor (s : Server) (t : FileTree) (path : String) : FileId :=
  match s.ownerRoot? (FileId.ofPath path) with
  | some root => root
  | none => FileId.ofPath <| match t.findProjectRoot path with
    | .ok dir => dir
    | .error _ => (parentPath? path).getD path

/-- The markers of a file in the form for the client. A file that nobody owns has none. -/
def diagnosticsOf (s : Server) (t : FileTree) (f : FileId) : List Diagnostic :=
  match s.owner? f with
  | none => []
  | some p =>
    let text := (p.workspace.sourceText t.read f).toOption
    (p.store.markersOf f).map (Marker.diagnostic text)

/-- Keeps what a build has left behind, and notes the files that it reports. -/
def settle (s : Server) (root : FileId) (store : MarkerStore) (b : Workspace.Built) : Server :=
  let (store, told) := store.run b.calls
  { s with
    projects := s.projects.insert root { workspace := b.workspace, store }
    changed := told.flatten.foldr insertFile s.changed }

/-- Changes the workspace of an open project before a build. -/
def updateWorkspace (s : Server) (root : FileId) (change : Workspace → Workspace) : Server :=
  match s.projects.get? root with
  | some p =>
    { s with projects := s.projects.insert root { p with workspace := change p.workspace } }
  | none => s

/-- Builds an open project. -/
def build (s : Server) (t : FileTree) (kind : BuildKind) (root : FileId) : Server :=
  match s.projects.get? root with
  | some p => s.settle root p.store (p.workspace.buildOn kind t)
  | none => s

/-- Looks at a file of an open project again, and says what has been built, if it is a
feature. -/
def recalculate (s : Server) (t : FileTree) (root file : FileId) :
    Server × FileTree × Option BuildReport :=
  match s.projects.get? root with
  | none => (s, t, none)
  | some p => match p.workspace.recalculateOn file t with
    | (t, some b) => (s.settle root p.store b, t, some b.report)
    | (t, none) => (s, t, none)

/-- Takes the changed files, in order, each with its present findings. -/
def publish (s : Server) (t : FileTree) : Server × List Publication :=
  ({ s with changed := [] }, s.changed.map fun f => ⟨f, s.diagnosticsOf t f⟩)

end Server

end StepGlue
