import StepGlue.FileId

/-! A file system as a value: what stands at each path.

Paths are resolved as a kernel does it: part by part, through links, a step up from a directory
leading to its parent, wherever a link led to it. -/

namespace StepGlue

/-- Why a file cannot be read. -/
inductive ReadError
  | notFound | invalidData | isADirectory | notADirectory | filesystemLoop
deriving DecidableEq, Repr

def ReadError.name : ReadError → String
  | .notFound => "NotFound"
  | .invalidData => "InvalidData"
  | .isADirectory => "IsADirectory"
  | .notADirectory => "NotADirectory"
  | .filesystemLoop => "FilesystemLoop"

/-- What stands at a path. A file has a modification stamp. -/
inductive FileNode
  | file (content : ByteArray) (stamp : Nat)
  | directory
  | link (target : String)
deriving Inhabited

/-- A place in the tree: the names that lead to it from the root, none of them a link. -/
abbrev Place := List String

/-- The nodes below the root by place, and the present time. -/
structure FileTree where
  nodes : List (Place × FileNode) := []
  clock : Nat := 0

namespace FileTree

instance : Inhabited FileTree := ⟨{}⟩

def node? (t : FileTree) (p : Place) : Option FileNode :=
  if p.isEmpty then some .directory else (t.nodes.find? (·.1 == p)).map (·.2)

/-- How many links a path may lead through. -/
def maxLinks : Nat := 40

/-- Follows a path from a directory. -/
def follow (t : FileTree) (links : Nat) (dir : Place) (path : List Segment) :
    Except ReadError (Place × FileNode) :=
  match path with
  | [] => .ok (dir, .directory)
  | .up :: rest => t.follow links dir.dropLast rest
  | .name n :: rest =>
    let p := dir ++ [n]
    match t.node? p with
    | none => .error .notFound
    | some .directory => t.follow links p rest
    | some (.file content stamp) =>
      if rest.isEmpty then .ok (p, .file content stamp) else .error .notADirectory
    | some (.link target) =>
      match links with
      | 0 => .error .filesystemLoop
      | links + 1 =>
        t.follow links (if isRooted target then [] else dir) (pathSegments target ++ rest)
termination_by (links, path.length)

/-- The file or directory that an absolute path leads to. -/
def locate (t : FileTree) (path : List Segment) : Except ReadError (Place × FileNode) :=
  t.follow maxLinks [] path

def fileExists (t : FileTree) (path : List Segment) : Bool := (t.locate path).isOk

def isDirectory (t : FileTree) (path : List Segment) : Bool :=
  match t.locate path with
  | .ok (_, .directory) => true
  | _ => false

/-- The text of a file. -/
def read (t : FileTree) (f : FileId) : Except ReadError String := do
  match ← t.locate f.segments with
  | (_, .file content _) => match String.fromUTF8? content with
    | some text => .ok text
    | none => .error .invalidData
  | _ => .error .isADirectory

/-- The modification stamp of a file. -/
def stamp? (t : FileTree) (f : FileId) : Option Nat :=
  match t.locate f.segments with
  | .ok (_, .file _ stamp) => some stamp
  | .ok _ => some 0
  | .error _ => none

def setNode (t : FileTree) (p : Place) (n : FileNode) : FileTree :=
  { t with nodes := t.nodes.filter (·.1 != p) ++ [(p, n)] }

/-- Makes the directories of a place that are not yet there. -/
def makeDirectories (t : FileTree) (p : Place) : FileTree :=
  (List.range p.length).foldl (fun t n =>
    let d := p.take (n + 1)
    if (t.node? d).isSome then t else t.setNode d .directory) t

/-- Where a file of a path is to be written: at the end of its links. -/
def target (t : FileTree) (path : List Segment) : Place :=
  match t.locate path with
  | .ok (p, _) => p
  | .error _ => match t.locate path.dropLast with
    | .ok (d, _) => d ++ path.getLast?.toList.map Segment.text
    | .error _ => path.map Segment.text

/-- Writes a file, with its directories. -/
def write (t : FileTree) (path : List Segment) (content : ByteArray) (stamp : Nat) : FileTree :=
  let p := t.target path
  (t.makeDirectories p.dropLast).setNode p (.file content stamp)

/-- Sets the stamp of a file, if there is one that can be opened. -/
def setStamp (t : FileTree) (f : FileId) (stamp : Nat) : Option FileTree :=
  match t.locate f.segments with
  | .ok (p, .file content _) => some (t.setNode p (.file content stamp))
  | _ => none

/-- Sets the stamp of a file to the present time; no two times are the same. -/
def touch (t : FileTree) (f : FileId) : FileTree × Option Nat :=
  let now := t.clock + 1
  match t.setStamp f now with
  | some t => ({ t with clock := now }, some now)
  | none => (t, none)

/-- A place without following a link at its end. -/
def entry (t : FileTree) (path : List Segment) : Place :=
  match t.locate path.dropLast with
  | .ok (d, _) => d ++ path.getLast?.toList.map Segment.text
  | .error _ => path.map Segment.text

/-- Removes a file, a link or a directory with all that is below it. -/
def remove (t : FileTree) (path : List Segment) : FileTree :=
  let p := t.entry path
  { t with nodes := t.nodes.filter fun e => !p.isPrefixOf e.1 }

/-- Moves a file, a link or a directory with all that is below it. -/
def rename (t : FileTree) (source goal : List Segment) : FileTree :=
  let p := t.entry source
  let q := t.entry goal
  let moved := t.nodes.filterMap fun (r, n) =>
    if p.isPrefixOf r then some (q ++ r.drop p.length, n) else none
  { t with nodes := (t.nodes.filter fun e => !p.isPrefixOf e.1 && !q.isPrefixOf e.1) ++ moved }

def makeLink (t : FileTree) (path : List Segment) (target : String) : FileTree :=
  let p := t.entry path
  (t.makeDirectories p.dropLast).setNode p (.link target)

def makeDirectory (t : FileTree) (path : List Segment) : FileTree :=
  t.makeDirectories (t.target path)

/-- The names and nodes of a directory. -/
def children (t : FileTree) (dir : Place) : List (String × FileNode) :=
  t.nodes.filterMap fun (p, n) =>
    match p.getLast? with
    | some name => if p.dropLast = dir then some (name, n) else none
    | none => none

end FileTree

end StepGlue
