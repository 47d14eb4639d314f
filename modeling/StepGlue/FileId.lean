import StepGlue.Text.Blank

/-! Paths and file identities.

A path text is cut at slashes; empty parts and single dots say nothing. A file identity is an
absolute path resolved by its text alone, so that one file has one identity however it was
written. Identities are ordered part by part, not as whole texts. -/

namespace StepGlue

/-- One part of a path: a step up, or a name. -/
inductive Segment
  | up
  | name (text : String)
deriving DecidableEq, Repr, Inhabited

namespace Segment

def text : Segment → String
  | .up => ".."
  | .name s => s

/-- A step up comes before every name, and names compare by their characters. -/
def cmp : Segment → Segment → Ordering
  | .up, .up => .eq
  | .up, .name _ => .lt
  | .name _, .up => .gt
  | .name a, .name b => compare a b

def ofText (s : List Char) : Segment :=
  if s = ['.', '.'] then .up else .name (String.ofList s)

end Segment

/-- Cuts a text at every slash, keeping empty parts. -/
def splitAtSlashes : List Char → List (List Char)
  | [] => [[]]
  | c :: s =>
    if c = '/' then [] :: splitAtSlashes s
    else match splitAtSlashes s with
      | [] => [[c]]
      | p :: ps => (c :: p) :: ps

/-- The parts of a path text that say something. -/
def pathSegments (s : String) : List Segment :=
  ((splitAtSlashes s.toList).filter fun p => p ≠ [] && p ≠ ['.']).map Segment.ofText

/-- Whether a path text starts at the root. -/
def isRooted (s : String) : Bool := s.toList.head? == some '/'

/-- Lexicographic order of part lists. -/
def compareSegments : List Segment → List Segment → Ordering
  | [], [] => .eq
  | [], _ :: _ => .lt
  | _ :: _, [] => .gt
  | a :: p, b :: q => (a.cmp b).then (compareSegments p q)

/-- The identity of a file: the parts of its absolute path. -/
structure FileId where
  segments : List Segment
deriving DecidableEq, Repr, Inhabited

/-- One part taken onto a path that is held with its last part first. A step up removes the part
before it, and is kept where there is none. -/
def pushSegment (path : List Segment) : Segment → List Segment
  | .name s => .name s :: path
  | .up => match path with
    | [] => [.up]
    | _ :: rest => rest

/-- Removes steps up together with the parts before them. -/
def resolveSegments (parts : List Segment) : List Segment := (parts.foldl pushSegment []).reverse

namespace FileId

/-- The identity that a path text names; relative paths start at the root. -/
def ofPath (path : String) : FileId := ⟨resolveSegments (pathSegments path)⟩

def cmp (a b : FileId) : Ordering := compareSegments a.segments b.segments

/-- The absolute path text of a file. -/
def fullPath (f : FileId) : String := "/" ++ "/".intercalate (f.segments.map Segment.text)

/-- The last name of the path, or the whole path if it has none. -/
def name (f : FileId) : String :=
  match f.segments.getLast? with
  | some (.name s) => s
  | _ => f.fullPath

/-- Whether a path lies at or below another one. -/
def isWithin (f root : FileId) : Bool := root.segments.isPrefixOf f.segments

end FileId

/-- What follows the last dot of a file name; a dot at the front starts no extension. -/
def nameExtension? (name : List Char) : Option (List Char) :=
  let tail := name.reverse.takeWhile (· ≠ '.')
  if tail.length + 1 < name.length then some tail.reverse else none

/-- The extension of the file that a list of parts names. -/
def segmentsExtension? (parts : List Segment) : Option String :=
  match parts.getLast? with
  | some (.name s) => (nameExtension? s.toList).map String.ofList
  | _ => none

/-- Compares an extension without regard to the case of ASCII letters. -/
def hasExtension (parts : List Segment) (extension : String) : Bool :=
  match segmentsExtension? parts with
  | some e => eqIgnoringAsciiCase e.toList extension.toList
  | none => false

def FileId.hasExtension (f : FileId) (extension : String) : Bool :=
  StepGlue.hasExtension f.segments extension

def FileId.isFeature (f : FileId) : Bool := f.hasExtension "feature"

end StepGlue
