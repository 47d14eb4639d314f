import StepGlue.FileTree

/-! The files of a project that are worth looking at. -/

namespace StepGlue

/-- Directories that hold products of a build. -/
def skippedNames : List String := ["target", "node_modules"]

/-- Whether a directory is passed over: build products, and names that start with a dot. -/
def isSkipped (name : String) : Bool :=
  name.toList.head? == some '.' || skippedNames.contains name

/-- Lexicographic order of paths by their parts. -/
def comparePlaces : Place → Place → Ordering
  | [], [] => .eq
  | [], _ :: _ => .lt
  | _ :: _, [] => .gt
  | a :: p, b :: q => (compare a b).then (comparePlaces p q)

namespace FileTree

/-- The files below a directory that are no larger than a limit, each by the names that lead to
it. Links are followed, but not to a directory that is being walked, and no more than a number of
levels down. -/
def walk (t : FileTree) (limit : Nat) : Nat → List Place → Place → Place → List Place
  | 0, _, _, _ => []
  | levels + 1, above, dir, path =>
    (t.children dir).flatMap fun (name, node) =>
      let descend (d : Place) : List Place :=
        if isSkipped name then [] else t.walk limit levels (d :: above) d (path ++ [name])
      let keep (content : ByteArray) : List Place :=
        if content.size ≤ limit then [path ++ [name]] else []
      match node with
      | .file content _ => keep content
      | .directory => descend (dir ++ [name])
      | .link _ => match t.follow maxLinks dir [.name name] with
        | .ok (_, .file content _) => keep content
        | .ok (d, _) => if above.contains d then [] else descend d
        | .error _ => []

/-- The files at or below a path in the order of their names; the names are those below the
path. -/
def scan (t : FileTree) (root : List Segment) (limit : Nat) : List Place :=
  match t.locate root with
  | .ok (_, .file content _) => if content.size ≤ limit then [[]] else []
  | .ok (d, _) =>
    let levels := (t.nodes.length + 1) * (t.nodes.length + 1)
    (t.walk limit levels [d] d []).mergeSort fun a b => comparePlaces a b != .gt
  | .error _ => []

end FileTree

/-- A path text with names added to it. -/
def joinPath (path : String) (names : Place) : String :=
  names.foldl (fun p n => if p.toList.getLast? = some '/' then p ++ n else p ++ "/" ++ n) path

end StepGlue
