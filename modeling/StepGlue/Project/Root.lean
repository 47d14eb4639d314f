import StepGlue.FileTree
import StepGlue.Project.Scan

/-! Finding the root directory of the project that a path belongs to. -/

namespace StepGlue

/-- Files and directories that stand at the root of a project. -/
def rootMarkers : List String :=
  ["Cargo.toml", "pom.xml", "build.gradle", "build.gradle.kts", ".git"]

/-- Removes parts at the end of a path that say nothing. -/
def dropIdleParts (parts : List (List Char)) : List (List Char) :=
  (parts.reverse.dropWhile fun p => p == [] || p == ['.']).reverse

/-- The path text without its last part; `none` if it has no part. -/
def parentPath? (path : String) : Option String :=
  match dropIdleParts (splitAtSlashes path.toList) with
  | [] => none
  | parts =>
    let rest := dropIdleParts parts.dropLast
    if rest.isEmpty then some (if isRooted path then "/" else "")
    else some (String.ofList (List.intercalate ['/'] rest))

/-- A path and the paths above it, the nearest first. Each step takes away at least one
character. -/
def ancestorPaths : Nat → String → List String
  | 0, path => [path]
  | n + 1, path => path :: match parentPath? path with
    | some p => ancestorPaths n p
    | none => []

/-- No directory from here on upwards is the root of a project. -/
structure DiscoveryError where
  start : String
deriving DecidableEq, Repr

def DiscoveryError.message (e : DiscoveryError) : String :=
  "project discovery failed: no project marker found in " ++ e.start ++ " or any parent directory"

namespace FileTree

def hasRootMarker (t : FileTree) (dir : String) : Bool :=
  rootMarkers.any fun m => t.fileExists (pathSegments (joinPath dir [m]))

/-- The nearest directory with a root marker, from the directory of a path upwards. -/
def findProjectRoot (t : FileTree) (path : String) : Except DiscoveryError String :=
  let start := if t.isDirectory (pathSegments path) then path else (parentPath? path).getD path
  match (ancestorPaths start.length start).find? t.hasRootMarker with
  | some dir => .ok dir
  | none => .error ⟨start⟩

end FileTree

end StepGlue
