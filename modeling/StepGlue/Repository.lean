import StepGlue.Definition
import StepGlue.FileMap

/-! The step definitions of a project, by the file that contributes them. -/

namespace StepGlue

/-- The definitions of each contributing file. A file without definitions has no entry. -/
structure Repository where
  entries : FileMap (List Definition) := {}

namespace Repository

instance : Inhabited Repository := ⟨{}⟩

/-- Replaces what a file contributes. -/
def put (r : Repository) (file : FileId) (definitions : List Definition) : Repository :=
  match Definition.firstOccurrences definitions with
  | [] => ⟨r.entries.erase file⟩
  | ds => ⟨r.entries.insert file ds⟩

def files (r : Repository) : List FileId := r.entries.keys

/-- The definitions of all files, in the order of the files. -/
def definitions (r : Repository) : List Definition :=
  Definition.firstOccurrences r.entries.values.flatten

def definitionsFor (r : Repository) (file : FileId) : List Definition :=
  (r.entries.get? file).getD []

def contributes (r : Repository) (file : FileId) : Bool := r.entries.contains file

end Repository

end StepGlue
