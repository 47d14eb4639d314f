import StepGlue.FileId

/-! Maps and sets of files, held in the order of their identities. -/

namespace StepGlue

/-- Puts a value at a file, in place of the one that stood there. -/
def insertEntry {α : Type} (f : FileId) (a : α) : List (FileId × α) → List (FileId × α)
  | [] => [(f, a)]
  | (g, b) :: rest =>
    match f.cmp g with
    | .lt => (f, a) :: (g, b) :: rest
    | .eq => (f, a) :: rest
    | .gt => (g, b) :: insertEntry f a rest

/-- A finite map from files. -/
structure FileMap (α : Type) where
  entries : List (FileId × α) := []
deriving Repr

namespace FileMap

variable {α : Type}

instance : Inhabited (FileMap α) := ⟨{}⟩

def get? (m : FileMap α) (f : FileId) : Option α := (m.entries.find? (·.1 == f)).map (·.2)

def contains (m : FileMap α) (f : FileId) : Bool := m.entries.any (·.1 == f)

def insert (m : FileMap α) (f : FileId) (a : α) : FileMap α := ⟨insertEntry f a m.entries⟩

def erase (m : FileMap α) (f : FileId) : FileMap α := ⟨m.entries.filter (·.1 != f)⟩

def keys (m : FileMap α) : List FileId := m.entries.map (·.1)

def values (m : FileMap α) : List α := m.entries.map (·.2)

end FileMap

/-- Puts a file into an ordered list of files, if it is not yet there. -/
def insertFile (f : FileId) : List FileId → List FileId
  | [] => [f]
  | g :: rest =>
    match f.cmp g with
    | .lt => f :: g :: rest
    | .eq => g :: rest
    | .gt => g :: insertFile f rest

/-- The files of a list in order, each once. -/
def sortFiles (files : List FileId) : List FileId := files.foldr insertFile []

end StepGlue
