import StepGlue.FileId
import StepGlue.Glue.Annotation
import StepGlue.Glue.Attribute.Steps

/-! The readers of step definitions, by the kind of file that they read. -/

namespace StepGlue

/-- A reader for the files of an extension. -/
structure Extractor where
  name : String
  extension : String
  extract : String → Except GlueError GlueSteps

namespace Extractor

def handles (e : Extractor) (path : List Segment) : Bool := hasExtension path e.extension

/-- Definitions as attributes of functions. -/
def attributes : Extractor := ⟨"rust", "rs", Attribute.extract⟩

/-- Definitions as annotations of methods. -/
def annotations : Extractor := ⟨"java", "java", Annotation.extract⟩

def all : List Extractor := [attributes, annotations]

/-- The first reader of a list that handles a path. -/
def find? (extractors : List Extractor) (path : List Segment) : Option Extractor :=
  extractors.find? (·.handles path)

end Extractor

end StepGlue
