import StepGlue.Feature.Grammar
import StepGlue.Feature.Outline
import StepGlue.Text.Lines

/-! What a feature file holds for matching: plain steps, and outlines with their rows. -/

namespace StepGlue

structure FeatureIndex where
  steps : List Step := []
  outlines : List Outline := []
deriving DecidableEq, Repr, Inhabited

def FeatureIndex.append (a b : FeatureIndex) : FeatureIndex :=
  ⟨a.steps ++ b.steps, a.outlines ++ b.outlines⟩

def StepRole.keyword : StepRole → Keyword
  | .given => .given
  | .when => .when
  | .«then» => .«then»

/-- A step's keyword is the one it is written with, or that of its role if it is written in
another language. -/
def StepNode.step (lines : LineMap) (n : StepNode) : Step where
  keyword := match Keyword.parse n.keyword with
    | .ok k => k
    | .error _ => n.role.keyword
  text := n.text
  line := lines.lineOf n.start

/-- The lines of those pieces that start with a bar, blanks aside. The first piece starts at a given
offset, and a line feed stands after each. -/
def barLines (lines : LineMap) : Nat → List (List Char) → List Nat
  | _, [] => []
  | offset, piece :: more =>
    let later := barLines lines (offset + byteLength piece + 1) more
    if (trimStart piece).head? = some '|' then lines.lineOf offset :: later else later

/-- Gives each row of cells a line: the next one of the list, or the line after the one before. -/
def rowsAt (header : List String) : Nat → List Nat → List (List String) → List ExampleRow
  | _, _, [] => []
  | last, lines, cells :: more =>
    let line := lines.headD (last + 1)
    ⟨line, lastEntries (header.zip cells)⟩ :: rowsAt header line lines.tail more

/-- The rows of a table below its header. -/
def Table.exampleRows (lines : LineMap) (text : List Char) (t : Table) : List ExampleRow :=
  match t.rows with
  | [] => []
  | header :: data =>
    let rowLines := match t.span.slice text with
      | none => []
      | some piece => barLines lines t.span.start (splitLines piece)
    rowsAt header (lines.lineOf t.span.start) rowLines.tail data

/-- A scenario with example rows is an outline; without, its steps stand as they are. -/
def Scenario.index (lines : LineMap) (text : List Char) (s : Scenario) : FeatureIndex :=
  let steps := s.steps.map (StepNode.step lines)
  match s.examples.flatMap (Table.exampleRows lines text) with
  | [] => { steps }
  | rows => { outlines := [⟨steps, rows⟩] }

def indexScenarios (lines : LineMap) (text : List Char) (background : List StepNode)
    (scenarios : List Scenario) : FeatureIndex :=
  scenarios.foldl (fun i s => i.append (s.index lines text))
    { steps := background.map (StepNode.step lines) }

def Feature.index (text : List Char) (f : Feature) : FeatureIndex :=
  let lines := LineMap.ofText text
  f.rules.foldl (fun i r => i.append (indexScenarios lines text r.background r.scenarios))
    (indexScenarios lines text f.background f.scenarios)

/-- A text with a line feed at its end. -/
def terminated (s : List Char) : List Char := if s.getLast? = some '\n' then s else s ++ ['\n']

/-- Reads and indexes a feature file. -/
def indexFeature (source : String) : Except FeatureError FeatureIndex := do
  let text := terminated source.toList
  return (← Feature.parse text).index text

end StepGlue
