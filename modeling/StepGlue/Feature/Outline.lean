import StepGlue.Step
import StepGlue.Text.Blank

/-! Scenario outlines, and their steps filled in from example rows. -/

namespace StepGlue

/-- The values of a row by header. -/
structure ExampleRow where
  line : Nat
  values : List (String × String)
deriving DecidableEq, Repr, Inhabited

def ExampleRow.value? (r : ExampleRow) (header : String) : Option String :=
  (r.values.find? (·.1 == header)).map (·.2)

/-- Of entries with equal names the last one stays. -/
def lastEntries : List (String × String) → List (String × String)
  | [] => []
  | e :: es => if es.any (·.1 == e.1) then lastEntries es else e :: lastEntries es

structure Outline where
  steps : List Step
  rows : List ExampleRow
deriving DecidableEq, Repr, Inhabited

/-- The characters of a name between angle brackets. -/
def isPlaceholderChar (c : Char) : Bool := c != '>' && !isBlank c

/-- The name in front of a closing bracket, and what follows the bracket. -/
def placeholder? (s : List Char) : Option (List Char × List Char) :=
  match s.takeWhile isPlaceholderChar, s.dropWhile isPlaceholderChar with
  | [], _ => none
  | name, '>' :: rest => some (name, rest)
  | _, _ => none

theorem placeholder?_length {s name rest : List Char} (h : placeholder? s = some (name, rest)) :
    rest.length < s.length := by
  unfold placeholder? at h
  split at h
  · cases h
  · rename_i hd _
    cases h
    have := (List.dropWhile_sublist (l := s) isPlaceholderChar).length_le
    rw [hd, List.length_cons] at this
    omega
  · cases h

/-- Replaces the placeholders of a text from left to right; one without a value stays. -/
def substitute (value? : String → Option String) : List Char → List Char
  | [] => []
  | c :: s =>
    if c = '<' then
      match _h : placeholder? s with
      | some (name, rest) =>
        (match value? (String.ofList name) with
          | some v => v.toList
          | none => '<' :: (name ++ ['>'])) ++ substitute value? rest
      | none => c :: substitute value? s
    else c :: substitute value? s
termination_by s => s.length
decreasing_by
  · have hr := placeholder?_length _h
    simp only [List.length_cons]
    omega
  all_goals simp only [List.length_cons]; omega

/-- The steps of an outline with a row's values filled in. -/
def Outline.expand (o : Outline) (row : ExampleRow) : List Step :=
  o.steps.map fun s => { s with text := String.ofList (substitute row.value? s.text.toList) }

end StepGlue
