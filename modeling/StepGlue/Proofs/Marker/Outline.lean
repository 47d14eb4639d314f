import Mathlib.Data.List.Basic
import StepGlue.Workspace.Build

/-! Outlines are looked at row by row, with a slot for each step that keeps the definitions of
the first row that makes the step ambiguous. After the last row, each slot holds what a search
through the rows for its step alone would have found. -/

namespace StepGlue

/-- The several definitions of an outcome. -/
def Outcome.ambiguity? : Outcome → Option (List Definition)
  | .multiple ds => some ds
  | .unmatched | .single _ => none

/-- The first of some example rows with which a step of an outline has several definitions. The
step is given by its place in the outline. -/
def firstAmbiguous (definitions : List Definition) (o : Outline) (i : Nat) :
    Option (List Definition) :=
  o.rows.findSome? fun row =>
    match (o.expand row)[i]?.map fun s => matchStep s.text definitions with
    | some (.multiple ds) => some ds
    | _ => none

/-- Whether with an example row some step has no definition. -/
def rowUnmatched (definitions : List Definition) (o : Outline) (row : ExampleRow) : Bool :=
  (o.expand row).any fun s => !(matchStep s.text definitions).isMatched

theorem Slot.note_eq (slot : Slot) (outcome : Outcome) :
    slot.note outcome = slot.or outcome.ambiguity? := by
  cases outcome <;> simp [note, Outcome.ambiguity?]

variable {definitions : List Definition} {o : Outline} {slots : List Slot}

theorem length_expand (o : Outline) (row : ExampleRow) : (o.expand row).length = o.steps.length :=
  List.length_map _

theorem length_noted (definitions : List Definition) (h : slots.length = o.steps.length)
    (row : ExampleRow) :
    ((meetRow definitions o slots row).map fun (slot, outcome) => slot.note outcome).length =
      o.steps.length := by
  simp [meetRow, length_expand, h]

/-- No step is left out when the slots are put beside the steps. -/
theorem any_meetRow (h : slots.length = o.steps.length) (row : ExampleRow) :
    ((meetRow definitions o slots row).any fun (_, outcome) => !outcome.isMatched) =
      rowUnmatched definitions o row := by
  have hsnd : (meetRow definitions o slots row).map Prod.snd =
      (o.expand row).map fun s => matchStep s.text definitions :=
    List.map_snd_zip (by simp [length_expand, h])
  have hany := congrArg (List.any · fun outcome => !outcome.isMatched) hsnd
  simp only [List.any_map, Function.comp_def] at hany
  exact hany

theorem firstAmbiguous_cons (definitions : List Definition) (steps : List Step) (row : ExampleRow)
    (rows : List ExampleRow) (i : Nat) :
    firstAmbiguous definitions ⟨steps, row :: rows⟩ i =
      (firstAmbiguous definitions ⟨steps, [row]⟩ i).or
        (firstAmbiguous definitions ⟨steps, rows⟩ i) := by
  change List.findSome? _ ([row] ++ rows) = _
  rw [List.findSome?_append]
  rfl

theorem firstAmbiguous_singleton (definitions : List Definition) (o : Outline) (row : ExampleRow)
    (i : Nat) : firstAmbiguous definitions ⟨o.steps, [row]⟩ i =
      ((o.expand row)[i]?.map fun s => matchStep s.text definitions).bind Outcome.ambiguity? := by
  unfold firstAmbiguous
  rw [List.findSome?_singleton]
  change (match (o.expand row)[i]?.map fun s => matchStep s.text definitions with
    | some (.multiple ds) => some ds
    | _ => none) = _
  generalize (o.expand row)[i]?.map (fun s => matchStep s.text definitions) = outcome
  rcases outcome with _ | _ | _ | _ <;> rfl

/-- One row: a slot that is free takes up what the row has for its step. -/
theorem getElem?_noted (h : slots.length = o.steps.length) (row : ExampleRow) (i : Nat) :
    ((meetRow definitions o slots row).map fun (slot, outcome) => slot.note outcome)[i]? =
      slots[i]?.map (·.or (firstAmbiguous definitions ⟨o.steps, [row]⟩ i)) := by
  rw [firstAmbiguous_singleton, meetRow, List.map_zip_eq_zipWith, List.getElem?_zipWith,
    List.getElem?_map]
  by_cases hi : i < o.steps.length
  · have hslot : i < slots.length := h ▸ hi
    have hstep : i < (o.expand row).length := (length_expand o row).symm ▸ hi
    rw [List.getElem?_eq_getElem hslot, List.getElem?_eq_getElem hstep]
    exact congrArg some (Slot.note_eq _ _)
  · have hslot : slots.length ≤ i := by omega
    rw [List.getElem?_eq_none hslot]
    rfl

section Rows

variable (file : FileId) (doc : Document)

/-- All rows: what is kept is the first row that has anything for the step. -/
theorem getElem?_reportRows (h : slots.length = o.steps.length) (rows : List ExampleRow)
    (i : Nat) : (reportRows file doc definitions o slots rows).1[i]? =
      slots[i]?.map (·.or (firstAmbiguous definitions ⟨o.steps, rows⟩ i)) := by
  induction rows generalizing slots with
  | nil =>
    simp [reportRows, firstAmbiguous]
  | cons row rows ih =>
    have hrest := ih (length_noted definitions h row)
    rw [getElem?_noted h] at hrest
    refine hrest.trans ?_
    rw [firstAmbiguous_cons definitions o.steps row rows, Option.map_map]
    cases slots[i]? with
    | none => rfl
    | some slot => exact congrArg some Option.or_assoc

theorem reportRows_calls (h : slots.length = o.steps.length) (rows : List ExampleRow) :
    (reportRows file doc definitions o slots rows).2 =
      (rows.filter (rowUnmatched definitions o)).flatMap fun r =>
        placing file (exampleMarker doc r.line) := by
  induction rows generalizing slots with
  | nil => rfl
  | cons row rows ih =>
    have hrest := ih (length_noted definitions h row)
    simp only [reportRows, any_meetRow h, hrest]
    cases hr : rowUnmatched definitions o row <;> simp [hr]

/-- An outline is reported as if each step were looked for on its own: the rows that leave a step
without a definition, then the steps that some row makes ambiguous. -/
theorem reportOutline_eq (definitions : List Definition) (o : Outline) :
    reportOutline file doc definitions o =
      ((o.rows.filter (rowUnmatched definitions o)).flatMap fun r =>
          placing file (exampleMarker doc r.line))
        ++ (o.steps.zipIdx.filterMap fun (s, i) =>
            (firstAmbiguous definitions o i).map fun ds => (s, ds)).flatMap
          fun (s, ds) => placing file (multipleMarker doc s ds) := by
  have hlen : (o.steps.map fun _ => (none : Slot)).length = o.steps.length := List.length_map _
  have hslots : o.steps.zip
      (reportRows file doc definitions o (o.steps.map fun _ => none) o.rows).1 =
      o.steps.zipIdx.map fun (s, i) => (s, firstAmbiguous definitions o i) := by
    refine List.ext_getElem? fun i => ?_
    rw [List.getElem?_map, List.getElem?_zipIdx, List.zip, List.getElem?_zipWith,
      getElem?_reportRows file doc hlen, List.getElem?_map]
    cases o.steps[i]? with
    | none => rfl
    | some s => simp
  unfold reportOutline
  dsimp only
  rw [reportRows_calls file doc hlen, hslots, List.flatMap_map,
    List.filterMap_eq_flatMap_toList, List.flatMap_assoc]
  refine congrArg (_ ++ ·) (List.flatMap_congr fun a _ => ?_)
  dsimp only
  cases firstAmbiguous definitions o a.2 with
  | none => rfl
  | some ds => simp

end Rows

end StepGlue
