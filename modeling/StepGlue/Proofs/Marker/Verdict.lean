import Mathlib.Data.List.Forall2
import StepGlue.Proofs.Document
import StepGlue.Proofs.Except
import StepGlue.Proofs.Marker.Report

/-! What the glue says about a feature is what its markers say.

The markers of a feature file are described here step by step and row by row, by nothing but the
definitions that accept a text: plain steps by their number, rows by the steps that none of them
accepts, and the steps of an outline by the first row with which several do. -/

namespace StepGlue

/-- The definitions that accept a text, in their order. -/
def matching (definitions : List Definition) (text : String) : List Definition :=
  definitions.filter (·.accepts text)

/-- The text of a step with a row's values filled in. -/
def Step.textWith (s : Step) (row : ExampleRow) : String :=
  String.ofList (substitute row.value? s.text.toList)

/-- A marker of a kind on a line, and no other. -/
def Sole (kind : MarkerKind) (line : Nat) (ms : List Marker) : Prop :=
  ∃ m, ms = [m] ∧ m.kind = kind ∧ m.line = line

/-- A marker on a step that lists definitions, and no other. -/
def SoleListing (s : Step) (ds : List Definition) (ms : List Marker) : Prop :=
  ∃ m, ms = [m] ∧ m.kind = .multipleStepDefinitions ∧ m.line = s.line ∧
    m.message = "Step '" ++ s.text ++ "' have more than one glue code: "
      ++ ",".intercalate (ds.map Definition.shortLocation) ∧
    m.attributes = [(duplicatesAttribute, ",".intercalate (ds.map Definition.fullLocation))]

/-- The markers of a step that is matched as it is written. -/
structure PlainMarked (reportMatches : Bool) (definitions : List Definition) (source : String)
    (s : Step) (ms : List Marker) : Prop where
  nowhere : ¬HasLine source s.line → ms = []
  here : HasLine source s.line → match matching definitions s.text with
    | [] => Sole .unmatchedStep s.line ms
    | [_] => if reportMatches then Sole .stepMatched s.line ms else ms = []
    | ds => SoleListing s ds ms

/-- The markers of an example row. -/
structure RowMarked (definitions : List Definition) (source : String) (steps : List Step)
    (row : ExampleRow) (ms : List Marker) : Prop where
  nowhere : ¬HasLine source row.line → ms = []
  unmatched : HasLine source row.line →
    (∃ s ∈ steps, matching definitions (s.textWith row) = []) → Sole .exampleUnmatch row.line ms
  matched : (∀ s ∈ steps, matching definitions (s.textWith row) ≠ []) → ms = []

/-- The markers of a step of an outline. -/
structure TemplateMarked (definitions : List Definition) (source : String)
    (rows : List ExampleRow) (s : Step) (ms : List Marker) : Prop where
  nowhere : ¬HasLine source s.line → ms = []
  ambiguous : HasLine source s.line → ∀ before row after, rows = before ++ row :: after →
    2 ≤ (matching definitions (s.textWith row)).length →
    (∀ r ∈ before, (matching definitions (s.textWith r)).length < 2) →
    SoleListing s (matching definitions (s.textWith row)) ms
  unambiguous : (∀ row ∈ rows, (matching definitions (s.textWith row)).length < 2) → ms = []

/-! ### Outcomes -/

theorem matchStep_cases (text : String) (definitions : List Definition) :
    (matching definitions text = [] ∧ matchStep text definitions = .unmatched) ∨
    (∃ d, matching definitions text = [d] ∧ matchStep text definitions = .single d) ∨
    (2 ≤ (matching definitions text).length ∧
      matchStep text definitions = .multiple (matching definitions text)) := by
  unfold matchStep matching
  generalize definitions.filter (·.accepts text) = found
  rcases found with _ | ⟨d, _ | ⟨e, ds⟩⟩
  · exact Or.inl ⟨rfl, rfl⟩
  · exact Or.inr (Or.inl ⟨d, rfl, rfl⟩)
  · exact Or.inr (Or.inr ⟨by simp, rfl⟩)

theorem isMatched_matchStep (text : String) (definitions : List Definition) :
    (matchStep text definitions).isMatched = false ↔ matching definitions text = [] := by
  rcases matchStep_cases text definitions with ⟨hm, hs⟩ | ⟨d, hm, hs⟩ | ⟨hm, hs⟩
  · simp [hs, hm, Outcome.isMatched]
  · simp [hs, hm, Outcome.isMatched]
  · have hne : matching definitions text ≠ [] := by
      rintro he
      simp [he] at hm
    simp [hs, hne, Outcome.isMatched]

theorem ambiguity?_matchStep (text : String) (definitions : List Definition) :
    (matchStep text definitions).ambiguity? =
      if 2 ≤ (matching definitions text).length then some (matching definitions text)
      else none := by
  rcases matchStep_cases text definitions with ⟨hm, hs⟩ | ⟨d, hm, hs⟩ | ⟨hm, hs⟩
  · simp [hs, hm, Outcome.ambiguity?]
  · simp [hs, hm, Outcome.ambiguity?]
  · simp [hs, hm, Outcome.ambiguity?]

/-! ### Placing markers -/

section Placing

variable {source : String} {line : Nat}

theorem markAt_of_hasLine (h : HasLine source line) (text : String)
    (build : Option Span → Marker) :
    ∃ span, (Document.ofText source).markAt line text build = some (build span) := by
  obtain ⟨l, hl⟩ := Document.exists_line? h
  unfold Document.markAt Document.locate
  rw [hl]
  dsimp only
  cases findText text.toList l.text with
  | none => exact ⟨none, rfl⟩
  | some i => exact ⟨some _, rfl⟩

theorem markAt_of_not_hasLine (h : ¬HasLine source line) (text : String)
    (build : Option Span → Marker) :
    (Document.ofText source).markAt line text build = none := by
  unfold Document.markAt
  rw [Document.locate_of_not_hasLine h]

theorem exampleMarker_of_hasLine (h : HasLine source line) :
    Sole .exampleUnmatch line (exampleMarker (Document.ofText source) line).toList := by
  obtain ⟨l, hl⟩ := Document.exists_line? h
  unfold exampleMarker
  rw [hl]
  dsimp only
  obtain ⟨span, hmark⟩ := markAt_of_hasLine h (String.ofList (trim l.text)) fun span =>
    .ofKind .exampleUnmatch
      ("No compatible step definition with " ++ String.ofList (trim l.text)) line span []
  rw [hmark]
  exact ⟨_, rfl, rfl, rfl⟩

theorem exampleMarker_of_not_hasLine (h : ¬HasLine source line) :
    exampleMarker (Document.ofText source) line = none := by
  unfold exampleMarker
  rw [Document.line?_eq_none.mpr h]

end Placing

variable {reportMatches : Bool} {file : FileId} {definitions : List Definition} {source : String}

theorem soleListing_multipleMarker {s : Step} (h : HasLine source s.line) (ds : List Definition) :
    SoleListing s ds (multipleMarker (Document.ofText source) s ds).toList := by
  obtain ⟨span, hmark⟩ := markAt_of_hasLine h s.text fun span =>
    .ofKind .multipleStepDefinitions
      ("Step '" ++ s.text ++ "' have more than one glue code: "
        ++ ",".intercalate (ds.map Definition.shortLocation))
      s.line span
      [(duplicatesAttribute, ",".intercalate (ds.map Definition.fullLocation))]
  unfold multipleMarker
  rw [hmark]
  exact ⟨_, rfl, rfl, rfl, rfl, rfl⟩

theorem plainMarked (s : Step) :
    PlainMarked reportMatches definitions source s
      (outcomeMarkers reportMatches file (Document.ofText source) s
        (matchStep s.text definitions)) := by
  refine ⟨fun h => ?_, fun h => ?_⟩
  · rcases matchStep_cases s.text definitions with ⟨-, hs⟩ | ⟨d, -, hs⟩ | ⟨-, hs⟩
    · simp [hs, outcomeMarkers, unmatchedMarker, markAt_of_not_hasLine h]
    · simp [hs, outcomeMarkers, matchedMarker, markAt_of_not_hasLine h]
    · simp [hs, outcomeMarkers, multipleMarker, markAt_of_not_hasLine h]
  · rcases matchStep_cases s.text definitions with ⟨hm, hs⟩ | ⟨d, hm, hs⟩ | ⟨hm, hs⟩
    · rw [hm, hs]
      obtain ⟨span, hmark⟩ := markAt_of_hasLine h s.text fun span =>
        .ofKind .unmatchedStep ("Step '" ++ s.text ++ "' does not have a matching glue code")
          s.line span [(pathAttribute, file.fullPath), (stepAttribute, s.toJson.compact)]
      simp only [outcomeMarkers, unmatchedMarker, hmark]
      exact ⟨_, rfl, rfl, rfl⟩
    · rw [hm, hs]
      obtain ⟨span, hmark⟩ := markAt_of_hasLine h s.text fun span =>
        .ofKind .stepMatched ("Glued with " ++ d.shortLocation) s.line span []
      simp only [outcomeMarkers, matchedMarker, hmark]
      cases reportMatches with
      | false => rfl
      | true => exact ⟨_, rfl, rfl, rfl⟩
    · rw [hs]
      have hlist := soleListing_multipleMarker h (matching definitions s.text)
      generalize matching definitions s.text = found at hm hlist ⊢
      rcases found with _ | ⟨d, _ | ⟨e, ds⟩⟩
      · simp at hm
      · simp at hm
      · exact hlist

/-! ### Outlines -/

theorem rowUnmatched_iff {o : Outline} {row : ExampleRow} :
    rowUnmatched definitions o row = true ↔
      ∃ s ∈ o.steps, matching definitions (s.textWith row) = [] := by
  unfold rowUnmatched Outline.expand
  simp only [List.any_map, List.any_eq_true, Function.comp_apply, Bool.not_eq_true',
    isMatched_matchStep]
  rfl

/-- The markers of a row of an outline. -/
def rowMarkers (doc : Document) (definitions : List Definition) (o : Outline) (row : ExampleRow) :
    List Marker :=
  if rowUnmatched definitions o row then (exampleMarker doc row.line).toList else []

theorem rowMarked (o : Outline) (row : ExampleRow) :
    RowMarked definitions source o.steps row
      (rowMarkers (Document.ofText source) definitions o row) := by
  refine ⟨fun h => ?_, fun h hno => ?_, fun hall => ?_⟩
  · simp [rowMarkers, exampleMarker_of_not_hasLine h]
  · rw [rowMarkers, if_pos (rowUnmatched_iff.mpr hno)]
    exact exampleMarker_of_hasLine h
  · refine if_neg fun hr => ?_
    obtain ⟨s, hs, hno⟩ := rowUnmatched_iff.mp hr
    exact hall s hs hno

/-- The definitions of the first of some rows that gives a step several. -/
def ambiguousRow? (definitions : List Definition) (rows : List ExampleRow) (s : Step) :
    Option (List Definition) :=
  rows.findSome? fun row => (matchStep (s.textWith row) definitions).ambiguity?

/-- The markers of a step of an outline. -/
def templateMarkers (doc : Document) (definitions : List Definition) (rows : List ExampleRow)
    (s : Step) : List Marker :=
  match ambiguousRow? definitions rows s with
  | some ds => (multipleMarker doc s ds).toList
  | none => []

theorem firstAmbiguous_eq {o : Outline} {i : Nat} {s : Step} (h : o.steps[i]? = some s) :
    firstAmbiguous definitions o i = ambiguousRow? definitions o.rows s := by
  unfold firstAmbiguous ambiguousRow?
  congr 1
  funext row
  have hrow : (o.expand row)[i]? = some { s with text := s.textWith row } := by
    simp [Outline.expand, h, Step.textWith]
  rw [hrow, Option.map_some]
  cases matchStep (s.textWith row) definitions <;> rfl

theorem ambiguousRow?_eq_none {rows : List ExampleRow} {s : Step} :
    ambiguousRow? definitions rows s = none ↔
      ∀ row ∈ rows, (matching definitions (s.textWith row)).length < 2 := by
  unfold ambiguousRow?
  rw [List.findSome?_eq_none_iff]
  refine forall₂_congr fun row _ => ?_
  rw [ambiguity?_matchStep]
  split <;> simp <;> omega

theorem ambiguousRow?_of_first {before after : List ExampleRow} {row : ExampleRow} {s : Step}
    (hrow : 2 ≤ (matching definitions (s.textWith row)).length)
    (hbefore : ∀ r ∈ before, (matching definitions (s.textWith r)).length < 2) :
    ambiguousRow? definitions (before ++ row :: after) s =
      some (matching definitions (s.textWith row)) := by
  have hnone := ambiguousRow?_eq_none.mpr hbefore
  unfold ambiguousRow? at hnone ⊢
  rw [List.findSome?_append, hnone, Option.none_or, List.findSome?_cons, ambiguity?_matchStep,
    if_pos hrow]

theorem templateMarked (rows : List ExampleRow) (s : Step) :
    TemplateMarked definitions source rows s
      (templateMarkers (Document.ofText source) definitions rows s) := by
  refine ⟨fun h => ?_, fun h before row after hrows hrow hbefore => ?_, fun hall => ?_⟩
  · unfold templateMarkers multipleMarker
    split
    · rw [markAt_of_not_hasLine h]
      rfl
    · rfl
  · rw [templateMarkers, hrows, ambiguousRow?_of_first hrow hbefore]
    exact soleListing_multipleMarker h _
  · rw [templateMarkers, ambiguousRow?_eq_none.mpr hall]

theorem outlineMarkers_eq (doc : Document) (o : Outline) :
    outlineMarkers doc definitions o =
      (o.rows.map (rowMarkers doc definitions o)).flatten
        ++ (o.steps.map (templateMarkers doc definitions o.rows)).flatten := by
  have hfst : o.steps.flatMap (templateMarkers doc definitions o.rows) =
      o.steps.zipIdx.flatMap fun a => templateMarkers doc definitions o.rows a.1 := by
    rw [← List.flatMap_map Prod.fst, List.zipIdx_map_fst]
  rw [← List.flatMap_def, ← List.flatMap_def, hfst]
  unfold outlineMarkers
  refine congrArg₂ (· ++ ·) ?rows ?steps
  case rows =>
    induction o.rows with
    | nil => rfl
    | cons r rows ih =>
      cases hr : rowUnmatched definitions o r <;> simp [hr, ih, rowMarkers]
  case steps =>
    rw [List.filterMap_eq_flatMap_toList, List.flatMap_assoc]
    refine List.flatMap_congr fun a ha => ?_
    obtain ⟨s, i⟩ := a
    have hfirst : firstAmbiguous definitions o i = ambiguousRow? definitions o.rows s :=
      firstAmbiguous_eq (List.mk_mem_zipIdx_iff_getElem?.mp ha)
    dsimp only
    rw [hfirst, templateMarkers]
    cases ambiguousRow? definitions o.rows s with
    | none => rfl
    | some ds => simp

/-! ### Features -/

theorem forall₂_map {α β : Type} {r : α → β → Prop} {f : α → β} (h : ∀ a, r a (f a)) (l : List α) :
    List.Forall₂ r l (l.map f) :=
  List.forall₂_map_right_iff.mpr (List.forall₂_same.mpr fun a _ => h a)

namespace Workspace

/-- What a feature that can be read and parsed is left with, step by step and outline by outline. -/
theorem markersOf_recomputeFeature (w : Workspace) (read : FileId → Except ReadError String)
    (file : FileId) (store : MarkerStore) {source : String} {index : FeatureIndex}
    (hread : w.sourceText read file = .ok source) (hindex : indexFeature source = .ok index) :
    (store.run (w.recomputeFeature read file)).1.markersOf file =
      (index.steps.map fun s => outcomeMarkers w.settings.reportMatches file
          (Document.ofText source) s (matchStep s.text w.repository.definitions)).flatten
        ++ index.outlines.flatMap
          (outlineMarkers (Document.ofText source) w.repository.definitions) := by
  rw [MarkerStore.markersOf_run, effects_recomputeFeature, hread, sourceMarkers, featureMarkers,
    hindex]
  rfl

/-- Whatever a store held before, a feature that can be read and parsed is left with the markers
of its plain steps in order, and after them outline by outline those of the rows and of the steps.
No other file is touched. -/
theorem recomputeFeature_marks (w : Workspace) (read : FileId → Except ReadError String)
    (file : FileId) (store : MarkerStore) {source : String} {index : FeatureIndex}
    (hread : w.sourceText read file = .ok source) (hindex : indexFeature source = .ok index) :
    let after := (store.run (w.recomputeFeature read file)).1
    let definitions := w.repository.definitions
    (∃ (plain : List (List Marker)) (outlines : List (List (List Marker) × List (List Marker))),
      after.markersOf file =
        plain.flatten ++ outlines.flatMap (fun x => x.1.flatten ++ x.2.flatten) ∧
      List.Forall₂ (PlainMarked w.settings.reportMatches definitions source) index.steps plain ∧
      List.Forall₂ (fun (o : Outline) x =>
        List.Forall₂ (RowMarked definitions source o.steps) o.rows x.1 ∧
        List.Forall₂ (TemplateMarked definitions source o.rows) o.steps x.2)
          index.outlines outlines) ∧
    ∀ g, g ≠ file → after.markersOf g = store.markersOf g := by
  intro after definitions
  let doc := Document.ofText source
  let ofOutline := fun o : Outline => (o.rows.map (rowMarkers doc definitions o),
    o.steps.map (templateMarkers doc definitions o.rows))
  have hplain : List.Forall₂ (PlainMarked w.settings.reportMatches definitions source) index.steps
      (index.steps.map fun s => outcomeMarkers w.settings.reportMatches file doc s
        (matchStep s.text definitions)) := forall₂_map plainMarked _
  refine ⟨⟨_, index.outlines.map ofOutline, ?_, hplain, ?_⟩, fun g hg => ?_⟩
  · rw [markersOf_recomputeFeature w read file store hread hindex, List.flatMap_map]
    exact congrArg (_ ++ ·) (List.flatMap_congr fun o _ => outlineMarkers_eq doc o)
  · refine forall₂_map (fun o => ⟨?_, ?_⟩) _
    · exact forall₂_map (rowMarked o) _
    · exact forall₂_map (templateMarked o.rows) _
  · rw [MarkerStore.markersOf_run]
    exact effects_of_about (about_recomputeFeature w read file) hg.symm _

def sampleOutline : String :=
  "Feature:\nScenario:\n* a\n* b\nScenario Outline:\n* <n>\nExamples:\n|n|\n|b|\n|c|"

def sampleOutlineIndex : FeatureIndex where
  steps := [⟨.star, "a", 3⟩, ⟨.star, "b", 4⟩]
  outlines := [⟨[⟨.star, "<n>", 6⟩], [⟨9, [("n", "b")]⟩, ⟨10, [("n", "c")]⟩]⟩]

theorem sampleOutline_index : indexFeature sampleOutline = .ok sampleOutlineIndex :=
  toOption_eq_some.mp (by decide +kernel)

/-- A definition on a line of a glue file, for every text with the letter b. -/
def letterB (line : Nat) : Definition :=
  ⟨.regex "b", ⟨"b", .chars (.single 'b')⟩, ⟨[.name "a.rs"]⟩, line, none⟩

/-- A project in which the letter b is defined twice. -/
def twiceDefined : Workspace where
  root := ⟨[]⟩
  settings := ⟨true, 1000⟩
  repository := ⟨⟨[(⟨[.name "a.rs"]⟩, [letterB 1, letterB 2])]⟩⟩

theorem twiceDefined_definitions :
    twiceDefined.repository.definitions = [letterB 1, letterB 2] := by
  rfl

/-- A store with an old complaint about the file. -/
def complained (file : FileId) : MarkerStore where
  markers := ⟨[(file, [gherkinErrorMarker "old" 1])]⟩

/-- Plain steps without and with definitions, and an outline with a row of either sort. -/
theorem recomputeFeature_marks_sample :
    let file : FileId := ⟨[.name "a.feature"]⟩
    let read : FileId → Except ReadError String := fun _ => .ok sampleOutline
    (twiceDefined.sourceText read file = .ok sampleOutline ∧
      indexFeature sampleOutline = .ok sampleOutlineIndex) ∧
    (((complained file).run (twiceDefined.recomputeFeature read file)).1.markersOf file).map
        (fun m => (m.kind, m.line)) =
      [(.unmatchedStep, 3), (.multipleStepDefinitions, 4), (.exampleUnmatch, 10),
        (.multipleStepDefinitions, 6)] := by
  intro file read
  have hread : twiceDefined.sourceText read file = .ok sampleOutline := rfl
  refine ⟨⟨hread, sampleOutline_index⟩, ?_⟩
  obtain ⟨⟨plain, outlines, hmarkers, hplain, houtlines⟩, -⟩ :=
    recomputeFeature_marks twiceDefined read file (complained file) hread sampleOutline_index
  rw [twiceDefined_definitions] at hplain houtlines
  simp only [sampleOutlineIndex, List.forall₂_cons_left_iff, List.forall₂_nil_left_iff]
    at hplain houtlines
  obtain ⟨msA, -, hA, ⟨msB, -, hB, rfl, rfl⟩, rfl⟩ := hplain
  obtain ⟨x, -, ⟨hrows, hsteps⟩, rfl, rfl⟩ := houtlines
  obtain ⟨rowB, -, hrowB, ⟨rowC, -, hrowC, rfl, rfl⟩, hrows⟩ := hrows
  obtain ⟨msN, -, hN, rfl, hsteps⟩ := hsteps
  have hline : ∀ n, 1 ≤ n → n ≤ 10 → HasLine sampleOutline n := fun n h₁ h₂ => ⟨h₁, h₂⟩
  obtain ⟨a, rfl, ha⟩ : Sole .unmatchedStep 3 msA := hA.here (hline 3 (by decide) (by decide))
  obtain ⟨b, rfl, hb⟩ : SoleListing ⟨.star, "b", 4⟩ [letterB 1, letterB 2] msB :=
    hB.here (hline 4 (by decide) (by decide))
  have hrow : rowB = [] := hrowB.matched (by decide +kernel)
  obtain ⟨c, rfl, hc⟩ := hrowC.unmatched (hline 10 (by decide) (by decide))
    ⟨_, List.mem_singleton_self _, by decide +kernel⟩
  obtain ⟨n, rfl, hn⟩ := hN.ambiguous (hline 6 (by decide) (by decide)) [] _ _ rfl
    (by decide +kernel) (by simp)
  obtain ⟨rows, steps⟩ := x
  subst hrows hsteps hrow
  rw [hmarkers]
  simp [ha, hb, hc, hn]

end Workspace

end StepGlue
