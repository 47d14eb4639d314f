import StepGlue.Proofs.Marker.Outline
import StepGlue.Proofs.Marker.Store

/-! The markers that a file ends up with, as a function of its text and of the definitions that
are known, and that the calls of a build place exactly these. -/

namespace StepGlue

/-- The markers of a step by its outcome. -/
def outcomeMarkers (reportMatches : Bool) (file : FileId) (doc : Document) (step : Step) :
    Outcome → List Marker
  | .unmatched => (unmatchedMarker file doc step).toList
  | .single d => if reportMatches then (matchedMarker doc step d).toList else []
  | .multiple ds => (multipleMarker doc step ds).toList

/-- The markers of an outline: its rows that leave a step without a definition, then its steps
that some row makes ambiguous. -/
def outlineMarkers (doc : Document) (definitions : List Definition) (o : Outline) : List Marker :=
  ((o.rows.filter (rowUnmatched definitions o)).flatMap fun r => (exampleMarker doc r.line).toList)
    ++ (o.steps.zipIdx.filterMap fun (s, i) =>
        (firstAmbiguous definitions o i).map fun ds => (s, ds)).flatMap
      fun (s, ds) => (multipleMarker doc s ds).toList

/-- The markers of a feature file with a given text under given definitions. -/
def featureMarkers (reportMatches : Bool) (file : FileId) (definitions : List Definition)
    (source : String) : List Marker :=
  match indexFeature source with
  | .error e => [gherkinErrorMarker e.message e.line]
  | .ok index =>
    let doc := Document.ofText source
    (index.steps.flatMap fun s =>
        outcomeMarkers reportMatches file doc s (matchStep s.text definitions))
      ++ index.outlines.flatMap (outlineMarkers doc definitions)

/-- The markers of a feature file whose text is known, or cannot be read. -/
def sourceMarkers (reportMatches : Bool) (file : FileId) (definitions : List Definition) :
    Except ReadError String → List Marker
  | .error _ => []
  | .ok source => featureMarkers reportMatches file definitions source

/-- The markers of a glue file with a given text. -/
def glueMarkers (e : Extractor) (file : FileId) (source : String) : List Marker :=
  match e.extract source with
  | .error err => [stepdefErrorMarker err.message err.line]
  | .ok found =>
    (found.rejected.map fun err => stepdefErrorMarker err.message err.line)
      ++ (compileSteps file found.steps).2

theorem exists_of_markAt {doc : Document} {line : Nat} {text : String}
    {build : Option Span → Marker} {m : Marker} (h : doc.markAt line text build = some m) :
    ∃ span, build span = m := by
  unfold Document.markAt at h
  split at h
  · exact ⟨_, Option.some.inj h⟩
  · exact ⟨_, Option.some.inj h⟩
  · cases h

/-- The definition of a step, if its pattern compiles. -/
def GlueStep.definition? (file : FileId) (s : GlueStep) : Option Definition :=
  (Definition.ofPattern s.pattern file s.line s.keyword).toOption

/-- The marker of a step whose pattern does not compile. -/
def GlueStep.complaint? (file : FileId) (s : GlueStep) : Option Marker :=
  match Definition.ofPattern s.pattern file s.line s.keyword with
  | .ok _ => none
  | .error e => some (stepdefErrorMarker
      ("Invalid step pattern '" ++ s.pattern.source ++ "': " ++ e.message) s.line)

theorem compileSteps_eq (file : FileId) (steps : List GlueStep) :
    compileSteps file steps =
      (steps.filterMap (·.definition? file), steps.filterMap (·.complaint? file)) := by
  induction steps with
  | nil => rfl
  | cons s rest ih =>
    simp only [compileSteps, ih, List.filterMap_cons, GlueStep.definition?, GlueStep.complaint?]
    cases Definition.ofPattern s.pattern file s.line s.keyword <;> rfl

/-- Everything that is said about a glue file is an error in it. -/
theorem exists_of_mem_glueMarkers {e : Extractor} {file : FileId} {source : String} {m : Marker}
    (h : m ∈ glueMarkers e file source) : ∃ message line, m = stepdefErrorMarker message line := by
  unfold glueMarkers at h
  split at h
  · exact ⟨_, _, List.mem_singleton.mp h⟩
  · rw [compileSteps_eq] at h
    rcases List.mem_append.mp h with h | h
    · obtain ⟨err, -, rfl⟩ := List.mem_map.mp h
      exact ⟨_, _, rfl⟩
    · obtain ⟨s, -, h⟩ := List.mem_filterMap.mp h
      unfold GlueStep.complaint? at h
      split at h
      · cases h
      · exact ⟨_, _, (Option.some.inj h).symm⟩

theorem effects_reportOutcome (reportMatches : Bool) (file : FileId) (doc : Document)
    (step : Step) (o : Outcome) (ms : List Marker) :
    effects file (reportOutcome reportMatches file doc step o) ms =
      ms ++ outcomeMarkers reportMatches file doc step o := by
  cases o with
  | unmatched => exact effects_placing _ _ _
  | single d =>
    cases reportMatches
    · simp [reportOutcome, outcomeMarkers]
    · exact effects_placing _ _ _
  | multiple ds => exact effects_placing _ _ _

theorem effects_reportOutline (file : FileId) (doc : Document) (definitions : List Definition)
    (o : Outline) (ms : List Marker) :
    effects file (reportOutline file doc definitions o) ms =
      ms ++ outlineMarkers doc definitions o := by
  have hrows := effects_flatMap_of_appends
    (fun (r : ExampleRow) ms => effects_placing file (exampleMarker doc r.line) ms)
  have hsteps := effects_flatMap_of_appends
    (fun (p : Step × List Definition) ms =>
      effects_placing file (multipleMarker doc p.1 p.2) ms)
  unfold outlineMarkers
  rw [reportOutline_eq, effects_append, hrows, hsteps, List.append_assoc]

theorem effects_reportFeature (reportMatches : Bool) (file : FileId)
    (definitions : List Definition) (source : String) (ms : List Marker) :
    effects file (reportFeature reportMatches file definitions source) ms =
      ms ++ featureMarkers reportMatches file definitions source := by
  unfold reportFeature featureMarkers
  cases indexFeature source with
  | error e => exact effects_placing _ _ _
  | ok index =>
    have hsteps := effects_flatMap_of_appends (fun (s : Step) ms =>
      effects_reportOutcome reportMatches file (Document.ofText source) s
        (matchStep s.text definitions) ms)
    have houtlines := effects_flatMap_of_appends
      (effects_reportOutline file (Document.ofText source) definitions)
    dsimp only
    rw [effects_append, hsteps, houtlines, List.append_assoc]

/-- Reading a glue file replaces its markers, unless it cannot be read. -/
theorem effects_indexGlue (e : Extractor) (file : FileId) (text : Except ReadError String)
    (ms : List Marker) :
    effects file (indexGlue e file text).2 ms =
      match text with
      | .error _ => ms
      | .ok source => glueMarkers e file source := by
  cases text with
  | error err => rfl
  | ok source =>
    unfold indexGlue glueMarkers
    dsimp only
    cases e.extract source with
    | error err => simp
    | ok found =>
      have hplaced := effects_flatMap_of_appends
        (fun (m : Marker) ms => effects_placing file (some m) ms)
      dsimp only
      rw [effects_inBatch, effects_append, effects_cleaning, hplaced]
      simp

theorem about_reportOutcome (reportMatches : Bool) (file : FileId) (doc : Document) (step : Step)
    (o : Outcome) : ∀ c ∈ reportOutcome reportMatches file doc step o, c.About file := by
  cases o with
  | unmatched => exact about_placing _ _
  | single d =>
    cases reportMatches
    · simp [reportOutcome]
    · exact about_placing _ _
  | multiple ds => exact about_placing _ _

theorem about_reportFeature (reportMatches : Bool) (file : FileId) (definitions : List Definition)
    (source : String) :
    ∀ c ∈ reportFeature reportMatches file definitions source, c.About file := by
  unfold reportFeature
  split
  · exact about_placing _ _
  · refine about_append (about_flatMap fun s _ => about_reportOutcome _ _ _ _ _)
      (about_flatMap fun o _ => ?_)
    rw [reportOutline_eq]
    exact about_append (about_flatMap fun r _ => about_placing _ _)
      (about_flatMap fun p _ => about_placing _ _)

theorem about_indexGlue (e : Extractor) (file : FileId) (text : Except ReadError String) :
    ∀ c ∈ (indexGlue e file text).2, c.About file := by
  unfold indexGlue
  split
  · simp
  · split
    · exact about_inBatch (about_append (about_cleaning _) (about_placing _ _))
    · exact about_inBatch (about_append (about_cleaning _)
        (about_flatMap fun m _ => about_placing _ _))

namespace Workspace

theorem effects_recomputeFeature (w : Workspace) (read : FileId → Except ReadError String)
    (file : FileId) (ms : List Marker) :
    effects file (w.recomputeFeature read file) ms =
      sourceMarkers w.settings.reportMatches file w.repository.definitions
        (w.sourceText read file) := by
  unfold recomputeFeature
  rw [effects_inBatch, effects_append, effects_cleaning]
  cases w.sourceText read file with
  | error e => rfl
  | ok source =>
    dsimp only
    rw [effects_reportFeature, List.nil_append]
    rfl

theorem about_recomputeFeature (w : Workspace) (read : FileId → Except ReadError String)
    (file : FileId) : ∀ c ∈ w.recomputeFeature read file, c.About file := by
  refine about_inBatch (about_append (about_cleaning file) ?_)
  split
  · simp
  · exact about_reportFeature _ _ _ _

end Workspace

end StepGlue
