import StepGlue.Proofs.Except
import StepGlue.Proofs.Workspace.Residue

/-! What each glue file contributes after any history.

The definitions of a glue file are those of the last of its texts that was understood since the
repository was emptied or the file was missing; its markers are those of the last of its texts
that could be read since the file was missing. Both are read off the builds of a run, without a
look at the states in between. -/

namespace StepGlue

/-! ### Definitions that are kept -/

/-- Of every definition there is one that is the same among the first occurrences. -/
theorem Definition.exists_same {ds : List Definition} {d : Definition} (h : d ∈ ds) :
    ∃ e ∈ firstOccurrences ds, e.same d = true := by
  induction ds with
  | nil => cases h
  | cons a ds ih =>
    rcases List.mem_cons.mp h with rfl | h
    · exact ⟨d, List.mem_cons_self, same_iff_key.mpr rfl⟩
    · obtain ⟨e, he, hed⟩ := ih h
      by_cases hae : a.same e = true
      · -- the one found in the rest gives way to the first, which is the same as it
        have hkey := (same_iff_key.mp hae).trans (same_iff_key.mp hed)
        exact ⟨a, List.mem_cons_self, same_iff_key.mpr hkey⟩
      · refine ⟨e, List.mem_cons_of_mem _ (List.mem_filter.mpr ⟨he, ?_⟩), hed⟩
        simpa using hae

/-! ### Histories -/

/-- The text in which a build read a file, if it looked at the file and could read it. -/
def Occasion.readText (b : Occasion) (f : FileId) : Option String :=
  if b.workspace.changed b.kind b.snapshot f then
    (b.workspace.sourceText b.snapshot.read f).toOption
  else none

/-- What a build found in a glue file, if it read the file and understood it. -/
def Occasion.extracted (b : Occasion) (x : Extractor) (f : FileId) : Option GlueSteps :=
  (b.readText f).bind fun source => (x.extract source).toOption

/-- Of builds, the latest first, those since a file was last missing. -/
def inSight (past : List Occasion) (f : FileId) : List Occasion :=
  past.takeWhile fun b => decide (f ∈ b.snapshot.files)

/-- Of builds, the latest first, those from the last full one on. -/
def sinceFull : List Occasion → List Occasion
  | [] => []
  | b :: past => b :: if b.kind = .full then [] else sinceFull past

/-- The last text of a file that could be read since the file was last missing. -/
def lastReadable (past : List Occasion) (f : FileId) : Option String :=
  (inSight past f).findSome? (·.readText f)

/-- The last text that could be read since the last full build, and since the file was missing. -/
def lastReadSinceFull (past : List Occasion) (f : FileId) : Option String :=
  (sinceFull (inSight past f)).findSome? (·.readText f)

/-- What was last found in a glue file since the last full build, and since the file was
missing. -/
def lastExtracted (past : List Occasion) (x : Extractor) (f : FileId) : Option GlueSteps :=
  (sinceFull (inSight past f)).findSome? (·.extracted x f)

section

variable {b : Occasion} {past : List Occasion} {f : FileId}

theorem inSight_cons_of_mem (h : f ∈ b.snapshot.files) :
    inSight (b :: past) f = b :: inSight past f :=
  List.takeWhile_cons_of_pos (decide_eq_true h)

theorem inSight_cons_of_not_mem (h : f ∉ b.snapshot.files) : inSight (b :: past) f = [] :=
  List.takeWhile_cons_of_neg (by simpa using h)

theorem lastReadable_cons (h : f ∈ b.snapshot.files) :
    lastReadable (b :: past) f = (b.readText f).or (lastReadable past f) := by
  rw [lastReadable, inSight_cons_of_mem h, List.findSome?_cons]
  cases b.readText f <;> rfl

theorem lastExtracted_cons (h : f ∈ b.snapshot.files) (x : Extractor) :
    lastExtracted (b :: past) x f =
      (b.extracted x f).or (if b.kind = .full then none else lastExtracted past x f) := by
  rw [lastExtracted, inSight_cons_of_mem h, sinceFull, List.findSome?_cons]
  cases b.extracted x f with
  | none =>
    by_cases hb : b.kind = .full
    · simp [hb]
    · simp [hb, lastExtracted]
  | some found => rfl

theorem exists_sinceFull (l : List Occasion) : ∃ rest, l = sinceFull l ++ rest := by
  induction l with
  | nil => exact ⟨[], rfl⟩
  | cons b l ih =>
    obtain ⟨rest, hrest⟩ := ih
    by_cases hb : b.kind = .full
    · exact ⟨l, by simp [sinceFull, hb]⟩
    · exact ⟨rest, by simp [sinceFull, hb, ← hrest]⟩

/-- A text that is the last since the last full build is the last of all. -/
theorem lastReadable_of_sinceFull {source : String} (h : lastReadSinceFull past f = some source) :
    lastReadable past f = some source := by
  obtain ⟨rest, hrest⟩ := exists_sinceFull (inSight past f)
  have hh : (sinceFull (inSight past f)).findSome? (·.readText f) = some source := h
  rw [lastReadable, hrest, List.findSome?_append, hh]
  rfl

/-- If the last text can be understood, nothing older was found. -/
theorem lastExtracted_of_sinceFull {source : String} (h : lastReadSinceFull past f = some source)
    {x : Extractor} {found : GlueSteps} (hx : x.extract source = .ok found) :
    lastExtracted past x f = some found := by
  obtain ⟨l, b, r, hl, hb, hnone⟩ := List.findSome?_eq_some_iff.mp h
  refine List.findSome?_eq_some_iff.mpr ⟨l, b, r, hl, ?_, fun c hc => ?_⟩
  · exact Option.bind_eq_some_iff.mpr ⟨source, hb, toOption_eq_some.mpr hx⟩
  · simp [Occasion.extracted, hnone c hc]

end

/-! ### One build -/

theorem indexGlue_fst (x : Extractor) (f : FileId) (text : Except ReadError String) :
    (indexGlue x f text).1 = (text.toOption.bind fun source => (x.extract source).toOption).map
      fun found => found.steps.filterMap (·.definition? f) := by
  cases text with
  | error err => rfl
  | ok source =>
    simp only [indexGlue, Except.toOption, Option.bind_some]
    cases x.extract source with
    | error err => rfl
    | ok found => simp [compileSteps_eq]

/-- A step that is found in a glue file is a definition or has a marker. -/
theorem defined_or_marked {x : Extractor} {f : FileId} {source : String} {found : GlueSteps}
    (h : x.extract source = .ok found) {s : GlueStep} (hs : s ∈ found.steps) :
    (∃ d ∈ Definition.firstOccurrences (found.steps.filterMap (·.definition? f)),
        d.pattern = s.pattern ∧ d.line = s.line) ∨
      ∃ m ∈ glueMarkers x f source, s.complaint? f = some m := by
  cases hd : Definition.ofPattern s.pattern f s.line s.keyword with
  | ok d =>
    left
    have hmem : d ∈ found.steps.filterMap (·.definition? f) :=
      List.mem_filterMap.mpr ⟨s, hs, toOption_eq_some.mpr hd⟩
    obtain ⟨e, he, hsame⟩ := Definition.exists_same hmem
    obtain ⟨hline, hplace⟩ := Prod.mk.inj (Definition.same_iff_key.mp hsame)
    have hpattern := congrArg Prod.snd hplace
    obtain ⟨regex, -, hmade⟩ := bind_eq_ok.mp hd
    obtain rfl := Except.ok.inj hmade
    exact ⟨e, he, hpattern, hline⟩
  | error err =>
    right
    have hc : s.complaint? f = some (stepdefErrorMarker
        ("Invalid step pattern '" ++ s.pattern.source ++ "': " ++ err.message) s.line) := by
      simp [GlueStep.complaint?, hd]
    refine ⟨_, ?_, hc⟩
    simp only [glueMarkers, h, compileSteps_eq]
    exact List.mem_append_right _ (List.mem_filterMap.mpr ⟨s, hs, hc⟩)

/-- The entry in the repository for what was found in a glue file. -/
def entryFor (f : FileId) (found : Option GlueSteps) : Option (List Definition) :=
  found.bind fun found => Repository.entryOf (found.steps.filterMap (·.definition? f))

namespace Occasion

variable {b : Occasion} {f : FileId} {x : Extractor} {past : List Occasion}

theorem kindIn_glue (hf : f ∈ b.snapshot.files) (hx : b.workspace.classify f = some (.glue x)) :
    b.workspace.kindIn b.snapshot f = some (.glue x) :=
  (if_pos hf).trans hx

/-- What a build has to put into the repository for a glue file that it sees. -/
theorem extracted_eq (b : Occasion) (x : Extractor) (f : FileId) :
    (if b.workspace.changed b.kind b.snapshot f then
      (indexGlue x f (b.workspace.sourceText b.snapshot.read f)).1 else none) =
      (b.extracted x f).map fun found => found.steps.filterMap (·.definition? f) := by
  rw [indexGlue_fst, extracted, readText]
  split <;> rfl

theorem result_repository (hx : b.workspace.classify f = some (.glue x))
    (hc : b.workspace.OnlyGlueContributes)
    (h : b.workspace.repository.entries.get? f = entryFor f (lastExtracted past x f)) :
    b.result.workspace.repository.entries.get? f =
      entryFor f (lastExtracted (b :: past) x f) := by
  by_cases hf : f ∈ b.snapshot.files
  · have hkind := kindIn_glue hf hx
    have hkept : b.workspace.kept b.kind b.snapshot f =
        entryFor f (if b.kind = .full then none else lastExtracted past x f) := by
      have hgone : f ∉ b.workspace.gone b.snapshot := fun hg => by
        simp [(Workspace.mem_gone.mp hg).2] at hkind
      cases hb : b.kind with
      | full => rfl
      | incremental => simp [Workspace.kept, hgone, h]
    refine (Workspace.build_repository_glue hkind b.kind).trans ?_
    rw [extracted_eq, hkept, lastExtracted_cons hf]
    cases b.extracted x f <;> rfl
  · -- the file is missing: the past before this build is out of sight, and so is its entry
    have hkind : ∀ e, b.workspace.kindIn b.snapshot f ≠ some (.glue e) := fun e he =>
      hf (Workspace.mem_files_of_kindIn (Option.isSome_of_eq_some he))
    rw [lastExtracted, inSight_cons_of_not_mem hf]
    exact (Workspace.build_repository_other hkind b.kind).trans (hc.kept_eq_none hkind b.kind)

theorem result_markers (hx : b.workspace.classify f = some (.glue x)) {store : MarkerStore}
    (ht : b.workspace.Tracks store)
    (h : store.markersOf f = (lastReadable past f).elim [] (glueMarkers x f)) :
    (store.run b.result.calls).1.markersOf f =
      (lastReadable (b :: past) f).elim [] (glueMarkers x f) := by
  by_cases hf : f ∈ b.snapshot.files
  · have heffect := Workspace.effects_build_glue (kindIn_glue hf hx) b.kind (store.markersOf f)
    refine (MarkerStore.markersOf_run _ _ _).trans (heffect.trans ?_)
    rw [lastReadable_cons hf, readText, h]
    split
    · cases b.workspace.sourceText b.snapshot.read f <;> rfl
    · rfl
  · rw [lastReadable, inSight_cons_of_not_mem hf]
    exact ht.build_none (if_neg hf) b.kind

end Occasion

/-! ### Runs -/

namespace Project

/-- What a project has of each glue file is what its builds so far account for. -/
structure OnRecord (p : Project) (past : List Occasion) : Prop where
  inStep : p.workspace.InStep p.store
  entry : ∀ f x, p.workspace.classify f = some (.glue x) →
    p.workspace.repository.entries.get? f = entryFor f (lastExtracted past x f)
  markers : ∀ f x, p.workspace.classify f = some (.glue x) →
    p.store.markersOf f = (lastReadable past f).elim [] (glueMarkers x f)

theorem OnRecord.start (root : FileId) (settings : BuildSettings) (extractors : List Extractor)
    (t : FileTree) : (start root settings extractors t).OnRecord [] :=
  ⟨Workspace.inStep_new root settings extractors, fun _ _ _ => rfl, fun _ _ _ => rfl⟩

theorem OnRecord.step {p : Project} {past : List Occasion} (h : p.OnRecord past) (e : Event) :
    (p.step e).OnRecord ((p.occasion? e).toList ++ past) := by
  have hclassify := (p.step_sameSetup e).classify_eq
  have hin := Workspace.lasting_inStep.step h.inStep e
  cases he : p.occasion? e with
  | none =>
    have hb : p.buildsOn e = none := by rw [buildsOn_eq, he]; rfl
    obtain ⟨⟨_, _, hw⟩, hstore, -⟩ := step_of_not_buildsOn hb
    refine ⟨hin, fun f x hx => ?_, fun f x hx => ?_⟩
    · rw [hw]
      exact h.entry f x ((hclassify f).symm.trans hx)
    · rw [hstore]
      exact h.markers f x ((hclassify f).symm.trans hx)
  | some b =>
    obtain ⟨forced, hw⟩ := occasion_workspace he
    have hsame : b.workspace.classify = p.workspace.classify := by rw [hw]; rfl
    have hstep := step_of_occasion he
    refine ⟨hin, fun f x hx => ?_, fun f x hx => ?_⟩
    · have hx := (hclassify f).symm.trans hx
      rw [hstep]
      refine Occasion.result_repository (congrFun hsame f ▸ hx) ?_ ?_
      · rw [hw]
        exact h.inStep.contributors
      · rw [hw]
        exact h.entry f x hx
    · have hx := (hclassify f).symm.trans hx
      rw [hstep]
      refine Occasion.result_markers (congrFun hsame f ▸ hx) ?_ (h.markers f x hx)
      rw [hw]
      exact h.inStep.tracks

theorem OnRecord.run {p : Project} {past : List Occasion} (h : p.OnRecord past)
    (events : List Event) : (p.run events).OnRecord (p.builds past events) := by
  induction events generalizing p past with
  | nil => exact h
  | cons e es ih => exact ih (h.step e)

/-- After any run, the definitions of a glue file are those of its text that was last understood
since the last full build and since it was missing, and its markers those of its text that could
last be read since it was missing. If these are one text, every step in it is a definition or has
a marker. -/
theorem glue_contributes_last_readings (root : FileId) (settings : BuildSettings)
    (extractors : List Extractor) (t : FileTree) (events : List Event) (f : FileId) (x : Extractor)
    (hx : (start root settings extractors t).workspace.classify f = some (.glue x)) :
    let p := (start root settings extractors t).run events
    let past := (start root settings extractors t).builds [] events
    p.workspace.repository.definitionsFor f =
        Definition.firstOccurrences ((lastExtracted past x f).elim [] fun found =>
          found.steps.filterMap (·.definition? f)) ∧
      p.store.markersOf f = (lastReadable past f).elim [] (glueMarkers x f) ∧
      ∀ source found, lastReadSinceFull past f = some source → x.extract source = .ok found →
        ∀ s ∈ found.steps,
          (∃ d ∈ p.workspace.repository.definitionsFor f,
            d.pattern = s.pattern ∧ d.line = s.line) ∨
          ∃ m ∈ p.store.markersOf f, s.complaint? f = some m := by
  intro p past
  have hp : p.OnRecord past := (OnRecord.start root settings extractors t).run events
  have hx : p.workspace.classify f = some (.glue x) :=
    ((run_sameSetup (start root settings extractors t) events).classify_eq f).trans hx
  have hdefinitions : p.workspace.repository.definitionsFor f =
      Definition.firstOccurrences ((lastExtracted past x f).elim [] fun found =>
        found.steps.filterMap (·.definition? f)) := by
    rw [Repository.definitionsFor, hp.entry f x hx, entryFor]
    cases lastExtracted past x f with
    | none => rfl
    | some found => exact Repository.getD_entryOf _
  refine ⟨hdefinitions, hp.markers f x hx, fun source found hsource hfound s hs => ?_⟩
  rw [hdefinitions, hp.markers f x hx, lastExtracted_of_sinceFull hsource hfound,
    lastReadable_of_sinceFull hsource]
  exact defined_or_marked hfound hs

/-- Glue with an error that is then replaced by bytes that are no text: a full build takes its
definitions and leaves it the marker of the text that could last be read. -/
theorem glue_contributes_last_readings_spoilt :
    let new := start ⟨[]⟩ sampleSettings Extractor.all (soleGlue "(".toUTF8)
    let p := new.run [.build .full, .change (soleGlue ⟨#[0xff]⟩), .build .full]
    let f : FileId := ⟨[.name "a.rs"]⟩
    new.workspace.classify f = some (.glue .attributes) ∧
      p.workspace.repository.definitionsFor f = [] ∧
      p.store.markersOf f = glueMarkers .attributes f "(" := by
  intro new p f
  let b : Occasion := ⟨new.workspace, .full, soleGlue "(".toUTF8⟩
  let c : Occasion := ⟨(new.run [.build .full]).workspace, .full, soleGlue ⟨#[0xff]⟩⟩
  have hb : b.workspace.kindIn b.snapshot f = some (.glue .attributes) :=
    soleGlue_kindIn (by decide) (soleGlue "(".toUTF8)
  have hc : f ∈ c.snapshot.files := by
    have hview : c.snapshot = new.workspace.view (soleGlue ⟨#[0xff]⟩) :=
      (run_sameSetup new [.build .full]).view_eq _
    have hkind := @soleGlue_kindIn ⟨#[0xff]⟩ (by decide) (soleGlue "(".toUTF8)
    rw [hview]
    exact Workspace.mem_files_of_kindIn (Option.isSome_of_eq_some hkind)
  have hbfile := Workspace.mem_files_of_kindIn (Option.isSome_of_eq_some hb)
  have hbread : b.readText f = some "(" := by
    have htext : b.workspace.sourceText b.snapshot.read f = .ok "(" := FileTree.read_file rfl
    exact toOption_eq_some.mpr htext
  have hcread : c.readText f = none := by
    have htext : c.workspace.sourceText c.snapshot.read f = .error .invalidData :=
      FileTree.read_file_of_invalid rfl (by decide +kernel)
    exact congrArg Except.toOption htext
  have hclassify := Workspace.classify_of_kindIn hb
  obtain ⟨hdefinitions, hmarkers, -⟩ := glue_contributes_last_readings ⟨[]⟩ sampleSettings
    Extractor.all (soleGlue "(".toUTF8)
    [.build .full, .change (soleGlue ⟨#[0xff]⟩), .build .full] f .attributes hclassify
  have hpast : new.builds [] [.build .full, .change (soleGlue ⟨#[0xff]⟩), .build .full] =
      [c, b] := rfl
  rw [hpast] at hdefinitions hmarkers
  refine ⟨hclassify, hdefinitions.trans ?_, hmarkers.trans ?_⟩
  · have hfound : lastExtracted [c, b] .attributes f = none := by
      rw [lastExtracted_cons hc, Occasion.extracted, hcread]
      rfl
    rw [hfound]
    rfl
  · have hread : lastReadable [c, b] f = some "(" := by
      rw [lastReadable_cons hc, lastReadable_cons hbfile, hcread, hbread]
      rfl
    rw [hread]
    rfl

end Project

end StepGlue
