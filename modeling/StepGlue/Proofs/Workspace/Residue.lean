import StepGlue.Proofs.Workspace.Forgetting
import StepGlue.Proofs.Workspace.Freshness

/-! Nothing outlives its file.

Only files with a recorded stamp are ever cleaned up. So a file may have markers or definitions
only if it has a stamp, and every build keeps it that way: what it does not see loses its stamp,
its definitions and its markers together. -/

namespace StepGlue

/-! ### Kinds of markers -/

theorem kind_of_mem_outcomeMarkers {reportMatches : Bool} {file : FileId} {doc : Document}
    {step : Step} {o : Outcome} {m : Marker}
    (h : m ∈ outcomeMarkers reportMatches file doc step o) : m.kind ≠ .stepdefSyntaxError := by
  cases o with
  | unmatched =>
    have h : unmatchedMarker file doc step = some m := Option.mem_toList.mp h
    obtain ⟨span, rfl⟩ := exists_of_markAt h
    simp [Marker.ofKind]
  | single d =>
    cases reportMatches with
    | false => cases h
    | true =>
      have h : matchedMarker doc step d = some m := Option.mem_toList.mp h
      obtain ⟨span, rfl⟩ := exists_of_markAt h
      simp [Marker.ofKind]
  | multiple ds =>
    have h : multipleMarker doc step ds = some m := Option.mem_toList.mp h
    obtain ⟨span, rfl⟩ := exists_of_markAt h
    simp [Marker.ofKind]

theorem kind_of_mem_outlineMarkers {doc : Document} {ds : List Definition} {o : Outline}
    {m : Marker} (h : m ∈ outlineMarkers doc ds o) : m.kind ≠ .stepdefSyntaxError := by
  rcases List.mem_append.mp h with h | h
  · obtain ⟨r, -, h⟩ := List.mem_flatMap.mp h
    have h : exampleMarker doc r.line = some m := Option.mem_toList.mp h
    unfold exampleMarker at h
    split at h
    · cases h
    · dsimp only at h
      obtain ⟨span, rfl⟩ := exists_of_markAt h
      simp [Marker.ofKind]
  · obtain ⟨⟨s, ds⟩, -, h⟩ := List.mem_flatMap.mp h
    have h : multipleMarker doc s ds = some m := Option.mem_toList.mp h
    obtain ⟨span, rfl⟩ := exists_of_markAt h
    simp [Marker.ofKind]

/-- Features carry every kind of marker but the one of glue. -/
theorem kind_of_mem_sourceMarkers {reportMatches : Bool} {file : FileId} {ds : List Definition}
    {text : Except ReadError String} {m : Marker}
    (h : m ∈ sourceMarkers reportMatches file ds text) : m.kind ≠ .stepdefSyntaxError := by
  cases text with
  | error err => cases h
  | ok source =>
    simp only [sourceMarkers, featureMarkers] at h
    split at h
    · rw [List.mem_singleton.mp h]
      simp [gherkinErrorMarker, Marker.ofKind]
    · rcases List.mem_append.mp h with h | h
      · obtain ⟨s, -, h⟩ := List.mem_flatMap.mp h
        exact kind_of_mem_outcomeMarkers h
      · obtain ⟨o, -, h⟩ := List.mem_flatMap.mp h
        exact kind_of_mem_outlineMarkers h

theorem kind_of_mem_glueMarkers {e : Extractor} {file : FileId} {source : String} {m : Marker}
    (h : m ∈ glueMarkers e file source) : m.kind = .stepdefSyntaxError := by
  obtain ⟨message, line, rfl⟩ := exists_of_mem_glueMarkers h
  rfl

/-- Glue carries markers of one kind, and features those of the others. -/
def MarkerStore.KindsFit (store : MarkerStore) : Prop :=
  ∀ f, ∀ m ∈ store.markersOf f, m.kind = .stepdefSyntaxError ↔ f.isFeature = false

namespace Workspace

theorem classify_of_kindIn {w : Workspace} {s : Snapshot} {f : FileId} {k : SourceKind}
    (h : w.kindIn s f = some k) : w.classify f = some k := by
  rwa [kindIn, if_pos (mem_files_of_kindIn (Option.isSome_of_eq_some h))] at h

theorem isFeature_of_classify {w : Workspace} {f : FileId} {k : SourceKind}
    (h : w.classify f = some k) : f.isFeature = k.isFeature := by
  unfold classify at h
  split at h
  · next hf =>
    obtain rfl := Option.some.inj h
    exact hf
  · next hf =>
    obtain ⟨e, -, rfl⟩ := Option.map_eq_some_iff.mp h
    exact Bool.eq_false_iff.mpr hf

end Workspace

theorem MarkerStore.KindsFit.build {store : MarkerStore} (h : store.KindsFit) (w : Workspace)
    (kind : BuildKind) (s : Snapshot) : (store.run (w.build kind s).calls).1.KindsFit := by
  intro f m hm
  rw [MarkerStore.markersOf_run] at hm
  cases hk : w.kindIn s f with
  | none =>
    rw [Workspace.effects_build_none hk] at hm
    split at hm
    · cases hm
    · exact h f m hm
  | some k =>
    have hf := Workspace.isFeature_of_classify (Workspace.classify_of_kindIn hk)
    cases k with
    | feature =>
      rw [Workspace.effects_build_feature hk] at hm
      split at hm
      · simp [kind_of_mem_sourceMarkers hm, hf, SourceKind.isFeature]
      · exact h f m hm
    | glue e =>
      rw [Workspace.effects_build_glue hk] at hm
      split at hm
      · split at hm
        · exact h f m hm
        · simp [kind_of_mem_glueMarkers hm, hf, SourceKind.isFeature]
      · exact h f m hm

/-! ### Contributing files -/

namespace Workspace

/-- Files with definitions are glue files with a stamp. -/
def OnlyGlueContributes (w : Workspace) : Prop :=
  ∀ f, (w.repository.entries.get? f).isSome →
    (w.stamps.get? f).isSome ∧ ∃ e, w.classify f = some (.glue e)

/-- Of a file that is not glue in its sight, a build keeps nothing. -/
theorem OnlyGlueContributes.kept_eq_none {w : Workspace} (h : w.OnlyGlueContributes)
    {s : Snapshot} {f : FileId} (hf : ∀ e, w.kindIn s f ≠ some (.glue e)) (kind : BuildKind) :
    w.kept kind s f = none := by
  refine Classical.byContradiction fun hne => ?_
  cases kind with
  | full => exact hne rfl
  | incremental =>
    simp only [kept] at hne
    split at hne
    · exact hne rfl
    · next hgone =>
      -- it has an entry, so it is glue with a stamp: gone, unless the build sees it
      obtain ⟨hstamp, e, he⟩ := h f (Option.isSome_iff_ne_none.mpr hne)
      cases hk : w.kindIn s f with
      | none => exact hgone (mem_gone.mpr ⟨hstamp, hk⟩)
      | some k =>
        obtain rfl : k = .glue e := Option.some.inj ((classify_of_kindIn hk).symm.trans he)
        exact hf e hk

theorem OnlyGlueContributes.build {w : Workspace} (h : w.OnlyGlueContributes) (kind : BuildKind)
    (s : Snapshot) : (w.build kind s).workspace.OnlyGlueContributes := by
  intro f hf
  have hglue : ∃ e, w.kindIn s f = some (.glue e) := by
    refine Classical.byContradiction fun hno => ?_
    have hne : ∀ e, w.kindIn s f ≠ some (.glue e) := fun e he => hno ⟨e, he⟩
    rw [build_repository_other hne, h.kept_eq_none hne kind] at hf
    cases hf
  obtain ⟨e, he⟩ := hglue
  refine ⟨?_, e, ?_⟩
  · rw [build_stamps, he]
    rfl
  · rw [(build_sameSetup w kind s).classify_eq]
    exact classify_of_kindIn he

theorem kindIn_isSome {w : Workspace} {s : Snapshot} {f : FileId} : (w.kindIn s f).isSome ↔
    f ∈ s.files ∧ (f.isFeature = true ∨ w.isGlueFile f.segments = true) := by
  unfold kindIn classify isGlueFile
  split
  · split <;> simp_all
  · simp_all

theorem mem_build_stamps {w : Workspace} {kind : BuildKind} {s : Snapshot} {f : FileId} :
    f ∈ (w.build kind s).workspace.stamps.keys ↔ (w.kindIn s f).isSome := by
  rw [FileMap.mem_keys, build_stamps]
  split <;> simp_all

/-- What every run keeps: whatever carries markers or definitions has a stamp, and is of the right
kind. -/
structure InStep (w : Workspace) (store : MarkerStore) : Prop where
  tracks : w.Tracks store
  contributors : w.OnlyGlueContributes
  kinds : store.KindsFit

theorem inStep_new (root : FileId) (settings : BuildSettings) (extractors : List Extractor) :
    ({ root, settings, extractors } : Workspace).InStep {} := by
  refine ⟨?_, ?_, ?_⟩
  · intro f hf
    exact absurd rfl hf
  · intro f hf
    cases hf
  · intro f m hm
    cases hm

theorem lasting_inStep : Project.Lasting InStep where
  put _ _ h := ⟨h.tracks, h.contributors, h.kinds⟩
  build kind s h :=
    ⟨h.tracks.build kind s, h.contributors.build kind s, h.kinds.build _ kind s⟩

end Workspace

/-! ### Runs -/

namespace Project

/-- Everything that a project holds belongs to one of some files that are there. -/
structure Accounted (p : Project) (files : List FileId) : Prop where
  stamps : ∀ f, f ∈ p.workspace.stamps.keys ↔
    f ∈ files ∧ (f.isFeature = true ∨ p.workspace.isGlueFile f.segments = true)
  markers : ∀ f, p.store.markersOf f ≠ [] → f ∈ p.workspace.stamps.keys
  repository : ∀ f ∈ p.workspace.repository.files,
    f ∈ p.workspace.stamps.keys ∧ ∃ e, p.workspace.classify f = some (.glue e)
  glue_markers : ∀ f e, p.workspace.classify f = some (.glue e) →
    ∀ m ∈ p.store.markersOf f, m.kind = .stepdefSyntaxError
  feature_markers : ∀ f, f.isFeature = true →
    ∀ m ∈ p.store.markersOf f, m.kind ≠ .stepdefSyntaxError
  overlays : p.workspace.overlays = {}
  forced : p.workspace.forced = []

/-- A build leaves everything accounted for by the files that it saw. -/
theorem accounted_built {p : Project} {w : Workspace} {kind : BuildKind} {t : FileTree}
    (h : (p.built w kind t).workspace.InStep (p.built w kind t).store) :
    (p.built w kind t).Accounted (w.view t).files := by
  let s := w.view t
  let q := p.built w kind t
  have hkeys : ∀ f, f ∈ q.workspace.stamps.keys ↔ (w.kindIn s f).isSome := fun f =>
    Workspace.mem_build_stamps
  have hsame : q.workspace.SameSetup w := Workspace.build_sameSetup w kind s
  obtain ⟨stamps, repository, hw⟩ := Workspace.build_setup w kind s
  refine ⟨?_, ?_, ?_, ?_, ?_, ?_, ?_⟩
  · intro f
    rw [hkeys, Workspace.kindIn_isSome, Workspace.isGlueFile, Workspace.isGlueFile,
      hsame.extractors]
  · intro f hf
    exact FileMap.mem_keys.mpr (h.tracks f hf)
  · intro f hf
    obtain ⟨hstamp, hglue⟩ := h.contributors f (FileMap.mem_keys.mp hf)
    exact ⟨FileMap.mem_keys.mpr hstamp, hglue⟩
  · intro f e he m hm
    exact (h.kinds f m hm).mpr (Workspace.isFeature_of_classify he)
  · intro f hf m hm hkind
    have hglue := (h.kinds f m hm).mp hkind
    simp [hf] at hglue
  · exact congrArg (·.overlays) hw
  · exact congrArg (·.forced) hw

/-- After every build of any run, whatever there is belongs to a file that the build saw: the
stamps, the markers and the definitions. Nothing is left that was put down for a build. -/
theorem nothing_outlives_its_file (root : FileId) (settings : BuildSettings)
    (extractors : List Extractor) (t : FileTree) (before : List Event) (e : Event)
    (he : (((start root settings extractors t).run before).buildsOn e).isSome) :
    let p := (start root settings extractors t).run (before ++ [e])
    p.Accounted (p.tree.snapshot root settings.maxFileBytes).files := by
  intro p
  let q := (start root settings extractors t).run before
  have hin : p.workspace.InStep p.store :=
    Workspace.lasting_inStep.run (Workspace.inStep_new root settings extractors) (before ++ [e])
  obtain ⟨u, hu⟩ := Option.isSome_iff_exists.mp he
  obtain ⟨forced, kind, hs⟩ := step_of_buildsOn hu
  have hp : p = q.built { q.workspace with forced } kind u := (run_append _ _ _).trans hs
  have hview : q.workspace.view u = u.snapshot root settings.maxFileBytes :=
    (run_sameSetup (start root settings extractors t) before).view_eq u
  rw [hp] at hin ⊢
  exact hview ▸ accounted_built hin

/-- A project that loses all its files while an overlay and a forced file are put down. -/
theorem nothing_outlives_its_file_emptied :
    let before : List Event := [.build .full, .overlay ⟨[.name "b.feature"]⟩ "Feature: z",
      .markDirty ⟨[.name "a.java"]⟩, .change {}]
    let p := sample.run (before ++ [.build .incremental])
    ((sample.run before).buildsOn (.build .incremental)).isSome ∧
      ∀ f, f ∉ p.workspace.stamps.keys ∧ p.store.markersOf f = [] ∧
        f ∉ p.workspace.repository.files := by
  intro before p
  have hp := nothing_outlives_its_file ⟨[]⟩ sampleSettings Extractor.all
    (sampleTree "@Given(\"a b\")" 1) before (.build .incremental) rfl
  refine ⟨rfl, fun f => ?_⟩
  have hstamp : f ∉ p.workspace.stamps.keys := fun hf =>
    not_mem_empty_files f ((hp.stamps f).mp hf).1
  refine ⟨hstamp, ?_, fun hf => hstamp (hp.repository f hf).1⟩
  exact Classical.byContradiction fun hne => hstamp (hp.markers f hne)

end Project

end StepGlue
