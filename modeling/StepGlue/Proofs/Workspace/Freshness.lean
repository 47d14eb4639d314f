import StepGlue.Proofs.Workspace.Run

/-! No feature is left marked against glue that is out of date.

A feature that a build knows carries the markers of the text from which it was last marked, under
the definitions of the repository as it is now. A build that leaves a feature unmarked has found
no glue to have changed, and then it has not touched the repository either. -/

namespace StepGlue

theorem Workspace.classify_feature {w : Workspace} {f : FileId} :
    w.classify f = some .feature ↔ f.isFeature = true := by
  unfold classify
  split
  · next hf => simp [hf]
  · next hf => simp [hf]

namespace Project

/-- The markers of a feature are those of the text that it was last marked from, under the
definitions that the repository has now. -/
def MarkedAgainstGlue (p : Project) (f : FileId) : Prop :=
  ∃ text, p.texts f = some text ∧
    p.store.markersOf f = sourceMarkers p.workspace.settings.reportMatches f
      p.workspace.repository.definitions text

/-- Every feature that the last build saw is marked against the present glue. -/
def Fresh (p : Project) : Prop :=
  ∀ f, f.isFeature = true → (p.workspace.stamps.get? f).isSome → p.MarkedAgainstGlue f

theorem Fresh.built {p : Project} (h : p.Fresh) {w : Workspace} {kind : BuildKind} {t : FileTree}
    (hrepo : w.repository = p.workspace.repository) (hstamps : w.stamps = p.workspace.stamps)
    (hset : w.settings = p.workspace.settings) : (p.built w kind t).Fresh := by
  intro f hf hseen
  let s := w.view t
  have hkind : w.kindIn s f = some .feature := by
    have hsome : (w.kindIn s f).isSome := by
      change ((w.build kind s).workspace.stamps.get? f).isSome at hseen
      rw [Workspace.build_stamps] at hseen
      split at hseen
      · assumption
      · cases hseen
    rw [Workspace.kindIn, if_pos (Workspace.mem_files_of_kindIn hsome)]
    exact Workspace.classify_feature.mpr hf
  have hmarkers : (p.built w kind t).store.markersOf f =
      effects f (w.build kind s).calls (p.store.markersOf f) :=
    MarkerStore.markersOf_run _ _ _
  have hset' : (p.built w kind t).workspace.settings = w.settings :=
    (Workspace.build_sameSetup w kind s).settings
  rw [Workspace.effects_build_feature hkind] at hmarkers
  by_cases hmark : f ∈ w.marked kind s
  · refine ⟨w.sourceText s.read f, if_pos hmark, ?_⟩
    rw [if_pos hmark] at hmarkers
    rw [hmarkers, hset']
    rfl
  · -- the repository is the one of the last build, which saw the feature with this stamp
    have hun := mt (fun hh => Workspace.mem_marked.mpr ⟨hkind, hh⟩) hmark
    obtain ⟨hglue, hch⟩ := not_or.mp hun
    obtain ⟨rfl, hstamp⟩ := Workspace.stamp_of_unchanged (by simpa using hch)
    obtain ⟨text, htext, hold⟩ := h f hf (by rw [← hstamps, hstamp]; rfl)
    have hglue : (w.surveyed .incremental s).glueChanged = false := by simpa using hglue
    have hsame : (p.built w .incremental t).workspace.repository = p.workspace.repository :=
      (Workspace.build_repository_of_glue_unchanged hglue).trans hrepo
    refine ⟨text, (if_neg hmark).trans htext, ?_⟩
    rw [if_neg hmark] at hmarkers
    rw [hmarkers, hold, hsame, hset', hset]

theorem Fresh.step {p : Project} (h : p.Fresh) (e : Event) : (p.step e).Fresh := by
  cases hb : p.buildsOn e with
  | none =>
    obtain ⟨⟨_, _, hw⟩, hstore, -, htexts⟩ := step_of_not_buildsOn hb
    intro f hf hseen
    rw [hw] at hseen
    unfold MarkedAgainstGlue
    rw [hstore, htexts, hw]
    exact h f hf hseen
  | some t =>
    obtain ⟨forced, kind, hs⟩ := step_of_buildsOn hb
    rw [hs]
    exact h.built rfl rfl rfl

theorem Fresh.run {p : Project} (h : p.Fresh) (events : List Event) : (p.run events).Fresh := by
  induction events generalizing p with
  | nil => exact h
  | cons e es ih => exact ih (h.step e)

theorem Fresh.start (root : FileId) (settings : BuildSettings) (extractors : List Extractor)
    (t : FileTree) : (start root settings extractors t).Fresh := by
  intro f _ hseen
  cases hseen

/-- After every build of any run, every feature that the build saw is marked from the text it was
last marked from, under the definitions that the repository has at the end of that build. -/
theorem build_marks_against_present_glue (root : FileId) (settings : BuildSettings)
    (extractors : List Extractor) (t : FileTree) (before : List Event) (e : Event) (f : FileId)
    (he : (((start root settings extractors t).run before).buildsOn e).isSome)
    (hf : f.isFeature = true)
    (hscan : let p := (start root settings extractors t).run (before ++ [e])
      f ∈ (p.tree.snapshot root settings.maxFileBytes).files) :
    ((start root settings extractors t).run (before ++ [e])).MarkedAgainstGlue f := by
  have hfresh := (Fresh.start root settings extractors t).run (before ++ [e])
  refine hfresh f hf ?_
  let q := (start root settings extractors t).run before
  obtain ⟨u, hu⟩ := Option.isSome_iff_exists.mp he
  obtain ⟨forced, kind, hs⟩ := step_of_buildsOn hu
  have hsame : q.workspace.SameSetup (start root settings extractors t).workspace :=
    run_sameSetup _ before
  have hrun : (start root settings extractors t).run (before ++ [e]) =
      q.built { q.workspace with forced } kind u := (run_append _ _ _).trans hs
  rw [hrun] at hscan ⊢
  have hfiles : f ∈ (q.workspace.view u).files := by
    rw [hsame.view_eq]
    exact hscan
  have hstamps := Workspace.build_stamps { q.workspace with forced } kind (q.workspace.view u) f
  have hkind : ({ q.workspace with forced } : Workspace).kindIn (q.workspace.view u) f =
      some .feature := by
    rw [Workspace.kindIn, if_pos hfiles]
    exact Workspace.classify_feature.mpr hf
  rw [hkind] at hstamps
  exact Option.isSome_of_eq_some hstamps

/-- Glue that an overlay replaces for one build. -/
def sampleOverlay : List Event :=
  [.build .full, .overlay ⟨[.name "a.java"]⟩ "@Given(\"a c\")", .build .incremental]

theorem build_marks_against_present_glue_overlay :
    (FileId.isFeature ⟨[.name "b.feature"]⟩ = true ∧
      ⟨[.name "b.feature"]⟩ ∈ ((sample.run sampleOverlay).tree.snapshot ⟨[]⟩ 1000).files) ∧
      (sample.run sampleOverlay).MarkedAgainstGlue ⟨[.name "b.feature"]⟩ := by
  have hfeature : FileId.isFeature ⟨[.name "b.feature"]⟩ = true := by decide +kernel
  have hscan : ⟨[.name "b.feature"]⟩ ∈
      ((sample.run sampleOverlay).tree.snapshot ⟨[]⟩ 1000).files := by
    change ⟨[.name "b.feature"]⟩ ∈ ((sampleTree "@Given(\"a b\")" 1).snapshot ⟨[]⟩ 1000).files
    exact (mem_sampleTree_files (by decide)).mpr (Or.inr rfl)
  exact ⟨⟨hfeature, hscan⟩, build_marks_against_present_glue ⟨[]⟩ sampleSettings Extractor.all _
    (sampleOverlay.take 2) (.build .incremental) _ rfl hfeature hscan⟩

end Project

end StepGlue
