import StepGlue.Proofs.Workspace.Run

/-! Incremental builds agree with building from scratch.

A workspace is up to date with a snapshot when its stamps, its repository and its markers are
what the snapshot alone determines. A build of either kind carries this from the snapshot of the
last build to its own, if equal stamps mean equal texts and all glue can be read. A new workspace
is up to date with nothing, so it gets there by one build, and being up to date leaves no room
for a difference. -/

namespace StepGlue

namespace Workspace

/-- The entry of a file in the repository of a build from scratch. -/
def scratchEntry (w : Workspace) (s : Snapshot) (f : FileId) : Option (List Definition) :=
  match w.kindIn s f with
  | some (.glue e) => (indexGlue e f (s.read f)).1.bind Repository.entryOf
  | _ => none

/-- The markers of a file after a build from scratch. -/
def scratchMarkers (w : Workspace) (s : Snapshot) (f : FileId) : List Marker :=
  match w.kindIn s f with
  | none => []
  | some .feature =>
    sourceMarkers w.settings.reportMatches f w.repository.definitions (s.read f)
  | some (.glue e) =>
    match s.read f with
    | .error _ => []
    | .ok source => glueMarkers e f source

structure UpToDate (w : Workspace) (store : MarkerStore) (s : Snapshot) : Prop where
  stamps : ∀ f, w.stamps.get? f = if (w.kindIn s f).isSome then some (s.stamp f) else none
  ordered : w.repository.entries.Ordered
  repository : ∀ f, w.repository.entries.get? f = w.scratchEntry s f
  markers : ∀ f, store.markersOf f = w.scratchMarkers s f

/-- Every glue file that a build sees can be read and understood. -/
def GlueReadable (w : Workspace) (s : Snapshot) : Prop :=
  ∀ f ∈ s.files, ∀ e, w.classify f = some (.glue e) →
    ∃ source found, s.read f = .ok source ∧ e.extract source = .ok found

/-- The files whose stamps a workspace knows still have the texts of another snapshot. -/
def StampsTell (w : Workspace) (old s : Snapshot) : Prop :=
  ∀ f, w.stamps.get? f = some (s.stamp f) → (s.read f).toOption = (old.read f).toOption

theorem GlueReadable.congr {w w' : Workspace} (hs : w.SameSetup w') {s : Snapshot}
    (h : w.GlueReadable s) : w'.GlueReadable s := by
  intro f hf e he
  exact h f hf e ((hs.classify_eq f).trans he)

theorem GlueReadable.of_kindIn {w : Workspace} {s : Snapshot} (h : w.GlueReadable s) {f : FileId}
    {e : Extractor} (hf : w.kindIn s f = some (.glue e)) :
    ∃ source found, s.read f = .ok source ∧ e.extract source = .ok found := by
  have hmem : f ∈ s.files := mem_files_of_kindIn (Option.isSome_of_eq_some hf)
  rw [kindIn, if_pos hmem] at hf
  exact h f hmem e hf

/-- Two snapshots never disagree about what a file is, only about whether it is there. -/
theorem kindIn_eq_of_isSome {w : Workspace} {s t : Snapshot} {f : FileId} {k : SourceKind}
    (hs : w.kindIn s f = some k) (ht : (w.kindIn t f).isSome) : w.kindIn t f = some k := by
  have hmem : f ∈ s.files := mem_files_of_kindIn (Option.isSome_of_eq_some hs)
  rw [kindIn, if_pos hmem] at hs
  rw [kindIn, if_pos (mem_files_of_kindIn ht), hs]

theorem sourceText_of_no_overlays {w : Workspace} (h : w.overlays = {})
    (read : FileId → Except ReadError String) (f : FileId) : w.sourceText read f = read f := by
  simp [sourceText, h]

theorem sourceMarkers_congr {text other : Except ReadError String}
    (h : text.toOption = other.toOption) (reportMatches : Bool) (f : FileId)
    (ds : List Definition) :
    sourceMarkers reportMatches f ds text = sourceMarkers reportMatches f ds other := by
  cases text <;> cases other <;> simp_all [Except.toOption, sourceMarkers]

/-- A file that a build takes for unchanged was seen by the last build, and has kept its text. -/
theorem UpToDate.of_unchanged {w : Workspace} {store : MarkerStore} {old s : Snapshot}
    (h : w.UpToDate store old) (htell : w.StampsTell old s) {kind : BuildKind} {f : FileId}
    (hf : w.changed kind s f = false) :
    kind = .incremental ∧ (w.kindIn old f).isSome ∧
      (s.read f).toOption = (old.read f).toOption := by
  obtain ⟨hkind, hstamp⟩ := stamp_of_unchanged hf
  refine ⟨hkind, ?_, htell f hstamp⟩
  have hh := h.stamps f
  rw [hstamp] at hh
  cases hold : (w.kindIn old f).isSome with
  | true => rfl
  | false => simp [hold] at hh

/-- Nothing is kept of a file that is no glue file of the build. -/
theorem UpToDate.kept_eq_none {w : Workspace} {store : MarkerStore} {old s : Snapshot}
    (h : w.UpToDate store old) {f : FileId} (hf : ∀ e, w.kindIn s f ≠ some (.glue e))
    (kind : BuildKind) : w.kept kind s f = none := by
  cases kind with
  | full => rfl
  | incremental =>
    unfold kept
    dsimp only
    split
    · rfl
    · next hgone =>
      rw [h.repository f, scratchEntry]
      split
      · next e he =>
        exfalso
        cases hk : w.kindIn s f with
        | none =>
          refine hgone (mem_gone.mpr ⟨?_, hk⟩)
          rw [h.stamps f, he]
          rfl
        | some k =>
          have hh := kindIn_eq_of_isSome he (t := s) (by simp [hk])
          exact hf e hh
      · rfl

section Step

variable {w : Workspace} {store : MarkerStore} {old s : Snapshot}
  (h : w.UpToDate store old) (hov : w.overlays = {}) (htell : w.StampsTell old s)
  (hglue : w.GlueReadable s) (kind : BuildKind)

include h hov htell hglue

theorem UpToDate.build_repository (f : FileId) :
    (w.build kind s).workspace.repository.entries.get? f = w.scratchEntry s f := by
  by_cases hf : ∃ e, w.kindIn s f = some (.glue e)
  · obtain ⟨e, he⟩ := hf
    obtain ⟨source, found, hread, hfound⟩ := hglue.of_kindIn he
    rw [build_repository_glue he, scratchEntry, he, sourceText_of_no_overlays hov]
    have hindex : ∃ ds, (indexGlue e f (s.read f)).1 = some ds := by
      rw [hread]
      simp only [indexGlue, hfound]
      exact ⟨_, rfl⟩
    obtain ⟨ds, hds⟩ := hindex
    cases hc : w.changed kind s f with
    | true => simp [hds]
    | false =>
      obtain ⟨rfl, hold, htext⟩ := h.of_unchanged htell hc
      have hgone : f ∉ w.gone s := fun hg => by simp [(mem_gone.mp hg).2] at he
      have hread' : old.read f = .ok source := by
        rw [hread] at htext
        cases ho : old.read f <;> simp_all [Except.toOption]
      simp only [Bool.false_eq_true, if_false, kept, if_neg hgone]
      rw [h.repository f, scratchEntry, kindIn_eq_of_isSome he hold, hread', hread]
  · have hne : ∀ e, w.kindIn s f ≠ some (.glue e) := fun e he => hf ⟨e, he⟩
    rw [build_repository_other hne, h.kept_eq_none hne kind, scratchEntry]
    split
    · next e he => exact absurd he (hne e)
    · rfl

theorem UpToDate.build_markers (f : FileId) :
    (store.run (w.build kind s).calls).1.markersOf f =
      (w.build kind s).workspace.scratchMarkers s f := by
  have hsame := build_sameSetup w kind s
  rw [MarkerStore.markersOf_run, scratchMarkers, hsame.kindIn_eq, hsame.settings]
  cases hk : w.kindIn s f with
  | none =>
    rw [effects_build_none hk, h.stamps f, h.markers f, scratchMarkers]
    cases w.kindIn old f <;> simp
  | some k =>
    cases k with
    | feature =>
      rw [effects_build_feature hk, sourceText_of_no_overlays hov]
      split
      · rfl
      · next hmark =>
        -- an unmarked feature is unchanged, and so is all glue
        have hun := mt (fun hh => mem_marked.mpr ⟨hk, hh⟩) hmark
        obtain ⟨hg, hc⟩ := not_or.mp hun
        obtain ⟨rfl, hold, htext⟩ := h.of_unchanged htell (by simpa using hc)
        rw [h.markers f, scratchMarkers, kindIn_eq_of_isSome hk hold,
          build_repository_of_glue_unchanged (by simpa using hg)]
        exact (sourceMarkers_congr htext _ _ _).symm
    | glue e =>
      obtain ⟨source, found, hread, -⟩ := hglue.of_kindIn hk
      rw [effects_build_glue hk, sourceText_of_no_overlays hov, hread]
      cases hc : w.changed kind s f with
      | true => rfl
      | false =>
        obtain ⟨-, hold, htext⟩ := h.of_unchanged htell hc
        rw [hread] at htext
        simp only [Bool.false_eq_true, if_false, h.markers f, scratchMarkers,
          kindIn_eq_of_isSome hk hold]
        cases ho : old.read f <;> simp_all [Except.toOption]

/-- A build brings an up-to-date workspace from one snapshot to the next. -/
theorem UpToDate.build :
    (w.build kind s).workspace.UpToDate (store.run (w.build kind s).calls).1 s where
  stamps f := by rw [build_stamps, (build_sameSetup w kind s).kindIn_eq]
  ordered := build_ordered h.ordered kind s
  repository f := by
    rw [h.build_repository hov htell hglue kind f]
    simp only [scratchEntry, (build_sameSetup w kind s).kindIn_eq]
  markers := h.build_markers hov htell hglue kind

end Step

/-- Nothing is left open by being up to date. -/
theorem UpToDate.agree {w w' : Workspace} {store store' : MarkerStore} {s : Snapshot}
    (h : w.UpToDate store s) (h' : w'.UpToDate store' s) (hs : w.SameSetup w') :
    w.repository = w'.repository ∧ ∀ f, store.markersOf f = store'.markersOf f := by
  have hrepo : w.repository = w'.repository := by
    refine Repository.ext_of_get? h.ordered h'.ordered fun f => ?_
    rw [h.repository f, h'.repository f]
    simp only [scratchEntry, hs.kindIn_eq]
  refine ⟨hrepo, fun f => ?_⟩
  rw [h.markers f, h'.markers f]
  simp only [scratchMarkers, hs.kindIn_eq, hs.settings, hrepo]

/-- What a new workspace has seen. -/
def unseen : Snapshot := ⟨[], fun _ => .error .notFound, fun _ => none⟩

theorem upToDate_new (root : FileId) (settings : BuildSettings) (extractors : List Extractor) :
    ({ root, settings, extractors } : Workspace).UpToDate {} unseen where
  stamps f := by simp [kindIn, unseen]
  ordered := FileMap.Ordered.empty
  repository f := by simp [scratchEntry, kindIn, unseen]
  markers f := by
    simp only [scratchMarkers, kindIn, unseen, List.not_mem_nil, if_false]
    rfl

/-- A new workspace knows no stamps, so none can mislead it. -/
theorem UpToDate.stampsTell_unseen {w : Workspace} {store : MarkerStore}
    (h : w.UpToDate store unseen) (s : Snapshot) : w.StampsTell unseen s := by
  intro f hf
  rw [h.stamps f] at hf
  simp [kindIn, unseen] at hf

end Workspace

namespace Project

/-- An event without an overlay; and if it builds, all glue can be read, and a file with the stamp
that the last build recorded has the text that the last build saw. -/
def Admits (p : Project) (e : Event) : Prop :=
  (∀ f text, e ≠ .overlay f text) ∧ ∀ t, p.buildsOn e = some t →
    p.workspace.GlueReadable (p.workspace.view t) ∧
      ∀ old, p.seen = some old →
        p.workspace.StampsTell (p.workspace.view old) (p.workspace.view t)

/-- Every event of a run is admitted when it comes. -/
def Orderly : Project → List Event → Prop
  | _, [] => True
  | p, e :: es => p.Admits e ∧ (p.step e).Orderly es

theorem Orderly.append {p : Project} {es fs : List Event} :
    p.Orderly (es ++ fs) ↔ p.Orderly es ∧ (p.run es).Orderly fs := by
  induction es generalizing p with
  | nil => exact ⟨fun h => ⟨trivial, h⟩, fun h => h.2⟩
  | cons e es ih =>
    simp only [List.cons_append, Orderly, ih, and_assoc]
    rfl

/-- The snapshot of the last build, or of nothing. -/
def lastView (p : Project) : Snapshot := p.seen.elim Workspace.unseen p.workspace.view

structure Current (p : Project) : Prop where
  overlays : p.workspace.overlays = {}
  upToDate : p.workspace.UpToDate p.store p.lastView

theorem Current.start (root : FileId) (settings : BuildSettings) (extractors : List Extractor)
    (t : FileTree) : (start root settings extractors t).Current :=
  ⟨rfl, Workspace.upToDate_new root settings extractors⟩

theorem Current.step {p : Project} (h : p.Current) {e : Event} (he : p.Admits e) :
    (p.step e).Current := by
  cases hb : p.buildsOn e with
  | none =>
    obtain ⟨⟨_, _, hw⟩, hstore, hseen, -⟩ := step_of_not_buildsOn hb
    refine ⟨(step_overlays hb he.1).trans h.overlays, ?_⟩
    rw [hstore, lastView, hseen, hw]
    exact ⟨h.upToDate.stamps, h.upToDate.ordered, h.upToDate.repository, h.upToDate.markers⟩
  | some t =>
    obtain ⟨forced, kind, hs⟩ := step_of_buildsOn hb
    obtain ⟨hglue, htell⟩ := he.2 t hb
    -- forced files have no say in being up to date
    have hup : ({ p.workspace with forced } : Workspace).UpToDate p.store p.lastView :=
      ⟨h.upToDate.stamps, h.upToDate.ordered, h.upToDate.repository, h.upToDate.markers⟩
    have htell' : ({ p.workspace with forced } : Workspace).StampsTell p.lastView
        (p.workspace.view t) := by
      cases hseen : p.seen with
      | none =>
        have hlast : p.lastView = Workspace.unseen := by simp [lastView, hseen]
        rw [hlast] at hup ⊢
        exact hup.stampsTell_unseen _
      | some old =>
        have hlast : p.lastView = p.workspace.view old := by simp [lastView, hseen]
        rw [hlast]
        exact htell old hseen
    have hbuilt := hup.build h.overlays htell' hglue kind
    have hview : (p.step e).lastView = p.workspace.view t := by
      have hseen : (p.step e).seen = some t := by rw [hs]; rfl
      rw [lastView, hseen]
      exact (p.step_sameSetup e).view_eq t
    refine ⟨?_, ?_⟩
    · obtain ⟨_, _, hw⟩ := Workspace.build_setup { p.workspace with forced } kind
        (p.workspace.view t)
      rw [hs]
      exact congrArg (·.overlays) hw
    · rw [hview, hs]
      exact hbuilt

theorem Current.run {p : Project} (h : p.Current) {events : List Event}
    (he : p.Orderly events) : (p.run events).Current := by
  induction events generalizing p with
  | nil => exact h
  | cons e es ih => exact ih (h.step he.1) he.2

/-- A new project that has run one full build. -/
def scratch (root : FileId) (settings : BuildSettings) (extractors : List Extractor)
    (t : FileTree) : Project :=
  (start root settings extractors t).step (.build .full)

/-- Markers and repository are those of a new project with a full build on the same file
system. -/
structure AgreesWithScratch (root : FileId) (settings : BuildSettings)
    (extractors : List Extractor) (p : Project) : Prop where
  markers : ∀ f, p.store.markersOf f =
    (scratch root settings extractors p.tree).store.markersOf f
  files : p.workspace.repository.files =
    (scratch root settings extractors p.tree).workspace.repository.files
  definitionsFor : ∀ f, p.workspace.repository.definitionsFor f =
    (scratch root settings extractors p.tree).workspace.repository.definitionsFor f
  definitions : p.workspace.repository.definitions =
    (scratch root settings extractors p.tree).workspace.repository.definitions

/-- Every build of an orderly run leaves what building from scratch would. -/
theorem build_agrees_with_scratch (root : FileId) (settings : BuildSettings)
    (extractors : List Extractor) (t : FileTree) (before after : List Event) (e : Event)
    (h : (start root settings extractors t).Orderly (before ++ e :: after))
    (he : (((start root settings extractors t).run before).buildsOn e).isSome) :
    ((start root settings extractors t).run (before ++ [e])).AgreesWithScratch
      root settings extractors := by
  let p := (start root settings extractors t).run (before ++ [e])
  let fresh := scratch root settings extractors p.tree
  obtain ⟨hbefore, hadmits, -⟩ := Orderly.append.mp h
  obtain ⟨u, hu⟩ := Option.isSome_iff_exists.mp he
  obtain ⟨forced, kind, hs⟩ := step_of_buildsOn hu
  have hrun : p = ((start root settings extractors t).run before).step e := run_append _ _ _
  have hseen : p.seen = some u := by rw [hrun, hs]; rfl
  have htree : p.tree = u := by rw [hrun, hs]; rfl
  have hcur : p.Current := by
    rw [hrun]
    exact ((Current.start root settings extractors t).run hbefore).step hadmits
  -- the new project has the same setup, so it sees what the last build has seen
  let new := start root settings extractors p.tree
  have hold : ((start root settings extractors t).run before).workspace.SameSetup new.workspace :=
    (run_sameSetup _ before).trans ⟨rfl, rfl, rfl⟩
  have hsame : p.workspace.SameSetup fresh.workspace :=
    ((run_sameSetup _ (before ++ [e])).trans ⟨rfl, rfl, rfl⟩).trans
      (new.step_sameSetup (.build .full)).symm
  have hview : fresh.lastView = p.lastView := by
    rw [lastView, lastView, hseen, show fresh.seen = some u from congrArg some htree]
    exact hsame.symm.view_eq u
  have hfresh : fresh.Current := by
    refine (Current.start root settings extractors p.tree).step ⟨by simp, ?_⟩
    intro v hv
    have hvu : u = v := htree.symm.trans (Option.some.inj hv)
    have hread := (hadmits.2 u hu).1
    rw [hold.view_eq, hvu] at hread
    exact ⟨hread.congr hold, fun old hnone => by cases hnone⟩
  have hup := hfresh.upToDate
  rw [hview] at hup
  obtain ⟨hrepo, hmarkers⟩ := hcur.upToDate.agree hup hsame
  exact ⟨hmarkers, by rw [hrepo], fun f => by rw [hrepo], by rw [hrepo]⟩

/-- A full build, an edit of the glue, an incremental build. -/
def sampleEdit : List Event :=
  [.build .full, .change (sampleTree "@Given(\"a c\")" 2), .build .incremental]

theorem sample_glue {e : Extractor}
    (h : sample.workspace.classify ⟨[.name "a.java"]⟩ = some (.glue e)) : e = .annotations :=
  (SourceKind.glue.inj (Option.some.inj (sample_classify_glue.symm.trans h))).symm

theorem sample_feature {e : Extractor} :
    sample.workspace.classify ⟨[.name "b.feature"]⟩ ≠ some (.glue e) := by
  simp [sample_classify_feature]

theorem sample_glueReadable {t : FileTree} {text : String}
    (hfiles : ∀ f ∈ (t.snapshot ⟨[]⟩ 1000).files,
      f = ⟨[.name "a.java"]⟩ ∨ f = ⟨[.name "b.feature"]⟩)
    (hread : t.read ⟨[.name "a.java"]⟩ = .ok text) :
    sample.workspace.GlueReadable (sample.workspace.view t) := by
  intro f hf e he
  rcases hfiles f hf with rfl | rfl
  · obtain rfl := sample_glue he
    exact ⟨text, _, hread, rfl⟩
  · exact absurd he sample_feature

theorem sampleEdit_orderly : sample.Orderly sampleEdit := by
  have hsame := (sample.step_sameSetup (.build .full)).symm
  refine ⟨⟨by simp, ?_⟩, ⟨by simp, by simp [buildsOn]⟩, ⟨by simp, ?_⟩, trivial⟩
  · intro t ht
    obtain rfl := Option.some.inj ht
    have hread : (sampleTree "@Given(\"a b\")" 1).read ⟨[.name "a.java"]⟩ =
      .ok "@Given(\"a b\")" := FileTree.read_file rfl
    exact ⟨sample_glueReadable (fun f hf => (mem_sampleTree_files (by decide)).mp hf) hread,
      fun old hnone => by cases hnone⟩
  · intro t ht
    obtain rfl := Option.some.inj ht
    have hread : (sampleTree "@Given(\"a c\")" 2).read ⟨[.name "a.java"]⟩ =
      .ok "@Given(\"a c\")" := FileTree.read_file rfl
    have hglue := (sample_glueReadable
      (fun f hf => (mem_sampleTree_files (by decide)).mp hf) hread).congr hsame
    rw [hsame.view_eq] at hglue
    refine ⟨hglue, fun old hseen f hf => ?_⟩
    obtain rfl := Option.some.inj hseen
    -- the glue has a new stamp, so only the feature can look unchanged
    have hstamps := Workspace.build_stamps sample.workspace .full
      (sample.workspace.view (sampleTree "@Given(\"a b\")" 1)) f
    have hf := hstamps.symm.trans hf
    split at hf
    · next hin =>
      have hmem := Workspace.mem_files_of_kindIn hin
      rcases (mem_sampleTree_files (by decide)).mp hmem with rfl | rfl
      · have hold : (sampleTree "@Given(\"a b\")" 1).stamp? ⟨[.name "a.java"]⟩ = some 1 :=
          FileTree.stamp?_file rfl
        have hnew : (sampleTree "@Given(\"a c\")" 2).stamp? ⟨[.name "a.java"]⟩ = some 2 :=
          FileTree.stamp?_file rfl
        cases hold.symm.trans ((Option.some.inj hf).trans hnew)
      · have hold : (sampleTree "@Given(\"a b\")" 1).read ⟨[.name "b.feature"]⟩ =
          .ok "Feature: x\n Scenario: y\n  Given a b\n" := FileTree.read_file rfl
        have hnew : (sampleTree "@Given(\"a c\")" 2).read ⟨[.name "b.feature"]⟩ =
          .ok "Feature: x\n Scenario: y\n  Given a b\n" := FileTree.read_file rfl
        exact congrArg Except.toOption (hnew.trans hold.symm)
    · cases hf

theorem build_agrees_with_scratch_after_edit :
    sample.Orderly sampleEdit ∧
      (sample.run sampleEdit).AgreesWithScratch ⟨[]⟩ sampleSettings Extractor.all :=
  ⟨sampleEdit_orderly, build_agrees_with_scratch ⟨[]⟩ sampleSettings Extractor.all _
    (sampleEdit.take 2) [] (.build .incremental) sampleEdit_orderly rfl⟩

end Project

end StepGlue
