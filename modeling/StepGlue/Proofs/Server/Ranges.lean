import StepGlue.Proofs.Position
import StepGlue.Proofs.Server.Dialogue

/-! Where the findings lie that a save has published.

A build reads the saved file from the text that was sent, and other files from disk. Its spans are
turned into ranges only when it is over and the text that was sent is gone, so every range is one
of the text on disk. That is the text of the build for all files but the saved one, and for the
saved one as long as the disk holds what was sent. -/

namespace StepGlue

theorem span_of_mem_glueMarkers {e : Extractor} {file : FileId} {source : String} {m : Marker}
    (h : m ∈ glueMarkers e file source) : m.span = none := by
  obtain ⟨message, line, rfl⟩ := exists_of_mem_glueMarkers h
  rfl

/-- The text of a file as a build after a save reads it. -/
def savedText (read : FileId → Except ReadError String) (file : FileId) (text : Option String)
    (f : FileId) : Except ReadError String :=
  match text with
  | some sent => if file = f then .ok sent else read f
  | none => read f

theorem disk_of_savedText {read : FileId → Except ReadError String} {file f : FileId}
    {text : Option String} {source : String} (h : savedText read file text f = .ok source)
    (hsent : f = file → ∀ sent, text = some sent → (read f).toOption = some sent) :
    (read f).toOption = some source := by
  unfold savedText at h
  split at h
  · next sent =>
    by_cases hf : file = f
    · rw [if_pos hf] at h
      rw [hsent hf.symm sent rfl, Except.ok.inj h]
    · rw [if_neg hf] at h
      rw [h]
      rfl
  · rw [h]
    rfl

namespace Workspace

theorem sourceText_withSaved {w : Workspace} (h : w.overlays = {})
    (read : FileId → Except ReadError String) (file : FileId) (text : Option String)
    (f : FileId) : (w.withSaved file text).sourceText read f = savedText read file text f := by
  cases text with
  | none => exact sourceText_of_no_overlays h read f
  | some sent =>
    simp only [withSaved, setOverlay, sourceText, h, savedText, FileMap.get?_insert]
    by_cases hf : file = f
    · simp [hf]
    · simp [hf]

/-- A marker with a span on a file that a build tells of comes from the text that it has read. -/
theorem mem_featureMarkers_of_told {w : Workspace} {kind : BuildKind} {s : Snapshot}
    {store : MarkerStore} (hq : store.Quiet) (ht : w.Tracks store) {f : FileId}
    (hf : f ∈ (store.run (w.build kind s).calls).2.flatten) {m : Marker}
    (hm : m ∈ (store.run (w.build kind s).calls).1.markersOf f) (hspan : m.span ≠ none) :
    ∃ source, w.sourceText s.read f = .ok source ∧
      m ∈ featureMarkers w.settings.reportMatches f
        (w.build kind s).workspace.repository.definitions source := by
  rcases told_cases hq hf with hgone | ⟨e, source, hk, hch, hread⟩ | hmark
  · rw [ht.build_none (mem_gone.mp hgone).2 kind] at hm
    cases hm
  · rw [MarkerStore.markersOf_run, effects_build_glue hk, if_pos hch, hread] at hm
    exact absurd (span_of_mem_glueMarkers hm) hspan
  · rw [MarkerStore.markersOf_run, effects_build_feature (mem_marked.mp hmark).1,
      if_pos hmark] at hm
    cases hread : w.sourceText s.read f with
    | error err =>
      rw [hread] at hm
      cases hm
    | ok source =>
      rw [hread] at hm
      exact ⟨source, rfl, hm⟩

end Workspace

namespace Server

theorem Tidy.diagnosticsOf {s : Server} (h : s.Tidy) (t : FileTree) (f : FileId) :
    s.diagnosticsOf t f =
      (s.markersOf f).map (Marker.diagnostic (t.read f).toOption) := by
  unfold Server.diagnosticsOf markersOf
  cases hp : s.owner? f with
  | none => rfl
  | some p =>
    obtain ⟨r, -, hr⟩ := Option.bind_eq_some_iff.mp hp
    simp only [Workspace.sourceText_of_no_overlays (h r p hr).no_overlays]

/-- The workspace that a build after a save works on, with the text that was sent put down. -/
def savedWorkspace? (s : Server) (t : FileTree) (path : String) (text : Option String) :
    Option Workspace :=
  let root := s.rootFor t path
  ((s.openProject root).projects.get? root).map (·.workspace.withSaved (.ofPath path) text)

/-- A save publishes the files that its build has told of. -/
theorem AtRest.mem_published_save {s : Server} (h : s.AtRest) {t : FileTree} {uri : Url}
    {path : String} (hpath : uri.filePath? = some path) {text : Option String} {pub : Publication}
    (hpub : pub ∈ (s.handle t (.save uri text)).published) :
    ∃ (s' : Server) (p : OpenProject),
      (s.openProject (s.rootFor t path)).Builds s' (s.rootFor t path) p
        (p.workspace.withSaved (.ofPath path) text) .incremental t ∧
      (s.handle t (.save uri text)).server = (s'.publish t).1 ∧
      pub.diagnostics = s'.diagnosticsOf t pub.file ∧
      pub.file ∈ (p.store.run
        ((p.workspace.withSaved (.ofPath path) text).buildOn .incremental t).calls).2.flatten := by
  rcases s.save_cases t path text with hsave | ⟨p, hbuilt, hb⟩
  · simp only [Server.handle, hpath, hsave] at hpub
    cases hpub
  · rw [handle_save_built hpath hbuilt] at hpub ⊢
    generalize (s.save t path text).1 = s' at hb hpub ⊢
    obtain ⟨f, hf, rfl⟩ := List.mem_map.mp hpub
    refine ⟨s', p, hb, rfl, rfl, ?_⟩
    rcases (hb.changed f).mp hf with htold | hold
    · exact htold
    · rw [openProject_changed, h.told] at hold
      cases hold

end Server

namespace Dialogue

/-- In any state that a server can get into, a save publishes ranges of the text on disk. The
build has read the text that was sent, so the ranges fit it as far as the disk holds that text
too. -/
theorem save_ranges_against_disk (config : Config) (t : FileTree) (events : List Event) (uri : Url)
    (path : String) (text : Option String) (hpath : uri.filePath? = some path) :
    let d := (start config t).run events
    let r := d.server.handle d.tree (.save uri text)
    let file := FileId.ofPath path
    ∃ w, d.server.savedWorkspace? d.tree path text = some w ∧
      (∀ f, w.sourceText d.tree.read f = savedText d.tree.read file text f) ∧
      ∀ pub ∈ r.published,
        let disk := (d.tree.read pub.file).toOption
        pub.diagnostics = (r.server.markersOf pub.file).map (Marker.diagnostic disk) ∧
        ∀ m ∈ r.server.markersOf pub.file, ∀ span, m.span = some span →
          (r.server.ownerRoot? pub.file = some (d.server.rootFor d.tree path) →
            ∃ source definitions, w.sourceText d.tree.read pub.file = .ok source ∧
              m ∈ featureMarkers w.settings.reportMatches pub.file definitions source) ∧
          ∀ source, w.sourceText d.tree.read pub.file = .ok source →
            (pub.file = file → ∀ sent, text = some sent → disk = some sent) →
              (m.diagnostic disk).range = rangeOfSpan source span := by
  intro d r file
  have hrest : d.server.AtRest := atRest_run (atRest_start config t) events
  let root := d.server.rootFor d.tree path
  have hopened : (d.server.openProject root).Tidy := hrest.tidy.openProject root
  obtain ⟨p, hp⟩ := d.server.exists_openProject root
  have htexts := Workspace.sourceText_withSaved (hopened root p hp).no_overlays d.tree.read file text
  refine ⟨p.workspace.withSaved file text, ?_, htexts, ?_⟩
  · simp only [Server.savedWorkspace?, root, hp, Option.map_some, file]
  intro pub hpub disk
  obtain ⟨s', q, hb, hserver, hdiagnostics, htold⟩ := hrest.mem_published_save hpath hpub
  obtain rfl : p = q := Option.some.inj (hp.symm.trans hb.was)
  have hmarkers : r.server.markersOf pub.file = s'.markersOf pub.file := by
    rw [hserver]
    rfl
  refine ⟨?_, fun m hm span hspan => ⟨fun hroot => ?_, fun source hsource hsent => ?_⟩⟩
  · rw [hdiagnostics, hmarkers]
    exact (hopened.builds hb).diagnosticsOf d.tree pub.file
  · have howner : s'.ownerRoot? pub.file = some root := by
      rw [hserver] at hroot
      exact hroot
    rw [hmarkers, hb.markersOf_root howner] at hm
    have hread := Workspace.mem_featureMarkers_of_told (hopened root p hp).quiet (hb.tracks hopened)
      htold hm (by simp [hspan])
    obtain ⟨source, hsource, hmem⟩ := hread
    exact ⟨source, _, hsource, hmem⟩
  · have hdisk : disk = some source :=
      disk_of_savedText ((htexts pub.file).symm.trans hsource) hsent
    rw [hdisk]
    exact Marker.range_of_text hspan source

def sampleStep : String := "Feature:\nScenario:\n* a"

/-- A client with an empty feature has said hello. -/
def sampleGreeted : Dialogue :=
  (start {} emptyFeature).run [.message (.initialise { root := some ⟨"file", none, some [[]]⟩ })]

/-- What comes of saving the feature with a step. -/
def sampleReaction : Reaction :=
  sampleGreeted.server.handle sampleGreeted.tree (sampleSave sampleStep)

set_option maxRecDepth 2000 in
theorem sampleReaction_told :
    (sampleReaction.published.map (·.file),
      (sampleReaction.server.markersOf ⟨[.name "a.feature"]⟩).map (·.span)) =
    ([⟨[.name "a.feature"]⟩], [some ⟨21, 22⟩]) := by
  cbv

/-- The build has read the step, but its range is published as the start of the empty text. -/
theorem save_ranges_against_disk_overlaid :
    Url.filePath? ⟨"file", none, some ["a.feature".toList]⟩ = some "/a.feature" ∧
      ∃ pub ∈ sampleReaction.published, ∃ m ∈ sampleReaction.server.markersOf pub.file,
        (∃ w, sampleGreeted.server.savedWorkspace? emptyFeature "/a.feature" (some sampleStep) =
          some w ∧ w.sourceText emptyFeature.read pub.file = .ok sampleStep) ∧
        pub.diagnostics = [m.diagnostic (some "")] ∧ m.span = some ⟨21, 22⟩ ∧
          (m.diagnostic (some "")).range = ⟨⟨0, 0⟩, ⟨0, 0⟩⟩ ∧
          rangeOfSpan sampleStep ⟨21, 22⟩ = ⟨⟨2, 2⟩, ⟨2, 3⟩⟩ := by
  have hpath : Url.filePath? ⟨"file", none, some ["a.feature".toList]⟩ = some "/a.feature" := by
    decide +kernel
  obtain ⟨hfiles, hspans⟩ := Prod.mk.inj sampleReaction_told
  obtain ⟨pub, hpub, hfile⟩ := List.map_eq_singleton_iff.mp hfiles
  obtain ⟨m, hmarkers, hspan⟩ := List.map_eq_singleton_iff.mp hspans
  have hmem : pub ∈ sampleReaction.published := hpub ▸ List.mem_singleton_self pub
  have hm : m ∈ sampleReaction.server.markersOf pub.file := by
    rw [hfile, hmarkers]
    exact List.mem_singleton_self m
  obtain ⟨w, hw, htexts, hsaved⟩ := save_ranges_against_disk {} emptyFeature
    [.message (.initialise { root := some ⟨"file", none, some [[]]⟩ })] _ _ (some sampleStep) hpath
  have hsent : w.sourceText emptyFeature.read pub.file = .ok sampleStep := by
    refine (htexts pub.file).trans (if_pos ?_)
    rw [hfile]
    decide +kernel
  have hdisk : emptyFeature.read pub.file = .ok "" := by
    rw [hfile]
    exact FileTree.read_file rfl
  refine ⟨hpath, pub, hmem, m, hm, ⟨w, hw, hsent⟩, ?_, hspan, ?_, by decide⟩
  · refine (hsaved pub hmem).1.trans ?_
    change (sampleReaction.server.markersOf pub.file).map
      (Marker.diagnostic (emptyFeature.read pub.file).toOption) = _
    rw [hdisk, hfile, hmarkers]
    rfl
  · exact Marker.range_of_text hspan ""

end Dialogue

end StepGlue
