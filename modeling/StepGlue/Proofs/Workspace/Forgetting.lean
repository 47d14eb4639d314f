import StepGlue.Proofs.Workspace.Incremental

/-! How much of its history a full build forgets.

A file that carries markers has a recorded stamp, so every build takes the markers off the files
that are gone. A full build reads every file that is left, and what it finds there depends on the
file system alone. One thing of the past can outlive it: a glue file that is there but cannot be
read keeps the markers that it had. -/

namespace StepGlue

namespace Workspace

/-- Files with markers are files that the last build has seen. -/
def Tracks (w : Workspace) (store : MarkerStore) : Prop :=
  ∀ f, store.markersOf f ≠ [] → (w.stamps.get? f).isSome

theorem Tracks.markersOf_eq_nil {w : Workspace} {store : MarkerStore} (h : w.Tracks store)
    {f : FileId} (hf : w.stamps.get? f = none) : store.markersOf f = [] := by
  refine Classical.byContradiction fun hne => ?_
  have hh := h f hne
  simp [hf] at hh

/-- A file that a build does not see has no markers after it. -/
theorem Tracks.build_none {w : Workspace} {store : MarkerStore} (h : w.Tracks store)
    {s : Snapshot} {f : FileId} (hf : w.kindIn s f = none) (kind : BuildKind) :
    (store.run (w.build kind s).calls).1.markersOf f = [] := by
  rw [MarkerStore.markersOf_run, effects_build_none hf]
  by_cases hs : (w.stamps.get? f).isSome
  · rw [if_pos hs]
  · rw [if_neg hs]
    exact h.markersOf_eq_nil (by simpa using hs)

theorem Tracks.build {w : Workspace} {store : MarkerStore} (h : w.Tracks store)
    (kind : BuildKind) (s : Snapshot) :
    (w.build kind s).workspace.Tracks (store.run (w.build kind s).calls).1 := by
  intro f hf
  rw [build_stamps]
  by_cases hk : (w.kindIn s f).isSome
  · rw [if_pos hk]
    rfl
  · exact absurd (h.build_none (by simpa using hk) kind) hf

/-- A glue file that a build sees but cannot read. -/
def UnreadableGlue (w : Workspace) (s : Snapshot) (f : FileId) : Prop :=
  (∃ e, w.kindIn s f = some (.glue e)) ∧ ∃ err, s.read f = .error err

/-- A full build makes the repository from the snapshot alone. -/
theorem build_full_repository {w : Workspace} (h : w.overlays = {}) (s : Snapshot) (f : FileId) :
    (w.build .full s).workspace.repository.entries.get? f = w.scratchEntry s f := by
  by_cases hf : ∃ e, w.kindIn s f = some (.glue e)
  · obtain ⟨e, he⟩ := hf
    have hch : w.changed .full s f = true := rfl
    rw [build_repository_glue he, scratchEntry, he, sourceText_of_no_overlays h, if_pos hch]
    dsimp only
    cases (indexGlue e f (s.read f)).1 <;> rfl
  · have hne : ∀ e, w.kindIn s f ≠ some (.glue e) := fun e he => hf ⟨e, he⟩
    rw [build_repository_other hne, scratchEntry]
    split
    · next e he => exact absurd he (hne e)
    · rfl

theorem build_full_markers_of_unreadable {w : Workspace} (h : w.overlays = {}) {s : Snapshot}
    {f : FileId} (hf : w.UnreadableGlue s f) (store : MarkerStore) :
    (store.run (w.build .full s).calls).1.markersOf f = store.markersOf f := by
  obtain ⟨⟨e, he⟩, err, hread⟩ := hf
  rw [MarkerStore.markersOf_run, effects_build_glue he, sourceText_of_no_overlays h, hread]
  exact if_pos rfl

/-- Elsewhere a full build makes the markers from the snapshot and its repository alone. -/
theorem Tracks.build_full_markers {w : Workspace} {store : MarkerStore} (ht : w.Tracks store)
    (h : w.overlays = {}) {s : Snapshot} {f : FileId} (hf : ¬w.UnreadableGlue s f) :
    (store.run (w.build .full s).calls).1.markersOf f =
      (w.build .full s).workspace.scratchMarkers s f := by
  have hsame := build_sameSetup w .full s
  have hch : w.changed .full s f = true := rfl
  rw [scratchMarkers, hsame.kindIn_eq, hsame.settings]
  cases hk : w.kindIn s f with
  | none => exact ht.build_none hk .full
  | some k =>
    rw [MarkerStore.markersOf_run]
    cases k with
    | feature =>
      have hmark : f ∈ w.marked .full s := mem_marked.mpr ⟨hk, Or.inr hch⟩
      rw [effects_build_feature hk, if_pos hmark, sourceText_of_no_overlays h]
    | glue e =>
      rw [effects_build_glue hk, if_pos hch, sourceText_of_no_overlays h]
      cases hread : s.read f with
      | error err => exact absurd ⟨⟨e, hk⟩, err, hread⟩ hf
      | ok source => rfl

/-- Two full builds of one setup on one snapshot. -/
theorem build_full_agree {w w' : Workspace} {store store' : MarkerStore} (hs : w.SameSetup w')
    (hov : w.overlays = {}) (hov' : w'.overlays = {}) (ht : w.Tracks store)
    (ht' : w'.Tracks store') (ho : w.repository.entries.Ordered)
    (ho' : w'.repository.entries.Ordered) (s : Snapshot) :
    (w.build .full s).workspace.repository = (w'.build .full s).workspace.repository ∧
      ∀ f, (store.run (w.build .full s).calls).1.markersOf f =
          (store'.run (w'.build .full s).calls).1.markersOf f ↔
        (w.UnreadableGlue s f → store.markersOf f = store'.markersOf f) := by
  have hrepo : (w.build .full s).workspace.repository =
      (w'.build .full s).workspace.repository := by
    refine Repository.ext_of_get? (build_ordered ho .full s) (build_ordered ho' .full s)
      fun f => ?_
    rw [build_full_repository hov, build_full_repository hov']
    simp only [scratchEntry, hs.kindIn_eq]
  refine ⟨hrepo, fun f => ?_⟩
  have hiff : w'.UnreadableGlue s f ↔ w.UnreadableGlue s f := by
    simp only [UnreadableGlue, hs.kindIn_eq]
  by_cases hu : w.UnreadableGlue s f
  · rw [build_full_markers_of_unreadable hov hu,
      build_full_markers_of_unreadable hov' (hiff.mpr hu)]
    simp [hu]
  · rw [ht.build_full_markers hov hu, ht'.build_full_markers hov' (mt hiff.mp hu)]
    have hsetup : (w.build .full s).workspace.SameSetup (w'.build .full s).workspace :=
      ((build_sameSetup w .full s).trans hs).trans (build_sameSetup w' .full s).symm
    simp [hu, scratchMarkers, hsetup.kindIn_eq, hsetup.settings, hrepo]

end Workspace

namespace Project

/-- What every run keeps: files with markers are known, and the repository is in order. -/
structure Kept (p : Project) : Prop where
  tracks : p.workspace.Tracks p.store
  ordered : p.workspace.repository.entries.Ordered

theorem Kept.start (root : FileId) (settings : BuildSettings) (extractors : List Extractor)
    (t : FileTree) : (start root settings extractors t).Kept :=
  ⟨fun _ hf => absurd rfl hf, FileMap.Ordered.empty⟩

theorem Kept.run {p : Project} (h : p.Kept) (events : List Event) : (p.run events).Kept := by
  have hlasting : Lasting fun w store => w.Tracks store ∧ w.repository.entries.Ordered :=
    ⟨fun _ _ h => h, fun kind s h => ⟨h.1.build kind s, Workspace.build_ordered h.2 kind s⟩⟩
  obtain ⟨htracks, hordered⟩ := hlasting.run ⟨h.tracks, h.ordered⟩ events
  exact ⟨htracks, hordered⟩

/-- A full build without overlays leaves two projects of one setup with the same repository. They
agree on the markers of a file unless it is glue that cannot be read, and then as much as they did
before. -/
theorem full_build_forgets_iff_readable (root : FileId) (settings : BuildSettings)
    (extractors : List Extractor) (t₁ t₂ t : FileTree) (es₁ es₂ : List Event)
    (h₁ : ((start root settings extractors t₁).run es₁).workspace.overlays = {})
    (h₂ : ((start root settings extractors t₂).run es₂).workspace.overlays = {}) :
    let new := (start root settings extractors t).workspace
    let p := (start root settings extractors t₁).run es₁
    let q := (start root settings extractors t₂).run es₂
    let p' := p.run [.change t, .build .full]
    let q' := q.run [.change t, .build .full]
    p'.workspace.repository = q'.workspace.repository ∧
      ∀ f, p'.store.markersOf f = q'.store.markersOf f ↔
        (new.UnreadableGlue (new.view t) f → p.store.markersOf f = q.store.markersOf f) := by
  intro new p q p' q'
  have hp : p.workspace.SameSetup new := run_sameSetup _ es₁
  have hq : q.workspace.SameSetup new := run_sameSetup _ es₂
  have hkp : p.Kept := (Kept.start root settings extractors t₁).run es₁
  have hkq : q.Kept := (Kept.start root settings extractors t₂).run es₂
  have hagree := Workspace.build_full_agree (hp.trans hq.symm) h₁ h₂ hkp.tracks hkq.tracks
    hkp.ordered hkq.ordered (new.view t)
  have hunreadable : ∀ f, p.workspace.UnreadableGlue (new.view t) f ↔
      new.UnreadableGlue (new.view t) f := by
    intro f
    simp only [Workspace.UnreadableGlue, hp.kindIn_eq]
  have hpb : p.workspace.buildOn .full t = p.workspace.build .full (new.view t) :=
    congrArg (p.workspace.build .full) (hp.view_eq t)
  have hqb : q.workspace.buildOn .full t = q.workspace.build .full (new.view t) :=
    congrArg (q.workspace.build .full) (hq.view_eq t)
  refine ⟨?_, fun f => ?_⟩
  · exact (congrArg (·.workspace.repository) hpb).trans
      (hagree.1.trans (congrArg (·.workspace.repository) hqb).symm)
  · have hpm : p'.store = (p.store.run (p.workspace.build .full (new.view t)).calls).1 :=
      congrArg (fun b : Workspace.Built => (p.store.run b.calls).1) hpb
    have hqm : q'.store = (q.store.run (q.workspace.build .full (new.view t)).calls).1 :=
      congrArg (fun b : Workspace.Built => (q.store.run b.calls).1) hqb
    rw [hpm, hqm, hagree.2 f, hunreadable f]

/-- A project with a single glue file. -/
def soleGlue (content : ByteArray) : FileTree where
  nodes := [(["a.rs"], .file content 1)]

theorem soleGlue_kindIn {content : ByteArray} (h : content.size ≤ 1000) (t : FileTree) :
    let new := (start ⟨[]⟩ sampleSettings Extractor.all t).workspace
    new.kindIn (new.view (soleGlue content)) ⟨[.name "a.rs"]⟩ = some (.glue .attributes) := by
  intro new
  have hwalk : ∀ levels, (soleGlue content).walk 1000 (levels + 1) [[]] [] [] = [["a.rs"]] := by
    intro levels
    have hchildren : (soleGlue content).children [] = [("a.rs", .file content 1)] := rfl
    simp only [FileTree.walk, hchildren, List.flatMap_cons, List.flatMap_nil, if_pos h]
    rfl
  have hscan : ["a.rs"] ∈ (soleGlue content).scan [] 1000 := by
    rw [FileTree.mem_scan_nil]
    exact (hwalk 3).symm ▸ List.mem_singleton_self _
  have hfile : ⟨[.name "a.rs"]⟩ ∈ (new.view (soleGlue content)).files :=
    List.mem_map.mpr ⟨["a.rs"], hscan, rfl⟩
  have hfeature : FileId.isFeature ⟨[.name "a.rs"]⟩ = false := by decide +kernel
  have hhandles : Extractor.attributes.handles [.name "a.rs"] = true := by decide +kernel
  have hfind : Extractor.find? Extractor.all [.name "a.rs"] = some .attributes := by
    simp [Extractor.find?, Extractor.all, hhandles]
  rw [Workspace.kindIn, if_pos hfile, Workspace.classify, hfeature]
  exact congrArg (Option.map SourceKind.glue) hfind

/-- Glue with an error that is then replaced by bytes that are no text: its marker outlives a full
build, and a new project would not have it. -/
theorem full_build_forgets_iff_readable_spoilt :
    let broken := soleGlue "(".toUTF8
    let spoilt := soleGlue ⟨#[0xff]⟩
    let p := (start ⟨[]⟩ sampleSettings Extractor.all broken).run [.build .full]
    let q := (start ⟨[]⟩ sampleSettings Extractor.all spoilt).run []
    (p.workspace.overlays = {} ∧ q.workspace.overlays = {}) ∧
      (p.run [.change spoilt, .build .full]).workspace.repository =
        (q.run [.change spoilt, .build .full]).workspace.repository ∧
      (p.run [.change spoilt, .build .full]).store.markersOf ⟨[.name "a.rs"]⟩ ≠
        (q.run [.change spoilt, .build .full]).store.markersOf ⟨[.name "a.rs"]⟩ := by
  intro broken spoilt p q
  obtain ⟨hrepo, hmarkers⟩ := full_build_forgets_iff_readable ⟨[]⟩ sampleSettings Extractor.all
    broken spoilt spoilt [.build .full] [] rfl rfl
  refine ⟨⟨rfl, rfl⟩, hrepo, fun heq => ?_⟩
  have hread : spoilt.read ⟨[.name "a.rs"]⟩ = .error .invalidData := by
    have hbytes : String.fromUTF8? ⟨#[0xff]⟩ = none := by decide +kernel
    have hlocate : spoilt.locate [.name "a.rs"] = .ok (["a.rs"], .file ⟨#[0xff]⟩ 1) :=
      FileTree.locate_file rfl
    simp only [FileTree.read, hlocate, bind, Except.bind, hbytes]
  have hkept := (hmarkers ⟨[.name "a.rs"]⟩).mp heq
    ⟨⟨_, soleGlue_kindIn (by decide) spoilt⟩, _, hread⟩
  have hbroken : p.store.markersOf ⟨[.name "a.rs"]⟩ =
      glueMarkers .attributes ⟨[.name "a.rs"]⟩ "(" := by
    let new := (start ⟨[]⟩ sampleSettings Extractor.all broken).workspace
    have htext : new.sourceText (new.view broken).read ⟨[.name "a.rs"]⟩ = .ok "(" :=
      FileTree.read_file rfl
    have hkind : new.kindIn (new.view broken) ⟨[.name "a.rs"]⟩ = some (.glue .attributes) :=
      soleGlue_kindIn (by decide) broken
    have heffect := Workspace.effects_build_glue hkind .full []
    rw [htext] at heffect
    exact (MarkerStore.markersOf_run _ _ _).trans heffect
  have hmarked : glueMarkers .attributes ⟨[.name "a.rs"]⟩ "(" ≠ [] := by
    cases he : Extractor.attributes.extract "(" with
    | error err => simp [glueMarkers, he]
    | ok found =>
      have hfails : (Extractor.attributes.extract "(").isOk = false := by decide +kernel
      simp [he, Except.isOk, Except.toBool] at hfails
  exact hmarked (hbroken.symm.trans hkept)

end Project

end StepGlue
