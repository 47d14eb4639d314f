import StepGlue.Proofs.Workspace.Freshness

/-! To recalculate a feature always refreshes it.

A touch may give the feature a new stamp, the stamp that it had, or none. A new stamp differs from
the one on record, so the build that follows takes the file as changed; in all other cases the
file is put down for the build by name. Either way the build marks it. -/

namespace StepGlue

namespace Workspace

/-- Whatever the touch has done, the build that follows looks at the file. -/
theorem isChanged_recalculating {w : Workspace} {f : FileId} {touched : Option Nat} {s : Snapshot}
    (h : ∀ n, touched = some n → s.stamp f = some n) :
    Progress.isChanged (w.recalculating f touched) s f = true := by
  unfold recalculating
  dsimp only
  split
  · next hnew =>
    obtain ⟨hsome, hne⟩ := Bool.and_eq_true_iff.mp hnew
    obtain ⟨n, rfl⟩ := Option.isSome_iff_exists.mp hsome
    -- the stamp on record would have to be the one that the touch has given
    have hstamp : w.stamps.get? f ≠ some (s.stamp f) := by
      intro hrecorded
      rw [h n rfl] at hrecorded
      simp [hrecorded] at hne
    simp [Progress.isChanged, hstamp]
  · have hforced : f ∈ (w.markDirty f).forced := mem_insertFile.mpr (Or.inl rfl)
    simp [Progress.isChanged, hforced]

theorem mem_marked_recalculating {w : Workspace} {f : FileId} {touched : Option Nat}
    {s : Snapshot} (hf : w.kindIn s f = some .feature)
    (h : ∀ n, touched = some n → s.stamp f = some n) :
    f ∈ (w.recalculating f touched).marked .incremental s := by
  obtain ⟨forced, hw⟩ := Project.recalculating_setup w f touched
  refine mem_marked.mpr ⟨?_, Or.inr ?_⟩
  · rw [hw]
    exact hf
  · simp [changed, isChanged_recalculating h]

/-- A feature in sight is marked by the build that recalculates it, from the text that it has and
under the definitions that there are at the end. -/
theorem exists_recalculate {w : Workspace} {f : FileId} {touched : Option Nat} {s : Snapshot}
    (hf : w.kindIn s f = some .feature) (h : ∀ n, touched = some n → s.stamp f = some n)
    (store : MarkerStore) :
    ∃ b, w.recalculate f touched s = some b ∧ 1 ≤ b.report.featureFiles ∧
      (store.run b.calls).1.markersOf f = sourceMarkers w.settings.reportMatches f
        b.workspace.repository.definitions (w.sourceText s.read f) := by
  obtain ⟨forced, hw⟩ := Project.recalculating_setup w f touched
  have hfeature : f.isFeature = true := by
    have hfile := mem_files_of_kindIn (Option.isSome_of_eq_some hf)
    rw [kindIn, if_pos hfile] at hf
    exact classify_feature.mp hf
  have hmarked := mem_marked_recalculating hf h
  refine ⟨_, if_pos hfeature, List.length_pos_of_mem hmarked, ?_⟩
  have hkind : (w.recalculating f touched).kindIn s f = some .feature := by
    rw [hw]
    exact hf
  rw [MarkerStore.markersOf_run, effects_build_feature hkind, if_pos hmarked, hw]
  rfl

end Workspace

namespace Project

theorem step_recalculate {p : Project} {f : FileId} {touch : FileTree → FileTree × Option Nat}
    {b : Workspace.Built}
    (h : p.workspace.recalculate f (touch p.tree).2 (p.workspace.view (touch p.tree).1) = some b) :
    (p.step (.recalculate f touch)).workspace = b.workspace ∧
      (p.step (.recalculate f touch)).store = (p.store.run b.calls).1 := by
  obtain ⟨hf, hb⟩ := Option.ite_none_right_eq_some.mp h
  obtain ⟨forced, hw⟩ := recalculating_setup p.workspace f (touch p.tree).2
  have hbuilt : (p.workspace.recalculating f (touch p.tree).2).buildOn .incremental
      (touch p.tree).1 = b := by
    rw [hw] at hb ⊢
    exact Option.some.inj hb
  simp only [step, if_pos hf, built, hbuilt, and_self]

/-- In every state that a run can come to, and whatever a touch does, provided that the stamp that
it gives is the one read after it: to recalculate a feature of the project marks at least one
feature, and leaves this one with the markers of the text that it has, under the definitions that
there are. To recalculate anything else does nothing. -/
theorem recalculate_refreshes (root : FileId) (settings : BuildSettings)
    (extractors : List Extractor) (t : FileTree) (before : List Event) (f : FileId)
    (touch : FileTree → FileTree × Option Nat) :
    let p := (start root settings extractors t).run before
    let s := (touch p.tree).1.snapshot root settings.maxFileBytes
    let q := p.step (.recalculate f touch)
    (f.isFeature = true → f ∈ s.files → (∀ n, (touch p.tree).2 = some n → s.stamp f = some n) →
      ∃ b, p.workspace.recalculate f (touch p.tree).2 s = some b ∧ 1 ≤ b.report.featureFiles ∧
        q.workspace = b.workspace ∧
        q.store.markersOf f = sourceMarkers settings.reportMatches f
          q.workspace.repository.definitions (p.workspace.sourceText s.read f)) ∧
      (f.isFeature = false → p.workspace.recalculate f (touch p.tree).2 s = none ∧ q = p ∧
        p.workspace.recalculateOn f p.tree = (p.tree, none)) := by
  intro p s q
  have hsame : p.workspace.SameSetup (start root settings extractors t).workspace :=
    run_sameSetup _ before
  have hview : p.workspace.view (touch p.tree).1 = s := hsame.view_eq _
  refine ⟨fun hf hfile hstamp => ?_, fun hf => ⟨?_, ?_, ?_⟩⟩
  · have hkind : p.workspace.kindIn s f = some .feature := by
      rw [Workspace.kindIn, if_pos hfile]
      exact Workspace.classify_feature.mpr hf
    obtain ⟨b, hb, hreport, hmarkers⟩ := Workspace.exists_recalculate hkind hstamp p.store
    obtain ⟨hworkspace, hstore⟩ : q.workspace = b.workspace ∧ q.store = (p.store.run b.calls).1 :=
      step_recalculate (hview ▸ hb)
    refine ⟨b, hb, hreport, hworkspace, ?_⟩
    rw [hstore, hmarkers, hworkspace, hsame.settings]
    rfl
  · simp [Workspace.recalculate, hf]
  · simp [q, step, hf]
  · simp [Workspace.recalculateOn, hf]

/-- A touch that leaves the feature with the stamp that the last build has seen. -/
theorem recalculate_refreshes_same_stamp :
    let feature : FileId := ⟨[.name "b.feature"]⟩
    let p := sample.run [.build .full]
    let q := p.step (.recalculate feature (·.touch feature))
    (feature.isFeature = true ∧ p.workspace.stamps.get? feature = some (p.tree.touch feature).2) ∧
      q.store.markersOf feature = sourceMarkers true feature q.workspace.repository.definitions
        (.ok "Feature: x\n Scenario: y\n  Given a b\n") := by
  intro feature p q
  let text := "Feature: x\n Scenario: y\n  Given a b\n"
  let u : FileTree := { sample.tree with clock := 1 }
  have hfeature : feature.isFeature = true := by decide +kernel
  have hnode : sample.tree.node? ["b.feature"] = some (.file text.toUTF8 1) := rfl
  have htouch : p.tree.touch feature = (u, some 1) := by
    change sample.tree.touch feature = (u, some 1)
    simp only [FileTree.touch, FileTree.setStamp, feature, FileTree.locate_file hnode]
    rfl
  have hscan : feature ∈ ((p.tree.touch feature).1.snapshot ⟨[]⟩ 1000).files := by
    have hsize : "@Given(\"a b\")".toUTF8.size ≤ 1000 ∧ text.toUTF8.size ≤ 1000 := by decide
    have hfiles : ∀ e ∈ u.children [], ∃ content stamp,
        e.2 = .file content stamp ∧ content.size ≤ 1000 :=
      List.forall_mem_cons.mpr ⟨⟨_, _, rfl, hsize.1⟩,
        List.forall_mem_cons.mpr ⟨⟨_, _, rfl, hsize.2⟩, List.forall_mem_nil _⟩⟩
    rw [htouch]
    refine List.mem_map.mpr ⟨["b.feature"], FileTree.mem_scan_nil.mpr ?_, rfl⟩
    have hwalk := FileTree.walk_files hfiles 8 [[]] []
    exact hwalk ▸ List.mem_of_getElem? (i := 1) rfl
  have hrecorded : p.workspace.stamps.get? feature = some (p.tree.touch feature).2 := by
    have hstamps := Workspace.build_stamps sample.workspace .full
      (sample.workspace.view sample.tree) feature
    rw [sample_kindIn_feature] at hstamps
    have hstamp : sample.tree.stamp? feature = some 1 := FileTree.stamp?_file hnode
    rw [htouch]
    exact hstamps.trans (congrArg some hstamp)
  have htext : p.workspace.sourceText (p.tree.touch feature).1.read feature = .ok text := by
    rw [htouch]
    exact FileTree.read_file hnode
  obtain ⟨b, -, -, -, hmarkers⟩ := (recalculate_refreshes ⟨[]⟩ sampleSettings Extractor.all
    sample.tree [.build .full] feature (·.touch feature)).1 hfeature hscan
    fun n hn => FileTree.stamp?_touch hn
  exact ⟨⟨hfeature, hrecorded⟩, hmarkers.trans (congrArg _ htext)⟩

end Project

end StepGlue
