import StepGlue.Proofs.Marker.Batch
import StepGlue.Proofs.Workspace.Build

/-! The order in which a build visits the files that are gone.

To forget a file is to take it out of maps, so two files can be forgotten in either order. What a
build leaves behind is the same for every order, and the listener is told the same things. -/

namespace StepGlue

theorem FileMap.erase_comm {α : Type} (m : FileMap α) (f g : FileId) :
    (m.erase f).erase g = (m.erase g).erase f := by
  simp only [erase, List.filter_filter, Bool.and_comm]

/-- A file without an entry need not be taken out. -/
theorem Repository.put_nil_of_contributes (r : Repository) (f : FileId) :
    (if r.contributes f then r.put f [] else r) = ⟨r.entries.erase f⟩ := by
  by_cases hc : r.contributes f = true
  · rw [if_pos hc]
    rfl
  · rw [if_neg hc]
    have hall : ∀ e ∈ r.entries.entries, (e.1 != f) = true := by
      intro e he
      have hh := mt (fun h => List.any_eq_true.mpr ⟨e, he, h⟩) hc
      simpa using hh
    have hsame : r.entries.erase f = r.entries := congrArg FileMap.mk (List.filter_eq_self.mpr hall)
    rw [hsame]

theorem Repository.contributes_erase {r : Repository} {f g : FileId} (h : f ≠ g) :
    (⟨r.entries.erase f⟩ : Repository).contributes g = r.contributes g := by
  simp [contributes_eq_isSome, h]

/-! ### The workspace -/

namespace Workspace

namespace Progress

/-- A build under way with another list of calls. -/
def withCalls (p : Progress) (calls : List StoreCall) : Progress := { p with calls }

theorem forget_eq (p : Progress) (f : FileId) :
    p.forget f = { p with
      workspace := { p.workspace with
        stamps := p.workspace.stamps.erase f
        repository := ⟨p.workspace.repository.entries.erase f⟩ }
      glueChanged := p.glueChanged || p.workspace.repository.contributes f
      report := { p.report with removedFiles := p.report.removedFiles + 1 }
      calls := p.calls ++ cleaning f } := by
  rw [← Repository.put_nil_of_contributes]
  rfl

theorem forget_comm (p : Progress) (f g : FileId) :
    (p.forget f).forget g =
      ((p.forget g).forget f).withCalls (p.calls ++ cleaning f ++ cleaning g) := by
  by_cases hfg : f = g
  · subst hfg
    rfl
  · have hglue : (p.glueChanged || p.workspace.repository.contributes f
          || p.workspace.repository.contributes g) =
        (p.glueChanged || p.workspace.repository.contributes g
          || p.workspace.repository.contributes f) := Bool.or_right_comm _ _ _
    simp only [forget_eq, withCalls, Repository.contributes_erase hfg,
      Repository.contributes_erase (Ne.symm hfg), hglue, FileMap.erase_comm _ f g]

theorem foldl_forget_withCalls (l : List FileId) (p : Progress) (calls : List StoreCall) :
    l.foldl forget (p.withCalls calls) =
      (l.foldl forget p).withCalls (calls ++ l.flatMap cleaning) := by
  induction l generalizing p calls with
  | nil => simp [withCalls]
  | cons f l ih =>
    rw [List.flatMap_cons, ← List.append_assoc]
    exact ih (p.forget f) (calls ++ cleaning f)

theorem foldl_forget_perm {l l' : List FileId} (h : l.Perm l') (p : Progress) :
    l.foldl forget p = (l'.foldl forget p).withCalls (p.calls ++ l.flatMap cleaning) := by
  induction h generalizing p with
  | nil => simp [withCalls]
  | cons f _ ih =>
    rw [List.flatMap_cons, ← List.append_assoc]
    exact ih (p.forget f)
  | swap f g l =>
    rw [List.foldl_cons, List.foldl_cons, forget_comm, foldl_forget_withCalls]
    simp only [List.flatMap_cons, List.append_assoc]
    rfl
  | trans _ _ ih₁ ih₂ =>
    rw [ih₁, ih₂]
    rfl

theorem visit_withCalls (s : Snapshot) (p : Progress) (f : FileId) (k : SourceKind)
    (calls : List StoreCall) :
    (p.withCalls calls).visit s f k =
      (p.visit s f k).withCalls (calls ++ callsOf p.workspace s f k) := by
  unfold visit callsOf withCalls
  dsimp only
  cases k <;> split <;> simp_all

/-- What a build has said so far has no say in what it does. -/
theorem visitAll_withCalls (s : Snapshot) (l : List (FileId × SourceKind)) (p : Progress)
    (calls : List StoreCall) :
    visitAll s l (p.withCalls calls) =
      (visitAll s l p).withCalls (visitAll s l (p.withCalls calls)).calls := by
  induction l generalizing p calls with
  | nil => rfl
  | cons a l ih =>
    have hh := ih (p.visit s a.1 a.2) (calls ++ callsOf p.workspace s a.1 a.2)
    rwa [← visit_withCalls] at hh

end Progress

/-- The start of a build that forgets files in a given order. -/
def clearedIn (w : Workspace) (order : List FileId) (kind : BuildKind) : Progress :=
  let p := order.foldl Progress.forget { workspace := w }
  match kind with
  | .full => { p with workspace := { p.workspace with repository := {}, stamps := {} } }
  | .incremental => p

/-- A build that forgets files in a given order. -/
def buildIn (w : Workspace) (order : List FileId) (kind : BuildKind) (s : Snapshot) : Built :=
  let p := Progress.visitAll s (w.sources s) (w.clearedIn order kind)
  let features := p.toMark (w.sources s)
  let marks := features.flatMap (p.workspace.recomputeFeature s.read)
  { workspace := { p.workspace with overlays := {}, forced := [] }
    report := { p.report with featureFiles := features.length }
    calls := p.calls ++ marks }

theorem buildIn_gone (w : Workspace) (kind : BuildKind) (s : Snapshot) :
    w.buildIn (w.gone s) kind s = w.build kind s := rfl

theorem clearedIn_perm {w : Workspace} {s : Snapshot} {order : List FileId}
    (h : order.Perm (w.gone s)) (kind : BuildKind) :
    w.clearedIn order kind = (w.cleared kind s).withCalls (order.flatMap cleaning) := by
  have hh := Progress.foldl_forget_perm h { workspace := w }
  cases kind with
  | full => simp only [clearedIn, cleared, hh, Progress.withCalls, List.nil_append]
  | incremental => exact hh

/-- Another order moves the first calls of a build and nothing else. -/
theorem buildIn_perm {w : Workspace} {s : Snapshot} {order : List FileId}
    (h : order.Perm (w.gone s)) (kind : BuildKind) :
    (w.buildIn order kind s).workspace = (w.build kind s).workspace ∧
      (w.buildIn order kind s).report = (w.build kind s).report ∧
      ∃ rest, (w.buildIn order kind s).calls = order.flatMap cleaning ++ rest ∧
        (w.build kind s).calls = (w.gone s).flatMap cleaning ++ rest := by
  have hsurvey : Progress.visitAll s (w.sources s) (w.clearedIn order kind) =
      (w.surveyed kind s).withCalls (order.flatMap cleaning
        ++ (w.sources s).flatMap fun a =>
          Progress.callsOf (w.cleared kind s).workspace s a.1 a.2) := by
    rw [clearedIn_perm h, Progress.visitAll_withCalls, Progress.visitAll_calls (sources_nodup w s)]
    rfl
  refine ⟨?_, ?_, (w.sources s).flatMap (fun a =>
      Progress.callsOf (w.cleared kind s).workspace s a.1 a.2)
    ++ (w.marked kind s).flatMap ((w.surveyed kind s).workspace.recomputeFeature s.read), ?_, ?_⟩
  · simp only [buildIn, hsurvey]
    rfl
  · simp only [buildIn, hsurvey]
    rfl
  · simp only [buildIn, hsurvey]
    rw [← List.append_assoc]
    rfl
  · rw [build_calls, List.append_assoc]

end Workspace

/-! ### The store -/

namespace MarkerStore

/-- The store without the markers of a file. -/
def without (s : MarkerStore) (f : FileId) : MarkerStore :=
  { s with markers := s.markers.erase f }

theorem markersOf_without {s : MarkerStore} {f g : FileId} (h : f ≠ g) :
    (s.without f).markersOf g = s.markersOf g := by
  simp [markersOf, without, h]

theorem run_cleaning {s : MarkerStore} (hd : s.depth = 0) (f : FileId) :
    s.run (cleaning f) = if s.markersOf f = [] then (s, []) else (s.without f, [[f]]) := by
  have hremaining : s.remaining f MarkerKind.all = [] := by simp [remaining, MarkerKind.mem_all]
  have hcount : s.removedCount f MarkerKind.all = 0 ↔ s.markersOf f = [] := by
    rw [removedCount, hremaining]
    simp
  have hrun : s.run (cleaning f) = s.delete f MarkerKind.all :=
    Prod.ext rfl (List.append_nil _)
  rw [hrun]
  simp only [delete, hcount, hremaining]
  split
  · rfl
  · simp [changed, inBatch, hd, without]

theorem run_cleaning_comm {s : MarkerStore} (hd : s.depth = 0) {f g : FileId} (h : f ≠ g) :
    (s.run (cleaning f ++ cleaning g)).1 = (s.run (cleaning g ++ cleaning f)).1 ∧
      (s.run (cleaning f ++ cleaning g)).2.Perm (s.run (cleaning g ++ cleaning f)).2 := by
  have hdf : (s.without f).depth = 0 := hd
  have hdg : (s.without g).depth = 0 := hd
  have hcomm : (s.without f).without g = (s.without g).without f := by
    simp only [without, FileMap.erase_comm s.markers f g]
  rw [run_append, run_append, run_cleaning hd, run_cleaning hd]
  by_cases hf : s.markersOf f = []
  · by_cases hg : s.markersOf g = []
    · simp [hf, hg, run_cleaning hd]
    · simp [hf, hg, run_cleaning hd, run_cleaning hdg, markersOf_without (Ne.symm h)]
  · by_cases hg : s.markersOf g = []
    · simp [hf, hg, run_cleaning hd, run_cleaning hdf, markersOf_without h]
    · simp only [hf, hg, if_false, run_cleaning hdf, run_cleaning hdg, markersOf_without h,
        markersOf_without (Ne.symm h)]
      exact ⟨hcomm, List.Perm.swap _ _ _⟩

theorem run_cleaning_perm {s : MarkerStore} (hd : s.depth = 0) {l l' : List FileId}
    (h : l.Perm l') :
    (s.run (l.flatMap cleaning)).1 = (s.run (l'.flatMap cleaning)).1 ∧
      (s.run (l.flatMap cleaning)).2.Perm (s.run (l'.flatMap cleaning)).2 := by
  induction h generalizing s with
  | nil => exact ⟨rfl, List.Perm.refl _⟩
  | cons f _ ih =>
    obtain ⟨hstore, htold⟩ := ih ((balanced_cleaning f s).trans hd)
    rw [List.flatMap_cons, List.flatMap_cons, run_append, run_append]
    exact ⟨hstore, htold.append_left _⟩
  | swap f g l =>
    simp only [List.flatMap_cons, ← List.append_assoc]
    rw [run_append, run_append _ (cleaning f ++ cleaning g)]
    by_cases hfg : f = g
    · subst hfg
      exact ⟨rfl, List.Perm.refl _⟩
    · obtain ⟨hstore, htold⟩ := run_cleaning_comm hd (Ne.symm hfg)
      rw [hstore]
      exact ⟨rfl, htold.append_right _⟩
  | trans _ _ ih₁ ih₂ =>
    obtain ⟨hstore₁, htold₁⟩ := ih₁ hd
    obtain ⟨hstore₂, htold₂⟩ := ih₂ hd
    exact ⟨hstore₁.trans hstore₂, htold₁.trans htold₂⟩

end MarkerStore

/-- What becomes of a store, and what is told, whatever order a build forgets files in. -/
theorem Workspace.run_buildIn_perm {w : Workspace} {s : Snapshot} {order : List FileId}
    (h : order.Perm (w.gone s)) (kind : BuildKind) {store : MarkerStore} (hd : store.depth = 0) :
    (store.run (w.buildIn order kind s).calls).1 = (store.run (w.build kind s).calls).1 ∧
      (store.run (w.buildIn order kind s).calls).2.Perm
        (store.run (w.build kind s).calls).2 := by
  obtain ⟨-, -, rest, hin, hbuild⟩ := buildIn_perm h kind
  obtain ⟨hstore, htold⟩ := MarkerStore.run_cleaning_perm hd h
  rw [hin, hbuild, MarkerStore.run_append, MarkerStore.run_append, hstore]
  exact ⟨rfl, htold.append_right _⟩

end StepGlue
