import StepGlue.Proofs.Server.Owner
import StepGlue.Proofs.Workspace.Forgetting
import StepGlue.Proofs.Workspace.Notices
import StepGlue.Server.Message

/-! The upkeep of a server: opening projects and building them.

Whatever a message asks for comes down to these two. Both leave every project tidy, and a file that
is not put down as changed has the markers that it had before. -/

namespace StepGlue

/-- An open project between builds: no batch of its store is open, files with markers are known to
its workspace, and no text is put down for the next build. -/
structure OpenProject.Tidy (p : OpenProject) : Prop where
  quiet : p.store.Quiet
  tracks : p.workspace.Tracks p.store
  no_overlays : p.workspace.overlays = {}

/-- A workspace for whose next build the text of a saved file is put down, if it was sent. -/
def Workspace.withSaved (w : Workspace) (file : FileId) (text : Option String) : Workspace :=
  match text with
  | some text => w.setOverlay file text
  | none => w

theorem mem_foldr_insertFile {f : FileId} {files rest : List FileId} :
    f ∈ files.foldr insertFile rest ↔ f ∈ files ∨ f ∈ rest := by
  induction files with
  | nil => simp
  | cons g files ih => simp only [List.foldr_cons, mem_insertFile, ih, List.mem_cons, or_assoc]

namespace Server

def Tidy (s : Server) : Prop := ∀ r p, s.projects.get? r = some p → p.Tidy

/-- A file that is not put down as changed was not put down before either, and has kept its
markers. -/
def Notes (s s' : Server) : Prop :=
  ∀ f, f ∉ s'.changed → f ∉ s.changed ∧ s'.markersOf f = s.markersOf f

theorem Notes.refl (s : Server) : s.Notes s := fun _ hf => ⟨hf, rfl⟩

theorem Notes.trans {s₁ s₂ s₃ : Server} (h : s₁.Notes s₂) (h' : s₂.Notes s₃) : s₁.Notes s₃ := by
  intro f hf
  obtain ⟨hf₂, hm₂⟩ := h' f hf
  obtain ⟨hf₁, hm₁⟩ := h f hf₂
  exact ⟨hf₁, hm₂.trans hm₁⟩

/-! ### Opening -/

@[simp] theorem openProject_changed (s : Server) (r : FileId) :
    (s.openProject r).changed = s.changed := by
  unfold openProject
  split <;> rfl

@[simp] theorem openProject_initialised (s : Server) (r : FileId) :
    (s.openProject r).initialised = s.initialised := by
  unfold openProject
  split <;> rfl

theorem Tidy.openProject {s : Server} (h : s.Tidy) (r : FileId) : (s.openProject r).Tidy := by
  intro q p hp
  rcases get?_openProject hp with hold | ⟨-, -, rfl⟩
  · exact h q p hold
  · exact ⟨⟨rfl, rfl⟩, fun f hf => absurd rfl hf, rfl⟩

theorem notes_openProject {s : Server} {r : FileId} (h : s.Admits r) :
    s.Notes (s.openProject r) := by
  intro f hf
  rw [openProject_changed] at hf
  exact ⟨hf, markersOf_openProject h f⟩

/-! ### Building -/

/-- A build of the project at a root takes one server to another. The workspace that is built may
have been prepared, but knows the files that the project knew. -/
structure Builds (s s' : Server) (root : FileId) (p : OpenProject) (w : Workspace)
    (kind : BuildKind) (t : FileTree) : Prop where
  was : s.projects.get? root = some p
  stamps : w.stamps = p.workspace.stamps
  get : ∀ r, s'.projects.get? r = if root = r then
      some ⟨(w.buildOn kind t).workspace, (p.store.run (w.buildOn kind t).calls).1⟩
    else s.projects.get? r
  changed : ∀ f, f ∈ s'.changed ↔
    f ∈ (p.store.run (w.buildOn kind t).calls).2.flatten ∨ f ∈ s.changed
  initialised : s'.initialised = s.initialised

section

variable {s s' : Server} {root : FileId} {p : OpenProject} {w : Workspace} {kind : BuildKind}
  {t : FileTree}

theorem Builds.roots (h : s.Builds s' root p w kind t) (r : FileId) :
    r ∈ s'.roots ↔ r ∈ s.roots := by
  rw [mem_roots, mem_roots, h.get]
  by_cases hr : root = r
  · rw [if_pos hr, ← hr, h.was]
    simp
  · rw [if_neg hr]

theorem Builds.markersOf_root (h : s.Builds s' root p w kind t) {f : FileId}
    (hf : s'.ownerRoot? f = some root) :
    s'.markersOf f = (p.store.run (w.buildOn kind t).calls).1.markersOf f := by
  simp only [markersOf, owner?, hf, Option.bind_some, h.get, if_true]

theorem Builds.tracks (h : s.Builds s' root p w kind t) (hs : s.Tidy) : w.Tracks p.store := by
  unfold Workspace.Tracks
  rw [h.stamps]
  exact (hs root p h.was).tracks

theorem Tidy.builds (h : s.Tidy) (hb : s.Builds s' root p w kind t) : s'.Tidy := by
  intro r q hq
  rw [hb.get] at hq
  by_cases hr : root = r
  · rw [if_pos hr] at hq
    obtain rfl := Option.some.inj hq
    have hquiet := (h root p hb.was).quiet
    obtain ⟨_, _, hw⟩ := Workspace.build_setup w kind (w.view t)
    refine ⟨hquiet.run (Workspace.balanced_build w kind _), (hb.tracks h).build kind _, ?_⟩
    exact congrArg Workspace.overlays hw
  · rw [if_neg hr] at hq
    exact h r q hq

theorem Tidy.notes_builds (h : s.Tidy) (hb : s.Builds s' root p w kind t) : s.Notes s' := by
  intro f hf
  obtain ⟨htold, hold⟩ := not_or.mp (mt (hb.changed f).mpr hf)
  refine ⟨hold, ?_⟩
  have hquiet := (h root p hb.was).quiet
  have hkept := mt (hquiet.mem_told (Workspace.balanced_build w kind (w.view t)) f).mpr htold
  unfold markersOf owner?
  rw [ownerRoot?_congr hb.roots]
  cases howner : s.ownerRoot? f with
  | none => rfl
  | some r =>
    simp only [Option.bind_some, hb.get]
    by_cases hr : root = r
    · subst hr
      simp only [if_true, hb.was]
      exact MarkerStore.markersOf_run_of_not_mem hkept
    · rw [if_neg hr]

end

theorem builds_settle {s : Server} {root : FileId} {p : OpenProject}
    (hp : s.projects.get? root = some p) {w : Workspace}
    (hw : w.stamps = p.workspace.stamps) (kind : BuildKind) (t : FileTree) :
    s.Builds (s.settle root p.store (w.buildOn kind t)) root p w kind t where
  was := hp
  stamps := hw
  get _ := FileMap.get?_insert _ _ _ _
  changed _ := mem_foldr_insertFile
  initialised := rfl

theorem build_of_get {s : Server} {root : FileId} {p : OpenProject}
    (hp : s.projects.get? root = some p) (kind : BuildKind) (t : FileTree) :
    s.Builds (s.build t kind root) root p p.workspace kind t := by
  unfold build
  rw [hp]
  exact builds_settle hp rfl kind t

theorem Tidy.foldl_build {s : Server} (h : s.Tidy) (t : FileTree) (kind : BuildKind)
    (roots : List FileId) :
    let s' := roots.foldl (fun s root => s.build t kind root) s
    s'.Tidy ∧ s.Notes s' ∧ s'.initialised = s.initialised := by
  induction roots generalizing s with
  | nil => exact ⟨h, Notes.refl s, rfl⟩
  | cons root roots ih =>
    cases hp : s.projects.get? root with
    | none =>
      have hsame : s.build t kind root = s := by simp only [build, hp]
      simpa only [List.foldl_cons, hsame] using ih h
    | some p =>
      have hb := build_of_get hp kind t
      obtain ⟨htidy, hnotes, hinit⟩ := ih (h.builds hb)
      exact ⟨htidy, (h.notes_builds hb).trans hnotes, hinit.trans hb.initialised⟩

theorem Tidy.start {s : Server} (h : s.Tidy) (t : FileTree) :
    (s.start t).Tidy ∧ s.Notes (s.start t) ∧ (s.start t).initialised = true :=
  Tidy.foldl_build (s := { s with initialised := true }) h t .full s.roots

/-! ### Saving -/

/-- A save opens the project of the file. If builds read the file, one follows, for which the saved
text is put down; otherwise that is all. -/
theorem save_cases (s : Server) (t : FileTree) (path : String) (text : Option String) :
    let root := s.rootFor t path
    let file := FileId.ofPath path
    s.save t path text = (s.openProject root, false) ∨
      ∃ p, (s.save t path text).2 = true ∧
        (s.openProject root).Builds (s.save t path text).1 root p
          (p.workspace.withSaved file text) .incremental t := by
  intro root file
  obtain ⟨p, hp⟩ := s.exists_openProject root
  simp only [save]
  split
  · refine Or.inr ⟨p, rfl, ?_⟩
    cases text with
    | none => exact build_of_get hp .incremental t
    | some text =>
      -- the build finds the workspace with the text, and what it leaves takes its place
      let w := p.workspace.setOverlay file text
      have hready : (s.openProject root).updateWorkspace root (·.setOverlay file text) =
          { s.openProject root with
            projects := (s.openProject root).projects.insert root { p with workspace := w } } := by
        simp only [updateWorkspace, hp, w]
      have hget : ((s.openProject root).updateWorkspace root
          (·.setOverlay file text)).projects.get? root = some { p with workspace := w } := by
        rw [hready, FileMap.get?_insert, if_pos rfl]
      have hb := build_of_get hget .incremental t
      refine ⟨hp, rfl, fun r => ?_, fun f => ?_, hb.initialised.trans ?_⟩
      · refine (hb.get r).trans ?_
        by_cases hr : root = r
        · rw [if_pos hr, if_pos hr]
          rfl
        · rw [if_neg hr, if_neg hr, hready, FileMap.get?_insert, if_neg hr]
      · rw [hb.changed, hready]
        rfl
      · rw [hready]
  · exact Or.inl rfl

/-! ### Looking again -/

theorem recalculate_cases {s : Server} {root : FileId} {p : OpenProject}
    (hp : s.projects.get? root = some p) (t : FileTree) (file : FileId) :
    let r := s.recalculate t root file
    r.1 = s ∨ ∃ w, s.Builds r.1 root p w .incremental r.2.1 := by
  intro r
  cases hf : file.isFeature with
  | false =>
    left
    simp only [r, recalculate, hp, Workspace.recalculateOn, hf, Bool.false_eq_true, if_false]
  | true =>
    right
    obtain ⟨forced, hw⟩ := Project.recalculating_setup p.workspace file (t.touch file).2
    let w : Workspace := { p.workspace with forced }
    have hr : r = (s.settle root p.store (w.buildOn .incremental (t.touch file).1),
        (t.touch file).1, some (w.buildOn .incremental (t.touch file).1).report) := by
      simp only [r, recalculate, hp, Workspace.recalculateOn, Workspace.recalculate, hf, if_true,
        hw]
      rfl
    rw [hr]
    exact ⟨w, builds_settle hp (w := w) rfl .incremental (t.touch file).1⟩

theorem Tidy.recalculate {s : Server} (h : s.Tidy) {root : FileId} (hroot : root ∈ s.roots)
    (t : FileTree) (file : FileId) :
    let s' := (s.recalculate t root file).1
    s'.Tidy ∧ s.Notes s' ∧ s'.initialised = s.initialised := by
  obtain ⟨p, hp⟩ := mem_roots_iff_exists.mp hroot
  intro s'
  rcases recalculate_cases hp t file with hsame | ⟨w, hb⟩
  · rw [show s' = s from hsame]
    exact ⟨h, Notes.refl s, rfl⟩
  · exact ⟨h.builds hb, h.notes_builds hb, hb.initialised⟩

end Server

end StepGlue
