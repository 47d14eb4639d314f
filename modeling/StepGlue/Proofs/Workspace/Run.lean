import StepGlue.Proofs.FileTree
import StepGlue.Proofs.Workspace.Build

/-! Runs of a project: a workspace with its store of markers over a file system that changes at
will. A run also remembers what its builds have seen, so that statements can speak of it. -/

namespace StepGlue

structure Project where
  workspace : Workspace
  store : MarkerStore := {}
  tree : FileTree
  /-- The file system as the last build saw it. -/
  seen : Option FileTree := none
  /-- The text, if there was one, from which each feature was last marked. -/
  texts : FileId → Option (Except ReadError String) := fun _ => none

/-- What can happen to a project. Touching a file on behalf of a recalculation may do anything to
the file system and give any stamp or none. -/
inductive Event
  | change (t : FileTree)
  | overlay (f : FileId) (text : String)
  | markDirty (f : FileId)
  | build (kind : BuildKind)
  | recalculate (f : FileId) (touch : FileTree → FileTree × Option Nat)

namespace Workspace

/-- What a build of a workspace sees of a file tree. -/
def view (w : Workspace) (t : FileTree) : Snapshot :=
  t.snapshot w.root w.settings.maxFileBytes

/-- Two workspaces that would look at a file system alike. -/
structure SameSetup (w w' : Workspace) : Prop where
  root : w.root = w'.root
  settings : w.settings = w'.settings
  extractors : w.extractors = w'.extractors

theorem SameSetup.symm {w w' : Workspace} (h : w.SameSetup w') : w'.SameSetup w :=
  ⟨h.root.symm, h.settings.symm, h.extractors.symm⟩

theorem SameSetup.trans {u v w : Workspace} (h : u.SameSetup v) (h' : v.SameSetup w) :
    u.SameSetup w :=
  ⟨h.root.trans h'.root, h.settings.trans h'.settings, h.extractors.trans h'.extractors⟩

theorem SameSetup.view_eq {w w' : Workspace} (h : w.SameSetup w') (t : FileTree) :
    w.view t = w'.view t := by
  simp only [view, h.root, h.settings]

theorem SameSetup.classify_eq {w w' : Workspace} (h : w.SameSetup w') (f : FileId) :
    w.classify f = w'.classify f := by
  simp only [classify, h.extractors]

theorem SameSetup.kindIn_eq {w w' : Workspace} (h : w.SameSetup w') (s : Snapshot) (f : FileId) :
    w.kindIn s f = w'.kindIn s f := by
  simp only [kindIn, h.classify_eq]

theorem build_sameSetup (w : Workspace) (kind : BuildKind) (s : Snapshot) :
    (w.build kind s).workspace.SameSetup w := by
  obtain ⟨_, _, hw⟩ := build_setup w kind s
  rw [hw]
  exact ⟨rfl, rfl, rfl⟩

end Workspace

/-- What a build sets out with. -/
structure Occasion where
  workspace : Workspace
  kind : BuildKind
  tree : FileTree

/-- What a build sees of its file tree. -/
def Occasion.snapshot (b : Occasion) : Snapshot := b.workspace.view b.tree

/-- What comes of a build. -/
def Occasion.result (b : Occasion) : Workspace.Built := b.workspace.build b.kind b.snapshot

namespace Project

/-- A new project. -/
def start (root : FileId) (settings : BuildSettings) (extractors : List Extractor)
    (t : FileTree) : Project where
  workspace := { root, settings, extractors }
  tree := t

/-- Builds a workspace on a file tree. -/
def built (p : Project) (w : Workspace) (kind : BuildKind) (t : FileTree) : Project where
  workspace := (w.buildOn kind t).workspace
  store := (p.store.run (w.buildOn kind t).calls).1
  tree := t
  seen := some t
  texts := fun f =>
    if f ∈ w.marked kind (w.view t) then some (w.sourceText t.read f) else p.texts f

def step (p : Project) : Event → Project
  | .change t => { p with tree := t }
  | .overlay f text => { p with workspace := p.workspace.setOverlay f text }
  | .markDirty f => { p with workspace := p.workspace.markDirty f }
  | .build kind => p.built p.workspace kind p.tree
  | .recalculate f touch =>
    if f.isFeature then
      p.built (p.workspace.recalculating f (touch p.tree).2) .incremental (touch p.tree).1
    else p

def run (p : Project) (events : List Event) : Project := events.foldl step p

/-- The file system that an event builds on, if it builds. -/
def buildsOn (p : Project) : Event → Option FileTree
  | .build _ => some p.tree
  | .recalculate f touch => if f.isFeature then some (touch p.tree).1 else none
  | .change _ | .overlay _ _ | .markDirty _ => none

/-- The build that an event makes, if it builds. -/
def occasion? (p : Project) : Event → Option Occasion
  | .build kind => some ⟨p.workspace, kind, p.tree⟩
  | .recalculate f touch =>
    if f.isFeature then
      some ⟨p.workspace.recalculating f (touch p.tree).2, .incremental, (touch p.tree).1⟩
    else none
  | .change _ | .overlay _ _ | .markDirty _ => none

/-- The builds of a run, the latest first, before those of the past. -/
def builds (p : Project) (past : List Occasion) : List Event → List Occasion
  | [] => past
  | e :: es => (p.step e).builds ((p.occasion? e).toList ++ past) es

theorem buildsOn_eq (p : Project) (e : Event) : p.buildsOn e = (p.occasion? e).map (·.tree) := by
  cases e with
  | change t => rfl
  | overlay f text => rfl
  | markDirty f => rfl
  | build kind => rfl
  | recalculate f touch =>
    simp only [buildsOn, occasion?]
    split <;> rfl

theorem step_of_occasion {p : Project} {e : Event} {b : Occasion} (h : p.occasion? e = some b) :
    p.step e = p.built b.workspace b.kind b.tree := by
  cases e with
  | change t => cases h
  | overlay f text => cases h
  | markDirty f => cases h
  | build kind =>
    obtain rfl := Option.some.inj h
    rfl
  | recalculate f touch =>
    simp only [occasion?, Option.ite_none_right_eq_some, Option.some.injEq] at h
    obtain ⟨hf, rfl⟩ := h
    exact if_pos hf

theorem run_append (p : Project) (es fs : List Event) : p.run (es ++ fs) = (p.run es).run fs :=
  List.foldl_append

theorem recalculating_setup (w : Workspace) (f : FileId) (touched : Option Nat) :
    ∃ forced, w.recalculating f touched = { w with forced } := by
  dsimp only [Workspace.recalculating]
  split
  · exact ⟨w.forced, rfl⟩
  · exact ⟨_, rfl⟩

/-- Recalculating by the touch of a file tree is what a workspace does on that tree. -/
theorem step_recalculate_touch (p : Project) (f : FileId) :
    let q := p.step (.recalculate f (·.touch f))
    let r := p.workspace.recalculateOn f p.tree
    q.tree = r.1 ∧ q.workspace = (r.2.map (·.workspace)).getD p.workspace ∧
      q.store = (p.store.run ((r.2.map (·.calls)).getD [])).1 := by
  obtain ⟨forced, hw⟩ := recalculating_setup p.workspace f (p.tree.touch f).2
  dsimp only [step, Workspace.recalculateOn, Workspace.recalculate]
  cases hf : f.isFeature with
  | false => exact ⟨rfl, rfl, rfl⟩
  | true =>
    simp only [if_true, hw]
    exact ⟨rfl, rfl, rfl⟩

/-- A build sets out with the workspace as it was, up to the files that it takes as changed. -/
theorem occasion_workspace {p : Project} {e : Event} {b : Occasion} (h : p.occasion? e = some b) :
    ∃ forced, b.workspace = { p.workspace with forced } := by
  cases e with
  | change t => cases h
  | overlay f text => cases h
  | markDirty f => cases h
  | build kind =>
    obtain rfl := Option.some.inj h
    exact ⟨p.workspace.forced, rfl⟩
  | recalculate f touch =>
    simp only [occasion?, Option.ite_none_right_eq_some, Option.some.injEq] at h
    obtain ⟨-, rfl⟩ := h
    exact recalculating_setup p.workspace f (touch p.tree).2

/-- A step that builds does so from the workspace as it was, up to the files that it takes as
changed. -/
theorem step_of_buildsOn {p : Project} {e : Event} {t : FileTree} (h : p.buildsOn e = some t) :
    ∃ forced kind, p.step e = p.built { p.workspace with forced } kind t := by
  rw [buildsOn_eq] at h
  obtain ⟨b, hb, rfl⟩ := Option.map_eq_some_iff.mp h
  obtain ⟨forced, hw⟩ := occasion_workspace hb
  exact ⟨forced, b.kind, hw ▸ step_of_occasion hb⟩

/-- A step that does not build only puts something down for the next build. -/
theorem step_of_not_buildsOn {p : Project} {e : Event} (h : p.buildsOn e = none) :
    (∃ forced overlays, (p.step e).workspace = { p.workspace with forced, overlays }) ∧
      (p.step e).store = p.store ∧ (p.step e).seen = p.seen ∧ (p.step e).texts = p.texts := by
  cases e with
  | change t => exact ⟨⟨_, _, rfl⟩, rfl, rfl, rfl⟩
  | overlay f text => exact ⟨⟨_, _, rfl⟩, rfl, rfl, rfl⟩
  | markDirty f => exact ⟨⟨_, _, rfl⟩, rfl, rfl, rfl⟩
  | build kind => simp [buildsOn] at h
  | recalculate f touch =>
    have hf : f.isFeature = false := by simpa [buildsOn] using h
    have hstep : p.step (.recalculate f touch) = p := by simp [step, hf]
    rw [hstep]
    exact ⟨⟨_, _, rfl⟩, rfl, rfl, rfl⟩

/-- What can be said of a workspace and its store whatever is put down for the next build, and is
kept by every build. -/
structure Lasting (I : Workspace → MarkerStore → Prop) : Prop where
  put : ∀ {w store} forced overlays, I w store → I { w with forced, overlays } store
  build : ∀ {w store} kind s, I w store →
    I (w.build kind s).workspace (store.run (w.build kind s).calls).1

theorem Lasting.step {I : Workspace → MarkerStore → Prop} (hI : Lasting I) {p : Project}
    (h : I p.workspace p.store) (e : Event) : I (p.step e).workspace (p.step e).store := by
  cases hb : p.buildsOn e with
  | none =>
    obtain ⟨⟨forced, overlays, hw⟩, hstore, -⟩ := step_of_not_buildsOn hb
    rw [hw, hstore]
    exact hI.put forced overlays h
  | some t =>
    obtain ⟨forced, kind, hs⟩ := step_of_buildsOn hb
    rw [hs]
    exact hI.build kind _ (hI.put forced _ h)

theorem Lasting.run {I : Workspace → MarkerStore → Prop} (hI : Lasting I) {p : Project}
    (h : I p.workspace p.store) (events : List Event) :
    I (p.run events).workspace (p.run events).store := by
  induction events generalizing p with
  | nil => exact h
  | cons e es ih => exact ih (hI.step h e)

theorem step_sameSetup (p : Project) (e : Event) :
    (p.step e).workspace.SameSetup p.workspace := by
  cases h : p.buildsOn e with
  | none =>
    obtain ⟨⟨_, _, hw⟩, -⟩ := step_of_not_buildsOn h
    rw [hw]
    exact ⟨rfl, rfl, rfl⟩
  | some t =>
    obtain ⟨forced, kind, hs⟩ := step_of_buildsOn h
    have hb := Workspace.build_sameSetup { p.workspace with forced } kind (p.workspace.view t)
    rw [hs]
    exact ⟨hb.root, hb.settings, hb.extractors⟩

theorem run_sameSetup (p : Project) (events : List Event) :
    (p.run events).workspace.SameSetup p.workspace := by
  induction events generalizing p with
  | nil => exact ⟨rfl, rfl, rfl⟩
  | cons e es ih => exact (ih (p.step e)).trans (p.step_sameSetup e)

/-- Only an overlay changes the overlays between builds. -/
theorem step_overlays {p : Project} {e : Event} (h : p.buildsOn e = none)
    (he : ∀ f text, e ≠ .overlay f text) : (p.step e).workspace.overlays = p.workspace.overlays := by
  cases e with
  | change t => rfl
  | overlay f text => exact absurd rfl (he f text)
  | markDirty f => rfl
  | build kind => simp [buildsOn] at h
  | recalculate f touch =>
    have hf : f.isFeature = false := by simpa [buildsOn] using h
    simp [step, hf]

/-- A project with one glue file and one feature. -/
def sampleTree (glue : String) (stamp : Nat) : FileTree where
  nodes := [(["a.java"], .file glue.toUTF8 stamp),
    (["b.feature"], .file "Feature: x\n Scenario: y\n  Given a b\n".toUTF8 1)]

theorem sampleTree_walk {glue : String} (h : glue.toUTF8.size ≤ 1000) (stamp levels : Nat) :
    (sampleTree glue stamp).walk 1000 (levels + 1) [[]] [] [] = [["a.java"], ["b.feature"]] := by
  have hchildren : (sampleTree glue stamp).children [] =
      [("a.java", .file glue.toUTF8 stamp),
        ("b.feature", .file "Feature: x\n Scenario: y\n  Given a b\n".toUTF8 1)] := rfl
  have hfeature : "Feature: x\n Scenario: y\n  Given a b\n".toUTF8.size ≤ 1000 := by decide
  rw [FileTree.walk_files, hchildren]
  · rfl
  · simp only [hchildren, List.forall_mem_cons]
    exact ⟨⟨_, _, rfl, h⟩, ⟨_, _, rfl, hfeature⟩, nofun⟩

theorem mem_sampleTree_files {glue : String} (h : glue.toUTF8.size ≤ 1000) {stamp : Nat}
    {f : FileId} : f ∈ ((sampleTree glue stamp).snapshot ⟨[]⟩ 1000).files ↔
      f = ⟨[.name "a.java"]⟩ ∨ f = ⟨[.name "b.feature"]⟩ := by
  have hscan : ∀ p, p ∈ (sampleTree glue stamp).scan [] 1000 ↔
      p ∈ [["a.java"], ["b.feature"]] := by
    intro p
    rw [FileTree.mem_scan_nil]
    exact iff_of_eq (congrArg (p ∈ ·) (sampleTree_walk h stamp 8))
  simp only [FileTree.snapshot, List.mem_map, hscan]
  simp [eq_comm]

theorem not_mem_empty_files (f : FileId) : f ∉ (({} : FileTree).snapshot ⟨[]⟩ 1000).files := by
  intro hf
  obtain ⟨place, hplace, -⟩ := List.mem_map.mp hf
  have hplace : place ∈ ({} : FileTree).scan [] 1000 := hplace
  rw [FileTree.mem_scan_nil] at hplace
  cases hplace

def sampleSettings : BuildSettings := ⟨true, 1000⟩

/-- The new project on the sample. -/
def sample : Project := start ⟨[]⟩ sampleSettings Extractor.all (sampleTree "@Given(\"a b\")" 1)

theorem sample_classify_glue :
    sample.workspace.classify ⟨[.name "a.java"]⟩ = some (.glue .annotations) := by
  have hfeature : FileId.isFeature ⟨[.name "a.java"]⟩ = false := by decide +kernel
  have hfirst : Extractor.attributes.handles [.name "a.java"] = false := by decide +kernel
  have hsecond : Extractor.annotations.handles [.name "a.java"] = true := by decide +kernel
  have hfind : Extractor.find? Extractor.all [.name "a.java"] = some .annotations := by
    simp [Extractor.find?, Extractor.all, hfirst, hsecond]
  simp only [Workspace.classify, hfeature, Bool.false_eq_true, if_false]
  exact congrArg (Option.map SourceKind.glue) hfind

theorem sample_classify_feature :
    sample.workspace.classify ⟨[.name "b.feature"]⟩ = some .feature := by
  have hfeature : FileId.isFeature ⟨[.name "b.feature"]⟩ = true := by decide +kernel
  exact if_pos hfeature

theorem sample_kindIn_glue : sample.workspace.kindIn (sample.workspace.view sample.tree)
    ⟨[.name "a.java"]⟩ = some (.glue .annotations) := by
  have hfile : ⟨[.name "a.java"]⟩ ∈ (sample.workspace.view sample.tree).files :=
    (mem_sampleTree_files (by decide)).mpr (Or.inl rfl)
  exact (if_pos hfile).trans sample_classify_glue

theorem sample_kindIn_feature : sample.workspace.kindIn (sample.workspace.view sample.tree)
    ⟨[.name "b.feature"]⟩ = some .feature := by
  have hfile : ⟨[.name "b.feature"]⟩ ∈ (sample.workspace.view sample.tree).files :=
    (mem_sampleTree_files (by decide)).mpr (Or.inr rfl)
  exact (if_pos hfile).trans sample_classify_feature

end Project

end StepGlue
