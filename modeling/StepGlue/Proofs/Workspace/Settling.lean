import StepGlue.Proofs.Workspace.Refusals
import StepGlue.Proofs.Workspace.Telling

/-! A build settles the project.

After a build the stamps are those of the files that it saw, and nothing is put down for the next
one. On the same file system an incremental build then finds no file gone and none changed. So it
comes back to the workspace that it set out with, and has nothing to say to the store. -/

namespace StepGlue

theorem FileMap.Ordered.insert_eq_self {α : Type} {m : FileMap α} (h : m.Ordered) {f : FileId}
    {a : α} (hf : m.get? f = some a) : m.insert f a = m := by
  refine (h.insert f a).ext h fun g => ?_
  rw [get?_insert]
  by_cases hg : f = g
  · rw [if_pos hg, ← hg, hf]
  · rw [if_neg hg]

namespace Workspace

/-- The workspace knows just the files of a snapshot, as they are there, and nothing is put down
for the next build. -/
structure Settled (w : Workspace) (s : Snapshot) : Prop where
  ordered : w.stamps.Ordered
  stamps : ∀ f, w.stamps.get? f = if (w.kindIn s f).isSome then some (s.stamp f) else none
  overlays : w.overlays = {}
  forced : w.forced = []

theorem settled_build {w : Workspace} (h : w.stamps.Ordered) (kind : BuildKind) (s : Snapshot) :
    (w.build kind s).workspace.Settled s := by
  obtain ⟨stamps, repository, hw⟩ := build_setup w kind s
  refine ⟨build_stamps_ordered h kind s, fun f => ?_, ?_, ?_⟩
  · rw [build_stamps, (build_sameSetup w kind s).kindIn_eq]
  · rw [hw]
  · rw [hw]

namespace Settled

variable {w : Workspace} {s : Snapshot}

theorem gone_eq_nil (h : w.Settled s) : w.gone s = [] := by
  refine List.eq_nil_iff_forall_not_mem.mpr fun f hf => ?_
  obtain ⟨hstamp, hkind⟩ := mem_gone.mp hf
  simp [h.stamps f, hkind] at hstamp

theorem isChanged (h : w.Settled s) {f : FileId} (hf : (w.kindIn s f).isSome) :
    Progress.isChanged w s f = false := by
  have hstamp : w.stamps.get? f = some (s.stamp f) := by rw [h.stamps f, if_pos hf]
  have hoverlays : w.overlays.contains f = false := by rw [h.overlays]; rfl
  simp [Progress.isChanged, hstamp, hoverlays, h.forced]

end Settled

theorem Progress.visit_eq_self {s : Snapshot} {p : Progress} (h : p.workspace.stamps.Ordered)
    {f : FileId} (hf : isChanged p.workspace s f = false) (k : SourceKind) :
    p.visit s f k = p := by
  have hstamp : p.workspace.stamps.get? f = some (s.stamp f) := by
    have hh := (Bool.or_eq_false_iff.mp hf).2
    simpa using hh
  -- the stamp is still put down, where it stands already
  have hsame := h.insert_eq_self hstamp
  simp only [visit, hf, hsame]
  rfl

theorem Progress.visitAll_eq_self {s : Snapshot} {l : List (FileId × SourceKind)} {p : Progress}
    (h : p.workspace.stamps.Ordered) (hl : ∀ a ∈ l, isChanged p.workspace s a.1 = false) :
    visitAll s l p = p := by
  induction l with
  | nil => rfl
  | cons a l ih =>
    obtain ⟨ha, hl⟩ := List.forall_mem_cons.mp hl
    have hvisit : p.visit s a.1 a.2 = p := visit_eq_self h ha a.2
    have hcons : visitAll s (a :: l) p = visitAll s l (p.visit s a.1 a.2) := rfl
    rw [hcons, hvisit, ih hl]

/-- On the files that it knows, an incremental build does nothing. -/
theorem Settled.build_eq {w : Workspace} {s : Snapshot} (h : w.Settled s) :
    w.build .incremental s = ⟨w, {}, []⟩ := by
  have hcleared : w.cleared .incremental s = { workspace := w } := by
    simp only [cleared, h.gone_eq_nil]
    rfl
  have hunchanged : ∀ a ∈ w.sources s, Progress.isChanged w s a.1 = false := by
    intro a ha
    exact h.isChanged (mem_sources_keys.mp (List.mem_map_of_mem ha))
  have hsurveyed : w.surveyed .incremental s = { workspace := w } := by
    rw [surveyed_eq, hcleared]
    exact Progress.visitAll_eq_self h.ordered hunchanged
  have hw : { w with overlays := {}, forced := [] } = w := by
    rw [← h.overlays, ← h.forced]
  simp only [build, hsurveyed, hw]
  rfl

theorem lasting_stamps_ordered : Project.Lasting fun w _ => w.stamps.Ordered where
  put _ _ h := h
  build kind s h := build_stamps_ordered h kind s

end Workspace

/-! ### Runs -/

/-- Whether an event makes a build; to recalculate anything but a feature does not. -/
def Event.isBuild : Event → Bool
  | .build _ => true
  | .recalculate f _ => f.isFeature
  | .change _ | .overlay _ _ | .markDirty _ => false

theorem Project.exists_occasion {e : Event} (h : e.isBuild = true) (p : Project) :
    ∃ b, p.occasion? e = some b := by
  cases e with
  | change t => cases h
  | overlay f text => cases h
  | markDirty f => cases h
  | build kind => exact ⟨_, rfl⟩
  | recalculate f touch => exact ⟨_, if_pos h⟩

theorem Project.settled_step {p : Project} (h : p.workspace.stamps.Ordered) {e : Event}
    (he : e.isBuild = true) :
    (p.step e).workspace.Settled ((p.step e).workspace.view (p.step e).tree) := by
  obtain ⟨b, hb⟩ := p.exists_occasion he
  obtain ⟨forced, hw⟩ := occasion_workspace hb
  have hordered : b.workspace.stamps.Ordered := by rw [hw]; exact h
  rw [step_of_occasion hb]
  have hview := (Workspace.build_sameSetup b.workspace b.kind b.snapshot).view_eq b.tree
  have hsettled := Workspace.settled_build hordered b.kind b.snapshot
  exact hview ▸ hsettled

namespace HostedProject

/-- Whatever store it deals with, a project that has just built and is told to build again at once
reports that it did nothing, makes no call, and keeps its workspace and its store. -/
theorem build_settles {σ : Type} (k : StoreInterface σ) (x : σ) (root : FileId)
    (settings : BuildSettings) (extractors : List Extractor) (t : FileTree)
    (before : List Event) (e : Event) (he : e.isBuild = true) :
    let h := (start x root settings extractors t).run k (before ++ [e])
    let g := h.step k (.build .incremental)
    g.builds = ({}, []) :: h.builds ∧ g.workspace = h.workspace ∧ g.store = h.store := by
  intro h g
  let q := (Project.start root settings extractors t).run before
  let p := q.step e
  let past := (Project.start root settings extractors t).builds [] (before ++ [e])
  have hstart : (start x root settings extractors t).Follows
      (Project.start root settings extractors t) [] := ⟨rfl, rfl, rfl⟩
  have hrun : (Project.start root settings extractors t).run (before ++ [e]) = p :=
    Project.run_append _ before [e]
  have hh : h.Follows p past := hrun ▸ hstart.run (before ++ [e])
  have hordered : q.workspace.stamps.Ordered :=
    Workspace.lasting_stamps_ordered.run FileMap.Ordered.empty before
  have hsettled : p.workspace.Settled (p.workspace.view p.tree) := Project.settled_step hordered he
  let b : Occasion := ⟨p.workspace, .incremental, p.tree⟩
  have hresult : b.result = ⟨p.workspace, {}, []⟩ := hsettled.build_eq
  have hg : g.Follows (p.step (.build .incremental)) (b :: past) := hh.step (.build .incremental)
  refine ⟨?_, ?_, ?_⟩
  · rw [hg.builds, List.map_cons, Occasion.account, hresult, ← hh.builds]
  · rw [hg.workspace, hh.workspace]
    exact congrArg (·.workspace) hresult
  · have hstep : g = h.built k b.workspace b.kind b.tree := hh.step_of_occasion rfl
    rw [hstep, built_store, hresult]
    rfl

/-- A store that refuses everything. -/
def refusing : StoreInterface Unit where
  beginBatch := id
  endBatch := id
  add _ _ u := (.error ⟨"full"⟩, u)
  delete _ _ u := (.error ⟨"full"⟩, u)

/-- Glue that an overlay has replaced for one build only, and a feature that was touched, are not
built again, although the store has taken no marker of either. -/
theorem build_settles_refused :
    let feature : FileId := ⟨[.name "b.feature"]⟩
    let touched : Event := .recalculate feature (·.touch feature)
    let h := (start () ⟨[]⟩ Project.sampleSettings Extractor.all
      (Project.sampleTree "@Given(\"a b\")" 1)).run refusing
      ([.build .full, .overlay ⟨[.name "a.java"]⟩ "@Given(\"(\")"] ++ [touched])
    let g := h.step refusing (.build .incremental)
    touched.isBuild = true ∧ g.builds.head? = some ({}, []) ∧
      g.workspace.repository = h.workspace.repository := by
  intro feature touched h g
  have hfeature : touched.isBuild = true := by
    change feature.isFeature = true
    decide +kernel
  obtain ⟨hbuilds, hworkspace, -⟩ := build_settles refusing () ⟨[]⟩ Project.sampleSettings
    Extractor.all (Project.sampleTree "@Given(\"a b\")" 1) _ touched hfeature
  exact ⟨hfeature, congrArg List.head? hbuilds, congrArg (·.repository) hworkspace⟩

end HostedProject

end StepGlue
