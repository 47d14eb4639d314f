import StepGlue.Proofs.Workspace.RemovalOrder
import StepGlue.Proofs.Workspace.Run
import StepGlue.Proofs.Workspace.Turns

/-! A build tells of each change once.

Between builds no batch is open, and the stamps are in order, so no file stands among them twice.
Then the turns of a build are those of different files, and what they tell is a row of single
files without repetition. -/

namespace StepGlue

/-- What a listener is told of the way from one store to another: one file at a time, no file
twice, every file whose markers are others now, and no file that has never had any. -/
structure TellsOnce (before after : MarkerStore) (told : List Notification) : Prop where
  one_file : ∀ n ∈ told, ∃ f, n = [f]
  once : told.Pairwise List.Disjoint
  all_changes : ∀ f, after.markersOf f ≠ before.markersOf f → f ∈ told.flatten
  only_marked : ∀ f ∈ told.flatten, before.markersOf f ≠ [] ∨ after.markersOf f ≠ []

/-- Two builds that leave the same workspace, report and store, and tell the same, in whatever
order. -/
structure SameOutcome (before : MarkerStore) (b b' : Workspace.Built) : Prop where
  workspace : b.workspace = b'.workspace
  report : b.report = b'.report
  store : (before.run b.calls).1 = (before.run b'.calls).1
  told : (before.run b.calls).2.Perm (before.run b'.calls).2

namespace Workspace

theorem Progress.foldl_forget_stamps_ordered {p : Progress} (h : p.workspace.stamps.Ordered)
    (l : List FileId) : (l.foldl forget p).workspace.stamps.Ordered := by
  induction l generalizing p with
  | nil => exact h
  | cons f l ih => exact ih (h.erase f)

theorem Progress.visitAll_stamps_ordered {p : Progress} (h : p.workspace.stamps.Ordered)
    (s : Snapshot) (l : List (FileId × SourceKind)) :
    (visitAll s l p).workspace.stamps.Ordered := by
  induction l generalizing p with
  | nil => exact h
  | cons a l ih =>
    refine ih ?_
    rw [visit_workspace]
    exact h.insert a.1 (s.stamp a.1)

theorem build_stamps_ordered {w : Workspace} (h : w.stamps.Ordered) (kind : BuildKind)
    (s : Snapshot) : (w.build kind s).workspace.stamps.Ordered := by
  have hcleared : (w.cleared kind s).workspace.stamps.Ordered := by
    cases kind with
    | full => exact FileMap.Ordered.empty
    | incremental => exact Progress.foldl_forget_stamps_ordered h (w.gone s)
  exact Progress.visitAll_stamps_ordered hcleared s (w.sources s)

theorem tellsOnce_build {w : Workspace} (h : w.stamps.Ordered) {store : MarkerStore}
    (hq : store.Quiet) (kind : BuildKind) (s : Snapshot) :
    TellsOnce store (store.run (w.build kind s).calls).1
      (store.run (w.build kind s).calls).2 := by
  have hturns : ∀ a ∈ w.turns kind s, FileTurn a.1 a.2 := fun a ha => turn_of_mem_turns ha
  have hnd := turns_nodup h kind s
  have hbalanced := balanced_build w kind s
  rw [build_calls_eq_turns] at hbalanced ⊢
  have hsub := hq.told_turns hturns
  refine ⟨fun n hn => ?_, ?_, fun f hf => ?_, fun f hf => ?_⟩
  · obtain ⟨a, -, rfl⟩ := List.mem_map.mp (hsub.subset hn)
    exact ⟨a.1, rfl⟩
  · have hpairs : ((w.turns kind s).map fun a => [a.1]).Pairwise List.Disjoint := by
      have hmap : ((w.turns kind s).map fun a => [a.1]) =
          ((w.turns kind s).map (·.1)).map fun f => [f] := by simp
      rw [hmap]
      refine List.pairwise_map.mpr (hnd.imp fun hne f hf hg => hne ?_)
      exact (List.mem_singleton.mp hf).symm.trans (List.mem_singleton.mp hg)
    exact hpairs.sublist hsub
  · rw [hq.mem_told hbalanced]
    exact Classical.not_not.mp (mt MarkerStore.markersOf_run_of_not_mem hf)
  · exact hq.marked_of_told_turns hturns hnd hf

/-- What holds between builds: nothing is left to tell, and no file has two stamps. -/
structure Poised (w : Workspace) (store : MarkerStore) : Prop where
  quiet : store.Quiet
  ordered : w.stamps.Ordered

theorem lasting_poised : Project.Lasting Poised where
  put _ _ h := ⟨h.quiet, h.ordered⟩
  build kind s h :=
    ⟨h.quiet.run (balanced_build _ kind s), build_stamps_ordered h.ordered kind s⟩

end Workspace

namespace Project

/-- A new project on a store that has been in use. -/
def startWith (store : MarkerStore) (root : FileId) (settings : BuildSettings)
    (extractors : List Extractor) (t : FileTree) : Project :=
  { start root settings extractors t with store }

/-- Every build that a project can come to, on a store that any calls have made and left at depth
zero, tells of each change once; and the order in which it forgets files leaves no trace. -/
theorem build_tells_each_change_once (root : FileId) (settings : BuildSettings)
    (extractors : List Extractor) (t : FileTree) (calls : List StoreCall)
    (hdepth : (({} : MarkerStore).run calls).1.depth = 0) (events : List Event)
    (kind : BuildKind) (s : Snapshot) :
    let p := (startWith (({} : MarkerStore).run calls).1 root settings extractors t).run events
    let b := p.workspace.build kind s
    TellsOnce p.store (p.store.run b.calls).1 (p.store.run b.calls).2 ∧
      ∀ order : List FileId, order.Perm (p.workspace.gone s) →
        SameOutcome p.store (p.workspace.buildIn order kind s) b := by
  intro p b
  have hquiet : (({} : MarkerStore).run calls).1.Quiet :=
    ⟨hdepth, MarkerStore.settled_new.run calls hdepth⟩
  have hp : p.workspace.Poised p.store :=
    Workspace.lasting_poised.run ⟨hquiet, FileMap.Ordered.empty⟩ events
  refine ⟨Workspace.tellsOnce_build hp.ordered hp.quiet kind s, fun order ho => ?_⟩
  obtain ⟨hworkspace, hreport, -⟩ := Workspace.buildIn_perm ho kind
  obtain ⟨hstore, htold⟩ := Workspace.run_buildIn_perm ho kind hp.quiet.closed
  exact ⟨hworkspace, hreport, hstore, htold⟩

/-- A project that loses its glue and its feature, forgotten in either order. -/
theorem build_tells_each_change_once_emptied :
    let p := sample.run [.build .full]
    let s := sample.workspace.view {}
    let b := p.workspace.build .incremental s
    (⟨[.name "a.java"]⟩ ∈ p.workspace.gone s ∧ ⟨[.name "b.feature"]⟩ ∈ p.workspace.gone s) ∧
      TellsOnce p.store (p.store.run b.calls).1 (p.store.run b.calls).2 ∧
      SameOutcome p.store (p.workspace.buildIn (p.workspace.gone s).reverse .incremental s) b := by
  intro p s b
  have hgone : ∀ f, (sample.workspace.kindIn (sample.workspace.view sample.tree) f).isSome →
      f ∈ p.workspace.gone s := by
    intro f hf
    refine Workspace.mem_gone.mpr ⟨?_, if_neg (not_mem_empty_files f)⟩
    have hstamps := Workspace.build_stamps sample.workspace .full
      (sample.workspace.view sample.tree) f
    rw [if_pos hf] at hstamps
    exact Option.isSome_of_eq_some hstamps
  obtain ⟨htells, hsame⟩ := build_tells_each_change_once ⟨[]⟩ sampleSettings Extractor.all
    (sampleTree "@Given(\"a b\")" 1) [] rfl [.build .full] .incremental s
  exact ⟨⟨hgone _ (Option.isSome_of_eq_some sample_kindIn_glue),
    hgone _ (Option.isSome_of_eq_some sample_kindIn_feature)⟩, htells,
    hsame _ (List.reverse_perm _)⟩

end Project

end StepGlue
