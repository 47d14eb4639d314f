import StepGlue.Proofs.Workspace.Turns

/-! What a build tells: the files that it tells of are files that are gone, glue that it has read
anew and features that it has marked anew. -/

namespace StepGlue

open MarkerStore

namespace Workspace

/-- A file that is told of is gone, is glue that was read, or was marked anew. -/
theorem told_cases {w : Workspace} {kind : BuildKind} {s : Snapshot} {store : MarkerStore}
    (hq : store.Quiet) {f : FileId} (h : f ∈ (store.run (w.build kind s).calls).2.flatten) :
    f ∈ w.gone s ∨
      (∃ e source, w.kindIn s f = some (.glue e) ∧ w.changed kind s f = true ∧
        w.sourceText s.read f = .ok source) ∨
      f ∈ w.marked kind s := by
  rw [hq.mem_told (balanced_build w kind s)] at h
  obtain ⟨c, hc, hreal, hf⟩ := exists_of_mem_changesAll h
  have hsame : ∀ g, c.About g → g = f := by
    intro g hg
    cases c with
    | beginBatch => cases hreal
    | endBatch => cases hreal
    | add k m => exact (show k = g from hg).symm.trans hf
    | delete k kinds => exact (show k = g from hg).symm.trans hf
  rw [build_calls] at hc
  rcases List.mem_append.mp hc with hc | hc
  · rcases List.mem_append.mp hc with hc | hc
    · obtain ⟨g, hg, hc⟩ := List.mem_flatMap.mp hc
      obtain rfl := hsame g (about_cleaning g c hc)
      exact Or.inl hg
    · obtain ⟨⟨g, k⟩, hg, hc⟩ := List.mem_flatMap.mp hc
      obtain rfl := hsame g (Progress.about_callsOf _ _ _ _ c hc)
      have hk := mem_sources.mp hg
      cases k with
      | feature => cases hc
      | glue e =>
        simp only [Progress.callsOf] at hc
        split at hc
        · next hch =>
          rw [isChanged_cleared (by simp [hk])] at hch
          rw [sourceText_cleared] at hc
          cases htext : w.sourceText s.read g with
          | error err =>
            rw [htext] at hc
            cases hc
          | ok source => exact Or.inr (Or.inl ⟨e, source, hk, hch, rfl⟩)
        · cases hc
  · obtain ⟨g, hg, hc⟩ := List.mem_flatMap.mp hc
    obtain rfl := hsame g (about_recomputeFeature _ _ g c hc)
    exact Or.inr (Or.inr hg)

end Workspace

end StepGlue
