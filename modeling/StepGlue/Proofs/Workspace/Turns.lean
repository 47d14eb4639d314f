import StepGlue.Proofs.Marker.Turn
import StepGlue.Proofs.Workspace.Build

/-! A build gives every file one turn: files that are gone are cleaned, glue that has changed is
read, features are marked. No file is two of these, so none has a second turn. -/

namespace StepGlue

theorem placings_reportOutcome (reportMatches : Bool) (file : FileId) (doc : Document)
    (step : Step) (o : Outcome) : Placings file (reportOutcome reportMatches file doc step o) := by
  cases o with
  | unmatched => exact placings_placing _ _
  | single d =>
    cases reportMatches
    · exact placings_nil file
    · exact placings_placing _ _
  | multiple ds => exact placings_placing _ _

theorem placings_reportFeature (reportMatches : Bool) (file : FileId)
    (definitions : List Definition) (source : String) :
    Placings file (reportFeature reportMatches file definitions source) := by
  unfold reportFeature
  split
  · exact placings_placing _ _
  · refine (placings_flatMap fun s _ => placings_reportOutcome _ _ _ _ _).append
      (placings_flatMap fun o _ => ?_)
    rw [reportOutline_eq]
    exact (placings_flatMap fun r _ => placings_placing _ _).append
      (placings_flatMap fun p _ => placings_placing _ _)

theorem turn_indexGlue (e : Extractor) (file : FileId) (text : Except ReadError String) :
    FileTurn file (indexGlue e file text).2 := by
  unfold indexGlue
  split
  · exact .idle
  · split
    · exact .renew (placings_placing _ _)
    · exact .renew (placings_flatMap fun m _ => placings_placing _ _)

namespace Workspace

theorem turn_recomputeFeature (w : Workspace) (read : FileId → Except ReadError String)
    (file : FileId) : FileTurn file (w.recomputeFeature read file) := by
  refine .renew ?_
  split
  · exact placings_nil file
  · exact placings_reportFeature _ _ _ _

theorem turn_callsOf (w : Workspace) (s : Snapshot) (f : FileId) (k : SourceKind) :
    FileTurn f (Progress.callsOf w s f k) := by
  cases k with
  | feature => exact .idle
  | glue e =>
    simp only [Progress.callsOf]
    split
    · exact turn_indexGlue e f _
    · exact .idle

/-- The turns of a build, each with its file. -/
def turns (w : Workspace) (kind : BuildKind) (s : Snapshot) : List (FileId × List StoreCall) :=
  (w.gone s).map (fun f => (f, cleaning f))
    ++ ((w.sources s).filter (!·.2.isFeature)).map (fun a =>
        (a.1, Progress.callsOf (w.cleared kind s).workspace s a.1 a.2))
    ++ (w.marked kind s).map fun f =>
        (f, (w.surveyed kind s).workspace.recomputeFeature s.read f)

/-- Features have nothing to say before they are marked. -/
theorem flatMap_callsOf_glue (w : Workspace) (s : Snapshot) (l : List (FileId × SourceKind)) :
    (l.filter (!·.2.isFeature)).flatMap (fun a => Progress.callsOf w s a.1 a.2) =
      l.flatMap fun a => Progress.callsOf w s a.1 a.2 := by
  induction l with
  | nil => rfl
  | cons a l ih =>
    obtain ⟨f, k⟩ := a
    cases k with
    | feature => exact ih
    | glue e => rw [List.filter_cons_of_pos rfl, List.flatMap_cons, List.flatMap_cons, ih]

theorem build_calls_eq_turns (w : Workspace) (kind : BuildKind) (s : Snapshot) :
    (w.build kind s).calls = (w.turns kind s).flatMap (·.2) := by
  rw [build_calls, turns, List.flatMap_append, List.flatMap_append, List.flatMap_map,
    List.flatMap_map, List.flatMap_map, flatMap_callsOf_glue]

theorem turn_of_mem_turns {w : Workspace} {kind : BuildKind} {s : Snapshot}
    {a : FileId × List StoreCall} (h : a ∈ w.turns kind s) : FileTurn a.1 a.2 := by
  simp only [turns, List.mem_append, List.mem_map] at h
  rcases h with (⟨f, -, rfl⟩ | ⟨b, -, rfl⟩) | ⟨f, -, rfl⟩
  · exact .clean
  · exact turn_callsOf _ _ _ _
  · exact turn_recomputeFeature _ _ _

/-- No file has two turns. -/
theorem turns_nodup {w : Workspace} (h : w.stamps.Ordered) (kind : BuildKind) (s : Snapshot) :
    ((w.turns kind s).map (·.1)).Nodup := by
  have hkeys : (w.turns kind s).map (·.1) = w.gone s
      ++ ((w.sources s).filter (!·.2.isFeature)).map (·.1) ++ w.marked kind s := by
    simp [turns, Function.comp_def]
  have hgone : (w.gone s).Nodup := h.keys_nodup.filter _
  have hglue : (((w.sources s).filter (!·.2.isFeature)).map (·.1)).Nodup :=
    (sources_nodup w s).sublist (List.filter_sublist.map _)
  have hseen : ∀ f ∈ ((w.sources s).filter (!·.2.isFeature)).map (·.1),
      ∃ e, w.kindIn s f = some (.glue e) := by
    intro f hf
    obtain ⟨⟨g, k⟩, hg, rfl⟩ := List.mem_map.mp hf
    obtain ⟨hg, hk⟩ := List.mem_filter.mp hg
    cases k with
    | feature => cases hk
    | glue e => exact ⟨e, mem_sources.mp hg⟩
  rw [hkeys, List.nodup_append, List.nodup_append]
  refine ⟨⟨hgone, hglue, ?_⟩, marked_nodup w kind s, ?_⟩
  · rintro f hf _ hg rfl
    obtain ⟨e, he⟩ := hseen f hg
    rw [(mem_gone.mp hf).2] at he
    cases he
  · rintro f hf _ hm rfl
    have hfeature := (mem_marked.mp hm).1
    rcases List.mem_append.mp hf with hf | hf
    · rw [(mem_gone.mp hf).2] at hfeature
      cases hfeature
    · obtain ⟨e, he⟩ := hseen f hf
      rw [he] at hfeature
      cases hfeature

/-- The batches of a build are properly nested, and every marker is added inside one. -/
theorem nested_build (w : Workspace) (kind : BuildKind) (s : Snapshot) :
    Nested (w.build kind s).calls := by
  rw [build_calls_eq_turns]
  exact nested_flatMap fun a ha => (turn_of_mem_turns ha).nested

theorem balanced_build (w : Workspace) (kind : BuildKind) (s : Snapshot) :
    MarkerStore.Balanced (w.build kind s).calls :=
  (nested_build w kind s).balanced

end Workspace

end StepGlue
