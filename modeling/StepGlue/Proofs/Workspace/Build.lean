import StepGlue.Proofs.Marker.Report
import StepGlue.Proofs.Repository

/-! What a build leaves at each file: its stamp, its entry in the repository and its markers.

A build visits every file once, and a visit touches nothing but the file itself. So what is left
at a file depends on the file alone, whatever the other files of the project are. -/

namespace StepGlue

namespace Workspace

/-- What a file is to a build: nothing, if the build does not see it. -/
def kindIn (w : Workspace) (s : Snapshot) (f : FileId) : Option SourceKind :=
  if f ∈ s.files then w.classify f else none

theorem mem_files_of_kindIn {w : Workspace} {s : Snapshot} {f : FileId}
    (h : (w.kindIn s f).isSome) : f ∈ s.files := by
  unfold kindIn at h
  split at h
  · assumption
  · cases h

theorem mem_sources {w : Workspace} {s : Snapshot} {f : FileId} {k : SourceKind} :
    (f, k) ∈ w.sources s ↔ w.kindIn s f = some k := by
  simp only [sources, List.mem_filterMap, mem_sortFiles, kindIn]
  constructor
  · rintro ⟨g, hg, hk⟩
    obtain ⟨k', hk', he⟩ := Option.map_eq_some_iff.mp hk
    obtain ⟨rfl, rfl⟩ := Prod.mk.inj he
    rw [if_pos hg, hk']
  · intro h
    by_cases hf : f ∈ s.files
    · rw [if_pos hf] at h
      exact ⟨f, hf, by rw [h]; rfl⟩
    · simp [hf] at h

theorem sources_nodup (w : Workspace) (s : Snapshot) : ((w.sources s).map (·.1)).Nodup := by
  have hpart : (w.sources s).map (·.1) =
      (sortFiles s.files).filter fun f => (w.classify f).isSome := by
    unfold sources
    induction sortFiles s.files with
    | nil => rfl
    | cons f fs ih => cases hc : w.classify f <;> simp [hc, ih]
  rw [hpart]
  exact (sortFiles_nodup s.files).filter _

theorem mem_gone {w : Workspace} {s : Snapshot} {f : FileId} :
    f ∈ w.gone s ↔ (w.stamps.get? f).isSome ∧ w.kindIn s f = none := by
  have hany : (w.sources s).any (·.1 == f) = (w.kindIn s f).isSome := by
    apply Bool.eq_iff_iff.mpr
    rw [List.any_eq_true, Option.isSome_iff_exists]
    constructor
    · rintro ⟨⟨g, k⟩, hg, he⟩
      have hgf : g = f := by simpa using he
      exact ⟨k, mem_sources.mp (hgf ▸ hg)⟩
    · rintro ⟨k, hk⟩
      exact ⟨(f, k), mem_sources.mpr hk, by simp⟩
  simp [gone, FileMap.mem_keys, hany]

namespace Progress

/-! ### Forgetting -/

theorem foldl_forget_setup (l : List FileId) (p : Progress) : ∃ stamps repository,
    (l.foldl forget p).workspace = { p.workspace with stamps, repository } := by
  induction l generalizing p with
  | nil => exact ⟨_, _, rfl⟩
  | cons g l ih =>
    obtain ⟨stamps, repository, h⟩ := ih (p.forget g)
    exact ⟨stamps, repository, h⟩

theorem foldl_forget_stamps (l : List FileId) (p : Progress) (f : FileId) :
    (l.foldl forget p).workspace.stamps.get? f =
      if f ∈ l then none else p.workspace.stamps.get? f := by
  induction l generalizing p with
  | nil => simp
  | cons g l ih =>
    rw [List.foldl_cons, ih]
    by_cases hg : g = f
    · subst hg
      simp [forget]
    · simp [forget, hg, Ne.symm hg]

theorem get?_forget_repository (p : Progress) (g f : FileId) :
    (p.forget g).workspace.repository.entries.get? f =
      if g = f then none else p.workspace.repository.entries.get? f := by
  unfold forget
  dsimp only
  split
  · rw [Repository.get?_put, Repository.entryOf_nil]
  · next hc =>
    by_cases hg : g = f
    · subst hg
      rw [Repository.contributes_eq_isSome] at hc
      simpa using hc
    · simp [hg]

theorem foldl_forget_repository (l : List FileId) (p : Progress) (f : FileId) :
    (l.foldl forget p).workspace.repository.entries.get? f =
      if f ∈ l then none else p.workspace.repository.entries.get? f := by
  induction l generalizing p with
  | nil => simp
  | cons g l ih =>
    rw [List.foldl_cons, ih, get?_forget_repository]
    by_cases hg : g = f
    · subst hg
      simp
    · simp [hg, Ne.symm hg]

theorem foldl_forget_ordered {p : Progress} (h : p.workspace.repository.entries.Ordered)
    (l : List FileId) : (l.foldl forget p).workspace.repository.entries.Ordered := by
  induction l generalizing p with
  | nil => exact h
  | cons g l ih =>
    refine ih ?_
    unfold forget
    dsimp only
    split
    · exact Repository.put_ordered h g []
    · exact h

/-- While no glue has changed, the repository stays as it was. -/
theorem foldl_forget_unchanged {l : List FileId} {p : Progress}
    (h : (l.foldl forget p).glueChanged = false) :
    p.glueChanged = false ∧ (l.foldl forget p).workspace.repository = p.workspace.repository := by
  induction l generalizing p with
  | nil => exact ⟨h, rfl⟩
  | cons g l ih =>
    obtain ⟨hg, hr⟩ := ih h
    obtain ⟨hp, hc⟩ := Bool.or_eq_false_iff.mp hg
    refine ⟨hp, hr.trans ?_⟩
    simp [forget, hc]

theorem foldl_forget_features (l : List FileId) (p : Progress) :
    (l.foldl forget p).features = p.features := by
  induction l generalizing p with
  | nil => rfl
  | cons g l ih => exact ih (p.forget g)

theorem foldl_forget_calls (l : List FileId) (p : Progress) :
    (l.foldl forget p).calls = p.calls ++ l.flatMap cleaning := by
  induction l generalizing p with
  | nil => simp
  | cons g l ih =>
    rw [List.foldl_cons, ih, List.flatMap_cons, ← List.append_assoc]
    rfl

/-! ### Visiting -/

/-- The definitions that a visit puts into the repository, if it does. -/
def found (w : Workspace) (s : Snapshot) (f : FileId) : SourceKind → Option (List Definition)
  | .feature => none
  | .glue e => if isChanged w s f then (indexGlue e f (w.sourceText s.read f)).1 else none

/-- The calls of a visit. -/
def callsOf (w : Workspace) (s : Snapshot) (f : FileId) : SourceKind → List StoreCall
  | .feature => []
  | .glue e => if isChanged w s f then (indexGlue e f (w.sourceText s.read f)).2 else []

theorem visit_workspace (s : Snapshot) (p : Progress) (f : FileId) (k : SourceKind) :
    (p.visit s f k).workspace = { p.workspace with
      stamps := p.workspace.stamps.insert f (s.stamp f)
      repository := match found p.workspace s f k with
        | some ds => p.workspace.repository.put f ds
        | none => p.workspace.repository } := by
  unfold visit found
  dsimp only
  cases k with
  | feature => split <;> rfl
  | glue e =>
    split
    · dsimp only
      cases (indexGlue e f (p.workspace.sourceText s.read f)).1 <;> rfl
    · rfl

theorem visit_glueChanged (s : Snapshot) (p : Progress) (f : FileId) (k : SourceKind) :
    (p.visit s f k).glueChanged =
      (p.glueChanged || (!k.isFeature && isChanged p.workspace s f)) := by
  unfold visit
  dsimp only
  cases k <;> split <;> simp_all [SourceKind.isFeature]

theorem visit_features (s : Snapshot) (p : Progress) (f : FileId) (k : SourceKind) :
    (p.visit s f k).features =
      p.features ++ if k.isFeature && isChanged p.workspace s f then [f] else [] := by
  unfold visit
  dsimp only
  cases k <;> split <;> simp_all [SourceKind.isFeature]

theorem visit_calls (s : Snapshot) (p : Progress) (f : FileId) (k : SourceKind) :
    (p.visit s f k).calls = p.calls ++ callsOf p.workspace s f k := by
  unfold visit callsOf
  dsimp only
  cases k <;> split <;> simp_all

/-- Visiting one file leaves what decides about another one as it was. -/
theorem isChanged_visit {s : Snapshot} {p : Progress} {f g : FileId} (hg : g ≠ f)
    (k : SourceKind) : isChanged (p.visit s g k).workspace s f = isChanged p.workspace s f := by
  rw [visit_workspace]
  simp [isChanged, hg]

theorem found_visit {s : Snapshot} {p : Progress} {f g : FileId} (hg : g ≠ f)
    (k k' : SourceKind) :
    found (p.visit s g k).workspace s f k' = found p.workspace s f k' := by
  cases k' with
  | feature => rfl
  | glue e =>
    simp only [found, isChanged_visit hg]
    rw [visit_workspace]
    rfl

theorem callsOf_visit {s : Snapshot} {p : Progress} {f g : FileId} (hg : g ≠ f)
    (k k' : SourceKind) :
    callsOf (p.visit s g k).workspace s f k' = callsOf p.workspace s f k' := by
  cases k' with
  | feature => rfl
  | glue e =>
    simp only [callsOf, isChanged_visit hg]
    rw [visit_workspace]
    rfl

theorem get?_visit_repository (s : Snapshot) (p : Progress) (g f : FileId) (k : SourceKind) :
    (p.visit s g k).workspace.repository.entries.get? f =
      match found p.workspace s g k with
      | some ds => if g = f then Repository.entryOf ds else p.workspace.repository.entries.get? f
      | none => p.workspace.repository.entries.get? f := by
  rw [visit_workspace]
  dsimp only
  split
  · rw [Repository.get?_put]
  · rfl

/-- A visit to each of some files. -/
def visitAll (s : Snapshot) (l : List (FileId × SourceKind)) (p : Progress) : Progress :=
  l.foldl (fun p (f, k) => p.visit s f k) p

theorem visitAll_setup (s : Snapshot) (l : List (FileId × SourceKind)) (p : Progress) :
    ∃ stamps repository,
      (visitAll s l p).workspace = { p.workspace with stamps, repository } := by
  induction l generalizing p with
  | nil => exact ⟨_, _, rfl⟩
  | cons a l ih =>
    obtain ⟨stamps, repository, h⟩ := ih (p.visit s a.1 a.2)
    refine ⟨stamps, repository, h.trans ?_⟩
    rw [visit_workspace]

theorem visitAll_stamps (s : Snapshot) (l : List (FileId × SourceKind)) (p : Progress)
    (f : FileId) :
    (visitAll s l p).workspace.stamps.get? f =
      if f ∈ l.map (·.1) then some (s.stamp f) else p.workspace.stamps.get? f := by
  induction l generalizing p with
  | nil => simp [visitAll]
  | cons a l ih =>
    have hh := ih (p.visit s a.1 a.2)
    rw [visit_workspace] at hh
    refine hh.trans ?_
    by_cases hf : f ∈ l.map (·.1)
    · have hf' : f ∈ (a :: l).map (·.1) := List.mem_cons_of_mem _ hf
      rw [if_pos hf, if_pos hf']
    · by_cases ha : a.1 = f
      · simp [ha]
      · simp [hf, ha, Ne.symm ha]

theorem visitAll_repository_of_absent {s : Snapshot} {l : List (FileId × SourceKind)}
    {f : FileId} (hf : f ∉ l.map (·.1)) (p : Progress) :
    (visitAll s l p).workspace.repository.entries.get? f =
      p.workspace.repository.entries.get? f := by
  induction l generalizing p with
  | nil => rfl
  | cons a l ih =>
    obtain ⟨ha, hl⟩ := not_or.mp (fun h => hf (List.mem_cons.mpr h))
    refine (ih hl (p.visit s a.1 a.2)).trans ?_
    rw [get?_visit_repository]
    split <;> simp [Ne.symm ha]

theorem visitAll_repository_of_mem {s : Snapshot} {l : List (FileId × SourceKind)}
    (hnd : (l.map (·.1)).Nodup) {f : FileId} {k : SourceKind} (hf : (f, k) ∈ l) (p : Progress) :
    (visitAll s l p).workspace.repository.entries.get? f =
      match found p.workspace s f k with
      | some ds => Repository.entryOf ds
      | none => p.workspace.repository.entries.get? f := by
  induction l generalizing p with
  | nil => simp at hf
  | cons a l ih =>
    obtain ⟨ha, hnd⟩ := List.nodup_cons.mp hnd
    rcases List.mem_cons.mp hf with rfl | hf
    · refine (visitAll_repository_of_absent ha _).trans ?_
      rw [get?_visit_repository]
      simp
    · have hne : a.1 ≠ f := fun e => ha (List.mem_map.mpr ⟨(f, k), hf, e.symm⟩)
      refine (ih hnd hf (p.visit s a.1 a.2)).trans ?_
      rw [found_visit hne, get?_visit_repository]
      cases found p.workspace s a.1 a.2 <;> simp [hne]

theorem visitAll_ordered {p : Progress} (h : p.workspace.repository.entries.Ordered)
    (s : Snapshot) (l : List (FileId × SourceKind)) :
    (visitAll s l p).workspace.repository.entries.Ordered := by
  induction l generalizing p with
  | nil => exact h
  | cons a l ih =>
    refine ih ?_
    rw [visit_workspace]
    dsimp only
    split
    · exact Repository.put_ordered h _ _
    · exact h

theorem visitAll_unchanged {s : Snapshot} {l : List (FileId × SourceKind)} {p : Progress}
    (h : (visitAll s l p).glueChanged = false) :
    p.glueChanged = false ∧ (visitAll s l p).workspace.repository = p.workspace.repository := by
  induction l generalizing p with
  | nil => exact ⟨h, rfl⟩
  | cons a l ih =>
    obtain ⟨hg, hr⟩ := ih h
    rw [visit_glueChanged] at hg
    obtain ⟨hp, hc⟩ := Bool.or_eq_false_iff.mp hg
    refine ⟨hp, hr.trans ?_⟩
    rw [visit_workspace]
    obtain ⟨f, k⟩ := a
    cases k with
    | feature => rfl
    | glue e =>
      have hu : isChanged p.workspace s f = false := by simpa [SourceKind.isFeature] using hc
      simp [found, hu]

theorem visitAll_features {s : Snapshot} {l : List (FileId × SourceKind)}
    (hnd : (l.map (·.1)).Nodup) (p : Progress) :
    (visitAll s l p).features = p.features ++
      (l.filter fun a => a.2.isFeature && isChanged p.workspace s a.1).map (·.1) := by
  induction l generalizing p with
  | nil => simp [visitAll]
  | cons a l ih =>
    obtain ⟨ha, hnd⟩ := List.nodup_cons.mp hnd
    have hsame : (l.filter fun b => b.2.isFeature && isChanged (p.visit s a.1 a.2).workspace s b.1) =
        l.filter fun b => b.2.isFeature && isChanged p.workspace s b.1 := by
      apply List.filter_congr
      intro b hb
      rw [isChanged_visit fun e => ha (List.mem_map.mpr ⟨b, hb, e.symm⟩)]
    refine (ih hnd (p.visit s a.1 a.2)).trans ?_
    rw [hsame, visit_features, List.filter_cons]
    split <;> simp

theorem visitAll_calls {s : Snapshot} {l : List (FileId × SourceKind)}
    (hnd : (l.map (·.1)).Nodup) (p : Progress) :
    (visitAll s l p).calls = p.calls ++ l.flatMap fun a => callsOf p.workspace s a.1 a.2 := by
  induction l generalizing p with
  | nil => simp [visitAll]
  | cons a l ih =>
    obtain ⟨ha, hnd⟩ := List.nodup_cons.mp hnd
    have hsame : (l.flatMap fun b => callsOf (p.visit s a.1 a.2).workspace s b.1 b.2) =
        l.flatMap fun b => callsOf p.workspace s b.1 b.2 := by
      rw [List.flatMap_def, List.flatMap_def]
      refine congrArg List.flatten (List.map_congr_left fun b hb => ?_)
      rw [callsOf_visit fun e => ha (List.mem_map.mpr ⟨b, hb, e.symm⟩)]
    refine (ih hnd (p.visit s a.1 a.2)).trans ?_
    rw [hsame, visit_calls, List.flatMap_cons, List.append_assoc]

theorem about_callsOf (w : Workspace) (s : Snapshot) (f : FileId) (k : SourceKind) :
    ∀ c ∈ callsOf w s f k, c.About f := by
  cases k with
  | feature => simp [callsOf]
  | glue e =>
    simp only [callsOf]
    split
    · exact about_indexGlue e f _
    · simp

end Progress

/-! ### Whole builds -/

/-- Whether a build looks anew at a file that it sees; a full build always does. -/
def changed (w : Workspace) (kind : BuildKind) (s : Snapshot) (f : FileId) : Bool :=
  kind == .full || Progress.isChanged w s f

/-- Only an incremental build passes over a file, and only one whose stamp it knows. -/
theorem stamp_of_unchanged {w : Workspace} {kind : BuildKind} {s : Snapshot} {f : FileId}
    (h : w.changed kind s f = false) :
    kind = .incremental ∧ w.stamps.get? f = some (s.stamp f) := by
  obtain ⟨hkind, hch⟩ := Bool.or_eq_false_iff.mp h
  refine ⟨by cases kind <;> simp_all, ?_⟩
  have hh := (Bool.or_eq_false_iff.mp hch).2
  simpa using hh

/-- The entry of a file in the repository that a build starts from. -/
def kept (w : Workspace) (kind : BuildKind) (s : Snapshot) (f : FileId) :
    Option (List Definition) :=
  match kind with
  | .full => none
  | .incremental => if f ∈ w.gone s then none else w.repository.entries.get? f

/-- The features that a build marks anew. -/
def marked (w : Workspace) (kind : BuildKind) (s : Snapshot) : List FileId :=
  (w.surveyed kind s).toMark (w.sources s)

theorem cleared_setup (w : Workspace) (kind : BuildKind) (s : Snapshot) : ∃ stamps repository,
    (w.cleared kind s).workspace = { w with stamps, repository } := by
  obtain ⟨stamps, repository, h⟩ := Progress.foldl_forget_setup (w.gone s) { workspace := w }
  cases kind with
  | full => exact ⟨{}, {}, by simp only [cleared, h]⟩
  | incremental => exact ⟨stamps, repository, h⟩

theorem isChanged_cleared {w : Workspace} {s : Snapshot} {f : FileId}
    (hf : (w.kindIn s f).isSome) (kind : BuildKind) :
    Progress.isChanged (w.cleared kind s).workspace s f = w.changed kind s f := by
  cases kind with
  | full => simp [Progress.isChanged, cleared, changed]
  | incremental =>
    obtain ⟨stamps, repository, h⟩ := Progress.foldl_forget_setup (w.gone s) { workspace := w }
    have hgone : f ∉ w.gone s := fun hg => by simp [(mem_gone.mp hg).2] at hf
    have hstamps := Progress.foldl_forget_stamps (w.gone s) { workspace := w } f
    rw [if_neg hgone] at hstamps
    change Progress.isChanged ((w.gone s).foldl Progress.forget { workspace := w }).workspace s f =
      Progress.isChanged w s f
    unfold Progress.isChanged
    rw [hstamps, h]

theorem sourceText_cleared (w : Workspace) (kind : BuildKind) (s : Snapshot)
    (read : FileId → Except ReadError String) (f : FileId) :
    (w.cleared kind s).workspace.sourceText read f = w.sourceText read f := by
  obtain ⟨stamps, repository, h⟩ := cleared_setup w kind s
  rw [h]
  rfl

theorem cleared_repository (w : Workspace) (kind : BuildKind) (s : Snapshot) (f : FileId) :
    (w.cleared kind s).workspace.repository.entries.get? f = w.kept kind s f := by
  cases kind with
  | full => rfl
  | incremental => exact Progress.foldl_forget_repository (w.gone s) { workspace := w } f

theorem cleared_stamps {w : Workspace} {s : Snapshot} {f : FileId} (hf : w.kindIn s f = none)
    (kind : BuildKind) : (w.cleared kind s).workspace.stamps.get? f = none := by
  cases kind with
  | full => rfl
  | incremental =>
    refine (Progress.foldl_forget_stamps (w.gone s) { workspace := w } f).trans ?_
    by_cases hg : f ∈ w.gone s
    · rw [if_pos hg]
    · rw [if_neg hg]
      have hh := mt (fun h => mem_gone.mpr ⟨h, hf⟩) hg
      simpa using hh

theorem cleared_features (w : Workspace) (kind : BuildKind) (s : Snapshot) :
    (w.cleared kind s).features = [] := by
  have hh := Progress.foldl_forget_features (w.gone s) { workspace := w }
  cases kind <;> exact hh

theorem cleared_calls (w : Workspace) (kind : BuildKind) (s : Snapshot) :
    (w.cleared kind s).calls = (w.gone s).flatMap cleaning := by
  have hh := Progress.foldl_forget_calls (w.gone s) { workspace := w }
  cases kind <;> exact hh

theorem cleared_ordered {w : Workspace} (h : w.repository.entries.Ordered) (kind : BuildKind)
    (s : Snapshot) : (w.cleared kind s).workspace.repository.entries.Ordered := by
  cases kind with
  | full => exact FileMap.Ordered.empty
  | incremental => exact Progress.foldl_forget_ordered h (w.gone s)

theorem surveyed_eq (w : Workspace) (kind : BuildKind) (s : Snapshot) :
    w.surveyed kind s = Progress.visitAll s (w.sources s) (w.cleared kind s) := rfl

/-- A build changes nothing of a workspace but its stamps and its repository, and uses up what
was put down for it. -/
theorem build_setup (w : Workspace) (kind : BuildKind) (s : Snapshot) : ∃ stamps repository,
    (w.build kind s).workspace =
      { w with stamps, repository, overlays := {}, forced := [] } := by
  obtain ⟨_, _, hc⟩ := cleared_setup w kind s
  obtain ⟨stamps, repository, h⟩ := Progress.visitAll_setup s (w.sources s) (w.cleared kind s)
  refine ⟨stamps, repository, ?_⟩
  simp only [build, surveyed_eq, h, hc]

theorem mem_sources_keys {w : Workspace} {s : Snapshot} {f : FileId} :
    f ∈ (w.sources s).map (·.1) ↔ (w.kindIn s f).isSome := by
  rw [List.mem_map, Option.isSome_iff_exists]
  constructor
  · rintro ⟨⟨g, k⟩, hg, rfl⟩
    exact ⟨k, mem_sources.mp hg⟩
  · rintro ⟨k, hk⟩
    exact ⟨(f, k), mem_sources.mpr hk, rfl⟩

theorem build_stamps (w : Workspace) (kind : BuildKind) (s : Snapshot) (f : FileId) :
    (w.build kind s).workspace.stamps.get? f =
      if (w.kindIn s f).isSome then some (s.stamp f) else none := by
  refine (Progress.visitAll_stamps s (w.sources s) (w.cleared kind s) f).trans ?_
  by_cases hf : (w.kindIn s f).isSome
  · rw [if_pos hf, if_pos (mem_sources_keys.mpr hf)]
  · rw [if_neg hf, if_neg (mt mem_sources_keys.mp hf), cleared_stamps (by simpa using hf)]

theorem build_repository_other {w : Workspace} {s : Snapshot} {f : FileId}
    (hf : ∀ e, w.kindIn s f ≠ some (.glue e)) (kind : BuildKind) :
    (w.build kind s).workspace.repository.entries.get? f = w.kept kind s f := by
  rw [← cleared_repository]
  cases hk : w.kindIn s f with
  | none =>
    have habsent : f ∉ (w.sources s).map (·.1) := fun h => by simp [mem_sources_keys, hk] at h
    exact Progress.visitAll_repository_of_absent habsent _
  | some k =>
    cases k with
    | feature =>
      exact Progress.visitAll_repository_of_mem (sources_nodup w s) (mem_sources.mpr hk) _
    | glue e => exact absurd hk (hf e)

theorem build_repository_glue {w : Workspace} {s : Snapshot} {f : FileId} {e : Extractor}
    (hf : w.kindIn s f = some (.glue e)) (kind : BuildKind) :
    (w.build kind s).workspace.repository.entries.get? f =
      match if w.changed kind s f then (indexGlue e f (w.sourceText s.read f)).1 else none with
      | some ds => Repository.entryOf ds
      | none => w.kept kind s f := by
  have hsome : (w.kindIn s f).isSome := by simp [hf]
  refine (Progress.visitAll_repository_of_mem (sources_nodup w s) (mem_sources.mpr hf) _).trans ?_
  rw [cleared_repository, Progress.found, isChanged_cleared hsome, sourceText_cleared]

theorem build_ordered {w : Workspace} (h : w.repository.entries.Ordered) (kind : BuildKind)
    (s : Snapshot) : (w.build kind s).workspace.repository.entries.Ordered :=
  Progress.visitAll_ordered (cleared_ordered h kind s) s (w.sources s)

/-- An incremental build after which the glue counts as unchanged has not touched the
repository. -/
theorem build_repository_of_glue_unchanged {w : Workspace} {s : Snapshot}
    (h : (w.surveyed .incremental s).glueChanged = false) :
    (w.build .incremental s).workspace.repository = w.repository := by
  obtain ⟨hc, hr⟩ := Progress.visitAll_unchanged h
  exact hr.trans (Progress.foldl_forget_unchanged hc).2

theorem surveyed_features (w : Workspace) (kind : BuildKind) (s : Snapshot) :
    (w.surveyed kind s).features = ((w.sources s).filter fun a =>
      a.2.isFeature && Progress.isChanged (w.cleared kind s).workspace s a.1).map (·.1) := by
  rw [surveyed_eq, Progress.visitAll_features (sources_nodup w s), cleared_features,
    List.nil_append]

theorem SourceKind_isFeature {k : SourceKind} : k.isFeature = true ↔ k = .feature := by
  cases k <;> simp [SourceKind.isFeature]

theorem mem_marked {w : Workspace} {kind : BuildKind} {s : Snapshot} {f : FileId} :
    f ∈ w.marked kind s ↔ w.kindIn s f = some .feature ∧
      ((w.surveyed kind s).glueChanged = true ∨ w.changed kind s f = true) := by
  have hfilter : ∀ test : FileId × SourceKind → Bool,
      f ∈ ((w.sources s).filter fun a => a.2.isFeature && test a).map (·.1) ↔
        w.kindIn s f = some .feature ∧ test (f, .feature) = true := by
    intro test
    simp only [List.mem_map, List.mem_filter, Bool.and_eq_true, SourceKind_isFeature]
    constructor
    · rintro ⟨⟨g, k⟩, ⟨hg, hk, ht⟩, rfl⟩
      cases hk
      exact ⟨mem_sources.mp hg, ht⟩
    · rintro ⟨hk, ht⟩
      exact ⟨(f, .feature), ⟨mem_sources.mpr hk, rfl, ht⟩, rfl⟩
  unfold marked Progress.toMark
  split
  · next hg =>
    have hh := hfilter fun _ => true
    simp only [Bool.and_true] at hh
    rw [hh]
    simp [hg]
  · next hg =>
    rw [surveyed_features, hfilter]
    refine and_congr_right fun hk => ?_
    rw [isChanged_cleared (by simp [hk])]
    simp [hg]

theorem marked_nodup (w : Workspace) (kind : BuildKind) (s : Snapshot) :
    (w.marked kind s).Nodup := by
  unfold marked Progress.toMark
  split
  · exact (sources_nodup w s).sublist (List.filter_sublist.map _)
  · rw [surveyed_features]
    exact (sources_nodup w s).sublist (List.filter_sublist.map _)

theorem build_calls (w : Workspace) (kind : BuildKind) (s : Snapshot) :
    (w.build kind s).calls = (w.gone s).flatMap cleaning
      ++ (w.sources s).flatMap (fun a => Progress.callsOf (w.cleared kind s).workspace s a.1 a.2)
      ++ (w.marked kind s).flatMap ((w.surveyed kind s).workspace.recomputeFeature s.read) := by
  rw [← cleared_calls w kind s, ← Progress.visitAll_calls (sources_nodup w s)]
  rfl

theorem recomputeFeature_surveyed (w : Workspace) (kind : BuildKind) (s : Snapshot) (f : FileId)
    (ms : List Marker) :
    effects f ((w.surveyed kind s).workspace.recomputeFeature s.read f) ms =
      sourceMarkers w.settings.reportMatches f (w.build kind s).workspace.repository.definitions
        (w.sourceText s.read f) := by
  obtain ⟨_, _, hc⟩ := cleared_setup w kind s
  obtain ⟨stamps, repository, h⟩ := Progress.visitAll_setup s (w.sources s) (w.cleared kind s)
  rw [effects_recomputeFeature]
  simp only [build, surveyed_eq, h, hc]
  rfl

theorem effects_sources_glue {w : Workspace} {s : Snapshot} {f : FileId} {e : Extractor}
    (hf : w.kindIn s f = some (.glue e)) (kind : BuildKind) (ms : List Marker) :
    effects f ((w.sources s).flatMap fun a =>
        Progress.callsOf (w.cleared kind s).workspace s a.1 a.2) ms =
      if w.changed kind s f then
        match w.sourceText s.read f with
        | .error _ => ms
        | .ok source => glueMarkers e f source
      else ms := by
  have hown := effects_flatMap_of_mem (·.1)
    (fun (a : FileId × SourceKind) _ =>
      Progress.about_callsOf (w.cleared kind s).workspace s a.1 a.2)
    (sources_nodup w s) (mem_sources.mpr hf) ms
  refine hown.trans ?_
  rw [Progress.callsOf, isChanged_cleared (by simp [hf]), sourceText_cleared]
  split
  · exact effects_indexGlue e f _ ms
  · rfl

theorem effects_sources_other {w : Workspace} {s : Snapshot} {f : FileId}
    (hf : ∀ e, w.kindIn s f ≠ some (.glue e)) (kind : BuildKind) (ms : List Marker) :
    effects f ((w.sources s).flatMap fun a =>
        Progress.callsOf (w.cleared kind s).workspace s a.1 a.2) ms = ms := by
  have habout := fun (a : FileId × SourceKind) (_ : a ∈ w.sources s) =>
    Progress.about_callsOf (w.cleared kind s).workspace s a.1 a.2
  cases hk : w.kindIn s f with
  | none =>
    refine effects_flatMap_of_absent (·.1) habout ?_ ms
    rintro ⟨g, k⟩ hg rfl
    simp [mem_sources.mp hg] at hk
  | some k =>
    cases k with
    | feature =>
      exact effects_flatMap_of_mem (·.1) habout (sources_nodup w s) (mem_sources.mpr hk) ms
    | glue e => exact absurd hk (hf e)

theorem effects_marked (w : Workspace) (kind : BuildKind) (s : Snapshot) (f : FileId)
    (ms : List Marker) :
    effects f ((w.marked kind s).flatMap
        ((w.surveyed kind s).workspace.recomputeFeature s.read)) ms =
      if f ∈ w.marked kind s then
        sourceMarkers w.settings.reportMatches f
          (w.build kind s).workspace.repository.definitions (w.sourceText s.read f)
      else ms := by
  have habout := fun (g : FileId) (_ : g ∈ w.marked kind s) =>
    about_recomputeFeature (w.surveyed kind s).workspace s.read g
  split
  · next hf =>
    have hnd : ((w.marked kind s).map id).Nodup := by simpa using marked_nodup w kind s
    exact (effects_flatMap_of_mem id habout hnd hf ms).trans
      (recomputeFeature_surveyed w kind s f ms)
  · next hf =>
    refine effects_flatMap_of_absent id habout ?_ ms
    rintro g hg rfl
    exact hf hg

/-- A file that a build does not see, but the one before it saw, loses its markers. -/
theorem effects_build_none {w : Workspace} {s : Snapshot} {f : FileId} (hf : w.kindIn s f = none)
    (kind : BuildKind) (ms : List Marker) :
    effects f (w.build kind s).calls ms = if (w.stamps.get? f).isSome then [] else ms := by
  have hmarked : f ∉ w.marked kind s := fun h => by simp [(mem_marked.mp h).1] at hf
  rw [build_calls, effects_append, effects_append, effects_marked, if_neg hmarked,
    effects_sources_other (by simp [hf]), effects_flatMap_cleaning]
  simp [mem_gone, hf]

/-- A feature gets the markers of its text under the definitions that the build ends with, if the
build marks it; otherwise it keeps those that it had. -/
theorem effects_build_feature {w : Workspace} {s : Snapshot} {f : FileId}
    (hf : w.kindIn s f = some .feature) (kind : BuildKind) (ms : List Marker) :
    effects f (w.build kind s).calls ms =
      if f ∈ w.marked kind s then
        sourceMarkers w.settings.reportMatches f
          (w.build kind s).workspace.repository.definitions (w.sourceText s.read f)
      else ms := by
  have hgone : f ∉ w.gone s := fun h => by simp [(mem_gone.mp h).2] at hf
  rw [build_calls, effects_append, effects_append, effects_marked,
    effects_sources_other (by simp [hf]), effects_flatMap_cleaning, if_neg hgone]

/-- A glue file that is looked at anew gets the markers of its text, if it can be read. -/
theorem effects_build_glue {w : Workspace} {s : Snapshot} {f : FileId} {e : Extractor}
    (hf : w.kindIn s f = some (.glue e)) (kind : BuildKind) (ms : List Marker) :
    effects f (w.build kind s).calls ms =
      if w.changed kind s f then
        match w.sourceText s.read f with
        | .error _ => ms
        | .ok source => glueMarkers e f source
      else ms := by
  have hgone : f ∉ w.gone s := fun h => by simp [(mem_gone.mp h).2] at hf
  have hmarked : f ∉ w.marked kind s := fun h => by simp [(mem_marked.mp h).1] at hf
  rw [build_calls, effects_append, effects_append, effects_marked, if_neg hmarked,
    effects_sources_glue hf, effects_flatMap_cleaning, if_neg hgone]

end Workspace

end StepGlue
