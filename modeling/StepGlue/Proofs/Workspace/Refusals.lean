import StepGlue.Proofs.Marker.Client
import StepGlue.Proofs.Workspace.RemovalOrder
import StepGlue.Proofs.Workspace.Run
import StepGlue.Proofs.Workspace.Turns

/-! A store that refuses cannot disturb a build.

Here a build is a dialogue: it deals with a store of any kind, call by call, and goes on from every
answer. It makes the calls of `Workspace.build` and comes to the same result, whatever it is
answered, so that two runs of a project over two stores differ in nothing but the stores. -/

namespace StepGlue

namespace StoreInterface

variable {σ : Type} (k : StoreInterface σ)

/-! ### The work on a file -/

/-- Makes the definitions of a glue file, and marks the steps whose patterns do not compile. -/
def defineSteps (file : FileId) : List GlueStep → Client σ (List Definition)
  | [] => pure []
  | s :: rest =>
    match Definition.ofPattern s.pattern file s.line s.keyword with
    | .ok d => do
      let ds ← defineSteps file rest
      pure (d :: ds)
    | .error e => do
      k.place file (stepdefErrorMarker
        ("Invalid step pattern '" ++ s.pattern.source ++ "': " ++ e.message) s.line)
      defineSteps file rest

/-- Reads a glue file and marks it; the definitions are none if it is to keep those it had. -/
def indexGlue (e : Extractor) (file : FileId) (text : Except ReadError String) :
    Client σ (Option (List Definition)) :=
  match text with
  | .error _ => pure none
  | .ok source => k.batch do
    k.clean file
    match e.extract source with
    | .error err =>
      k.place file (stepdefErrorMarker err.message err.line)
      pure none
    | .ok found =>
      found.rejected.forM fun err => k.place file (stepdefErrorMarker err.message err.line)
      let ds ← k.defineSteps file found.steps
      pure (some ds)

def reportOutcome (reportMatches : Bool) (file : FileId) (doc : Document) (step : Step) :
    Outcome → Client σ Unit
  | .unmatched => k.place file (unmatchedMarker file doc step)
  | .single d => if reportMatches then k.place file (matchedMarker doc step d) else pure ()
  | .multiple ds => k.place file (multipleMarker doc step ds)

/-- Marks an outline row by row, then step by step. -/
def reportOutline (file : FileId) (doc : Document) (definitions : List Definition) (o : Outline) :
    Client σ Unit := do
  o.rows.forM fun r =>
    if rowUnmatched definitions o r then k.place file (exampleMarker doc r.line) else pure ()
  o.steps.zipIdx.forM fun (s, i) =>
    match firstAmbiguous definitions o i with
    | some ds => k.place file (multipleMarker doc s ds)
    | none => pure ()

def recomputeFeature (w : Workspace) (read : FileId → Except ReadError String) (file : FileId) :
    Client σ Unit :=
  k.batch do
    k.clean file
    match w.sourceText read file with
    | .error _ => pure ()
    | .ok source =>
      match indexFeature source with
      | .error e => k.place file (gherkinErrorMarker e.message e.line)
      | .ok index =>
        let doc := Document.ofText source
        let definitions := w.repository.definitions
        index.steps.forM fun s =>
          k.reportOutcome w.settings.reportMatches file doc s (matchStep s.text definitions)
        index.outlines.forM (k.reportOutline file doc definitions)

variable {k}

theorem performs_defineSteps (file : FileId) (steps : List GlueStep) :
    k.Performs (k.defineSteps file steps) (compileSteps file steps).1
      ((compileSteps file steps).2.flatMap fun m => placing file (some m)) := by
  induction steps with
  | nil => exact performs_pure []
  | cons s rest ih =>
    simp only [defineSteps, compileSteps]
    cases Definition.ofPattern s.pattern file s.line s.keyword with
    | ok d => exact ih.result (d :: ·)
    | error e => exact (performs_place file _).bind ih

theorem performs_indexGlue (e : Extractor) (file : FileId) (text : Except ReadError String) :
    k.Performs (k.indexGlue e file text) (StepGlue.indexGlue e file text).1
      (StepGlue.indexGlue e file text).2 := by
  cases text with
  | error err => exact performs_pure none
  | ok source =>
    simp only [indexGlue, StepGlue.indexGlue]
    cases e.extract source with
    | error err =>
      exact ((performs_clean file).bind ((performs_place file _).result fun _ => none)).batch
    | ok found =>
      have hrejected := performs_forM (k := k)
        (fun err : GlueError => performs_place file (stepdefErrorMarker err.message err.line))
        found.rejected
      have hsteps := (performs_defineSteps (k := k) file found.steps).result some
      dsimp only
      rw [List.flatMap_append, List.flatMap_map]
      exact ((performs_clean file).bind (hrejected.bind hsteps)).batch

theorem performs_reportOutcome (reportMatches : Bool) (file : FileId) (doc : Document)
    (step : Step) (o : Outcome) :
    k.Performs (k.reportOutcome reportMatches file doc step o) ()
      (StepGlue.reportOutcome reportMatches file doc step o) := by
  cases o with
  | unmatched => exact performs_place _ _
  | single d =>
    cases reportMatches with
    | false => exact performs_pure ()
    | true => exact performs_place _ _
  | multiple ds => exact performs_place _ _

theorem performs_reportOutline (file : FileId) (doc : Document) (definitions : List Definition)
    (o : Outline) :
    k.Performs (k.reportOutline file doc definitions o) ()
      (StepGlue.reportOutline file doc definitions o) := by
  unfold reportOutline
  rw [reportOutline_eq, ← List.filterMap_eq_filter]
  refine (performs_forM_pick (fun r => ?_) o.rows).bind
    (performs_forM_pick (fun a => ?_) o.steps.zipIdx)
  · cases hr : rowUnmatched definitions o r with
    | false => simpa [Option.guard, hr] using performs_pure ()
    | true => simpa [Option.guard, hr] using performs_place file (exampleMarker doc r.line)
  · obtain ⟨s, i⟩ := a
    dsimp only
    cases firstAmbiguous definitions o i with
    | none => exact performs_pure ()
    | some ds => exact performs_place _ _

theorem performs_recomputeFeature (w : Workspace) (read : FileId → Except ReadError String)
    (file : FileId) :
    k.Performs (k.recomputeFeature w read file) () (w.recomputeFeature read file) := by
  unfold recomputeFeature Workspace.recomputeFeature
  refine ((performs_clean file).bind ?_).batch
  cases w.sourceText read file with
  | error err => exact performs_pure ()
  | ok source =>
    dsimp only [reportFeature]
    cases indexFeature source with
    | error e => exact performs_place _ _
    | ok index =>
      have hsteps := performs_forM (fun s : Step => performs_reportOutcome (k := k)
        w.settings.reportMatches file (Document.ofText source) s
        (matchStep s.text w.repository.definitions)) index.steps
      have houtlines := performs_forM (performs_reportOutline (k := k) file
        (Document.ofText source) w.repository.definitions) index.outlines
      exact hsteps.bind houtlines

end StoreInterface

/-! ### Builds -/

namespace StoreInterface

open Workspace (Progress)

variable {σ : Type} (k : StoreInterface σ)

def forget (p : Progress) (file : FileId) : Client σ Progress := do
  let w := p.workspace
  let contributes := w.repository.contributes file
  k.clean file
  pure { p with
    workspace := { w with
      stamps := w.stamps.erase file
      repository := if contributes then w.repository.put file [] else w.repository }
    glueChanged := p.glueChanged || contributes
    report := { p.report with removedFiles := p.report.removedFiles + 1 } }

def visit (s : Snapshot) (p : Progress) (file : FileId) (kind : SourceKind) :
    Client σ Progress := do
  let w := p.workspace
  let noted := { w with stamps := w.stamps.insert file (s.stamp file) }
  if Progress.isChanged w s file then
    match kind with
    | .feature => pure { p with workspace := noted, features := p.features ++ [file] }
    | .glue e =>
      let definitions ← k.indexGlue e file (w.sourceText s.read file)
      pure { p with
        workspace := match definitions with
          | some ds => { noted with repository := w.repository.put file ds }
          | none => noted
        glueChanged := true
        report := { p.report with glueFiles := p.report.glueFiles + 1 } }
  else pure { p with workspace := noted }

def build (w : Workspace) (kind : BuildKind) (s : Snapshot) :
    Client σ (Workspace × BuildReport) := do
  let p ← (w.gone s).foldlM k.forget { workspace := w }
  let p := match kind with
    | .full => { p with workspace := { p.workspace with repository := {}, stamps := {} } }
    | .incremental => p
  let p ← (w.sources s).foldlM (fun p (f, kind) => k.visit s p f kind) p
  let features := p.toMark (w.sources s)
  features.forM (k.recomputeFeature p.workspace s.read)
  pure ({ p.workspace with overlays := {}, forced := [] },
    { p.report with featureFiles := features.length })

/-- A dialogue that takes a build under way from one point to another by the calls made in
between. It keeps no list of them. -/
def Leads (x : Client σ Progress) (p q : Progress) : Prop :=
  ∃ calls, q.calls = p.calls ++ calls ∧ k.Performs x (q.withCalls []) calls

variable {k}

theorem leads_foldlM {α : Type} {x : Progress → α → Client σ Progress}
    {step : Progress → α → Progress}
    (h : ∀ p a, k.Leads (x (p.withCalls []) a) p (step p a)) (l : List α) (p : Progress) :
    k.Leads (l.foldlM x (p.withCalls [])) p (l.foldl step p) := by
  induction l generalizing p with
  | nil => exact ⟨[], (List.append_nil _).symm, performs_pure _⟩
  | cons a l ih =>
    obtain ⟨cs, hcs, hx⟩ := h p a
    obtain ⟨ds, hds, hl⟩ := ih (step p a)
    refine ⟨cs ++ ds, ?_, hx.bind hl⟩
    rw [List.foldl_cons, hds, hcs, List.append_assoc]

theorem leads_forget (p : Progress) (file : FileId) :
    k.Leads (k.forget (p.withCalls []) file) p (p.forget file) :=
  ⟨cleaning file, rfl, (performs_clean file).result _⟩

theorem leads_visit (s : Snapshot) (p : Progress) (a : FileId × SourceKind) :
    k.Leads (k.visit s (p.withCalls []) a.1 a.2) p (p.visit s a.1 a.2) := by
  obtain ⟨file, kind⟩ := a
  refine ⟨_, Progress.visit_calls s p file kind, ?_⟩
  have hchanged : Progress.isChanged (p.withCalls []).workspace s file =
      Progress.isChanged p.workspace s file := rfl
  unfold visit Progress.visit Progress.callsOf
  dsimp only
  rw [hchanged]
  cases Progress.isChanged p.workspace s file with
  | false => cases kind <;> exact performs_pure _
  | true =>
    cases kind with
    | feature => exact performs_pure _
    | glue e => exact (performs_indexGlue e file (p.workspace.sourceText s.read file)).result _

theorem leads_visitAll (s : Snapshot) (l : List (FileId × SourceKind)) (p : Progress) :
    k.Leads (l.foldlM (fun p (f, kind) => k.visit s p f kind) (p.withCalls [])) p
      (Progress.visitAll s l p) :=
  leads_foldlM (leads_visit s) l p

theorem performs_build (w : Workspace) (kind : BuildKind) (s : Snapshot) :
    k.Performs (k.build w kind s) ((w.build kind s).workspace, (w.build kind s).report)
      (w.build kind s).calls := by
  obtain ⟨cs, hcs, hforget⟩ := leads_foldlM (k := k) leads_forget (w.gone s) { workspace := w }
  obtain ⟨ds, hds, hvisit⟩ := leads_visitAll (k := k) s (w.sources s) (w.cleared kind s)
  have hmarks := performs_forM
    (performs_recomputeFeature (k := k) (w.surveyed kind s).workspace s.read) (w.marked kind s)
  -- emptying the repository in between costs no call
  have hcleared : (w.cleared kind s).calls = cs := by
    cases kind <;> exact hcs
  have hcalls : (w.build kind s).calls = cs ++ (ds ++ (w.marked kind s).flatMap
      ((w.surveyed kind s).workspace.recomputeFeature s.read)) := by
    rw [← List.append_assoc, ← hcleared, ← hds]
    rfl
  rw [hcalls]
  cases kind with
  | full => exact hforget.bind (hvisit.bind (hmarks.result _))
  | incremental => exact hforget.bind (hvisit.bind (hmarks.result _))

end StoreInterface

/-! ### Runs -/

/-- What a build reports, and the calls that it makes. -/
def Occasion.account (b : Occasion) : BuildReport × List StoreCall :=
  (b.result.report, b.result.calls)

/-- A project that keeps its markers in a store of any kind, with an account of each of its
builds, the latest first. -/
structure HostedProject (σ : Type) where
  workspace : Workspace
  tree : FileTree
  store : σ
  builds : List (BuildReport × List StoreCall) := []
  refused : List (FileId × Refusal) := []

namespace HostedProject

variable {σ : Type}

def start (store : σ) (root : FileId) (settings : BuildSettings) (extractors : List Extractor)
    (t : FileTree) : HostedProject σ where
  workspace := { root, settings, extractors }
  tree := t
  store := store

def built (k : StoreInterface σ) (h : HostedProject σ) (w : Workspace) (kind : BuildKind)
    (t : FileTree) : HostedProject σ :=
  let (result, d) := (k.build w kind (w.view t)).run { state := h.store, refused := h.refused }
  { workspace := result.1
    tree := t
    store := d.state
    builds := (result.2, d.calls) :: h.builds
    refused := d.refused }

def step (k : StoreInterface σ) (h : HostedProject σ) : Event → HostedProject σ
  | .change t => { h with tree := t }
  | .overlay f text => { h with workspace := h.workspace.setOverlay f text }
  | .markDirty f => { h with workspace := h.workspace.markDirty f }
  | .build kind => h.built k h.workspace kind h.tree
  | .recalculate f touch =>
    if f.isFeature then
      h.built k (h.workspace.recalculating f (touch h.tree).2) .incremental (touch h.tree).1
    else h

def run (k : StoreInterface σ) (h : HostedProject σ) (events : List Event) : HostedProject σ :=
  events.foldl (step k) h

/-- A project on a store of any kind at the point to which some builds have brought a project. -/
structure Follows (h : HostedProject σ) (p : Project) (past : List Occasion) : Prop where
  workspace : h.workspace = p.workspace
  tree : h.tree = p.tree
  builds : h.builds = past.map Occasion.account

variable {k : StoreInterface σ}

theorem built_store (h : HostedProject σ) (b : Occasion) :
    (h.built k b.workspace b.kind b.tree).store = b.result.calls.foldl k.apply h.store :=
  (StoreInterface.performs_build b.workspace b.kind b.snapshot _).2.2

theorem Follows.built {h : HostedProject σ} {p : Project} {past : List Occasion}
    (hf : h.Follows p past) (b : Occasion) :
    (h.built k b.workspace b.kind b.tree).Follows (p.built b.workspace b.kind b.tree)
      (b :: past) := by
  obtain ⟨hresult, hcalls, -⟩ := StoreInterface.performs_build (k := k) b.workspace b.kind
    b.snapshot { state := h.store, refused := h.refused }
  refine ⟨congrArg Prod.fst hresult, rfl, ?_⟩
  have hreport := congrArg Prod.snd hresult
  rw [List.map_cons, ← hf.builds]
  exact congrArg (· :: h.builds) (Prod.ext hreport hcalls)

theorem Follows.step_of_occasion {h : HostedProject σ} {p : Project} {past : List Occasion}
    (hf : h.Follows p past) {e : Event} {b : Occasion} (he : p.occasion? e = some b) :
    h.step k e = h.built k b.workspace b.kind b.tree := by
  cases e with
  | change t => cases he
  | overlay f text => cases he
  | markDirty f => cases he
  | build kind =>
    obtain rfl := Option.some.inj he
    rw [step, hf.workspace, hf.tree]
  | recalculate f touch =>
    simp only [Project.occasion?, Option.ite_none_right_eq_some, Option.some.injEq] at he
    obtain ⟨hfeature, rfl⟩ := he
    rw [step, if_pos hfeature, hf.workspace, hf.tree]

theorem Follows.step_of_no_occasion {h : HostedProject σ} {p : Project} {past : List Occasion}
    (hf : h.Follows p past) {e : Event} (he : p.occasion? e = none) :
    (h.step k e).Follows (p.step e) past ∧ (h.step k e).store = h.store := by
  cases e with
  | change t => exact ⟨⟨hf.workspace, rfl, hf.builds⟩, rfl⟩
  | overlay f text =>
    exact ⟨⟨congrArg (·.setOverlay f text) hf.workspace, hf.tree, hf.builds⟩, rfl⟩
  | markDirty f => exact ⟨⟨congrArg (·.markDirty f) hf.workspace, hf.tree, hf.builds⟩, rfl⟩
  | build kind => cases he
  | recalculate f touch =>
    have hfeature : f.isFeature = false := by simpa [Project.occasion?] using he
    simp only [step, Project.step, hfeature]
    exact ⟨hf, rfl⟩

theorem Follows.step {h : HostedProject σ} {p : Project} {past : List Occasion}
    (hf : h.Follows p past) (e : Event) :
    (h.step k e).Follows (p.step e) ((p.occasion? e).toList ++ past) := by
  cases he : p.occasion? e with
  | none => exact (hf.step_of_no_occasion he).1
  | some b =>
    rw [hf.step_of_occasion he, Project.step_of_occasion he]
    exact hf.built b

theorem Follows.run {h : HostedProject σ} {p : Project} {past : List Occasion}
    (hf : h.Follows p past) (events : List Event) :
    (h.run k events).Follows (p.run events) (p.builds past events) := by
  induction events generalizing h p past with
  | nil => exact hf
  | cons e es ih => exact ih (hf.step e)

/-- With its markers in memory, a project on a store is the project itself. -/
theorem Follows.run_inMemory {h : HostedProject MarkerStore} {p : Project} {past : List Occasion}
    (hf : h.Follows p past) (hs : h.store = p.store) (events : List Event) :
    (h.run .inMemory events).store = (p.run events).store := by
  induction events generalizing h p past with
  | nil => exact hs
  | cons e es ih =>
    refine ih (hf.step e) ?_
    cases he : p.occasion? e with
    | none =>
      have hb : p.buildsOn e = none := by rw [Project.buildsOn_eq, he]; rfl
      rw [(hf.step_of_no_occasion he).2, hs, (Project.step_of_not_buildsOn hb).2.1]
    | some b =>
      rw [hf.step_of_occasion he, Project.step_of_occasion he, built_store, hs,
        StoreInterface.foldl_inMemory]
      rfl

/-- Two runs of a project over stores that may refuse anything: their builds report the same and
make the same calls, and leave the same repository and the same stamps. The calls of each build
are properly nested, and a marker is added only inside a batch. -/
theorem refusals_disturb_no_build {σ τ : Type} (k : StoreInterface σ) (l : StoreInterface τ)
    (x : σ) (y : τ) (root : FileId) (settings : BuildSettings) (extractors : List Extractor)
    (t : FileTree) (events : List Event) :
    let h := (start x root settings extractors t).run k events
    let g := (start y root settings extractors t).run l events
    h.builds = g.builds ∧ h.workspace.repository = g.workspace.repository ∧
      h.workspace.stamps = g.workspace.stamps ∧ ∀ b ∈ h.builds, nesting 0 b.2 = some 0 := by
  intro h g
  let p := Project.start root settings extractors t
  have hstart : (start x root settings extractors t).Follows p [] := ⟨rfl, rfl, rfl⟩
  have gstart : (start y root settings extractors t).Follows p [] := ⟨rfl, rfl, rfl⟩
  have hh : h.Follows (p.run events) (p.builds [] events) := hstart.run events
  have hg : g.Follows (p.run events) (p.builds [] events) := gstart.run events
  have hsame : h.workspace = g.workspace := hh.workspace.trans hg.workspace.symm
  refine ⟨hh.builds.trans hg.builds.symm, ?_, ?_, fun b hb => ?_⟩
  · rw [hsame]
  · rw [hsame]
  · rw [hh.builds] at hb
    obtain ⟨o, -, rfl⟩ := List.mem_map.mp hb
    exact Workspace.nested_build o.workspace o.kind o.snapshot 0

end HostedProject

end StepGlue
