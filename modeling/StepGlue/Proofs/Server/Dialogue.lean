import Mathlib
import StepGlue.Proofs.Server.Upkeep

/-! What a client has been told, compared with what its server holds.

A dialogue is a server and a client over a file system that changes at will; it remembers the
findings on each file that the client was told last. Every message comes down to some upkeep and a
publication of what that has changed, so after each one the client knows the markers of every file
as its owner holds them. Only where a finding lies may be out of date. -/

namespace StepGlue

/-- What is found, apart from where. -/
structure Finding where
  code : String
  severity : Severity
  message : String
  data : List (String × String)
deriving DecidableEq, Repr

def Diagnostic.finding (d : Diagnostic) : Finding := ⟨d.code, d.severity, d.message, d.data⟩

def Marker.finding (m : Marker) : Finding := ⟨m.kind.id, m.severity, m.message, m.attributes⟩

namespace ClientMessage

/-- The path that a message is about. -/
def path? : ClientMessage → Option String
  | .save uri _ => uri.filePath?
  | .execute command arguments =>
    if command = recalculateCommand then (recalculateTarget arguments).toOption else none
  | .initialise _ | .initialised | .shutdown => none

/-- The path that a message is about has no steps up. -/
def Direct (m : ClientMessage) : Prop := ∀ path, m.path? = some path → .up ∉ pathSegments path

end ClientMessage

namespace Server

/-- A server between messages: its projects are tidy, and the client has been told everything. -/
structure AtRest (s : Server) : Prop where
  tidy : s.Tidy
  told : s.changed = []

theorem publish_of_told {s : Server} (h : s.changed = []) (t : FileTree) :
    s.publish t = (s, []) := by
  cases s
  simp_all [publish]

/-- No project has any markers yet. -/
def Blank (s : Server) : Prop := ∀ r p, s.projects.get? r = some p → p.store = {}

theorem Blank.markersOf {s : Server} (h : s.Blank) (f : FileId) : s.markersOf f = [] := by
  unfold Server.markersOf
  split
  · rfl
  · next p hp =>
    obtain ⟨r, -, hr⟩ := Option.bind_eq_some_iff.mp hp
    rw [h r p hr]
    rfl

theorem Blank.openProject {s : Server} (h : s.Blank) (r : FileId) : (s.openProject r).Blank := by
  intro q p hp
  rcases get?_openProject hp with hold | ⟨-, -, rfl⟩
  · exact h q p hold
  · rfl

theorem of_initialise {s s' : Server} {params : InitializeParams}
    (h : s.initialise params = .ok s') {P : Server → Prop}
    (hP : P { s with hasCapabilities := true, folders := params.folders.getD s.folders })
    (hopen : ∀ s r, P s → P (s.openProject r)) : s.initialised = false ∧ P s' := by
  unfold initialise at h
  split at h
  · cases h
  · next hnew =>
    obtain rfl := Except.ok.inj h
    refine ⟨by simpa using hnew, ?_⟩
    exact List.foldlRecOn _ _ hP fun s hs p _ => hopen s (.ofPath p) hs

theorem handle_save_built {s : Server} {t : FileTree} {uri : Url} {path : String}
    (hpath : uri.filePath? = some path) {text : Option String}
    (hbuilt : (s.save t path text).2 = true) :
    s.handle t (.save uri text) =
      { server := ((s.save t path text).1.publish t).1, tree := t,
        published := ((s.save t path text).1.publish t).2 } := by
  simp only [handle, hpath]
  generalize s.save t path text = saved at hbuilt
  obtain ⟨s', built⟩ := saved
  obtain rfl : built = true := hbuilt
  rfl

/-- A reaction that comes of some upkeep, after which the client is told what has changed. A client
that says hello only once, and names no path with steps up, is told of every change. -/
structure Serves (s : Server) (m : ClientMessage) (r : Reaction) (s' : Server) : Prop where
  tidy : s'.Tidy
  published : s'.publish r.tree = (r.server, r.published)
  initialised : s.initialised = true → s'.initialised = true
  notes : m.Direct → (∀ params, m = .initialise params → s.initialised = true) → s.Notes s'

theorem AtRest.serves_idle {s : Server} (h : s.AtRest) (m : ClientMessage) (t : FileTree)
    (answer : Except RequestError Json) : s.Serves m { server := s, tree := t, answer } s :=
  ⟨h.tidy, publish_of_told h.told t, id, fun _ _ => Notes.refl s⟩

theorem AtRest.serves_initialise {s : Server} (h : s.AtRest) (t : FileTree)
    (params : InitializeParams) :
    ∃ s', s.Serves (.initialise params) (s.handle t (.initialise params)) s' := by
  simp only [handle]
  cases hs : s.initialise params with
  | error e => exact ⟨s, h.serves_idle _ t _⟩
  | ok s' =>
    obtain ⟨hnew, hrest⟩ := of_initialise hs (P := AtRest) ⟨h.tidy, h.told⟩ fun s r hs =>
      ⟨hs.tidy.openProject r, (openProject_changed s r).trans hs.told⟩
    refine ⟨s', hrest.tidy, publish_of_told hrest.told t, ?_, fun _ hopen => ?_⟩
    · simp [hnew]
    · simpa [hnew] using hopen params rfl

theorem AtRest.serves_save {s : Server} (h : s.AtRest) (t : FileTree) (uri : Url)
    (text : Option String) : ∃ s', s.Serves (.save uri text) (s.handle t (.save uri text)) s' := by
  cases hpath : uri.filePath? with
  | none =>
    simp only [handle, hpath]
    exact ⟨s, h.serves_idle _ t _⟩
  | some path =>
    let root := s.rootFor t path
    have hopened := h.tidy.openProject root
    have hnotes : (ClientMessage.save uri text).Direct → s.Notes (s.openProject root) :=
      fun hdirect => notes_openProject (admits_rootFor t (hdirect path hpath))
    rcases s.save_cases t path text with hsave | ⟨p, hbuilt, hb⟩
    · simp only [handle, hpath, hsave]
      refine ⟨s.openProject root, hopened, publish_of_told ?_ t, ?_, fun hd _ => hnotes hd⟩
      · rw [openProject_changed, h.told]
      · simp
    · rw [handle_save_built hpath hbuilt]
      generalize (s.save t path text).1 = s' at hb ⊢
      refine ⟨s', hopened.builds hb, rfl, ?_,
        fun hd _ => (hnotes hd).trans (hopened.notes_builds hb)⟩
      rw [hb.initialised, openProject_initialised]
      exact id

theorem AtRest.serves_execute {s : Server} (h : s.AtRest) (t : FileTree) (command : String)
    (arguments : List Json) :
    ∃ s', s.Serves (.execute command arguments) (s.handle t (.execute command arguments)) s' := by
  by_cases hc : command = recalculateCommand
  · cases htarget : recalculateTarget arguments with
    | error e =>
      simp only [handle, if_pos hc, htarget]
      exact ⟨s, h.serves_idle _ t _⟩
    | ok path =>
      let root := s.rootFor t path
      have hopened := h.tidy.openProject root
      have hpath : (ClientMessage.execute command arguments).path? = some path := by
        simp [ClientMessage.path?, hc, htarget, Except.toOption]
      have hnotes : (ClientMessage.execute command arguments).Direct →
          s.Notes (s.openProject root) :=
        fun hdirect => notes_openProject (admits_rootFor t (hdirect path hpath))
      have hroot : root ∈ (s.openProject root).roots := mem_roots_openProject.mpr (Or.inl rfl)
      obtain ⟨htidy, hbuilt, hinit⟩ := hopened.recalculate hroot t (.ofPath path)
      simp only [handle, if_pos hc, htarget]
      refine ⟨_, htidy, rfl, ?_, fun hd _ => (hnotes hd).trans hbuilt⟩
      rw [hinit, openProject_initialised]
      exact id
  · simp only [handle, if_neg hc]
    exact ⟨s, h.serves_idle _ t _⟩

theorem AtRest.serves {s : Server} (h : s.AtRest) (t : FileTree) (m : ClientMessage) :
    ∃ s', s.Serves m (s.handle t m) s' := by
  cases m with
  | shutdown => exact ⟨s, h.serves_idle _ t _⟩
  | initialised =>
    obtain ⟨htidy, hnotes, hinit⟩ := h.tidy.start t
    exact ⟨s.start t, htidy, rfl, fun _ => hinit, fun _ _ => hnotes⟩
  | initialise params => exact h.serves_initialise t params
  | save uri text => exact h.serves_save t uri text
  | execute command arguments => exact h.serves_execute t command arguments

theorem findings_diagnosticsOf (s : Server) (t : FileTree) (f : FileId) :
    (s.diagnosticsOf t f).map Diagnostic.finding = (s.markersOf f).map Marker.finding := by
  unfold diagnosticsOf markersOf
  cases s.owner? f with
  | none => rfl
  | some p =>
    simp only [List.map_map]
    rfl

end Server

/-- A server and its client over a file system. -/
structure Dialogue where
  server : Server
  tree : FileTree
  /-- The findings on each file that the client was told last. -/
  shown : FileId → Option (List Diagnostic) := fun _ => none

/-- What can happen next: a change of the file system, or a message. -/
inductive Dialogue.Event
  | change (t : FileTree)
  | message (m : ClientMessage)

namespace Dialogue

def start (config : Config) (t : FileTree) : Dialogue where
  server := { config }
  tree := t

def receive (shown : FileId → Option (List Diagnostic)) (p : Publication) :
    FileId → Option (List Diagnostic) :=
  fun f => if p.file = f then some p.diagnostics else shown f

def step (d : Dialogue) : Event → Dialogue
  | .change t => { d with tree := t }
  | .message m =>
    let r := d.server.handle d.tree m
    { server := r.server, tree := r.tree, shown := r.published.foldl receive d.shown }

def run (d : Dialogue) (events : List Event) : Dialogue := events.foldl step d

theorem run_append (d : Dialogue) (es fs : List Event) : d.run (es ++ fs) = (d.run es).run fs :=
  List.foldl_append

theorem foldl_receive (tell : FileId → List Diagnostic) (files : List FileId)
    (shown : FileId → Option (List Diagnostic)) (f : FileId) :
    (files.map fun g => (⟨g, tell g⟩ : Publication)).foldl receive shown f =
      if f ∈ files then some (tell f) else shown f := by
  induction files generalizing shown with
  | nil => simp
  | cons g files ih =>
    rw [List.map_cons, List.foldl_cons, ih, receive]
    by_cases hg : g = f
    · simp [hg]
    · simp [hg, Ne.symm hg]

theorem receive_publish (s : Server) (t : FileTree) (shown : FileId → Option (List Diagnostic))
    (f : FileId) :
    (s.publish t).2.foldl receive shown f =
      if f ∈ s.changed then some (s.diagnosticsOf t f) else shown f :=
  foldl_receive _ _ _ _

/-! ### Between messages -/

/-- A message leaves a dialogue as some upkeep and a publication would. -/
theorem step_message {d : Dialogue} (h : d.server.AtRest) (m : ClientMessage) :
    ∃ s t, d.server.Serves m (d.server.handle d.tree m) s ∧
      d.step (.message m) = ⟨(s.publish t).1, t, (s.publish t).2.foldl receive d.shown⟩ := by
  obtain ⟨s, hs⟩ := h.serves d.tree m
  refine ⟨s, (d.server.handle d.tree m).tree, hs, ?_⟩
  rw [hs.published]
  rfl

theorem atRest_step {d : Dialogue} (h : d.server.AtRest) (e : Event) :
    (d.step e).server.AtRest := by
  cases e with
  | change t => exact h
  | message m =>
    obtain ⟨s, t, hs, hstep⟩ := step_message h m
    rw [hstep]
    exact ⟨hs.tidy, rfl⟩

theorem atRest_run {d : Dialogue} (h : d.server.AtRest) (events : List Event) :
    (d.run events).server.AtRest := by
  induction events generalizing d with
  | nil => exact h
  | cons e events ih => exact ih (atRest_step h e)

theorem atRest_start (config : Config) (t : FileTree) : (start config t).server.AtRest :=
  ⟨fun _ _ hp => by simp [start] at hp, rfl⟩

theorem shown_step {d : Dialogue} (h : d.server.AtRest) (e : Event) {f : FileId}
    (hf : (d.shown f).isSome) : ((d.step e).shown f).isSome := by
  cases e with
  | change t => exact hf
  | message m =>
    obtain ⟨s, t, -, hstep⟩ := step_message h m
    simp only [hstep, receive_publish]
    split
    · rfl
    · exact hf

theorem shown_run {d : Dialogue} (h : d.server.AtRest) (events : List Event) {f : FileId}
    (hf : (d.shown f).isSome) : ((d.run events).shown f).isSome := by
  induction events generalizing d with
  | nil => exact hf
  | cons e events ih => exact ih (atRest_step h e) (shown_step h e hf)

/-! ### The client's view -/

/-- The client knows what is found in every file. -/
def InSync (d : Dialogue) : Prop :=
  ∀ f, ((d.shown f).getD []).map Diagnostic.finding = (d.server.markersOf f).map Marker.finding

/-- A dialogue in which the client has said that it is ready. -/
structure UnderWay (d : Dialogue) : Prop where
  atRest : d.server.AtRest
  initialised : d.server.initialised = true
  inSync : d.InSync

theorem inSync_publish {shown : FileId → Option (List Diagnostic)} {s s' : Server}
    (h : ∀ f, ((shown f).getD []).map Diagnostic.finding = (s.markersOf f).map Marker.finding)
    (hnotes : s.Notes s') (t : FileTree) :
    InSync ⟨(s'.publish t).1, t, (s'.publish t).2.foldl receive shown⟩ := by
  intro f
  have hmarkers : (s'.publish t).1.markersOf f = s'.markersOf f := rfl
  dsimp only
  rw [receive_publish, hmarkers]
  by_cases hf : f ∈ s'.changed
  · rw [if_pos hf, Option.getD_some, Server.findings_diagnosticsOf]
  · rw [if_neg hf, h f, (hnotes f hf).2]

theorem UnderWay.step {d : Dialogue} (h : d.UnderWay) {e : Event}
    (he : ∀ m, e = .message m → m.Direct) : (d.step e).UnderWay := by
  cases e with
  | change t => exact ⟨h.atRest, h.initialised, h.inSync⟩
  | message m =>
    obtain ⟨s, t, hs, hstep⟩ := step_message h.atRest m
    have hnotes := hs.notes (he m rfl) fun _ _ => h.initialised
    refine ⟨atRest_step h.atRest _, ?_, ?_⟩
    · rw [hstep]
      exact hs.initialised h.initialised
    · rw [hstep]
      exact inSync_publish h.inSync hnotes t

theorem UnderWay.run {d : Dialogue} (h : d.UnderWay) {events : List Event}
    (hevents : ∀ m, .message m ∈ events → m.Direct) : (d.run events).UnderWay := by
  induction events generalizing d with
  | nil => exact h
  | cons e events ih =>
    refine ih (h.step fun m hm => hevents m (hm ▸ List.mem_cons_self)) fun m hm => ?_
    exact hevents m (List.mem_cons_of_mem _ hm)

/-- The opening of a dialogue: the client says hello and then that it is ready, and the file system
may have changed in between. -/
def opened (config : Config) (t : FileTree) (params : InitializeParams) (t' : FileTree) :
    Dialogue :=
  (start config t).run [.message (.initialise params), .change t', .message .initialised]

theorem underWay_opened (config : Config) (t : FileTree) (params : InitializeParams)
    (t' : FileTree) : (opened config t params t').UnderWay := by
  let d := (start config t).run [.message (.initialise params), .change t']
  have hrest : d.server.AtRest := atRest_run (atRest_start config t) _
  have hblank : d.server.Blank := by
    have hnew : (start config t).server.Blank := fun r p hp => by simp [start] at hp
    change ((start config t).server.handle t (.initialise params)).server.Blank
    simp only [Server.handle]
    cases hs : (start config t).server.initialise params with
    | error e => exact hnew
    | ok s =>
      have hh := Server.of_initialise hs (P := Server.Blank) hnew fun _ r h => h.openProject r
      exact hh.2
  have hshown : d.shown = fun _ => none := by
    change ((start config t).server.handle t (.initialise params)).published.foldl receive _ = _
    simp only [Server.handle]
    cases (start config t).server.initialise params <;> rfl
  have hsync : d.InSync := by
    intro f
    rw [hshown, hblank.markersOf]
    rfl
  obtain ⟨-, hnotes, hinit⟩ := hrest.tidy.start d.tree
  exact ⟨atRest_step hrest (.message .initialised), hinit, inSync_publish hsync hnotes d.tree⟩

/-- From the moment the client is ready, it knows what is found in every file that has an owner,
whatever it asks for and whatever happens on disk. A file that has lost its markers, or that its
owner has noticed to be gone, is shown without any: if it ever had markers, the client has been
told that there are none. -/
theorem shown_agrees_with_owner (config : Config) (t : FileTree) (params : InitializeParams)
    (t' : FileTree) (events : List Event) (hdirect : ∀ m, .message m ∈ events → m.Direct)
    (f : FileId) (p : OpenProject)
    (hp : ((opened config t params t').run events).server.owner? f = some p) :
    let shown := ((opened config t params t').run events).shown f
    (shown.getD []).map Diagnostic.finding = (p.store.markersOf f).map Marker.finding ∧
      (p.store.markersOf f = [] ∨ p.workspace.stamps.get? f = none →
        shown.getD [] = [] ∧
          ∀ before, before <+: events →
            ((opened config t params t').run before).server.markersOf f ≠ [] →
              shown = some []) := by
  have hopened := underWay_opened config t params t'
  have hnow := hopened.run hdirect
  have hmarkers : ((opened config t params t').run events).server.markersOf f =
      p.store.markersOf f := by
    simp only [Server.markersOf, hp]
  intro shown
  have hsync : (shown.getD []).map Diagnostic.finding = (p.store.markersOf f).map Marker.finding :=
    hmarkers ▸ hnow.inSync f
  refine ⟨hsync, fun hgone => ?_⟩
  have hnone : p.store.markersOf f = [] := by
    rcases hgone with hnone | hstamp
    · exact hnone
    · obtain ⟨r, -, hr⟩ := Option.bind_eq_some_iff.mp hp
      exact (hnow.atRest.tidy r p hr).tracks.markersOf_eq_nil hstamp
  have hempty : shown.getD [] = [] := by
    rw [hnone] at hsync
    exact List.map_eq_nil_iff.mp hsync
  refine ⟨hempty, fun before hbefore hhad => ?_⟩
  obtain ⟨after, rfl⟩ := hbefore
  -- the client was told of the markers then, and what it was told is only ever replaced
  have hthen : ((opened config t params t').run before).UnderWay :=
    hopened.run fun m hm => hdirect m (List.mem_append_left _ hm)
  have htold : (((opened config t params t').run before).shown f).isSome := by
    cases hs : ((opened config t params t').run before).shown f with
    | none =>
      have hh := hthen.inSync f
      rw [hs] at hh
      exact absurd (List.map_eq_nil_iff.mp hh.symm) hhad
    | some ds => rfl
  have hstill : shown.isSome := by
    have hh := shown_run hthen.atRest after htold
    rwa [← run_append] at hh
  obtain ⟨ds, hds⟩ := Option.isSome_iff_exists.mp hstill
  rw [hds] at hempty ⊢
  exact congrArg some hempty

/-- A feature file with nothing in it, which is an error. -/
def emptyFeature : FileTree where
  nodes := [(["a.feature"], .file "".toUTF8 1)]

def sampleOpened : Dialogue :=
  opened {} emptyFeature { root := some ⟨"file", none, some [[]]⟩ } emptyFeature

def sampleSave (text : String) : ClientMessage :=
  .save ⟨"file", none, some ["a.feature".toList]⟩ (some text)

theorem sampleSave_direct (text : String) : (sampleSave text).Direct := by
  intro path hpath
  obtain rfl : "/a.feature" = path := by
    have hh : (sampleSave text).path? = some "/a.feature" := by
      simp only [sampleSave, ClientMessage.path?]
      decide +kernel
    exact Option.some.inj (hh.symm.trans hpath)
  decide +kernel

/-- Once the feature is saved with a text, the error is taken back. -/
theorem shown_agrees_with_owner_mended :
    let f : FileId := ⟨[.name "a.feature"]⟩
    let d := sampleOpened.run [.message (sampleSave "Feature:")]
    (∀ m, .message m ∈ [Event.message (sampleSave "Feature:")] → m.Direct) ∧
      ∃ p, d.server.owner? f = some p ∧ p.store.markersOf f = [] ∧
        sampleOpened.server.markersOf f ≠ [] ∧ d.shown f = some [] := by
  intro f d
  have hdirect : ∀ m, .message m ∈ [Event.message (sampleSave "Feature:")] → m.Direct := by
    intro m hm
    obtain rfl : m = sampleSave "Feature:" := by simpa using hm
    exact sampleSave_direct _
  have howner : (d.server.owner? f).map (·.store.markersOf f) = some [] := by cbv
  have hhad : (sampleOpened.server.markersOf f).isEmpty = false := by cbv
  obtain ⟨p, hp, hnone⟩ := Option.map_eq_some_iff.mp howner
  have hmarked : sampleOpened.server.markersOf f ≠ [] := by simpa using hhad
  obtain ⟨-, hempty⟩ := shown_agrees_with_owner {} emptyFeature _ emptyFeature _ hdirect f p hp
  exact ⟨hdirect, p, hp, hnone, hmarked, (hempty (Or.inl hnone)).2 [] List.nil_prefix hmarked⟩

end Dialogue

end StepGlue
