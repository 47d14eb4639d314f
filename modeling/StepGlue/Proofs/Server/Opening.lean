import StepGlue.Proofs.Server.Owner

/-! Which project a path belongs to, however the open projects came to be open.

Projects are opened at roots and for paths, one after the other. Every path is owned by the open
project with the longest root above it, and there is only one with such a root. A project that is
opened for a path becomes the owner of that path, and no path loses the owner that it has. -/

namespace StepGlue

/-- How a project comes to be open: at a root, or for a path among the files that are there. -/
inductive Opening
  | rooted (root : String)
  | owning (t : FileTree) (path : String)

namespace Server

/-- Opens the project that a path belongs to. -/
def openFor (s : Server) (t : FileTree) (path : String) : Server := s.openProject (s.rootFor t path)

def perform (s : Server) : Opening → Server
  | .rooted root => s.openProject (.ofPath root)
  | .owning t path => s.openFor t path

/-- The server that some openings make of a new one. -/
def ofOpenings (config : Config) (openings : List Opening) : Server :=
  openings.foldl perform { config }

/-- A project is open. -/
def Holds (s : Server) (p : OpenProject) : Prop := ∃ r, s.projects.get? r = some p

/-- An open project has a root above a list of parts, and every other one with a root above them
has a shorter one. -/
structure DeepestAbove (s : Server) (parts : List Segment) (p : OpenProject) : Prop where
  holds : s.Holds p
  above : p.workspace.root.segments <+: parts
  deepest : ∀ q, s.Holds q → q.workspace.root.segments <+: parts →
    q = p ∨ q.workspace.root.segments.length < p.workspace.root.segments.length

/-- Every project is held by the root of its workspace. -/
def ByRoot (s : Server) : Prop := ∀ r p, s.projects.get? r = some p → p.workspace.root = r

theorem ByRoot.openProject {s : Server} (h : s.ByRoot) (r : FileId) : (s.openProject r).ByRoot := by
  intro q p hp
  rcases get?_openProject hp with hold | ⟨hr, -, rfl⟩
  · exact h q p hold
  · exact hr

theorem byRoot_ofOpenings (config : Config) (openings : List Opening) :
    (ofOpenings config openings).ByRoot := by
  have hnew : ({ config } : Server).ByRoot := by
    intro r p hp
    simp at hp
  refine List.foldlRecOn openings perform hnew fun s hs o _ => ?_
  cases o with
  | rooted root => exact hs.openProject _
  | owning t path => exact hs.openProject _

section

variable {s : Server} {f r : FileId} {p : OpenProject}

theorem owner?_eq_some : s.owner? f = some p ↔
    ∃ r, s.ownerRoot? f = some r ∧ s.projects.get? r = some p :=
  Option.bind_eq_some_iff

theorem owner?_eq_none : s.owner? f = none ↔ s.ownerRoot? f = none := by
  constructor
  · intro hnone
    cases hr : s.ownerRoot? f with
    | none => rfl
    | some r =>
      obtain ⟨p, hp⟩ := mem_roots_iff_exists.mp (ownerRoot?_eq_some.mp hr).1
      rw [owner?_eq_some.mpr ⟨r, hr, hp⟩] at hnone
      cases hnone
  · intro hnone
    rw [owner?, hnone]
    rfl

theorem ByRoot.owner?_eq_none (h : s.ByRoot) : s.owner? f = none ↔
    ∀ q, s.Holds q → ¬ q.workspace.root.segments <+: f.segments := by
  simp only [Server.owner?_eq_none, ownerRoot?_eq_none, ← Bool.not_eq_true, FileId.isWithin_iff]
  constructor
  · rintro hout q ⟨r, hr⟩
    rw [h r q hr]
    exact hout r (mem_roots_iff_exists.mpr ⟨q, hr⟩)
  · intro hout r hr
    obtain ⟨q, hq⟩ := mem_roots_iff_exists.mp hr
    rw [← h r q hq]
    exact hout q ⟨r, hq⟩

theorem ByRoot.owner?_eq_some (h : s.ByRoot) :
    s.owner? f = some p ↔ s.DeepestAbove f.segments p := by
  rw [Server.owner?_eq_some]
  constructor
  · rintro ⟨r, hr, hp⟩
    obtain ⟨-, hin, hleast⟩ := ownerRoot?_eq_some.mp hr
    refine ⟨⟨r, hp⟩, h r p hp ▸ FileId.isWithin_iff.mp hin, fun q ⟨a, hq⟩ habove => ?_⟩
    rw [h a q hq] at habove ⊢
    rw [h r p hp]
    have ha : a ∈ s.roots := mem_roots_iff_exists.mpr ⟨q, hq⟩
    have hshort := FileId.isWithin_iff.mp (hleast a ha (FileId.isWithin_iff.mpr habove))
    rcases Nat.eq_or_lt_of_le hshort.length_le with hlen | hlen
    · obtain rfl : a = r := congrArg FileId.mk (hshort.eq_of_length hlen)
      exact Or.inl (Option.some.inj (hq.symm.trans hp))
    · exact Or.inr hlen
  · rintro ⟨⟨r, hp⟩, habove, hdeep⟩
    rw [h r p hp] at habove hdeep
    refine ⟨r, ownerRoot?_eq_some.mpr ⟨mem_roots_iff_exists.mpr ⟨p, hp⟩,
      FileId.isWithin_iff.mpr habove, fun a ha hin => ?_⟩, hp⟩
    obtain ⟨q, hq⟩ := mem_roots_iff_exists.mp ha
    have hqabove := FileId.isWithin_iff.mp hin
    rw [← h a q hq] at hqabove ⊢
    -- both roots lie above the file, so the shorter one lies above the other
    refine FileId.isWithin_iff.mpr (List.prefix_of_prefix_length_le hqabove habove ?_)
    rcases hdeep q ⟨a, hq⟩ hqabove with rfl | hlen
    · exact Nat.le_of_eq (by rw [h r q hp])
    · exact Nat.le_of_lt hlen

/-- A project that owns a file still owns it after another one has been opened. -/
theorem owner?_openProject (h : s.Admits r) (hf : s.owner? f = some p) :
    (s.openProject r).owner? f = some p := by
  obtain ⟨a, ha, hp⟩ := owner?_eq_some.mp hf
  exact owner?_eq_some.mpr ⟨a, ownerRoot?_openProject h ha, get?_openProject_of_some hp r⟩

end

/-- The project that is opened for a path owns it. -/
theorem ownerRoot?_openFor (s : Server) (t : FileTree) {path : String}
    (h : .up ∉ pathSegments path) :
    (s.openFor t path).ownerRoot? (.ofPath path) = some (s.rootFor t path) := by
  have hadmits := s.admits_rootFor t h
  cases howner : s.ownerRoot? (.ofPath path) with
  | some root =>
    have hroot : s.rootFor t path = root := by simp only [rootFor, howner]
    rw [hroot]
    exact ownerRoot?_openProject (hroot ▸ hadmits) howner
  | none =>
    refine ownerRoot?_eq_some.mpr ⟨mem_roots_openProject.mpr (Or.inl rfl), s.isWithin_rootFor t h,
      fun q hq hfq => ?_⟩
    rcases mem_roots_openProject.mp hq with rfl | hq
    · exact FileId.isWithin_iff.mpr (List.prefix_refl _)
    · -- a root that was open before is not above the path
      have hout := ownerRoot?_eq_none.mp howner q hq
      rw [hfq] at hout
      cases hout

/-- However projects have been opened, a path is owned by the open project with the longest root
above it, and by none only if there is none. Opening a project for the path makes that project its
owner; it opens one project at most, and every path that had an owner keeps it. -/
theorem ofOpenings_owner (config : Config) (openings : List Opening) (t : FileTree) {path : String}
    (h : .up ∉ pathSegments path) :
    let s := ofOpenings config openings
    let file := FileId.ofPath path
    (s.owner? file = none ↔
      ∀ q, s.Holds q → ¬ q.workspace.root.segments <+: pathSegments path) ∧
    (∀ p, s.owner? file = some p ↔ s.DeepestAbove (pathSegments path) p) ∧
    (∃ p, (s.openFor t path).projects.get? (s.rootFor t path) = some p ∧
      p.workspace.root = s.rootFor t path ∧ p.workspace.root.segments <+: pathSegments path ∧
      (s.openFor t path).owner? file = some p) ∧
    ((∀ q, s.Holds q → (s.openFor t path).Holds q) ∧
      ∃ p, ∀ q, (s.openFor t path).Holds q → s.Holds q ∨ q = p) ∧
    ∀ f p, s.owner? f = some p → (s.openFor t path).owner? f = some p := by
  intro s file
  have hby : s.ByRoot := byRoot_ofOpenings config openings
  have hparts : file.segments = pathSegments path :=
    congrArg FileId.segments (FileId.ofPath_of_no_up h)
  obtain ⟨p, hp⟩ := s.exists_openProject (s.rootFor t path)
  have hroot : p.workspace.root = s.rootFor t path := hby.openProject _ _ _ hp
  have habove := FileId.isWithin_iff.mp (s.isWithin_rootFor t h)
  rw [hparts, ← hroot] at habove
  refine ⟨hparts ▸ hby.owner?_eq_none, fun q => hparts ▸ hby.owner?_eq_some,
    ⟨p, hp, hroot, habove, owner?_eq_some.mpr ⟨_, s.ownerRoot?_openFor t h, hp⟩⟩,
    ⟨fun q ⟨r, hr⟩ => ⟨r, get?_openProject_of_some hr _⟩, p, fun q ⟨r, hr⟩ => ?_⟩,
    fun f q => owner?_openProject (s.admits_rootFor t h)⟩
  rcases get?_openProject hr with hold | ⟨rfl, -, -⟩
  · exact Or.inl ⟨r, hold⟩
  · exact Or.inr (Option.some.inj (hr.symm.trans hp))

/-- One project inside another one. -/
def nestedOpenings : List Opening := [.rooted "/w/sub", .rooted "/w/./x/.."]

/-- A path in the inner project is owned by that project, whatever is on disk. -/
theorem ofOpenings_owner_nested :
    .up ∉ pathSegments "/w/sub/a.feature" ∧ ∀ t, ∃ p,
      ((ofOpenings {} nestedOpenings).openFor t "/w/sub/a.feature").owner?
        (.ofPath "/w/sub/a.feature") = some p ∧ p.workspace.root = .ofPath "/w/sub" := by
  have hup : .up ∉ pathSegments "/w/sub/a.feature" := by decide
  have hinner : (ofOpenings {} nestedOpenings).ownerRoot? (.ofPath "/w/sub/a.feature") =
      some (.ofPath "/w/sub") := by decide +kernel
  refine ⟨hup, fun t => ?_⟩
  obtain ⟨-, -, ⟨p, -, hroot, -, howner⟩, -⟩ := ofOpenings_owner {} nestedOpenings t hup
  refine ⟨p, howner, hroot.trans ?_⟩
  simp only [rootFor, hinner]

end Server

end StepGlue
