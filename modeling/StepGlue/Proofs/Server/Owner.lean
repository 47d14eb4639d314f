import StepGlue.Proofs.FileMap
import StepGlue.Proofs.Project.Root
import StepGlue.Server.Basic

/-! Who owns a file: the open project with the deepest root above it.

Roots above one file lie above each other, so the deepest of them is one only. A project that is
opened for a path that nobody owns stands below no other project, and so it takes no file away
from its owner. -/

namespace StepGlue

theorem deepest?_eq_none {roots : List FileId} : deepest? roots = none ↔ roots = [] := by
  cases roots with
  | nil => simp [deepest?]
  | cons r rest =>
    simp only [deepest?, reduceCtorEq, iff_false]
    split
    · split <;> simp
    · simp

theorem deepest?_spec {roots : List FileId} {r : FileId} (h : deepest? roots = some r) :
    r ∈ roots ∧ ∀ q ∈ roots, q.segments.length ≤ r.segments.length := by
  induction roots generalizing r with
  | nil => cases h
  | cons a rest ih =>
    simp only [deepest?] at h
    cases hd : deepest? rest with
    | none =>
      obtain rfl : a = r := by simpa [hd] using h
      simp [deepest?_eq_none.mp hd]
    | some b =>
      obtain ⟨hmem, hmax⟩ := ih hd
      simp only [hd] at h
      by_cases hle : a.segments.length ≤ b.segments.length
      · obtain rfl : b = r := by simpa [hle] using h
        refine ⟨List.mem_cons_of_mem _ hmem, fun q hq => ?_⟩
        rcases List.mem_cons.mp hq with rfl | hq
        · exact hle
        · exact hmax q hq
      · obtain rfl : a = r := by simpa [hle] using h
        refine ⟨List.mem_cons_self, fun q hq => ?_⟩
        rcases List.mem_cons.mp hq with rfl | hq
        · exact Nat.le_refl _
        · have hh := hmax q hq
          omega

namespace FileId

theorem isWithin_trans {f g h : FileId} (hfg : f.isWithin g = true) (hgh : g.isWithin h = true) :
    f.isWithin h = true := by
  rw [isWithin_iff] at *
  exact hgh.trans hfg

theorem isWithin_antisymm {f g : FileId} (hfg : f.isWithin g = true)
    (hgf : g.isWithin f = true) : f = g := by
  rw [isWithin_iff] at *
  cases f
  cases g
  exact congrArg FileId.mk (hgf.eq_of_length (Nat.le_antisymm hgf.length_le hfg.length_le))

end FileId

namespace Server

theorem mem_roots {s : Server} {r : FileId} : r ∈ s.roots ↔ (s.projects.get? r).isSome :=
  FileMap.mem_keys

theorem mem_roots_iff_exists {s : Server} {r : FileId} :
    r ∈ s.roots ↔ ∃ p, s.projects.get? r = some p :=
  mem_roots.trans Option.isSome_iff_exists

theorem ownerRoot?_eq_none {s : Server} {f : FileId} :
    s.ownerRoot? f = none ↔ ∀ q ∈ s.roots, f.isWithin q = false := by
  simp [ownerRoot?, deepest?_eq_none, List.filter_eq_nil_iff]

/-- The owner's root is the one below all others above the file. -/
theorem ownerRoot?_eq_some {s : Server} {f r : FileId} :
    s.ownerRoot? f = some r ↔
      r ∈ s.roots ∧ f.isWithin r = true ∧
        ∀ q ∈ s.roots, f.isWithin q = true → r.isWithin q = true := by
  have hdeep : ∀ {a}, s.ownerRoot? f = some a → a ∈ s.roots ∧ f.isWithin a = true ∧
      ∀ q ∈ s.roots, f.isWithin q = true → a.isWithin q = true := by
    intro a ha
    obtain ⟨hmem, hmax⟩ := deepest?_spec ha
    obtain ⟨hroot, hin⟩ := List.mem_filter.mp hmem
    refine ⟨hroot, hin, fun q hq hfq => ?_⟩
    have hlen := hmax q (List.mem_filter.mpr ⟨hq, hfq⟩)
    rw [FileId.isWithin_iff] at *
    exact List.prefix_of_prefix_length_le hfq hin hlen
  constructor
  · exact hdeep
  · rintro ⟨hroot, hin, hleast⟩
    cases ha : s.ownerRoot? f with
    | none =>
      have hh := ownerRoot?_eq_none.mp ha r hroot
      simp [hin] at hh
    | some a =>
      obtain ⟨haroot, hain, haleast⟩ := hdeep ha
      have hsame : a = r := FileId.isWithin_antisymm (haleast r hroot hin) (hleast a haroot hain)
      rw [hsame]

theorem ownerRoot?_congr {s s' : Server} (h : ∀ r, r ∈ s'.roots ↔ r ∈ s.roots) (f : FileId) :
    s'.ownerRoot? f = s.ownerRoot? f := by
  apply Option.ext
  intro r
  simp only [ownerRoot?_eq_some, h]

/-- The markers of a file as its owner holds them. -/
def markersOf (s : Server) (f : FileId) : List Marker :=
  match s.owner? f with
  | none => []
  | some p => p.store.markersOf f

theorem mem_roots_openProject {s : Server} {r q : FileId} :
    q ∈ (s.openProject r).roots ↔ q = r ∨ q ∈ s.roots := by
  unfold openProject
  split
  · next hopen =>
    rw [FileMap.contains_eq_isSome, ← mem_roots] at hopen
    constructor
    · exact Or.inr
    · rintro (rfl | hq)
      · exact hopen
      · exact hq
  · simp only [mem_roots, FileMap.get?_insert]
    by_cases hr : r = q
    · simp [hr]
    · simp [hr, Ne.symm hr]

theorem exists_openProject (s : Server) (r : FileId) :
    ∃ p, (s.openProject r).projects.get? r = some p :=
  mem_roots_iff_exists.mp (mem_roots_openProject.mpr (Or.inl rfl))

/-- An opened project is new, or was open before. -/
theorem get?_openProject {s : Server} {r q : FileId} {p : OpenProject}
    (h : (s.openProject r).projects.get? q = some p) :
    s.projects.get? q = some p ∨
      r = q ∧ q ∉ s.roots ∧ p = { workspace := { root := r, settings := .ofConfig s.config } } := by
  unfold openProject at h
  split at h
  · exact Or.inl h
  · next hclosed =>
    rw [FileMap.contains_eq_isSome, ← mem_roots] at hclosed
    rw [FileMap.get?_insert] at h
    by_cases hr : r = q
    · rw [if_pos hr] at h
      exact Or.inr ⟨hr, hr ▸ hclosed, (Option.some.inj h).symm⟩
    · rw [if_neg hr] at h
      exact Or.inl h

/-- A root at which a project can be opened and no file loses its owner: it is open, or it lies
below no open project. -/
def Admits (s : Server) (r : FileId) : Prop :=
  r ∈ s.roots ∨ ∀ q ∈ s.roots, r.isWithin q = false

/-- A path belongs to its owner, or to a directory in front of it if it has none. -/
theorem rootFor_cases (s : Server) (t : FileTree) (path : String) :
    s.ownerRoot? (.ofPath path) = some (s.rootFor t path) ∨
      s.ownerRoot? (.ofPath path) = none ∧
        ∃ dir, pathSegments dir <+: pathSegments path ∧ s.rootFor t path = .ofPath dir := by
  unfold rootFor
  split
  · next root hroot => exact Or.inl hroot
  · next hnone =>
    refine Or.inr ⟨hnone, ?_⟩
    cases hfound : t.findProjectRoot path with
    | ok dir => exact ⟨dir, FileTree.findProjectRoot_above hfound, rfl⟩
    | error e =>
      cases hp : parentPath? path with
      | none => exact ⟨path, List.prefix_refl _, rfl⟩
      | some above => exact ⟨above, pathSegments_parent hp, rfl⟩

theorem admits_rootFor {s : Server} (t : FileTree) {path : String}
    (h : .up ∉ pathSegments path) : s.Admits (s.rootFor t path) := by
  rcases s.rootFor_cases t path with howner | ⟨hnone, dir, hdir, hroot⟩
  · exact Or.inl (ownerRoot?_eq_some.mp howner).1
  · refine Or.inr fun q hq => ?_
    have hout := ownerRoot?_eq_none.mp hnone q hq
    rw [hroot]
    cases hin : (FileId.ofPath dir).isWithin q with
    | false => rfl
    | true => simp [FileId.isWithin_trans (FileId.isWithin_of_above h hdir) hin] at hout

/-- A path without steps up lies within the root that it belongs to. -/
theorem isWithin_rootFor (s : Server) (t : FileTree) {path : String} (h : .up ∉ pathSegments path) :
    (FileId.ofPath path).isWithin (s.rootFor t path) = true := by
  rcases s.rootFor_cases t path with howner | ⟨-, dir, hdir, hroot⟩
  · exact (ownerRoot?_eq_some.mp howner).2.1
  · rw [hroot]
    exact FileId.isWithin_of_above h hdir

theorem ownerRoot?_openProject {s : Server} {r : FileId} (h : s.Admits r) {f q : FileId}
    (hf : s.ownerRoot? f = some q) : (s.openProject r).ownerRoot? f = some q := by
  obtain ⟨hq, hin, hleast⟩ := ownerRoot?_eq_some.mp hf
  refine ownerRoot?_eq_some.mpr ⟨mem_roots_openProject.mpr (Or.inr hq), hin, fun a ha hfa => ?_⟩
  rcases mem_roots_openProject.mp ha with rfl | ha
  · rcases h with hopen | hout
    · exact hleast a hopen hfa
    · -- both lie above the file, and the new root is not below the old one
      have hnot := hout q hq
      rw [FileId.isWithin_iff] at *
      rcases List.prefix_or_prefix_of_prefix hfa hin with hh | hh
      · exact hh
      · simp [FileId.isWithin_iff.mpr hh] at hnot
  · exact hleast a ha hfa

theorem get?_openProject_of_some {s : Server} {q : FileId} {p : OpenProject}
    (hp : s.projects.get? q = some p) (r : FileId) :
    (s.openProject r).projects.get? q = some p := by
  have hq : q ∈ s.roots := mem_roots_iff_exists.mpr ⟨p, hp⟩
  obtain ⟨p', hp'⟩ := mem_roots_iff_exists.mp (mem_roots_openProject (r := r).mpr (Or.inr hq))
  rcases get?_openProject hp' with hold | ⟨-, hnew, -⟩
  · rw [hp', ← hold, hp]
  · exact absurd hq hnew

/-- Opening a project leaves every file the markers that it had. -/
theorem markersOf_openProject {s : Server} {r : FileId} (h : s.Admits r) (f : FileId) :
    (s.openProject r).markersOf f = s.markersOf f := by
  unfold markersOf owner?
  cases hf : s.ownerRoot? f with
  | some q =>
    obtain ⟨p, hp⟩ := mem_roots_iff_exists.mp (ownerRoot?_eq_some.mp hf).1
    simp only [ownerRoot?_openProject h hf, Option.bind_some, hp, get?_openProject_of_some hp r]
  | none =>
    cases hf' : (s.openProject r).ownerRoot? f with
    | none => rfl
    | some q =>
      obtain ⟨hq, hin, -⟩ := ownerRoot?_eq_some.mp hf'
      obtain ⟨p, hp⟩ := mem_roots_iff_exists.mp hq
      simp only [Option.bind_some, Option.bind_none, hp]
      rcases get?_openProject hp with hold | ⟨-, -, rfl⟩
      · have hroot : q ∈ s.roots := mem_roots_iff_exists.mpr ⟨p, hold⟩
        have hh := ownerRoot?_eq_none.mp hf q hroot
        simp [hin] at hh
      · rfl

end Server

end StepGlue
