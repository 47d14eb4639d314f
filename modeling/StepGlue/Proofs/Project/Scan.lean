import Mathlib.Data.List.Nodup
import Mathlib.Data.List.Perm.Subperm
import StepGlue.Project.Scan
import StepGlue.Proofs.FileMap
import StepGlue.Proofs.FileTree

/-! What a scan of a project finds.

In a tree without links a path of names leads straight down, so the walk and the resolution of paths
go through the same directories. The walk stops at a number of levels, but no path is longer than
there are nodes in the tree. -/

namespace StepGlue

/-! ### The order of paths -/

theorem comparePlaces_eq_compareSegments (p q : Place) :
    comparePlaces p q = compareSegments (p.map .name) (q.map .name) := by
  induction p generalizing q with
  | nil => cases q <;> rfl
  | cons a p ih =>
    cases q with
    | nil => rfl
    | cons b q => simp only [comparePlaces, ih, List.map_cons, compareSegments, Segment.cmp]

theorem compareSegments_append (r p q : List Segment) :
    compareSegments (r ++ p) (r ++ q) = compareSegments p q := by
  induction r with
  | nil => rfl
  | cons a r ih => simp [compareSegments, ih, Std.ReflCmp.compare_self]

theorem comparePlaces_lt_of_le {p q : Place} (hle : comparePlaces p q ≠ .gt) (hne : p ≠ q) :
    comparePlaces p q = .lt := by
  have heq : comparePlaces p q ≠ .eq := by
    rw [comparePlaces_eq_compareSegments, ne_eq, compareSegments_eq]
    intro hmap
    exact hne ((List.map_injective_iff.mpr fun a b h => Segment.name.inj h) hmap)
  cases hc : comparePlaces p q with
  | lt => rfl
  | eq => exact absurd hc heq
  | gt => exact absurd hc hle

theorem comparePlaces_total (p q : Place) : comparePlaces p q ≠ .gt ∨ comparePlaces q p ≠ .gt := by
  simp only [comparePlaces_eq_compareSegments]
  rw [compareSegments_swap (q.map .name)]
  cases compareSegments (p.map .name) (q.map .name) <;> simp

theorem comparePlaces_le_trans {p q r : Place} (hpq : comparePlaces p q ≠ .gt)
    (hqr : comparePlaces q r ≠ .gt) : comparePlaces p r ≠ .gt := by
  by_cases hp : p = q
  · exact hp ▸ hqr
  by_cases hq : q = r
  · exact hq ▸ hpq
  have hlt := comparePlaces_lt_of_le hpq hp
  have hlt' := comparePlaces_lt_of_le hqr hq
  rw [comparePlaces_eq_compareSegments] at hlt hlt' ⊢
  rw [compareSegments_lt_trans hlt hlt']
  decide

/-- Places without repetition are sorted in strictly ascending order. -/
theorem mergeSort_places {ps : List Place} (h : ps.Nodup) :
    (ps.mergeSort fun a b => comparePlaces a b != .gt).Pairwise fun a b =>
      comparePlaces a b = .lt := by
  have hnodup := (List.mergeSort_perm ps fun a b => comparePlaces a b != .gt).nodup_iff.mpr h
  have htrans : ∀ a b c, (comparePlaces a b != .gt) = true → (comparePlaces b c != .gt) = true →
      (comparePlaces a c != .gt) = true := by
    intro a b c hab hbc
    rw [bne_iff_ne] at hab hbc ⊢
    exact comparePlaces_le_trans hab hbc
  have htotal : ∀ a b, (comparePlaces a b != .gt || comparePlaces b a != .gt) = true := by
    intro a b
    rw [Bool.or_eq_true, bne_iff_ne, bne_iff_ne]
    exact comparePlaces_total a b
  have hsorted := List.pairwise_mergeSort htrans htotal ps
  exact hsorted.imp₂ (fun a b hle hne => comparePlaces_lt_of_le (bne_iff_ne.mp hle) hne) hnodup

namespace FileTree

/-- A tree without links, with one node at each of its places. -/
structure Plain (t : FileTree) : Prop where
  places : (t.nodes.map (·.1)).Nodup
  noLinks : ∀ e ∈ t.nodes, ∀ target, e.2 ≠ .link target

variable {t : FileTree}

theorem Plain.node?_ne_link (h : t.Plain) (p : Place) (target : String) :
    t.node? p ≠ some (.link target) := by
  intro hnode
  unfold node? at hnode
  split at hnode
  · cases hnode
  · obtain ⟨e, hfound, hlink⟩ := Option.map_eq_some_iff.mp hnode
    exact h.noLinks e (List.mem_of_find?_eq_some hfound) target hlink

/-! ### Paths of names -/

theorem follow_up (links : Nat) (dir : Place) (rest : List Segment) :
    t.follow links dir (.up :: rest) = t.follow links dir.dropLast rest := by
  rw [follow]

theorem follow_name (h : t.Plain) (links : Nat) (dir : Place) (name : String)
    (rest : List Segment) :
    t.follow links dir (.name name :: rest) = match t.node? (dir ++ [name]) with
      | some .directory => t.follow links (dir ++ [name]) rest
      | some (.file content stamp) =>
        if rest.isEmpty then .ok (dir ++ [name], .file content stamp) else .error .notADirectory
      | _ => .error .notFound := by
  rw [follow]
  cases hnode : t.node? (dir ++ [name]) with
  | none => rfl
  | some node =>
    cases node with
    | file content stamp => rfl
    | directory => rfl
    | link target => exact absurd hnode (h.node?_ne_link _ _)

/-- Following two paths after each other. -/
theorem follow_append (h : t.Plain) (links : Nat) (dir : Place) (a b : List Segment) :
    t.follow links dir (a ++ b) = match t.follow links dir a with
      | .ok (d, .directory) => t.follow links d b
      | .ok (d, node) => if b.isEmpty then .ok (d, node) else .error .notADirectory
      | .error e => .error e := by
  induction a generalizing dir with
  | nil => rw [List.nil_append, follow.eq_def t links dir []]
  | cons s a ih =>
    cases s with
    | up => rw [List.cons_append, follow_up, follow_up, ih]
    | name n =>
      rw [List.cons_append, follow_name h, follow_name h]
      cases t.node? (dir ++ [n]) with
      | none => rfl
      | some node =>
        cases node with
        | directory => exact ih _
        | file content stamp => cases a <;> simp
        | link target => rfl

theorem follow_ne_link (h : t.Plain) (links : Nat) (dir : Place) (path : List Segment) (q : Place)
    (target : String) : t.follow links dir path ≠ .ok (q, .link target) := by
  induction path generalizing dir with
  | nil => simp [follow]
  | cons s path ih =>
    cases s with
    | up => rw [follow_up]; exact ih _
    | name n =>
      rw [follow_name h]
      cases t.node? (dir ++ [n]) with
      | none => simp
      | some node =>
        cases node with
        | directory => exact ih _
        | file content stamp => cases path <;> simp
        | link target => simp

/-! ### Directories -/

theorem mem_nodes_iff (h : t.Plain) {p : Place} (hp : p ≠ []) (node : FileNode) :
    t.node? p = some node ↔ (p, node) ∈ t.nodes := by
  have hempty : p.isEmpty = false := by simpa using hp
  simp only [node?, hempty, Bool.false_eq_true, if_false, Option.map_eq_some_iff]
  constructor
  · rintro ⟨e, he, rfl⟩
    have hkey : e.1 = p := by simpa using List.find?_some he
    exact hkey ▸ List.mem_of_find?_eq_some he
  · intro hmem
    have hfound : (t.nodes.find? (·.1 == p)).isSome :=
      List.find?_isSome.mpr ⟨_, hmem, beq_self_eq_true p⟩
    obtain ⟨e, he⟩ := Option.isSome_iff_exists.mp hfound
    have hkey : e.1 = p := by simpa using List.find?_some he
    have hsame := List.inj_on_of_nodup_map h.places (List.mem_of_find?_eq_some he) hmem hkey
    exact ⟨e, he, by rw [hsame]⟩

/-- What a node is to a directory: a name in it, or nothing. -/
theorem entry_eq_some {dir p : Place} {node : FileNode} {e : String × FileNode} :
    (match p.getLast? with
      | some name => if p.dropLast = dir then some (name, node) else none
      | none => none) = some e ↔ p = dir ++ [e.1] ∧ node = e.2 := by
  constructor
  · intro hentry
    split at hentry
    · next name hlast =>
      split at hentry
      · next hdir =>
        cases hentry
        exact ⟨by rw [← hdir, List.dropLast_append_getLast? name hlast], rfl⟩
      · cases hentry
    · cases hentry
  · rintro ⟨rfl, rfl⟩
    simp

theorem mem_children (h : t.Plain) {dir : Place} {name : String} {node : FileNode} :
    (name, node) ∈ t.children dir ↔ t.node? (dir ++ [name]) = some node := by
  rw [mem_nodes_iff h (by simp), children, List.mem_filterMap]
  constructor
  · rintro ⟨⟨p, n⟩, hmem, hentry⟩
    obtain ⟨rfl, rfl⟩ := entry_eq_some.mp hentry
    exact hmem
  · intro hmem
    exact ⟨_, hmem, entry_eq_some.mpr ⟨rfl, rfl⟩⟩

theorem children_pairwise (h : t.Plain) (dir : Place) :
    (t.children dir).Pairwise fun a b => a.1 ≠ b.1 := by
  refine (List.pairwise_map.mp h.places).filterMap _ fun e f hne a ha b hb hname => ?_
  have hplace := (entry_eq_some.mp ha).1
  have hother := (entry_eq_some.mp hb).1
  rw [hname, ← hother] at hplace
  exact hne hplace

/-! ### The walk -/

/-- The names lead down from a directory to a file that is not too large, and through no directory
that is passed over. -/
def Findable (t : FileTree) (limit : Nat) (dir p : Place) : Prop :=
  (∃ q content stamp, t.follow maxLinks dir (p.map .name) = .ok (q, .file content stamp) ∧
    content.size ≤ limit) ∧ ∀ name ∈ p.dropLast, isSkipped name = false

variable {limit : Nat}

theorem not_findable_nil (dir : Place) : ¬t.Findable limit dir [] := by
  rintro ⟨⟨q, content, stamp, hfile, -⟩, -⟩
  rw [List.map_nil, follow] at hfile
  cases hfile

theorem findable_cons (h : t.Plain) {dir : Place} {name : String} {more : Place} :
    t.Findable limit dir (name :: more) ↔
      (∃ content stamp, t.node? (dir ++ [name]) = some (.file content stamp) ∧
        content.size ≤ limit ∧ more = []) ∨
      (t.node? (dir ++ [name]) = some .directory ∧ isSkipped name = false ∧
        t.Findable limit (dir ++ [name]) more) := by
  unfold Findable
  rw [List.map_cons, follow_name h]
  cases hnode : t.node? (dir ++ [name]) with
  | none => simp
  | some node =>
    cases node with
    | link target => exact absurd hnode (h.node?_ne_link _ _)
    | file content stamp =>
      cases more with
      | nil => simp
      | cons next more => simp
    | directory =>
      cases more with
      | nil => simp [follow]
      | cons next more => simp [and_left_comm]

/-- What the walk finds at and below one node of a directory. -/
def walkNode (t : FileTree) (limit levels : Nat) (above : List Place) (dir path : Place) :
    String × FileNode → List Place
  | (name, .file content _) => if content.size ≤ limit then [path ++ [name]] else []
  | (name, .directory) =>
    if isSkipped name then []
    else t.walk limit levels ((dir ++ [name]) :: above) (dir ++ [name]) (path ++ [name])
  | (_, .link _) => []

theorem walk_succ (h : t.Plain) (levels : Nat) (above : List Place) (dir path : Place) :
    t.walk limit (levels + 1) above dir path =
      (t.children dir).flatMap (t.walkNode limit levels above dir path) := by
  rw [walk]
  refine List.flatMap_congr fun child hchild => ?_
  obtain ⟨name, node⟩ := child
  cases node with
  | file content stamp => rfl
  | directory => rfl
  | link target => exact absurd ((mem_children h).mp hchild) (h.node?_ne_link _ _)

theorem mem_walk (h : t.Plain) {levels : Nat} {above : List Place} {dir path x : Place} :
    x ∈ t.walk limit levels above dir path ↔
      ∃ p, x = path ++ p ∧ p.length ≤ levels ∧ t.Findable limit dir p := by
  induction levels generalizing above dir path with
  | zero =>
    simp only [walk, List.not_mem_nil, false_iff]
    rintro ⟨p, rfl, hlength, hfind⟩
    rw [List.length_eq_zero_iff.mp (Nat.le_zero.mp hlength)] at hfind
    exact not_findable_nil dir hfind
  | succ levels ih =>
    rw [walk_succ h, List.mem_flatMap]
    constructor
    · rintro ⟨⟨name, node⟩, hchild, hx⟩
      rw [mem_children h] at hchild
      cases node with
      | link target => exact absurd hchild (h.node?_ne_link _ _)
      | file content stamp =>
        obtain ⟨hsize, rfl⟩ : content.size ≤ limit ∧ x = path ++ [name] := by
          simpa [walkNode] using hx
        have hfind := (findable_cons h).mpr (.inl ⟨content, stamp, hchild, hsize, rfl⟩)
        exact ⟨[name], rfl, Nat.le_add_left 1 levels, hfind⟩
      | directory =>
        obtain ⟨hname, hx⟩ : isSkipped name = false ∧ x ∈
            t.walk limit levels ((dir ++ [name]) :: above) (dir ++ [name]) (path ++ [name]) := by
          simpa [walkNode] using hx
        obtain ⟨p, rfl, hlength, hfind⟩ := ih.mp hx
        exact ⟨name :: p, by simp, Nat.succ_le_succ hlength,
          (findable_cons h).mpr (.inr ⟨hchild, hname, hfind⟩)⟩
    · rintro ⟨p, rfl, hlength, hfind⟩
      cases p with
      | nil => exact absurd hfind (not_findable_nil dir)
      | cons name more =>
        obtain ⟨content, stamp, hnode, hsize, rfl⟩ | ⟨hnode, hname, hmore⟩ :=
          (findable_cons h).mp hfind
        · exact ⟨_, (mem_children h).mpr hnode, by simp [walkNode, hsize]⟩
        · have hx : path ++ name :: more ∈ t.walk limit levels ((dir ++ [name]) :: above)
              (dir ++ [name]) (path ++ [name]) :=
            ih.mpr ⟨more, by simp, Nat.le_of_succ_le_succ hlength, hmore⟩
          exact ⟨_, (mem_children h).mpr hnode, by simpa [walkNode, hname] using hx⟩

theorem exists_of_mem_walkNode (h : t.Plain) {levels : Nat} {above : List Place}
    {dir path x : Place} {e : String × FileNode}
    (hx : x ∈ t.walkNode limit levels above dir path e) : ∃ p, x = path ++ e.1 :: p := by
  obtain ⟨name, node⟩ := e
  cases node with
  | link target => cases hx
  | file content stamp =>
    obtain ⟨-, rfl⟩ : content.size ≤ limit ∧ x = path ++ [name] := by simpa [walkNode] using hx
    exact ⟨[], rfl⟩
  | directory =>
    obtain ⟨-, hx⟩ : isSkipped name = false ∧
        x ∈ t.walk limit levels ((dir ++ [name]) :: above) (dir ++ [name]) (path ++ [name]) := by
      simpa [walkNode] using hx
    obtain ⟨p, rfl, -, -⟩ := (mem_walk h).mp hx
    exact ⟨p, by simp⟩

theorem walk_nodup (h : t.Plain) (levels : Nat) (above : List Place) (dir path : Place) :
    (t.walk limit levels above dir path).Nodup := by
  induction levels generalizing above dir path with
  | zero => simp [walk]
  | succ levels ih =>
    rw [walk_succ h, List.nodup_flatMap]
    constructor
    · rintro ⟨name, node⟩ -
      cases node with
      | link target => exact List.nodup_nil
      | file content stamp =>
        by_cases hsize : content.size ≤ limit <;> simp [walkNode, hsize]
      | directory =>
        by_cases hname : isSkipped name
        · simp [walkNode, hname]
        · simpa [walkNode, hname] using ih _ _ _
    · refine (children_pairwise h dir).imp fun {a b} hne x ha hb => hne ?_
      obtain ⟨p, rfl⟩ := exists_of_mem_walkNode h ha
      obtain ⟨q, hq⟩ := exists_of_mem_walkNode h hb
      exact (List.cons.inj (List.append_cancel_left hq)).1

/-- All directories on the way are nodes, and so is the file. -/
theorem Findable.mem_nodes (h : t.Plain) {dir p : Place} (hp : t.Findable limit dir p) :
    ∀ k < p.length, dir ++ p.take (k + 1) ∈ t.nodes.map (·.1) := by
  induction p generalizing dir with
  | nil => exact absurd hp (not_findable_nil dir)
  | cons name more ih =>
    have hnode : ∃ node, t.node? (dir ++ [name]) = some node := by
      obtain ⟨_, _, hnode, -, -⟩ | ⟨hnode, -, -⟩ := (findable_cons h).mp hp
      · exact ⟨_, hnode⟩
      · exact ⟨_, hnode⟩
    intro k hk
    cases k with
    | zero =>
      obtain ⟨node, hnode⟩ := hnode
      exact List.mem_map.mpr ⟨_, (mem_nodes_iff h (by simp) node).mp hnode, rfl⟩
    | succ k =>
      obtain ⟨_, _, -, -, rfl⟩ | ⟨-, -, hmore⟩ := (findable_cons h).mp hp
      · simp at hk
      · simpa using ih hmore k (by simpa using hk)

/-- The way to a file is no longer than there are nodes. -/
theorem Findable.length_le (h : t.Plain) {dir p : Place} (hp : t.Findable limit dir p) :
    p.length ≤ t.nodes.length := by
  have hsub : (List.range p.length).map (fun k => dir ++ p.take (k + 1)) ⊆ t.nodes.map (·.1) := by
    intro x hx
    obtain ⟨k, hk, rfl⟩ := List.mem_map.mp hx
    exact hp.mem_nodes h k (List.mem_range.mp hk)
  have hnodup : ((List.range p.length).map fun k => dir ++ p.take (k + 1)).Nodup := by
    refine List.nodup_range.map_on fun k hk l hl heq => ?_
    have hlength := congrArg List.length heq
    simp only [List.length_append, List.length_take] at hlength
    rw [List.mem_range] at hk hl
    omega
  simpa using (List.subperm_of_subset hnodup hsub).length_le

/-! ### The scan -/

theorem findable_walk (h : t.Plain) {d p : Place} {above : List Place} :
    p ∈ t.walk limit ((t.nodes.length + 1) * (t.nodes.length + 1)) above d [] ↔
      t.Findable limit d p := by
  rw [mem_walk h]
  constructor
  · rintro ⟨q, rfl, -, hfind⟩
    exact hfind
  · intro hfind
    have hroom := Nat.le_mul_of_pos_left (t.nodes.length + 1) (Nat.succ_pos t.nodes.length)
    exact ⟨p, rfl, Nat.le_trans (Nat.le_succ_of_le (hfind.length_le h)) hroom, hfind⟩

theorem mem_scan_iff (h : t.Plain) (root : List Segment) (p : Place) :
    p ∈ t.scan root limit ↔
      (∃ q content stamp, t.locate (root ++ p.map .name) = .ok (q, .file content stamp) ∧
        content.size ≤ limit) ∧ ∀ name ∈ p.dropLast, isSkipped name = false := by
  unfold scan locate
  rw [follow_append h]
  cases hroot : t.follow maxLinks [] root with
  | error e => simp
  | ok found =>
    obtain ⟨d, node⟩ := found
    cases node with
    | link target => exact absurd hroot (follow_ne_link h _ _ _ _ _)
    | directory =>
      simp only [List.mem_mergeSort]
      exact findable_walk h
    | file content stamp =>
      cases p with
      | nil => simp
      | cons name more => simp

theorem scan_ascending (h : t.Plain) (root : List Segment) :
    (t.scan root limit).Pairwise fun a b => comparePlaces a b = .lt := by
  unfold scan
  split
  · split <;> simp
  · exact mergeSort_places (walk_nodup h _ _ _ _)
  · exact List.Pairwise.nil

/-- What a scan finds is in strictly ascending order, and it is every file that is not too large and
not below a directory that is passed over. -/
theorem scan_finds_exactly (h : t.Plain) (root : List Segment) (limit : Nat) :
    ((t.scan root limit).Pairwise fun a b =>
      compareSegments (root ++ a.map .name) (root ++ b.map .name) = .lt) ∧
    ∀ p, p ∈ t.scan root limit ↔
      (∃ q content stamp, t.locate (root ++ p.map .name) = .ok (q, .file content stamp) ∧
        content.size ≤ limit) ∧
      ∀ name ∈ p.dropLast,
        ¬(name.toList.head? = some '.' ∨ name = "target" ∨ name = "node_modules") := by
  constructor
  · refine (scan_ascending h root).imp fun {a b} hlt => ?_
    rw [compareSegments_append, ← comparePlaces_eq_compareSegments]
    exact hlt
  · intro p
    have hskipped : ∀ name, isSkipped name = false ↔
        ¬(name.toList.head? = some '.' ∨ name = "target" ∨ name = "node_modules") := by
      intro name
      simp [isSkipped, skippedNames]
    simp only [← hskipped]
    exact mem_scan_iff h root p

/-- A hidden project with a product of a build, a file named like one, and a large file. -/
def hiddenProject : FileTree where
  nodes := [([".p"], .directory), ([".p", ".a.feature"], .file ⟨#[35]⟩ 1),
    ([".p", "src"], .directory), ([".p", "src", "target"], .file ⟨#[35, 35]⟩ 2),
    ([".p", "target"], .directory), ([".p", "target", "b.rs"], .file ⟨#[]⟩ 3),
    ([".p", "large"], .file ⟨#[35, 35, 35]⟩ 4)]

theorem scan_finds_exactly_hidden :
    hiddenProject.Plain ∧ [".a.feature"] ∈ hiddenProject.scan [.name ".p"] 2 ∧
      ["src", "target"] ∈ hiddenProject.scan [.name ".p"] 2 ∧
      ["target", "b.rs"] ∉ hiddenProject.scan [.name ".p"] 2 ∧
      ["large"] ∉ hiddenProject.scan [.name ".p"] 2 := by
  have hplain : hiddenProject.Plain := ⟨by decide, by simp [hiddenProject]⟩
  have hmem := (scan_finds_exactly hplain [.name ".p"] 2).2
  refine ⟨hplain, (hmem _).mpr ⟨⟨[".p", ".a.feature"], ⟨#[35]⟩, 1, ?_, by decide⟩, by decide⟩,
    (hmem _).mpr ⟨⟨[".p", "src", "target"], ⟨#[35, 35]⟩, 2, ?_, by decide⟩, by decide⟩, ?_, ?_⟩
  · simp [locate, follow, node?, hiddenProject]
  · simp [locate, follow, node?, hiddenProject]
  · intro hfound
    exact absurd (((hmem _).mp hfound).2 "target" (by simp)) (by simp)
  · intro hfound
    obtain ⟨⟨q, content, stamp, hfile, hsize⟩, -⟩ := (hmem _).mp hfound
    obtain ⟨-, rfl, -⟩ : _ ∧ _ = content ∧ _ := by
      simpa [locate, follow, node?, hiddenProject] using hfile
    exact absurd hsize (by decide)

end FileTree

end StepGlue
