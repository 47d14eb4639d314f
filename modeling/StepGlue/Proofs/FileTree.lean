import StepGlue.Workspace.Basic

/-! Files of a file system: those right below its root, and what a touch does to a file. -/

namespace StepGlue.FileTree

theorem locate_nil (t : FileTree) : t.locate [] = .ok ([], .directory) := by
  rw [locate, follow]

theorem locate_file {t : FileTree} {n : String} {content : ByteArray} {stamp : Nat}
    (h : t.node? [n] = some (.file content stamp)) :
    t.locate [.name n] = .ok ([n], .file content stamp) := by
  rw [locate, follow]
  simp [h]

theorem read_file {t : FileTree} {n text : String} {stamp : Nat}
    (h : t.node? [n] = some (.file text.toUTF8 stamp)) : t.read ⟨[.name n]⟩ = .ok text := by
  have htext : String.fromUTF8? text.toUTF8 = some text := dif_pos text.isValidUTF8
  simp only [read, locate_file h, bind, Except.bind, htext]

theorem read_file_of_invalid {t : FileTree} {n : String} {content : ByteArray} {stamp : Nat}
    (h : t.node? [n] = some (.file content stamp)) (hc : String.fromUTF8? content = none) :
    t.read ⟨[.name n]⟩ = .error .invalidData := by
  simp only [read, locate_file h, bind, Except.bind, hc]

theorem stamp?_file {t : FileTree} {n : String} {content : ByteArray} {stamp : Nat}
    (h : t.node? [n] = some (.file content stamp)) : t.stamp? ⟨[.name n]⟩ = some stamp := by
  simp only [stamp?, locate_file h]

theorem mem_scan_nil {t : FileTree} {limit : Nat} {p : Place} :
    p ∈ t.scan [] limit ↔
      p ∈ t.walk limit ((t.nodes.length + 1) * (t.nodes.length + 1)) [[]] [] [] := by
  simp [scan, locate_nil]

/-- Of a directory that holds files only, none of them too large, every file is found. -/
theorem walk_files {t : FileTree} {limit : Nat} {dir : Place}
    (h : ∀ e ∈ t.children dir, ∃ content stamp, e.2 = .file content stamp ∧ content.size ≤ limit)
    (levels : Nat) (above : List Place) (path : Place) :
    t.walk limit (levels + 1) above dir path = (t.children dir).map fun e => path ++ [e.1] := by
  rw [walk]
  generalize t.children dir = es at h ⊢
  induction es with
  | nil => rfl
  | cons e es ih =>
    obtain ⟨he, hes⟩ := List.forall_mem_cons.mp h
    obtain ⟨name, node⟩ := e
    obtain ⟨content, stamp, rfl, hsize⟩ := he
    rw [List.flatMap_cons, List.map_cons, ih hes]
    simp [hsize]

/-! ### Touching -/

theorem node?_setNode (t : FileTree) {p : Place} (hp : p ≠ []) (n : FileNode) (q : Place) :
    (t.setNode p n).node? q = if q = p then some n else t.node? q := by
  unfold node? setNode
  dsimp only
  rw [List.find?_append, List.find?_filter]
  by_cases hq : q = p
  · subst hq
    have hempty : q.isEmpty = false := by simpa using hp
    have hnone : t.nodes.find? (fun e => decide ((e.1 != q) = true ∧ (e.1 == q) = true)) = none :=
      List.find?_eq_none.mpr fun e _ => by simp
    simp only [hempty, hnone]
    simp
  · have hother : (fun e : Place × FileNode => decide ((e.1 != p) = true ∧ (e.1 == q) = true)) =
        fun e => e.1 == q := by
      funext e
      by_cases he : e.1 = q
      · simp [he, hq]
      · simp [he]
    have hlast : [(p, n)].find? (fun e => e.1 == q) = none := by simp [Ne.symm hq]
    rw [hother, hlast, Option.or_none, if_neg hq]

/-- A path that leads to a file ends at the place where the file stands. -/
theorem node?_of_follow {t : FileTree} {links : Nat} {dir : Place} {path : List Segment}
    {p : Place} {content : ByteArray} {stamp : Nat}
    (h : t.follow links dir path = .ok (p, .file content stamp)) :
    p ≠ [] ∧ t.node? p = some (.file content stamp) := by
  fun_induction follow t links dir path with
  | case1 => cases h
  | case2 links dir rest ih => exact ih h
  | case3 => cases h
  | case4 links dir n rest q hq ih => exact ih h
  | case5 links dir n rest q c s hq hrest =>
    obtain ⟨rfl, hfile⟩ := Prod.mk.inj (Except.ok.inj h)
    exact ⟨by simp [q], hq.trans (congrArg some hfile)⟩
  | case6 => cases h
  | case7 => cases h
  | case8 dir n rest q target hq links ih => exact ih h

/-- A path leads to the same file after the file has got another stamp. -/
theorem follow_stamped {t u : FileTree} {links : Nat} {dir : Place} {path : List Segment}
    {p : Place} {content : ByteArray} {old stamp : Nat}
    (h : t.follow links dir path = .ok (p, .file content old))
    (hu : ∀ q, u.node? q = if q = p then some (.file content stamp) else t.node? q) :
    u.follow links dir path = .ok (p, .file content stamp) := by
  obtain ⟨-, hnode⟩ := node?_of_follow h
  -- on the way there are directories and links only, so none of them is the file itself
  have hway : ∀ q n, t.node? q = some n → n ≠ .file content old → u.node? q = some n := by
    intro q n hq hn
    have hne : q ≠ p := by
      rintro rfl
      exact hn (Option.some.inj (hq.symm.trans hnode))
    rw [hu, if_neg hne, hq]
  fun_induction follow t links dir path with
  | case1 => cases h
  | case2 links dir rest ih =>
    rw [follow]
    exact ih h
  | case3 => cases h
  | case4 links dir n rest q hq ih =>
    have hdir : u.node? (dir ++ [n]) = some .directory := hway _ _ hq (by simp)
    rw [follow]
    simp only [hdir]
    exact ih h
  | case5 links dir n rest q c s hq hrest =>
    obtain ⟨rfl, -⟩ := Prod.mk.inj (Except.ok.inj h)
    have hfile : u.node? (dir ++ [n]) = some (.file content stamp) := by rw [hu, if_pos rfl]
    rw [follow]
    simp [hfile, hrest, q]
  | case6 => cases h
  | case7 => cases h
  | case8 dir n rest q target hq links ih =>
    have hlink : u.node? (dir ++ [n]) = some (.link target) := hway _ _ hq (by simp)
    rw [follow]
    simp only [hlink]
    exact ih h

/-- A touch that gives a stamp has given it to the file. -/
theorem stamp?_touch {t : FileTree} {f : FileId} {n : Nat} (h : (t.touch f).2 = some n) :
    (t.touch f).1.stamp? f = some n := by
  cases hl : t.locate f.segments with
  | error err => simp [touch, setStamp, hl] at h
  | ok found =>
    obtain ⟨p, node⟩ := found
    cases node with
    | file content old =>
      obtain ⟨hp, -⟩ := node?_of_follow hl
      simp only [touch, setStamp, hl, Option.some.injEq] at h ⊢
      subst h
      let u := { t.setNode p (.file content (t.clock + 1)) with clock := t.clock + 1 }
      have hfile : u.locate f.segments = .ok (p, .file content (t.clock + 1)) :=
        follow_stamped hl (node?_setNode t hp _)
      simp only [stamp?, u, hfile]
    | directory => simp [touch, setStamp, hl] at h
    | link target => simp [touch, setStamp, hl] at h

end StepGlue.FileTree
