import StepGlue.FileMap

/-! The order of file identities is a linear order, so a map of files is known by its look-ups:
two ordered maps that agree on every file are the same map. -/

namespace StepGlue

instance : Std.TransCmp Segment.cmp where
  eq_swap {a b} := by
    cases a with
    | up => cases b <;> rfl
    | name n =>
      cases b with
      | up => rfl
      | name m =>
        have hh : compare n m = (compare m n).swap := Std.OrientedCmp.eq_swap
        exact hh
  isLE_trans {a b c} := by
    cases a <;> cases b <;> cases c <;> simp [Segment.cmp]
    exact Std.TransCmp.isLE_trans

instance : Std.LawfulEqCmp Segment.cmp where
  compare_self {a} := by cases a <;> simp [Segment.cmp]
  eq_of_compare {a b} := by cases a <;> cases b <;> simp [Segment.cmp]

theorem compareSegments_swap (p q : List Segment) :
    compareSegments p q = (compareSegments q p).swap := by
  induction p generalizing q with
  | nil => cases q <;> rfl
  | cons a p ih =>
    cases q with
    | nil => rfl
    | cons b q =>
      simp only [compareSegments, Ordering.swap_then, ← ih q]
      rw [@Std.OrientedCmp.eq_swap _ Segment.cmp _ a b]

theorem compareSegments_eq {p q : List Segment} : compareSegments p q = .eq ↔ p = q := by
  induction p generalizing q with
  | nil => cases q <;> simp [compareSegments]
  | cons a p ih =>
    cases q with
    | nil => simp [compareSegments]
    | cons b q =>
      simp only [compareSegments, Ordering.then_eq_eq, ih, List.cons.injEq,
        Std.LawfulEqCmp.compare_eq_iff_eq]

theorem compareSegments_lt_trans {p q r : List Segment} (hpq : compareSegments p q = .lt)
    (hqr : compareSegments q r = .lt) : compareSegments p r = .lt := by
  induction p generalizing q r with
  | nil =>
    cases q with
    | nil => simp [compareSegments] at hpq
    | cons b q => cases r <;> simp [compareSegments] at hqr ⊢
  | cons a p ih =>
    cases q with
    | nil => simp [compareSegments] at hpq
    | cons b q =>
      cases r with
      | nil => simp [compareSegments] at hqr
      | cons c r =>
        simp only [compareSegments, Ordering.then_eq_lt] at hpq hqr ⊢
        rcases hpq with hab | ⟨hab, hp⟩
        · rcases hqr with hbc | ⟨hbc, _⟩
          · exact Or.inl (Std.TransCmp.lt_trans hab hbc)
          · exact Or.inl (Std.TransCmp.lt_of_lt_of_eq hab hbc)
        · rcases hqr with hbc | ⟨hbc, hq⟩
          · exact Or.inl (Std.TransCmp.lt_of_eq_of_lt hab hbc)
          · exact Or.inr ⟨Std.TransCmp.eq_trans hab hbc, ih hp hq⟩

namespace FileId

theorem cmp_eq {f g : FileId} : f.cmp g = .eq ↔ f = g := by
  cases f
  cases g
  simp [cmp, compareSegments_eq]

theorem cmp_gt {f g : FileId} : f.cmp g = .gt ↔ g.cmp f = .lt := by
  unfold cmp
  rw [compareSegments_swap]
  simp

theorem cmp_lt_trans {f g h : FileId} (hfg : f.cmp g = .lt) (hgh : g.cmp h = .lt) :
    f.cmp h = .lt :=
  compareSegments_lt_trans hfg hgh

theorem cmp_lt_irrefl (f : FileId) : f.cmp f ≠ .lt := by
  have hh : f.cmp f = .eq := cmp_eq.mpr rfl
  simp [hh]

theorem ne_of_cmp_lt {f g : FileId} (h : f.cmp g = .lt) : f ≠ g := by
  rintro rfl
  exact cmp_lt_irrefl f h

end FileId

section Entries

variable {α : Type}

theorem mem_insertEntry {f : FileId} {a : α} {entries : List (FileId × α)} {e : FileId × α}
    (h : e ∈ insertEntry f a entries) : e = (f, a) ∨ e ∈ entries := by
  induction entries with
  | nil => simpa [insertEntry] using h
  | cons b rest ih =>
    obtain ⟨g, b⟩ := b
    simp only [insertEntry] at h
    split at h
    · simpa using h
    · rcases List.mem_cons.mp h with hh | hh
      · exact Or.inl hh
      · exact Or.inr (List.mem_cons_of_mem _ hh)
    · rcases List.mem_cons.mp h with hh | hh
      · exact Or.inr (hh ▸ List.mem_cons_self)
      · exact (ih hh).imp_right (List.mem_cons_of_mem _)

theorem find?_insertEntry (f g : FileId) (a : α) (entries : List (FileId × α)) :
    ((insertEntry f a entries).find? (·.1 == g)).map (·.2) =
      if f = g then some a else (entries.find? (·.1 == g)).map (·.2) := by
  induction entries with
  | nil => by_cases hg : f = g <;> simp [insertEntry, hg]
  | cons b rest ih =>
    obtain ⟨k, b⟩ := b
    simp only [insertEntry]
    split
    · by_cases hg : f = g <;> simp [List.find?_cons, hg]
    · next he =>
      have hk := FileId.cmp_eq.mp he
      subst hk
      by_cases hg : f = g <;> simp [hg]
    · next he =>
      have hk : f ≠ k := fun e => by simp [FileId.cmp_eq.mpr e] at he
      by_cases hg : k = g
      · simp [hg, hg ▸ hk]
      · simpa [List.find?_cons, hg] using ih

/-- Entries in strictly ascending order of their files. -/
def Ascending (entries : List (FileId × α)) : Prop :=
  entries.Pairwise fun a b => a.1.cmp b.1 = .lt

theorem Ascending.insertEntry {entries : List (FileId × α)} (h : Ascending entries)
    (f : FileId) (a : α) : Ascending (insertEntry f a entries) := by
  induction entries with
  | nil => simp [StepGlue.insertEntry, Ascending]
  | cons b rest ih =>
    obtain ⟨g, b⟩ := b
    obtain ⟨hg, hrest⟩ := List.pairwise_cons.mp h
    simp only [StepGlue.insertEntry]
    split
    · next hlt =>
      refine List.pairwise_cons.mpr ⟨fun e he => ?_, h⟩
      rcases List.mem_cons.mp he with rfl | he
      · exact hlt
      · exact FileId.cmp_lt_trans hlt (hg e he)
    · next heq =>
      have hk := FileId.cmp_eq.mp heq
      subst hk
      exact List.pairwise_cons.mpr ⟨hg, hrest⟩
    · next hgt =>
      refine List.pairwise_cons.mpr ⟨fun e he => ?_, ih hrest⟩
      rcases mem_insertEntry he with rfl | he
      · exact FileId.cmp_gt.mp hgt
      · exact hg e he

/-- Below its first entry an ordered list has nothing. -/
theorem Ascending.find?_eq_none {f : FileId} {a : α} {rest : List (FileId × α)}
    (h : Ascending ((f, a) :: rest)) {g : FileId} (hg : g.cmp f = .lt) :
    ((f, a) :: rest).find? (·.1 == g) = none := by
  apply List.find?_eq_none.mpr
  intro e he
  have hlt : g.cmp e.1 = .lt := by
    rcases List.mem_cons.mp he with rfl | he
    · exact hg
    · exact FileId.cmp_lt_trans hg ((List.pairwise_cons.mp h).1 e he)
  simpa using (FileId.ne_of_cmp_lt hlt).symm

theorem Ascending.find?_tail_self {f : FileId} {a : α} {rest : List (FileId × α)}
    (h : Ascending ((f, a) :: rest)) : rest.find? (·.1 == f) = none := by
  apply List.find?_eq_none.mpr
  intro e he
  simpa using (FileId.ne_of_cmp_lt ((List.pairwise_cons.mp h).1 e he)).symm

theorem Ascending.find?_of_mem {entries : List (FileId × α)} (h : Ascending entries)
    {e : FileId × α} (he : e ∈ entries) : entries.find? (·.1 == e.1) = some e := by
  induction entries with
  | nil => cases he
  | cons a rest ih =>
    obtain ⟨ha, hrest⟩ := List.pairwise_cons.mp h
    rcases List.mem_cons.mp he with rfl | he
    · simp
    · simpa [List.find?_cons, FileId.ne_of_cmp_lt (ha e he)] using ih hrest he

theorem Ascending.ext {l r : List (FileId × α)} (hl : Ascending l) (hr : Ascending r)
    (h : ∀ f, (l.find? (·.1 == f)).map (·.2) = (r.find? (·.1 == f)).map (·.2)) : l = r := by
  induction l generalizing r with
  | nil =>
    cases r with
    | nil => rfl
    | cons b r => simpa using h b.1
  | cons a l ih =>
    obtain ⟨f, a⟩ := a
    cases r with
    | nil => simpa using h f
    | cons b r =>
      obtain ⟨g, b⟩ := b
      have hfg : f = g := by
        cases hc : f.cmp g with
        | eq => exact FileId.cmp_eq.mp hc
        | lt =>
          have hh := h f
          rw [hr.find?_eq_none hc] at hh
          simp at hh
        | gt =>
          have hh := h g
          rw [hl.find?_eq_none (FileId.cmp_gt.mp hc)] at hh
          simp at hh
      subst hfg
      have hab : a = b := by simpa using h f
      subst hab
      have htail : l = r := by
        refine ih (List.pairwise_cons.mp hl).2 (List.pairwise_cons.mp hr).2 fun k => ?_
        by_cases hk : f = k
        · subst hk
          rw [hl.find?_tail_self, hr.find?_tail_self]
        · simpa [List.find?_cons, hk] using h k
      rw [htail]

end Entries

namespace FileMap

variable {α : Type}

@[simp] theorem get?_empty (f : FileId) : ({} : FileMap α).get? f = none := rfl

@[simp] theorem get?_insert (m : FileMap α) (f g : FileId) (a : α) :
    (m.insert f a).get? g = if f = g then some a else m.get? g :=
  find?_insertEntry f g a m.entries

@[simp] theorem get?_erase (m : FileMap α) (f g : FileId) :
    (m.erase f).get? g = if f = g then none else m.get? g := by
  unfold erase get?
  rw [List.find?_filter]
  by_cases hg : f = g
  · subst hg
    simp
  · have hp : (fun e : FileId × α => decide ((e.1 != f) = true ∧ (e.1 == g) = true)) =
        fun e => e.1 == g := by
      funext e
      by_cases he : e.1 = g
      · simp [he, Ne.symm hg]
      · simp [he]
    simp only [hp, hg, if_false]

theorem contains_eq_isSome (m : FileMap α) (f : FileId) :
    m.contains f = (m.get? f).isSome := by
  simp only [contains, get?, Option.isSome_map]
  exact Bool.eq_iff_iff.mpr (by simp [List.find?_isSome])

theorem mem_keys {m : FileMap α} {f : FileId} : f ∈ m.keys ↔ (m.get? f).isSome := by
  simp [keys, get?, List.find?_isSome]

/-- The files of the map stand in strictly ascending order. -/
def Ordered (m : FileMap α) : Prop := Ascending m.entries

theorem Ordered.empty : ({} : FileMap α).Ordered := List.Pairwise.nil

theorem Ordered.insert {m : FileMap α} (h : m.Ordered) (f : FileId) (a : α) :
    (m.insert f a).Ordered :=
  h.insertEntry f a

theorem Ordered.erase {m : FileMap α} (h : m.Ordered) (f : FileId) : (m.erase f).Ordered :=
  h.filter _

theorem Ordered.keys_nodup {m : FileMap α} (h : m.Ordered) : m.keys.Nodup :=
  List.pairwise_map.mpr (h.imp FileId.ne_of_cmp_lt)

/-- The values of a map are those of its files, in their order. -/
theorem Ordered.values_eq {m : FileMap α} (h : m.Ordered) (d : α) :
    m.values = m.keys.map fun f => (m.get? f).getD d := by
  rw [values, keys, List.map_map]
  refine List.map_congr_left fun e he => ?_
  simp [get?, h.find?_of_mem he]

theorem Ordered.ext {m n : FileMap α} (hm : m.Ordered) (hn : n.Ordered)
    (h : ∀ f, m.get? f = n.get? f) : m = n := by
  cases m
  cases n
  congr
  exact Ascending.ext hm hn h

end FileMap

theorem mem_insertFile {f g : FileId} {files : List FileId} :
    g ∈ insertFile f files ↔ g = f ∨ g ∈ files := by
  induction files with
  | nil => simp [insertFile]
  | cons k rest ih =>
    simp only [insertFile]
    split
    · simp
    · next he =>
      have hk := FileId.cmp_eq.mp he
      subst hk
      simp
    · simp only [List.mem_cons, ih]
      exact or_left_comm

theorem insertFile_pairwise {files : List FileId}
    (h : files.Pairwise fun a b => a.cmp b = .lt) (f : FileId) :
    (insertFile f files).Pairwise fun a b => a.cmp b = .lt := by
  induction files with
  | nil => simp [insertFile]
  | cons g rest ih =>
    obtain ⟨hg, hrest⟩ := List.pairwise_cons.mp h
    simp only [insertFile]
    split
    · next hlt =>
      refine List.pairwise_cons.mpr ⟨fun k hk => ?_, h⟩
      rcases List.mem_cons.mp hk with rfl | hk
      · exact hlt
      · exact FileId.cmp_lt_trans hlt (hg k hk)
    · exact h
    · next hgt =>
      refine List.pairwise_cons.mpr ⟨fun k hk => ?_, ih hrest⟩
      rcases mem_insertFile.mp hk with rfl | hk
      · exact FileId.cmp_gt.mp hgt
      · exact hg k hk

theorem mem_sortFiles {f : FileId} {files : List FileId} : f ∈ sortFiles files ↔ f ∈ files := by
  induction files with
  | nil => simp [sortFiles]
  | cons g rest ih =>
    have hh : sortFiles (g :: rest) = insertFile g (sortFiles rest) := rfl
    rw [hh, mem_insertFile, ih, List.mem_cons]

theorem sortFiles_pairwise (files : List FileId) :
    (sortFiles files).Pairwise fun a b => a.cmp b = .lt := by
  induction files with
  | nil => exact List.Pairwise.nil
  | cons g rest ih => exact insertFile_pairwise ih g

theorem sortFiles_nodup (files : List FileId) : (sortFiles files).Nodup :=
  (sortFiles_pairwise files).imp FileId.ne_of_cmp_lt

end StepGlue
