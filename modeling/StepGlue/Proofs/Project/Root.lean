import StepGlue.Project.Root

/-! The root that is looked for upwards from a path lies above it.

Going up works on the text of a path. As long as the text has no steps up, what it leaves is a
front part of the path, so the root is above the file by identity too. -/

namespace StepGlue

theorem splitAtSlashes_eq_splitOn (s : List Char) : splitAtSlashes s = s.splitOn '/' := by
  induction s with
  | nil => rfl
  | cons c s ih =>
    rw [List.splitOn_cons_eq_if_modifyHead, splitAtSlashes, ih]
    by_cases hc : c = '/'
    · simp [hc]
    · have hne := List.splitOn_ne_nil '/' s
      cases hs : s.splitOn '/' with
      | nil => exact absurd hs hne
      | cons p ps => simp [hc]

theorem slash_notMem_of_mem {s p : List Char} (h : p ∈ splitAtSlashes s) : '/' ∉ p := by
  induction s generalizing p with
  | nil =>
    obtain rfl := List.mem_singleton.mp h
    simp
  | cons c s ih =>
    simp only [splitAtSlashes] at h
    by_cases hc : c = '/'
    · rw [if_pos hc] at h
      rcases List.mem_cons.mp h with rfl | h
      · simp
      · exact ih h
    · rw [if_neg hc] at h
      split at h
      · obtain rfl := List.mem_singleton.mp h
        simpa using Ne.symm hc
      · next q qs hs =>
        rcases List.mem_cons.mp h with rfl | h
        · have hq : '/' ∉ q := ih (hs ▸ List.mem_cons_self)
          simpa using ⟨Ne.symm hc, hq⟩
        · exact ih (hs ▸ List.mem_cons_of_mem _ h)

/-- What the parts of a path text say. -/
def spokenParts (parts : List (List Char)) : List Segment :=
  (parts.filter fun p => p ≠ [] && p ≠ ['.']).map Segment.ofText

theorem pathSegments_ofList {parts : List (List Char)} (h : ∀ p ∈ parts, '/' ∉ p)
    (hne : parts ≠ []) :
    pathSegments (String.ofList (List.intercalate ['/'] parts)) = spokenParts parts := by
  unfold pathSegments spokenParts
  rw [String.toList_ofList, splitAtSlashes_eq_splitOn, List.splitOn_intercalate '/' h hne]

theorem dropIdleParts_front (parts : List (List Char)) : dropIdleParts parts <+: parts := by
  have hh := List.dropWhile_suffix (fun p => p == [] || p == ['.']) (l := parts.reverse)
  simpa [dropIdleParts] using List.reverse_prefix.mpr hh

theorem spokenParts_front {ps qs : List (List Char)} (h : ps <+: qs) :
    spokenParts ps <+: spokenParts qs :=
  (h.filter _).map _

/-- The path above a path says what stands in front of the last part. -/
theorem pathSegments_parent {path above : String} (h : parentPath? path = some above) :
    pathSegments above <+: pathSegments path := by
  unfold parentPath? at h
  split at h
  · cases h
  · next parts hparts =>
    dsimp only at h
    split at h
    · have hnone : pathSegments above = [] := by
        rw [← Option.some.inj h]
        split <;> decide
      rw [hnone]
      exact List.nil_prefix
    · next hrest =>
      let all := splitAtSlashes path.toList
      have hlast : (dropIdleParts all).dropLast <+: dropIdleParts all := List.dropLast_prefix _
      have hfront := (dropIdleParts_front _).trans (hlast.trans (dropIdleParts_front all))
      have hslash : ∀ p ∈ dropIdleParts (dropIdleParts all).dropLast, '/' ∉ p :=
        fun p hp => slash_notMem_of_mem (hfront.subset hp)
      rw [← Option.some.inj h, pathSegments_ofList hslash (by simpa using hrest)]
      exact spokenParts_front hfront

theorem pathSegments_ancestor {n : Nat} {path above : String}
    (h : above ∈ ancestorPaths n path) : pathSegments above <+: pathSegments path := by
  induction n generalizing path with
  | zero =>
    obtain rfl := List.mem_singleton.mp h
    exact List.prefix_refl _
  | succ n ih =>
    rcases List.mem_cons.mp h with rfl | h
    · exact List.prefix_refl _
    · split at h
      · next p hp => exact (ih h).trans (pathSegments_parent hp)
      · cases h

theorem FileTree.findProjectRoot_above {t : FileTree} {path dir : String}
    (h : t.findProjectRoot path = .ok dir) : pathSegments dir <+: pathSegments path := by
  unfold findProjectRoot at h
  dsimp only at h
  split at h
  · next found hfound =>
    obtain rfl := Except.ok.inj h
    refine (pathSegments_ancestor (List.mem_of_find?_eq_some hfound)).trans ?_
    split
    · exact List.prefix_refl _
    · cases hp : parentPath? path with
      | none => exact List.prefix_refl _
      | some above => exact pathSegments_parent hp
  · cases h

/-! ### Identities of paths without steps up -/

theorem foldl_pushSegment {parts : List Segment} (h : .up ∉ parts) (path : List Segment) :
    parts.foldl pushSegment path = parts.reverse ++ path := by
  induction parts generalizing path with
  | nil => rfl
  | cons p parts ih =>
    obtain ⟨hp, hparts⟩ := not_or.mp (fun hh => h (List.mem_cons.mpr hh))
    cases p with
    | up => exact absurd rfl hp
    | name n => simp [pushSegment, ih hparts]

theorem FileId.ofPath_of_no_up {path : String} (h : .up ∉ pathSegments path) :
    FileId.ofPath path = ⟨pathSegments path⟩ := by
  simp [ofPath, resolveSegments, foldl_pushSegment h]

theorem FileId.isWithin_iff {f root : FileId} :
    f.isWithin root = true ↔ root.segments <+: f.segments :=
  List.isPrefixOf_iff_prefix

theorem FileId.isWithin_of_above {path above : String} (h : .up ∉ pathSegments path)
    (ha : pathSegments above <+: pathSegments path) :
    (FileId.ofPath path).isWithin (FileId.ofPath above) = true := by
  have hup : .up ∉ pathSegments above := fun hh => h (ha.subset hh)
  rw [isWithin_iff, ofPath_of_no_up h, ofPath_of_no_up hup]
  exact ha

end StepGlue
