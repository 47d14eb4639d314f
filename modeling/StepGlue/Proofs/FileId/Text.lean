import StepGlue.Proofs.Project.Root

/-! Path texts and the parts that they name.

A path text names proper parts only, and the text of proper parts, a slash before each, names them
again. A text that is joined to another one adds its parts to those of the other. -/

namespace StepGlue

namespace Segment

/-- A part that a path text can name: a step up, or a name that says something, is no step up and
has no slash in it. -/
def Proper : Segment → Prop
  | .up => True
  | .name s => s ≠ "" ∧ s ≠ "." ∧ s ≠ ".." ∧ '/' ∉ s.toList

theorem proper_ofText {p : List Char} (hslash : '/' ∉ p) (hempty : p ≠ []) (hdot : p ≠ ['.']) :
    (ofText p).Proper := by
  unfold ofText
  split
  · trivial
  · next hup =>
    have hne : ∀ s : String, p ≠ s.toList → String.ofList p ≠ s := by
      rintro s hs rfl
      exact hs String.toList_ofList.symm
    refine ⟨hne "" hempty, hne "." hdot, hne ".." hup, ?_⟩
    rwa [String.toList_ofList]

theorem Proper.slash_notMem {x : Segment} (h : x.Proper) : '/' ∉ x.text.toList := by
  cases x with
  | up => decide
  | name s => exact h.2.2.2

/-- The text of a proper part says something, and it says that part. -/
theorem Proper.spokenParts_text {x : Segment} (h : x.Proper) :
    spokenParts [x.text.toList] = [x] := by
  cases x with
  | up => decide
  | name s =>
    obtain ⟨hempty, hdot, hup, -⟩ := h
    have hne : ∀ {t : String}, s ≠ t → s.toList ≠ t.toList := fun hst hh =>
      hst (String.toList_inj.mp hh)
    have hempty' : s.toList ≠ [] := hne hempty
    have hdot' : s.toList ≠ ['.'] := hne hdot
    have hup' : s.toList ≠ ['.', '.'] := hne hup
    simp [spokenParts, ofText, text, hempty', hdot', hup']

end Segment

theorem spokenParts_append (ps qs : List (List Char)) :
    spokenParts (ps ++ qs) = spokenParts ps ++ spokenParts qs := by
  simp only [spokenParts, List.filter_append, List.map_append]

theorem spokenParts_text {parts : List Segment} (h : ∀ x ∈ parts, x.Proper) :
    spokenParts (parts.map fun x => x.text.toList) = parts := by
  induction parts with
  | nil => rfl
  | cons x parts ih =>
    obtain ⟨hx, hparts⟩ := List.forall_mem_cons.mp h
    rw [List.map_cons, ← List.singleton_append, spokenParts_append, hx.spokenParts_text,
      ih hparts, List.singleton_append]

theorem proper_of_mem_pathSegments {s : String} {x : Segment} (h : x ∈ pathSegments s) :
    x.Proper := by
  obtain ⟨p, hp, rfl⟩ := List.mem_map.mp h
  obtain ⟨hmem, hsays⟩ := List.mem_filter.mp hp
  obtain ⟨hempty, hdot⟩ : p ≠ [] ∧ p ≠ ['.'] := by simpa using hsays
  exact Segment.proper_ofText (slash_notMem_of_mem hmem) hempty hdot

/-- Behind a slash a path text starts anew. -/
theorem pathSegments_of_slash {s : String} {a b : List Char} (h : s.toList = a ++ '/' :: b) :
    pathSegments s = spokenParts (splitAtSlashes a) ++ spokenParts (splitAtSlashes b) := by
  rw [← spokenParts_append, splitAtSlashes_eq_splitOn, splitAtSlashes_eq_splitOn,
    ← List.splitOn_append_cons_self, ← h, ← splitAtSlashes_eq_splitOn]
  rfl

theorem pathSegments_joinPath (p q : String) :
    pathSegments (joinPath p [q]) = pathSegments p ++ pathSegments q := by
  unfold joinPath
  rw [List.foldl_cons, List.foldl_nil]
  split
  · next hlast =>
    -- the slash at the end of the first text parts the two, and says nothing itself
    obtain ⟨a, ha⟩ := List.getLast?_eq_some_iff.mp hlast
    have hjoin : (p ++ q).toList = a ++ '/' :: q.toList := by simp [ha]
    rw [pathSegments_of_slash hjoin, pathSegments_of_slash ha, List.append_assoc]
    rfl
  · have hjoin : (p ++ "/" ++ q).toList = p.toList ++ '/' :: q.toList := by simp
    rw [pathSegments_of_slash hjoin]
    rfl

/-- The full path of an identity names the parts of the identity. -/
theorem FileId.pathSegments_fullPath {f : FileId} (h : ∀ x ∈ f.segments, x.Proper) :
    pathSegments f.fullPath = f.segments := by
  obtain ⟨parts⟩ := f
  by_cases hnil : parts = []
  · subst hnil
    decide
  · let texts := parts.map fun x => x.text.toList
    have htext : (FileId.mk parts).fullPath.toList = [] ++ '/' :: List.intercalate ['/'] texts := by
      rw [fullPath, String.toList_append, String.toList_intercalate, List.map_map]
      rfl
    have hslash : ∀ p ∈ texts, '/' ∉ p := by
      intro p hp
      obtain ⟨x, hx, rfl⟩ := List.mem_map.mp hp
      exact (h x hx).slash_notMem
    rw [pathSegments_of_slash htext, splitAtSlashes_eq_splitOn (List.intercalate _ _),
      List.splitOn_intercalate '/' hslash (by simpa [texts] using hnil)]
    exact spokenParts_text h

end StepGlue
