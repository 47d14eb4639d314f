import StepGlue.Proofs.FileMap
import StepGlue.Repository

/-! Look-ups in a repository, and when two repositories are the same. -/

namespace StepGlue

namespace Definition

/-- What makes two definitions the same: the place and the pattern. -/
def key (d : Definition) : Nat × FileId × Pattern := (d.line, d.file, d.pattern)

theorem same_iff_key {d e : Definition} : d.same e = true ↔ d.key = e.key := by
  simp [same, key, and_assoc]

end Definition

namespace Repository

/-- The entry that a file gets for its definitions: none if there are none. -/
def entryOf (ds : List Definition) : Option (List Definition) :=
  match Definition.firstOccurrences ds with
  | [] => none
  | ds => some ds

theorem get?_put (r : Repository) (f g : FileId) (ds : List Definition) :
    (r.put f ds).entries.get? g = if f = g then entryOf ds else r.entries.get? g := by
  unfold put entryOf
  split <;> simp [*]

@[simp] theorem entryOf_nil : entryOf [] = none := rfl

theorem getD_entryOf (ds : List Definition) :
    (entryOf ds).getD [] = Definition.firstOccurrences ds := by
  unfold entryOf
  split <;> simp_all

theorem isSome_entryOf {ds : List Definition} : (entryOf ds).isSome ↔ ds ≠ [] := by
  cases ds <;> simp [entryOf, Definition.firstOccurrences]

theorem put_ordered {r : Repository} (h : r.entries.Ordered) (f : FileId)
    (ds : List Definition) : (r.put f ds).entries.Ordered := by
  unfold put
  split
  · exact h.erase f
  · exact h.insert f _

theorem ext_of_get? {r t : Repository} (hr : r.entries.Ordered) (ht : t.entries.Ordered)
    (h : ∀ f, r.entries.get? f = t.entries.get? f) : r = t := by
  cases r
  cases t
  congr
  exact FileMap.Ordered.ext hr ht h

theorem put_comm {r : Repository} (h : r.entries.Ordered) {f g : FileId} (hfg : f ≠ g)
    (ds es : List Definition) : (r.put f ds).put g es = (r.put g es).put f ds := by
  refine ext_of_get? (put_ordered (put_ordered h f ds) g es) (put_ordered (put_ordered h g es) f ds)
    fun k => ?_
  simp only [get?_put]
  by_cases hf : f = k
  · have hg : g ≠ k := fun hh => hfg (hf.trans hh.symm)
    rw [if_neg hg, if_pos hf, if_pos hf]
  · rw [if_neg hf, if_neg hf]

theorem put_put {r : Repository} (h : r.entries.Ordered) (f : FileId) (ds es : List Definition) :
    (r.put f ds).put f es = r.put f es := by
  refine ext_of_get? (put_ordered (put_ordered h f ds) f es) (put_ordered h f es) fun k => ?_
  simp only [get?_put]
  by_cases hf : f = k
  · rw [if_pos hf, if_pos hf]
  · rw [if_neg hf, if_neg hf, if_neg hf]

theorem contributes_eq_isSome (r : Repository) (f : FileId) :
    r.contributes f = (r.entries.get? f).isSome :=
  r.entries.contains_eq_isSome f

end Repository

end StepGlue
