import Mathlib.Data.List.Induction
import StepGlue.Proofs.Repository

/-! What a repository knows after any history of calls.

The entry of a file is made by the last put for it since the last reset, and no other call leaves a
trace. So all that a repository tells is told by these last puts: the files in their order, the
definitions of each, and those of all together. -/

namespace StepGlue

namespace Definition

/-- The definitions of a list that have the key of no definition before them. -/
def unrepeated (ds : List Definition) : List Definition :=
  (ds.zipIdx.filter fun e => e.1.key ∉ (ds.take e.2).map key).map (·.1)

/-- The first occurrences behind some definitions, less those with a key from before. -/
theorem filter_zipIdx_eq (before ds : List Definition) :
    ((ds.zipIdx before.length).filter fun e =>
        e.1.key ∉ ((before ++ ds).take e.2).map key).map (·.1) =
      (firstOccurrences ds).filter fun e => e.key ∉ before.map key := by
  induction ds generalizing before with
  | nil => rfl
  | cons d ds ih =>
    have hrest := ih (before ++ [d])
    rw [List.length_append, List.length_singleton, List.append_assoc, List.singleton_append]
      at hrest
    have hlater : ((firstOccurrences ds).filter fun e => e.key ∉ (before ++ [d]).map key) =
        ((firstOccurrences ds).filter fun e => !d.same e).filter fun e => e.key ∉ before.map key := by
      rw [List.filter_filter]
      refine List.filter_congr fun e _ => ?_
      by_cases hkey : d.key = e.key
      · simp [same_iff_key.mpr hkey, hkey]
      · have hdiff : d.same e = false := by simpa [← same_iff_key] using hkey
        simp [hdiff, Ne.symm hkey]
    rw [List.zipIdx_cons, firstOccurrences, List.filter_cons, List.filter_cons, ← hlater, ← hrest,
      List.take_left' rfl]
    split <;> rfl

theorem firstOccurrences_eq_unrepeated (ds : List Definition) :
    firstOccurrences ds = unrepeated ds := by
  have hall : ((firstOccurrences ds).filter fun e => e.key ∉ ([] : List Definition).map key) =
      firstOccurrences ds :=
    List.filter_eq_self.mpr fun e _ => by simp
  rw [← hall, ← filter_zipIdx_eq [] ds]
  rfl

end Definition

namespace Repository

/-- A call that changes a repository. -/
inductive Call
  | put (file : FileId) (definitions : List Definition)
  | reset

def call (r : Repository) : Call → Repository
  | .put f ds => r.put f ds
  | .reset => {}

/-- The repository that some calls make of an empty one. -/
def ofCalls (calls : List Call) : Repository := calls.foldl call {}

namespace Call

def isReset : Call → Bool
  | .put _ _ => false
  | .reset => true

/-- What a call puts down for a file. -/
def putFor? (f : FileId) : Call → Option (List Definition)
  | .put g ds => if g = f then some ds else none
  | .reset => none

end Call

/-- What was last put down for a file since the last reset; nothing if it was never put. -/
def lastPut (calls : List Call) (f : FileId) : List Definition :=
  ((calls.reverse.takeWhile fun c => !c.isReset).findSome? (·.putFor? f)).getD []

@[simp] theorem lastPut_nil (f : FileId) : lastPut [] f = [] := rfl

@[simp] theorem lastPut_put (calls : List Call) (g : FileId) (ds : List Definition) (f : FileId) :
    lastPut (calls ++ [.put g ds]) f = if g = f then ds else lastPut calls f := by
  by_cases hf : g = f <;> simp [lastPut, Call.isReset, Call.putFor?, hf]

@[simp] theorem lastPut_reset (calls : List Call) (f : FileId) :
    lastPut (calls ++ [.reset]) f = [] := by
  simp [lastPut, Call.isReset]

theorem ofCalls_append_singleton (calls : List Call) (c : Call) :
    ofCalls (calls ++ [c]) = (ofCalls calls).call c := by
  rw [ofCalls, List.foldl_append]
  rfl

theorem get?_ofCalls (calls : List Call) (f : FileId) :
    (ofCalls calls).entries.get? f = entryOf (lastPut calls f) := by
  induction calls using List.reverseRecOn with
  | nil => rfl
  | append_singleton calls c ih =>
    rw [ofCalls_append_singleton]
    cases c with
    | put g ds =>
      rw [call, get?_put, lastPut_put, ih]
      split <;> rfl
    | reset =>
      rw [lastPut_reset]
      rfl

theorem ofCalls_ordered (calls : List Call) : (ofCalls calls).entries.Ordered := by
  induction calls using List.reverseRecOn with
  | nil => exact FileMap.Ordered.empty
  | append_singleton calls c ih =>
    rw [ofCalls_append_singleton]
    cases c with
    | put g ds => exact put_ordered ih g ds
    | reset => exact FileMap.Ordered.empty

/-- Two histories with the same last puts make the same repository. -/
theorem ofCalls_congr {calls others : List Call} (h : ∀ f, lastPut others f = lastPut calls f) :
    ofCalls others = ofCalls calls := by
  refine ext_of_get? (ofCalls_ordered others) (ofCalls_ordered calls) fun f => ?_
  rw [get?_ofCalls, get?_ofCalls, h]

/-- Without the puts for a file nothing is put down for it, and for every other file the same as
with them. -/
theorem lastPut_filter (calls : List Call) (f g : FileId) :
    lastPut (calls.filter fun c => (c.putFor? f).isNone) g =
      if f = g then [] else lastPut calls g := by
  induction calls using List.reverseRecOn with
  | nil => simp
  | append_singleton calls c ih =>
    rw [List.filter_append]
    cases c with
    | reset => simp [Call.putFor?]
    | put k ds =>
      by_cases hk : k = f
      · have hdrop : ([Call.put k ds].filter fun c => (c.putFor? f).isNone) = [] := by
          simp [Call.putFor?, hk]
        rw [hdrop, List.append_nil, ih, lastPut_put, hk]
        by_cases hg : f = g <;> simp [hg]
      · have hkeep : ([Call.put k ds].filter fun c => (c.putFor? f).isNone) = [.put k ds] := by
          simp [Call.putFor?, hk]
        rw [hkeep, lastPut_put, lastPut_put, ih]
        by_cases hg : k = g
        · have hfg : f ≠ g := fun hh => hk (hg.trans hh.symm)
          simp [hg, hfg]
        · simp [hg]

theorem isSome_get?_ofCalls (calls : List Call) (f : FileId) :
    ((ofCalls calls).entries.get? f).isSome ↔ lastPut calls f ≠ [] := by
  rw [get?_ofCalls, isSome_entryOf]

theorem definitionsFor_ofCalls (calls : List Call) (f : FileId) :
    (ofCalls calls).definitionsFor f = Definition.unrepeated (lastPut calls f) := by
  rw [definitionsFor, get?_ofCalls, getD_entryOf, Definition.firstOccurrences_eq_unrepeated]

theorem contributes_ofCalls (calls : List Call) (f : FileId) :
    (ofCalls calls).contributes f = true ↔ lastPut calls f ≠ [] := by
  rw [contributes_eq_isSome, isSome_get?_ofCalls]

theorem mem_files_ofCalls (calls : List Call) (f : FileId) :
    f ∈ (ofCalls calls).files ↔ lastPut calls f ≠ [] :=
  FileMap.mem_keys.trans (isSome_get?_ofCalls calls f)

theorem files_ofCalls_pairwise (calls : List Call) :
    (ofCalls calls).files.Pairwise fun f g => f.cmp g = .lt :=
  List.pairwise_map.mpr (ofCalls_ordered calls)

theorem definitions_ofCalls (calls : List Call) :
    (ofCalls calls).definitions = Definition.unrepeated
      ((ofCalls calls).files.flatMap fun f => Definition.unrepeated (lastPut calls f)) := by
  rw [definitions, Definition.firstOccurrences_eq_unrepeated,
    (ofCalls_ordered calls).values_eq [], List.flatMap_def]
  simp only [← definitionsFor_ofCalls]
  rfl

theorem put_nil_ofCalls (calls : List Call) (f : FileId) :
    (ofCalls calls).put f [] = ofCalls (calls.filter fun c => (c.putFor? f).isNone) := by
  have hlast : (ofCalls calls).put f [] = ofCalls (calls ++ [.put f []]) :=
    (ofCalls_append_singleton calls (.put f [])).symm
  rw [hlast]
  refine ofCalls_congr fun g => ?_
  rw [lastPut_filter, lastPut_put]

/-- A repository is known by the last put for each file since the last reset. So puts for different
files commute, a put that is repeated changes nothing, and after a put of nothing it is as if the
file had never been put. -/
theorem ofCalls_last_puts (calls : List Call) :
    let r := ofCalls calls
    (∀ f, r.definitionsFor f = Definition.unrepeated (lastPut calls f) ∧
      (r.contributes f = true ↔ lastPut calls f ≠ [])) ∧
    (r.files.Pairwise fun f g => f.cmp g = .lt) ∧ (∀ f, f ∈ r.files ↔ lastPut calls f ≠ []) ∧
    r.definitions = Definition.unrepeated
      (r.files.flatMap fun f => Definition.unrepeated (lastPut calls f)) ∧
    (∀ others, (∀ f, lastPut others f = lastPut calls f) → ofCalls others = r) ∧
    (∀ f g ds es, f ≠ g → (r.put f ds).put g es = (r.put g es).put f ds) ∧
    (∀ f ds, (r.put f ds).put f ds = r.put f ds) ∧
    ∀ f, r.put f [] = ofCalls (calls.filter fun c => (c.putFor? f).isNone) := by
  have hordered := ofCalls_ordered calls
  exact ⟨fun f => ⟨definitionsFor_ofCalls calls f, contributes_ofCalls calls f⟩,
    files_ofCalls_pairwise calls, mem_files_ofCalls calls, definitions_ofCalls calls,
    fun _ => ofCalls_congr, fun _ _ ds es hfg => put_comm hordered hfg ds es,
    fun f ds => put_put hordered f ds ds, put_nil_ofCalls calls⟩

end Repository

end StepGlue
