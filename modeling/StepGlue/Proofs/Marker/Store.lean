import StepGlue.Marker.Report
import StepGlue.Proofs.FileMap

/-! What a list of store calls does to the markers of one file. Calls that name other files have
no say, and batches only decide when a listener is told. -/

namespace StepGlue

/-- What a call makes of the markers of a file. -/
def StoreCall.effect (f : FileId) : StoreCall → List Marker → List Marker
  | .add g m, ms => if g = f then ms ++ [m] else ms
  | .delete g kinds, ms => if g = f then ms.filter fun m => !kinds.contains m.kind else ms
  | .beginBatch, ms | .endBatch, ms => ms

/-- What calls make of the markers of a file, one after the other. -/
def effects (f : FileId) (calls : List StoreCall) (ms : List Marker) : List Marker :=
  calls.foldl (fun ms c => c.effect f ms) ms

@[simp] theorem effects_nil (f : FileId) (ms : List Marker) : effects f [] ms = ms := rfl

@[simp] theorem effects_append (f : FileId) (cs ds : List StoreCall) (ms : List Marker) :
    effects f (cs ++ ds) ms = effects f ds (effects f cs ms) := by
  simp [effects]

namespace MarkerStore

theorem changed_markers (s : MarkerStore) (f : FileId) : (s.changed f).1.markers = s.markers := by
  unfold changed
  split <;> rfl

theorem markersOf_changed (s : MarkerStore) (f g : FileId) :
    (s.changed f).1.markersOf g = s.markersOf g := by
  simp only [markersOf, changed_markers]

theorem markersOf_add (s : MarkerStore) (f g : FileId) (m : Marker) :
    (s.add g m).1.markersOf f = if g = f then s.markersOf f ++ [m] else s.markersOf f := by
  simp only [add, markersOf_changed]
  by_cases hg : g = f
  · subst hg
    simp [markersOf]
  · simp [markersOf, hg]

theorem remaining_of_removedCount_eq_zero {s : MarkerStore} {f : FileId} {kinds : List MarkerKind}
    (h : s.removedCount f kinds = 0) : s.remaining f kinds = s.markersOf f := by
  unfold removedCount remaining at *
  have hle := List.length_filter_le (fun m : Marker => !kinds.contains m.kind) (s.markersOf f)
  exact List.filter_eq_self.mpr (List.length_filter_eq_length_iff.mp (by omega))

theorem markersOf_delete (s : MarkerStore) (f g : FileId) (kinds : List MarkerKind) :
    (s.delete g kinds).1.markersOf f =
      if g = f then (s.markersOf f).filter fun m => !kinds.contains m.kind else s.markersOf f := by
  unfold delete
  split
  · next h =>
    by_cases hg : g = f
    · subst hg
      simpa [remaining] using (remaining_of_removedCount_eq_zero h).symm
    · simp [hg]
  · rw [markersOf_changed]
    by_cases hg : g = f
    · subst hg
      change _ = if g = g then s.remaining g kinds else _
      rw [if_pos rfl]
      cases hr : s.remaining g kinds <;> simp [markersOf]
    · cases hr : s.remaining g kinds <;> simp [markersOf, hg]

theorem endBatch_markers (s : MarkerStore) : s.endBatch.1.markers = s.markers := by
  unfold endBatch
  dsimp only
  split <;> rfl

theorem markersOf_apply (s : MarkerStore) (c : StoreCall) (f : FileId) :
    (s.apply c).1.markersOf f = c.effect f (s.markersOf f) := by
  cases c with
  | beginBatch => rfl
  | endBatch => simp only [apply, StoreCall.effect, markersOf, endBatch_markers]
  | add g m => exact markersOf_add s f g m
  | delete g kinds => exact markersOf_delete s f g kinds

theorem markersOf_run (s : MarkerStore) (calls : List StoreCall) (f : FileId) :
    (s.run calls).1.markersOf f = effects f calls (s.markersOf f) := by
  induction calls generalizing s with
  | nil => rfl
  | cons c cs ih =>
    have hh := ih (s.apply c).1
    rw [markersOf_apply] at hh
    exact hh

end MarkerStore

/-- The call names no file but the given one. -/
def StoreCall.About (f : FileId) : StoreCall → Prop
  | .add g _ | .delete g _ => g = f
  | .beginBatch | .endBatch => True

theorem StoreCall.About.effect_eq {f g : FileId} {c : StoreCall} (h : c.About g) (hg : g ≠ f)
    (ms : List Marker) : c.effect f ms = ms := by
  cases c with
  | beginBatch => rfl
  | endBatch => rfl
  | add k m =>
    have hk : k = g := h
    simp [effect, hk, hg]
  | delete k kinds =>
    have hk : k = g := h
    simp [effect, hk, hg]

theorem effects_of_about {f g : FileId} {calls : List StoreCall} (h : ∀ c ∈ calls, c.About g)
    (hg : g ≠ f) (ms : List Marker) : effects f calls ms = ms := by
  induction calls generalizing ms with
  | nil => rfl
  | cons c cs ih =>
    have hc := (h c List.mem_cons_self).effect_eq hg ms
    change effects f cs (c.effect f ms) = ms
    rw [hc]
    exact ih (fun d hd => h d (List.mem_cons_of_mem _ hd)) ms

section Families

variable {α : Type} {calls : α → List StoreCall} {l : List α} {f : FileId} (key : α → FileId)

theorem effects_flatMap_of_absent (habout : ∀ a ∈ l, ∀ c ∈ calls a, c.About (key a))
    (hf : ∀ a ∈ l, key a ≠ f) (ms : List Marker) : effects f (l.flatMap calls) ms = ms := by
  induction l generalizing ms with
  | nil => rfl
  | cons a l ih =>
    rw [List.flatMap_cons, effects_append,
      effects_of_about (habout a List.mem_cons_self) (hf a List.mem_cons_self)]
    exact ih (fun b hb => habout b (List.mem_cons_of_mem _ hb))
      (fun b hb => hf b (List.mem_cons_of_mem _ hb)) ms

/-- Of calls grouped by the files that they are about, a file sees only its own group. -/
theorem effects_flatMap_of_mem (habout : ∀ a ∈ l, ∀ c ∈ calls a, c.About (key a))
    (hnd : (l.map key).Nodup) {a : α} (ha : a ∈ l) (ms : List Marker) :
    effects (key a) (l.flatMap calls) ms = effects (key a) (calls a) ms := by
  induction l generalizing ms with
  | nil => simp at ha
  | cons b l ih =>
    obtain ⟨hb, hnd⟩ := List.nodup_cons.mp hnd
    rw [List.flatMap_cons, effects_append]
    have htail : ∀ c ∈ l, ∀ d ∈ calls c, d.About (key c) :=
      fun c hc => habout c (List.mem_cons_of_mem _ hc)
    rcases List.mem_cons.mp ha with rfl | ha
    · exact effects_flatMap_of_absent key htail
        (fun c hc e => hb (List.mem_map.mpr ⟨c, hc, e⟩)) _
    · have hne : key b ≠ key a := fun e => hb (List.mem_map.mpr ⟨a, ha, e.symm⟩)
      rw [effects_of_about (habout b List.mem_cons_self) hne]
      exact ih htail hnd ha ms

end Families

@[simp] theorem effects_inBatch (f : FileId) (calls : List StoreCall) (ms : List Marker) :
    effects f (inBatch calls) ms = effects f calls ms := by
  simp [inBatch, effects, StoreCall.effect]

@[simp] theorem effects_placing (f : FileId) (m : Option Marker) (ms : List Marker) :
    effects f (placing f m) ms = ms ++ m.toList := by
  cases m <;> simp [placing, effects, StoreCall.effect, inBatch]

theorem MarkerKind.mem_all (k : MarkerKind) : k ∈ MarkerKind.all := by
  cases k <;> decide

@[simp] theorem effects_cleaning (f : FileId) (ms : List Marker) :
    effects f (cleaning f) ms = [] := by
  simp [cleaning, effects, StoreCall.effect, MarkerKind.mem_all]

theorem effects_flatMap_cleaning (f : FileId) (l : List FileId) (ms : List Marker) :
    effects f (l.flatMap cleaning) ms = if f ∈ l then [] else ms := by
  induction l generalizing ms with
  | nil => rfl
  | cons g l ih =>
    rw [List.flatMap_cons, effects_append, ih]
    by_cases hg : g = f
    · subst hg
      simp
    · have hclean : effects f (cleaning g) ms = ms := by
        simp [cleaning, effects, StoreCall.effect, hg]
      simp [hclean, Ne.symm hg]

/-- Groups of calls that each add markers at the end add them all, in the order of the groups. -/
theorem effects_flatMap_of_appends {α : Type} {f : FileId} {calls : α → List StoreCall}
    {added : α → List Marker} (h : ∀ a ms, effects f (calls a) ms = ms ++ added a) (l : List α)
    (ms : List Marker) : effects f (l.flatMap calls) ms = ms ++ l.flatMap added := by
  induction l generalizing ms with
  | nil => simp
  | cons a l ih => rw [List.flatMap_cons, effects_append, ih, h, List.flatMap_cons,
      List.append_assoc]

theorem about_inBatch {f : FileId} {calls : List StoreCall} (h : ∀ c ∈ calls, c.About f) :
    ∀ c ∈ inBatch calls, c.About f := by
  intro c hc
  simp only [inBatch, List.mem_cons, List.mem_append, List.not_mem_nil, or_false] at hc
  rcases hc with rfl | hc | rfl
  · trivial
  · exact h c hc
  · trivial

theorem about_placing (f : FileId) (m : Option Marker) : ∀ c ∈ placing f m, c.About f := by
  apply about_inBatch
  intro c hc
  obtain ⟨m, -, rfl⟩ := List.mem_map.mp hc
  rfl

theorem about_cleaning (f : FileId) : ∀ c ∈ cleaning f, c.About f := by
  intro c hc
  rw [List.mem_singleton.mp hc]
  rfl

theorem about_append {f : FileId} {cs ds : List StoreCall} (hc : ∀ c ∈ cs, c.About f)
    (hd : ∀ c ∈ ds, c.About f) : ∀ c ∈ cs ++ ds, c.About f :=
  fun c h => (List.mem_append.mp h).elim (hc c) (hd c)

theorem about_flatMap {α : Type} {f : FileId} {calls : α → List StoreCall} {l : List α}
    (h : ∀ a ∈ l, ∀ c ∈ calls a, c.About f) : ∀ c ∈ l.flatMap calls, c.About f := by
  intro c hc
  obtain ⟨a, ha, hc⟩ := List.mem_flatMap.mp hc
  exact h a ha c hc

end StepGlue
