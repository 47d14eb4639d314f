import Mathlib.Data.List.Induction
import StepGlue.Proofs.Marker.Store

/-! Batches of store calls: what is told to the listener, and when.

A file that a call changes is either told or pending, and it stays pending until it is told. With
no batch open nothing is pending, so whoever listens has been told of every change; how the calls
were put into batches decides only when. -/

namespace StepGlue

def StoreCall.isBatch : StoreCall → Bool
  | .beginBatch | .endBatch => true
  | .add _ _ | .delete _ _ => false

namespace MarkerStore

/-- The file that a call changes. A deletion may find nothing to take away. -/
def changes (s : MarkerStore) : StoreCall → List FileId
  | .add f _ => [f]
  | .delete f kinds => if s.removedCount f kinds = 0 then [] else [f]
  | .beginBatch | .endBatch => []

/-- The files that calls change, one after the other. -/
def changesAll (s : MarkerStore) : List StoreCall → List FileId
  | [] => []
  | c :: cs => s.changes c ++ (s.apply c).1.changesAll cs

theorem run_cons (s : MarkerStore) (c : StoreCall) (cs : List StoreCall) :
    s.run (c :: cs) = (((s.apply c).1.run cs).1, (s.apply c).2 ++ ((s.apply c).1.run cs).2) := rfl

theorem run_append (s : MarkerStore) (cs ds : List StoreCall) :
    s.run (cs ++ ds) =
      (((s.run cs).1.run ds).1, (s.run cs).2 ++ ((s.run cs).1.run ds).2) := by
  induction cs generalizing s with
  | nil => rfl
  | cons c cs ih => simp only [List.cons_append, run_cons, ih, List.append_assoc]

theorem removedCount_eq_zero {s : MarkerStore} {f : FileId} {kinds : List MarkerKind} :
    s.removedCount f kinds = 0 ↔ ¬∃ m ∈ s.markersOf f, m.kind ∈ kinds := by
  have hle := List.length_filter_le (fun m : Marker => !kinds.contains m.kind) (s.markersOf f)
  have hall := @List.length_filter_eq_length_iff _ (fun m : Marker => !kinds.contains m.kind)
    (s.markersOf f)
  simp only [removedCount, remaining, Nat.sub_eq_zero_iff_le]
  constructor
  · rintro h ⟨m, hm, hk⟩
    have hh := hall.mp (by omega) m hm
    simp [hk] at hh
  · intro h
    have hh := hall.mpr fun m hm => by simpa using fun hk => h ⟨m, hm, hk⟩
    omega

/-- What a call can do: begin or end a batch, nothing, or change one file and report it. -/
theorem apply_cases (s : MarkerStore) (c : StoreCall) :
    c = .beginBatch ∨ c = .endBatch ∨ (s.changes c = [] ∧ s.apply c = (s, [])) ∨
      ∃ f markers, s.changes c = [f] ∧ s.apply c = changed { s with markers } f := by
  cases c with
  | beginBatch => exact Or.inl rfl
  | endBatch => exact Or.inr (Or.inl rfl)
  | add f m => exact Or.inr (Or.inr (Or.inr ⟨f, _, rfl, rfl⟩))
  | delete f kinds =>
    simp only [apply, delete, changes]
    by_cases hz : s.removedCount f kinds = 0
    · simp [hz]
    · simp only [hz, if_false]
      exact Or.inr (Or.inr (Or.inr ⟨f, _, rfl, rfl⟩))

/-! ### Nothing is lost -/

theorem mem_changed (s : MarkerStore) (f g : FileId) :
    (g ∈ (s.changed f).2.flatten ∨ g ∈ (s.changed f).1.pending) ↔ g ∈ s.pending ∨ g = f := by
  unfold changed
  by_cases hb : s.inBatch = true
  · simp [hb, mem_insertFile, or_comm]
  · simp [hb, or_comm]

/-- After a call, told or pending is what was pending before or has changed. -/
theorem mem_apply (s : MarkerStore) (c : StoreCall) (f : FileId) :
    (f ∈ (s.apply c).2.flatten ∨ f ∈ (s.apply c).1.pending) ↔
      f ∈ s.pending ∨ f ∈ s.changes c := by
  rcases s.apply_cases c with rfl | rfl | ⟨hc, ha⟩ | ⟨g, markers, hc, ha⟩
  · simp [apply, beginBatch, changes]
  · simp only [apply, endBatch, changes]
    split <;> simp
  · simp [hc, ha]
  · rw [hc, ha, List.mem_singleton]
    exact mem_changed _ g f

theorem mem_run (s : MarkerStore) (calls : List StoreCall) (f : FileId) :
    (f ∈ (s.run calls).2.flatten ∨ f ∈ (s.run calls).1.pending) ↔
      f ∈ s.pending ∨ f ∈ s.changesAll calls := by
  induction calls generalizing s with
  | nil => simp [run, changesAll]
  | cons c cs ih =>
    have hstep := s.mem_apply c f
    have hh := ih (s.apply c).1
    simp only [run_cons, changesAll, List.flatten_append, List.mem_append, or_assoc, hh]
    rw [← or_assoc, hstep, or_assoc]

/-- A store holds something back only while a batch is open. -/
def Settled (s : MarkerStore) : Prop := s.depth = 0 → s.pending = []

theorem settled_new : ({} : MarkerStore).Settled := fun _ => rfl

theorem Settled.apply {s : MarkerStore} (h : s.Settled) (c : StoreCall) :
    (s.apply c).1.Settled := by
  rcases s.apply_cases c with rfl | rfl | ⟨-, ha⟩ | ⟨f, markers, -, ha⟩
  · intro hz
    simp [MarkerStore.apply, beginBatch] at hz
  · simp only [MarkerStore.apply, endBatch]
    split
    · next hc =>
      intro hz
      simpa [inBatch, show s.depth - 1 = 0 from hz] using hc
    · exact fun _ => rfl
  · rwa [ha]
  · rw [ha]
    unfold changed
    split
    · next hb =>
      have hd : 0 < s.depth := by simpa [inBatch] using hb
      exact fun hz => absurd hz (Nat.ne_of_gt hd)
    · exact h

theorem Settled.run {s : MarkerStore} (h : s.Settled) (calls : List StoreCall) :
    (s.run calls).1.Settled := by
  induction calls generalizing s with
  | nil => exact h
  | cons c cs ih => exact ih (h.apply c)

theorem Settled.endBatch_surplus {s : MarkerStore} (h : s.Settled) (hz : s.depth = 0) :
    s.endBatch = (s, []) := by
  have hp := h hz
  cases s
  simp_all [endBatch, inBatch]

/-- Once all batches are closed, the files told are the files changed. -/
theorem mem_told_of_closed {s : MarkerStore} (h : s.Settled) (hs : s.depth = 0)
    {calls : List StoreCall} (hd : (s.run calls).1.depth = 0) (f : FileId) :
    f ∈ (s.run calls).2.flatten ↔ f ∈ s.changesAll calls := by
  have hh := s.mem_run calls f
  simpa [h hs, h.run calls hd] using hh

/-! ### Telling in order -/

theorem apply_pairwise {s : MarkerStore} (h : s.pending.Pairwise fun a b => a.cmp b = .lt)
    (c : StoreCall) : (s.apply c).1.pending.Pairwise fun a b => a.cmp b = .lt := by
  rcases s.apply_cases c with rfl | rfl | ⟨-, ha⟩ | ⟨f, markers, -, ha⟩
  · exact h
  · simp only [apply, endBatch]
    split
    · exact h
    · exact List.Pairwise.nil
  · rwa [ha]
  · rw [ha]
    unfold changed
    split
    · exact insertFile_pairwise h f
    · exact h

theorem run_pairwise {s : MarkerStore} (h : s.pending.Pairwise fun a b => a.cmp b = .lt)
    (calls : List StoreCall) :
    (s.run calls).1.pending.Pairwise fun a b => a.cmp b = .lt := by
  induction calls generalizing s with
  | nil => exact h
  | cons c cs ih => exact ih (apply_pairwise h c)

theorem changed_depth (s : MarkerStore) (f : FileId) : (s.changed f).1.depth = s.depth := by
  unfold changed
  split <;> rfl

theorem changed_told {s : MarkerStore} (f : FileId) :
    (s.changed f).2 = if s.depth = 0 then [[f]] else [] := by
  unfold changed
  by_cases hz : s.depth = 0
  · simp [inBatch, hz]
  · simp [inBatch, hz, Nat.pos_of_ne_zero hz]

theorem delete_told (s : MarkerStore) (f : FileId) (kinds : List MarkerKind) :
    (s.delete f kinds).2 =
      if s.depth = 0 ∧ ∃ m ∈ s.markersOf f, m.kind ∈ kinds then [[f]] else [] := by
  unfold delete
  by_cases hz : s.removedCount f kinds = 0
  · have hno := removedCount_eq_zero.mp hz
    simp only [hz, if_true, hno, and_false, if_false]
  · have hyes := Classical.not_not.mp (mt removedCount_eq_zero.mpr hz)
    simp only [hz, if_false, changed_told, hyes, and_true]

/-- Only the begin and the end of a batch change how many are open. -/
theorem apply_depth (s : MarkerStore) {c : StoreCall} (h : c.isBatch = false) :
    (s.apply c).1.depth = s.depth := by
  rcases s.apply_cases c with rfl | rfl | ⟨-, ha⟩ | ⟨f, markers, -, ha⟩
  · cases h
  · cases h
  · rw [ha]
  · rw [ha]
    exact changed_depth _ f

theorem endBatch_depth (s : MarkerStore) : s.endBatch.1.depth = s.depth - 1 := by
  unfold endBatch
  dsimp only
  split <;> rfl

/-- Only the end of the last open batch leaves none open. -/
theorem apply_depth_pos {s : MarkerStore} (h : 0 < s.depth) {c : StoreCall}
    (hend : c = .endBatch → 1 < s.depth) : 0 < (s.apply c).1.depth := by
  cases c with
  | beginBatch => exact Nat.succ_pos _
  | endBatch =>
    have hd := hend rfl
    rw [apply, endBatch_depth]
    omega
  | add f m => rwa [apply_depth s rfl]
  | delete f kinds => rwa [apply_depth s rfl]

/-- A call that leaves a batch open tells nothing. -/
theorem told_of_open {s : MarkerStore} {c : StoreCall} (h : 0 < (s.apply c).1.depth) :
    (s.apply c).2 = [] := by
  rcases s.apply_cases c with rfl | rfl | ⟨-, ha⟩ | ⟨f, markers, -, ha⟩
  · rfl
  · simp only [apply, endBatch] at h ⊢
    split
    · rfl
    · next hc =>
      rw [if_neg hc] at h
      simp only [inBatch, Bool.or_eq_true, decide_eq_true_eq, not_or] at hc
      exact absurd h hc.1
  · rw [ha]
  · rw [ha, changed_depth] at h
    rw [ha, changed_told, if_neg (Nat.ne_of_gt h)]

theorem told_nil_of_open {s : MarkerStore} {calls : List StoreCall}
    (h : ∀ pre, pre <+: calls → 0 < (s.run pre).1.depth) : (s.run calls).2 = [] := by
  induction calls generalizing s with
  | nil => rfl
  | cons c cs ih =>
    have hc : (s.apply c).2 = [] := told_of_open (h [c] (by simp))
    have hcs : ((s.apply c).1.run cs).2 = [] := by
      refine ih fun pre hpre => ?_
      exact h (c :: pre) (List.cons_prefix_cons.mpr ⟨rfl, hpre⟩)
    simp [run_cons, hc, hcs]

/-- The calls of a history since its outermost batch was opened, which is still open. -/
structure OpenSince (calls before inside : List StoreCall) : Prop where
  split : calls = before ++ .beginBatch :: inside
  outermost : (({} : MarkerStore).run before).1.depth = 0
  stays : ∀ pre, pre <+: .beginBatch :: inside → pre ≠ [] →
    0 < (({} : MarkerStore).run (before ++ pre)).1.depth

theorem exists_openSince {calls : List StoreCall}
    (h : 0 < (({} : MarkerStore).run calls).1.depth) :
    ∃ before inside, OpenSince calls before inside := by
  induction calls using List.reverseRecOn with
  | nil => exact absurd h (by decide)
  | append_singleton cs c ih =>
    by_cases hz : (({} : MarkerStore).run cs).1.depth = 0
    · -- only the begin of a batch opens one
      have hlast : 0 < ((({} : MarkerStore).run cs).1.apply c).1.depth := by
        rwa [run_append] at h
      have hc : c = .beginBatch := by
        cases hb : c.isBatch with
        | false =>
          rw [apply_depth _ hb] at hlast
          omega
        | true =>
          cases c with
          | beginBatch => rfl
          | endBatch =>
            rw [apply, endBatch_depth] at hlast
            omega
          | add f m => cases hb
          | delete f kinds => cases hb
      subst hc
      refine ⟨cs, [], rfl, hz, fun pre hpre hne => ?_⟩
      rcases List.prefix_cons_iff.mp hpre with rfl | ⟨t, rfl, ht⟩
      · exact absurd rfl hne
      · rw [List.prefix_nil.mp ht]
        exact h
    · obtain ⟨before, inside, hsplit, hout, hstays⟩ := ih (Nat.pos_of_ne_zero hz)
      refine ⟨before, inside ++ [c], by simp [hsplit], hout, fun pre hpre hne => ?_⟩
      rw [← List.cons_append] at hpre
      rcases List.prefix_concat_iff.mp hpre with rfl | hpre
      · simpa [hsplit] using h
      · exact hstays pre hpre hne

/-- What an open batch holds back is what has changed since it was opened. -/
theorem OpenSince.mem_pending {calls before inside : List StoreCall}
    (h : OpenSince calls before inside) (f : FileId) :
    f ∈ (({} : MarkerStore).run calls).1.pending ↔
      f ∈ (({} : MarkerStore).run before).1.changesAll (.beginBatch :: inside) := by
  let s := (({} : MarkerStore).run before).1.beginBatch
  have hnone : s.pending = [] := settled_new.run before h.outermost
  have hsilent : (s.run inside).2 = [] := by
    refine told_nil_of_open fun pre hpre => ?_
    have hh := h.stays (.beginBatch :: pre) (List.cons_prefix_cons.mpr ⟨rfl, hpre⟩) (by simp)
    rwa [run_append] at hh
  have hrun : (({} : MarkerStore).run calls).1 = (s.run inside).1 := by
    rw [h.split, run_append]
    rfl
  have hh := s.mem_run inside f
  simp only [hsilent, hnone, List.flatten_nil, List.not_mem_nil, false_or] at hh
  rw [hrun, hh]
  rfl

/-! ### Without batches -/

theorem markers_of_isBatch (s : MarkerStore) {c : StoreCall} (h : c.isBatch = true) :
    (s.apply c).1.markers = s.markers := by
  cases c with
  | beginBatch => rfl
  | endBatch => exact endBatch_markers s
  | add f m => cases h
  | delete f kinds => cases h

theorem apply_markers_congr {s t : MarkerStore} (h : s.markers = t.markers) (c : StoreCall) :
    (s.apply c).1.markers = (t.apply c).1.markers ∧ s.changes c = t.changes c := by
  have hof : ∀ f, s.markersOf f = t.markersOf f := fun f => by rw [markersOf, markersOf, h]
  cases c with
  | beginBatch => exact ⟨h, rfl⟩
  | endBatch => exact ⟨(endBatch_markers s).trans (h.trans (endBatch_markers t).symm), rfl⟩
  | add f m => exact ⟨by simp only [apply, add, changed_markers, hof, h], rfl⟩
  | delete f kinds =>
    have hcount : s.removedCount f kinds = t.removedCount f kinds := by
      simp only [removedCount, remaining, hof]
    simp only [apply, delete, changes, hcount, remaining, hof, h]
    by_cases hz : t.removedCount f kinds = 0
    · simp [hz, h]
    · simp [hz, changed_markers]

theorem changesAll_unbatched {s t : MarkerStore} (h : s.markers = t.markers)
    (calls : List StoreCall) :
    s.changesAll (calls.filter (!·.isBatch)) = t.changesAll calls := by
  induction calls generalizing s t with
  | nil => rfl
  | cons c cs ih =>
    cases hb : c.isBatch with
    | true =>
      have hnone : t.changes c = [] := by
        cases c with
        | beginBatch => rfl
        | endBatch => rfl
        | add f m => cases hb
        | delete f kinds => cases hb
      have hh := ih (h.trans (t.markers_of_isBatch hb).symm)
      simpa [List.filter_cons, hb, changesAll, hnone] using hh
    | false =>
      obtain ⟨hmarkers, hsame⟩ := apply_markers_congr h c
      have hh := ih hmarkers
      simpa [List.filter_cons, hb, changesAll, hsame] using hh

theorem effects_unbatched (f : FileId) (calls : List StoreCall) (ms : List Marker) :
    effects f (calls.filter (!·.isBatch)) ms = effects f calls ms := by
  induction calls generalizing ms with
  | nil => rfl
  | cons c cs ih =>
    cases c with
    | beginBatch => exact ih ms
    | endBatch => exact ih ms
    | add g m => exact ih _
    | delete g kinds => exact ih _

theorem depth_unbatched (s : MarkerStore) (calls : List StoreCall) :
    (s.run (calls.filter (!·.isBatch))).1.depth = s.depth := by
  induction calls generalizing s with
  | nil => rfl
  | cons c cs ih =>
    cases hb : c.isBatch with
    | true => simpa [List.filter_cons, hb] using ih s
    | false =>
      have hh := (ih (s.apply c).1).trans (s.apply_depth hb)
      simpa [List.filter_cons, hb, run_cons] using hh

/-! ### Files with markers -/

/-- No file has an empty list of markers. -/
def Filled (s : MarkerStore) : Prop := ∀ f, s.markers.get? f ≠ some []

theorem Filled.apply {s : MarkerStore} (h : s.Filled) (c : StoreCall) : (s.apply c).1.Filled := by
  intro g
  cases c with
  | beginBatch => exact h g
  | endBatch =>
    simp only [MarkerStore.apply, endBatch_markers]
    exact h g
  | add f m =>
    simp only [MarkerStore.apply, MarkerStore.add, changed_markers, FileMap.get?_insert]
    split
    · simp
    · exact h g
  | delete f kinds =>
    simp only [MarkerStore.apply, MarkerStore.delete]
    split
    · exact h g
    · simp only [changed_markers]
      split
      · simp only [FileMap.get?_erase]
        split
        · simp
        · exact h g
      · next hne =>
        simp only [FileMap.get?_insert]
        split
        · simpa using hne
        · exact h g

theorem Filled.run {s : MarkerStore} (h : s.Filled) (calls : List StoreCall) :
    (s.run calls).1.Filled := by
  induction calls generalizing s with
  | nil => exact h
  | cons c cs ih => exact ih (h.apply c)

theorem Filled.mem_files {s : MarkerStore} (h : s.Filled) (f : FileId) :
    f ∈ s.files ↔ s.markersOf f ≠ [] := by
  have hf := h f
  rw [files, FileMap.mem_keys, markersOf]
  cases hm : s.markers.get? f with
  | none => simp
  | some ms => simpa [hm] using hf

/-! ### Balanced calls -/

/-- Calls that end every batch that they begin, and no other. -/
def Balanced (calls : List StoreCall) : Prop :=
  ∀ s : MarkerStore, (s.run calls).1.depth = s.depth

theorem balanced_of_isBatch {calls : List StoreCall} (h : ∀ c ∈ calls, c.isBatch = false) :
    Balanced calls := by
  intro s
  have hall : calls.filter (!·.isBatch) = calls :=
    List.filter_eq_self.mpr fun c hc => by simp [h c hc]
  have hh := s.depth_unbatched calls
  rwa [hall] at hh

theorem balanced_cleaning (f : FileId) : Balanced (cleaning f) := by
  refine balanced_of_isBatch fun c hc => ?_
  rw [List.mem_singleton.mp hc]
  rfl

/-- No batch is open, and nothing is left to tell. -/
structure Quiet (s : MarkerStore) : Prop where
  closed : s.depth = 0
  told : s.pending = []

theorem Quiet.run {s : MarkerStore} (h : s.Quiet) {calls : List StoreCall}
    (hb : Balanced calls) : (s.run calls).1.Quiet := by
  have hsettled : s.Settled := fun _ => h.told
  have hclosed := (hb s).trans h.closed
  exact ⟨hclosed, hsettled.run calls hclosed⟩

theorem Quiet.mem_told {s : MarkerStore} (h : s.Quiet) {calls : List StoreCall}
    (hb : Balanced calls) (f : FileId) :
    f ∈ (s.run calls).2.flatten ↔ f ∈ s.changesAll calls :=
  mem_told_of_closed (fun _ => h.told) h.closed ((hb s).trans h.closed) f

/-! ### Files that calls leave alone -/

theorem about_of_mem_changes {s : MarkerStore} {c : StoreCall} {f : FileId}
    (h : f ∈ s.changes c) : c.isBatch = false ∧ c.About f := by
  cases c with
  | beginBatch => cases h
  | endBatch => cases h
  | add g m => exact ⟨rfl, (List.mem_singleton.mp h).symm⟩
  | delete g kinds =>
    simp only [changes] at h
    split at h
    · cases h
    · exact ⟨rfl, (List.mem_singleton.mp h).symm⟩

theorem exists_of_mem_changesAll {s : MarkerStore} {calls : List StoreCall} {f : FileId}
    (h : f ∈ s.changesAll calls) : ∃ c ∈ calls, c.isBatch = false ∧ c.About f := by
  induction calls generalizing s with
  | nil => cases h
  | cons c cs ih =>
    rcases List.mem_append.mp h with h | h
    · exact ⟨c, List.mem_cons_self, about_of_mem_changes h⟩
    · obtain ⟨d, hd, hf⟩ := ih h
      exact ⟨d, List.mem_cons_of_mem _ hd, hf⟩

theorem markersOf_apply_of_not_mem {s : MarkerStore} {c : StoreCall} {f : FileId}
    (h : f ∉ s.changes c) : (s.apply c).1.markersOf f = s.markersOf f := by
  rw [markersOf_apply]
  cases c with
  | beginBatch => rfl
  | endBatch => rfl
  | add g m =>
    have hg : g ≠ f := fun e => h (e ▸ List.mem_singleton_self g)
    simp [StoreCall.effect, hg]
  | delete g kinds =>
    by_cases hg : g = f
    · subst hg
      have hz : s.removedCount g kinds = 0 := by
        refine Classical.byContradiction fun hz => h ?_
        simp [changes, hz]
      simpa [StoreCall.effect, remaining] using remaining_of_removedCount_eq_zero hz
    · simp [StoreCall.effect, hg]

/-- A file that no call changes keeps its markers. -/
theorem markersOf_run_of_not_mem {s : MarkerStore} {calls : List StoreCall} {f : FileId}
    (h : f ∉ s.changesAll calls) : (s.run calls).1.markersOf f = s.markersOf f := by
  induction calls generalizing s with
  | nil => rfl
  | cons c cs ih =>
    obtain ⟨hc, hcs⟩ := not_or.mp fun hh => h (List.mem_append.mpr hh)
    exact (ih hcs).trans (markersOf_apply_of_not_mem hc)

/-! ### Whole histories -/

/-- How a store that has carried out some calls tells of changes, and what it has told. -/
structure Coalesces (calls : List StoreCall) (s : MarkerStore) (told : List Notification) :
    Prop where
  add_at_once : s.depth = 0 → ∀ f m, (s.add f m).2 = [[f]]
  delete_at_once : s.depth = 0 → ∀ f kinds,
    (s.delete f kinds).2 = if ∃ m ∈ s.markersOf f, m.kind ∈ kinds then [[f]] else []
  silent_inside : 0 < s.depth → ∀ c, (c = .endBatch → 1 < s.depth) → (s.apply c).2 = []
  close_outermost : s.depth = 1 → ∃ before inside files,
    OpenSince calls before inside ∧ files.Pairwise (fun a b => a.cmp b = .lt) ∧
      (∀ f, f ∈ files ↔
        f ∈ (({} : MarkerStore).run before).1.changesAll (.beginBatch :: inside)) ∧
      s.endBatch.1.depth = 0 ∧ s.endBatch.2 = if files = [] then [] else [files]
  surplus_end : s.depth = 0 → s.endBatch = (s, [])
  none_pending : s.depth = 0 → s.pending = []
  same_without_batches : s.depth = 0 →
    let plain := ({} : MarkerStore).run (calls.filter (!·.isBatch))
    ∀ f, plain.1.markersOf f = s.markersOf f ∧ (f ∈ plain.2.flatten ↔ f ∈ told.flatten)
  files_marked : ∀ f, f ∈ s.files ↔ s.markersOf f ≠ []

/-- Notifications of any history of calls are coalesced and never lost. -/
theorem run_coalesces (calls : List StoreCall) :
    Coalesces calls (({} : MarkerStore).run calls).1 (({} : MarkerStore).run calls).2 where
  add_at_once hz f m := by simp only [add, changed_told, hz, if_true]
  delete_at_once hz f kinds := by simp only [delete_told, hz, true_and]
  silent_inside hs c hend := told_of_open (apply_depth_pos hs hend)
  close_outermost h := by
    have hpos : 0 < (({} : MarkerStore).run calls).1.depth := by omega
    obtain ⟨before, inside, hopen⟩ := exists_openSince hpos
    have hsorted := run_pairwise (s := {}) List.Pairwise.nil calls
    refine ⟨before, inside, _, hopen, hsorted, hopen.mem_pending, ?_, ?_⟩
    · rw [endBatch_depth, h]
    · simp only [endBatch, inBatch, h]
      by_cases hp : (({} : MarkerStore).run calls).1.pending = []
      · simp [hp]
      · simp [hp]
  surplus_end hz := (settled_new.run calls).endBatch_surplus hz
  none_pending hz := settled_new.run calls hz
  same_without_batches hz f := by
    have hclosed : (({} : MarkerStore).run (calls.filter (!·.isBatch))).1.depth = 0 :=
      depth_unbatched {} calls
    constructor
    · rw [markersOf_run, markersOf_run, effects_unbatched]
    · rw [mem_told_of_closed settled_new rfl hclosed, mem_told_of_closed settled_new rfl hz,
        changesAll_unbatched rfl]
  files_marked := Filled.mem_files (Filled.run (fun f => by simp) calls)

end MarkerStore

end StepGlue
