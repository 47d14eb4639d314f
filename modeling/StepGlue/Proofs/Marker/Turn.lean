import StepGlue.Proofs.Marker.Batch

/-! What is said to a store about one file at a time.

A build gives each file one turn: its markers are taken off, or are taken off and placed anew in
one batch. Batches in a turn are properly nested, so between two turns the store is quiet, and a
turn tells at most of its own file. -/

namespace StepGlue

/-! ### Nesting -/

/-- The number of open batches after a call. Only a batch that was begun can end, and a marker can
only be added while a batch is open. -/
def StoreCall.nest (n : Nat) : StoreCall → Option Nat
  | .beginBatch => some (n + 1)
  | .endBatch => if n = 0 then none else some (n - 1)
  | .add _ _ => if n = 0 then none else some n
  | .delete _ _ => some n

/-- The number of open batches after some calls, if all of them can be made. -/
def nesting (n : Nat) (calls : List StoreCall) : Option Nat := calls.foldlM StoreCall.nest n

theorem nesting_append (n : Nat) (cs ds : List StoreCall) :
    nesting n (cs ++ ds) = (nesting n cs).bind fun m => nesting m ds :=
  List.foldlM_append

/-- Calls that can be made at any depth and come back to it. -/
def Nested (calls : List StoreCall) : Prop := ∀ n, nesting n calls = some n

theorem nested_nil : Nested [] := fun _ => rfl

theorem Nested.append {cs ds : List StoreCall} (hc : Nested cs) (hd : Nested ds) :
    Nested (cs ++ ds) := by
  intro n
  rw [nesting_append, hc n]
  exact hd n

theorem nested_flatMap {α : Type} {calls : α → List StoreCall} {l : List α}
    (h : ∀ a ∈ l, Nested (calls a)) : Nested (l.flatMap calls) := by
  induction l with
  | nil => exact nested_nil
  | cons a l ih =>
    have hl := ih fun b hb => h b (List.mem_cons_of_mem _ hb)
    exact (h a List.mem_cons_self).append hl

/-- Inside a batch calls have at least that one open. -/
theorem nested_inBatch {calls : List StoreCall}
    (h : ∀ n, nesting (n + 1) calls = some (n + 1)) : Nested (inBatch calls) := by
  intro n
  have hbody : nesting n (inBatch calls) = (nesting (n + 1) calls).bind
      fun m => nesting m [.endBatch] := nesting_append (n + 1) calls [.endBatch]
  rw [hbody, h n]
  rfl

theorem nested_placing (f : FileId) (m : Option Marker) : Nested (placing f m) := by
  refine nested_inBatch fun n => ?_
  cases m with
  | none => rfl
  | some m => rfl

theorem nested_cleaning (f : FileId) : Nested (cleaning f) := fun _ => rfl

namespace MarkerStore

theorem apply_of_nest {s : MarkerStore} {c : StoreCall} {n m k : Nat} (h : c.nest n = some m)
    (hs : s.depth = n + k) : (s.apply c).1.depth = m + k := by
  cases c with
  | beginBatch =>
    obtain rfl : n + 1 = m := Option.some.inj h
    change s.depth + 1 = n + 1 + k
    omega
  | endBatch =>
    simp only [StoreCall.nest, Option.ite_none_left_eq_some, Option.some.injEq] at h
    rw [apply, endBatch_depth]
    omega
  | add f a =>
    simp only [StoreCall.nest, Option.ite_none_left_eq_some, Option.some.injEq] at h
    rw [apply_depth s rfl]
    omega
  | delete f kinds =>
    obtain rfl : n = m := Option.some.inj h
    rw [apply_depth s rfl]
    exact hs

/-- Calls that can be made from some depth on leave the batches below alone, and while there are
any, nothing is told. -/
theorem run_of_nesting {s : MarkerStore} {calls : List StoreCall} {n m k : Nat}
    (h : nesting n calls = some m) (hs : s.depth = n + k) :
    (s.run calls).1.depth = m + k ∧ (0 < k → (s.run calls).2 = []) := by
  induction calls generalizing s n with
  | nil =>
    obtain rfl : n = m := Option.some.inj h
    exact ⟨hs, fun _ => rfl⟩
  | cons c cs ih =>
    obtain ⟨i, hc, hcs⟩ := Option.bind_eq_some_iff.mp h
    have hd := apply_of_nest hc hs
    obtain ⟨hdepth, htold⟩ := ih hcs hd
    refine ⟨hdepth, fun hk => ?_⟩
    have hfirst : (s.apply c).2 = [] := told_of_open (by omega)
    rw [run_cons, hfirst, htold hk]
    rfl

theorem changesAll_append (s : MarkerStore) (cs ds : List StoreCall) :
    s.changesAll (cs ++ ds) = s.changesAll cs ++ (s.run cs).1.changesAll ds := by
  induction cs generalizing s with
  | nil => rfl
  | cons c cs ih => simp only [List.cons_append, changesAll, ih, run_cons, List.append_assoc]

/-- Calls about one file change no other. -/
theorem eq_of_mem_changesAll {s : MarkerStore} {calls : List StoreCall} {f g : FileId}
    (h : ∀ c ∈ calls, c.About f) (hg : g ∈ s.changesAll calls) : g = f := by
  obtain ⟨c, hc, hreal, hcg⟩ := exists_of_mem_changesAll hg
  have hcf := h c hc
  cases c with
  | beginBatch => cases hreal
  | endBatch => cases hreal
  | add k m => exact (show k = g from hcg).symm.trans hcf
  | delete k kinds => exact (show k = g from hcg).symm.trans hcf

/-- What a batch around calls about one file has to tell is that file, or nothing. -/
theorem Quiet.told_inBatch {s : MarkerStore} (h : s.Quiet) {calls : List StoreCall} {f : FileId}
    (hn : Nested calls) (habout : ∀ c ∈ calls, c.About f) :
    (s.run (StepGlue.inBatch calls)).2.Sublist [[f]] := by
  let t := (s.beginBatch.run calls).1
  have hone : s.beginBatch.depth = 0 + 1 := congrArg (· + 1) h.closed
  obtain ⟨hdepth, hsilent⟩ := run_of_nesting (hn 0) hone
  have htold : (s.run (StepGlue.inBatch calls)).2 = t.endBatch.2 := by
    simp only [StepGlue.inBatch, run_cons, run_append]
    change [] ++ ((s.beginBatch.run calls).2 ++ (t.endBatch.2 ++ [])) = _
    rw [hsilent Nat.one_pos]
    simp
  have hpending : ∀ g ∈ t.pending, g = f := by
    intro g hg
    have hg := (s.beginBatch.mem_run calls g).mp (Or.inr hg)
    rw [show s.beginBatch.pending = [] from h.told] at hg
    exact eq_of_mem_changesAll habout (hg.resolve_left List.not_mem_nil)
  have hsorted : t.pending.Pairwise fun a b => a.cmp b = .lt := by
    refine run_pairwise (s := s.beginBatch) ?_ calls
    rw [show s.beginBatch.pending = [] from h.told]
    exact List.Pairwise.nil
  rw [htold]
  unfold endBatch
  dsimp only
  split
  · exact List.nil_sublist _
  · -- a list in ascending order has no room for one file twice
    cases hp : t.pending with
    | nil => simp_all
    | cons a rest =>
      rw [hp] at hpending hsorted
      obtain rfl := hpending a List.mem_cons_self
      cases rest with
      | nil => exact List.Sublist.refl _
      | cons b rest =>
        have hlt := (List.pairwise_cons.mp hsorted).1 b List.mem_cons_self
        rw [hpending b (by simp)] at hlt
        exact absurd hlt (FileId.cmp_lt_irrefl a)

end MarkerStore

theorem Nested.balanced {calls : List StoreCall} (h : Nested calls) :
    MarkerStore.Balanced calls := by
  intro s
  have hh := (MarkerStore.run_of_nesting (h 0) (Nat.zero_add s.depth).symm).1
  rwa [Nat.zero_add] at hh

/-! ### Turns -/

/-- Calls that place markers on a file one after the other. -/
def Placings (f : FileId) (calls : List StoreCall) : Prop :=
  ∃ ms : List (Option Marker), calls = ms.flatMap (placing f)

theorem placings_nil (f : FileId) : Placings f [] := ⟨[], rfl⟩

theorem placings_placing (f : FileId) (m : Option Marker) : Placings f (placing f m) :=
  ⟨[m], by simp⟩

theorem Placings.append {f : FileId} {cs ds : List StoreCall} (hc : Placings f cs)
    (hd : Placings f ds) : Placings f (cs ++ ds) := by
  obtain ⟨ms, rfl⟩ := hc
  obtain ⟨ns, rfl⟩ := hd
  exact ⟨ms ++ ns, List.flatMap_append.symm⟩

theorem placings_flatMap {α : Type} {f : FileId} {calls : α → List StoreCall} {l : List α}
    (h : ∀ a ∈ l, Placings f (calls a)) : Placings f (l.flatMap calls) := by
  induction l with
  | nil => exact placings_nil f
  | cons a l ih =>
    have hl := ih fun b hb => h b (List.mem_cons_of_mem _ hb)
    exact (h a List.mem_cons_self).append hl

theorem Placings.nested {f : FileId} {calls : List StoreCall} (h : Placings f calls) :
    Nested calls := by
  obtain ⟨ms, rfl⟩ := h
  exact nested_flatMap fun m _ => nested_placing f m

theorem Placings.about {f : FileId} {calls : List StoreCall} (h : Placings f calls) :
    ∀ c ∈ calls, c.About f := by
  obtain ⟨ms, rfl⟩ := h
  exact about_flatMap fun m _ => about_placing f m

/-- Placing markers tells of a file only if it leaves some. -/
theorem Placings.effects_ne_nil {f : FileId} {calls : List StoreCall} (h : Placings f calls)
    {s : MarkerStore} {g : FileId} (hg : g ∈ s.changesAll calls) (ms : List Marker) :
    effects f calls ms ≠ [] := by
  obtain ⟨placed, rfl⟩ := h
  obtain ⟨c, hc, hreal, -⟩ := MarkerStore.exists_of_mem_changesAll hg
  obtain ⟨m, hm, hc⟩ := List.mem_flatMap.mp hc
  have hsome : m.isSome := by
    cases m with
    | none =>
      rcases List.mem_cons.mp hc with rfl | hc
      · cases hreal
      · rw [List.mem_singleton.mp hc] at hreal
        cases hreal
    | some m => rfl
  obtain ⟨m, rfl⟩ := Option.isSome_iff_exists.mp hsome
  rw [effects_flatMap_of_appends (fun m ms => effects_placing f m ms)]
  have hmem : m ∈ ms ++ placed.flatMap Option.toList :=
    List.mem_append_right _ (List.mem_flatMap.mpr ⟨some m, hm, by simp⟩)
  exact List.ne_nil_of_mem hmem

/-- What a build can have to say about one file: nothing, that its markers go, or, in one batch,
that its markers are made anew. -/
inductive FileTurn (f : FileId) : List StoreCall → Prop
  | idle : FileTurn f []
  | clean : FileTurn f (cleaning f)
  | renew {calls : List StoreCall} (h : Placings f calls) : FileTurn f (inBatch (cleaning f ++ calls))

namespace FileTurn

variable {f : FileId} {calls : List StoreCall}

theorem nested (h : FileTurn f calls) : Nested calls := by
  cases h with
  | idle => exact nested_nil
  | clean => exact nested_cleaning f
  | renew hp =>
    have hbody := (nested_cleaning f).append hp.nested
    exact nested_inBatch fun n => hbody (n + 1)

theorem about (h : FileTurn f calls) : ∀ c ∈ calls, c.About f := by
  cases h with
  | idle => simp
  | clean => exact about_cleaning f
  | renew hp => exact about_inBatch (about_append (about_cleaning f) hp.about)

theorem told_sublist (h : FileTurn f calls) {s : MarkerStore} (hq : s.Quiet) :
    (s.run calls).2.Sublist [[f]] := by
  cases h with
  | idle => exact List.nil_sublist _
  | clean =>
    have hrun : (s.run (cleaning f)).2 = (s.delete f MarkerKind.all).2 := List.append_nil _
    rw [hrun, MarkerStore.delete_told]
    split
    · exact List.Sublist.refl _
    · exact List.nil_sublist _
  | renew hp =>
    exact hq.told_inBatch ((nested_cleaning f).append hp.nested)
      (about_append (about_cleaning f) hp.about)

/-- A turn tells of its file only if the file had markers or has got some. -/
theorem marked_of_told (h : FileTurn f calls) {s : MarkerStore} (hq : s.Quiet)
    (ht : f ∈ (s.run calls).2.flatten) :
    s.markersOf f ≠ [] ∨ (s.run calls).1.markersOf f ≠ [] := by
  rw [hq.mem_told h.nested.balanced] at ht
  have hdelete : ∀ {t : MarkerStore}, f ∈ t.changesAll (cleaning f) → t.markersOf f ≠ [] := by
    intro t hf hnone
    have hz : t.removedCount f MarkerKind.all = 0 :=
      MarkerStore.removedCount_eq_zero.mpr (by simp [hnone])
    simp [cleaning, MarkerStore.changesAll, MarkerStore.changes, hz] at hf
  cases h with
  | idle => cases ht
  | clean => exact Or.inl (hdelete ht)
  | @renew calls hp =>
    have hchanges : f ∈ s.beginBatch.changesAll (cleaning f) ∨
        f ∈ (s.beginBatch.run (cleaning f)).1.changesAll calls := by
      have hall : s.changesAll (inBatch (cleaning f ++ calls)) =
          s.beginBatch.changesAll (cleaning f ++ calls ++ [.endBatch]) := rfl
      rw [hall, MarkerStore.changesAll_append, MarkerStore.changesAll_append] at ht
      have hend : ∀ t : MarkerStore, t.changesAll [.endBatch] = [] := fun _ => rfl
      rwa [hend, List.append_nil, List.mem_append] at ht
    rcases hchanges with hc | hc
    · exact Or.inl (hdelete hc)
    · right
      rw [MarkerStore.markersOf_run, effects_inBatch, effects_append]
      exact hp.effects_ne_nil hc _

end FileTurn

/-! ### Turns of many files -/

namespace MarkerStore

variable {l : List (FileId × List StoreCall)}

/-- Turns of different files tell of the files in their order, of each at most once. -/
theorem Quiet.told_turns {s : MarkerStore} (h : s.Quiet) (hl : ∀ a ∈ l, FileTurn a.1 a.2) :
    (s.run (l.flatMap (·.2))).2.Sublist (l.map fun a => [a.1]) := by
  induction l generalizing s with
  | nil => exact List.Sublist.refl _
  | cons a l ih =>
    have ha := hl a List.mem_cons_self
    have hrest := ih (h.run ha.nested.balanced) fun b hb => hl b (List.mem_cons_of_mem _ hb)
    rw [List.flatMap_cons, run_append]
    exact (ha.told_sublist h).append hrest

/-- Of turns of different files, only those tell of a file that find markers on it or leave
some. -/
theorem Quiet.marked_of_told_turns {s : MarkerStore} (h : s.Quiet)
    (hl : ∀ a ∈ l, FileTurn a.1 a.2) (hnd : (l.map (·.1)).Nodup) {f : FileId}
    (hf : f ∈ (s.run (l.flatMap (·.2))).2.flatten) :
    s.markersOf f ≠ [] ∨ (s.run (l.flatMap (·.2))).1.markersOf f ≠ [] := by
  induction l generalizing s with
  | nil => cases hf
  | cons a l ih =>
    obtain ⟨ha, hnd⟩ := List.nodup_cons.mp hnd
    have hfirst := hl a List.mem_cons_self
    have hrest : ∀ b ∈ l, FileTurn b.1 b.2 := fun b hb => hl b (List.mem_cons_of_mem _ hb)
    have hq := h.run hfirst.nested.balanced
    rw [List.flatMap_cons, run_append] at hf ⊢
    rcases List.mem_append.mp (List.flatten_append ▸ hf) with hf | hf
    · obtain rfl : f = a.1 :=
        eq_of_mem_changesAll hfirst.about ((h.mem_told hfirst.nested.balanced f).mp hf)
      refine (hfirst.marked_of_told h hf).imp_right fun hafter => ?_
      dsimp only
      rw [markersOf_run, effects_flatMap_of_absent (·.1) (fun b hb => (hrest b hb).about)
        fun b hb e => ha (List.mem_map.mpr ⟨b, hb, e⟩)]
      exact hafter
    · have hne : a.1 ≠ f := by
        rintro rfl
        have hsub := hq.told_turns hrest
        obtain ⟨n, hn, hfn⟩ := List.mem_flatten.mp hf
        obtain ⟨b, hb, rfl⟩ := List.mem_map.mp (hsub.subset hn)
        exact ha (List.mem_map.mpr ⟨b, hb, (List.mem_singleton.mp hfn).symm⟩)
      have hsame : (s.run a.2).1.markersOf f = s.markersOf f := by
        rw [markersOf_run, effects_of_about hfirst.about hne]
      have hh := ih hq hrest hnd hf
      rwa [hsame] at hh

end MarkerStore

end StepGlue
