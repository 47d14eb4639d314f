import Mathlib.Data.Fintype.Pigeonhole
import StepGlue.Regex.Search

/-! The search finds exactly what the expression spans.

The search holds sets of places. A repetition without a bound is cut off after as many rounds as
the text has places; nothing is lost, because a way through the text that comes back to a place
can be cut short there. -/

namespace StepGlue.Regex

theorem mem_mergePlaces {a b : List Nat} {i : Nat} :
    i ∈ mergePlaces a b ↔ i ∈ a ∨ i ∈ b := by
  fun_induction mergePlaces a b with
  | case1 b => simp
  | case2 a _ => simp
  | case3 k a l b h ih =>
    simp only [List.mem_cons, ih]
    grind
  | case4 k a l b h h' ih =>
    simp only [List.mem_cons, ih]
    grind
  | case5 k a l b h h' ih =>
    have hkl : k = l := by omega
    simp only [List.mem_cons, ih, hkl]
    grind

theorem mem_of_mem_freshPlaces {a b : List Nat} {i : Nat} (h : i ∈ freshPlaces a b) : i ∈ a := by
  fun_induction freshPlaces a b with
  | case1 b => exact h
  | case2 a _ => exact h
  | case3 k a l b _ ih =>
    rcases List.mem_cons.mp h with rfl | h
    · exact List.mem_cons_self
    · exact List.mem_cons_of_mem _ (ih h)
  | case4 k a l b _ _ ih => exact ih h
  | case5 k a l b _ _ ih => exact List.mem_cons_of_mem _ (ih h)

theorem mem_freshPlaces {a b : List Nat} {i : Nat} (ha : i ∈ a) (hb : i ∉ b) :
    i ∈ freshPlaces a b := by
  fun_induction freshPlaces a b with
  | case1 b => exact ha
  | case2 a _ => exact ha
  | case3 k a l b _ ih =>
    rcases List.mem_cons.mp ha with rfl | ha
    · exact List.mem_cons_self
    · exact List.mem_cons_of_mem _ (ih ha hb)
  | case4 k a l b _ _ ih => exact ih ha fun h => hb (List.mem_cons_of_mem _ h)
  | case5 k a l b h h' ih =>
    have hne : i ≠ k := by
      rintro rfl
      exact hb (List.mem_cons.mpr (Or.inl (by omega)))
    exact ih ((List.mem_cons.mp ha).resolve_left hne) fun h => hb (List.mem_cons_of_mem _ h)

/-- A number of steps of a relation on places. -/
def Steps (r : Nat → Nat → Prop) : Nat → Nat → Nat → Prop
  | 0, i, j => i = j
  | n + 1, i, j => ∃ k, r i k ∧ Steps r n k j

theorem Steps.add {r : Nat → Nat → Prop} {m n i j : Nat} :
    Steps r (m + n) i j ↔ ∃ k, Steps r m i k ∧ Steps r n k j := by
  induction m generalizing i with
  | zero => simp [Steps]
  | succ m ih =>
    rw [Nat.succ_add]
    constructor
    · rintro ⟨k, hk, hh⟩
      obtain ⟨l, hl, hj⟩ := ih.mp hh
      exact ⟨l, ⟨k, hk, hl⟩, hj⟩
    · rintro ⟨l, ⟨k, hk, hl⟩, hj⟩
      exact ⟨k, hk, ih.mpr ⟨l, hl, hj⟩⟩

theorem Steps.le {r : Nat → Nat → Prop} {size : Nat} (hr : ∀ i j, i ≤ size → r i j → j ≤ size)
    {n i j : Nat} (hi : i ≤ size) (h : Steps r n i j) : j ≤ size := by
  induction n generalizing i with
  | zero => exact h ▸ hi
  | succ n ih =>
    obtain ⟨k, hk, hh⟩ := h
    exact ih (hr i k hi hk) hh

/-- Among a limited number of places, a long way is as good as a short one. -/
theorem Steps.shorten {r : Nat → Nat → Prop} {size : Nat}
    (hr : ∀ i j, i ≤ size → r i j → j ≤ size) {n i j : Nat} (hi : i ≤ size) (h : Steps r n i j) :
    ∃ m ≤ size, Steps r m i j := by
  induction n using Nat.strong_induction_on with
  | _ n ih =>
    by_cases hn : n ≤ size
    · exact ⟨n, hn, h⟩
    · have hsplit : ∀ t : Fin (n + 1), ∃ k : Fin (size + 1),
          Steps r t i k ∧ Steps r (n - t) k j := by
        intro t
        have ht : (t : Nat) + (n - t) = n := by omega
        rw [← ht] at h
        obtain ⟨k, hk, hj⟩ := Steps.add.mp h
        exact ⟨⟨k, Nat.lt_succ_of_le (Steps.le hr hi hk)⟩, hk, hj⟩
      choose place hplace using hsplit
      obtain ⟨s, t, hne, heq⟩ :=
        Fintype.exists_ne_map_eq_of_card_lt place (by simp only [Fintype.card_fin]; omega)
      -- the way from the first visit to the second is left out
      have hcut : ∀ s t : Fin (n + 1), (s : Nat) < t → place s = place t →
          ∃ m < n, Steps r m i j := by
        intro s t hst he
        have ht := (hplace t).2
        rw [← he] at ht
        exact ⟨s + (n - t), by omega, Steps.add.mpr ⟨_, (hplace s).1, ht⟩⟩
      have hshort : ∃ m < n, Steps r m i j := by
        rcases Nat.lt_or_gt_of_ne (fun e => hne (Fin.ext e)) with hst | hst
        · exact hcut s t hst heq
        · exact hcut t s hst heq.symm
      obtain ⟨m, hm, hh⟩ := hshort
      exact ih m hm hh

section Sets

/-- A step on sets of places that follows a relation, at least where places are. -/
def Follows (size : Nat) (step : List Nat → List Nat) (r : Nat → Nat → Prop) : Prop :=
  ∀ s, (∀ i ∈ s, i ≤ size) → ∀ j, j ∈ step s ↔ ∃ i ∈ s, r i j

variable {size : Nat} {step : List Nat → List Nat} {r : Nat → Nat → Prop}
  (hstep : Follows size step r) (hr : ∀ i j, i ≤ size → r i j → j ≤ size)

include hstep hr

theorem mem_iterate {n : Nat} {s : List Nat} (hs : ∀ i ∈ s, i ≤ size) {j : Nat} :
    j ∈ iterate step n s ↔ ∃ i ∈ s, Steps r n i j := by
  induction n generalizing s with
  | zero => simp [iterate, Steps]
  | succ n ih =>
    unfold iterate
    split
    · next he => simp [List.isEmpty_iff.mp he]
    · have hs' : ∀ i ∈ step s, i ≤ size := by
        intro i hi
        obtain ⟨k, hk, hki⟩ := (hstep s hs i).mp hi
        exact hr k i (hs k hk) hki
      rw [ih hs']
      constructor
      · rintro ⟨k, hk, hj⟩
        obtain ⟨i, hi, hik⟩ := (hstep s hs k).mp hk
        exact ⟨i, hi, k, hik, hj⟩
      · rintro ⟨i, hi, k, hik, hj⟩
        exact ⟨k, (hstep s hs k).mpr ⟨i, hi, hik⟩, hj⟩

theorem reach_sound {n : Nat} {seen last : List Nat} (hlast : ∀ i ∈ last, i ≤ size) {j : Nat}
    (h : j ∈ reach step n seen last) : j ∈ seen ∨ ∃ k ≤ n, ∃ i ∈ last, Steps r k i j := by
  induction n generalizing seen last with
  | zero => exact Or.inl h
  | succ n ih =>
    unfold reach at h
    dsimp only at h
    split at h
    · exact Or.inl h
    · have hfresh : ∀ i ∈ freshPlaces (step last) seen, ∃ k ∈ last, r k i :=
        fun i hi => (hstep last hlast i).mp (mem_of_mem_freshPlaces hi)
      have hle : ∀ i ∈ freshPlaces (step last) seen, i ≤ size := by
        intro i hi
        obtain ⟨k, hk, hki⟩ := hfresh i hi
        exact hr k i (hlast k hk) hki
      rcases ih hle h with hj | ⟨k, hk, i, hi, hj⟩
      · rcases mem_mergePlaces.mp hj with hj | hj
        · exact Or.inl hj
        · obtain ⟨i, hi, hij⟩ := hfresh j hj
          exact Or.inr ⟨1, by omega, i, hi, j, hij, rfl⟩
      · obtain ⟨l, hl, hli⟩ := hfresh i hi
        exact Or.inr ⟨k + 1, by omega, l, hl, i, hli, hj⟩

omit hstep hr in
theorem mem_reach_of_mem {n : Nat} {seen last : List Nat} {j : Nat} (h : j ∈ seen) :
    j ∈ reach step n seen last := by
  induction n generalizing seen last with
  | zero => exact h
  | succ n ih =>
    unfold reach
    dsimp only
    split
    · exact h
    · exact ih (mem_mergePlaces.mpr (Or.inl h))

/-- The places already looked at lead nowhere new: this is what each round keeps. -/
theorem reach_complete {n : Nat} {seen last : List Nat} (hseen : ∀ i ∈ seen, i ≤ size)
    (hlast : ∀ i ∈ last, i ∈ seen) (hclosed : ∀ i ∈ seen, i ∉ last → ∀ j, r i j → j ∈ seen)
    {k i j : Nat} (hk : k ≤ n) (hi : i ∈ seen) (h : Steps r k i j) :
    j ∈ reach step n seen last := by
  induction n generalizing seen last k i with
  | zero =>
    obtain rfl : k = 0 := by omega
    exact h ▸ hi
  | succ n ih =>
    cases k with
    | zero => exact mem_reach_of_mem (h ▸ hi)
    | succ k =>
      obtain ⟨m, him, hm⟩ := h
      have hlast' : ∀ i ∈ last, i ≤ size := fun i hi => hseen i (hlast i hi)
      -- one step from what was seen leads to what was seen or to what is fresh
      have hnext : ∀ i ∈ seen, ∀ j, r i j → j ∈ seen ∨ j ∈ freshPlaces (step last) seen := by
        intro i hi j hij
        by_cases hj : j ∈ seen
        · exact Or.inl hj
        · have hil : i ∈ last := by
            by_contra hno
            exact hj (hclosed i hi hno j hij)
          exact Or.inr (mem_freshPlaces ((hstep last hlast' j).mpr ⟨i, hil, hij⟩) hj)
      unfold reach
      dsimp only
      split
      · next hempty =>
        have hstay : ∀ n i j, i ∈ seen → Steps r n i j → j ∈ seen := by
          intro n
          induction n with
          | zero => exact fun i j hi h => h ▸ hi
          | succ n ihn =>
            rintro i j hi ⟨l, hil, hl⟩
            refine ihn l j ((hnext i hi l hil).resolve_right ?_) hl
            simp [List.isEmpty_iff.mp hempty]
        exact hstay (k + 1) i j hi ⟨m, him, hm⟩
      · have hfresh : ∀ i ∈ freshPlaces (step last) seen, i ≤ size := by
          intro i hi
          obtain ⟨l, hl, hli⟩ := (hstep last hlast' i).mp (mem_of_mem_freshPlaces hi)
          exact hr l i (hlast' l hl) hli
        refine ih ?_ ?_ ?_ (by omega) (mem_mergePlaces.mpr (hnext i hi m him)) hm
        · intro i hi
          exact (mem_mergePlaces.mp hi).elim (hseen i) (hfresh i)
        · exact fun i hi => mem_mergePlaces.mpr (Or.inr hi)
        · intro i hi hno j hij
          have hi' := (mem_mergePlaces.mp hi).resolve_right hno
          exact mem_mergePlaces.mpr (hnext i hi' j hij)

theorem mem_reach {n : Nat} {s : List Nat} (hs : ∀ i ∈ s, i ≤ size) {j : Nat} :
    j ∈ reach step n s s ↔ ∃ k ≤ n, ∃ i ∈ s, Steps r k i j := by
  constructor
  · intro h
    rcases reach_sound hstep hr hs h with hj | hh
    · exact ⟨0, by omega, j, hj, rfl⟩
    · exact hh
  · rintro ⟨k, hk, i, hi, h⟩
    exact reach_complete hstep hr hs (fun _ h => h) (fun _ h hno => absurd h hno) hk hi h

end Sets

/-! ### Expressions -/

variable {text : Array Char}

@[simp] theorem spans_empty {i j : Nat} : Spans text .empty i j ↔ i = j := by
  constructor
  · rintro ⟨⟩
    rfl
  · rintro rfl
    exact .empty i

@[simp] theorem spans_chars {s : CharClass} {i j : Nat} :
    Spans text (.chars s) i j ↔ ∃ c, text[i]? = some c ∧ s.contains c = true ∧ j = i + 1 := by
  constructor
  · rintro ⟨⟩
    exact ⟨_, ‹_›, ‹_›, rfl⟩
  · rintro ⟨c, h, hc, rfl⟩
    exact .chars h hc

@[simp] theorem spans_look {l : Look} {i j : Nat} :
    Spans text (.look l) i j ↔ l.holds text i = true ∧ i = j := by
  constructor
  · rintro ⟨⟩
    exact ⟨‹_›, rfl⟩
  · rintro ⟨h, rfl⟩
    exact .look h

@[simp] theorem spans_seq {a b : Expr} {i k : Nat} :
    Spans text (.seq a b) i k ↔ ∃ j, Spans text a i j ∧ Spans text b j k := by
  constructor
  · rintro ⟨⟩
    exact ⟨_, ‹_›, ‹_›⟩
  · rintro ⟨j, ha, hb⟩
    exact .seq ha hb

@[simp] theorem spans_alt {a b : Expr} {i j : Nat} :
    Spans text (.alt a b) i j ↔ Spans text a i j ∨ Spans text b i j := by
  constructor
  · intro h
    cases h with
    | altLeft h => exact Or.inl h
    | altRight h => exact Or.inr h
  · rintro (h | h)
    · exact .altLeft h
    · exact .altRight h

/-- A repetition is a number of rounds within its bounds. -/
theorem spans_rep {least : Nat} {most : Option Nat} {e : Expr} {i j : Nat} :
    Spans text (.rep least most e) i j ↔
      ∃ k, least ≤ k ∧ (∀ n, most = some n → k ≤ n) ∧ Steps (Spans text e) k i j := by
  constructor
  · intro h
    generalize hx : Expr.rep least most e = x at h
    induction h generalizing least most with
    | repDone =>
      cases hx
      exact ⟨0, by omega, fun n _ => by omega, rfl⟩
    | repMore hm h hr _ ih =>
      cases hx
      obtain ⟨k, hk, hmost, hsteps⟩ := ih rfl
      refine ⟨k + 1, by omega, ?_, _, h, hsteps⟩
      rintro n rfl
      have hn : n ≠ 0 := fun e => hm (e ▸ rfl)
      have hh := hmost (n - 1) rfl
      omega
    | _ => cases hx
  · rintro ⟨k, hk, hmost, hsteps⟩
    induction k generalizing least most i with
    | zero =>
      obtain rfl : least = 0 := by omega
      exact hsteps ▸ .repDone
    | succ k ih =>
      obtain ⟨m, him, hm⟩ := hsteps
      refine .repMore ?_ him (ih (by omega) ?_ hm)
      · rintro rfl
        have hh := hmost 0 rfl
        omega
      · intro n hn
        obtain ⟨n', rfl, rfl⟩ := Option.map_eq_some_iff.mp hn
        have hh := hmost n' rfl
        omega

/-- Every repetition has ordered bounds. -/
def Expr.Bounded : Expr → Prop
  | .empty | .chars _ | .look _ => True
  | .seq a b | .alt a b => a.Bounded ∧ b.Bounded
  | .rep least most e => (∀ n, most = some n → least ≤ n) ∧ e.Bounded

theorem Spans.le_size {e : Expr} {i j : Nat} (h : Spans text e i j) (hi : i ≤ text.size) :
    j ≤ text.size := by
  induction h with
  | empty => exact hi
  | chars h =>
    obtain ⟨hlt, -⟩ := Array.getElem?_eq_some_iff.mp h
    omega
  | look => exact hi
  | seq _ _ iha ihb => exact ihb (iha hi)
  | altLeft _ ih => exact ih hi
  | altRight _ ih => exact ih hi
  | repDone => exact hi
  | repMore _ _ _ ih ihr => exact ihr (ih hi)

theorem Follows.rep {least : Nat} {most : Option Nat} {e : Expr}
    (hbounds : ∀ n, most = some n → least ≤ n)
    (hstep : Follows text.size (ends text e) (Spans text e)) :
    Follows text.size (ends text (.rep least most e)) (Spans text (.rep least most e)) := by
  intro s hs j
  have hr : ∀ i j, i ≤ text.size → Spans text e i j → j ≤ text.size :=
    fun i j hi h => h.le_size hi
  have hstart : ∀ i ∈ iterate (ends text e) least s, i ≤ text.size := by
    intro i hi
    obtain ⟨k, hk, hh⟩ := (mem_iterate hstep hr hs).mp hi
    exact hh.le hr (hs k hk)
  simp only [ends, mem_reach hstep hr hstart, mem_iterate hstep hr hs, spans_rep]
  constructor
  · rintro ⟨k, hk, m, ⟨i, hi, him⟩, hmj⟩
    refine ⟨i, hi, least + k, by omega, ?_, Steps.add.mpr ⟨m, him, hmj⟩⟩
    rintro n rfl
    have hn := hbounds n rfl
    simp only at hk
    omega
  · rintro ⟨i, hi, k, hk, hmost, hij⟩
    obtain ⟨d, rfl⟩ := Nat.exists_eq_add_of_le hk
    obtain ⟨m, him, hmj⟩ := Steps.add.mp hij
    cases most with
    | none =>
      -- a way that comes back to a place is cut short there, so the rounds are enough
      obtain ⟨d', hd', hmj'⟩ := hmj.shorten hr (him.le hr (hs i hi))
      exact ⟨d', by simp only; omega, m, ⟨i, hi, him⟩, hmj'⟩
    | some n =>
      have hn := hmost n rfl
      exact ⟨d, by simp only; omega, m, ⟨i, hi, him⟩, hmj⟩

theorem ends_follows {e : Expr} (he : e.Bounded) :
    Follows text.size (ends text e) (Spans text e) := by
  induction e with
  | empty =>
    intro s _ j
    simp [ends]
  | chars cs =>
    intro s _ j
    simp only [ends, List.mem_filterMap, Option.ite_none_right_eq_some, Option.some.injEq,
      spans_chars]
    refine exists_congr fun i => and_congr_right fun _ => ?_
    cases text[i]? with
    | none => simp
    | some c =>
      simp only [Option.any_some, Option.some.injEq, exists_eq_left', and_congr_right_iff]
      exact fun _ => eq_comm
  | look l =>
    intro s _ j
    simp only [ends, List.mem_filter, spans_look]
    constructor
    · rintro ⟨hj, hl⟩
      exact ⟨j, hj, hl, rfl⟩
    · rintro ⟨i, hi, hl, rfl⟩
      exact ⟨hi, hl⟩
  | seq a b iha ihb =>
    intro s hs j
    have hle : ∀ i ∈ ends text a s, i ≤ text.size := by
      intro i hi
      obtain ⟨k, hk, hh⟩ := (iha he.1 s hs i).mp hi
      exact hh.le_size (hs k hk)
    simp only [ends, ihb he.2 _ hle j, iha he.1 s hs, spans_seq]
    constructor
    · rintro ⟨k, ⟨i, hi, hik⟩, hkj⟩
      exact ⟨i, hi, k, hik, hkj⟩
    · rintro ⟨i, hi, k, hik, hkj⟩
      exact ⟨k, ⟨i, hi, hik⟩, hkj⟩
  | alt a b iha ihb =>
    intro s hs j
    simp only [ends, mem_mergePlaces, iha he.1 s hs j, ihb he.2 s hs j, spans_alt]
    constructor
    · rintro (⟨i, hi, h⟩ | ⟨i, hi, h⟩)
      · exact ⟨i, hi, Or.inl h⟩
      · exact ⟨i, hi, Or.inr h⟩
    · rintro ⟨i, hi, h | h⟩
      · exact Or.inl ⟨i, hi, h⟩
      · exact Or.inr ⟨i, hi, h⟩
  | rep least most e ih => exact (ih he.2).rep he.1

/-- The search answers yes exactly if the expression spans some part of the text. -/
theorem isMatch_iff {e : Expr} (he : e.Bounded) (t : String) :
    isMatch e t = true ↔ Matches e t.toList.toArray := by
  have hs : ∀ i ∈ List.range (t.toList.toArray.size + 1), i ≤ t.toList.toArray.size := by
    intro i hi
    exact Nat.lt_succ_iff.mp (List.mem_range.mp hi)
  have hmem := ends_follows he (List.range (t.toList.toArray.size + 1)) hs
  unfold isMatch Matches
  dsimp only
  rw [Bool.not_eq_true', List.isEmpty_eq_false_iff_exists_mem]
  constructor
  · rintro ⟨j, hj⟩
    obtain ⟨i, hi, h⟩ := (hmem j).mp hj
    exact ⟨i, j, hs i hi, h⟩
  · rintro ⟨i, j, hi, h⟩
    exact ⟨j, (hmem j).mpr ⟨i, List.mem_range.mpr (Nat.lt_succ_of_le hi), h⟩⟩

end StepGlue.Regex
