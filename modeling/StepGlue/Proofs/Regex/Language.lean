import StepGlue.Proofs.Regex.Search

/-! The texts that an expression spans as a whole.

Without conditions on the place, what an expression spans depends on the characters between the
two ends only. Such an expression has a language, and sequences and choices of expressions are
concatenations and unions of languages. -/

namespace StepGlue.Regex

/-- The expression has no conditions on places. -/
def Expr.LookFree : Expr → Prop
  | .empty | .chars _ => True
  | .look _ => False
  | .seq a b | .alt a b => a.LookFree ∧ b.LookFree
  | .rep _ _ e => e.LookFree

/-- The expression spans a text from its start to its end. -/
def Accepts (e : Expr) (w : List Char) : Prop := Spans w.toArray e 0 w.length

theorem Spans.le {text : Array Char} {e : Expr} {i j : Nat} (h : Spans text e i j) : i ≤ j := by
  induction h with
  | empty => exact Nat.le_refl _
  | chars => exact Nat.le_succ _
  | look => exact Nat.le_refl _
  | seq _ _ iha ihb => exact iha.trans ihb
  | altLeft _ ih => exact ih
  | altRight _ ih => exact ih
  | repDone => exact Nat.le_refl _
  | repMore _ _ _ ih ihr => exact ih.trans ihr

/-- The same characters at another place of another text are spanned too. -/
theorem Spans.move {text text' : Array Char} {e : Expr} {a b i j : Nat}
    (h : Spans text e (a + i) (a + j)) (he : e.LookFree)
    (hsame : ∀ k, i ≤ k → k < j → text[a + k]? = text'[b + k]?) :
    Spans text' e (b + i) (b + j) := by
  generalize hx : a + i = x at h
  generalize hy : a + j = y at h
  induction h generalizing i j with
  | empty =>
    obtain rfl : i = j := by omega
    exact .empty _
  | chars hc hmem =>
    obtain rfl : j = i + 1 := by omega
    refine .chars ?_ hmem
    rw [← hsame i (Nat.le_refl _) (Nat.lt_succ_self _), hx, hc]
  | look => exact he.elim
  | seq ha hb iha ihb =>
    have hle := ha.le
    have hle' := hb.le
    obtain ⟨m, rfl⟩ := Nat.exists_eq_add_of_le (le_trans (by omega : a ≤ _) hle)
    exact .seq (iha he.1 (fun k h1 h2 => hsame k h1 (by omega)) hx rfl)
      (ihb he.2 (fun k h1 h2 => hsame k (by omega) h2) rfl hy)
  | altLeft _ ih => exact .altLeft (ih he.1 hsame hx hy)
  | altRight _ ih => exact .altRight (ih he.2 hsame hx hy)
  | repDone =>
    obtain rfl : i = j := by omega
    exact .repDone
  | repMore hm h hr ih ihr =>
    have hle := h.le
    have hle' := hr.le
    obtain ⟨m, rfl⟩ := Nat.exists_eq_add_of_le (le_trans (by omega : a ≤ _) hle)
    exact .repMore hm (ih he (fun k h1 h2 => hsame k h1 (by omega)) hx rfl)
      (ihr he (fun k h1 h2 => hsame k (by omega) h2) rfl hy)

/-- A text is spanned in the middle of another one exactly if it is spanned on its own. -/
theorem spans_middle {e : Expr} (he : e.LookFree) (before w after : List Char) :
    Spans (before ++ w ++ after).toArray e before.length (before.length + w.length) ↔
      Accepts e w := by
  have hsame : ∀ k, k < w.length →
      (before ++ w ++ after).toArray[before.length + k]? = w.toArray[0 + k]? := by
    intro k hk
    simp [List.getElem?_append_right, List.getElem?_append_left hk]
  constructor
  · intro h
    have hh := Spans.move (i := 0) h he fun k _ hk => hsame k hk
    simpa [Accepts] using hh
  · intro h
    have hz : Spans w.toArray e (0 + 0) (0 + w.length) := by simpa [Accepts] using h
    exact Spans.move hz he fun k _ hk => (hsame k hk).symm

theorem accepts_empty {w : List Char} : Accepts .empty w ↔ w = [] := by
  unfold Accepts
  rw [spans_empty, eq_comm, List.length_eq_zero_iff]

theorem accepts_chars {s : CharClass} {w : List Char} :
    Accepts (.chars s) w ↔ ∃ c, w = [c] ∧ s.contains c = true := by
  unfold Accepts
  rw [spans_chars]
  constructor
  · rintro ⟨c, hc, hs, hlen⟩
    obtain ⟨x, rfl⟩ := List.length_eq_one_iff.mp (hlen.trans (Nat.zero_add 1))
    refine ⟨x, rfl, ?_⟩
    obtain rfl : x = c := by simpa using hc
    exact hs
  · rintro ⟨c, rfl, hs⟩
    exact ⟨c, rfl, hs, rfl⟩

theorem accepts_seq {a b : Expr} (ha : a.LookFree) (hb : b.LookFree) {w : List Char} :
    Accepts (.seq a b) w ↔ ∃ u v, w = u ++ v ∧ Accepts a u ∧ Accepts b v := by
  constructor
  · intro h
    obtain ⟨j, h1, h2⟩ := spans_seq.mp h
    have hj : j ≤ w.length := h2.le
    have hu : (w.take j).length = j := by simp [hj]
    have hv : (w.drop j).length = w.length - j := by simp
    refine ⟨w.take j, w.drop j, (List.take_append_drop j w).symm, ?_, ?_⟩
    · rw [← spans_middle ha [] (w.take j) (w.drop j)]
      simpa [hu] using h1
    · rw [← spans_middle hb (w.take j) (w.drop j) []]
      simp only [List.append_nil, List.take_append_drop, hu, hv]
      rwa [Nat.add_sub_cancel' hj]
  · rintro ⟨u, v, rfl, h1, h2⟩
    rw [← spans_middle ha [] u v] at h1
    rw [← spans_middle hb u v []] at h2
    refine spans_seq.mpr ⟨u.length, ?_, ?_⟩
    · simpa using h1
    · simpa using h2

theorem accepts_alt {a b : Expr} {w : List Char} :
    Accepts (.alt a b) w ↔ Accepts a w ∨ Accepts b w := spans_alt

theorem accepts_optional {e : Expr} {w : List Char} :
    Accepts (.rep 0 (some 1) e) w ↔ w = [] ∨ Accepts e w := by
  unfold Accepts
  rw [spans_rep]
  constructor
  · rintro ⟨k, -, hk, hsteps⟩
    have hle := hk 1 rfl
    obtain rfl | rfl : k = 0 ∨ k = 1 := by omega
    · exact Or.inl (List.length_eq_zero_iff.mp hsteps.symm)
    · obtain ⟨m, hm, rfl⟩ := hsteps
      exact Or.inr hm
  · rintro (rfl | h)
    · exact ⟨0, Nat.le_refl _, fun n _ => Nat.zero_le n, rfl⟩
    · refine ⟨1, Nat.zero_le _, ?_, w.length, h, rfl⟩
      rintro n ⟨⟩
      exact Nat.le_refl _

end StepGlue.Regex
