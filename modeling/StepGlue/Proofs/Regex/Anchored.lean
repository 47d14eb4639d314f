import StepGlue.Proofs.Regex.Bounds

/-! Expressions between the two ends of a text. -/

namespace StepGlue.Regex

/-- The expression between a condition on the start of the text and one on its end. -/
def anchored (e : Expr) : Expr := .seq (.look .textStart) (.seq e (.seq (.look .textEnd) .empty))

theorem matches_anchored {e : Expr} {text : Array Char} :
    Matches (anchored e) text ↔ Spans text e 0 text.size := by
  unfold Matches anchored
  simp only [spans_seq, spans_look, spans_empty, Look.holds, beq_iff_eq]
  constructor
  · rintro ⟨i, j, -, k, ⟨rfl, rfl⟩, l, he, m, ⟨rfl, rfl⟩, rfl⟩
    exact he
  · intro he
    exact ⟨0, text.size, by omega, 0, ⟨rfl, rfl⟩, text.size, he, text.size, ⟨rfl, rfl⟩, rfl⟩

/-- Nothing but the whole text is spanned. -/
def Whole (e : Expr) : Prop := ∀ text i k, Spans text e i k → i = 0 ∧ k = text.size

theorem whole_anchored (e : Expr) : Whole (anchored e) := by
  intro text i k h
  simp only [anchored, spans_seq, spans_look, spans_empty, Look.holds, beq_iff_eq] at h
  obtain ⟨j, ⟨rfl, rfl⟩, l, -, m, ⟨hend, rfl⟩, rfl⟩ := h
  exact ⟨rfl, hend⟩

theorem Whole.matches_anchored_iff {e : Expr} (h : Whole e) {text : Array Char} :
    Matches (anchored e) text ↔ Matches e text := by
  rw [matches_anchored]
  constructor
  · intro hspan
    exact ⟨0, text.size, Nat.zero_le _, hspan⟩
  · rintro ⟨i, k, -, hspan⟩
    obtain ⟨rfl, rfl⟩ := h text i k hspan
    exact hspan

theorem machineSize_anchored (size : CharClass → Nat) (e : Expr) :
    (anchored e).machineSize size = e.machineSize size + 3 * stateSize := by
  simp only [anchored, Expr.machineSize]
  omega

end StepGlue.Regex
