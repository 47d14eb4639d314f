import StepGlue.Proofs.Regex.Forward

/-! Repetitions are read with ordered bounds. The search counts on this: where the least number
of rounds is above the greatest, it would still make the rounds. -/

namespace StepGlue.Regex

def Level.Bounded (l : Level) : Prop :=
  (∀ t ∈ l.items, t.Bounded) ∧ ∀ t ∈ l.branches, t.Bounded

/-- Every repetition that was read has ordered bounds. -/
def State.Bounded (s : State) : Prop := s.level.Bounded ∧ ∀ f ∈ s.stack, f.outer.Bounded

theorem Level.bounded_nil (pos : Nat) : (Level.nil pos).Bounded := ⟨nofun, nofun⟩

theorem Level.Bounded.push {l : Level} (h : l.Bounded) {t : Tree} (ht : t.Bounded) :
    (l.push t).Bounded := ⟨List.forall_mem_cons.mpr ⟨ht, h.1⟩, h.2⟩

theorem Sequence.bounded_toTree {q : Sequence} (h : ∀ t ∈ q.items, t.Bounded) (stop : Nat) :
    (q.toTree stop).Bounded := by
  unfold Sequence.toTree
  split
  · trivial
  · next t ht => exact h t (by simp [ht])
  · refine Tree.allBounded_iff.mpr fun t ht => h t ?_
    exact List.mem_reverse.mp ht

theorem Level.Bounded.toTree {l : Level} (h : l.Bounded) (stop : Nat) :
    (l.toTree stop).Bounded := by
  have hlast : (l.sequence.toTree stop).Bounded := Sequence.bounded_toTree h.1 stop
  unfold Level.toTree
  dsimp only
  split
  · exact hlast
  · refine Tree.allBounded_iff.mpr fun t ht => ?_
    rcases List.mem_cons.mp (List.mem_reverse.mp ht) with rfl | ht
    · exact hlast
    · exact h.2 t ht

theorem Level.Bounded.bar {l : Level} (h : l.Bounded) (stop next : Nat) :
    (l.bar stop next).Bounded :=
  ⟨nofun, List.forall_mem_cons.mpr ⟨Sequence.bounded_toTree h.1 stop, h.2⟩⟩

theorem State.Bounded.openGroup {s : State} (h : s.Bounded) (r : Region) (k : GroupKind)
    (c : Cursor) : (s.openGroup r k c).Bounded :=
  ⟨Level.bounded_nil _, List.forall_mem_cons.mpr ⟨h.1, h.2⟩⟩

theorem readClass_bounded {ignore : Bool} {n : Nat} {s : ClassState} {t : Tree} {d : Cursor}
    (h : readClass ignore n s = .ok (t, d)) : t.Bounded := by
  induction n generalizing s with
  | zero => cases h
  | succ n ih =>
    obtain ⟨x, -, h⟩ := bind_eq_ok.mp h
    cases x with
    | done r neg inner c =>
      cases h
      trivial
    | more s' => exact ih h

theorem Primitive.bounded_toTree (p : Primitive) : p.toTree.Bounded := by
  cases p <;> trivial

theorem State.Bounded.repeatLast {s : State} (h : s.Bounded) {c d : Cursor} {least : Nat}
    {most : Option Nat} {item : Tree} {before : List Tree}
    (hr : repeated s c = .ok (item, before)) (hb : ∀ n, most = some n → least ≤ n) :
    (s.repeatLast least most item before d).Bounded := by
  have hitems := h.1.1
  rw [(repeated_eq_ok.mp hr).1] at hitems
  obtain ⟨hitem, hbefore⟩ := List.forall_mem_cons.mp hitems
  exact ⟨⟨List.forall_mem_cons.mpr ⟨⟨hb, hitem⟩, hbefore⟩, h.1.2⟩, h.2⟩

theorem readGroupOpen_bounded {s s' : State} (hs : s.Bounded) {c : Cursor}
    (h : readGroupOpen s c = .ok s') : s'.Bounded := by
  unfold readGroupOpen at h
  dsimp only at h
  split at h
  · cases h
  · split at h
    · obtain ⟨⟨name, next⟩, -, h⟩ := bind_eq_ok.mp h
      dsimp only at h
      split at h
      · cases h
      · split at h
        · cases h
        · cases h
          exact hs.openGroup _ _ _
    · split at h
      · cases h
        exact hs.openGroup _ _ _
      · unfold readFlagged at h
        split at h
        · cases h
        · obtain ⟨⟨items, after⟩, -, h⟩ := bind_eq_ok.mp h
          dsimp only at h
          split at h
          · cases h
            exact hs.openGroup _ _ _
          · split at h
            · cases h
            · cases h
              exact ⟨hs.1.push trivial, hs.2⟩

theorem readStep_bounded {s s' : State} (hs : s.Bounded) {c : Cursor} {ch : Char}
    (h : readStep s c ch = .ok s') : s'.Bounded := by
  have hrep : ∀ {least most}, (∀ n, most = some n → least ≤ n) →
      readRepetition s c least most = .ok s' → s'.Bounded := by
    intro least most hb h
    obtain ⟨⟨item, before⟩, hr, h⟩ := bind_eq_ok.mp h
    cases h
    exact hs.repeatLast hr hb
  unfold readStep at h
  split at h
  · exact readGroupOpen_bounded hs h
  · unfold readGroupClose at h
    split at h
    · cases h
    · next frame rest hstack =>
      cases h
      have hframes := hs.2
      rw [hstack] at hframes
      obtain ⟨houter, hrest⟩ := List.forall_mem_cons.mp hframes
      exact ⟨houter.push (hs.1.toTree _), hrest⟩
  · cases h
    exact ⟨hs.1.bar _ _, hs.2⟩
  · obtain ⟨⟨t, next⟩, hr, h⟩ := bind_eq_ok.mp h
    cases h
    exact ⟨hs.1.push (readClass_bounded hr), hs.2⟩
  · exact hrep (by simp) h
  · exact hrep (by simp) h
  · exact hrep (by simp) h
  · obtain ⟨⟨item, before⟩, hr, h⟩ := bind_eq_ok.mp h
    obtain ⟨⟨⟨least, most⟩, after⟩, -, h⟩ := bind_eq_ok.mp h
    dsimp only at h
    split at h
    · cases h
    · split at h
      · cases h
      · next hany =>
        cases h
        refine hs.repeatLast hr ?_
        rintro n rfl
        simpa using hany
  · obtain ⟨⟨p, next⟩, -, h⟩ := bind_eq_ok.mp h
    cases h
    exact ⟨hs.1.push p.bounded_toTree, hs.2⟩

theorem State.Bounded.read {s : State} (hs : s.Bounded) {t : Tree} (h : s.read = .ok t) :
    t.Bounded := by
  induction hn : s.cursor.rest.length using Nat.strong_induction_on generalizing s with
  | _ n ih =>
    cases hch : s.ahead.char? with
    | none =>
      rw [State.read_of_none hch] at h
      unfold State.finish at h
      split at h
      · cases h
        exact hs.1.toTree _
      · cases h
    | some ch =>
      rw [State.read_of_some hch] at h
      obtain ⟨s', hstep, h⟩ := bind_eq_ok.mp h
      have hlt := readStep_length hch hstep
      exact ih _ (hn ▸ hlt) (readStep_bounded hs hstep) h rfl

theorem readPattern_bounded {p : List Char} {t : Tree} (h : readPattern p = .ok t) :
    t.Bounded := by
  rw [readPattern_eq] at h
  obtain ⟨tree, hread, h⟩ := bind_eq_ok.mp h
  split at h
  · cases h
  · cases h
    exact State.Bounded.read ⟨Level.bounded_nil 0, by simp⟩ hread

variable {sets : NamedSets}

theorem compileWith_of_lower {source : String} {tree : Tree} {e : Expr} {f : Flags}
    (ht : readPattern source.toList = .ok tree) (he : tree.lower sets {} = .ok (e, f)) :
    compileWith sets source = if sizeLimit < compiledSize tree e then .error .tooLarge
      else .ok ⟨source, e⟩ := by
  simp only [compileWith, ht, he, Except.mapError, bind, Except.bind]
  by_cases hsize : sizeLimit < compiledSize tree e
  · rw [if_pos hsize, if_pos hsize]
    rfl
  · rw [if_neg hsize, if_neg hsize]
    rfl

theorem compileWith_eq_ok {source : String} {c : Compiled} :
    compileWith sets source = .ok c ↔ ∃ tree f, readPattern source.toList = .ok tree ∧
      tree.lower sets {} = .ok (c.expr, f) ∧ compiledSize tree c.expr ≤ sizeLimit ∧
      c.source = source := by
  obtain ⟨text, expr⟩ := c
  constructor
  · intro h
    obtain ⟨tree, ht, h⟩ := bind_eq_ok.mp h
    obtain ⟨⟨e, f⟩, he, h⟩ := bind_eq_ok.mp h
    dsimp only at h
    split at h
    · cases h
    · next hsize =>
      cases h
      exact ⟨tree, f, mapError_eq_ok.mp ht, mapError_eq_ok.mp he, Nat.not_lt.mp hsize, rfl⟩
  · rintro ⟨tree, f, ht, he, hsize, rfl⟩
    rw [compileWith_of_lower ht he, if_neg (Nat.not_lt.mpr hsize)]

/-- A compiled pattern answers yes exactly if its expression spans some part of the text. -/
theorem Compiled.isMatch_iff {source : String} {c : Compiled} (h : compileWith sets source = .ok c)
    (t : String) : c.isMatch t = true ↔ Matches c.expr t.toList.toArray := by
  obtain ⟨tree, f, ht, he, -, -⟩ := compileWith_eq_ok.mp h
  exact StepGlue.Regex.isMatch_iff ((readPattern_bounded ht).lower he) t

end StepGlue.Regex
