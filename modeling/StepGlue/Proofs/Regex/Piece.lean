import StepGlue.Proofs.Regex.Anchored
import StepGlue.Proofs.Regex.Compose

/-! Parts of a pattern with what they mean. The meaning of a part does not leak into what stands
around it: parts can be put in a row, made optional and offered as alternatives, and between a
caret and a dollar sign they span the whole text. -/

namespace StepGlue.Regex

/-! ### Rows and branches of trees -/

theorem Tree.Nested.mono {n m : Nat} {t : Tree} (h : t.Nested n) (hnm : n ≤ m) : t.Nested m :=
  fun d hd => h d (by omega)

theorem nested_charTree (n : Nat) (c : Char) : (charTree c).Nested n := fun _ _ => rfl

theorem Tree.Nested.group {n : Nat} {t : Tree} (h : t.Nested n) (r : Region) (k : GroupKind) :
    (Tree.group r k t).Nested (n + 1) := by
  intro d hd
  simp only [Tree.tooDeep, ite_some_eq_none]
  exact ⟨by omega, h (d + 1) (by omega)⟩

theorem Tree.Nested.repetition {n : Nat} {t : Tree} (h : t.Nested n) (r : Region) (least : Nat)
    (most : Option Nat) : (Tree.repetition r least most t).Nested (n + 1) := by
  intro d hd
  simp only [Tree.tooDeep, ite_some_eq_none]
  exact ⟨by omega, h (d + 1) (by omega)⟩

theorem nested_rowTree {n : Nat} {ts : List Tree} (h : ∀ t ∈ ts, t.Nested n) :
    (rowTree ts).Nested (n + 1) := by
  rcases ts with _ | ⟨t, _ | ⟨u, ts⟩⟩
  · exact fun _ _ => rfl
  · exact (h t List.mem_cons_self).mono (Nat.le_succ n)
  · intro d hd
    simp only [rowTree, Tree.tooDeep, ite_some_eq_none, Tree.treesTooDeep_eq_none]
    exact ⟨by omega, fun x hx => h x hx (d + 1) (by omega)⟩

theorem nested_branchTree {n : Nat} {ts : List Tree} (h : ∀ t ∈ ts, t.Nested n) :
    (branchTree ts).Nested (n + 1) := by
  have halt : (Tree.alternation default ts).Nested (n + 1) := by
    intro d hd
    simp only [Tree.tooDeep, ite_some_eq_none, Tree.treesTooDeep_eq_none]
    exact ⟨by omega, fun x hx => h x hx (d + 1) (by omega)⟩
  rcases ts with _ | ⟨t, _ | ⟨u, ts⟩⟩
  · exact halt
  · exact (h t List.mem_cons_self).mono (Nat.le_succ n)
  · exact halt

theorem plain_rowTree {ts : List Tree} (h : ∀ t ∈ ts, t.Plain) : (rowTree ts).Plain := by
  rcases ts with _ | ⟨t, _ | ⟨u, ts⟩⟩
  · trivial
  · exact h t List.mem_cons_self
  · exact Tree.allPlain_iff.mpr h

theorem plain_branchTree {ts : List Tree} (h : ∀ t ∈ ts, t.Plain) : (branchTree ts).Plain := by
  rcases ts with _ | ⟨t, _ | ⟨u, ts⟩⟩
  · trivial
  · exact h t List.mem_cons_self
  · exact Tree.allPlain_iff.mpr h

theorem spells_rowTree {ts : List Tree} (h : ∀ t ∈ ts, t.Plain) {w : List Char} :
    (rowTree ts).Spells w ↔ SpellsAll ts w := by
  rcases ts with _ | ⟨t, _ | ⟨u, ts⟩⟩
  · exact Tree.spells_empty
  · simp [rowTree, SpellsAll]
  · exact Tree.spells_sequence h

theorem spells_branchTree {ts : List Tree} (hne : ts ≠ []) (h : ∀ t ∈ ts, t.Plain)
    {w : List Char} : (branchTree ts).Spells w ↔ ∃ t ∈ ts, t.Spells w := by
  rcases ts with _ | ⟨t, _ | ⟨u, ts⟩⟩
  · exact absurd rfl hne
  · simp [branchTree]
  · exact Tree.spells_alternation h hne

/-! ### Pieces -/

/-- A part of a pattern that is nested at most so deep and means these texts. -/
structure Piece (n : Nat) (p : List Char) (means : List Char → Prop) : Prop where
  greedy : Greedy p
  reads : ∃ ts, Adds Greedy p ts ∧ (∀ t ∈ ts, t.Plain ∧ t.Nested n) ∧
    ∀ w, SpellsAll ts w ↔ means w

variable {n : Nat} {p q : List Char} {L M : List Char → Prop}

theorem Piece.mono (h : Piece n p L) {m : Nat} (hnm : n ≤ m) : Piece m p L := by
  obtain ⟨ts, hadds, hts, hmeans⟩ := h.reads
  exact ⟨h.greedy, ts, hadds, fun t ht => ⟨(hts t ht).1, (hts t ht).2.mono hnm⟩, hmeans⟩

theorem Piece.congr (h : Piece n p L) (hLM : ∀ w, L w ↔ M w) : Piece n p M := by
  obtain ⟨ts, hadds, hts, hmeans⟩ := h.reads
  exact ⟨h.greedy, ts, hadds, hts, fun w => (hmeans w).trans (hLM w)⟩

theorem Piece.nil (n : Nat) : Piece n [] (· = []) :=
  ⟨by simp [Greedy], [], Adds.nil, by simp, fun w => Iff.rfl⟩

theorem greedy_append {p q : List Char} (hp : Greedy p) (hq : Greedy q) : Greedy (p ++ q) := by
  cases p with
  | nil => exact hq
  | cons x p => exact hp

theorem Piece.append (hp : Piece n p L) (hq : Piece n q M) :
    Piece n (p ++ q) fun w => ∃ u v, w = u ++ v ∧ L u ∧ M v := by
  obtain ⟨ts, hadds, hts, hmeans⟩ := hp.reads
  obtain ⟨us, hadds', hus, hmeans'⟩ := hq.reads
  refine ⟨greedy_append hp.greedy hq.greedy, ts ++ us,
    hadds.append hadds' fun rest hrest => greedy_append hq.greedy hrest, ?_, fun w => ?_⟩
  · intro t ht
    exact (List.mem_append.mp ht).elim (hts t) (hus t)
  · simp only [spellsAll_append, hmeans, hmeans']

theorem spellsAll_chars {s w : List Char} : SpellsAll (s.map charTree) w ↔ w = s := by
  induction s generalizing w with
  | nil => exact Iff.rfl
  | cons c s ih =>
    simp only [List.map_cons, SpellsAll, ih, charTree, Tree.spells_literal]
    constructor
    · rintro ⟨-, -, rfl, rfl, rfl⟩
      rfl
    · rintro rfl
      exact ⟨[c], s, rfl, rfl, rfl⟩

theorem Piece.escape (s : List Char) : Piece 0 (Regex.escape s) (· = s) := by
  refine ⟨?_, s.map charTree, (adds_escape s).weaken fun _ _ => trivial, ?_,
    fun w => spellsAll_chars⟩
  · cases s with
    | nil => simp [Greedy, Regex.escape]
    | cons c s =>
      unfold Regex.escape
      split
      · simp [Greedy]
      · next hc =>
        have hne : c ≠ '?' := by
          rintro rfl
          exact hc rfl
        simpa [Greedy] using hne
  · intro t ht
    obtain ⟨c, -, rfl⟩ := List.mem_map.mp ht
    exact ⟨trivial, nested_charTree 0 c⟩

theorem exists_rows {parts : List (List Char × (List Char → Prop))}
    (h : ∀ x ∈ parts, Piece n x.1 x.2) : ∃ rows : List (List Char × List Tree),
      rows.map (·.1) = parts.map (·.1) ∧
      (∀ x ∈ rows, Adds Greedy x.1 x.2 ∧ ∀ t ∈ x.2, t.Plain ∧ t.Nested n) ∧
      ∀ w, (∃ x ∈ rows, SpellsAll x.2 w) ↔ ∃ x ∈ parts, x.2 w := by
  induction parts with
  | nil => exact ⟨[], rfl, by simp, by simp⟩
  | cons x xs ih =>
    obtain ⟨hx, hxs⟩ := List.forall_mem_cons.mp h
    obtain ⟨ts, hadds, hts, hmeans⟩ := hx.reads
    obtain ⟨rows, hrows, hall, hmeans'⟩ := ih hxs
    refine ⟨(x.1, ts) :: rows, by simp [hrows], List.forall_mem_cons.mpr ⟨⟨hadds, hts⟩, hall⟩,
      fun w => ?_⟩
    simp only [List.mem_cons, exists_eq_or_imp, hmeans, hmeans']

/-- Alternatives between bars. -/
theorem body_alternatives {parts : List (List Char × (List Char → Prop))} (hne : parts ≠ [])
    (h : ∀ x ∈ parts, Piece n x.1 x.2) : ∃ t : Tree, Body (joinBars (parts.map (·.1))) t ∧
      t.Plain ∧ t.Nested (n + 2) ∧ ∀ w, t.Spells w ↔ ∃ x ∈ parts, x.2 w := by
  obtain ⟨rows, hrows, hall, hmeans⟩ := exists_rows h
  have hrne : rows ≠ [] := by
    rintro rfl
    exact hne (List.map_eq_nil_iff.mp hrows.symm)
  have hplain : ∀ t ∈ rows.map fun x => rowTree x.2, t.Plain := by
    intro t ht
    obtain ⟨x, hx, rfl⟩ := List.mem_map.mp ht
    exact plain_rowTree fun u hu => ((hall x hx).2 u hu).1
  have hnested : ∀ t ∈ rows.map fun x => rowTree x.2, t.Nested (n + 1) := by
    intro t ht
    obtain ⟨x, hx, rfl⟩ := List.mem_map.mp ht
    exact nested_rowTree fun u hu => ((hall x hx).2 u hu).2
  refine ⟨_, hrows ▸ body_joinBars hrne fun x hx => (hall x hx).1, plain_branchTree hplain,
    nested_branchTree hnested, fun w => ?_⟩
  rw [← hmeans, spells_branchTree (by simpa using hrne) hplain]
  simp only [List.mem_map, exists_exists_and_eq_and]
  exact exists_congr fun x => and_congr_right fun hx =>
    spells_rowTree fun u hu => ((hall x hx).2 u hu).1

theorem Piece.body (h : Piece n p L) :
    ∃ t : Tree, Body p t ∧ t.Plain ∧ t.Nested (n + 2) ∧ ∀ w, t.Spells w ↔ L w := by
  have hone : ∀ x ∈ [(p, L)], Piece n x.1 x.2 := by simpa using h
  obtain ⟨t, hbody, hplain, hnested, hmeans⟩ := body_alternatives (List.cons_ne_nil _ _) hone
  exact ⟨t, hbody, hplain, hnested, fun w => by simpa using hmeans w⟩

theorem Piece.of_tree {t : Tree} (hadds : Adds Greedy p [t]) (hp : Greedy p) (ht : t.Plain)
    (hn : t.Nested n) : Piece n p t.Spells := by
  refine ⟨hp, [t], hadds, by simpa using ⟨ht, hn⟩, fun w => ?_⟩
  simp [SpellsAll]

theorem Piece.alternatives {parts : List (List Char × (List Char → Prop))} (hne : parts ≠ [])
    (h : ∀ x ∈ parts, Piece n x.1 x.2) :
    Piece (n + 3) ("(?:".toList ++ joinBars (parts.map (·.1)) ++ [')'])
      fun w => ∃ x ∈ parts, x.2 w := by
  obtain ⟨t, hbody, hplain, hnested, hmeans⟩ := body_alternatives hne h
  have hpiece := Piece.of_tree (hbody.adds_group.weaken fun _ _ => trivial) (by simp [Greedy])
    ⟨rfl, hplain⟩ (hnested.group default (.flagged []))
  exact hpiece.congr fun w => (Tree.spells_group rfl).trans (hmeans w)

theorem Piece.repetition {t : Tree} (hadds : Adds (fun _ => True) p [t]) (ht : t.Plain)
    (hr : t.Repeatable) (hn : t.Nested n) (op : Char) (least : Nat) (most : Option Nat)
    (hop : ∀ s c, readStep s c op = readRepetition s c least most) (hp : Greedy (p ++ [op])) :
    Piece (n + 1) (p ++ [op]) (Tree.repetition default least most t).Spells :=
  Piece.of_tree (hadds.repetition hr op least most hop) hp ht (hn.repetition default least most)

theorem Piece.optional (h : Piece n p L) :
    Piece (n + 4) ("(?:".toList ++ p ++ ")?".toList) fun w => w = [] ∨ L w := by
  obtain ⟨t, hbody, hplain, hnested, hmeans⟩ := h.body
  have hgroup : (Tree.group default (.flagged []) t).Plain := ⟨rfl, hplain⟩
  have hpiece := Piece.repetition hbody.adds_group hgroup trivial
    (hnested.group default (.flagged [])) '?' 0 (some 1) (fun _ _ => rfl) (by simp [Greedy])
  have htext : "(?:".toList ++ p ++ ")?".toList = "(?:".toList ++ p ++ [')'] ++ ['?'] := by simp
  rw [htext]
  refine hpiece.congr fun w => ?_
  rw [Tree.spells_optional hgroup, Tree.spells_group rfl, hmeans]

/-! ### Whole patterns -/

variable {sets : NamedSets}

theorem lowerItems_append {ts us : List Tree} {f f' g : Flags} {a b : Expr}
    (ha : Tree.lower.lowerItems sets f ts = .ok (a, f'))
    (hb : Tree.lower.lowerItems sets f' us = .ok (b, g)) :
    ∃ e, Tree.lower.lowerItems sets f (ts ++ us) = .ok (e, g) ∧ ∀ text i k,
      Spans text e i k ↔ ∃ j, Spans text a i j ∧ Spans text b j k := by
  induction ts generalizing f a with
  | nil =>
    cases ha
    exact ⟨b, hb, by simp⟩
  | cons t ts ih =>
    obtain ⟨x, f₁, y, hx, hy, rfl⟩ := Tree.lowerItems_cons.mp ha
    obtain ⟨e, he, hspans⟩ := ih hy
    refine ⟨.seq x e, Tree.lowerItems_cons.mpr ⟨x, f₁, e, hx, he, rfl⟩, fun text i k => ?_⟩
    simp only [spans_seq, hspans]
    constructor
    · rintro ⟨j, h1, l, h2, h3⟩
      exact ⟨l, ⟨j, h1, h2⟩, h3⟩
    · rintro ⟨l, ⟨j, h1, h2⟩, h3⟩
      exact ⟨j, h1, l, h2, h3⟩

theorem adds_caret : Adds (fun _ => True) ['^'] [.assertion default .lineStart] :=
  Adds.step fun _ _ _ pos _ => ⟨.assertion ⟨pos, pos + 1⟩ .lineStart, pos + 1, rfl, rfl⟩

theorem adds_dollar : Adds (fun _ => True) ['$'] [.assertion default .lineEnd] :=
  Adds.step fun _ _ _ pos _ => ⟨.assertion ⟨pos, pos + 1⟩ .lineEnd, pos + 1, rfl, rfl⟩

/-- Items between a caret and a dollar sign. -/
def anchoredItems (ts : List Tree) : List Tree :=
  [.assertion default .lineStart] ++ (ts ++ [.assertion default .lineEnd])

theorem Adds.body_anchored {ts : List Tree} (h : Adds Greedy p ts) :
    Body ('^' :: (p ++ ['$'])) (.sequence default (anchoredItems ts)) := by
  have hitems : Adds Greedy ('^' :: (p ++ ['$'])) (anchoredItems ts) := by
    refine adds_caret.append (h.append (adds_dollar.weaken fun _ _ => trivial) ?_)
      fun _ _ => trivial
    intro rest _
    simp [Greedy]
  have hrow : rowTree (anchoredItems ts) = .sequence default (anchoredItems ts) := by
    cases ts with
    | nil => rfl
    | cons t ts => rfl
  have hbody := body_joinBars (List.cons_ne_nil ('^' :: (p ++ ['$']), anchoredItems ts) [])
    (by simpa using hitems)
  rw [← hrow]
  exact hbody

theorem nested_anchored {ts : List Tree} (h : ∀ t ∈ ts, t.Nested n) :
    (Tree.sequence default (anchoredItems ts)).Nested (n + 1) := by
  intro d hd
  simp only [Tree.tooDeep, ite_some_eq_none, Tree.treesTooDeep_eq_none]
  refine ⟨by omega, fun t ht => ?_⟩
  simp only [anchoredItems, List.mem_append, List.mem_singleton] at ht
  rcases ht with rfl | ht | rfl
  · rfl
  · exact h t ht (d + 1) (by omega)
  · rfl

theorem lower_anchoredItems {ts : List Tree} {a : Expr}
    (ha : Tree.lower.lowerItems sets {} ts = .ok (a, {})) :
    ∃ e, (Tree.sequence default (anchoredItems ts)).lower sets {} = .ok (e, {}) ∧
      ∀ text i k, Spans text e i k ↔ Spans text (anchored a) i k := by
  have hend : Tree.lower.lowerItems sets {} [.assertion default .lineEnd] =
      .ok (.seq (.look .textEnd) .empty, {}) := rfl
  obtain ⟨b, hb, hspans⟩ := lowerItems_append ha hend
  refine ⟨.seq (.look .textStart) b, Tree.lowerItems_cons.mpr ⟨_, {}, b, rfl, hb, rfl⟩, ?_⟩
  intro text i k
  simp only [anchored, spans_seq, hspans]

theorem matches_anchoredItems {ts : List Tree} (hts : ∀ t ∈ ts, t.Plain) :
    ∃ e, (Tree.sequence default (anchoredItems ts)).lower namedClass {} = .ok (e, {}) ∧ Whole e ∧
      ∀ w : List Char, Matches e w.toArray ↔ SpellsAll ts w := by
  obtain ⟨a, ha, -, haccepts⟩ := lowerItems_plain hts
  obtain ⟨e, he, hspans⟩ := lower_anchoredItems ha
  refine ⟨e, he, fun text i k h => whole_anchored a text i k ((hspans text i k).mp h), ?_⟩
  intro w
  have hsame : Matches e w.toArray ↔ Matches (anchored a) w.toArray := by
    simp only [Matches, hspans]
  rw [hsame, matches_anchored, ← haccepts]
  simp [Accepts]

theorem Piece.body_anchored (h : Piece n p L) :
    ∃ t e, Body ('^' :: (p ++ ['$'])) t ∧ t.Nested (n + 1) ∧ t.lower namedClass {} = .ok (e, {}) ∧
      Whole e ∧ ∀ w : List Char, Matches e w.toArray ↔ L w := by
  obtain ⟨ts, hadds, hts, hmeans⟩ := h.reads
  obtain ⟨e, he, hwhole, hmatches⟩ := matches_anchoredItems fun t ht => (hts t ht).1
  refine ⟨.sequence default (anchoredItems ts), e, hadds.body_anchored, ?_, he, hwhole, ?_⟩
  · exact nested_anchored fun t ht => (hts t ht).2
  · exact fun w => (hmatches w).trans (hmeans w)

/-- Between a caret and a dollar sign a piece spans the whole text. -/
theorem Piece.whole (h : Piece n p L) (hn : n < nestLimit) :
    ∃ tree e f, readPattern ('^' :: (p ++ ['$'])) = .ok tree ∧
      tree.lower namedClass {} = .ok (e, f) ∧ ∀ w : List Char, Matches e w.toArray ↔ L w := by
  obtain ⟨t, e, hbody, hnested, he, -, hmatches⟩ := h.body_anchored
  obtain ⟨tree, hread, hbare⟩ := hbody.readPattern (hnested.mono hn)
  refine ⟨tree, e, {}, hread, ?_, hmatches⟩
  rw [← Tree.lower_bare_eq_ok, hbare, he]

end StepGlue.Regex
