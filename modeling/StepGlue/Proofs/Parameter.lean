import StepGlue.Proofs.Regex.Piece

/-! The regular expressions of the parameter types are read in a group as they are read on their
own. -/

namespace StepGlue

namespace Regex

/-- A regular expression, whatever size it has, spans the whole text. -/
def FullyMatches (pattern w : List Char) : Prop :=
  ∃ tree e f, readPattern pattern = .ok tree ∧ tree.lower namedClass {} = .ok (e, f) ∧ Accepts e w

theorem Body.fullyMatches_iff {p : List Char} {t : Tree} (h : Body p t) (hn : t.Nested nestLimit)
    {w : List Char} : FullyMatches p w ↔ t.Spells w := by
  obtain ⟨tree, hread, rfl⟩ := h.readPattern hn
  rw [Tree.spells_bare]
  constructor
  · rintro ⟨tree', e, f, hread', he, hw⟩
    rw [hread] at hread'
    cases hread'
    exact ⟨e, f, he, hw⟩
  · rintro ⟨e, f, he, hw⟩
    exact ⟨tree, e, f, hread, he, hw⟩

theorem body_either {n : Nat} {p q : List Char} {L M : List Char → Prop} (hp : Piece n p L)
    (hq : Piece n q M) : ∃ t : Tree, Body (p ++ '|' :: q) t ∧ t.Plain ∧ t.Nested (n + 2) := by
  have hparts : ∀ x ∈ [(p, L), (q, M)], Piece n x.1 x.2 := by simpa using ⟨hp, hq⟩
  obtain ⟨t, hbody, hplain, hnested, -⟩ := body_alternatives (List.cons_ne_nil _ _) hparts
  exact ⟨t, hbody, hplain, hnested⟩

/-- A set of two characters, or of all others. -/
def pairTree (negated : Bool) (a b : Char) : Tree :=
  .bracketed default negated
    (.union default [.literal ⟨default, a, false⟩, .literal ⟨default, b, false⟩])

theorem plain_pairTree (negated : Bool) (a b : Char) : (pairTree negated a b).Plain :=
  ⟨trivial, trivial, trivial⟩

theorem nested_pairTree (negated : Bool) (a b : Char) : (pairTree negated a b).Nested 2 := by
  intro d hd
  simp only [pairTree, Tree.tooDeep, ClassTree.tooDeep, ClassTree.tooDeep.itemsTooDeep,
    ite_some_eq_none]
  exact ⟨by omega, by omega, rfl⟩

/-! ### Parts of the fragments -/

theorem adds_digit : Adds (fun _ => True) "\\d".toList [.shorthand default .digit false] :=
  Adds.step fun _ _ _ pos _ => ⟨.shorthand ⟨pos, pos + 2⟩ .digit false, pos + 2, rfl, rfl⟩

theorem adds_dot : Adds (fun _ => True) ".".toList [.dot default] :=
  Adds.step fun _ _ _ pos _ => ⟨.dot ⟨pos, pos + 1⟩, pos + 1, rfl, rfl⟩

theorem adds_sign : Adds (fun _ => True) "[-+]".toList [pairTree false '-' '+'] :=
  Adds.step fun _ _ _ _ _ => ⟨_, _, rfl, rfl⟩

theorem piece_digits : Piece 1 "\\d+".toList
    (Tree.repetition default 1 none (.shorthand default .digit false)).Spells :=
  Piece.repetition adds_digit trivial trivial (fun _ _ => rfl) '+' 1 none (fun _ _ => rfl)
    (by simp [Greedy])

theorem piece_sign : Piece 3 "[-+]?".toList
    (Tree.repetition default 0 (some 1) (pairTree false '-' '+')).Spells :=
  Piece.repetition adds_sign (plain_pairTree _ _ _) trivial (nested_pairTree _ _ _) '?' 0 (some 1)
    (fun _ _ => rfl) (by simp [Greedy])

theorem piece_integer : ∃ L, Piece 3 "-?\\d+".toList L := by
  have hminus : Adds (fun _ => True) ['-'] [charTree '-'] :=
    Adds.step fun _ _ _ pos _ => ⟨.literal ⟨⟨pos, pos + 1⟩, '-', false⟩, pos + 1, rfl, rfl⟩
  have hsign := Piece.repetition hminus trivial trivial (nested_charTree 0 '-') '?' 0 (some 1)
    (fun _ _ => rfl) (by simp [Greedy])
  have hh := hsign.append piece_digits
  exact ⟨_, hh.mono (by decide)⟩

theorem piece_decimal : ∃ L, Piece 7 "[-+]?\\d*\\.?\\d+(?:[eE][-+]?\\d+)?".toList L := by
  have hmore := Piece.repetition (n := 0) adds_digit trivial trivial (fun _ _ => rfl) '*' 0 none
    (fun _ _ => rfl) (by simp [Greedy])
  have hpoint : Adds (fun _ => True) ['\\', '.'] [charTree '.'] := adds_escaped rfl
  have hpoint' := Piece.repetition hpoint trivial trivial (nested_charTree 0 '.') '?' 0 (some 1)
    (fun _ _ => rfl) (by simp [Greedy])
  have hletter : Adds (fun _ => True) "[eE]".toList [pairTree false 'e' 'E'] :=
    Adds.step fun _ _ _ _ _ => ⟨_, _, rfl, rfl⟩
  have hletter' := Piece.of_tree (hletter.weaken fun _ _ => trivial) (by simp [Greedy])
    (plain_pairTree _ _ _) (nested_pairTree _ _ _)
  have hexponent := ((hletter'.mono (by decide : 2 ≤ 3)).append
    (piece_sign.append (piece_digits.mono (by decide)))).optional
  have hh := (piece_sign.mono (by decide : 3 ≤ 7)).append ((hmore.mono (by decide)).append
    ((hpoint'.mono (by decide)).append ((piece_digits.mono (by decide)).append hexponent)))
  exact ⟨_, hh⟩

theorem piece_word : ∃ L, Piece 2 "[^\\s]+".toList L := by
  have hset : Adds (fun _ => True) "[^\\s]".toList
      [.bracketed default true (.shorthand default .space false)] :=
    Adds.step fun _ _ _ _ _ => ⟨_, _, rfl, rfl⟩
  have hnested : (Tree.bracketed default true (.shorthand default .space false)).Nested 1 := by
    intro d hd
    simp only [Tree.tooDeep, ClassTree.tooDeep, ite_some_eq_none]
    exact ⟨by omega, trivial⟩
  exact ⟨_, Piece.repetition hset trivial trivial hnested '+' 1 none (fun _ _ => rfl)
    (by simp [Greedy])⟩

theorem piece_anything : ∃ L, Piece 1 ".*".toList L :=
  ⟨_, Piece.repetition adds_dot trivial trivial (fun _ _ => rfl) '*' 0 none (fun _ _ => rfl)
    (by simp [Greedy])⟩

/-- Text between two quotes of one kind, in which a backslash takes any character along. -/
def quoted (q : Char) : List Char :=
  q :: ("(?:[^".toList ++ (q :: "\\\\]|\\\\.)*".toList) ++ [q])

theorem piece_quoted {q : Char} (hq : isMeta q = false)
    (hset : Adds (fun _ => True) ("[^".toList ++ (q :: "\\\\]".toList)) [pairTree true q '\\']) :
    ∃ L, Piece 6 (quoted q) L := by
  have hquote := Piece.escape [q]
  have hescape : escape [q] = [q] := by simp [escape, hq]
  rw [hescape] at hquote
  have hinside := Piece.of_tree (hset.weaken fun _ _ => trivial) (by simp [Greedy])
    (plain_pairTree _ _ _) (nested_pairTree _ _ _)
  have hdot := Piece.of_tree (n := 0) (adds_dot.weaken fun _ _ => trivial) (by simp [Greedy])
    trivial (fun _ _ => rfl)
  have hpair := ((Piece.escape ['\\']).append hdot).mono (by decide : 0 ≤ 2)
  obtain ⟨t, hbody, hplain, hnested⟩ := body_either hinside hpair
  have hgroup : (Tree.group default (.flagged []) t).Plain := ⟨rfl, hplain⟩
  have hmany := Piece.repetition hbody.adds_group hgroup trivial
    (hnested.group default (.flagged [])) '*' 0 none (fun _ _ => rfl) (by simp [Greedy])
  have hh := (hquote.mono (by decide)).append (hmany.append (hquote.mono (by decide)))
  have htext : [q] ++ ("(?:".toList ++ ("[^".toList ++ (q :: "\\\\]".toList) ++
      '|' :: (escape ['\\'] ++ ".".toList)) ++ [')'] ++ ['*'] ++ [q]) = quoted q := by
    simp [quoted, escape, isMeta]
  exact ⟨_, htext ▸ hh⟩

end Regex

open Regex

theorem ParameterType.greedy_fragment (type : ParameterType) : Greedy type.fragment.toList := by
  cases type <;> simp [ParameterType.fragment, Greedy]

theorem ParameterType.body_fragment (type : ParameterType) :
    ∃ t : Tree, Body type.fragment.toList t ∧ t.Plain ∧ t.Nested 9 := by
  have hone : ∀ {n : Nat} {p : List Char}, (∃ L, Piece n p L) → n ≤ 7 →
      ∃ t : Tree, Body p t ∧ t.Plain ∧ t.Nested 9 := by
    rintro n p ⟨L, h⟩ hn
    obtain ⟨t, hbody, hplain, hnested, -⟩ := h.body
    exact ⟨t, hbody, hplain, hnested.mono (by omega)⟩
  cases type with
  | integer => exact hone piece_integer (by decide)
  | decimal => exact hone piece_decimal (by decide)
  | word => exact hone piece_word (by decide)
  | string =>
    obtain ⟨L, hdouble⟩ := piece_quoted (q := '"') rfl (Adds.step fun _ _ _ _ _ => ⟨_, _, rfl, rfl⟩)
    obtain ⟨M, hsingle⟩ := piece_quoted (q := '\'') rfl (Adds.step fun _ _ _ _ _ => ⟨_, _, rfl, rfl⟩)
    obtain ⟨t, hbody, hplain, hnested⟩ := body_either hdouble hsingle
    exact ⟨t, hbody, hplain, hnested.mono (by decide)⟩
  | anonymous => exact hone piece_anything (by decide)

/-- A group around the fragment of a type means what the fragment spans on its own. -/
theorem ParameterType.piece_group (type : ParameterType) :
    Piece 10 ('(' :: (type.fragment.toList ++ [')'])) (FullyMatches type.fragment.toList) := by
  obtain ⟨t, hbody, hplain, hnested⟩ := type.body_fragment
  have hadds := hbody.adds_capture type.greedy_fragment
  have hpiece := Piece.of_tree (hadds.weaken fun _ _ => trivial) (by simp [Greedy]) ⟨rfl, hplain⟩
    (hnested.group default .capturing)
  refine hpiece.congr fun w => ?_
  rw [Tree.spells_group rfl, hbody.fullyMatches_iff (hnested.mono (by decide))]

end StepGlue
