import StepGlue.Proofs.Expression.Meaning
import StepGlue.Proofs.Pattern.Anchoring

/-! The two dialects of step patterns.

What is written for an expression stands between a caret and a dollar sign, so it is a regular
expression of the other dialect, where it is put into a group between a second pair of them. It
spans the whole text or nothing, and the second pair asks no more than that. -/

namespace StepGlue

namespace Regex

variable {n : Nat} {p : List Char} {t : Tree}

theorem readPattern_enclosed_of_body (h : Body p t) (ht : t.Nested n) (hn : n + 2 ≤ nestLimit) :
    ∃ tree, readPattern ('^' :: ("(?:".toList ++ p ++ [')'] ++ ['$'])) = .ok tree ∧
      tree.bare = enclosed t := by
  have hgroup : ∀ u ∈ [Tree.group default (.flagged []) t], u.Nested (n + 1) := by
    simpa using ht.group default (.flagged [])
  have hadds : Adds Greedy ("(?:".toList ++ p ++ [')']) [.group default (.flagged []) t] :=
    h.adds_group.weaken fun _ _ => trivial
  exact hadds.body_anchored.readPattern ((nested_anchored hgroup).mono hn)

theorem lower_enclosed_of_lower {e : Expr} {f : Flags} (h : t.lower namedClass {} = .ok (e, f)) :
    (enclosed t).lower namedClass {} = .ok (anchored e, {}) := by
  have hgroup : (Tree.group default (.flagged []) t).lower namedClass {} = .ok (e, {}) :=
    Tree.lower_group.mpr ⟨⟨f, h⟩, rfl⟩
  refine Tree.lowerItems_cons.mpr ⟨_, {}, _, rfl, ?_, rfl⟩
  exact Tree.lowerItems_cons.mpr ⟨e, {}, _, hgroup, rfl, rfl⟩

/-- A piece between a caret and a dollar sign, and the same with a second pair around it. -/
theorem Piece.whole_enclosed {L : List Char → Prop} (h : Piece n p L) (hn : n + 3 ≤ nestLimit) :
    ∃ tree tree' e f, readPattern ('^' :: (p ++ ['$'])) = .ok tree ∧
      tree.lower namedClass {} = .ok (e, f) ∧
      readPattern ('^' :: ("(?:".toList ++ '^' :: (p ++ ['$']) ++ [')'] ++ ['$'])) = .ok tree' ∧
      tree'.bare = (enclosed tree).bare ∧ Whole e := by
  obtain ⟨t, e, hbody, hnested, he, hwhole, -⟩ := h.body_anchored
  obtain ⟨tree, hread, hbare⟩ := hbody.readPattern (hnested.mono (by omega))
  obtain ⟨tree', hread', hbare'⟩ := readPattern_enclosed_of_body hbody hnested hn
  refine ⟨tree, tree', e, {}, hread, ?_, hread', ?_, hwhole⟩
  · rw [← Tree.lower_bare_eq_ok, hbare, he]
  · rw [hbare', ← hbare]
    rfl

end Regex

open Regex

theorem Pattern.compile_of_lower {pattern : Pattern} {source : String} {tree : Tree} {e : Expr}
    {f : Flags} (hsource : pattern.regexSource = .ok source)
    (hread : readPattern source.toList = .ok tree)
    (hlower : tree.lower namedClass {} = .ok (e, f)) :
    pattern.compile = if sizeLimit < compiledSize tree e then .error (.regex .tooLarge)
      else .ok ⟨source, e⟩ := by
  simp only [Pattern.compile, Pattern.compileWith, hsource, compileWith_of_lower hread hlower,
    Except.mapError, bind, Except.bind]
  by_cases hsize : sizeLimit < compiledSize tree e
  · rw [if_pos hsize, if_pos hsize]
  · rw [if_neg hsize, if_neg hsize]

theorem piece_of_regexOfExpression {e s : String} (h : regexOfExpression e = .ok s) :
    ∃ tokens body, s.toList = '^' :: (body ++ ['$']) ∧ Piece 13 body (ReadsWords tokens) := by
  obtain ⟨tokens, -, h⟩ := bind_eq_ok.mp h
  obtain ⟨body, hbody, hs⟩ := bind_eq_ok.mp h
  cases hs
  exact ⟨tokens, body, by simp, renderFrom_piece (by simp) hbody⟩

/-- What is written for an expression is inferred to be a regular expression. It is compiled as
one whenever the expression is, unless that is so near the limit that the three states around
the group make it too large, and it matches the same texts. -/
theorem Pattern.dialects_agree {e s : String} (h : regexOfExpression e = .ok s) :
    Pattern.infer s = .regex s ∧
    ∃ tree expr f, readPattern s.toList = .ok tree ∧ tree.lower namedClass {} = .ok (expr, f) ∧
      (Pattern.expression e).compile =
        (if sizeLimit < compiledSize tree expr then .error (.regex .tooLarge)
          else .ok ⟨s, expr⟩) ∧
      (Pattern.infer s).compile =
        (if sizeLimit < compiledSize tree expr + 3 * stateSize then .error (.regex .tooLarge)
          else .ok ⟨"^(?:" ++ s ++ ")$", anchored expr⟩) ∧
      ∀ t : String, Compiled.isMatch ⟨"^(?:" ++ s ++ ")$", anchored expr⟩ t =
        Compiled.isMatch ⟨s, expr⟩ t := by
  obtain ⟨tokens, body, hchars, hpiece⟩ := piece_of_regexOfExpression h
  obtain ⟨tree, tree', expr, f, hread, hlower, hread', hbare, hwhole⟩ :=
    hpiece.whole_enclosed (by decide)
  have hinfer : Pattern.infer s = .regex s := by simp [Pattern.infer, hchars]
  have hchars' : ("^(?:" ++ s ++ ")$").toList =
      '^' :: ("(?:".toList ++ '^' :: (body ++ ['$']) ++ [')'] ++ ['$']) := by
    simp [hchars]
  rw [← hchars] at hread
  rw [← hchars'] at hread'
  have hlower' : tree'.lower namedClass {} = .ok (anchored expr, {}) :=
    (lower_eq_ok_of_bare hbare).mpr (lower_enclosed_of_lower hlower)
  refine ⟨hinfer, tree, expr, f, hread, hlower, compile_of_lower h hread hlower, ?_, fun t => ?_⟩
  · rw [hinfer, compile_of_lower rfl hread' hlower', compiledSize_of_bare hbare,
      compiledSize_enclosed]
  · have hinner := (readPattern_bounded hread).lower hlower
    have houter := (readPattern_bounded hread').lower hlower'
    rw [Bool.eq_iff_iff]
    unfold Compiled.isMatch
    rw [isMatch_iff hinner, isMatch_iff houter, hwhole.matches_anchored_iff]

/-- Alternatives and a greedy parameter, which one pair of signs anchors as well as two. -/
theorem Pattern.dialects_agree_word :
    ∃ c c', (Pattern.expression "a/b {word}").compile = .ok c ∧
      (Pattern.infer "^(?:a|b) ([^\\s]+)$").compile = .ok c' ∧
      ∀ t : String, c'.isMatch t = c.isMatch t := by
  have hregex : regexOfExpression "a/b {word}" = .ok "^(?:a|b) ([^\\s]+)$" := rfl
  obtain ⟨-, tree, expr, f, -, -, hcompile, hcompile', hmatch⟩ := Pattern.dialects_agree hregex
  have hsome : (Pattern.infer "^(?:a|b) ([^\\s]+)$").compile.toOption.isSome = true := by
    decide +kernel
  have hsize : ¬ sizeLimit < compiledSize tree expr + 3 * stateSize := by
    intro hsize
    rw [hcompile', if_pos hsize] at hsome
    cases hsome
  rw [if_neg hsize] at hcompile'
  rw [if_neg (by omega)] at hcompile
  exact ⟨_, _, hcompile, hcompile', hmatch⟩

end StepGlue
