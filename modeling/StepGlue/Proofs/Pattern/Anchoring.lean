import StepGlue.Pattern
import StepGlue.Proofs.Regex.Anchored
import StepGlue.Proofs.Regex.Enclosed.Pattern

/-! A regular expression as a step pattern.

It is put into a group between a caret and a dollar sign. The group holds it together unless it
closes a group that it did not open: then the parts around that parenthesis fall out of the group
and are anchored on one side only. Such a source is no regular expression on its own, and it is
the only kind that is compiled without being one. All of this holds whatever names of sets are
known and whatever they mean. -/

namespace StepGlue

namespace Regex

theorem lower_enclosed {sets : NamedSets} {t : Tree} {e : Expr} {f : Flags}
    (h : (enclosed t).lower sets {} = .ok (e, f)) :
    ∃ e' g, t.lower sets {} = .ok (e', g) ∧ e = anchored e' := by
  obtain ⟨a, f₁, b, ha, h, rfl⟩ := Tree.lowerItems_cons.mp h
  cases ha
  obtain ⟨e', f₂, b', hgroup, h, rfl⟩ := Tree.lowerItems_cons.mp h
  obtain ⟨⟨g, ht⟩, rfl⟩ := Tree.lower_group.mp hgroup
  cases h
  exact ⟨e', g, ht, rfl⟩

theorem compiledSize_enclosed (t : Tree) (e : Expr) :
    compiledSize (enclosed t) (anchored e) = compiledSize t e + 3 * stateSize := by
  have hcaptures : (enclosed t).captures = t.captures := by
    simp [enclosed, Tree.captures, Tree.captures.capturesOf]
  have hback := machineSize_anchored CharClass.backwardSize e
  have hforw := machineSize_anchored CharClass.forwardSize e
  unfold compiledSize
  dsimp only
  rw [hcaptures]
  split <;> omega

end Regex

open Regex

variable {sets : NamedSets}

/-- A source that is compiled closes a group it did not open, or it is a regular expression on
its own and the pattern means that it spans the whole text. -/
theorem Pattern.compile_regex {s : String} {c : Compiled}
    (h : (Pattern.regex s).compileWith sets = .ok c) :
    (∃ f, readPattern s.toList = .error f ∧ f.kind = .groupUnopened) ∨
      ∃ c', Regex.compileWith sets s = .ok c' ∧ c.expr = anchored c'.expr := by
  obtain ⟨source, hsource, h⟩ := bind_eq_ok.mp h
  cases hsource
  obtain ⟨tree, f, htree, hlower, hsize, -⟩ := compileWith_eq_ok.mp (mapError_eq_ok.mp h)
  have hchars : ("^(?:" ++ s ++ ")$").toList =
      '^' :: '(' :: '?' :: ':' :: (s.toList ++ closing) := by
    simp [closing]
  rw [hchars] at htree
  rcases readPattern_enclosed htree with hopen | ⟨t, ht, hbare⟩
  · exact Or.inl hopen
  · rw [lower_eq_ok_of_bare hbare] at hlower
    obtain ⟨e, g, he, hc⟩ := lower_enclosed hlower
    refine Or.inr ⟨⟨s, e⟩, compileWith_eq_ok.mpr ⟨t, g, ht, he, ?_, rfl⟩, hc⟩
    rw [hc, compiledSize_of_bare hbare, compiledSize_enclosed] at hsize
    exact (Nat.le_add_right _ _).trans hsize

/-- Whatever sets the names of classes mean, exactly the sources that close a group they did not
open are compiled although they are no regular expressions; all others that are compiled are
anchored to the whole text. -/
theorem Pattern.compile_regex_spans_whole_iff {s : String} {c : Compiled}
    (h : (Pattern.regex s).compileWith sets = .ok c) :
    (∃ c', Regex.compileWith sets s = .ok c' ∧ ∀ t : String,
      c.isMatch t = true ↔ Spans t.toList.toArray c'.expr 0 t.toList.toArray.size) ↔
      ¬ ∃ f, Regex.compileWith sets s = .error (.malformed s f) ∧ f.kind = .groupUnopened := by
  constructor
  · rintro ⟨c', hc, -⟩ ⟨f, hf, -⟩
    rw [hc] at hf
    cases hf
  · intro hno
    rcases Pattern.compile_regex h with ⟨f, hf, hkind⟩ | ⟨c', hc, hexpr⟩
    · refine absurd ⟨f, ?_, hkind⟩ hno
      simp only [Regex.compileWith, hf]
      rfl
    · refine ⟨c', hc, fun t => ?_⟩
      obtain ⟨source, hsource, h⟩ := bind_eq_ok.mp h
      rw [Compiled.isMatch_iff (mapError_eq_ok.mp h), hexpr, matches_anchored]

/-- One source of each kind. The second one is compiled, and matches a text that only starts with
what it seems to mean. -/
theorem Pattern.compile_regex_spans_whole_iff_samples :
    (∃ c, (Pattern.regex "a|b").compile = .ok c ∧ ∃ c', Regex.compile "a|b" = .ok c' ∧
      ∀ t : String,
        c.isMatch t = true ↔ Spans t.toList.toArray c'.expr 0 t.toList.toArray.size) ∧
    ∃ c, (Pattern.regex "a)|(?:b").compile = .ok c ∧ c.isMatch "a!" = true ∧
      ¬ ∃ c', Regex.compile "a)|(?:b" = .ok c' ∧ ∀ t : String,
        c.isMatch t = true ↔ Spans t.toList.toArray c'.expr 0 t.toList.toArray.size := by
  constructor
  · have hc : (Pattern.regex "a|b").compile =
        .ok ⟨"^(?:a|b)$", anchored (.alt (.chars [(97, 97)]) (.chars [(98, 98)]))⟩ := rfl
    have hs : Regex.compileWith namedClass "a|b" =
        .ok ⟨"a|b", .alt (.chars [(97, 97)]) (.chars [(98, 98)])⟩ := rfl
    refine ⟨_, hc, (Pattern.compile_regex_spans_whole_iff hc).mpr ?_⟩
    rintro ⟨f, hf, -⟩
    rw [hs] at hf
    cases hf
  · have hc : (Pattern.regex "a)|(?:b").compile =
        .ok ⟨"^(?:a)|(?:b)$", .alt (.seq (.look .textStart) (.seq (.chars [(97, 97)]) .empty))
          (.seq (.chars [(98, 98)]) (.seq (.look .textEnd) .empty))⟩ := rfl
    have hs : Regex.compile "a)|(?:b" =
        .error (.malformed "a)|(?:b" ⟨.groupUnopened, ⟨1, 2⟩, none⟩) := rfl
    refine ⟨_, hc, by decide +kernel, fun hanchored => ?_⟩
    exact (Pattern.compile_regex_spans_whole_iff hc).mp hanchored ⟨_, hs, rfl⟩

end StepGlue
