import StepGlue.Glue.Attribute.Steps
import StepGlue.Proofs.Pattern.Dialects
import StepGlue.Proofs.Text.Offsets

/-! A text that stands for itself.

Between a caret and a dollar sign an escaped text is a row of its characters, so the text is all
that it matches. A character takes one state for each of its bytes, which bounds the size of such a
pattern by the length of the text. -/

namespace StepGlue

namespace Regex

/-! ### The size of a row of characters -/

theorem byteRuns_self (mark n k : Nat) : ∃ l, byteRuns mark n k k = [l] ∧ l.length = n + 1 := by
  induction n generalizing mark k with
  | zero => exact ⟨_, rfl, rfl⟩
  | succ n ih =>
    obtain ⟨l, hl, hlen⟩ := ih 0x80 (k % Nat.pow 64 (n + 1))
    refine ⟨(mark + k / Nat.pow 64 (n + 1), mark + k / Nat.pow 64 (n + 1)) :: l, ?_, ?_⟩
    · simp only [byteRuns, if_true]
      rw [hl]
      rfl
    · rw [List.length_cons, hlen]

/-- What a character contributes to the characters of one length. -/
theorem length_byteRuns_form (mark n k least greatest : Nat) :
    ((if max k least ≤ min k greatest then byteRuns mark n (max k least) (min k greatest)
      else []).flatMap id).length = if least ≤ k ∧ k ≤ greatest then n + 1 else 0 := by
  by_cases h : least ≤ k ∧ k ≤ greatest
  · obtain ⟨l, hl, hlen⟩ := byteRuns_self mark n k
    rw [if_pos h, max_eq_left h.1, min_eq_left h.2, if_pos (Nat.le_refl k), hl]
    simpa using hlen
  · rw [if_neg h, if_neg (by omega)]
    rfl

theorem backwardSize_single (c : Char) :
    CharClass.backwardSize (CharClass.single c) = stateSize * c.utf8Size := by
  have hsingle : CharClass.isSingle (CharClass.single c) = true := by
    simp [CharClass.single, CharClass.isSingle]
  have hvalid : c.toNat < 0xD800 ∨ 0xDFFF < c.toNat ∧ c.toNat < 0x110000 := c.valid
  have hone : c.val ≤ 0x7F ↔ c.toNat ≤ 0x7F := UInt32.le_iff_toNat_le
  have htwo : c.val ≤ 0x7FF ↔ c.toNat ≤ 0x7FF := UInt32.le_iff_toNat_le
  have hthree : c.val ≤ 0xFFFF ↔ c.toNat ≤ 0xFFFF := UInt32.le_iff_toNat_le
  have hbytes : c.utf8Size = if c.val ≤ 0x7F then 1 else if c.val ≤ 0x7FF then 2
      else if c.val ≤ 0xFFFF then 3 else 4 := rfl
  simp only [hone, htwo, hthree] at hbytes
  simp only [CharClass.backwardSize, hsingle, if_true, hbytes]
  simp only [CharClass.single, CharClass.byteSequences, byteForms, List.flatMap_cons,
    List.flatMap_nil, List.flatMap_append, List.append_nil, List.length_append,
    length_byteRuns_form]
  congr 1
  clear hbytes hone htwo hthree hsingle
  grind

theorem lowerItems_chars (s : List Char) :
    ∃ e, Tree.lower.lowerItems namedClass {} (s.map charTree) = .ok (e, {}) ∧
      e.machineSize CharClass.backwardSize = stateSize * (byteLength s + 1) := by
  induction s with
  | nil => exact ⟨.empty, rfl, rfl⟩
  | cons c s ih =>
    obtain ⟨e, he, hsize⟩ := ih
    refine ⟨.seq (.chars (CharClass.single c)) e,
      Tree.lowerItems_cons.mpr ⟨_, {}, e, rfl, he, rfl⟩, ?_⟩
    simp only [Expr.machineSize, hsize, backwardSize_single, byteLength]
    rw [← Nat.mul_add, Nat.add_assoc]

theorem captures_chars (s : List Char) : Tree.captures.capturesOf (s.map charTree) = 0 := by
  induction s with
  | nil => rfl
  | cons c s ih => simpa [Tree.captures.capturesOf, charTree, Tree.captures] using ih

/-- The row of the characters of a text. -/
def textTree (s : List Char) : Tree := rowTree (s.map charTree)

theorem lower_textTree (s : List Char) : ∃ e, (textTree s).lower namedClass {} = .ok (e, {}) ∧
    compiledSize (textTree s) e ≤ stateSize * (byteLength s + 1) := by
  rcases s with _ | ⟨c, _ | ⟨d, s⟩⟩
  · exact ⟨.empty, rfl, Nat.le_refl _⟩
  · refine ⟨.chars (CharClass.single c), rfl, ?_⟩
    have hsize : compiledSize (textTree [c]) (.chars (CharClass.single c)) =
        CharClass.backwardSize (CharClass.single c) := rfl
    rw [hsize, backwardSize_single]
    exact Nat.mul_le_mul_left _ (Nat.le_succ _)
  · obtain ⟨e, he, hsize⟩ := lowerItems_chars (c :: d :: s)
    refine ⟨e, he, ?_⟩
    have hcaptures : (textTree (c :: d :: s)).captures = 0 := captures_chars (c :: d :: s)
    simp only [compiledSize, hcaptures, if_true, hsize, Nat.le_refl]

theorem body_escape (s : List Char) : Body (escape s) (textTree s) := by
  have hone : ∀ x ∈ [(escape s, s.map charTree)], Adds Greedy x.1 x.2 := by
    simpa using (adds_escape s).weaken fun _ _ => trivial
  exact body_joinBars (List.cons_ne_nil _ _) hone

theorem bare_textTree (s : List Char) : (textTree s).bare = textTree s := by
  rcases s with _ | ⟨c, _ | ⟨d, s⟩⟩
  · rfl
  · rfl
  · simp [textTree, rowTree, Tree.bare, Tree.bareAll_eq_map, charTree, Literal.bare]

theorem nested_textTree (s : List Char) : (textTree s).Nested 1 := by
  refine nested_rowTree fun t ht => ?_
  obtain ⟨c, -, rfl⟩ := List.mem_map.mp ht
  exact nested_charTree 0 c

theorem spells_textTree {s w : List Char} : (textTree s).Spells w ↔ w = s := by
  have hplain : ∀ t ∈ s.map charTree, t.Plain := by
    intro t ht
    obtain ⟨c, -, rfl⟩ := List.mem_map.mp ht
    trivial
  exact (spells_rowTree hplain).trans spellsAll_chars

/-- Put into a group between a caret and a dollar sign, an escaped text is read as a row of its
characters, and its size grows with the length of the text. -/
theorem readPattern_escape (s : List Char) :
    ∃ tree e, readPattern ('^' :: ("(?:".toList ++ escape s ++ [')'] ++ ['$'])) = .ok tree ∧
      tree.lower namedClass {} = .ok (anchored e, {}) ∧
      compiledSize tree (anchored e) ≤ stateSize * (byteLength s + 4) ∧
      ∀ w, Accepts e w ↔ w = s := by
  obtain ⟨e, he, hsize⟩ := lower_textTree s
  obtain ⟨tree, hread, hbare⟩ :=
    readPattern_enclosed_of_body (body_escape s) (nested_textTree s) (by decide)
  replace hbare : tree.bare = (enclosed (textTree s)).bare := by
    rw [hbare, enclosed, Tree.bare, Tree.bareAll_eq_map]
    simp [Tree.bare, bare_textTree]
  refine ⟨tree, e, hread, (lower_eq_ok_of_bare hbare).mpr (lower_enclosed_of_lower he), ?_, ?_⟩
  · rw [compiledSize_of_bare hbare, compiledSize_enclosed]
    simp only [Nat.mul_add] at hsize ⊢
    omega
  · exact fun w => (Tree.spells_iff he w).symm.trans spells_textTree

end Regex

open Regex

/-- The pattern of an attribute whose first argument is a text matches just this text. It is
compiled unless it is too large, and no text up to some length is. -/
theorem Attribute.text_argument_matches_only (function : String) (path : List String)
    (line pathLine n closed : Nat) (rest : List Attribute.Token) (v : String) :
    let p := Pattern.regex (String.ofList (escape v.toList))
    Attribute.pattern function ⟨path, line, pathLine, .list (.text v n :: rest) closed⟩ = .ok p ∧
      ∃ c : Compiled, (p.compile = .ok c ∨ p.compile = .error (.regex .tooLarge)) ∧
        (stateSize * (byteLength v.toList + 4) ≤ sizeLimit → p.compile = .ok c) ∧
        ∀ t : String, c.isMatch t = true ↔ t = v := by
  intro p
  obtain ⟨tree, e, hread, hlower, hsize, haccepts⟩ := readPattern_escape v.toList
  let source := "^(?:" ++ String.ofList (escape v.toList) ++ ")$"
  have hchars : source.toList = '^' :: ("(?:".toList ++ escape v.toList ++ [')'] ++ ['$']) := by
    simp [source]
  rw [← hchars] at hread
  have hcompile : p.compile = if sizeLimit < compiledSize tree (anchored e) then
      .error (.regex .tooLarge) else .ok ⟨source, anchored e⟩ :=
    Pattern.compile_of_lower rfl hread hlower
  refine ⟨rfl, ⟨source, anchored e⟩, ?_, fun hfits => ?_, fun t => ?_⟩
  · rw [hcompile]
    split
    · exact Or.inr rfl
    · exact Or.inl rfl
  · rw [hcompile, if_neg (by omega)]
  · unfold Compiled.isMatch
    rw [isMatch_iff ((readPattern_bounded hread).lower hlower), matches_anchored,
      ← String.toList_inj, ← haccepts]
    simp [Accepts]

end StepGlue
