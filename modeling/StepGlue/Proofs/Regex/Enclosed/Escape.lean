import StepGlue.Proofs.Regex.Enclosed.Cursor

/-! Escapes in a pattern alone and in a group. One of them looks past its end: a word boundary
before a brace may be a special boundary or the beginning of a repetition. -/

namespace StepGlue.Regex

open Regex.Cursor

/-- What a primitive stands for, without its region. -/
def Primitive.bare (p : Primitive) : Tree := p.toTree.bare

theorem readHexDigits_local (start first : Nat) {ignore : Bool} {start' first' n : Nat}
    {digits : List Char} {c c' d' : Cursor} {ch : Char} (hc : c.Inside c')
    (h : readHexDigits ignore start' first' n digits c' = .ok (ch, d'))
    (hd : 2 ≤ d'.rest.length) :
    ∃ d, readHexDigits ignore start first n digits c = .ok (ch, d) ∧ d.Inside d' := by
  induction n generalizing digits c c' with
  | zero =>
    unfold readHexDigits at h ⊢
    split at h
    · cases h
      exact ⟨c, rfl, hc⟩
    · cases h
  | succ n ih =>
    unfold readHexDigits at h
    split at h
    · cases h
    · next x hx =>
      split at h
      · next hhex =>
        obtain ⟨heq, hin⟩ := hc.bumpSpace (readHexDigits_suffix h) hd
        obtain ⟨d, hh, hi⟩ := ih hin h
        refine ⟨d, ?_, hi⟩
        unfold readHexDigits
        simp only [heq.trans hx, hhex, if_true]
        exact hh
      · cases h

theorem readBracedHex_local (start : Nat) {ignore : Bool} {start' : Nat} {c c' d' : Cursor}
    {l' : Literal} (hc : c.Inside c') (h : readBracedHex ignore start' c' = .ok (l', d'))
    (hd : 2 ≤ d'.rest.length) :
    ∃ l d, readBracedHex ignore start c = .ok (l, d) ∧ l.bare = l'.bare ∧ d.Inside d' := by
  unfold readBracedHex at h
  dsimp only at h
  split at h
  · cases h
  · next hch =>
    split at h
    · cases h
    · next hne =>
      split at h
      · cases h
      · next x hx =>
        cases h
        have hs := (bumpSpace_suffix ignore _).trans (bump_suffix (takeSpaced ignore isHex
          (c'.bumpSpace ignore).rest.length (c'.bumpSpace ignore)).2)
        obtain ⟨-, hin⟩ := hc.bumpSpace (hs.trans (takeSpaced_suffix _ _ _ _)) hd
        obtain ⟨hname, hafter⟩ := takeSpaced_local hin le_rfl le_rfl hs hd
        obtain ⟨heq, hnext⟩ := hafter.bumpSpace (List.suffix_refl _) hd
        unfold readBracedHex
        simp only [heq.trans hch, hname, hne, hx]
        exact ⟨_, _, rfl, rfl, hnext⟩
  · cases h

theorem readHex_local (start : Nat) {ignore : Bool} {start' : Nat} {letter : Char} {c c' d' : Cursor}
    {l' : Literal} (hc : c.Inside c') (h : readHex ignore start' letter c' = .ok (l', d'))
    (hd : 2 ≤ d'.rest.length) :
    ∃ l d, readHex ignore start letter c = .ok (l, d) ∧ l.bare = l'.bare ∧ d.Inside d' := by
  unfold readHex at h
  dsimp only at h
  split at h
  · cases h
  · next hch =>
    have hs := (readBracedHex_suffix h).trans (bump_suffix _)
    obtain ⟨-, hin⟩ := hc.bumpSpace hs hd
    have hcc := hin.char_of_ne hch (by decide)
    obtain ⟨l, d, hl, hbare, hi⟩ := readBracedHex_local start hin h hd
    unfold readHex
    simp only [hcc]
    exact ⟨l, d, hl, hbare, hi⟩
  · next x hne hch =>
    obtain ⟨⟨y, next⟩, hy, h⟩ := bind_eq_ok.mp h
    cases h
    obtain ⟨-, hin⟩ := hc.bumpSpace (readHexDigits_suffix hy) hd
    obtain ⟨d, hdigits, hi⟩ := readHexDigits_local start (c.bumpSpace ignore).pos hin hy hd
    have hcc : (c.bumpSpace ignore).char? = some x := by
      refine hin.char_of_ne hch ?_
      rintro rfl
      -- a parenthesis is no digit, and at least two digits are asked for
      obtain ⟨k, hk⟩ : ∃ k, (if letter = 'x' then 2 else if letter = 'u' then 4 else 8) = k + 1 := by
        split
        · exact ⟨1, rfl⟩
        · split
          · exact ⟨3, rfl⟩
          · exact ⟨7, rfl⟩
      rw [hk] at hy
      unfold readHexDigits at hy
      simp only [hch] at hy
      cases hy
    unfold readHex
    simp only [hcc]
    rw [hdigits]
    exact ⟨_, _, rfl, rfl, hi⟩

theorem readNamedClass_local (start : Nat) {ignore : Bool} {start' : Nat} {neg : Bool}
    {c c' d' : Cursor} {p' : Primitive} (hc : c.Inside c')
    (h : readNamedClass ignore start' neg c' = .ok (p', d')) (hd : 2 ≤ d'.rest.length) :
    ∃ p d, readNamedClass ignore start neg c = .ok (p, d) ∧ p.bare = p'.bare ∧ d.Inside d' := by
  unfold readNamedClass at h
  dsimp only at h
  split at h
  · cases h
  · next hch =>
    split at h
    · cases h
    · next hne =>
      cases h
      have hs := bump_suffix (takeSpaced ignore (· ≠ '}')
          ((c'.bumpSpace ignore).bumpSpace ignore).rest.length
          ((c'.bumpSpace ignore).bumpSpace ignore)).2
      have hs' := hs.trans (takeSpaced_suffix _ _ _ _)
      obtain ⟨-, hin⟩ := hc.bumpSpace
        (hs'.trans ((bumpSpace_suffix _ _).trans (bump_suffix _))) hd
      have hcc := hin.char_of_ne hch (by decide)
      obtain ⟨-, hinner⟩ := hin.bumpSpace hs' hd
      obtain ⟨hname, hafter⟩ := takeSpaced_local hinner le_rfl le_rfl hs hd
      obtain ⟨x, hx⟩ := hafter.exists_char (List.suffix_refl _) hd
      obtain ⟨-, hnext⟩ := hafter.bump (List.suffix_refl _) hd
      unfold readNamedClass
      simp only [hcc]
      rw [if_neg (by rw [rest_of_char hx]; exact Bool.false_ne_true), hname]
      exact ⟨_, _, rfl, rfl, hnext⟩
  · cases h
  · next x hbrace hslash hch =>
    cases h
    obtain ⟨-, hin⟩ := hc.bumpSpace ((bumpSpace_suffix _ _).trans (bump_suffix _)) hd
    obtain ⟨heq, hnext⟩ := hin.bumpSpace (List.suffix_refl _) hd
    unfold readNamedClass
    simp only [heq.trans hch]
    exact ⟨_, _, rfl, rfl, hnext⟩

theorem readSpecialWord_local (start : Nat) {ignore : Bool} {start' : Nat} {c c' d' : Cursor}
    {k : Assertion} (hc : c.Inside c')
    (h : readSpecialWord ignore start' c' = .ok (some (k, d'))) (hd : 2 ≤ d'.rest.length) :
    ∃ d, readSpecialWord ignore start c = .ok (some (k, d)) ∧ d.Inside d' := by
  unfold readSpecialWord at h
  dsimp only at h
  split at h
  · cases h
  · next x hch =>
    split at h
    · cases h
    · next hname =>
      split at h
      · cases h
      · next hbrace =>
        split at h
        · next kind hkind =>
          cases h
          have hs := bump_suffix (takeSpaced ignore isSpecialWordChar
            (c'.bumpSpace ignore).rest.length (c'.bumpSpace ignore)).2
          obtain ⟨-, hin⟩ := hc.bumpSpace (hs.trans (takeSpaced_suffix _ _ _ _)) hd
          have hcc := hin.char_of_ne hch (by rintro rfl; exact hname rfl)
          obtain ⟨hword, hafter⟩ := takeSpaced_local hin le_rfl le_rfl hs hd
          obtain ⟨heq, hnext⟩ := hafter.bump (List.suffix_refl _) hd
          unfold readSpecialWord
          simp only [hcc]
          rw [if_neg hname, if_neg (heq ▸ hbrace), hword, hkind]
          exact ⟨_, rfl, hnext⟩
        · cases h

/-- The other reading may take the brace for a repetition only because the pattern ends there. -/
theorem readSpecialWord_none (start : Nat) {ignore : Bool} {start' : Nat} {c c' : Cursor}
    (hc : c.Inside c') {ch : Char} (hch : c.char? = some ch)
    (h : readSpecialWord ignore start' c' = .ok none) :
    readSpecialWord ignore start c = .ok none ∨ (c'.bumpSpace ignore).rest = closing := by
  unfold readSpecialWord at h
  dsimp only at h
  split at h
  · cases h
  · next x hx =>
    split at h
    · next hname =>
      rcases (hc.bump_of_char hch).2.space_or ignore with hin | hnil
      · cases hcc : (c.bumpSpace ignore).char? with
        | none =>
          refine Or.inr ?_
          have hend : (c.bump.space ignore).rest = [] := rest_eq_nil hcc
          have hrest := hin
          unfold Cursor.Inside at hrest
          rw [hend] at hrest
          exact hrest
        | some y =>
          refine Or.inl ?_
          have hy : (c'.bumpSpace ignore).char? = some y := (hin.bump_of_char hcc).1
          obtain rfl : x = y := Option.some.inj (hx.symm.trans hy)
          unfold readSpecialWord
          simp only [hcc]
          rw [if_pos hname]
      · have hrest := rest_of_char hx
        unfold Cursor.bumpSpace at hrest
        rw [hnil] at hrest
        cases hrest
    · split at h
      · cases h
      · split at h
        · cases h
        · cases h

/-- A word boundary before a brace after which only the closing parenthesis comes. -/
def Stranded (ignore : Bool) (p : Primitive) (c : Cursor) : Prop :=
  (∃ r k, p = .assertion r k) ∧ c.char? = some '{' ∧ (c.bumpSpace ignore).rest = closing

theorem readAssertion_local (r : Region) {ignore : Bool} {r' : Region} {ch : Char}
    {c c' d' : Cursor} {p' : Primitive} (hc : c.Inside c')
    (h : readAssertion ignore r' ch c' = .ok (p', d')) (hd : 2 ≤ d'.rest.length) :
    (∃ p d, readAssertion ignore r ch c = .ok (p, d) ∧ p.bare = p'.bare ∧ d.Inside d') ∨
      Stranded ignore p' d' := by
  unfold readAssertion at h ⊢
  split at h
  · cases h
  · next kind hkind =>
    split at h
    · next hword =>
      have hcc := hc.char_of_ne hword.2 (by decide)
      obtain ⟨found, hf, h⟩ := bind_eq_ok.mp h
      split at h
      · next special after =>
        cases h
        obtain ⟨d, hs, hi⟩ := readSpecialWord_local r.start hc hf hd
        refine Or.inl ⟨.assertion ⟨r.start, d.pos⟩ special, d, ?_, rfl, hi⟩
        rw [if_pos ⟨hword.1, hcc⟩, hs]
        rfl
      · cases h
        rcases readSpecialWord_none r.start hc hcc hf with hs | hs
        · refine Or.inl ⟨.assertion r kind, c, ?_, rfl, hc⟩
          rw [if_pos ⟨hword.1, hcc⟩, hs]
          rfl
        · exact Or.inr ⟨⟨_, _, rfl⟩, hword.2, hs⟩
    · next hword =>
      cases h
      refine Or.inl ⟨.assertion r kind, c, ?_, rfl, hc⟩
      rw [if_neg]
      rintro ⟨hk, hb⟩
      exact hword ⟨hk, (hc.bump_of_char hb).1⟩

theorem letterEscape_bare (r r' : Region) (ch : Char) :
    (letterEscape? r ch).map Primitive.bare = (letterEscape? r' ch).map Primitive.bare := by
  unfold letterEscape?
  split
  · rfl
  · split
    · rfl
    · cases controlEscape? ch with
      | none => rfl
      | some x => rfl

theorem readEscape_local {ignore : Bool} {c c' d' : Cursor} {p' : Primitive} (hc : c.Inside c')
    (h : readEscape ignore c' = .ok (p', d')) (hd : 2 ≤ d'.rest.length) :
    (∃ p d, readEscape ignore c = .ok (p, d) ∧ p.bare = p'.bare ∧ d.Inside d') ∨
      Stranded ignore p' d' := by
  have hs := readEscape_suffix h
  obtain ⟨-, hin⟩ := hc.bump (hs.trans (bump_suffix _)) hd
  obtain ⟨heq, hnext⟩ := hin.bump hs hd
  unfold readEscape at h ⊢
  dsimp only at h ⊢
  split at h
  · cases h
  · next x hx =>
    simp only [heq.trans hx]
    split at h
    · next hmeta =>
      cases h
      rw [if_pos hmeta]
      exact Or.inl ⟨_, _, rfl, rfl, hnext⟩
    · next hmeta =>
      rw [if_neg hmeta]
      split at h
      · cases h
      · next hdecimal =>
        rw [if_neg hdecimal]
        split at h
        · next hhex =>
          obtain ⟨⟨l', next⟩, hl, h⟩ := bind_eq_ok.mp h
          cases h
          obtain ⟨l, d, hl, hbare, hi⟩ := readHex_local c.pos hin hl hd
          rw [if_pos hhex, hl]
          exact Or.inl ⟨.literal l, d, rfl, congrArg Tree.literal hbare, hi⟩
        · next hhex =>
          rw [if_neg hhex]
          split at h
          · next hnamed =>
            rw [if_pos hnamed]
            exact Or.inl (readNamedClass_local c.pos hin h hd)
          · next hnamed =>
            rw [if_neg hnamed]
            have hletter := letterEscape_bare ⟨c.pos, c.bump.bump.pos⟩ ⟨c'.pos, c'.bump.bump.pos⟩ x
            split at h
            · next p hp =>
              cases h
              rw [hp] at hletter
              obtain ⟨q, hq, hbare⟩ := Option.map_eq_some_iff.mp hletter
              simp only [hq]
              exact Or.inl ⟨q, _, rfl, hbare, hnext⟩
            · next hp =>
              rw [hp] at hletter
              simp only [Option.map_eq_none_iff.mp hletter]
              exact readAssertion_local _ hnext h hd

theorem readPrimitive_local {ignore : Bool} {ch : Char} {c c' d' : Cursor} {p' : Primitive}
    (hc : c.Inside c') (h : readPrimitive ignore ch c' = .ok (p', d')) (hd : 2 ≤ d'.rest.length) :
    (∃ p d, readPrimitive ignore ch c = .ok (p, d) ∧ p.bare = p'.bare ∧ d.Inside d') ∨
      Stranded ignore p' d' := by
  obtain ⟨-, hin⟩ := hc.bump (readPrimitive_suffix h) hd
  unfold readPrimitive at h ⊢
  split at h
  · exact readEscape_local hc h hd
  all_goals
    cases h
    exact Or.inl ⟨_, _, rfl, rfl, hin⟩

end StepGlue.Regex
