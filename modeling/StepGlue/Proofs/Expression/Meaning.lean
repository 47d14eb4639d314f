import StepGlue.Pattern
import StepGlue.Proofs.Parameter

/-! The regular expression of a step expression means what its tokens say.

The tokens are given a meaning of their own: a text is read along them if it can be cut so that
each part stands for its token. Every part that is written for a token, a word or a row of words
is a piece with that meaning, and a piece between a caret and a dollar sign spans the whole
text. -/

namespace StepGlue

open Regex

/-! ### What the tokens say -/

def Token.isSlash : Token → Bool
  | .slash _ => true
  | _ => false

def Token.isBlank : Token → Bool
  | .blank _ => true
  | _ => false

/-- What may stand for a token. A slash only cuts its word, and nothing stands for it. -/
def Token.Reads : Token → List Char → Prop
  | .text s, w | .blank s, w => w = s
  | .optional _ s, w => w = [] ∨ w = s
  | .parameter _ name, w => ∃ type, ParameterType.ofName? (String.ofList name) = some type ∧
      FullyMatches type.fragment.toList w
  | .slash _, _ => False

/-- The text is cut along the tokens. -/
def ReadsAll : List Token → List Char → Prop
  | [], w => w = []
  | t :: ts, w => ∃ u v, w = u ++ v ∧ t.Reads u ∧ ReadsAll ts v

/-- The text is one of the alternatives that the slashes of a word cut it into. A word without a
slash is its only alternative. -/
def ReadsWord (word : List Token) (w : List Char) : Prop :=
  ∃ a ∈ word.splitOnP Token.isSlash, ReadsAll a w

/-- The text is cut along the words, and the blanks between them stand for themselves. -/
inductive ReadsWords : List Token → List Char → Prop
  | last {word : List Token} {w : List Char} (hword : ∀ t ∈ word, t.isBlank = false)
      (h : ReadsWord word w) : ReadsWords word w
  | more {word ts : List Token} {s u v : List Char} (hword : ∀ t ∈ word, t.isBlank = false)
      (hu : ReadsWord word u) (hv : ReadsWords ts v) :
      ReadsWords (word ++ .blank s :: ts) (u ++ s ++ v)

theorem append_blank_inj {word word' ts ts' : List Token} {s s' : List Char}
    (hword : ∀ t ∈ word, t.isBlank = false) (hword' : ∀ t ∈ word', t.isBlank = false)
    (h : word ++ .blank s :: ts = word' ++ .blank s' :: ts') :
    word = word' ∧ s = s' ∧ ts = ts' := by
  induction word generalizing word' with
  | nil =>
    cases word' with
    | nil => simpa using h
    | cons t word' =>
      have ht := hword' t List.mem_cons_self
      rw [← (List.cons.inj h).1] at ht
      cases ht
  | cons t word ih =>
    obtain ⟨ht, hword⟩ := List.forall_mem_cons.mp hword
    cases word' with
    | nil =>
      rw [(List.cons.inj h).1] at ht
      cases ht
    | cons t' word' =>
      obtain ⟨rfl, hrest⟩ := List.cons.inj h
      have hh := ih hword (List.forall_mem_cons.mp hword').2 hrest
      exact ⟨by rw [hh.1], hh.2⟩

theorem readsWords_last {word : List Token} (hword : ∀ t ∈ word, t.isBlank = false)
    {w : List Char} : ReadsWords word w ↔ ReadsWord word w := by
  constructor
  · intro h
    cases h with
    | last _ h => exact h
    | more _ _ _ =>
      have hblank := hword _ (List.mem_append_right _ List.mem_cons_self)
      cases hblank
  · exact ReadsWords.last hword

theorem readsWords_more {word ts : List Token} (hword : ∀ t ∈ word, t.isBlank = false)
    {s w : List Char} : ReadsWords (word ++ .blank s :: ts) w ↔
      ∃ u v, w = u ++ s ++ v ∧ ReadsWord word u ∧ ReadsWords ts v := by
  constructor
  · intro h
    generalize hall : word ++ .blank s :: ts = tokens at h
    cases h with
    | last hblank _ =>
      have hs := hblank (.blank s) (hall ▸ List.mem_append_right _ List.mem_cons_self)
      cases hs
    | more hword' hu hv =>
      obtain ⟨rfl, rfl, rfl⟩ := append_blank_inj hword hword' hall
      exact ⟨_, _, rfl, hu, hv⟩
  · rintro ⟨u, v, rfl, hu, hv⟩
    exact ReadsWords.more hword hu hv

/-! ### What is written for them -/

theorem renderToken_piece {t : Token} (ht : t.isSlash = false) {p : List Char}
    (h : renderToken t = .ok p) : Piece 10 p t.Reads := by
  cases t with
  | text s =>
    cases h
    exact (Piece.escape s).mono (by decide)
  | blank s =>
    cases h
    exact (Piece.escape s).mono (by decide)
  | optional start s =>
    cases h
    exact (Piece.escape s).optional.mono (by decide)
  | parameter start name =>
    simp only [renderToken] at h
    split at h
    · next type htype =>
      cases h
      refine type.piece_group.congr fun w => ?_
      constructor
      · exact fun hw => ⟨type, htype, hw⟩
      · rintro ⟨type', htype', hw⟩
        rw [htype] at htype'
        cases htype'
        exact hw
    · cases h
  | slash start => cases ht

theorem renderTokens_piece {ts : List Token} (hts : ∀ t ∈ ts, t.isSlash = false) {p : List Char}
    (h : renderTokens ts = .ok p) : Piece 10 p (ReadsAll ts) := by
  induction ts generalizing p with
  | nil =>
    cases h
    exact Piece.nil 10
  | cons t ts ih =>
    obtain ⟨ht, hts⟩ := List.forall_mem_cons.mp hts
    obtain ⟨a, ha, h⟩ := bind_eq_ok.mp h
    obtain ⟨b, hb, h⟩ := bind_eq_ok.mp h
    cases h
    exact (renderToken_piece ht ha).append (ih hts hb)

theorem alternatives_cons {t : Token} (ht : t.isSlash = false) (ts : List Token) :
    alternatives (t :: ts) = match alternatives ts with
      | [] => [[t]]
      | a :: as => (t :: a) :: as := by
  cases t with
  | slash start => cases ht
  | _ => rfl

theorem alternatives_eq_splitOnP (word : List Token) :
    alternatives word = word.splitOnP Token.isSlash := by
  induction word with
  | nil => rfl
  | cons t ts ih =>
    rw [List.splitOnP_cons_eq_if_modifyHead]
    by_cases ht : t.isSlash = true
    · rw [if_pos ht, ← ih]
      cases t with
      | slash start => rfl
      | _ => cases ht
    · rw [if_neg ht, alternatives_cons (Bool.not_eq_true _ ▸ ht), ih]
      have hne := List.splitOnP_ne_nil Token.isSlash ts
      cases hts : ts.splitOnP Token.isSlash with
      | nil => exact absurd hts hne
      | cons a as => rfl

theorem isSlash_of_mem_alternatives {word a : List Token} (ha : a ∈ alternatives word) :
    ∀ t ∈ a, t.isSlash = false := by
  induction word generalizing a with
  | nil =>
    obtain rfl := List.mem_singleton.mp ha
    exact nofun
  | cons t ts ih =>
    by_cases ht : t.isSlash = false
    · rw [alternatives_cons ht] at ha
      split at ha
      · obtain rfl := List.mem_singleton.mp ha
        simpa using ht
      · next b bs hb =>
        rw [hb] at ih
        rcases List.mem_cons.mp ha with rfl | ha
        · exact List.forall_mem_cons.mpr ⟨ht, ih List.mem_cons_self⟩
        · exact ih (List.mem_cons_of_mem _ ha)
    · cases t with
      | slash start =>
        rcases List.mem_cons.mp ha with rfl | ha
        · exact nofun
        · exact ih ha
      | _ => exact absurd rfl ht

theorem firstSlash?_eq_none {word : List Token} :
    firstSlash? word = none ↔ ∀ t ∈ word, t.isSlash = false := by
  induction word with
  | nil => simp [firstSlash?]
  | cons t ts ih =>
    cases t with
    | slash start => simp [firstSlash?, Token.isSlash]
    | _ => simpa [firstSlash?, Token.isSlash] using ih

theorem mapM_renderTokens_pieces {parts : List (List Token)} {rendered : List (List Char)}
    (hslash : ∀ a ∈ parts, ∀ t ∈ a, t.isSlash = false)
    (h : parts.mapM renderTokens = .ok rendered) :
    ∃ pieces : List (List Char × (List Char → Prop)), pieces.map (·.1) = rendered ∧
      pieces.map (·.2) = parts.map ReadsAll ∧ ∀ x ∈ pieces, Piece 10 x.1 x.2 := by
  induction parts generalizing rendered with
  | nil =>
    cases h
    exact ⟨[], rfl, rfl, nofun⟩
  | cons a parts ih =>
    obtain ⟨ha, hparts⟩ := List.forall_mem_cons.mp hslash
    rw [List.mapM_cons] at h
    obtain ⟨p, hp, h⟩ := bind_eq_ok.mp h
    obtain ⟨ps, hps, h⟩ := bind_eq_ok.mp h
    cases h
    obtain ⟨pieces, rfl, hmeans, hpieces⟩ := ih hparts hps
    refine ⟨(p, ReadsAll a) :: pieces, rfl, by simp [hmeans], ?_⟩
    exact List.forall_mem_cons.mpr ⟨renderTokens_piece ha hp, hpieces⟩

theorem alternatives_piece {word : List Token} {rendered : List (List Char)}
    (h : (alternatives word).mapM renderTokens = .ok rendered) :
    Piece 13 ("(?:".toList ++ joinBars rendered ++ [')']) (ReadsWord word) := by
  obtain ⟨pieces, rfl, hmeans, hpieces⟩ :=
    mapM_renderTokens_pieces (fun a ha => isSlash_of_mem_alternatives ha) h
  rw [alternatives_eq_splitOnP] at hmeans
  have hne : pieces ≠ [] := by
    rintro rfl
    exact List.splitOnP_ne_nil _ _ (List.map_eq_nil_iff.mp hmeans.symm)
  refine (Piece.alternatives hne hpieces).congr fun w => ?_
  have hany : (∃ L ∈ pieces.map (·.2), L w) ↔
      ∃ L ∈ (word.splitOnP Token.isSlash).map ReadsAll, L w := by rw [hmeans]
  simpa only [List.mem_map, exists_exists_and_eq_and, ReadsWord] using hany

theorem renderWord_piece {word : List Token} {p : List Char} (h : renderWord word = .ok p) :
    Piece 13 p (ReadsWord word) := by
  unfold renderWord at h
  split at h
  · next hslash =>
    replace hslash := firstSlash?_eq_none.mp hslash
    refine ((renderTokens_piece hslash h).mono (by decide)).congr fun w => ?_
    simp [ReadsWord, List.splitOnP_eq_singleton hslash]
  · split at h
    · cases h
    · dsimp only at h
      split at h
      · cases h
      · obtain ⟨rendered, hrendered, h⟩ := bind_eq_ok.mp h
        cases h
        exact alternatives_piece hrendered

theorem renderFrom_cons {t : Token} (ht : t.isBlank = false) (word ts : List Token) :
    renderFrom word (t :: ts) = renderFrom (word ++ [t]) ts := by
  cases t with
  | blank s => cases ht
  | _ => rfl

theorem renderFrom_piece {word ts : List Token} (hword : ∀ t ∈ word, t.isBlank = false)
    {p : List Char} (h : renderFrom word ts = .ok p) : Piece 13 p (ReadsWords (word ++ ts)) := by
  induction ts generalizing word p with
  | nil =>
    rw [List.append_nil]
    exact (renderWord_piece h).congr fun w => (readsWords_last hword).symm
  | cons t ts ih =>
    by_cases ht : t.isBlank = false
    · rw [renderFrom_cons ht] at h
      have hword' : ∀ u ∈ word ++ [t], u.isBlank = false := by
        intro u hu
        rcases List.mem_append.mp hu with hu | hu
        · exact hword u hu
        · rw [List.mem_singleton.mp hu, ht]
      have hh := ih hword' h
      rwa [List.append_assoc] at hh
    · cases t with
      | blank s =>
        obtain ⟨a, ha, h⟩ := bind_eq_ok.mp h
        obtain ⟨b, hb, h⟩ := bind_eq_ok.mp h
        cases h
        have hfirst := (renderWord_piece ha).append ((Piece.escape s).mono (Nat.zero_le 13))
        have hrest : Piece 13 b (ReadsWords ([] ++ ts)) := ih (by simp) hb
        refine (hfirst.append hrest).congr fun w => ?_
        rw [readsWords_more hword]
        constructor
        · rintro ⟨-, v, rfl, ⟨u, -, rfl, hu, rfl⟩, hv⟩
          exact ⟨u, v, rfl, hu, hv⟩
        · rintro ⟨u, v, rfl, hu, hv⟩
          exact ⟨u ++ s, v, rfl, ⟨u, s, rfl, hu, rfl⟩, hv⟩
      | _ => exact absurd rfl ht

/-- What is written for an expression is a regular expression, it is compiled unless it is too
large, and it matches exactly the texts that the tokens of the expression say. -/
theorem compile_expression_reads {e r : String} (h : regexOfExpression e = .ok r) :
    ∃ tokens tree expr f, lexExpression e = .ok tokens ∧ readPattern r.toList = .ok tree ∧
      tree.lower namedClass {} = .ok (expr, f) ∧
      (Pattern.expression e).compile =
        (if sizeLimit < compiledSize tree expr then .error (.regex .tooLarge)
          else .ok ⟨r, expr⟩) ∧
      ∀ t : String, Compiled.isMatch ⟨r, expr⟩ t = true ↔ ReadsWords tokens t.toList := by
  obtain ⟨tokens, htokens, hbody⟩ := bind_eq_ok.mp h
  obtain ⟨body, hbody, hr⟩ := bind_eq_ok.mp hbody
  have hpiece : Piece 13 body (ReadsWords ([] ++ tokens)) := renderFrom_piece (by simp) hbody
  obtain ⟨tree, expr, f, hread, hlower, hmatches⟩ := hpiece.whole (by decide)
  have hchars : r.toList = '^' :: (body ++ ['$']) := by
    cases hr
    simp
  rw [← hchars] at hread
  refine ⟨tokens, tree, expr, f, htokens, hread, hlower, ?_, fun t => ?_⟩
  · have hsource : (Pattern.expression e).regexSource = .ok r := h
    simp only [Pattern.compile, Pattern.compileWith, hsource, compileWith_of_lower hread hlower,
      Except.mapError, bind, Except.bind]
    by_cases hsize : sizeLimit < compiledSize tree expr
    · rw [if_pos hsize, if_pos hsize]
    · rw [if_neg hsize, if_neg hsize]
  · have hbounded := (readPattern_bounded hread).lower hlower
    unfold Compiled.isMatch
    rw [isMatch_iff hbounded, hmatches]
    rfl

/-- An expression with signs that mean something in a regular expression. -/
theorem compile_expression_reads_sample :
    ∃ c, (Pattern.expression "a.b/c(+)").compile = .ok c ∧
      ∀ t : String, c.isMatch t = true ↔ t.toList ∈ ["a.b".toList, "c".toList, "c+".toList] := by
  have hregex : regexOfExpression "a.b/c(+)" = .ok "^(?:a\\.b|c(?:\\+)?)$" := rfl
  obtain ⟨tokens, tree, expr, f, htokens, -, -, hcompile, hmatch⟩ :=
    compile_expression_reads hregex
  have hlex : lexExpression "a.b/c(+)" =
      .ok [.text ['a', '.', 'b'], .slash 3, .text ['c'], .optional 5 ['+']] := rfl
  rw [hlex] at htokens
  cases htokens
  have hsome : (Pattern.expression "a.b/c(+)").compile.toOption.isSome = true := by
    decide +kernel
  have hsize : ¬ sizeLimit < compiledSize tree expr := by
    intro hsize
    rw [hcompile, if_pos hsize] at hsome
    cases hsome
  rw [if_neg hsize] at hcompile
  refine ⟨_, hcompile, fun t => ?_⟩
  rw [hmatch, readsWords_last (by decide), ReadsWord, ← alternatives_eq_splitOnP]
  simp only [alternatives, List.exists_mem_cons_iff, ReadsAll, Token.Reads]
  constructor
  · rintro (⟨-, -, h, rfl, rfl⟩ | ⟨-, -, h, rfl, -, -, rfl, rfl | rfl, rfl⟩ | ⟨a, ⟨⟩, -⟩)
    · simp [h]
    · simp [h]
    · simp [h]
  · intro h
    simp only [List.mem_cons, List.not_mem_nil, or_false] at h
    rcases h with h | h | h
    · exact Or.inl ⟨_, [], h, rfl, rfl⟩
    · exact Or.inr (Or.inl ⟨['c'], [], h, rfl, [], [], rfl, Or.inl rfl, rfl⟩)
    · exact Or.inr (Or.inl ⟨['c'], ['+'], h, rfl, ['+'], [], rfl, Or.inr rfl, rfl⟩)

end StepGlue
