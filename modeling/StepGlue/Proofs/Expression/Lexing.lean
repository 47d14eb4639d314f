import Mathlib.Data.List.Chain
import Mathlib.Tactic.Tauto
import StepGlue.Expression
import StepGlue.Proofs.Except

/-! Expressions and the rows of tokens that they are cut into.

Every row that comes out is canonical: nothing in it is empty, and text does not stand beside text
nor blanks beside blanks. Every canonical row comes out of an expression, the one that is written
by putting a backslash before each character of a text. -/

namespace StepGlue

/-- Puts a backslash before every character. -/
def escapeAll : List Char → List Char
  | [] => []
  | c :: s => '\\' :: c :: escapeAll s

/-- A character that the name of a parameter may hold. -/
def IsNameChar (c : Char) : Prop := isBlank c = false ∧ c ∉ ['{', '}', '(', ')', '/', '\\']

instance : DecidablePred IsNameChar := fun _ => inferInstanceAs (Decidable (_ ∧ _))

theorem isNameChar_iff {c : Char} :
    IsNameChar c ↔ c ≠ '}' ∧ isNameStop c = false ∧ isBlank c = false := by
  simp only [IsNameChar, isNameStop, List.mem_cons, List.not_mem_nil, or_false, not_or,
    Bool.or_eq_false_iff, decide_eq_false_iff_not]
  tauto

namespace Token

def WellFormed : Token → Prop
  | .text s => s ≠ []
  | .blank s => s ≠ [] ∧ ∀ c ∈ s, isBlank c = true
  | .optional _ s => s ≠ []
  | .parameter _ name => ∀ c ∈ name, IsNameChar c
  | .slash _ => True

instance : DecidablePred WellFormed
  | .text s | .optional _ s => inferInstanceAs (Decidable (s ≠ []))
  | .blank s => decidable_of_iff (s ≠ [] ∧ s.all isBlank = true) (by simp [WellFormed])
  | .parameter _ name =>
    decidable_of_iff (name.all (decide <| IsNameChar ·) = true) (by simp [WellFormed])
  | .slash _ => inferInstanceAs (Decidable True)

/-- Two tokens that would be one if they touched. -/
def joins : Token → Token → Bool
  | .text _, t => (t matches .text _)
  | .blank _, t => (t matches .blank _)
  | _, _ => false

/-- The token without the place where it was found. -/
def bare : Token → Token
  | .text s => .text s
  | .blank s => .blank s
  | .optional _ s => .optional 0 s
  | .parameter _ name => .parameter 0 name
  | .slash _ => .slash 0

def written : Token → List Char
  | .text s => escapeAll s
  | .blank s => s
  | .optional _ s => '(' :: (escapeAll s ++ [')'])
  | .parameter _ name => '{' :: (name ++ ['}'])
  | .slash _ => ['/']

end Token

/-- A row in which nothing is empty or misplaced, and no two neighbours would be one. -/
structure Canonical (ts : List Token) : Prop where
  tokens : ∀ t ∈ ts, t.WellFormed
  apart : ts.IsChain fun a b => a.joins b = false

instance (ts : List Token) : Decidable (Canonical ts) :=
  decidable_of_iff ((∀ t ∈ ts, t.WellFormed) ∧ ts.IsChain fun a b => a.joins b = false)
    ⟨fun h => ⟨h.1, h.2⟩, fun h => ⟨h.tokens, h.apart⟩⟩

namespace Canonical

theorem nil : Canonical [] := ⟨nofun, .nil⟩

theorem cons_iff {t : Token} {ts : List Token} : Canonical (t :: ts) ↔
    t.WellFormed ∧ (∀ u ∈ ts.head?, t.joins u = false) ∧ Canonical ts := by
  constructor
  · intro h
    obtain ⟨ht, hts⟩ := List.forall_mem_cons.mp h.tokens
    obtain ⟨hjoin, hchain⟩ := List.isChain_cons.mp h.apart
    exact ⟨ht, hjoin, hts, hchain⟩
  · rintro ⟨ht, hjoin, hts⟩
    exact ⟨List.forall_mem_cons.mpr ⟨ht, hts.tokens⟩, List.isChain_cons.mpr ⟨hjoin, hts.apart⟩⟩

theorem consText {ts : List Token} (h : Canonical ts) (c : Char) :
    Canonical (StepGlue.consText c ts) := by
  cases ts with
  | nil => exact cons_iff.mpr ⟨List.cons_ne_nil c [], nofun, nil⟩
  | cons t ts =>
    obtain ⟨-, hjoin, hts⟩ := cons_iff.mp h
    cases t with
    | text s => exact cons_iff.mpr ⟨List.cons_ne_nil c s, hjoin, hts⟩
    | _ => exact cons_iff.mpr ⟨List.cons_ne_nil c [], by simp [Token.joins], h⟩

theorem consBlank {ts : List Token} (h : Canonical ts) {c : Char} (hc : isBlank c = true) :
    Canonical (StepGlue.consBlank c ts) := by
  have hone : (Token.blank [c]).WellFormed := ⟨List.cons_ne_nil c [], by simpa using hc⟩
  cases ts with
  | nil => exact cons_iff.mpr ⟨hone, nofun, nil⟩
  | cons t ts =>
    obtain ⟨ht, hjoin, hts⟩ := cons_iff.mp h
    cases t with
    | blank s =>
      have hmore : (Token.blank (c :: s)).WellFormed :=
        ⟨List.cons_ne_nil c s, List.forall_mem_cons.mpr ⟨hc, ht.2⟩⟩
      exact cons_iff.mpr ⟨hmore, hjoin, hts⟩
    | _ => exact cons_iff.mpr ⟨hone, by simp [Token.joins], h⟩

end Canonical

/-! ### What is cut is canonical -/

theorem lexParameter_eq_ok {start pos : Nat} {name s : List Char} {ts : List Token}
    (h : lexParameter start name pos s = .ok ts) :
    ∃ more rest pos' us, s = more ++ '}' :: rest ∧
      (∀ c ∈ more, IsNameChar c) ∧ lexText pos' rest = .ok us ∧
      ts = .parameter start (name ++ more) :: us := by
  induction s generalizing name pos with
  | nil => simp [lexParameter] at h
  | cons c s ih =>
    rw [lexParameter] at h
    by_cases hclose : c = '}'
    · rw [if_pos hclose] at h
      obtain ⟨us, hus, rfl⟩ := map_eq_ok.mp h
      exact ⟨[], s, pos + 1, us, by rw [hclose]; rfl, nofun, hus, by simp⟩
    · rw [if_neg hclose] at h
      split at h
      · cases h
      · next hstop =>
        split at h
        · cases h
        · next hblank =>
          obtain ⟨more, rest, pos', us, rfl, hmore, hus, rfl⟩ := ih h
          have hc : IsNameChar c :=
            isNameChar_iff.mpr ⟨hclose, by simpa using hstop, by simpa using hblank⟩
          exact ⟨c :: more, rest, pos', us, rfl, List.forall_mem_cons.mpr ⟨hc, hmore⟩, hus,
            by simp⟩

theorem lexOptional_eq_ok {start pos : Nat} {text s : List Char} {ts : List Token}
    (h : lexOptional start text pos s = .ok ts) :
    ∃ more rest pos' us, rest.length < s.length ∧ text ++ more ≠ [] ∧
      lexText pos' rest = .ok us ∧ ts = .optional start (text ++ more) :: us := by
  induction hn : s.length using Nat.strong_induction_on generalizing pos s text with
  | _ n ih =>
    subst hn
    -- a character of the text, with a backslash before it or without
    have hnext : ∀ {c s' pos'}, s'.length < s.length →
        lexOptional start (text ++ [c]) pos' s' = .ok ts →
        ∃ more rest pos' us, rest.length < s.length ∧ text ++ more ≠ [] ∧
          lexText pos' rest = .ok us ∧ ts = .optional start (text ++ more) :: us := by
      intro c s' pos' hlt h
      obtain ⟨more, rest, pos', us, hrest, hne, hus, hts⟩ := ih _ hlt h rfl
      rw [List.append_assoc] at hne hts
      exact ⟨[c] ++ more, rest, pos', us, hrest.trans hlt, hne, hus, hts⟩
    fun_cases lexOptional start text pos s with
    | case1 => simp [lexOptional] at h
    | case2 => simp [lexOptional] at h
    | case3 c s =>
      have hlt : s.length < ('\\' :: c :: s).length := by simp only [List.length_cons]; omega
      rw [lexOptional] at h
      exact hnext hlt h
    | case4 s hempty => simp [lexOptional, hempty] at h
    | case5 s hempty =>
      simp only [lexOptional, if_true, hempty] at h
      obtain ⟨us, hus, rfl⟩ := map_eq_ok.mp h
      refine ⟨[], s, pos + 1, us, by simp, ?_, hus, by simp⟩
      simpa using hempty
    | case6 c s _ _ hclose hnested =>
      simp only [lexOptional, if_neg hclose, if_pos hnested] at h
      cases h
    | case7 c s _ _ hclose hnested =>
      simp only [lexOptional, if_neg hclose, if_neg hnested] at h
      exact hnext (by simp) h

theorem canonical_of_lexText {pos : Nat} {s : List Char} {ts : List Token}
    (h : lexText pos s = .ok ts) : Canonical ts := by
  -- by length, as names and optional texts are passed over as a whole
  induction hn : s.length using Nat.strong_induction_on generalizing pos s ts with
  | _ n ih =>
    subst hn
    fun_cases lexText pos s with
    | case1 =>
      cases h
      exact .nil
    | case2 =>
      cases h
      exact Canonical.nil.consText '\\'
    | case3 c s =>
      have hlt : s.length < ('\\' :: c :: s).length := by simp only [List.length_cons]; omega
      obtain ⟨us, hus, rfl⟩ := map_eq_ok.mp h
      exact (ih _ hlt hus rfl).consText c
    | case4 s =>
      obtain ⟨more, rest, pos', us, rfl, hmore, hus, rfl⟩ := lexParameter_eq_ok h
      exact Canonical.cons_iff.mpr ⟨hmore, by simp [Token.joins], ih _ (by simp; omega) hus rfl⟩
    | case5 s =>
      obtain ⟨more, rest, pos', us, hrest, hne, hus, rfl⟩ := lexOptional_eq_ok h
      have hlt : rest.length < ('(' :: s).length := hrest.trans (by simp)
      exact Canonical.cons_iff.mpr ⟨hne, by simp [Token.joins], ih _ hlt hus rfl⟩
    | case6 s =>
      obtain ⟨us, hus, rfl⟩ := map_eq_ok.mp h
      exact Canonical.cons_iff.mpr ⟨trivial, by simp [Token.joins], ih _ (by simp) hus rfl⟩
    | case7 => cases h
    | case8 => cases h
    | case9 c s =>
      simp only [lexText] at h
      obtain ⟨us, hus, rfl⟩ := map_eq_ok.mp h
      have hc := ih _ (by simp) hus rfl
      by_cases hblank : isBlank c = true
      · rw [if_pos hblank]
        exact hc.consBlank hblank
      · rw [if_neg hblank]
        exact hc.consText c

/-! ### What is written is cut into the same tokens -/

/-- The expression that a row of tokens is written as. -/
def expressionOf (ts : List Token) : String := String.ofList (ts.flatMap Token.written)

theorem consText_of_apart {us : List Token}
    (h : ∀ u ∈ us.head?, (Token.text []).joins u = false) (c : Char) :
    consText c us = .text [c] :: us := by
  cases us with
  | nil => rfl
  | cons u us =>
    have hu := h u rfl
    cases u with
    | text s => cases hu
    | _ => rfl

theorem consBlank_of_apart {us : List Token}
    (h : ∀ u ∈ us.head?, (Token.blank []).joins u = false) (c : Char) :
    consBlank c us = .blank [c] :: us := by
  cases us with
  | nil => rfl
  | cons u us =>
    have hu := h u rfl
    cases u with
    | blank s => cases hu
    | _ => rfl

/-- Characters that are put down one by one, and join, are one token. -/
theorem foldr_join {token : List Char → Token} {put : Char → List Token → List Token}
    {us : List Token} (hfirst : ∀ c, put c us = token [c] :: us)
    (hnext : ∀ c s, put c (token s :: us) = token (c :: s) :: us) {s : List Char} (hs : s ≠ []) :
    s.foldr put us = token s :: us := by
  induction s with
  | nil => exact absurd rfl hs
  | cons c s ih =>
    by_cases hnil : s = []
    · subst hnil
      exact hfirst c
    · rw [List.foldr_cons, ih hnil, hnext]

theorem map_bare_consText (c : Char) (ts : List Token) :
    (consText c ts).map Token.bare = consText c (ts.map Token.bare) := by
  cases ts with
  | nil => rfl
  | cons t ts => cases t <;> rfl

theorem map_bare_consBlank (c : Char) (ts : List Token) :
    (consBlank c ts).map Token.bare = consBlank c (ts.map Token.bare) := by
  cases ts with
  | nil => rfl
  | cons t ts => cases t <;> rfl

/-- Wherever the characters stand, they are cut into these tokens, up to their places. -/
def CutInto (s : List Char) (ts : List Token) : Prop :=
  ∀ pos, ∃ us, lexText pos s = .ok us ∧ us.map Token.bare = ts.map Token.bare

namespace CutInto

variable {rest : List Char} {ts : List Token}

theorem escaped (h : CutInto rest ts) (c : Char) :
    CutInto ('\\' :: c :: rest) (consText c ts) := by
  intro pos
  obtain ⟨us, hus, hbare⟩ := h (pos + 1 + c.utf8Size)
  refine ⟨consText c us, ?_, ?_⟩
  · rw [lexText, hus]
    rfl
  · rw [map_bare_consText, hbare, ← map_bare_consText]

theorem blank (h : CutInto rest ts) {c : Char} (hc : isBlank c = true) :
    CutInto (c :: rest) (consBlank c ts) := by
  intro pos
  obtain ⟨us, hus, hbare⟩ := h (pos + c.utf8Size)
  have hne : ∀ d, isBlank d = false → c ≠ d := by
    rintro d hd rfl
    simp [hd] at hc
  refine ⟨consBlank c us, ?_, ?_⟩
  · simp [lexText, hne '\\' rfl, hne '{' rfl, hne '(' rfl, hne '/' rfl, hne '}' rfl, hne ')' rfl,
      hc, hus, Except.map]
  · rw [map_bare_consBlank, hbare, ← map_bare_consBlank]

theorem slash (h : CutInto rest ts) (start : Nat) :
    CutInto ('/' :: rest) (.slash start :: ts) := by
  intro pos
  obtain ⟨us, hus, hbare⟩ := h (pos + 1)
  refine ⟨.slash pos :: us, ?_, ?_⟩
  · rw [lexText, hus]
    rfl
  · rw [List.map_cons, List.map_cons, hbare]
    rfl

theorem lexParameter (h : CutInto rest ts) {more : List Char}
    (hmore : ∀ c ∈ more, IsNameChar c) (start pos : Nat) (name : List Char) :
    ∃ us, StepGlue.lexParameter start name pos (more ++ '}' :: rest) =
      .ok (.parameter start (name ++ more) :: us) ∧ us.map Token.bare = ts.map Token.bare := by
  induction more generalizing name pos with
  | nil =>
    obtain ⟨us, hus, hbare⟩ := h (pos + 1)
    refine ⟨us, ?_, hbare⟩
    simp [StepGlue.lexParameter, hus, Except.map]
  | cons c more ih =>
    obtain ⟨hc, hmore⟩ := List.forall_mem_cons.mp hmore
    obtain ⟨hclose, hstop, hblank⟩ := isNameChar_iff.mp hc
    obtain ⟨us, hus, hbare⟩ := ih hmore (pos + c.utf8Size) (name ++ [c])
    refine ⟨us, ?_, hbare⟩
    rw [List.append_assoc] at hus
    simpa [StepGlue.lexParameter, hclose, hstop, hblank] using hus

theorem lexOptional (h : CutInto rest ts) (text : List Char) {more : List Char}
    (hne : text ++ more ≠ []) (start pos : Nat) :
    ∃ us, StepGlue.lexOptional start text pos (escapeAll more ++ ')' :: rest) =
      .ok (.optional start (text ++ more) :: us) ∧ us.map Token.bare = ts.map Token.bare := by
  induction more generalizing text pos with
  | nil =>
    obtain ⟨us, hus, hbare⟩ := h (pos + 1)
    refine ⟨us, ?_, hbare⟩
    have htext : text.isEmpty = false := by simpa using hne
    simp [escapeAll, StepGlue.lexOptional, htext, hus, Except.map]
  | cons c more ih =>
    obtain ⟨us, hus, hbare⟩ := ih (text ++ [c]) (by simp) (pos + 1 + c.utf8Size)
    refine ⟨us, ?_, hbare⟩
    rw [escapeAll, List.cons_append, List.cons_append, StepGlue.lexOptional, hus,
      List.append_assoc]
    rfl

theorem token (h : CutInto rest ts) {t : Token} (ht : t.WellFormed)
    (hjoin : ∀ u ∈ ts.head?, t.joins u = false) : CutInto (t.written ++ rest) (t :: ts) := by
  cases t with
  | text s =>
    rw [← foldr_join (consText_of_apart hjoin) (fun _ _ => rfl) ht]
    clear ht hjoin
    induction s with
    | nil => exact h
    | cons c s ih => exact ih.escaped c
  | blank s =>
    obtain ⟨hne, hs⟩ := ht
    rw [← foldr_join (consBlank_of_apart hjoin) (fun _ _ => rfl) hne]
    clear hne hjoin
    induction s with
    | nil => exact h
    | cons c s ih =>
      obtain ⟨hc, hs⟩ := List.forall_mem_cons.mp hs
      exact (ih hs).blank hc
  | optional start s =>
    intro pos
    obtain ⟨us, hus, hbare⟩ := h.lexOptional [] ht pos (pos + 1)
    refine ⟨.optional pos s :: us, ?_, ?_⟩
    · simpa [Token.written, lexText] using hus
    · rw [List.map_cons, List.map_cons, hbare]
      rfl
  | parameter start name =>
    intro pos
    obtain ⟨us, hus, hbare⟩ := h.lexParameter ht pos (pos + 1) []
    refine ⟨.parameter pos name :: us, ?_, ?_⟩
    · simpa [Token.written, lexText] using hus
    · rw [List.map_cons, List.map_cons, hbare]
      rfl
  | slash start => exact h.slash start

end CutInto

theorem Canonical.cutInto {ts : List Token} (h : Canonical ts) :
    CutInto (ts.flatMap Token.written) ts := by
  induction ts with
  | nil => exact fun _ => ⟨[], rfl, rfl⟩
  | cons t ts ih =>
    obtain ⟨ht, hjoin, hts⟩ := Canonical.cons_iff.mp h
    exact (ih hts).token ht hjoin

/-- The rows of tokens that come out of expressions are canonical, and a canonical row comes out
of the expression that it is written as. -/
theorem lexExpression_inverts_writing :
    (∀ e ts, lexExpression e = .ok ts → Canonical ts) ∧
      ∀ ts, Canonical ts → ∃ us, lexExpression (expressionOf ts) = .ok us ∧
        us.map Token.bare = ts.map Token.bare := by
  refine ⟨fun e ts h => canonical_of_lexText h, fun ts h => ?_⟩
  obtain ⟨us, hus, hbare⟩ := h.cutInto 0
  refine ⟨us, ?_, hbare⟩
  rw [lexExpression, expressionOf, String.toList_ofList, hus]

/-- A row with blanks and signs inside its texts, and the expression that it is written as. -/
theorem lexExpression_inverts_writing_signs :
    let ts : List Token := [.text [' ', '{'], .blank [' ', '\t'], .optional 0 [')', '\\'],
      .slash 0, .parameter 0 ['i', 'n', 't'], .text ['/']]
    let e := "\\ \\\x7b \t(\\)\\\\)/\x7bint\x7d\\/"
    (Canonical ts ∧ expressionOf ts = e) ∧
      ∃ us, lexExpression e = .ok us ∧ us.map Token.bare = ts ∧ Canonical us := by
  intro ts e
  have hts : Canonical ts := by decide
  have he : expressionOf ts = e := rfl
  obtain ⟨us, hus, hbare⟩ := lexExpression_inverts_writing.2 ts hts
  rw [he] at hus
  exact ⟨⟨hts, he⟩, us, hus, hbare, lexExpression_inverts_writing.1 e us hus⟩

end StepGlue
