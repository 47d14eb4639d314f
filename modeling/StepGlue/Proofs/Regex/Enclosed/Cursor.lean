import StepGlue.Proofs.Regex.Forward

/-! Reading a pattern alone and in a group.

A pattern is read once on its own, and once with a closing parenthesis and a dollar sign after
it. As long as the second reading does not take the closing parenthesis, the two go side by side:
whatever the second one accepts, the first one accepts too, and both read the same up to regions.
The other way round it fails only at the end of the pattern, where the first reading may stop for
want of a character. -/

namespace StepGlue.Regex

/-- What is put after the pattern. -/
def closing : List Char := [')', '$']

/-- The same place of the pattern, in the reading on its own and in the other one. -/
def Cursor.Inside (c c' : Cursor) : Prop := c'.rest = c.rest ++ closing

namespace Cursor.Inside

variable {c c' : Cursor}

theorem length (h : c.Inside c') : c'.rest.length = c.rest.length + 2 := by
  rw [h, List.length_append]
  rfl

theorem bump_of_char (h : c.Inside c') {ch : Char} (hch : c.char? = some ch) :
    c'.char? = some ch ∧ c.bump.Inside c'.bump := by
  have hrest : c'.rest = ch :: (c.bump.rest ++ closing) := by
    rw [h, rest_of_char hch, List.cons_append]
  unfold Inside
  rw [Cursor.char?, Cursor.bump, hrest]
  exact ⟨rfl, rfl⟩

/-- At the end of the pattern the other reading has the closing parenthesis before it. -/
theorem at_end (h : c.Inside c') (hc : c.rest = []) :
    c'.char? = some ')' ∧ c'.bump.rest = ['$'] := by
  obtain ⟨rest', pos'⟩ := c'
  unfold Inside at h
  simp only [hc] at h
  subst h
  exact ⟨rfl, rfl⟩

theorem char_of_ne (h : c.Inside c') {ch : Char} (hch : c'.char? = some ch) (hne : ch ≠ ')') :
    c.char? = some ch := by
  cases hc : c.char? with
  | none =>
    have hend := (h.at_end (rest_eq_nil hc)).1
    rw [hch] at hend
    exact absurd (Option.some.inj hend) hne
  | some x =>
    have hx := (h.bump_of_char hc).1
    rw [hch] at hx
    exact hx.symm

/-- Where the other reading comes to a place before the closing parenthesis, it has not been
there yet. -/
theorem exists_char (h : c.Inside c') {d : Cursor} (hs : d.rest <:+ c'.bump.rest)
    (hd : 2 ≤ d.rest.length) : ∃ ch, c.char? = some ch := by
  refine char_of_ne_nil fun hnil => ?_
  have hle := hs.length_le
  rw [(h.at_end hnil).2, List.length_singleton] at hle
  omega

theorem bump (h : c.Inside c') {d : Cursor} (hs : d.rest <:+ c'.bump.rest)
    (hd : 2 ≤ d.rest.length) : c.char? = c'.char? ∧ c.bump.Inside c'.bump := by
  obtain ⟨ch, hch⟩ := h.exists_char hs hd
  obtain ⟨hch', hin⟩ := h.bump_of_char hch
  exact ⟨hch.trans hch'.symm, hin⟩

theorem skipBlanks (b : Bool) (pos pos' : Nat) (s : List Char) :
    (skipBlanks b pos s).Inside (skipBlanks b pos' (s ++ closing)) ∨
      (Regex.skipBlanks b pos' (s ++ closing)).rest = [] := by
  induction s generalizing b pos pos' with
  | nil =>
    cases b with
    | true => exact Or.inr rfl
    | false => exact Or.inl rfl
  | cons x s ih =>
    simp only [List.cons_append, Regex.skipBlanks]
    split
    · exact ih _ _ _
    · split
      · exact ih _ _ _
      · split
        · exact ih _ _ _
        · exact Or.inl rfl

/-- A comment may swallow the closing parenthesis, and then it swallows all. -/
theorem space_or (h : c.Inside c') (ignore : Bool) :
    (c.space ignore).Inside (c'.space ignore) ∨ (c'.space ignore).rest = [] := by
  unfold Cursor.space
  split
  · rw [h]
    exact skipBlanks false _ _ _
  · exact Or.inl h

theorem space (h : c.Inside c') {ignore : Bool} {d : Cursor}
    (hs : d.rest <:+ (c'.space ignore).rest) (hd : 2 ≤ d.rest.length) :
    (c.space ignore).Inside (c'.space ignore) := by
  refine (h.space_or ignore).resolve_right fun hnil => ?_
  rw [hnil, List.suffix_nil] at hs
  simp [hs] at hd

theorem bumpSpace (h : c.Inside c') {ignore : Bool} {d : Cursor}
    (hs : d.rest <:+ (c'.bumpSpace ignore).rest) (hd : 2 ≤ d.rest.length) :
    c.char? = c'.char? ∧ (c.bumpSpace ignore).Inside (c'.bumpSpace ignore) := by
  obtain ⟨hch, hin⟩ := h.bump (hs.trans (bumpSpace_suffix ignore c')) hd
  exact ⟨hch, hin.space hs hd⟩

end Cursor.Inside

open Regex.Cursor

theorem takeSpaced_stop {ignore : Bool} {test : Char → Bool} {n : Nat} {c : Cursor}
    (h : ∀ ch, c.char? = some ch → test ch = false) : takeSpaced ignore test n c = ([], c) := by
  cases n with
  | zero => rfl
  | succ n =>
    unfold takeSpaced
    cases hch : c.char? with
    | none => rfl
    | some ch => simp [h ch hch]

theorem takeSpaced_next {ignore : Bool} {test : Char → Bool} {n : Nat} {c : Cursor} {ch : Char}
    (hch : c.char? = some ch) (h : test ch = true) :
    takeSpaced ignore test (n + 1) c =
      (ch :: (takeSpaced ignore test n (c.bumpSpace ignore)).1,
        (takeSpaced ignore test n (c.bumpSpace ignore)).2) := by
  simp [takeSpaced, hch, h]

theorem takeSpaced_local {ignore : Bool} {test : Char → Bool} {n n' : Nat} {c c' d : Cursor}
    (hc : c.Inside c') (hn : c.rest.length ≤ n) (hn' : c'.rest.length ≤ n')
    (hs : d.rest <:+ (takeSpaced ignore test n' c').2.rest) (hd : 2 ≤ d.rest.length) :
    (takeSpaced ignore test n c).1 = (takeSpaced ignore test n' c').1 ∧
      (takeSpaced ignore test n c).2.Inside (takeSpaced ignore test n' c').2 := by
  induction n' generalizing n c c' with
  | zero =>
    have hlen := hc.length
    omega
  | succ n' ih =>
    have hne : c'.rest ≠ [] := by
      intro hnil
      have hlen := hc.length
      simp [hnil] at hlen
    obtain ⟨x, hch⟩ := char_of_ne_nil hne
    by_cases hx : test x = true
    · rw [takeSpaced_next hch hx] at hs ⊢
      have hsuf := takeSpaced_suffix ignore test n' (c'.bumpSpace ignore)
      obtain ⟨heq, hin⟩ := hc.bumpSpace (hs.trans hsuf) hd
      have hlen := bump_length (heq.trans hch)
      have hlen' := bump_length hch
      have hle := (bumpSpace_suffix ignore c).length_le
      have hle' := (bumpSpace_suffix ignore c').length_le
      obtain ⟨n, rfl⟩ : ∃ k, n = k + 1 := ⟨n - 1, by omega⟩
      obtain ⟨h1, h2⟩ := ih hin (by omega : _ ≤ n) (by omega) hs
      rw [takeSpaced_next (heq.trans hch) hx, h1]
      exact ⟨rfl, h2⟩
    · have hstop : ∀ ch, c'.char? = some ch → test ch = false := by
        intro ch hc'
        rw [← Option.some.inj (hch.symm.trans hc')]
        exact Bool.not_eq_true _ ▸ hx
      rw [takeSpaced_stop hstop, takeSpaced_stop]
      · exact ⟨rfl, hc⟩
      · exact fun ch hcc => hstop ch (hc.bump_of_char hcc).1

namespace Cursor.Inside

variable {c c' : Cursor}

theorem char_iff (h : c.Inside c') {ch : Char} (hne : ch ≠ ')') :
    c'.char? = some ch ↔ c.char? = some ch :=
  ⟨fun hch => h.char_of_ne hch hne, fun hch => (h.bump_of_char hch).1⟩

theorem ne_nil (h : c.Inside c') {d : Cursor} (hs : d.rest <:+ c'.rest) (hd : 2 < d.rest.length) :
    c.rest ≠ [] := by
  intro hnil
  have hlen := h.length
  have hle := hs.length_le
  simp only [hnil, List.length_nil] at hlen
  omega

/-- A text without the closing parenthesis is skipped in both readings or in none. -/
theorem skip (h : c.Inside c') (text : List Char) (htext : ')' ∉ text) :
    (c.skip? text = none ∧ c'.skip? text = none) ∨
      ∃ d d', c.skip? text = some d ∧ c'.skip? text = some d' ∧ d.Inside d' := by
  cases hd' : c'.skip? text with
  | some d' =>
    refine Or.inr ?_
    have hrest := (skip_eq_some.mp hd').1
    rw [h] at hrest
    rcases List.append_eq_append_iff.mp hrest with ⟨a, ha, hb⟩ | ⟨a, ha, hb⟩
    · cases a with
      | nil =>
        refine ⟨⟨[], c.pos + text.length⟩, d', skip_eq_some.mpr ⟨?_, rfl⟩, rfl, ?_⟩
        · simpa using ha.symm
        · simpa [Inside] using hb.symm
      | cons x a =>
        obtain rfl : x = ')' := (List.cons.inj hb).1.symm
        simp [ha] at htext
    · exact ⟨⟨a, c.pos + text.length⟩, d', skip_eq_some.mpr ⟨ha, rfl⟩, rfl, hb⟩
  | none =>
    refine Or.inl ⟨?_, rfl⟩
    cases hd : c.skip? text with
    | none => rfl
    | some d =>
      have hrest : c'.rest = text ++ (d.rest ++ closing) := by
        rw [h, (skip_eq_some.mp hd).1, List.append_assoc]
      have hsome : c'.skip? text = some ⟨d.rest ++ closing, c'.pos + text.length⟩ :=
        skip_eq_some.mpr ⟨hrest, rfl⟩
      rw [hd'] at hsome
      cases hsome

theorem findSkip (h : c.Inside c') (texts : List (List Char)) (htexts : ∀ t ∈ texts, ')' ∉ t) :
    (texts.findSome? c.skip? = none ∧ texts.findSome? c'.skip? = none) ∨
      ∃ d d', texts.findSome? c.skip? = some d ∧ texts.findSome? c'.skip? = some d' ∧
        d.Inside d' := by
  induction texts with
  | nil => exact Or.inl ⟨rfl, rfl⟩
  | cons t ts ih =>
    obtain ⟨ht, hts⟩ := List.forall_mem_cons.mp htexts
    rcases h.skip t ht with ⟨hn, hn'⟩ | ⟨d, d', hd, hd', hin⟩
    · simpa [List.findSome?_cons, hn, hn'] using ih hts
    · exact Or.inr ⟨d, d', by simp [hd], by simp [hd'], hin⟩

end Cursor.Inside

theorem head_append_closing {l : List Char} {x : Char} (hx : x ≠ ')') :
    (l ++ closing).head? = some x ↔ l.head? = some x := by
  cases l with
  | nil => simp [closing, hx.symm]
  | cons y l => simp

theorem dropWhile_append_closing (l : List Char) :
    (l ++ closing).dropWhile isBlank = l.dropWhile isBlank ++ closing := by
  induction l with
  | nil => rfl
  | cons y l ih =>
    cases hy : isBlank y with
    | true => simp [hy, ih]
    | false => simp [hy]

theorem peekSpace_local {c c' : Cursor} (hc : c.Inside c') {ch : Char} (hch : c.char? = some ch)
    (ignore : Bool) {x : Char} (hx : x ≠ ')') :
    c'.peekSpace ignore = some x ↔ c.peekSpace ignore = some x := by
  have hrest : c'.rest.drop 1 = c.rest.drop 1 ++ closing := by
    rw [hc, rest_of_char hch]
    rfl
  unfold Cursor.peekSpace
  dsimp only
  rw [hrest]
  cases ignore with
  | false => exact head_append_closing hx
  | true =>
    simp only [Bool.not_true, Bool.false_eq_true, if_false, dropWhile_append_closing]
    cases hl : (c.rest.drop 1).dropWhile isBlank with
    | nil => simp [closing, hx.symm]
    | cons y l =>
      by_cases hy : y = '#'
      · subst hy
        simp only [List.cons_append, dropWhile_append_closing]
        exact head_append_closing hx
      · simp [hy]

end StepGlue.Regex
