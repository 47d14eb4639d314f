import StepGlue.Proofs.Regex.Tree

/-! The reader goes forward. Whatever a part of it reads, the rest of the pattern after it is an
end of the rest before it, and each step takes at least one character. So the number of steps
that the reader is given is never what stops it. -/

namespace StepGlue.Regex

namespace Cursor

theorem bump_suffix (c : Cursor) : c.bump.rest <:+ c.rest := by
  unfold bump
  split
  · exact List.suffix_refl _
  · next h => exact h ▸ List.suffix_cons _ _

theorem rest_of_char {c : Cursor} {ch : Char} (h : c.char? = some ch) :
    c.rest = ch :: c.bump.rest := by
  obtain ⟨rest, pos⟩ := c
  cases rest with
  | nil => cases h
  | cons x xs =>
    cases h
    rfl

theorem rest_eq_nil {c : Cursor} (h : c.char? = none) : c.rest = [] := List.head?_eq_none_iff.mp h

theorem char_of_ne_nil {c : Cursor} (h : c.rest ≠ []) : ∃ ch, c.char? = some ch := by
  cases hc : c.char? with
  | none => exact absurd (rest_eq_nil hc) h
  | some ch => exact ⟨ch, rfl⟩

theorem bump_length {c : Cursor} {ch : Char} (h : c.char? = some ch) :
    c.rest.length = c.bump.rest.length + 1 := by
  rw [rest_of_char h, List.length_cons]

theorem length_bump_lt {c : Cursor} {n : Nat} (h : n < c.bump.rest.length) :
    n + 1 < c.rest.length := by
  have hne : c.rest ≠ [] := by
    intro hnil
    have hle := (bump_suffix c).length_le
    simp only [hnil, List.length_nil] at hle
    omega
  obtain ⟨ch, hch⟩ := char_of_ne_nil hne
  have hlen := bump_length hch
  omega

theorem bump_suffix_bump {c d : Cursor} (h : c.rest <:+ d.rest) : c.bump.rest <:+ d.bump.rest := by
  have hbump : ∀ e : Cursor, e.bump.rest = e.rest.tail := by
    rintro ⟨rest, pos⟩
    cases rest with
    | nil => rfl
    | cons x xs => rfl
  obtain ⟨t, ht⟩ := h
  rw [hbump, hbump, ← ht]
  cases t with
  | nil => exact List.suffix_refl _
  | cons x xs => exact (List.tail_suffix _).trans (List.suffix_append _ _)

theorem skipBlanks_suffix (b : Bool) (pos : Nat) (s : List Char) :
    (skipBlanks b pos s).rest <:+ s := by
  induction s generalizing b pos with
  | nil => exact List.suffix_refl _
  | cons c s ih =>
    unfold skipBlanks
    split
    · exact (ih _ _).trans (List.suffix_cons _ _)
    · split
      · exact (ih _ _).trans (List.suffix_cons _ _)
      · split
        · exact (ih _ _).trans (List.suffix_cons _ _)
        · exact List.suffix_refl _

theorem space_suffix (ignore : Bool) (c : Cursor) : (c.space ignore).rest <:+ c.rest := by
  unfold space
  split
  · exact skipBlanks_suffix _ _ _
  · exact List.suffix_refl _

theorem bumpSpace_suffix (ignore : Bool) (c : Cursor) :
    (c.bumpSpace ignore).rest <:+ c.bump.rest := space_suffix ignore c.bump

theorem skip_eq_some {c d : Cursor} {text : List Char} :
    c.skip? text = some d ↔ c.rest = text ++ d.rest ∧ d.pos = c.pos + text.length := by
  obtain ⟨rest, pos⟩ := d
  simp only [skip?, Option.ite_none_right_eq_some, List.isPrefixOf_iff_prefix, Option.some.injEq,
    Cursor.mk.injEq]
  constructor
  · rintro ⟨⟨t, ht⟩, hrest, hpos⟩
    rw [← ht, List.drop_left] at hrest
    exact ⟨by rw [← ht, hrest], hpos.symm⟩
  · rintro ⟨hrest, hpos⟩
    refine ⟨⟨rest, hrest.symm⟩, ?_, hpos.symm⟩
    rw [hrest, List.drop_left]

theorem skip_suffix {c d : Cursor} {text : List Char} (h : c.skip? text = some d) :
    d.rest <:+ c.rest := ⟨text, (skip_eq_some.mp h).1.symm⟩

end Cursor

open Regex.Cursor

theorem takeSpaced_suffix (ignore : Bool) (test : Char → Bool) (n : Nat) (c : Cursor) :
    (takeSpaced ignore test n c).2.rest <:+ c.rest := by
  fun_induction takeSpaced ignore test n c with
  | case1 c => exact List.suffix_refl _
  | case2 n c h => exact List.suffix_refl _
  | case3 n c ch h ht r ih => exact ih.trans ((bumpSpace_suffix _ _).trans (bump_suffix _))
  | case4 n c ch h ht => exact List.suffix_refl _

/-! ### Escapes -/

theorem readHexDigits_suffix {ignore : Bool} {start first n : Nat} {digits : List Char}
    {c d : Cursor} {ch : Char} (h : readHexDigits ignore start first n digits c = .ok (ch, d)) :
    d.rest <:+ c.rest := by
  induction n generalizing digits c with
  | zero =>
    unfold readHexDigits at h
    split at h
    · cases h
      exact List.suffix_refl _
    · cases h
  | succ n ih =>
    unfold readHexDigits at h
    split at h
    · cases h
    · split at h
      · exact (ih h).trans ((bumpSpace_suffix _ _).trans (bump_suffix _))
      · cases h

theorem readBracedHex_suffix {ignore : Bool} {start : Nat} {c d : Cursor} {l : Literal}
    (h : readBracedHex ignore start c = .ok (l, d)) : d.rest <:+ c.bump.rest := by
  unfold readBracedHex at h
  dsimp only at h
  split at h
  · cases h
  · split at h
    · cases h
    · split at h
      · cases h
      · cases h
        exact (bumpSpace_suffix _ _).trans ((bump_suffix _).trans
          ((takeSpaced_suffix _ _ _ _).trans (bumpSpace_suffix _ _)))
  · cases h

theorem readHex_suffix {ignore : Bool} {start : Nat} {letter : Char} {c d : Cursor} {l : Literal}
    (h : readHex ignore start letter c = .ok (l, d)) : d.rest <:+ c.bump.rest := by
  unfold readHex at h
  dsimp only at h
  split at h
  · cases h
  · exact (readBracedHex_suffix h).trans ((bump_suffix _).trans (bumpSpace_suffix _ _))
  · obtain ⟨⟨ch, next⟩, hd, hr⟩ := bind_eq_ok.mp h
    cases hr
    exact (readHexDigits_suffix hd).trans (bumpSpace_suffix _ _)

theorem readNamedClass_suffix {ignore : Bool} {start : Nat} {neg : Bool} {c d : Cursor}
    {p : Primitive} (h : readNamedClass ignore start neg c = .ok (p, d)) :
    d.rest <:+ c.bump.rest := by
  unfold readNamedClass at h
  dsimp only at h
  split at h
  · cases h
  · split at h
    · cases h
    · cases h
      exact (bump_suffix _).trans ((takeSpaced_suffix _ _ _ _).trans
        ((bumpSpace_suffix _ _).trans ((bump_suffix _).trans (bumpSpace_suffix _ _))))
  · cases h
  · cases h
    exact (bumpSpace_suffix _ _).trans ((bump_suffix _).trans (bumpSpace_suffix _ _))

theorem readSpecialWord_suffix {ignore : Bool} {start : Nat} {c d : Cursor} {k : Assertion}
    (h : readSpecialWord ignore start c = .ok (some (k, d))) : d.rest <:+ c.rest := by
  unfold readSpecialWord at h
  dsimp only at h
  split at h
  · cases h
  · split at h
    · cases h
    · split at h
      · cases h
      · split at h
        · cases h
          exact (bump_suffix _).trans ((takeSpaced_suffix _ _ _ _).trans
            ((bumpSpace_suffix _ _).trans (bump_suffix _)))
        · cases h

theorem readAssertion_suffix {ignore : Bool} {r : Region} {ch : Char} {c d : Cursor}
    {p : Primitive} (h : readAssertion ignore r ch c = .ok (p, d)) : d.rest <:+ c.rest := by
  unfold readAssertion at h
  split at h
  · cases h
  · split at h
    · obtain ⟨found, hf, hr⟩ := bind_eq_ok.mp h
      split at hr
      · cases hr
        exact readSpecialWord_suffix hf
      · cases hr
        exact List.suffix_refl _
    · cases h
      exact List.suffix_refl _

theorem readEscape_suffix {ignore : Bool} {c d : Cursor} {p : Primitive}
    (h : readEscape ignore c = .ok (p, d)) : d.rest <:+ c.bump.bump.rest := by
  unfold readEscape at h
  dsimp only at h
  split at h
  · cases h
  · split at h
    · cases h
      exact List.suffix_refl _
    · split at h
      · cases h
      · split at h
        · obtain ⟨⟨l, next⟩, hl, hr⟩ := bind_eq_ok.mp h
          cases hr
          exact readHex_suffix hl
        · split at h
          · exact readNamedClass_suffix h
          · split at h
            · cases h
              exact List.suffix_refl _
            · exact readAssertion_suffix h

theorem readPrimitive_suffix {ignore : Bool} {ch : Char} {c d : Cursor} {p : Primitive}
    (h : readPrimitive ignore ch c = .ok (p, d)) : d.rest <:+ c.bump.rest := by
  unfold readPrimitive at h
  split at h
  · exact (readEscape_suffix h).trans (bump_suffix _)
  all_goals
    cases h
    exact List.suffix_refl _

/-! ### Bracketed classes -/

theorem readLeadingHyphens_suffix {ignore : Bool} {start n : Nat} {u v : Items} {c d : Cursor}
    (h : readLeadingHyphens ignore start n u c = .ok (v, d)) : d.rest <:+ c.rest := by
  induction n generalizing u c with
  | zero =>
    cases h
    exact List.suffix_refl _
  | succ n ih =>
    unfold readLeadingHyphens at h
    dsimp only at h
    split at h
    · split at h
      · cases h
      · exact (ih h).trans ((bumpSpace_suffix _ _).trans (bump_suffix _))
    · cases h
      exact List.suffix_refl _

theorem readFirstItems_suffix {ignore : Bool} {start : Nat} {neg : Bool} {c d : Cursor}
    {x : Region × Bool} {u : Items} (h : readFirstItems ignore start neg c = .ok (x, u, d)) :
    d.rest <:+ c.rest := by
  obtain ⟨⟨v, e⟩, hv, hr⟩ := bind_eq_ok.mp h
  have he := readLeadingHyphens_suffix hv
  dsimp only at hr
  split at hr
  · split at hr
    · cases hr
    · cases hr
      exact (bumpSpace_suffix _ _).trans ((bump_suffix _).trans he)
  · cases hr
    exact he

theorem readBracketOpen_suffix {ignore : Bool} {c d : Cursor} {x : Region × Bool} {u : Items}
    (h : readBracketOpen ignore c = .ok (x, u, d)) : d.rest <:+ c.bump.rest := by
  unfold readBracketOpen at h
  dsimp only at h
  split at h
  · split at h
    · cases h
    · exact (readFirstItems_suffix h).trans
        ((bumpSpace_suffix _ _).trans ((bump_suffix _).trans (bumpSpace_suffix _ _)))
  · split at h
    · cases h
    · exact (readFirstItems_suffix h).trans (bumpSpace_suffix _ _)

theorem readClassPrimitive_suffix {ignore : Bool} {c d : Cursor} {ch : Char} {p : Primitive}
    (h : readClassPrimitive ignore c ch = .ok (p, d)) : d.rest <:+ c.bump.rest := by
  unfold readClassPrimitive at h
  split at h
  · exact (readEscape_suffix h).trans (bump_suffix _)
  · cases h
    exact List.suffix_refl _

theorem readRangeEnd_suffix {ignore : Bool} {f : Fault} {p : Primitive} {c d : Cursor}
    {t : ClassTree} (h : readRangeEnd ignore f p c = .ok (t, d)) : d.rest <:+ c.rest := by
  unfold readRangeEnd at h
  split at h
  · cases h
  · obtain ⟨⟨last, e⟩, hp, h⟩ := bind_eq_ok.mp h
    obtain ⟨lo, -, h⟩ := bind_eq_ok.mp h
    obtain ⟨hi, -, h⟩ := bind_eq_ok.mp h
    split at h
    · cases h
    · cases h
      exact (readClassPrimitive_suffix hp).trans (bump_suffix _)

theorem readClassRange_suffix {ignore : Bool} {f : Fault} {c d : Cursor} {ch : Char}
    {t : ClassTree} (h : readClassRange ignore f c ch = .ok (t, d)) : d.rest <:+ c.bump.rest := by
  obtain ⟨⟨first, e⟩, hp, h⟩ := bind_eq_ok.mp h
  have he : (e.space ignore).rest <:+ c.bump.rest :=
    (space_suffix _ _).trans (readClassPrimitive_suffix hp)
  dsimp only at h
  split at h
  · cases h
  · split at h
    · obtain ⟨item, -, h⟩ := bind_eq_ok.mp h
      cases h
      exact he
    · exact (readRangeEnd_suffix h).trans
        ((bumpSpace_suffix _ _).trans ((bump_suffix _).trans he))

theorem readAsciiName_suffix {start : Nat} {neg : Bool} {c d : Cursor} {t : ClassTree}
    (h : readAsciiName? start neg c = some (t, d)) : d.rest <:+ c.rest := by
  obtain ⟨next, hn, h⟩ := Option.bind_eq_some_iff.mp h
  obtain ⟨kind, -, h⟩ := Option.bind_eq_some_iff.mp h
  cases h
  exact (skip_suffix hn).trans (List.dropWhile_suffix _)

theorem readAsciiClass_suffix {c d : Cursor} {t : ClassTree}
    (h : readAsciiClass? c = some (t, d)) : d.rest <:+ c.bump.rest := by
  obtain ⟨inner, hi, h⟩ := Option.bind_eq_some_iff.mp h
  have hin : inner.rest <:+ c.bump.rest := by
    rw [Cursor.bump, (skip_eq_some.mp hi).1]
    exact List.suffix_cons _ _
  split at h
  · exact (readAsciiName_suffix h).trans ((bump_suffix _).trans hin)
  · exact (readAsciiName_suffix h).trans hin

theorem openBracketStep_suffix {ignore : Bool} {s s' : ClassState} {c : Cursor}
    (h : openBracketStep ignore s c = .ok s') : s'.cursor.rest <:+ c.bump.rest := by
  unfold openBracketStep at h
  split at h
  · next hi =>
    cases h
    split at hi
    · cases hi
    · exact readAsciiClass_suffix hi
  · obtain ⟨⟨⟨r, neg⟩, u, d⟩, ho, h⟩ := bind_eq_ok.mp h
    cases h
    exact readBracketOpen_suffix ho

/-- Where a step inside brackets leaves the cursor. -/
def ClassStep.cursor : ClassStep → Cursor
  | .more s => s.cursor
  | .done _ _ _ c => c

theorem closeBracketStep_cursor {s : ClassState} {c : Cursor} {x : ClassStep}
    (h : closeBracketStep s c = .ok x) : x.cursor = c.bump := by
  unfold closeBracketStep at h
  dsimp only at h
  split at h
  · split at h
    · cases h
      rfl
    · cases h
      rfl
  · cases h

theorem classStep_suffix {ignore : Bool} {s : ClassState} {x : ClassStep}
    (h : classStep ignore s = .ok x) :
    s.cursor.rest ≠ [] ∧ x.cursor.rest <:+ (s.cursor.space ignore).bump.rest := by
  unfold classStep at h
  dsimp only at h
  split at h
  · cases h
  · next ch hch =>
    refine ⟨?_, ?_⟩
    · intro hnil
      have hs := space_suffix ignore s.cursor
      rw [hnil, List.suffix_nil, rest_of_char hch] at hs
      cases hs
    split at h
    · obtain ⟨s', hs, rfl⟩ := map_eq_ok.mp h
      exact openBracketStep_suffix hs
    · split at h
      · exact closeBracketStep_cursor h ▸ List.suffix_refl _
      · split at h
        · cases h
          exact bump_suffix _
        · obtain ⟨⟨item, d⟩, hi, h⟩ := bind_eq_ok.mp h
          cases h
          exact readClassRange_suffix hi

theorem classStep_length {ignore : Bool} {s : ClassState} {x : ClassStep}
    (h : classStep ignore s = .ok x) : x.cursor.rest.length < s.cursor.rest.length := by
  obtain ⟨hne, hx⟩ := classStep_suffix h
  obtain ⟨ch, hch⟩ := char_of_ne_nil hne
  have hle := (hx.trans (bump_suffix_bump (space_suffix ignore s.cursor))).length_le
  have hlen := bump_length hch
  omega

theorem readClass_suffix {ignore : Bool} {n : Nat} {s : ClassState} {t : Tree} {d : Cursor}
    (h : readClass ignore n s = .ok (t, d)) : d.rest <:+ (s.cursor.space ignore).bump.rest := by
  induction n generalizing s with
  | zero => cases h
  | succ n ih =>
    obtain ⟨x, hx, h⟩ := bind_eq_ok.mp h
    have hs := (classStep_suffix hx).2
    cases x with
    | done r neg inner c =>
      cases h
      exact hs
    | more s' => exact (ih h).trans ((bump_suffix _).trans ((space_suffix _ _).trans hs))

/-! ### Groups and repetitions -/

theorem readFlags_suffix {n : Nat} {items items' : List (FlagItem × Region)} {c d : Cursor}
    (h : readFlags n items c = .ok (items', d)) : d.rest <:+ c.rest := by
  induction n generalizing items c with
  | zero => cases h
  | succ n ih =>
    unfold readFlags at h
    split at h
    · cases h
    · split at h
      · split at h
        · cases h
        · cases h
          exact List.suffix_refl _
      · split at h
        · cases h
        · split at h
          · cases h
          · split at h
            · cases h
            · exact (ih h).trans (bump_suffix _)

theorem readCaptureName_suffix {first : Bool} {s : List Char} {pos : Nat} {name : List Char}
    {d : Cursor} (h : readCaptureName first s pos = .ok (name, d)) : d.rest <:+ s := by
  induction s generalizing first pos name with
  | nil => cases h
  | cons c s ih =>
    unfold readCaptureName at h
    split at h
    · cases h
      exact List.suffix_cons _ _
    · split at h
      · obtain ⟨⟨n, e⟩, hn, h⟩ := bind_eq_ok.mp h
        cases h
        exact (ih hn).trans (List.suffix_cons _ _)
      · cases h

theorem readNamedGroup_suffix {s s' : State} {r : Region} {c : Cursor}
    (h : readNamedGroup s r c = .ok s') : s'.cursor.rest <:+ c.rest := by
  obtain ⟨⟨name, next⟩, hn, h⟩ := bind_eq_ok.mp h
  dsimp only at h
  split at h
  · cases h
  · split at h
    · cases h
    · cases h
      exact readCaptureName_suffix hn

theorem readFlagged_suffix {s s' : State} {r q : Region} {c : Cursor}
    (h : readFlagged s r q c = .ok s') : s'.cursor.rest <:+ c.rest := by
  unfold readFlagged at h
  split at h
  · cases h
  · obtain ⟨⟨items, after⟩, hf, h⟩ := bind_eq_ok.mp h
    have ha := readFlags_suffix hf
    dsimp only at h
    split at h
    · cases h
      exact (bump_suffix _).trans ha
    · split at h
      · cases h
      · cases h
        exact (bump_suffix _).trans ha

theorem readGroupOpen_suffix {s s' : State} {c : Cursor} (h : readGroupOpen s c = .ok s') :
    s'.cursor.rest <:+ (c.bump.space s.ignore).rest := by
  unfold readGroupOpen at h
  dsimp only at h
  split at h
  · cases h
  · split at h
    · next inner hi =>
      obtain ⟨text, -, ht⟩ := List.exists_of_findSome?_eq_some hi
      exact (readNamedGroup_suffix h).trans (skip_suffix ht)
    · split at h
      · cases h
        exact List.suffix_refl _
      · next inner hi => exact (readFlagged_suffix h).trans (skip_suffix hi)

/-- What a repetition operator may stand after. -/
def Tree.Repeatable : Tree → Prop
  | .empty _ | .flags _ _ => False
  | _ => True

theorem Tree.repeatable_bare {t : Tree} : t.bare.Repeatable ↔ t.Repeatable := by
  cases t <;> exact Iff.rfl

theorem repeated_eq_ok {s : State} {c : Cursor} {t : Tree} {before : List Tree} :
    repeated s c = .ok (t, before) ↔ s.level.items = t :: before ∧ t.Repeatable := by
  unfold repeated
  cases s.level.items with
  | nil => simp
  | cons u us => cases u <;> simp [Tree.Repeatable] <;> grind [Tree.Repeatable]

theorem skipReluctance_suffix (c : Cursor) : (skipReluctance c).rest <:+ c.rest := by
  unfold skipReluctance
  split
  · exact bump_suffix c
  · exact List.suffix_refl _

theorem readCount_suffix (ignore : Bool) (c : Cursor) :
    (readCount ignore c).2.rest <:+ c.rest :=
  (takeSpaced_suffix _ _ _ _).trans ((takeSpaced_suffix _ _ _ _).trans (List.dropWhile_suffix _))

theorem readMost_suffix {ignore : Bool} {f : Cursor → Fault} {count : Except Fault Nat}
    {c d : Cursor} {b : Nat × Option Nat} (h : readMost ignore f count c = .ok (b, d)) :
    d.rest <:+ c.rest := by
  unfold readMost at h
  split at h
  · cases h
  · obtain ⟨least, -, h⟩ := bind_eq_ok.mp h
    split at h
    · cases h
      exact List.suffix_refl _
    · obtain ⟨most, -, h⟩ := bind_eq_ok.mp h
      cases h
      exact readCount_suffix ignore c

theorem readBounds_suffix {ignore : Bool} {f : Cursor → Fault} {c d : Cursor}
    {b : Nat × Option Nat} (h : readBounds ignore f c = .ok (b, d)) : d.rest <:+ c.rest := by
  unfold readBounds at h
  have hc := readCount_suffix ignore c
  split at h
  · cases h
  · dsimp only at h
    split at h
    · cases h
    · exact (readMost_suffix h).trans ((bumpSpace_suffix _ _).trans ((bump_suffix _).trans hc))
    · obtain ⟨least, -, h⟩ := bind_eq_ok.mp h
      cases h
      exact hc

theorem readCounted_suffix {s s' : State} {c : Cursor} (h : readCounted s c = .ok s') :
    s'.cursor.rest <:+ c.bump.rest := by
  obtain ⟨⟨item, before⟩, -, h⟩ := bind_eq_ok.mp h
  obtain ⟨⟨⟨least, most⟩, after⟩, hb, h⟩ := bind_eq_ok.mp h
  dsimp only at h
  split at h
  · cases h
  · split at h
    · cases h
    · cases h
      exact (skipReluctance_suffix _).trans ((bumpSpace_suffix _ _).trans ((bump_suffix _).trans
        ((readBounds_suffix hb).trans (bumpSpace_suffix _ _))))

theorem readRepetition_suffix {s s' : State} {c : Cursor} {least : Nat} {most : Option Nat}
    (h : readRepetition s c least most = .ok s') : s'.cursor.rest <:+ c.bump.rest := by
  obtain ⟨⟨item, before⟩, -, h⟩ := bind_eq_ok.mp h
  cases h
  exact skipReluctance_suffix _

theorem readGroupClose_cursor {s s' : State} {c : Cursor} (h : readGroupClose s c = .ok s') :
    s'.cursor = c.bump := by
  unfold readGroupClose at h
  split at h
  · cases h
  · cases h
    rfl

theorem readStep_suffix {s s' : State} {c : Cursor} {ch : Char}
    (h : readStep s c ch = .ok s') : s'.cursor.rest <:+ c.bump.rest := by
  unfold readStep at h
  split at h
  · exact (readGroupOpen_suffix h).trans (space_suffix _ _)
  · exact readGroupClose_cursor h ▸ List.suffix_refl _
  · cases h
    exact List.suffix_refl _
  · obtain ⟨⟨t, next⟩, hr, h⟩ := bind_eq_ok.mp h
    cases h
    exact (readClass_suffix hr).trans (bump_suffix_bump (space_suffix _ _))
  · exact readRepetition_suffix h
  · exact readRepetition_suffix h
  · exact readRepetition_suffix h
  · exact readCounted_suffix h
  · obtain ⟨⟨p, next⟩, hp, h⟩ := bind_eq_ok.mp h
    cases h
    exact readPrimitive_suffix hp

/-! ### Whole patterns -/

/-- The character that the reader looks at next, and where it stands. -/
def State.ahead (s : State) : Cursor := s.cursor.space s.ignore

theorem readStep_length {s s' : State} {ch : Char} (hc : s.ahead.char? = some ch)
    (h : readStep s s.ahead ch = .ok s') : s'.cursor.rest.length < s.cursor.rest.length := by
  have hle := (readStep_suffix h).length_le
  have hsp := (space_suffix s.ignore s.cursor).length_le
  have hlen := bump_length hc
  unfold State.ahead at hlen hle
  omega

theorem readAll_fuel {n m : Nat} {s : State} (hn : s.cursor.rest.length < n)
    (hm : s.cursor.rest.length < m) : readAll n s = readAll m s := by
  induction n generalizing m s with
  | zero => omega
  | succ n ih =>
    obtain ⟨m, rfl⟩ : ∃ k, m = k + 1 := ⟨m - 1, by omega⟩
    unfold readAll
    dsimp only
    split
    · rfl
    · next ch hch =>
      cases hstep : readStep s (s.cursor.space s.ignore) ch with
      | error f => rfl
      | ok s' =>
        have hlt := readStep_length hch hstep
        exact ih (by omega) (by omega)

/-- What is read from a state on, with as many steps as it takes. -/
def State.read (s : State) : Except Fault Tree := readAll (s.cursor.rest.length + 1) s

theorem State.read_of_none {s : State} (h : s.ahead.char? = none) :
    s.read = s.finish s.ahead := by
  unfold State.ahead at h ⊢
  simp [State.read, readAll, h]

theorem State.read_of_some {s : State} {ch : Char} (h : s.ahead.char? = some ch) :
    s.read = readStep s s.ahead ch >>= State.read := by
  have hstart : s.read = readStep s s.ahead ch >>= readAll s.cursor.rest.length := by
    unfold State.ahead at h ⊢
    simp [State.read, readAll, h]
  rw [hstart]
  cases hstep : readStep s s.ahead ch with
  | error f => rfl
  | ok s' =>
    have hlt := readStep_length h hstep
    exact readAll_fuel hlt (Nat.lt_succ_self _)

theorem State.read_step {s s' : State} {ch : Char} (h : s.ahead.char? = some ch)
    (hs : readStep s s.ahead ch = .ok s') : s.read = s'.read := by
  rw [State.read_of_some h, hs]
  rfl

theorem readPattern_eq (p : List Char) :
    readPattern p = (State.read ⟨Level.nil 0, [], false, [], ⟨p, 0⟩⟩ >>= fun tree =>
      match tree.tooDeep 0 with
      | some r => .error ⟨.nestLimit, r, none⟩
      | none => .ok tree) := rfl

end StepGlue.Regex
