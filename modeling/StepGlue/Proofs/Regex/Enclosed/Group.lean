import StepGlue.Proofs.Regex.Enclosed.Class

/-! Groups and repetitions in a pattern alone and in a group. -/

namespace StepGlue.Regex

open Regex.Cursor

def Level.bare (l : Level) : Level := ⟨0, l.branches.map Tree.bare, ⟨0, l.items.map Tree.bare⟩⟩

def Frame.bare (f : Frame) : Frame := ⟨f.outer.bare, default, f.kind, f.ignore⟩

theorem Level.bare_eq_iff {l l' : Level} : l.bare = l'.bare ↔
    l.branches.map Tree.bare = l'.branches.map Tree.bare ∧
      l.items.map Tree.bare = l'.items.map Tree.bare := by
  simp [Level.bare]

theorem Level.push_bare {l l' : Level} (h : l.bare = l'.bare) {t t' : Tree}
    (ht : t.bare = t'.bare) : (l.push t).bare = (l'.push t').bare := by
  obtain ⟨hb, hi⟩ := Level.bare_eq_iff.mp h
  refine Level.bare_eq_iff.mpr ⟨hb, ?_⟩
  simpa [Level.push, Level.items, ht] using hi

theorem Sequence.toTree_bare {q q' : Sequence}
    (h : q.items.map Tree.bare = q'.items.map Tree.bare) (stop stop' : Nat) :
    (q.toTree stop).bare = (q'.toTree stop').bare := by
  rw [Sequence.bare_toTree, Sequence.bare_toTree, List.map_reverse, List.map_reverse, h]

theorem Level.toTree_bare {l l' : Level} (h : l.bare = l'.bare) (stop stop' : Nat) :
    (l.toTree stop).bare = (l'.toTree stop').bare := by
  obtain ⟨hb, hi⟩ := Level.bare_eq_iff.mp h
  have hlast : l.sequence.items.map Tree.bare = l'.sequence.items.map Tree.bare := hi
  rw [Level.bare_toTree, Level.bare_toTree]
  simp only [List.map_reverse, hb, hlast]

theorem Level.bar_bare {l l' : Level} (h : l.bare = l'.bare) (stop stop' next next' : Nat) :
    (l.bar stop next).bare = (l'.bar stop' next').bare := by
  obtain ⟨hb, hi⟩ := Level.bare_eq_iff.mp h
  refine Level.bare_eq_iff.mpr ⟨?_, rfl⟩
  simp [Level.bar, hb, Sequence.toTree_bare hi stop stop']

/-- The group that the pattern is put into, with a caret before it. -/
def wrapping : Frame :=
  ⟨⟨0, [], ⟨0, [.assertion default .lineStart]⟩⟩, default, .flagged [], false⟩

/-- The two readings at the same place; the second one has the group around it on its stack. -/
structure State.Beside (s s' : State) : Prop where
  level : s.level.bare = s'.level.bare
  stack : s'.stack.map Frame.bare = s.stack.map Frame.bare ++ [wrapping]
  ignore : s.ignore = s'.ignore
  names : s.names.map (·.1) = s'.names.map (·.1)
  cursor : s.cursor.Inside s'.cursor

theorem State.Beside.push {s s' : State} (h : s.Beside s') {t t' : Tree} (ht : t.bare = t'.bare)
    {c c' : Cursor} (hc : c.Inside c') : (s.push t c).Beside (s'.push t' c') :=
  ⟨Level.push_bare h.level ht, h.stack, h.ignore, h.names, hc⟩

theorem State.Beside.openGroup {s s' : State} (h : s.Beside s') (r r' : Region) (k : GroupKind)
    {c c' : Cursor} (hc : c.Inside c') : (s.openGroup r k c).Beside (s'.openGroup r' k c') := by
  refine ⟨rfl, ?_, ?_, h.names, hc⟩
  · simp [State.openGroup, Frame.bare, h.level, h.ignore, h.stack]
  · simp [State.openGroup, h.ignore]

theorem getLast_minus {items items' : List (FlagItem × Region)}
    (h : items.map (·.1) = items'.map (·.1)) (hno : ∀ r, items'.getLast? ≠ some (.minus, r)) :
    ∀ r, items.getLast? ≠ some (.minus, r) := by
  intro r hr
  have hlast := congrArg List.getLast? h
  rw [List.getLast?_map, List.getLast?_map, hr] at hlast
  obtain ⟨⟨item, r'⟩, hr', hitem⟩ := Option.map_eq_some_iff.mp hlast.symm
  cases hitem
  exact hno r' hr'

theorem find_eq_none_of_map {α β : Type} [DecidableEq α] {l l' : List (α × β)}
    (h : l.map (·.1) = l'.map (·.1)) {a : α} (hno : l'.find? (·.1 = a) = none) :
    l.find? (·.1 = a) = none := by
  have hmem : ∀ k : List (α × β), k.find? (·.1 = a) = none ↔ a ∉ k.map (·.1) := by
    intro k
    simp only [List.find?_eq_none, List.mem_map, decide_eq_true_eq]
    grind
  rw [hmem, h, ← hmem]
  exact hno

theorem readFlags_local (n : Nat) {n' : Nat} {items items' out' : List (FlagItem × Region)}
    {c c' d' : Cursor} (hc : c.Inside c') (hitems : items.map (·.1) = items'.map (·.1))
    (hn : c.rest.length < n) (h : readFlags n' items' c' = .ok (out', d'))
    (hd : 2 < d'.rest.length) :
    ∃ out d, readFlags n items c = .ok (out, d) ∧ out.map (·.1) = out'.map (·.1) ∧
      d.Inside d' := by
  induction n' generalizing n items items' c c' with
  | zero => cases h
  | succ n' ih =>
    obtain ⟨n, rfl⟩ : ∃ k, n = k + 1 := ⟨n - 1, by omega⟩
    obtain ⟨x, hx⟩ := char_of_ne_nil (hc.ne_nil (readFlags_suffix h) hd)
    obtain ⟨hx', hin⟩ := hc.bump_of_char hx
    have hlen := bump_length hx
    unfold readFlags at h ⊢
    simp only [hx, hx'] at h ⊢
    split at h
    · next hend =>
      split at h
      · cases h
      · next hlast =>
        cases h
        rw [if_pos hend]
        refine ⟨items, c, ?_, hitems, hc⟩
        split
        · next r hr => exact absurd hr (getLast_minus hitems (fun r => hlast r) r)
        · rfl
    · next hend =>
      rw [if_neg hend]
      split at h
      · cases h
      · next item hitem =>
        split at h
        · cases h
        · next hfind =>
          split at h
          · cases h
          · have hs := readFlags_suffix h
            simp only [find_eq_none_of_map hitems hfind]
            rw [if_neg (by simpa using hin.ne_nil hs hd)]
            exact ih n hin (by simp [hitems]) (by omega) h

theorem readCaptureName_local (pos : Nat) {first : Bool} {s : List Char} {pos' : Nat}
    {name : List Char} {d' : Cursor}
    (h : readCaptureName first (s ++ closing) pos' = .ok (name, d')) (hd : 2 ≤ d'.rest.length) :
    ∃ d, readCaptureName first s pos = .ok (name, d) ∧ d.Inside d' := by
  induction s generalizing first pos pos' name with
  | nil =>
    simp only [List.nil_append, closing] at h
    unfold readCaptureName at h
    rw [if_neg (by decide)] at h
    split at h
    · -- a parenthesis in the name would be the closing one
      obtain ⟨⟨rest, e'⟩, hrest, h⟩ := bind_eq_ok.mp h
      cases h
      have hle := (readCaptureName_suffix hrest).length_le
      simp only [List.length_singleton] at hle
      omega
    · cases h
  | cons y s ih =>
    simp only [List.cons_append] at h
    unfold readCaptureName at h ⊢
    split at h
    · next hy =>
      cases h
      rw [if_pos hy]
      exact ⟨_, rfl, rfl⟩
    · next hy =>
      rw [if_neg hy]
      split at h
      · next hchar =>
        obtain ⟨⟨rest, e'⟩, hrest, h⟩ := bind_eq_ok.mp h
        cases h
        obtain ⟨d, hr, hi⟩ := ih (pos + 1) hrest
        rw [if_pos hchar, hr]
        exact ⟨d, rfl, hi⟩
      · cases h

theorem readNamedGroup_local (r : Region) {s s' t' : State} {r' : Region} {c c' : Cursor}
    (hs : s.Beside s') (hc : c.Inside c') (h : readNamedGroup s' r' c' = .ok t')
    (hd : 2 ≤ t'.cursor.rest.length) : ∃ t, readNamedGroup s r c = .ok t ∧ t.Beside t' := by
  obtain ⟨⟨name, next'⟩, hname, h⟩ := bind_eq_ok.mp h
  dsimp only at h
  split at h
  · cases h
  · next hne =>
    split at h
    · cases h
    · next hfind =>
      cases h
      rw [hc] at hname
      obtain ⟨next, hn, hi⟩ := readCaptureName_local c.pos hname hd
      have hopen := hs.openGroup r r' .capturing hi
      unfold readNamedGroup
      simp only [hn, bind, Except.bind, find_eq_none_of_map hs.names hfind]
      rw [if_neg hne]
      refine ⟨_, rfl, hopen.level, hopen.stack, hopen.ignore, ?_, hopen.cursor⟩
      simp [hs.names]

theorem readFlagged_local (r q : Region) {s s' t' : State} {r' q' : Region} {c c' : Cursor}
    (hs : s.Beside s') (hc : c.Inside c') (h : readFlagged s' r' q' c' = .ok t')
    (hd : 2 ≤ t'.cursor.rest.length) : ∃ t, readFlagged s r q c = .ok t ∧ t.Beside t' := by
  unfold readFlagged at h
  split at h
  · cases h
  · obtain ⟨⟨items', after'⟩, hf, h⟩ := bind_eq_ok.mp h
    have hd' : 2 < after'.rest.length := by
      refine length_bump_lt (Nat.lt_of_succ_le ?_)
      dsimp only at h
      split at h
      · cases h
        exact hd
      · split at h
        · cases h
        · cases h
          exact hd
    have hnil : ([] : List (FlagItem × Region)).map (·.1) =
        ([] : List (FlagItem × Region)).map (·.1) := rfl
    have hne := hc.ne_nil (readFlags_suffix hf) hd'
    obtain ⟨items, after, hf, hitems, hi⟩ :=
      readFlags_local (c.rest.length + 1) hc hnil (Nat.lt_succ_self _) hf hd'
    obtain ⟨x, hx⟩ := char_of_ne_nil (hi.ne_nil (List.suffix_refl _) hd')
    obtain ⟨hx', hin⟩ := hi.bump_of_char hx
    unfold readFlagged
    rw [if_neg (by simpa using hne)]
    simp only [hf, bind, Except.bind, hitems]
    rw [hx, ← hx']
    dsimp only at h
    split at h
    · next hclose =>
      cases h
      rw [if_pos hclose]
      exact ⟨_, rfl, hs.openGroup _ _ _ hin⟩
    · next hclose =>
      rw [if_neg hclose]
      split at h
      · cases h
      · next hne =>
        cases h
        rw [if_neg hne]
        have hbare : (Tree.flags ⟨r.start, after.bump.pos⟩ (items'.map (·.1))).bare =
            (Tree.flags ⟨r'.start, after'.bump.pos⟩ (items'.map (·.1))).bare := rfl
        have hpush := hs.push hbare hin
        refine ⟨_, rfl, hpush.level, hpush.stack, ?_, hpush.names, hpush.cursor⟩
        simp [hs.ignore]

theorem readGroupOpen_local {s s' t' : State} {c c' : Cursor} (hs : s.Beside s')
    (hc : c.Inside c') (h : readGroupOpen s' c' = .ok t') (hd : 2 ≤ t'.cursor.rest.length) :
    ∃ t, readGroupOpen s c = .ok t ∧ t.Beside t' := by
  have hsuf := readGroupOpen_suffix h
  obtain ⟨-, hb⟩ := hc.bump (hsuf.trans (space_suffix _ _)) hd
  have hin := hb.space hsuf hd
  unfold readGroupOpen at h ⊢
  dsimp only at h ⊢
  rw [hs.ignore]
  rcases hin.findSkip [['?', '='], ['?', '!'], ['?', '<', '='], ['?', '<', '!']] (by decide) with
    ⟨hl, hl'⟩ | ⟨d, d', hl, hl', -⟩
  · simp only [hl, hl'] at h ⊢
    rcases hin.findSkip [['?', 'P', '<'], ['?', '<']] (by decide) with
      ⟨hn, hn'⟩ | ⟨d, d', hn, hn', hi⟩
    · simp only [hn, hn'] at h ⊢
      rcases hin.skip ['?'] (by decide) with ⟨hq, hq'⟩ | ⟨d, d', hq, hq', hi⟩
      · simp only [hq, hq'] at h ⊢
        cases h
        exact ⟨_, rfl, hs.openGroup _ _ _ hin⟩
      · simp only [hq, hq'] at h ⊢
        exact readFlagged_local _ _ hs hi h hd
    · simp only [hn, hn'] at h ⊢
      exact readNamedGroup_local _ hs hi h hd
  · simp only [hl'] at h
    cases h

theorem repeated_local (c : Cursor) {s s' : State} {c' : Cursor} (hs : s.Beside s') {t' : Tree}
    {before' : List Tree} (h : repeated s' c' = .ok (t', before')) :
    ∃ t before, repeated s c = .ok (t, before) ∧ t.bare = t'.bare ∧
      before.map Tree.bare = before'.map Tree.bare := by
  obtain ⟨hitems, hrep⟩ := repeated_eq_ok.mp h
  have hbare := (Level.bare_eq_iff.mp hs.level).2
  rw [hitems] at hbare
  obtain ⟨t, before, heq, ht, hbefore⟩ := List.map_eq_cons_iff.mp hbare
  have hrep' : t.Repeatable := by
    rw [← Tree.repeatable_bare, ht, Tree.repeatable_bare]
    exact hrep
  exact ⟨t, before, repeated_eq_ok.mpr ⟨heq, hrep'⟩, ht, hbefore⟩

theorem State.Beside.repeatLast {s s' : State} (h : s.Beside s') (least : Nat)
    (most : Option Nat) {t t' : Tree} (ht : t.bare = t'.bare) {before before' : List Tree}
    (hb : before.map Tree.bare = before'.map Tree.bare) {c c' : Cursor} (hc : c.Inside c') :
    (s.repeatLast least most t before c).Beside (s'.repeatLast least most t' before' c') := by
  refine ⟨Level.bare_eq_iff.mpr ⟨(Level.bare_eq_iff.mp h.level).1, ?_⟩, h.stack, h.ignore,
    h.names, hc⟩
  simp [State.repeatLast, Level.items, Tree.bare, ht, hb]

theorem skipReluctance_local {c c' : Cursor} (hc : c.Inside c') :
    (skipReluctance c).Inside (skipReluctance c') := by
  unfold skipReluctance
  simp only [hc.char_iff (by decide : '?' ≠ ')')]
  split
  · next hch => exact (hc.bump_of_char hch).2
  · exact hc

theorem readRepetition_local {s s' t' : State} {c c' : Cursor} {least : Nat} {most : Option Nat}
    (hs : s.Beside s') (hc : c.bump.Inside c'.bump)
    (h : readRepetition s' c' least most = .ok t') :
    ∃ t, readRepetition s c least most = .ok t ∧ t.Beside t' := by
  obtain ⟨⟨item', before'⟩, hr, h⟩ := bind_eq_ok.mp h
  cases h
  obtain ⟨item, before, hr, hitem, hbefore⟩ := repeated_local c hs hr
  unfold readRepetition
  rw [hr]
  exact ⟨_, rfl, hs.repeatLast least most hitem hbefore (skipReluctance_local hc)⟩

theorem readCount_local {ignore : Bool} {c c' d : Cursor} (hc : c.Inside c')
    (hs : d.rest <:+ (readCount ignore c').2.rest) (hd : 2 ≤ d.rest.length) :
    (readCount ignore c).1.toOption = (readCount ignore c').1.toOption ∧
      (readCount ignore c).2.Inside (readCount ignore c').2 := by
  have hstart : Cursor.Inside ⟨c.rest.dropWhile isBlank, c.pos + (c.rest.takeWhile isBlank).length⟩
      ⟨c'.rest.dropWhile isBlank, c'.pos + (c'.rest.takeWhile isBlank).length⟩ := by
    unfold Cursor.Inside
    rw [hc]
    exact dropWhile_append_closing c.rest
  unfold readCount at hs ⊢
  dsimp only at hs ⊢
  have hdigits := hs.trans (takeSpaced_suffix _ _ _ _)
  obtain ⟨hname, hafter⟩ := takeSpaced_local hstart le_rfl le_rfl hdigits hd
  dsimp only at hname hafter
  obtain ⟨-, hnext⟩ := takeSpaced_local hafter le_rfl le_rfl hs hd
  refine ⟨?_, hnext⟩
  rw [hname]
  split
  · rfl
  · split <;> rfl

theorem readMost_local (f : Cursor → Fault) {ignore : Bool} {f' : Cursor → Fault}
    {count count' : Except Fault Nat} (hcount : count.toOption = count'.toOption)
    {c c' d' : Cursor} {b : Nat × Option Nat} (hc : c.Inside c')
    (h : readMost ignore f' count' c' = .ok (b, d')) (hd : 2 < d'.rest.length) :
    ∃ d, readMost ignore f count c = .ok (b, d) ∧ d.Inside d' := by
  have hne := hc.ne_nil (readMost_suffix h) hd
  unfold readMost at h ⊢
  split at h
  · cases h
  · obtain ⟨least, hl, h⟩ := bind_eq_ok.mp h
    have hleast : count = .ok least := by
      rw [← toOption_eq_some, hcount, toOption_eq_some]
      exact hl
    rw [if_neg (by simpa using hne), hleast]
    simp only [bind, Except.bind, ← hc.char_iff (by decide : '\x7d' ≠ ')')]
    split at h
    · next hch =>
      cases h
      rw [if_pos hch]
      exact ⟨c, rfl, hc⟩
    · next hch =>
      obtain ⟨most, hm, h⟩ := bind_eq_ok.mp h
      cases h
      obtain ⟨hsecond, hnext⟩ := readCount_local hc (List.suffix_refl _) (Nat.le_of_lt hd)
      have hmost : (readCount ignore c).1 = .ok most := by
        rw [← toOption_eq_some, hsecond, toOption_eq_some]
        exact hm
      rw [if_neg hch, hmost]
      exact ⟨_, rfl, hnext⟩

theorem readBounds_local (f : Cursor → Fault) {ignore : Bool} {f' : Cursor → Fault}
    {c c' d' : Cursor} {b : Nat × Option Nat} (hc : c.Inside c')
    (h : readBounds ignore f' c' = .ok (b, d')) (hd : 2 < d'.rest.length) :
    ∃ d, readBounds ignore f c = .ok (b, d) ∧ d.Inside d' := by
  have hne := hc.ne_nil (readBounds_suffix h) hd
  unfold readBounds at h ⊢
  split at h
  · cases h
  · rw [if_neg (by simpa using hne)]
    dsimp only at h ⊢
    split at h
    · cases h
    · next hch =>
      have hs := (readMost_suffix h).trans ((bumpSpace_suffix _ _).trans (bump_suffix _))
      obtain ⟨hcount, hafter⟩ := readCount_local hc hs (Nat.le_of_lt hd)
      obtain ⟨-, hnext⟩ := hafter.bumpSpace (readMost_suffix h) (Nat.le_of_lt hd)
      simp only [hafter.char_of_ne hch (by decide)]
      exact readMost_local f hcount hnext h hd
    · next x hcomma hch =>
      obtain ⟨least, hl, h⟩ := bind_eq_ok.mp h
      cases h
      obtain ⟨hcount, hafter⟩ := readCount_local hc (List.suffix_refl _) (Nat.le_of_lt hd)
      obtain ⟨y, hy⟩ := char_of_ne_nil (hafter.ne_nil (List.suffix_refl _) hd)
      obtain rfl : x = y := Option.some.inj (hch.symm.trans (hafter.bump_of_char hy).1)
      have hleast : (readCount ignore c).1 = .ok least := by
        rw [← toOption_eq_some, hcount, toOption_eq_some]
        exact hl
      simp only [hy, hleast]
      exact ⟨_, rfl, hafter⟩

theorem readCounted_local {s s' t' : State} {c c' : Cursor} (hs : s.Beside s')
    (hc : c.Inside c') (h : readCounted s' c' = .ok t') (hd : 2 ≤ t'.cursor.rest.length) :
    ∃ t, readCounted s c = .ok t ∧ t.Beside t' := by
  obtain ⟨⟨item', before'⟩, hr, h⟩ := bind_eq_ok.mp h
  obtain ⟨⟨⟨least, most⟩, after'⟩, hb, h⟩ := bind_eq_ok.mp h
  dsimp only at h
  split at h
  · cases h
  · next hbrace =>
    split at h
    · cases h
    · next hany =>
      cases h
      have hskip : (skipReluctance (after'.bumpSpace s'.ignore)).rest <:+ after'.bump.rest :=
        (skipReluctance_suffix _).trans (bumpSpace_suffix _ _)
      have hd' : 2 < after'.rest.length :=
        length_bump_lt (lt_of_lt_of_le (Nat.lt_of_succ_le hd) hskip.length_le)
      obtain ⟨item, before, hr, hitem, hbefore⟩ := repeated_local c hs hr
      obtain ⟨-, hin⟩ := hc.bumpSpace (readBounds_suffix hb) (Nat.le_of_lt hd')
      obtain ⟨after, hb, hafter⟩ := readBounds_local
        (fun d => ⟨.repetitionCountUnclosed, ⟨c.pos, d.pos⟩, none⟩) hin hb hd'
      obtain ⟨-, hnext⟩ := hafter.bumpSpace (skipReluctance_suffix _) hd
      have hbrace' : ¬ after.char? ≠ some '}' := by
        rw [ne_eq, ← hafter.char_iff (by decide)]
        exact hbrace
      unfold readCounted
      simp only [hr, hs.ignore, hb, bind, Except.bind, if_neg hbrace', if_neg hany]
      exact ⟨_, rfl, hs.repeatLast least most hitem hbefore (skipReluctance_local hnext)⟩

end StepGlue.Regex
