import StepGlue.Proofs.Regex.Enclosed.Group

/-! Whole patterns, alone and in a group.

The second reading succeeds only if the closing parenthesis closes the group that the pattern was
put into. If that group is closed before, the first reading finds a parenthesis that was never
opened; otherwise it reads the body of the group. -/

namespace StepGlue.Regex

open Regex.Cursor

theorem readStep_local {s s' t' : State} {c c' : Cursor} {ch : Char} (hs : s.Beside s')
    (hc : c.Inside c') (hch : c.char? = some ch) (h : readStep s' c' ch = .ok t')
    (hd : 2 ≤ t'.cursor.rest.length) :
    (∃ t, readStep s c ch = .ok t ∧ t.Beside t') ∨ (s.stack = [] ∧ ch = ')') ∨
      t'.cursor.char? = some '{' ∧ (t'.cursor.bumpSpace t'.ignore).rest = closing := by
  obtain ⟨-, hin⟩ := hc.bump_of_char hch
  unfold readStep at h ⊢
  split at h
  · exact Or.inl (readGroupOpen_local hs hc h hd)
  · cases hst : s.stack with
    | nil => exact Or.inr (Or.inl ⟨rfl, rfl⟩)
    | cons f fs =>
      refine Or.inl ?_
      unfold readGroupClose at h ⊢
      have hstack := hs.stack
      rw [hst] at hstack
      obtain ⟨f', fs', heq, hf, hfs⟩ := List.map_eq_cons_iff.mp hstack
      simp only [heq] at h
      cases h
      simp only [hst]
      obtain ⟨houter, -, hkind, hig⟩ := Frame.mk.inj hf
      refine ⟨_, rfl, ?_, hfs, hig.symm, hs.names, hin⟩
      refine Level.push_bare houter.symm ?_
      simp [Tree.bare, hkind, Level.toTree_bare hs.level c.pos c'.pos]
  · cases h
    exact Or.inl ⟨_, rfl, Level.bar_bare hs.level _ _ _ _, hs.stack, hs.ignore, hs.names, hin⟩
  · obtain ⟨⟨u', next'⟩, hr, h⟩ := bind_eq_ok.mp h
    cases h
    have hstart : ClassState.Beside ⟨Items.nil c.pos, [], c⟩ ⟨Items.nil c'.pos, [], c'⟩ :=
      ⟨rfl, rfl, hc⟩
    obtain ⟨u, next, hr, hbare, hi⟩ := readClass_local hstart (Nat.lt_succ_self _) hr
    rw [hs.ignore, hr]
    exact Or.inl ⟨_, rfl, hs.push hbare hi⟩
  · exact Or.inl (readRepetition_local hs hin h)
  · exact Or.inl (readRepetition_local hs hin h)
  · exact Or.inl (readRepetition_local hs hin h)
  · exact Or.inl (readCounted_local hs hc h hd)
  · obtain ⟨⟨p', next'⟩, hp, h⟩ := bind_eq_ok.mp h
    cases h
    rcases readPrimitive_local hc hp hd with ⟨p, next, hp, hbare, hi⟩ | hstranded
    · rw [hs.ignore, hp]
      exact Or.inl ⟨_, rfl, hs.push hbare hi⟩
    · exact Or.inr (Or.inr hstranded.2)

/-! ### Dead ends -/

theorem space_of_char {c : Cursor} {ch : Char} (h : c.char? = some ch) (hb : isBlank ch = false)
    (hs : ch ≠ '#') (ignore : Bool) : c.space ignore = c := by
  cases ignore with
  | false => rfl
  | true =>
    obtain ⟨rest, pos⟩ := c
    cases rest with
    | nil => cases h
    | cons x xs =>
      cases h
      simp [Cursor.space, skipBlanks, hb, hs]

/-- A brace with nothing but the closing parenthesis after it is no repetition. -/
theorem State.not_read_brace {s : State} (hch : s.cursor.char? = some '{')
    (hrest : (s.cursor.bumpSpace s.ignore).rest = closing) (t : Tree) : s.read ≠ .ok t := by
  intro h
  have hahead : s.ahead = s.cursor := space_of_char hch (by decide) (by decide) _
  rw [State.read_of_some (hahead ▸ hch), hahead] at h
  obtain ⟨u, hu, -⟩ := bind_eq_ok.mp h
  obtain ⟨x, -, hu⟩ := bind_eq_ok.mp hu
  obtain ⟨y, hb, -⟩ := bind_eq_ok.mp hu
  revert hb hrest
  generalize s.cursor.bumpSpace s.ignore = c
  obtain ⟨rest, pos⟩ := c
  rintro rfl hb
  cases hb

/-- With a group open, the pattern must not end. -/
theorem State.not_read_open {s : State} (hst : s.stack ≠ []) (hrest : s.cursor.rest <:+ ['$'])
    (t : Tree) : s.read ≠ .ok t := by
  have hnil : ∀ u : State, u.stack ≠ [] → u.cursor.rest = [] → u.read ≠ .ok t := by
    intro u hu hr h
    have hahead : u.ahead.rest = [] := by
      have hs := space_suffix u.ignore u.cursor
      rw [hr, List.suffix_nil] at hs
      exact hs
    rw [State.read_of_none (by rw [Cursor.char?, hahead]; rfl)] at h
    unfold State.finish at h
    split at h
    · next he => exact hu he
    · cases h
  rcases List.suffix_cons_iff.mp hrest with hr | hr
  · intro h
    have hch : s.cursor.char? = some '$' := by
      rw [Cursor.char?, hr]
      rfl
    have hahead : s.ahead = s.cursor := space_of_char hch (by decide) (by decide) _
    rw [State.read_of_some (hahead ▸ hch), hahead] at h
    obtain ⟨u, hu, h⟩ := bind_eq_ok.mp h
    cases hu
    have hb : s.cursor.bump.rest = [] := by
      have hh := rest_of_char hch
      rw [hr] at hh
      exact (List.cons.inj hh).2.symm
    exact hnil (s.push (.assertion s.cursor.here .lineEnd) s.cursor.bump) hst hb h
  · exact hnil s hst (List.suffix_nil.mp hr)

theorem readGroupOpen_stack {s t : State} {c : Cursor} (h : readGroupOpen s c = .ok t) :
    s.stack <:+ t.stack := by
  unfold readGroupOpen at h
  dsimp only at h
  split at h
  · cases h
  · split at h
    · obtain ⟨⟨name, next⟩, -, h⟩ := bind_eq_ok.mp h
      dsimp only at h
      split at h
      · cases h
      · split at h
        · cases h
        · cases h
          exact List.suffix_cons _ _
    · split at h
      · cases h
        exact List.suffix_cons _ _
      · unfold readFlagged at h
        split at h
        · cases h
        · obtain ⟨⟨items, after⟩, -, h⟩ := bind_eq_ok.mp h
          dsimp only at h
          split at h
          · cases h
            exact List.suffix_cons _ _
          · split at h
            · cases h
            · cases h
              exact List.suffix_refl _

/-- Only a closing parenthesis closes a group. -/
theorem readStep_stack {s t : State} {c : Cursor} {ch : Char} (hch : ch ≠ ')')
    (h : readStep s c ch = .ok t) : s.stack <:+ t.stack := by
  unfold readStep at h
  split at h
  · exact readGroupOpen_stack h
  · exact absurd rfl hch
  · cases h
    exact List.suffix_refl _
  · obtain ⟨x, -, h⟩ := bind_eq_ok.mp h
    cases h
    exact List.suffix_refl _
  · obtain ⟨x, -, h⟩ := bind_eq_ok.mp h
    cases h
    exact List.suffix_refl _
  · obtain ⟨x, -, h⟩ := bind_eq_ok.mp h
    cases h
    exact List.suffix_refl _
  · obtain ⟨x, -, h⟩ := bind_eq_ok.mp h
    cases h
    exact List.suffix_refl _
  · obtain ⟨x, -, h⟩ := bind_eq_ok.mp h
    obtain ⟨⟨⟨least, most⟩, after⟩, -, h⟩ := bind_eq_ok.mp h
    dsimp only at h
    split at h
    · cases h
    · split at h
      · cases h
      · cases h
        exact List.suffix_refl _
  · obtain ⟨x, -, h⟩ := bind_eq_ok.mp h
    cases h
    exact List.suffix_refl _

/-! ### Both readings -/

/-- The tree of a pattern in a group, between a caret and a dollar sign. -/
def enclosed (t : Tree) : Tree :=
  .sequence default [.assertion default .lineStart, .group default (.flagged []) t,
    .assertion default .lineEnd]

theorem State.read_dollar {s : State} (hst : s.stack = []) (hrest : s.cursor.rest = ['$']) :
    s.read = .ok ((s.level.push (.assertion s.cursor.here .lineEnd)).toTree
      (s.cursor.bump.space s.ignore).pos) := by
  have hch : s.cursor.char? = some '$' := by
    rw [Cursor.char?, hrest]
    rfl
  have hahead : s.ahead = s.cursor := space_of_char hch (by decide) (by decide) _
  have hb : (s.cursor.bump.space s.ignore).rest = [] := by
    have hh := rest_of_char hch
    rw [hrest] at hh
    have hs := space_suffix s.ignore s.cursor.bump
    rw [← (List.cons.inj hh).2, List.suffix_nil] at hs
    exact hs
  rw [State.read_of_some (hahead ▸ hch), hahead]
  have hnone : (s.push (.assertion s.cursor.here .lineEnd) s.cursor.bump).ahead.char? = none := by
    rw [Cursor.char?]
    exact congrArg List.head? hb
  refine (State.read_of_none hnone).trans ?_
  simp only [State.finish, State.push, hst]
  rfl

/-- Where only the group around the pattern is open, the closing parenthesis closes it. -/
theorem State.Beside.read_end {s s' : State} (hs : s.Beside s') (hst : s.stack = [])
    (hend : s'.ahead.rest = closing) (stop : Nat) {t' : Tree} (h : s'.read = .ok t') :
    t'.bare = (enclosed (s.level.toTree stop)).bare := by
  have hstack := hs.stack
  rw [hst] at hstack
  obtain ⟨f, fs, heq, hf, hfs⟩ := List.map_eq_cons_iff.mp hstack
  obtain rfl := List.map_eq_nil_iff.mp hfs
  obtain ⟨houter, -, hkind, hig⟩ := Frame.mk.inj hf
  have hch : s'.ahead.char? = some ')' := by
    rw [Cursor.char?, hend]
    rfl
  have hb : s'.ahead.bump.rest = ['$'] := by
    have hh := rest_of_char hch
    rw [hend] at hh
    exact (List.cons.inj hh).2.symm
  rw [State.read_of_some hch] at h
  obtain ⟨u, hu, h⟩ := bind_eq_ok.mp h
  simp only [readStep, readGroupClose, heq, Except.ok.injEq] at hu
  have hlevel : u.level = f.outer.push (.group ⟨f.region.start, s'.ahead.bump.pos⟩ f.kind
      (s'.level.toTree s'.ahead.pos)) := hu ▸ rfl
  have hcursor : u.cursor.rest = ['$'] := hu ▸ hb
  rw [State.read_dollar (hu ▸ rfl) hcursor, hlevel] at h
  cases h
  have hgroup : (Tree.group ⟨f.region.start, s'.ahead.bump.pos⟩ f.kind
      (s'.level.toTree s'.ahead.pos)).bare =
        (Tree.group default (.flagged []) (s.level.toTree stop)).bare := by
    simp [Tree.bare, hkind, Level.toTree_bare hs.level stop s'.ahead.pos]
  have hframe : f.outer.bare = wrapping.outer.bare := houter
  exact Level.toTree_bare (Level.push_bare (Level.push_bare hframe hgroup) rfl) _ 0

theorem State.Beside.stack_ne_nil {s s' : State} (hs : s.Beside s') : s'.stack ≠ [] := by
  intro hnil
  have hh := hs.stack
  simp [hnil] at hh

/-- At the end of the pattern the closing parenthesis closes a group of the pattern, and the outer
one stays open. -/
theorem State.Beside.not_read_end {s s' : State} (hs : s.Beside s')
    (hahead : s.ahead.Inside s'.ahead) (hch : s.ahead.char? = none) (hst : s.stack ≠ [])
    (t' : Tree) : s'.read ≠ .ok t' := by
  intro h
  obtain ⟨hch', hb⟩ := hahead.at_end (rest_eq_nil hch)
  rw [State.read_of_some hch'] at h
  obtain ⟨u, hu, h⟩ := bind_eq_ok.mp h
  obtain ⟨f, fs, hst⟩ := List.exists_cons_of_ne_nil hst
  have hstack := hs.stack
  rw [hst] at hstack
  obtain ⟨f', fs', heq, -, hfs⟩ := List.map_eq_cons_iff.mp hstack
  simp only [readStep, readGroupClose, heq] at hu
  cases hu
  refine State.not_read_open ?_ ?_ t' h
  · intro hnil
    simp only at hnil
    simp [hnil] at hfs
  · exact hb ▸ List.suffix_refl _

/-- A step from inside the pattern over the closing parenthesis leaves the outer group open. -/
theorem State.Beside.not_read_past {s s' u' : State} (hs : s.Beside s')
    (hahead : s.ahead.Inside s'.ahead) {ch : Char} (hch : s.ahead.char? = some ch)
    (hu : readStep s' s'.ahead ch = .ok u') (hd : u'.cursor.rest.length < 2) (t' : Tree) :
    u'.read ≠ .ok t' := by
  obtain ⟨-, hin⟩ := hahead.bump_of_char hch
  have hsuf := readStep_suffix hu
  rw [hin] at hsuf
  have hdollar : u'.cursor.rest <:+ ['$'] := by
    refine List.suffix_of_suffix_length_le hsuf ⟨s.ahead.bump.rest ++ [')'], ?_⟩ ?_
    · simp [closing]
    · exact Nat.le_of_lt_succ hd
  have hne : ch ≠ ')' := by
    rintro rfl
    have hlen := congrArg (fun c => c.rest.length) (readGroupClose_cursor hu)
    have hin' := hin.length
    omega
  refine State.not_read_open ?_ hdollar t'
  intro hnil
  have hst := readStep_stack hne hu
  rw [hnil, List.suffix_nil] at hst
  exact hs.stack_ne_nil hst

theorem State.Beside.read {s s' : State} (hs : s.Beside s') {t' : Tree} (h : s'.read = .ok t') :
    (∃ f, s.read = .error f ∧ f.kind = .groupUnopened) ∨
      ∃ t, s.read = .ok t ∧ t'.bare = (enclosed t).bare := by
  induction hn : s.cursor.rest.length using Nat.strong_induction_on generalizing s s' with
  | _ n ih =>
    rcases hs.cursor.space_or s'.ignore with hc | hnil
    swap
    · rw [State.read_of_none (by rw [State.ahead, Cursor.char?, hnil]; rfl)] at h
      unfold State.finish at h
      split at h
      · next he => exact absurd he hs.stack_ne_nil
      · cases h
    have hahead : s.ahead.Inside s'.ahead := by
      unfold State.ahead
      rw [hs.ignore]
      exact hc
    cases hch : s.ahead.char? with
    | none =>
      have hend : s'.ahead.rest = closing := by
        rw [hahead, rest_eq_nil hch]
        rfl
      by_cases hst : s.stack = []
      · refine Or.inr ⟨s.level.toTree s.ahead.pos, ?_, hs.read_end hst hend _ h⟩
        rw [State.read_of_none hch]
        simp [State.finish, hst]
      · exact absurd h (hs.not_read_end hahead hch hst t')
    | some ch =>
      rw [State.read_of_some (hahead.bump_of_char hch).1] at h
      obtain ⟨u', hu, h⟩ := bind_eq_ok.mp h
      by_cases hd : 2 ≤ u'.cursor.rest.length
      · rcases readStep_local hs hahead hch hu hd with ⟨u, hu, hbeside⟩ | ⟨hst, rfl⟩ | ⟨hb, hr⟩
        · rw [State.read_of_some hch, hu]
          exact ih _ (hn ▸ readStep_length hch hu) hbeside h rfl
        · refine Or.inl ⟨⟨.groupUnopened, s.ahead.here, none⟩, ?_, rfl⟩
          rw [State.read_of_some hch]
          simp [readStep, readGroupClose, hst]
          rfl
        · exact absurd h (State.not_read_brace hb hr t')
      · exact absurd h (hs.not_read_past hahead hch hu (by omega) t')

/-- The caret and the opening of the group are read before the pattern. -/
theorem read_opening (p : List Char) :
    State.read ⟨Level.nil 0, [], false, [], ⟨'^' :: '(' :: '?' :: ':' :: p, 0⟩⟩ =
      State.read ⟨Level.nil 4, [⟨⟨0, [], ⟨0, [.assertion ⟨0, 1⟩ .lineStart]⟩⟩, ⟨1, 2⟩, .flagged [],
        false⟩], false, [], ⟨p, 4⟩⟩ := by
  have hcaret : State.read ⟨Level.nil 0, [], false, [], ⟨'^' :: '(' :: '?' :: ':' :: p, 0⟩⟩ =
      State.read ⟨⟨0, [], ⟨0, [.assertion ⟨0, 1⟩ .lineStart]⟩⟩, [], false, [],
        ⟨'(' :: '?' :: ':' :: p, 1⟩⟩ := State.read_step rfl rfl
  rw [hcaret]
  exact State.read_step rfl rfl

theorem readPattern_enclosed {p : List Char} {t' : Tree}
    (h : readPattern ('^' :: '(' :: '?' :: ':' :: (p ++ closing)) = .ok t') :
    (∃ f, readPattern p = .error f ∧ f.kind = .groupUnopened) ∨
      ∃ t, readPattern p = .ok t ∧ t'.bare = (enclosed t).bare := by
  rw [readPattern_eq, read_opening] at h
  obtain ⟨tree, hread, h⟩ := bind_eq_ok.mp h
  split at h
  · cases h
  · next hdeep =>
    cases h
    have hstart : State.Beside ⟨Level.nil 0, [], false, [], ⟨p, 0⟩⟩
        ⟨Level.nil 4, [⟨⟨0, [], ⟨0, [.assertion ⟨0, 1⟩ .lineStart]⟩⟩, ⟨1, 2⟩, .flagged [], false⟩],
          false, [], ⟨p ++ closing, 4⟩⟩ := ⟨rfl, rfl, rfl, rfl, rfl⟩
    rw [readPattern_eq]
    rcases hstart.read hread with ⟨f, hf, hkind⟩ | ⟨t, ht, hbare⟩
    · exact Or.inl ⟨f, by rw [hf]; rfl, hkind⟩
    · refine Or.inr ⟨t, ?_, hbare⟩
      rw [← Tree.tooDeep_bare, hbare, Tree.tooDeep_bare] at hdeep
      simp only [enclosed, Tree.tooDeep, ite_some_eq_none, Tree.treesTooDeep_eq_none,
        List.forall_mem_cons] at hdeep
      have ht0 : t.tooDeep 0 = none := Tree.tooDeep_outward (Tree.tooDeep_outward hdeep.2.2.1.2)
      rw [ht]
      simp only [bind, Except.bind, ht0]

end StepGlue.Regex
