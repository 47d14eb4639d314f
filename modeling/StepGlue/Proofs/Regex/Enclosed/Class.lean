import StepGlue.Proofs.Regex.Enclosed.Escape

/-! Bracketed classes in a pattern alone and in a group. A class that is not closed before the
pattern ends takes the closing parenthesis for a member, but then it is never closed. -/

namespace StepGlue.Regex

open Regex.Cursor

def Items.bare (u : Items) : List ClassTree := u.items.map ClassTree.bare

@[simp] theorem Items.bare_push (u : Items) (t : ClassTree) :
    (u.push t).bare = u.bare ++ [t.bare] := by
  simp [Items.bare, Items.push]

theorem Items.isEmpty_of_bare {u u' : Items} (h : u.bare = u'.bare) :
    u.items.isEmpty = u'.items.isEmpty := by
  have hlen := congrArg List.isEmpty h
  simpa [Items.bare] using hlen

/-- The class of some items. -/
def unionTree : List ClassTree → ClassTree
  | [] => .empty default
  | [t] => t
  | ts => .union default ts

theorem Items.bare_toTree (u : Items) : u.toTree.bare = unionTree u.bare := by
  obtain ⟨r, _ | ⟨t, _ | ⟨t', ts⟩⟩⟩ := u
  · rfl
  · rfl
  · simp [Items.toTree, Items.bare, ClassTree.bare, unionTree]

theorem Items.toTree_bare {u u' : Items} (h : u.bare = u'.bare) :
    u.toTree.bare = u'.toTree.bare := by
  rw [Items.bare_toTree, Items.bare_toTree, h]

theorem readLeadingHyphens_local (start : Nat) {ignore : Bool} {start' n n' : Nat}
    {u u' v' : Items} {c c' d' : Cursor} (hc : c.Inside c') (hu : u.bare = u'.bare)
    (hn : c.rest.length ≤ n) (hn' : c'.rest.length ≤ n')
    (h : readLeadingHyphens ignore start' n' u' c' = .ok (v', d')) (hd : 2 < d'.rest.length) :
    ∃ v d, readLeadingHyphens ignore start n u c = .ok (v, d) ∧ v.bare = v'.bare ∧
      d.Inside d' := by
  induction n' generalizing n u u' c c' with
  | zero =>
    have hlen := hc.length
    omega
  | succ n' ih =>
    unfold readLeadingHyphens at h
    dsimp only at h
    split at h
    · next hch =>
      split at h
      · cases h
      · have hcc := hc.char_of_ne hch (by decide)
        have hs := readLeadingHyphens_suffix h
        obtain ⟨-, hin⟩ := hc.bumpSpace hs (by omega)
        have hlen := bump_length hcc
        have hlen' := bump_length hch
        have hle := (bumpSpace_suffix ignore c).length_le
        have hle' := (bumpSpace_suffix ignore c').length_le
        obtain ⟨n, rfl⟩ : ∃ k, n = k + 1 := ⟨n - 1, by omega⟩
        have hpush : (u.push (.literal ⟨c.here, '-', false⟩)).bare =
            (u'.push (.literal ⟨c'.here, '-', false⟩)).bare := by
          simp [hu, ClassTree.bare, Literal.bare]
        obtain ⟨v, d, hv, hbare, hi⟩ := ih hin hpush (by omega : _ ≤ n) (by omega) h
        refine ⟨v, d, ?_, hbare, hi⟩
        unfold readLeadingHyphens
        rw [if_pos hcc]
        dsimp only
        rw [if_neg (by simpa using hin.ne_nil hs hd)]
        exact hv
    · next hch =>
      cases h
      refine ⟨u, c, ?_, hu, hc⟩
      cases n with
      | zero => rfl
      | succ n =>
        unfold readLeadingHyphens
        rw [if_neg ((hc.char_iff (by decide)).not.mp hch)]

theorem readFirstItems_local (start : Nat) {ignore : Bool} {start' : Nat} {neg : Bool}
    {c c' d' : Cursor} {x' : Region × Bool} {u' : Items} (hc : c.Inside c')
    (h : readFirstItems ignore start' neg c' = .ok (x', u', d')) (hd : 2 < d'.rest.length) :
    ∃ x u d, readFirstItems ignore start neg c = .ok (x, u, d) ∧ x.2 = x'.2 ∧ u.bare = u'.bare ∧
      d.Inside d' := by
  obtain ⟨⟨v', e'⟩, hv, h⟩ := bind_eq_ok.mp h
  have hnil : (Items.nil c.pos).bare = (Items.nil c'.pos).bare := rfl
  dsimp only at h
  split at h
  · next hfirst =>
    split at h
    · cases h
    · cases h
      have hs := (bumpSpace_suffix ignore e').trans (bump_suffix e')
      obtain ⟨v, e, hv, hbare, hi⟩ := readLeadingHyphens_local start hc hnil
        le_rfl le_rfl hv (lt_of_lt_of_le hd hs.length_le)
      obtain ⟨-, hnext⟩ := hi.bumpSpace (List.suffix_refl _) (Nat.le_of_lt hd)
      have hcond : v.items.isEmpty = true ∧ e.char? = some ']' :=
        ⟨Items.isEmpty_of_bare hbare ▸ hfirst.1, (hi.char_iff (by decide)).mp hfirst.2⟩
      unfold readFirstItems
      rw [hv]
      refine ⟨(⟨start, (e.bumpSpace ignore).pos⟩, neg), v.push (.literal ⟨e.here, ']', false⟩),
        e.bumpSpace ignore, ?_, rfl, ?_, hnext⟩
      · simp only [bind, Except.bind]
        rw [if_pos hcond, if_neg (by simpa using hnext.ne_nil (List.suffix_refl _) hd)]
      · simp [hbare, ClassTree.bare, Literal.bare]
  · next hfirst =>
    cases h
    obtain ⟨v, e, hv, hbare, hi⟩ := readLeadingHyphens_local start hc hnil
      le_rfl le_rfl hv hd
    have hcond : ¬ (v.items.isEmpty = true ∧ e.char? = some ']') := by
      rintro ⟨hempty, hch⟩
      exact hfirst ⟨Items.isEmpty_of_bare hbare ▸ hempty, (hi.char_iff (by decide)).mpr hch⟩
    unfold readFirstItems
    rw [hv]
    refine ⟨(⟨start, e.pos⟩, neg), v, e, ?_, rfl, hbare, hi⟩
    simp only [bind, Except.bind]
    rw [if_neg hcond]

theorem readBracketOpen_local {ignore : Bool} {c c' d' : Cursor} {x' : Region × Bool}
    {u' : Items} (hc : c.Inside c') (h : readBracketOpen ignore c' = .ok (x', u', d'))
    (hd : 2 < d'.rest.length) :
    ∃ x u d, readBracketOpen ignore c = .ok (x, u, d) ∧ x.2 = x'.2 ∧ u.bare = u'.bare ∧
      d.Inside d' := by
  unfold readBracketOpen at h ⊢
  dsimp only at h ⊢
  split at h
  · next hch =>
    split at h
    · cases h
    · have hs := readFirstItems_suffix h
      obtain ⟨-, hin⟩ := hc.bumpSpace
        (hs.trans ((bumpSpace_suffix _ _).trans (bump_suffix _))) (by omega)
      obtain ⟨-, hinner⟩ := hin.bumpSpace hs (by omega)
      rw [if_pos ((hin.char_iff (by decide)).mp hch),
        if_neg (by simpa using hinner.ne_nil hs hd)]
      exact readFirstItems_local c.pos hinner h hd
  · next hch =>
    split at h
    · cases h
    · have hs := readFirstItems_suffix h
      obtain ⟨-, hin⟩ := hc.bumpSpace hs (by omega)
      rw [if_neg ((hin.char_iff (by decide)).not.mp hch), if_neg (by simpa using hin.ne_nil hs hd)]
      exact readFirstItems_local c.pos hin h hd

/-- A colon that ends a name comes before the closing parenthesis, or there is none. -/
theorem takeWhile_append_closing (l : List Char) :
    ((l ++ closing).takeWhile (· ≠ ':') = l.takeWhile (· ≠ ':') ∧
      (l ++ closing).dropWhile (· ≠ ':') = l.dropWhile (· ≠ ':') ++ closing) ∨
    (l.dropWhile (· ≠ ':') = [] ∧ (l ++ closing).dropWhile (· ≠ ':') = []) := by
  induction l with
  | nil => exact Or.inr ⟨rfl, rfl⟩
  | cons y l ih =>
    by_cases hy : y = ':'
    · exact Or.inl ⟨by simp [hy], by simp [hy]⟩
    · rcases ih with ⟨h1, h2⟩ | ⟨h1, h2⟩
      · refine Or.inl ⟨?_, ?_⟩
        · rw [List.cons_append, List.takeWhile_cons, List.takeWhile_cons, h1]
        · rw [List.cons_append, List.dropWhile_cons, List.dropWhile_cons, h2]
          simp [hy]
      · refine Or.inr ⟨?_, ?_⟩
        · rw [List.dropWhile_cons, h1]
          simp [hy]
        · rw [List.cons_append, List.dropWhile_cons, h2]
          simp [hy]

theorem readAsciiName_local (start start' : Nat) {neg : Bool} {c c' : Cursor}
    (hc : c.Inside c') :
    (readAsciiName? start neg c = none ∧ readAsciiName? start' neg c' = none) ∨
      ∃ t d t' d', readAsciiName? start neg c = some (t, d) ∧
        readAsciiName? start' neg c' = some (t', d') ∧ t.bare = t'.bare ∧ d.Inside d' := by
  unfold readAsciiName?
  dsimp only
  rw [hc]
  rcases takeWhile_append_closing c.rest with ⟨h1, h2⟩ | ⟨h1, h2⟩
  · rw [h1, h2]
    have hin : Cursor.Inside ⟨c.rest.dropWhile (· ≠ ':'), c.pos + (c.rest.takeWhile (· ≠ ':')).length⟩
        ⟨c.rest.dropWhile (· ≠ ':') ++ closing,
          c'.pos + (c.rest.takeWhile (· ≠ ':')).length⟩ := rfl
    rcases hin.skip [':', ']'] (by decide) with ⟨hn, hn'⟩ | ⟨d, d', hd, hd', hi⟩
    · rw [hn, hn']
      exact Or.inl ⟨rfl, rfl⟩
    · rw [hd, hd']
      cases hk : asciiName? (String.ofList (c.rest.takeWhile (· ≠ ':'))) with
      | none => exact Or.inl ⟨rfl, rfl⟩
      | some kind => exact Or.inr ⟨_, d, _, d', rfl, rfl, rfl, hi⟩
  · rw [h1, h2]
    exact Or.inl ⟨rfl, rfl⟩

theorem readAsciiClass_local {c c' : Cursor} (hc : c.Inside c') :
    (readAsciiClass? c = none ∧ readAsciiClass? c' = none) ∨
      ∃ t d t' d', readAsciiClass? c = some (t, d) ∧ readAsciiClass? c' = some (t', d') ∧
        t.bare = t'.bare ∧ d.Inside d' := by
  unfold readAsciiClass?
  rcases hc.skip ['[', ':'] (by decide) with ⟨hn, hn'⟩ | ⟨d, d', hd, hd', hin⟩
  · rw [hn, hn']
    exact Or.inl ⟨rfl, rfl⟩
  · simp only [hd, hd', Option.bind_eq_bind, Option.bind_some, hin.char_iff (by decide : '^' ≠ ')')]
    split
    · next hch => exact readAsciiName_local _ _ (hin.bump_of_char hch).2
    · exact readAsciiName_local _ _ hin

theorem readClassPrimitive_local {ignore : Bool} {ch : Char} {c c' d' : Cursor}
    {p' : Primitive} (hc : c.Inside c') (h : readClassPrimitive ignore c' ch = .ok (p', d'))
    (hd : 2 ≤ d'.rest.length) :
    (∃ p d, readClassPrimitive ignore c ch = .ok (p, d) ∧ p.bare = p'.bare ∧ d.Inside d') ∨
      Stranded ignore p' d' := by
  obtain ⟨-, hin⟩ := hc.bump (readClassPrimitive_suffix h) hd
  unfold readClassPrimitive at h ⊢
  split at h
  · next hch =>
    rw [if_pos hch]
    exact readEscape_local hc h hd
  · next hch =>
    cases h
    rw [if_neg hch]
    exact Or.inl ⟨_, _, rfl, rfl, hin⟩

theorem toClassItem_local {p p' : Primitive} (h : p.bare = p'.bare) {t' : ClassTree}
    (ht : p'.toClassItem = .ok t') : ∃ t, p.toClassItem = .ok t ∧ t.bare = t'.bare := by
  cases p' with
  | literal l' =>
    cases ht
    cases p with
    | literal l => exact ⟨_, rfl, congrArg ClassTree.literal (Tree.literal.inj h)⟩
    | _ => cases h
  | named r n neg =>
    cases ht
    cases p with
    | named r n neg =>
      obtain ⟨-, rfl, rfl⟩ := Tree.named.inj h
      exact ⟨_, rfl, rfl⟩
    | _ => cases h
  | shorthand r k neg =>
    cases ht
    cases p with
    | shorthand r k neg =>
      obtain ⟨-, rfl, rfl⟩ := Tree.shorthand.inj h
      exact ⟨_, rfl, rfl⟩
    | _ => cases h
  | _ => cases ht

theorem toClassLiteral_local {p p' : Primitive} (h : p.bare = p'.bare) {l' : Literal}
    (hl : p'.toClassLiteral = .ok l') : ∃ l, p.toClassLiteral = .ok l ∧ l.bare = l'.bare := by
  cases p' with
  | literal l' =>
    cases hl
    cases p with
    | literal l => exact ⟨_, rfl, Tree.literal.inj h⟩
    | _ => cases h
  | _ => cases hl

theorem Literal.char_of_bare {l l' : Literal} (h : l.bare = l'.bare) : l.char = l'.char :=
  (Literal.mk.inj h).2.1

theorem readRangeEnd_local (f : Fault) {ignore : Bool} {f' : Fault} {p p' : Primitive}
    {c c' d' : Cursor} {t' : ClassTree} (hc : c.Inside c') (hp : p.bare = p'.bare)
    (h : readRangeEnd ignore f' p' c' = .ok (t', d')) (hd : 2 ≤ d'.rest.length) :
    ∃ t d, readRangeEnd ignore f p c = .ok (t, d) ∧ t.bare = t'.bare ∧ d.Inside d' := by
  unfold readRangeEnd at h
  split at h
  · cases h
  · next x hch =>
    obtain ⟨⟨last', e'⟩, hlast, h⟩ := bind_eq_ok.mp h
    obtain ⟨lo', hlo, h⟩ := bind_eq_ok.mp h
    obtain ⟨hi', hhi, h⟩ := bind_eq_ok.mp h
    split at h
    · cases h
    · next hle =>
      cases h
      obtain ⟨heq, -⟩ := hc.bump (readClassPrimitive_suffix hlast) hd
      rcases readClassPrimitive_local hc hlast hd with ⟨last, d, hl, hbare, hin⟩ | ⟨⟨r, k, rfl⟩, -⟩
      · obtain ⟨lo, hlo, hblo⟩ := toClassLiteral_local hp hlo
        obtain ⟨hi, hhi, hbhi⟩ := toClassLiteral_local hbare hhi
        have hclo : lo.char = lo'.char := Literal.char_of_bare hblo
        have hchi : hi.char = hi'.char := Literal.char_of_bare hbhi
        unfold readRangeEnd
        rw [heq, hch]
        refine ⟨.range ⟨p.region.start, last.region.stop⟩ lo hi, d, ?_, ?_, hin⟩
        · simp only [hl, hlo, hhi, bind, Except.bind, hclo, hchi, if_neg hle]
        · simp [ClassTree.bare, hblo, hbhi]
      · cases hhi

theorem readClassRange_local (f : Fault) {ignore : Bool} {f' : Fault} {ch : Char}
    {c c' d' : Cursor} {t' : ClassTree} (hc : c.Inside c')
    (h : readClassRange ignore f' c' ch = .ok (t', d')) (hd : 2 < d'.rest.length) :
    ∃ t d, readClassRange ignore f c ch = .ok (t, d) ∧ t.bare = t'.bare ∧ d.Inside d' := by
  obtain ⟨⟨first', e'⟩, hfirst, h⟩ := bind_eq_ok.mp h
  have hprim : ∀ {g : Cursor}, g.rest <:+ (e'.space ignore).rest → 2 ≤ g.rest.length →
      (∃ r k, first' = .assertion r k) ∨ ∃ first e, readClassPrimitive ignore c ch =
        .ok (first, e) ∧ first.bare = first'.bare ∧ (e.space ignore).Inside (e'.space ignore) := by
    intro g hg hlen
    have hle := (hg.trans (space_suffix ignore e')).length_le
    rcases readClassPrimitive_local hc hfirst (by omega) with ⟨first, e, hf, hbare, hin⟩ | hstr
    · exact Or.inr ⟨first, e, hf, hbare, hin.space hg hlen⟩
    · exact Or.inl hstr.1
  dsimp only at h
  split at h
  · cases h
  · next x hx =>
    split at h
    · next hcond =>
      obtain ⟨item', hitem, h⟩ := bind_eq_ok.mp h
      cases h
      rcases hprim (List.suffix_refl _) (by omega) with ⟨r, k, rfl⟩ | ⟨first, e, hf, hbare, hin⟩
      · cases hitem
      · obtain ⟨item, hitem, hbi⟩ := toClassItem_local hbare hitem
        obtain ⟨y, hy⟩ := char_of_ne_nil (hin.ne_nil (List.suffix_refl _) hd)
        obtain rfl : x = y := Option.some.inj (hx.symm.trans (hin.bump_of_char hy).1)
        rw [peekSpace_local hin hy ignore (by decide), peekSpace_local hin hy ignore (by decide)]
          at hcond
        refine ⟨item, e.space ignore, ?_, hbi, hin⟩
        unfold readClassRange
        simp only [hf, bind, Except.bind, hy]
        rw [if_pos hcond, hitem]
        rfl
    · next hcond =>
      have hs := readRangeEnd_suffix h
      have hs' := hs.trans ((bumpSpace_suffix _ _).trans (bump_suffix _))
      rcases hprim hs' (by omega) with ⟨r, k, rfl⟩ | ⟨first, e, hf, hbare, hin⟩
      · unfold readRangeEnd at h
        split at h
        · cases h
        · obtain ⟨last, -, h⟩ := bind_eq_ok.mp h
          cases h
      · obtain ⟨y, hy⟩ := char_of_ne_nil (hin.ne_nil hs' hd)
        obtain rfl : x = y := Option.some.inj (hx.symm.trans (hin.bump_of_char hy).1)
        rw [peekSpace_local hin hy ignore (by decide), peekSpace_local hin hy ignore (by decide)]
          at hcond
        obtain ⟨-, hnext⟩ := hin.bumpSpace hs (by omega)
        obtain ⟨t, d, ht, hbt, hi⟩ := readRangeEnd_local f hnext hbare h (by omega)
        refine ⟨t, d, ?_, hbt, hi⟩
        unfold readClassRange
        simp only [hf, bind, Except.bind, hy]
        rw [if_neg hcond]
        exact ht

def ClassFrame.bare : ClassFrame → ClassFrame
  | .bracket outer _ neg => .bracket ⟨default, outer.bare⟩ default neg
  | .op kind left => .op kind left.bare

/-- The two readings inside brackets at the same place. -/
structure ClassState.Beside (s s' : ClassState) : Prop where
  items : s.items.bare = s'.items.bare
  stack : s.stack.map ClassFrame.bare = s'.stack.map ClassFrame.bare
  cursor : s.cursor.Inside s'.cursor

theorem closeOp_bare {stack stack' : List ClassFrame} {right right' : ClassTree}
    (hs : stack.map ClassFrame.bare = stack'.map ClassFrame.bare) (hr : right.bare = right'.bare) :
    (closeOp stack right).1.map ClassFrame.bare = (closeOp stack' right').1.map ClassFrame.bare ∧
      (closeOp stack right).2.bare = (closeOp stack' right').2.bare := by
  cases stack with
  | nil =>
    cases stack' with
    | nil => exact ⟨rfl, hr⟩
    | cons f' fs' => cases hs
  | cons f fs =>
    cases stack' with
    | nil => cases hs
    | cons f' fs' =>
      obtain ⟨hf, hfs⟩ := List.cons.inj hs
      cases f with
      | bracket outer r neg =>
        cases f' with
        | bracket outer' r' neg' => exact ⟨hs, hr⟩
        | op kind' left' => cases hf
      | op kind left =>
        cases f' with
        | bracket outer' r' neg' => cases hf
        | op kind' left' =>
          obtain ⟨rfl, hleft⟩ := ClassFrame.op.inj hf
          exact ⟨hfs, by simp [closeOp, ClassTree.bare, hleft, hr]⟩

theorem enterBracket_local {ignore : Bool} {s s' t' : ClassState} {c c' : Cursor}
    (hs : s.Beside s') (hc : c.Inside c') (h : enterBracket ignore s' c' = .ok t')
    (hd : 2 < t'.cursor.rest.length) : ∃ t, enterBracket ignore s c = .ok t ∧ t.Beside t' := by
  obtain ⟨⟨⟨r', neg'⟩, u', d'⟩, ho, h⟩ := bind_eq_ok.mp h
  cases h
  obtain ⟨⟨r, neg⟩, u, d, ho, hneg, hu, hi⟩ := readBracketOpen_local hc ho hd
  cases hneg
  unfold enterBracket
  rw [ho]
  refine ⟨_, rfl, hu, ?_, hi⟩
  simp [ClassFrame.bare, hs.stack, hs.items]

theorem openBracketStep_local {ignore : Bool} {s s' t' : ClassState} {c c' : Cursor}
    (hs : s.Beside s') (hc : c.Inside c') (h : openBracketStep ignore s' c' = .ok t')
    (hd : 2 < t'.cursor.rest.length) :
    ∃ t, openBracketStep ignore s c = .ok t ∧ t.Beside t' := by
  have hempty : s.stack.isEmpty = s'.stack.isEmpty := by
    have hh := congrArg List.isEmpty hs.stack
    simpa using hh
  unfold openBracketStep at h ⊢
  rw [hempty]
  cases hst : s'.stack.isEmpty with
  | true =>
    simp only [hst, if_true] at h ⊢
    exact enterBracket_local hs hc h hd
  | false =>
    simp only [hst, Bool.false_eq_true, if_false] at h ⊢
    rcases readAsciiClass_local hc with ⟨hn, hn'⟩ | ⟨t, d, u', d', ht, ht', hbare, hi⟩
    · simp only [hn, hn'] at h ⊢
      exact enterBracket_local hs hc h hd
    · simp only [ht, ht'] at h ⊢
      cases h
      refine ⟨_, rfl, ?_, hs.stack, hi⟩
      simp [hs.items, hbare]

/-- Both readings go on inside brackets, or both come to the end of them. -/
inductive ClassStep.Beside : ClassStep → ClassStep → Prop
  | more {s s' : ClassState} (h : s.Beside s') : Beside (.more s) (.more s')
  | done {r r' : Region} {neg : Bool} {inner inner' : ClassTree} {c c' : Cursor}
      (h : inner.bare = inner'.bare) (hc : c.Inside c') :
      Beside (.done r neg inner c) (.done r' neg inner' c')

theorem closeBracketStep_local {s s' : ClassState} {c c' : Cursor} {x' : ClassStep}
    (hs : s.Beside s') (hc : c.bump.Inside c'.bump) (h : closeBracketStep s' c' = .ok x') :
    ∃ x, closeBracketStep s c = .ok x ∧ x.Beside x' := by
  obtain ⟨hstack, hinner⟩ := closeOp_bare hs.stack (Items.toTree_bare hs.items)
  unfold closeBracketStep at h ⊢
  dsimp only at h ⊢
  revert h hstack
  cases (closeOp s'.stack s'.items.toTree).1 with
  | nil =>
    intro h
    cases h
  | cons f' fs' =>
    cases f' with
    | op kind left =>
      intro h
      cases h
    | bracket outer' r' neg' =>
      intro h hstack
      cases hcl : (closeOp s.stack s.items.toTree).1 with
      | nil =>
        rw [hcl] at hstack
        cases hstack
      | cons f fs =>
        rw [hcl] at hstack
        obtain ⟨hf, hfs⟩ := List.cons.inj hstack
        cases f with
        | op kind left => cases hf
        | bracket outer r neg =>
          obtain ⟨houter, -, rfl⟩ := ClassFrame.bracket.inj hf
          have hempty : fs.isEmpty = fs'.isEmpty := by
            have hh := congrArg List.isEmpty hfs
            simpa using hh
          dsimp only at h ⊢
          rw [hempty]
          split at h
          · next hlast =>
            cases h
            rw [if_pos hlast]
            exact ⟨_, rfl, .done hinner hc⟩
          · next hlast =>
            cases h
            rw [if_neg hlast]
            refine ⟨_, rfl, .more ⟨?_, hfs, hc⟩⟩
            have hob : outer.bare = outer'.bare := (Items.mk.inj houter).2
            simp [hob, ClassTree.bare, hinner]

theorem setOp_append_closing (ch : Char) (l : List Char) :
    setOp? (ch :: l ++ closing) = setOp? (ch :: l) := by
  cases l with
  | nil =>
    have hnone : ∀ r, setOp? (ch :: ')' :: r) = none := by
      intro r
      unfold setOp?
      split <;> simp_all
    have hone : setOp? [ch] = none := by
      unfold setOp?
      split <;> simp_all
    exact (hnone ['$']).trans hone.symm
  | cons y l =>
    simp only [List.cons_append]
    unfold setOp?
    split <;> simp_all

theorem pushOp_local {kind : SetOp} {s s' : ClassState} {c c' : Cursor} (hs : s.Beside s')
    (hc : c.bump.bump.Inside c'.bump.bump) :
    (pushOp kind s.items s.stack c).Beside (pushOp kind s'.items s'.stack c') := by
  obtain ⟨hstack, hleft⟩ := closeOp_bare hs.stack (Items.toTree_bare hs.items)
  refine ⟨rfl, ?_, hc⟩
  simp [pushOp, ClassFrame.bare, hstack, hleft]

theorem classStep_local {ignore : Bool} {s s' : ClassState} {x' : ClassStep} (hs : s.Beside s')
    (h : classStep ignore s' = .ok x') (hx : ∀ t', x' = .more t' → 2 < t'.cursor.rest.length) :
    ∃ x, classStep ignore s = .ok x ∧ x.Beside x' := by
  unfold classStep at h ⊢
  dsimp only at h ⊢
  rcases hs.cursor.space_or ignore with hc | hnil
  swap
  · simp [Cursor.char?, hnil] at h
  split at h
  · cases h
  · next y hy =>
    split at h
    · next hopen =>
      obtain ⟨t', ht, rfl⟩ := map_eq_ok.mp h
      obtain ⟨t, ht, hb⟩ := openBracketStep_local hs hc ht (hx t' rfl)
      simp only [hc.char_of_ne hy (by rw [hopen]; decide), if_pos hopen, ht]
      exact ⟨_, rfl, .more hb⟩
    · next hopen =>
      split at h
      · next hclose =>
        have hcc := hc.char_of_ne hy (by rw [hclose]; decide)
        obtain ⟨x, hx, hb⟩ := closeBracketStep_local hs (hc.bump_of_char hcc).2 h
        simp only [hcc, if_neg hopen, if_pos hclose]
        exact ⟨x, hx, hb⟩
      · next hclose =>
        split at h
        · next kind hkind =>
          cases h
          have hlen := hx _ rfl
          have hb : 2 ≤ (s'.cursor.space ignore).bump.bump.rest.length := Nat.le_of_lt hlen
          obtain ⟨heq, hin⟩ := hc.bump (bump_suffix _) hb
          obtain ⟨-, hin'⟩ := hin.bump (List.suffix_refl _) hb
          have hop : setOp? (s.cursor.space ignore).rest = some kind := by
            rw [rest_of_char (heq.trans hy), ← setOp_append_closing, ← rest_of_char (heq.trans hy),
              ← hkind]
            exact congrArg _ hc.symm
          simp only [heq.trans hy, if_neg hopen, if_neg hclose, hop]
          exact ⟨_, rfl, .more (pushOp_local hs hin')⟩
        · next hkind =>
          obtain ⟨⟨item', d'⟩, hitem, h⟩ := bind_eq_ok.mp h
          cases h
          have hlen := hx _ rfl
          obtain ⟨heq, -⟩ := hc.bump (readClassRange_suffix hitem) (Nat.le_of_lt hlen)
          have hop : setOp? (s.cursor.space ignore).rest = none := by
            rw [rest_of_char (heq.trans hy), ← setOp_append_closing, ← rest_of_char (heq.trans hy),
              ← hkind]
            exact congrArg _ hc.symm
          obtain ⟨item, d, hitem, hbare, hi⟩ := readClassRange_local
            ⟨.classUnclosed, openBracket s.stack, none⟩ hc hitem hlen
          simp only [heq.trans hy, if_neg hopen, if_neg hclose, hop, hitem]
          refine ⟨_, rfl, .more ⟨?_, hs.stack, hi⟩⟩
          simp [hs.items, hbare]

theorem classStep_done {ignore : Bool} {s : ClassState} {r : Region} {neg : Bool}
    {inner : ClassTree} {d : Cursor} (h : classStep ignore s = .ok (.done r neg inner d)) :
    (s.cursor.space ignore).char? = some ']' := by
  unfold classStep at h
  dsimp only at h
  split at h
  · cases h
  · next y hy =>
    split at h
    · obtain ⟨u, -, hu⟩ := map_eq_ok.mp h
      cases hu
    · split at h
      · next hclose => rw [hy, hclose]
      · split at h
        · cases h
        · obtain ⟨⟨item, e⟩, -, h⟩ := bind_eq_ok.mp h
          cases h

/-- A class is closed by a bracket of its own. -/
theorem mem_of_readClass {ignore : Bool} {n : Nat} {s : ClassState} {t : Tree} {d : Cursor}
    (h : readClass ignore n s = .ok (t, d)) : ']' ∈ s.cursor.rest := by
  induction n generalizing s with
  | zero => cases h
  | succ n ih =>
    obtain ⟨x, hx, h⟩ := bind_eq_ok.mp h
    have hspace := space_suffix ignore s.cursor
    cases x with
    | done r neg inner c =>
      refine hspace.subset ?_
      rw [rest_of_char (classStep_done hx)]
      exact List.mem_cons_self
    | more u =>
      exact ((classStep_suffix hx).2.trans ((bump_suffix _).trans hspace)).subset (ih h)

theorem length_of_mem {l r : List Char} (h : l <:+ r ++ closing) {x : Char} (hx : x ∈ l)
    (hno : x ∉ closing) : 2 < l.length := by
  by_contra hle
  have hsuf : l <:+ closing :=
    List.suffix_of_suffix_length_le h (List.suffix_append _ _) (Nat.not_lt.mp hle)
  exact hno (hsuf.subset hx)

theorem readClass_local {ignore : Bool} {n n' : Nat} {s s' : ClassState} {t' : Tree}
    {d' : Cursor} (hs : s.Beside s') (hn : s.cursor.rest.length < n)
    (h : readClass ignore n' s' = .ok (t', d')) :
    ∃ t d, readClass ignore n s = .ok (t, d) ∧ t.bare = t'.bare ∧ d.Inside d' := by
  induction n' generalizing n s s' with
  | zero => cases h
  | succ n' ih =>
    obtain ⟨n, rfl⟩ : ∃ k, n = k + 1 := ⟨n - 1, by omega⟩
    obtain ⟨x', hx', h⟩ := bind_eq_ok.mp h
    have hlong : ∀ u', x' = .more u' → 2 < u'.cursor.rest.length := by
      rintro u' rfl
      have hsuf := (classStep_suffix hx').2.trans
        ((bump_suffix _).trans (space_suffix ignore s'.cursor))
      rw [hs.cursor] at hsuf
      exact length_of_mem hsuf (mem_of_readClass h) (by decide)
    obtain ⟨x, hx, hb⟩ := classStep_local hs hx' hlong
    have hlt := classStep_length hx
    unfold readClass
    rw [hx]
    cases hb with
    | more hb => exact ih hb (by simp only [ClassStep.cursor] at hlt; omega) h
    | done hinner hc =>
      cases h
      exact ⟨_, _, rfl, by simp [Tree.bare, hinner], hc⟩

end StepGlue.Regex
