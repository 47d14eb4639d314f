import StepGlue.Expression
import StepGlue.Proofs.Regex.Forward
import StepGlue.Proofs.Regex.Plain

/-! Patterns put together from parts.

A part is described by the items that the reader adds when it goes over it, wherever the part
stands. Parts follow each other, are repeated, and are put into groups with bars between them;
what is read then is known from the parts. -/

namespace StepGlue.Regex

def Level.pushAll (l : Level) (ts : List Tree) : Level := ts.foldl Level.push l

theorem Level.pushAll_eq (l : Level) (ts : List Tree) : l.pushAll ts =
    ⟨l.start, l.branches, ⟨l.sequence.start, ts.reverse ++ l.sequence.items⟩⟩ := by
  induction ts generalizing l with
  | nil => rfl
  | cons t ts ih =>
    unfold Level.pushAll at ih ⊢
    rw [List.foldl_cons, ih]
    simp [Level.push, Level.items]

/-- Going over a part adds these items, up to their regions, if the rest is as asked for. -/
def Adds (follow : List Char → Prop) (p : List Char) (ts : List Tree) : Prop :=
  ∀ level stack names pos rest, follow rest → ∃ us pos', us.map Tree.bare = ts ∧
    State.read ⟨level, stack, false, names, ⟨p ++ rest, pos⟩⟩ =
      State.read ⟨level.pushAll us, stack, false, names, ⟨rest, pos'⟩⟩

/-- Nothing that makes a repetition reluctant comes next. -/
def Greedy (rest : List Char) : Prop := rest.head? ≠ some '?'

theorem Adds.nil {follow : List Char → Prop} : Adds follow [] [] :=
  fun _ _ _ pos _ _ => ⟨[], pos, rfl, rfl⟩

theorem Adds.weaken {follow follow' : List Char → Prop} {p : List Char} {ts : List Tree}
    (h : Adds follow p ts) (hf : ∀ rest, follow' rest → follow rest) : Adds follow' p ts :=
  fun level stack names pos rest hrest => h level stack names pos rest (hf rest hrest)

theorem Adds.append {follow follow' : List Char → Prop} {p q : List Char} {ts us : List Tree}
    (hp : Adds follow p ts) (hq : Adds follow' q us)
    (hf : ∀ rest, follow' rest → follow (q ++ rest)) : Adds follow' (p ++ q) (ts ++ us) := by
  intro level stack names pos rest hrest
  obtain ⟨vs, pos₁, hvs, hread₁⟩ := hp level stack names pos (q ++ rest) (hf rest hrest)
  obtain ⟨ws, pos₂, hws, hread₂⟩ := hq (level.pushAll vs) stack names pos₁ rest hrest
  refine ⟨vs ++ ws, pos₂, by simp [hvs, hws], ?_⟩
  rw [List.append_assoc, hread₁, hread₂]
  simp [Level.pushAll]

/-- A part that takes one step. -/
theorem Adds.step {ch : Char} {p : List Char} {t : Tree}
    (h : ∀ level stack names pos rest, ∃ u pos', u.bare = t ∧
      readStep ⟨level, stack, false, names, ⟨ch :: (p ++ rest), pos⟩⟩ ⟨ch :: (p ++ rest), pos⟩ ch =
        .ok ⟨level.push u, stack, false, names, ⟨rest, pos'⟩⟩) :
    Adds (fun _ => True) (ch :: p) [t] := by
  intro level stack names pos rest _
  obtain ⟨u, pos', hu, hstep⟩ := h level stack names pos rest
  exact ⟨[u], pos', by simp [hu], State.read_step rfl hstep⟩

/-! ### Text that stands for itself -/

/-- A character as it is read, without its region. -/
def charTree (c : Char) : Tree := .literal ⟨default, c, false⟩

theorem adds_char {c : Char} (hc : isMeta c = false) : Adds (fun _ => True) [c] [charTree c] := by
  refine Adds.step fun level stack names pos rest => ⟨.literal ⟨⟨pos, pos + 1⟩, c, false⟩,
    pos + 1, rfl, ?_⟩
  have hprim : readPrimitive false c ⟨c :: ([] ++ rest), pos⟩ =
      .ok (.literal ⟨⟨pos, pos + 1⟩, c, false⟩, ⟨rest, pos + 1⟩) := by
    unfold readPrimitive
    split
    · cases hc
    · cases hc
    · cases hc
    · cases hc
    · rfl
  unfold readStep
  split
  · cases hc
  · cases hc
  · cases hc
  · cases hc
  · cases hc
  · cases hc
  · cases hc
  · cases hc
  · rw [hprim]
    rfl

theorem adds_escaped {c : Char} (hc : isMeta c = true) :
    Adds (fun _ => True) ['\\', c] [charTree c] := by
  refine Adds.step fun level stack names pos rest => ⟨.literal ⟨⟨pos, pos + 2⟩, c, false⟩,
    pos + 2, rfl, ?_⟩
  have hesc : readEscape false ⟨'\\' :: ([c] ++ rest), pos⟩ =
      .ok (.literal ⟨⟨pos, pos + 2⟩, c, false⟩, ⟨rest, pos + 2⟩) := by
    simp [readEscape, Cursor.bump, Cursor.char?, hc]
  simp only [readStep, readPrimitive, hesc]
  rfl

theorem adds_escape (s : List Char) : Adds (fun _ => True) (escape s) (s.map charTree) := by
  induction s with
  | nil => exact Adds.nil
  | cons c s ih =>
    unfold escape
    split
    · next hc => exact (adds_escaped hc).append ih fun _ _ => trivial
    · next hc => exact (adds_char (Bool.not_eq_true _ ▸ hc)).append ih fun _ _ => trivial

/-! ### Repetitions -/

theorem Adds.repetition {p : List Char} {t : Tree} (h : Adds (fun _ => True) p [t])
    (ht : t.Repeatable) (op : Char) (least : Nat) (most : Option Nat)
    (hop : ∀ s c, readStep s c op = readRepetition s c least most) :
    Adds Greedy (p ++ [op]) [.repetition default least most t] := by
  intro level stack names pos rest hrest
  obtain ⟨us, pos', hus, hread⟩ := h level stack names pos (op :: rest) trivial
  obtain ⟨u, rfl⟩ : ∃ u, us = [u] := by
    have hlen := congrArg List.length hus
    simp only [List.length_map, List.length_singleton] at hlen
    exact List.length_eq_one_iff.mp hlen
  have hu : u.bare = t := by simpa using hus
  refine ⟨[.repetition ⟨u.region.start, pos' + 1⟩ least most u], pos' + 1,
    by simp [Tree.bare, hu], ?_⟩
  rw [List.append_assoc, List.singleton_append, hread]
  refine State.read_step (rfl : _ = some op) ?_
  have hrep : repeated ⟨level.pushAll [u], stack, false, names, ⟨op :: rest, pos'⟩⟩
      ⟨op :: rest, pos'⟩ = .ok (u, level.items) :=
    repeated_eq_ok.mpr ⟨rfl, Tree.repeatable_bare.mp (hu ▸ ht)⟩
  have hskip : skipReluctance ⟨rest, pos' + 1⟩ = ⟨rest, pos' + 1⟩ := if_neg hrest
  have hahead : State.ahead ⟨level.pushAll [u], stack, false, names, ⟨op :: rest, pos'⟩⟩ =
      ⟨op :: rest, pos'⟩ := rfl
  rw [hop, hahead, readRepetition, hrep]
  simp only [bind, Except.bind, Cursor.bump, hskip]
  rfl

/-! ### Branches -/

/-- What is read in a group, or on its own, from the part to the end. -/
def Body (p : List Char) (t : Tree) : Prop :=
  ∀ stack names start pos rest, Greedy rest → ∃ level pos',
    State.read ⟨Level.nil start, stack, false, names, ⟨p ++ rest, pos⟩⟩ =
      State.read ⟨level, stack, false, names, ⟨rest, pos'⟩⟩ ∧ ∀ stop, (level.toTree stop).bare = t

theorem read_branches {parts : List (List Char × List Tree)} (hne : parts ≠ [])
    (h : ∀ x ∈ parts, Adds Greedy x.1 x.2) (start first : Nat) (done : List Tree)
    (stack : List Frame) (names : List (String × Region)) (pos : Nat) {rest : List Char}
    (hrest : Greedy rest) : ∃ level pos',
    State.read ⟨⟨start, done, ⟨first, []⟩⟩, stack, false, names,
        ⟨joinBars (parts.map (·.1)) ++ rest, pos⟩⟩ =
      State.read ⟨level, stack, false, names, ⟨rest, pos'⟩⟩ ∧
    ∀ stop, (level.toTree stop).bare =
      branchTree (done.reverse.map Tree.bare ++ parts.map fun x => rowTree x.2) := by
  induction parts generalizing first done pos with
  | nil => exact absurd rfl hne
  | cons x xs ih =>
    obtain ⟨hx, hxs⟩ := List.forall_mem_cons.mp h
    cases xs with
    | nil =>
      obtain ⟨us, pos', hus, hread⟩ := hx ⟨start, done, ⟨first, []⟩⟩ stack names pos rest hrest
      refine ⟨_, pos', hread, fun stop => ?_⟩
      rw [Level.bare_toTree, Level.pushAll_eq]
      simp [hus]
    | cons y ys =>
      have hbar : Greedy ('|' :: (joinBars ((y :: ys).map (·.1)) ++ rest)) := by
        simp [Greedy]
      obtain ⟨us, pos', hus, hread⟩ := hx ⟨start, done, ⟨first, []⟩⟩ stack names pos _ hbar
      obtain ⟨level, pos'', hread', htree⟩ := ih (List.cons_ne_nil y ys) hxs (pos' + 1)
        (Sequence.toTree ⟨first, us.reverse⟩ pos' :: done) (pos' + 1)
      refine ⟨level, pos'', ?_, fun stop => ?_⟩
      · rw [← hread']
        have hjoin : joinBars ((x :: y :: ys).map (·.1)) ++ rest =
            x.1 ++ '|' :: (joinBars ((y :: ys).map (·.1)) ++ rest) := by
          simp [joinBars]
        rw [hjoin, hread, Level.pushAll_eq]
        simp only [List.append_nil]
        exact State.read_step rfl rfl
      · rw [htree]
        simp [Sequence.bare_toTree, hus]

theorem body_joinBars {parts : List (List Char × List Tree)} (hne : parts ≠ [])
    (h : ∀ x ∈ parts, Adds Greedy x.1 x.2) :
    Body (joinBars (parts.map (·.1))) (branchTree (parts.map fun x => rowTree x.2)) := by
  intro stack names start pos rest hrest
  exact read_branches hne h start start [] stack names pos hrest

/-! ### Groups and whole patterns -/

theorem Body.adds_close {p : List Char} {t : Tree} (h : Body p t) {opening : List Char}
    {kind : GroupKind} (hopen : ∀ level stack names pos rest, ∃ region start,
      State.read ⟨level, stack, false, names, ⟨opening ++ (p ++ ')' :: rest), pos⟩⟩ =
        State.read ⟨Level.nil start, ⟨level, region, kind, false⟩ :: stack, false, names,
          ⟨p ++ ')' :: rest, start⟩⟩) :
    Adds (fun _ => True) (opening ++ p ++ [')']) [.group default kind t] := by
  intro level stack names pos rest _
  obtain ⟨region, start, hopen⟩ := hopen level stack names pos rest
  have hclose : Greedy (')' :: rest) := by simp [Greedy]
  obtain ⟨inner, pos', hread, htree⟩ :=
    h (⟨level, region, kind, false⟩ :: stack) names start start (')' :: rest) hclose
  refine ⟨[.group ⟨region.start, pos' + 1⟩ kind (inner.toTree pos')], pos' + 1, ?_, ?_⟩
  · simp [Tree.bare, htree]
  · rw [List.append_assoc, List.append_assoc, List.singleton_append, hopen, hread]
    exact State.read_step rfl rfl

theorem Body.adds_group {p : List Char} {t : Tree} (h : Body p t) :
    Adds (fun _ => True) ("(?:".toList ++ p ++ [')']) [.group default (.flagged []) t] := by
  refine h.adds_close fun level stack names pos rest => ⟨⟨pos, pos + 1⟩, pos + 3, ?_⟩
  exact State.read_step rfl rfl

theorem Body.adds_capture {p : List Char} {t : Tree} (h : Body p t) (hp : Greedy p) :
    Adds (fun _ => True) (['('] ++ p ++ [')']) [.group default .capturing t] := by
  refine h.adds_close fun level stack names pos rest => ⟨⟨pos, pos + 1⟩, pos + 1, ?_⟩
  cases p with
  | nil => exact State.read_step rfl rfl
  | cons x p =>
    have hx : x ≠ '?' := by simpa [Greedy] using hp
    have hskip : ∀ (n : Nat) (text : List Char),
        Cursor.skip? ⟨x :: (p ++ ')' :: rest), n⟩ ('?' :: text) = none := by
      intro n text
      simp [Cursor.skip?, hx.symm]
    refine State.read_step (rfl : _ = some '(') ?_
    have hahead : State.ahead ⟨level, stack, false, names, ⟨['('] ++ (x :: p ++ ')' :: rest), pos⟩⟩ =
        ⟨'(' :: x :: (p ++ ')' :: rest), pos⟩ := rfl
    have hbump : Cursor.bump ⟨'(' :: x :: (p ++ ')' :: rest), pos⟩ =
        ⟨x :: (p ++ ')' :: rest), pos + 1⟩ := rfl
    simp only [hahead, readStep, readGroupOpen, hbump, Cursor.space, Bool.false_eq_true, if_false,
      List.findSome?_cons, List.findSome?_nil, hskip]
    rfl

/-- Nothing in the tree is too deep unless the tree itself is near the limit. -/
def Tree.Nested (n : Nat) (t : Tree) : Prop := ∀ d, d + n ≤ nestLimit → t.tooDeep d = none

theorem Body.readPattern {p : List Char} {t : Tree} (h : Body p t) (ht : t.Nested nestLimit) :
    ∃ tree, readPattern p = .ok tree ∧ tree.bare = t := by
  have hend : Greedy [] := by simp [Greedy]
  obtain ⟨level, pos', hread, htree⟩ := h [] [] 0 0 [] hend
  have hfinish : State.read ⟨level, [], false, [], ⟨[], pos'⟩⟩ = .ok (level.toTree pos') :=
    State.read_of_none rfl
  rw [List.append_nil, hfinish] at hread
  have hdeep : (level.toTree pos').tooDeep 0 = none := by
    rw [← Tree.tooDeep_bare, htree]
    exact ht 0 (by omega)
  refine ⟨level.toTree pos', ?_, htree pos'⟩
  rw [readPattern_eq, hread]
  simp only [bind, Except.bind, hdeep]

end StepGlue.Regex
