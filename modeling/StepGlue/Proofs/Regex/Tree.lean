import StepGlue.Proofs.Except
import StepGlue.Proofs.Regex.Search
import StepGlue.Regex.Compile

/-! What a tree means does not depend on where it was read.

A bare tree has lost its regions. Two readings of one text at different places give trees that
differ in their regions only, and these are compared through their bare trees. -/

namespace StepGlue.Regex

variable {sets : NamedSets}

theorem ClassTree.byParts {P : ClassTree → Prop} (empty : ∀ r, P (.empty r))
    (literal : ∀ l, P (.literal l)) (range : ∀ r a b, P (.range r a b))
    (ascii : ∀ r n neg, P (.ascii r n neg)) (named : ∀ r n neg, P (.named r n neg))
    (shorthand : ∀ r k neg, P (.shorthand r k neg))
    (bracketed : ∀ r neg inner, P inner → P (.bracketed r neg inner))
    (union : ∀ r items, (∀ t ∈ items, P t) → P (.union r items))
    (op : ∀ r k a b, P a → P b → P (.op r k a b)) (t : ClassTree) : P t :=
  @ClassTree.rec P (fun ts => ∀ t ∈ ts, P t) empty literal range ascii named shorthand bracketed
    union op (by simp) (fun _ _ ht hts => List.forall_mem_cons.mpr ⟨ht, hts⟩) t

theorem Tree.byParts {P : Tree → Prop} (empty : ∀ r, P (.empty r))
    (flags : ∀ r items, P (.flags r items)) (literal : ∀ l, P (.literal l)) (dot : ∀ r, P (.dot r))
    (assertion : ∀ r k, P (.assertion r k)) (named : ∀ r n neg, P (.named r n neg))
    (shorthand : ∀ r k neg, P (.shorthand r k neg))
    (bracketed : ∀ r neg inner, P (.bracketed r neg inner))
    (repetition : ∀ r least most item, P item → P (.repetition r least most item))
    (group : ∀ r k body, P body → P (.group r k body))
    (alternation : ∀ r ts, (∀ t ∈ ts, P t) → P (.alternation r ts))
    (sequence : ∀ r ts, (∀ t ∈ ts, P t) → P (.sequence r ts)) (t : Tree) : P t :=
  @Tree.rec P (fun ts => ∀ t ∈ ts, P t) empty flags literal dot assertion named shorthand bracketed
    repetition group alternation sequence (by simp)
    (fun _ _ ht hts => List.forall_mem_cons.mpr ⟨ht, hts⟩) t

/-! ### Bare trees -/

def Literal.bare (l : Literal) : Literal := { l with region := default }

def ClassTree.bare : ClassTree → ClassTree
  | .empty _ => .empty default
  | .literal l => .literal l.bare
  | .range _ a b => .range default a.bare b.bare
  | .ascii _ n neg => .ascii default n neg
  | .named _ n neg => .named default n neg
  | .shorthand _ k neg => .shorthand default k neg
  | .bracketed _ neg inner => .bracketed default neg inner.bare
  | .union _ items => .union default (bareAll items)
  | .op _ k a b => .op default k a.bare b.bare
where
  bareAll : List ClassTree → List ClassTree
    | [] => []
    | t :: ts => t.bare :: bareAll ts

/-- The tree without its regions. -/
def Tree.bare : Tree → Tree
  | .empty _ => .empty default
  | .flags _ items => .flags default items
  | .literal l => .literal l.bare
  | .dot _ => .dot default
  | .assertion _ k => .assertion default k
  | .named _ n neg => .named default n neg
  | .shorthand _ k neg => .shorthand default k neg
  | .bracketed _ neg inner => .bracketed default neg inner.bare
  | .repetition _ least most item => .repetition default least most item.bare
  | .group _ k body => .group default k body.bare
  | .alternation _ ts => .alternation default (bareAll ts)
  | .sequence _ ts => .sequence default (bareAll ts)
where
  bareAll : List Tree → List Tree
    | [] => []
    | t :: ts => t.bare :: bareAll ts

@[simp] theorem ClassTree.bareAll_eq_map (ts : List ClassTree) :
    ClassTree.bare.bareAll ts = ts.map ClassTree.bare := by
  induction ts with
  | nil => rfl
  | cons t ts ih => simp [ClassTree.bare.bareAll, ih]

@[simp] theorem Tree.bareAll_eq_map (ts : List Tree) :
    Tree.bare.bareAll ts = ts.map Tree.bare := by
  induction ts with
  | nil => rfl
  | cons t ts ih => simp [Tree.bare.bareAll, ih]

/-! ### Rows and branches -/

/-- The tree of some items in a row. -/
def rowTree : List Tree → Tree
  | [] => .empty default
  | [t] => t
  | ts => .sequence default ts

/-- The tree of some branches. -/
def branchTree : List Tree → Tree
  | [t] => t
  | ts => .alternation default ts

theorem Sequence.bare_toTree (q : Sequence) (stop : Nat) :
    (q.toTree stop).bare = rowTree (q.items.reverse.map Tree.bare) := by
  obtain ⟨start, _ | ⟨t, _ | ⟨u, ts⟩⟩⟩ := q
  · rfl
  · rfl
  · cases h : (t :: u :: ts).reverse.map Tree.bare with
    | nil => simp at h
    | cons x xs =>
      cases xs with
      | nil =>
        have hlen := congrArg List.length h
        simp at hlen
      | cons y ys =>
        simp only [Sequence.toTree, Tree.bare, Tree.bareAll_eq_map, h]
        rfl

theorem Level.bare_toTree (l : Level) (stop : Nat) : (l.toTree stop).bare =
    branchTree (l.branches.reverse.map Tree.bare ++
      [rowTree (l.sequence.items.reverse.map Tree.bare)]) := by
  unfold Level.toTree
  dsimp only
  cases hb : l.branches with
  | nil => simpa [branchTree] using l.sequence.bare_toTree stop
  | cons t ts =>
    rw [← l.sequence.bare_toTree stop]
    cases h : ((t :: ts).reverse.map Tree.bare) with
    | nil => simp at h
    | cons x xs =>
      simp only [List.isEmpty_cons, Bool.false_eq_true, if_false, Tree.bare, Tree.bareAll_eq_map]
      rw [List.reverse_cons, List.map_append, h]
      cases xs with
      | nil => rfl
      | cons y ys => rfl

/-! ### Meaning -/

@[simp] theorem classLiteral_bare (f : Flags) (l : Literal) :
    (f.classLiteral l.bare).toOption = (f.classLiteral l).toOption := by
  unfold Flags.classLiteral Literal.bare
  dsimp only
  split
  · rfl
  · split <;> rfl

@[simp] theorem negate_toOption (f : Flags) (r : Region) (neg : Bool) (s : CharClass) :
    (f.negate default neg s).toOption = (f.negate r neg s).toOption := by
  unfold Flags.negate
  split
  · rfl
  · split <;> rfl

theorem named_toOption (f : Flags) (r : Region) (n : ClassName) (neg : Bool) :
    (f.named sets default n neg).toOption = (f.named sets r n neg).toOption := by
  unfold Flags.named
  split
  · rfl
  · split
    · rfl
    · rfl
    · exact negate_toOption f r neg _

theorem ClassTree.lower_bare (f : Flags) (t : ClassTree) :
    (t.bare.lower sets f).toOption = (t.lower sets f).toOption := by
  induction t using ClassTree.byParts with
  | empty r => rfl
  | literal l => simp [bare, lower]
  | range r a b => simp [bare, lower]
  | ascii r n neg => simp [bare, lower, negate_toOption f r]
  | named r n neg => simp [bare, lower, named_toOption f r]
  | shorthand r k neg => simp [bare, lower, Flags.shorthand, negate_toOption f r]
  | bracketed r neg inner ih => simp [bare, lower, ih, negate_toOption f r]
  | union r items ih =>
    simp only [bare, lower, bareAll_eq_map]
    induction items with
    | nil => rfl
    | cons t ts iht =>
      obtain ⟨ht, hts⟩ := List.forall_mem_cons.mp ih
      simp [lower.lowerItems, ht, iht hts]
  | op r k a b iha ihb => simp [bare, lower, iha, ihb]

theorem literal_toOption (f : Flags) (l : Literal) :
    (f.literal l.bare).toOption = (f.literal l).toOption := by
  unfold Flags.literal Literal.bare
  dsimp only
  split <;> rfl

theorem dot_toOption (f : Flags) (r : Region) :
    (f.dot default).toOption = (f.dot r).toOption := by
  unfold Flags.dot
  split
  · rfl
  · split
    · rfl
    · split <;> rfl

theorem Tree.lower_bare (f : Flags) (t : Tree) :
    (t.bare.lower sets f).toOption = (t.lower sets f).toOption := by
  induction t using Tree.byParts generalizing f with
  | empty r => rfl
  | flags r items => rfl
  | literal l => simp [bare, lower, literal_toOption]
  | dot r => simp [bare, lower, dot_toOption f r]
  | assertion r k => rfl
  | named r n neg => simp [bare, lower, named_toOption f r]
  | shorthand r k neg =>
    simp [bare, lower, Flags.shorthand, negate_toOption f r]
  | bracketed r neg inner =>
    simp [bare, lower, ClassTree.lower_bare, negate_toOption f r]
  | repetition r least most item ih => simp [bare, lower, ih]
  | group r k body ih => simp [bare, lower, ih]
  | alternation r ts ih =>
    simp only [bare, lower, bareAll_eq_map]
    induction ts generalizing f with
    | nil => rfl
    | cons t ts iht =>
      obtain ⟨ht, hts⟩ := List.forall_mem_cons.mp ih
      cases ts with
      | nil => simp [lower.lowerBranches, ht]
      | cons u us =>
        have hus := iht hts
        simp only [List.map_cons] at hus ⊢
        simp [lower.lowerBranches, ht, hus]
  | sequence r ts ih =>
    simp only [bare, lower, bareAll_eq_map]
    induction ts generalizing f with
    | nil => rfl
    | cons t ts iht =>
      obtain ⟨ht, hts⟩ := List.forall_mem_cons.mp ih
      have hus := iht hts
      simp [lower.lowerItems, ht, hus]

theorem Tree.lower_bare_eq_ok {t : Tree} {f : Flags} {x : Expr × Flags} :
    t.bare.lower sets f = .ok x ↔ t.lower sets f = .ok x := by
  rw [← toOption_eq_some, ← toOption_eq_some, t.lower_bare]

theorem lower_eq_ok_of_bare {t u : Tree} (h : t.bare = u.bare) {f : Flags} {x : Expr × Flags} :
    t.lower sets f = .ok x ↔ u.lower sets f = .ok x := by
  rw [← t.lower_bare_eq_ok, ← u.lower_bare_eq_ok, h]

theorem Tree.lowerItems_cons {t : Tree} {ts : List Tree} {f g : Flags} {e : Expr} :
    lower.lowerItems sets f (t :: ts) = .ok (e, g) ↔
      ∃ a f' b, t.lower sets f = .ok (a, f') ∧ lower.lowerItems sets f' ts = .ok (b, g) ∧
        e = .seq a b := by
  constructor
  · intro h
    obtain ⟨⟨a, f'⟩, ha, h⟩ := bind_eq_ok.mp h
    obtain ⟨⟨b, g'⟩, hb, h⟩ := bind_eq_ok.mp h
    cases h
    exact ⟨a, f', b, ha, hb, rfl⟩
  · rintro ⟨a, f', b, ha, hb, rfl⟩
    exact bind_eq_ok.mpr ⟨(a, f'), ha, bind_eq_ok.mpr ⟨(b, g), hb, rfl⟩⟩

theorem Tree.lower_group {r : Region} {k : GroupKind} {t : Tree} {f g : Flags} {e : Expr} :
    (Tree.group r k t).lower sets f = .ok (e, g) ↔
      (∃ f', t.lower sets (f.update k.flags) = .ok (e, f')) ∧ f = g := by
  constructor
  · intro h
    obtain ⟨⟨a, f'⟩, ha, h⟩ := bind_eq_ok.mp h
    cases h
    exact ⟨⟨f', ha⟩, rfl⟩
  · rintro ⟨⟨f', ha⟩, rfl⟩
    exact bind_eq_ok.mpr ⟨(e, f'), ha, rfl⟩

/-! ### Depth -/

theorem ite_some_eq_none {α : Type} {p : Prop} [Decidable p] {a : α} {x : Option α} :
    (if p then some a else x) = none ↔ ¬ p ∧ x = none := by
  by_cases hp : p
  · simp [hp]
  · simp [hp]

theorem ClassTree.itemsTooDeep_eq_none {d : Nat} {ts : List ClassTree} :
    tooDeep.itemsTooDeep d ts = none ↔ ∀ t ∈ ts, t.tooDeep d = none := by
  induction ts with
  | nil => simp [tooDeep.itemsTooDeep]
  | cons t ts ih => simp [tooDeep.itemsTooDeep, ih]

theorem Tree.treesTooDeep_eq_none {d : Nat} {ts : List Tree} :
    tooDeep.treesTooDeep d ts = none ↔ ∀ t ∈ ts, t.tooDeep d = none := by
  induction ts with
  | nil => simp [tooDeep.treesTooDeep]
  | cons t ts ih => simp [tooDeep.treesTooDeep, ih]

theorem ClassTree.tooDeep_bare (t : ClassTree) (d : Nat) :
    t.bare.tooDeep d = none ↔ t.tooDeep d = none := by
  induction t using ClassTree.byParts generalizing d with
  | bracketed r neg inner ih => simp [bare, tooDeep, ite_some_eq_none, ih]
  | op r k a b iha ihb => simp [bare, tooDeep, ite_some_eq_none, iha, ihb]
  | union r items ih =>
    simp only [bare, tooDeep, ite_some_eq_none, itemsTooDeep_eq_none, bareAll_eq_map,
      List.forall_mem_map]
    exact and_congr_right fun _ => forall₂_congr fun t ht => ih t ht (d + 1)
  | _ => simp [bare, tooDeep]

theorem Tree.tooDeep_bare (t : Tree) (d : Nat) :
    t.bare.tooDeep d = none ↔ t.tooDeep d = none := by
  induction t using Tree.byParts generalizing d with
  | bracketed r neg inner => simp [bare, tooDeep, ite_some_eq_none, ClassTree.tooDeep_bare]
  | repetition r least most item ih => simp [bare, tooDeep, ite_some_eq_none, ih]
  | group r k body ih => simp [bare, tooDeep, ite_some_eq_none, ih]
  | alternation r ts ih | sequence r ts ih =>
    simp only [bare, tooDeep, ite_some_eq_none, treesTooDeep_eq_none, bareAll_eq_map,
      List.forall_mem_map]
    exact and_congr_right fun _ => forall₂_congr fun t ht => ih t ht (d + 1)
  | _ => simp [bare, tooDeep]

/-- What is not too deep where it stands is not too deep further out. -/
theorem ClassTree.tooDeep_outward {t : ClassTree} {d : Nat} (h : t.tooDeep (d + 1) = none) :
    t.tooDeep d = none := by
  induction t using ClassTree.byParts generalizing d with
  | bracketed r neg inner ih =>
    simp only [tooDeep, ite_some_eq_none] at h ⊢
    exact ⟨by omega, ih h.2⟩
  | op r k a b iha ihb =>
    simp only [tooDeep, ite_some_eq_none, Option.or_eq_none_iff] at h ⊢
    exact ⟨by omega, iha h.2.1, ihb h.2.2⟩
  | union r items ih =>
    simp only [tooDeep, ite_some_eq_none, itemsTooDeep_eq_none] at h ⊢
    exact ⟨by omega, fun t ht => ih t ht (h.2 t ht)⟩
  | _ => rfl

theorem Tree.tooDeep_outward {t : Tree} {d : Nat} (h : t.tooDeep (d + 1) = none) :
    t.tooDeep d = none := by
  induction t using Tree.byParts generalizing d with
  | bracketed r neg inner =>
    simp only [tooDeep, ite_some_eq_none] at h ⊢
    exact ⟨by omega, inner.tooDeep_outward h.2⟩
  | repetition r least most item ih =>
    simp only [tooDeep, ite_some_eq_none] at h ⊢
    exact ⟨by omega, ih h.2⟩
  | group r k body ih =>
    simp only [tooDeep, ite_some_eq_none] at h ⊢
    exact ⟨by omega, ih h.2⟩
  | alternation r ts ih | sequence r ts ih =>
    simp only [tooDeep, ite_some_eq_none, treesTooDeep_eq_none] at h ⊢
    exact ⟨by omega, fun t ht => ih t ht (h.2 t ht)⟩
  | _ => rfl

/-! ### Size -/

theorem Tree.captures_bare (t : Tree) : t.bare.captures = t.captures := by
  have hall : ∀ ts : List Tree, (∀ t ∈ ts, t.bare.captures = t.captures) →
      captures.capturesOf (ts.map bare) = captures.capturesOf ts := by
    intro ts ih
    induction ts with
    | nil => rfl
    | cons t ts iht =>
      obtain ⟨ht, hts⟩ := List.forall_mem_cons.mp ih
      simp [captures.capturesOf, ht, iht hts]
  induction t using Tree.byParts with
  | repetition r least most item ih => simp [bare, captures, ih]
  | group r k body ih => simp [bare, captures, ih]
  | alternation r ts ih | sequence r ts ih => simp [bare, captures, hall ts ih]
  | _ => simp [bare, captures]

theorem compiledSize_of_bare {t u : Tree} (h : t.bare = u.bare) (e : Expr) :
    compiledSize t e = compiledSize u e := by
  unfold compiledSize
  rw [← t.captures_bare, ← u.captures_bare, h]

/-! ### Bounds of repetitions -/

/-- Every repetition of the tree has ordered bounds. -/
def Tree.Bounded : Tree → Prop
  | .repetition _ least most item => (∀ n, most = some n → least ≤ n) ∧ item.Bounded
  | .group _ _ body => body.Bounded
  | .alternation _ ts | .sequence _ ts => allBounded ts
  | _ => True
where
  allBounded : List Tree → Prop
    | [] => True
    | t :: ts => t.Bounded ∧ allBounded ts

theorem Tree.allBounded_iff {ts : List Tree} :
    Bounded.allBounded ts ↔ ∀ t ∈ ts, t.Bounded := by
  induction ts with
  | nil => simp [Bounded.allBounded]
  | cons t ts ih => simp [Bounded.allBounded, ih]

theorem bounded_lowerItems {ts : List Tree}
    (hts : ∀ t ∈ ts, ∀ {f g : Flags} {e : Expr}, t.lower sets f = .ok (e, g) → e.Bounded)
    {f g : Flags} {e : Expr} (h : Tree.lower.lowerItems sets f ts = .ok (e, g)) : e.Bounded := by
  induction ts generalizing f e with
  | nil =>
    cases h
    trivial
  | cons t ts ih =>
    obtain ⟨a, f', b, ha, hb, rfl⟩ := Tree.lowerItems_cons.mp h
    exact ⟨hts t List.mem_cons_self ha, ih (fun u hu => hts u (List.mem_cons_of_mem t hu)) hb⟩

theorem bounded_lowerBranches {ts : List Tree}
    (hts : ∀ t ∈ ts, ∀ {f g : Flags} {e : Expr}, t.lower sets f = .ok (e, g) → e.Bounded)
    {f g : Flags} {e : Expr} (h : Tree.lower.lowerBranches sets f ts = .ok (e, g)) : e.Bounded := by
  induction ts generalizing f e with
  | nil =>
    cases h
    trivial
  | cons t ts ih =>
    cases ts with
    | nil => exact hts t List.mem_cons_self h
    | cons u us =>
      obtain ⟨⟨a, f'⟩, ha, hr⟩ := bind_eq_ok.mp h
      obtain ⟨⟨b, g'⟩, hb, hr⟩ := bind_eq_ok.mp hr
      cases hr
      exact ⟨hts t List.mem_cons_self ha, ih (fun v hv => hts v (List.mem_cons_of_mem t hv)) hb⟩

theorem Tree.Bounded.lower {t : Tree} (ht : t.Bounded) {f g : Flags} {e : Expr}
    (h : t.lower sets f = .ok (e, g)) : e.Bounded := by
  induction t using Tree.byParts generalizing f g e with
  | repetition r least most item ih =>
    obtain ⟨⟨e', g'⟩, he, hr⟩ := bind_eq_ok.mp h
    cases hr
    exact ⟨ht.1, ih ht.2 he⟩
  | group r k body ih =>
    obtain ⟨⟨f', he⟩, -⟩ := Tree.lower_group.mp h
    exact ih ht he
  | sequence r ts ih =>
    exact bounded_lowerItems (fun t hmem => ih t hmem (allBounded_iff.mp ht t hmem)) h
  | alternation r ts ih =>
    exact bounded_lowerBranches (fun t hmem => ih t hmem (allBounded_iff.mp ht t hmem)) h
  | empty r | flags r items | assertion r k =>
    cases h
    trivial
  | literal l =>
    obtain ⟨e', he, hr⟩ := bind_eq_ok.mp h
    cases hr
    unfold Flags.literal at he
    split at he
    · cases he
    · cases he
      trivial
  | dot r =>
    obtain ⟨e', he, hr⟩ := bind_eq_ok.mp h
    cases hr
    unfold Flags.dot at he
    repeat' split at he
    all_goals cases he
    all_goals trivial
  | named r n neg =>
    obtain ⟨s, -, hr⟩ := bind_eq_ok.mp h
    cases hr
    trivial
  | shorthand r k neg =>
    obtain ⟨s, -, hr⟩ := bind_eq_ok.mp h
    cases hr
    trivial
  | bracketed r neg inner =>
    obtain ⟨s, -, hr⟩ := bind_eq_ok.mp h
    obtain ⟨s', -, hr⟩ := bind_eq_ok.mp hr
    cases hr
    trivial

end StepGlue.Regex
