import StepGlue.Proofs.Regex.Language
import StepGlue.Proofs.Regex.Tree

/-! Trees without flags, conditions on places and classes by name. They always have a meaning,
and the meaning is a language. -/

namespace StepGlue.Regex

def ClassTree.Plain : ClassTree → Prop
  | .named _ _ _ => False
  | .bracketed _ _ inner => inner.Plain
  | .union _ items => allPlain items
  | .op _ _ a b => a.Plain ∧ b.Plain
  | _ => True
where
  allPlain : List ClassTree → Prop
    | [] => True
    | t :: ts => t.Plain ∧ allPlain ts

def Tree.Plain : Tree → Prop
  | .flags _ _ | .assertion _ _ | .named _ _ _ => False
  | .bracketed _ _ inner => inner.Plain
  | .repetition _ _ _ item => item.Plain
  | .group _ kind body => kind.flags = [] ∧ body.Plain
  | .alternation _ ts | .sequence _ ts => allPlain ts
  | _ => True
where
  allPlain : List Tree → Prop
    | [] => True
    | t :: ts => t.Plain ∧ allPlain ts

theorem ClassTree.allPlain_iff {ts : List ClassTree} :
    Plain.allPlain ts ↔ ∀ t ∈ ts, t.Plain := by
  induction ts with
  | nil => simp [Plain.allPlain]
  | cons t ts ih => simp [Plain.allPlain, ih]

theorem Tree.allPlain_iff {ts : List Tree} : Plain.allPlain ts ↔ ∀ t ∈ ts, t.Plain := by
  induction ts with
  | nil => simp [Plain.allPlain]
  | cons t ts ih => simp [Plain.allPlain, ih]

theorem negate_default (r : Region) (neg : Bool) (s : CharClass) :
    ∃ s', Flags.negate {} r neg s = .ok s' := by
  cases neg with
  | true => exact ⟨_, rfl⟩
  | false => exact ⟨_, rfl⟩

theorem ClassTree.Plain.lower {t : ClassTree} (ht : t.Plain) :
    ∃ s, t.lower namedClass {} = .ok s := by
  induction t using ClassTree.byParts with
  | empty r => exact ⟨_, rfl⟩
  | literal l => exact ⟨_, rfl⟩
  | range r a b => exact ⟨_, rfl⟩
  | ascii r n neg => exact negate_default r neg _
  | named r n neg => exact ht.elim
  | shorthand r k neg => exact negate_default r neg _
  | bracketed r neg inner ih =>
    obtain ⟨s, hs⟩ := ih ht
    obtain ⟨s', hs'⟩ := negate_default r neg (Flags.fold {} s)
    exact ⟨s', bind_eq_ok.mpr ⟨s, hs, hs'⟩⟩
  | union r items ih =>
    replace ht := ClassTree.allPlain_iff.mp ht
    simp only [ClassTree.lower]
    induction items with
    | nil => exact ⟨_, rfl⟩
    | cons t ts iht =>
      obtain ⟨iht', ihts⟩ := List.forall_mem_cons.mp ih
      obtain ⟨ht', hts⟩ := List.forall_mem_cons.mp ht
      obtain ⟨a, ha⟩ := iht' ht'
      obtain ⟨b, hb⟩ := iht ihts hts
      exact ⟨_, bind_eq_ok.mpr ⟨a, ha, bind_eq_ok.mpr ⟨b, hb, rfl⟩⟩⟩
  | op r k a b iha ihb =>
    obtain ⟨s, hs⟩ := iha ht.1
    obtain ⟨s', hs'⟩ := ihb ht.2
    exact ⟨_, bind_eq_ok.mpr ⟨s, hs, bind_eq_ok.mpr ⟨s', hs', rfl⟩⟩⟩

theorem Tree.Plain.lower {t : Tree} (ht : t.Plain) :
    ∃ e, t.lower namedClass {} = .ok (e, {}) ∧ e.LookFree := by
  induction t using Tree.byParts with
  | empty r => exact ⟨_, rfl, trivial⟩
  | flags r items => exact ht.elim
  | literal l => exact ⟨_, rfl, trivial⟩
  | dot r => exact ⟨_, rfl, trivial⟩
  | assertion r k => exact ht.elim
  | named r n neg => exact ht.elim
  | shorthand r k neg =>
    obtain ⟨s, hs⟩ := negate_default r neg _
    exact ⟨_, bind_eq_ok.mpr ⟨s, hs, rfl⟩, trivial⟩
  | bracketed r neg inner =>
    obtain ⟨s, hs⟩ := ClassTree.Plain.lower ht
    obtain ⟨s', hs'⟩ := negate_default r neg (Flags.fold {} s)
    exact ⟨_, bind_eq_ok.mpr ⟨s, hs, bind_eq_ok.mpr ⟨s', hs', rfl⟩⟩, trivial⟩
  | repetition r least most item ih =>
    obtain ⟨e, he, hfree⟩ := ih ht
    exact ⟨_, bind_eq_ok.mpr ⟨_, he, rfl⟩, hfree⟩
  | group r k body ih =>
    obtain ⟨e, he, hfree⟩ := ih ht.2
    refine ⟨e, Tree.lower_group.mpr ⟨⟨{}, ?_⟩, rfl⟩, hfree⟩
    rw [ht.1]
    exact he
  | alternation r ts ih =>
    replace ht := Tree.allPlain_iff.mp ht
    simp only [Tree.lower]
    induction ts with
    | nil => exact ⟨_, rfl, trivial⟩
    | cons t ts iht =>
      obtain ⟨iht', ihts⟩ := List.forall_mem_cons.mp ih
      obtain ⟨ht', hts⟩ := List.forall_mem_cons.mp ht
      obtain ⟨a, ha, hfa⟩ := iht' ht'
      cases ts with
      | nil => exact ⟨a, ha, hfa⟩
      | cons u us =>
        obtain ⟨b, hb, hfb⟩ := iht ihts hts
        exact ⟨_, bind_eq_ok.mpr ⟨_, ha, bind_eq_ok.mpr ⟨_, hb, rfl⟩⟩, hfa, hfb⟩
  | sequence r ts ih =>
    replace ht := Tree.allPlain_iff.mp ht
    simp only [Tree.lower]
    induction ts with
    | nil => exact ⟨_, rfl, trivial⟩
    | cons t ts iht =>
      obtain ⟨iht', ihts⟩ := List.forall_mem_cons.mp ih
      obtain ⟨ht', hts⟩ := List.forall_mem_cons.mp ht
      obtain ⟨a, ha, hfa⟩ := iht' ht'
      obtain ⟨b, hb, hfb⟩ := iht ihts hts
      exact ⟨_, Tree.lowerItems_cons.mpr ⟨a, {}, b, ha, hb, rfl⟩, hfa, hfb⟩

/-! ### Languages -/

/-- The text as a whole is what the tree means. -/
def Tree.Spells (t : Tree) (w : List Char) : Prop :=
  ∃ e f, t.lower namedClass {} = .ok (e, f) ∧ Accepts e w

/-- The text is made of what the trees mean, one after the other. -/
def SpellsAll : List Tree → List Char → Prop
  | [], w => w = []
  | t :: ts, w => ∃ u v, w = u ++ v ∧ t.Spells u ∧ SpellsAll ts v

theorem Tree.spells_iff {t : Tree} {e : Expr} {f : Flags} (h : t.lower namedClass {} = .ok (e, f))
    (w : List Char) : t.Spells w ↔ Accepts e w := by
  constructor
  · rintro ⟨e', f', h', hw⟩
    rw [h] at h'
    cases h'
    exact hw
  · exact fun hw => ⟨e, f, h, hw⟩

theorem Tree.spells_bare {t : Tree} {w : List Char} : t.bare.Spells w ↔ t.Spells w := by
  unfold Tree.Spells
  simp only [Tree.lower_bare_eq_ok]

theorem Tree.spells_empty {r : Region} {w : List Char} : (Tree.empty r).Spells w ↔ w = [] :=
  (Tree.spells_iff rfl w).trans accepts_empty

theorem CharClass.contains_single {c d : Char} :
    (CharClass.single c).contains d = true ↔ d = c := by
  simp only [CharClass.single, CharClass.contains, List.any_cons, List.any_nil, Bool.or_false,
    Bool.and_eq_true, decide_eq_true_eq]
  constructor
  · rintro ⟨h1, h2⟩
    exact Char.toNat_inj.mp (Nat.le_antisymm h2 h1)
  · rintro rfl
    exact ⟨Nat.le_refl _, Nat.le_refl _⟩

theorem Tree.spells_literal {l : Literal} {w : List Char} :
    (Tree.literal l).Spells w ↔ w = [l.char] := by
  rw [Tree.spells_iff (e := .chars (CharClass.single l.char)) rfl, accepts_chars]
  constructor
  · rintro ⟨c, rfl, hc⟩
    rw [CharClass.contains_single.mp hc]
  · rintro rfl
    exact ⟨_, rfl, CharClass.contains_single.mpr rfl⟩

theorem Tree.spells_group {r : Region} {k : GroupKind} (hk : k.flags = []) {t : Tree}
    {w : List Char} : (Tree.group r k t).Spells w ↔ t.Spells w := by
  unfold Tree.Spells
  simp only [Tree.lower_group, hk]
  constructor
  · rintro ⟨e, f, ⟨⟨f', h⟩, -⟩, hw⟩
    exact ⟨e, f', h, hw⟩
  · rintro ⟨e, f, h, hw⟩
    exact ⟨e, {}, ⟨⟨f, h⟩, rfl⟩, hw⟩

theorem Tree.spells_optional {r : Region} {t : Tree} (ht : t.Plain) {w : List Char} :
    (Tree.repetition r 0 (some 1) t).Spells w ↔ w = [] ∨ t.Spells w := by
  obtain ⟨e, he, -⟩ := ht.lower
  have hrep : (Tree.repetition r 0 (some 1) t).lower namedClass {} = .ok (.rep 0 (some 1) e, {}) :=
    bind_eq_ok.mpr ⟨(e, {}), he, rfl⟩
  rw [Tree.spells_iff hrep, Tree.spells_iff he, accepts_optional]

theorem lowerItems_plain {ts : List Tree} (hts : ∀ t ∈ ts, t.Plain) :
    ∃ e, Tree.lower.lowerItems namedClass {} ts = .ok (e, {}) ∧ e.LookFree ∧
      ∀ w, Accepts e w ↔ SpellsAll ts w := by
  induction ts with
  | nil => exact ⟨.empty, rfl, trivial, fun w => accepts_empty⟩
  | cons t ts ih =>
    obtain ⟨ht, hts⟩ := List.forall_mem_cons.mp hts
    obtain ⟨a, ha, hfa⟩ := ht.lower
    obtain ⟨b, hb, hfb, hall⟩ := ih hts
    refine ⟨.seq a b, Tree.lowerItems_cons.mpr ⟨a, {}, b, ha, hb, rfl⟩, ⟨hfa, hfb⟩, fun w => ?_⟩
    rw [accepts_seq hfa hfb]
    simp only [SpellsAll, hall, Tree.spells_iff ha]

theorem Tree.spells_sequence {r : Region} {ts : List Tree} (hts : ∀ t ∈ ts, t.Plain)
    {w : List Char} : (Tree.sequence r ts).Spells w ↔ SpellsAll ts w := by
  obtain ⟨e, he, -, hall⟩ := lowerItems_plain hts
  have hseq : (Tree.sequence r ts).lower namedClass {} = .ok (e, {}) := he
  rw [Tree.spells_iff hseq, hall]

theorem Tree.spells_alternation {r : Region} {ts : List Tree} (hts : ∀ t ∈ ts, t.Plain)
    (hne : ts ≠ []) {w : List Char} :
    (Tree.alternation r ts).Spells w ↔ ∃ t ∈ ts, t.Spells w := by
  induction ts with
  | nil => exact absurd rfl hne
  | cons t ts ih =>
    obtain ⟨ht, hts⟩ := List.forall_mem_cons.mp hts
    cases ts with
    | nil =>
      rw [List.exists_mem_cons_iff]
      simp [Tree.Spells, Tree.lower, Tree.lower.lowerBranches]
    | cons u us =>
      have hih := ih hts (List.cons_ne_nil u us)
      have hplain : (Tree.alternation r (u :: us)).Plain := Tree.allPlain_iff.mpr hts
      obtain ⟨a, ha, -⟩ := ht.lower
      obtain ⟨b, hb, -⟩ := hplain.lower
      have halt : (Tree.alternation r (t :: u :: us)).lower namedClass {} = .ok (.alt a b, {}) :=
        bind_eq_ok.mpr ⟨(a, {}), ha, bind_eq_ok.mpr ⟨(b, {}), hb, rfl⟩⟩
      rw [Tree.spells_iff halt, accepts_alt, ← Tree.spells_iff ha, ← Tree.spells_iff hb, hih]
      exact (List.exists_mem_cons_iff (fun x : Tree => x.Spells w) t (u :: us)).symm

theorem spellsAll_append {ts us : List Tree} {w : List Char} :
    SpellsAll (ts ++ us) w ↔ ∃ u v, w = u ++ v ∧ SpellsAll ts u ∧ SpellsAll us v := by
  induction ts generalizing w with
  | nil => simp [SpellsAll]
  | cons t ts ih =>
    simp only [List.cons_append, SpellsAll, ih]
    constructor
    · rintro ⟨u, -, rfl, hu, v, x, rfl, hv, hx⟩
      exact ⟨u ++ v, x, by simp, ⟨u, v, rfl, hu, hv⟩, hx⟩
    · rintro ⟨-, x, rfl, ⟨u, v, rfl, hu, hv⟩, hx⟩
      exact ⟨u, v ++ x, by simp, hu, v, x, rfl, hv, hx⟩

end StepGlue.Regex
