import StepGlue.Proofs.Regex.Plain

/-! Replacing what a pattern spells.

A text is searched from its start. The leftmost occurrence of the pattern is replaced, and the
search goes on behind it, in what is left of the text: replacements are not searched. -/

namespace StepGlue.Regex

/-- The tree spells a text, and its capturing group a part of it. -/
inductive Tree.Captures : Tree → List Char → List Char → Prop
  | group {r : Region} {body : Tree} {w : List Char} : body.Spells w →
      Captures (.group r .capturing body) w w
  | item {r : Region} {before after : List Tree} {t : Tree} {u v x name : List Char} :
      SpellsAll before u → Captures t v name → SpellsAll after x →
      Captures (.sequence r (before ++ t :: after)) (u ++ v ++ x) name

theorem Tree.captures_group {r : Region} {body : Tree} {w name : List Char} :
    (Tree.group r .capturing body).Captures w name ↔ body.Spells w ∧ name = w := by
  constructor
  · rintro ⟨⟩
    exact ⟨‹_›, rfl⟩
  · rintro ⟨h, rfl⟩
    exact .group h

theorem Tree.not_captures_literal {l : Literal} {w name : List Char} :
    ¬ (Tree.literal l).Captures w name := by
  rintro ⟨⟩

theorem Tree.not_captures_nil {r : Region} {w name : List Char} :
    ¬ (Tree.sequence r []).Captures w name := by
  intro h
  generalize hx : Tree.sequence r [] = x at h
  cases h with
  | group => cases hx
  | item =>
    injection hx with _ hts
    simp at hts

/-- The group is in the first item of a sequence or in a later one. -/
theorem Tree.captures_cons {r : Region} {t : Tree} {ts : List Tree} {w name : List Char} :
    (Tree.sequence r (t :: ts)).Captures w name ↔
      ∃ u v, w = u ++ v ∧ (t.Captures u name ∧ SpellsAll ts v ∨
        t.Spells u ∧ (Tree.sequence r ts).Captures v name) := by
  constructor
  · intro h
    generalize hx : Tree.sequence r (t :: ts) = x at h
    cases h with
    | group => cases hx
    | @item _ before after _ u v x _ hbefore hcap hafter =>
      injection hx with _ hts
      cases before with
      | nil =>
        obtain ⟨rfl, rfl⟩ := List.cons.inj hts
        obtain rfl : u = [] := hbefore
        exact ⟨v, x, rfl, Or.inl ⟨hcap, hafter⟩⟩
      | cons b before =>
        obtain ⟨rfl, rfl⟩ := List.cons.inj hts
        obtain ⟨u₁, u₂, rfl, hfirst, hbefore⟩ := hbefore
        exact ⟨u₁, u₂ ++ v ++ x, by simp, Or.inr ⟨hfirst, .item hbefore hcap hafter⟩⟩
  · rintro ⟨u, v, rfl, ⟨hcap, hafter⟩ | ⟨hfirst, hcap⟩⟩
    · have hitem : (Tree.sequence r ([] ++ t :: ts)).Captures ([] ++ u ++ v) name :=
        .item rfl hcap hafter
      exact hitem
    · generalize hx : Tree.sequence r ts = x at hcap
      cases hcap with
      | group => cases hx
      | @item _ before after _ u' v' x _ hbefore hcap hafter =>
        injection hx with _ hts
        have hbefore' : SpellsAll (t :: before) (u ++ u') := ⟨u, u', rfl, hfirst, hbefore⟩
        have hitem := Tree.Captures.item (r := r) hbefore' hcap hafter
        rw [hts]
        simpa using hitem

/-- The tree spells nothing that begins within the first characters of a text. -/
def Tree.AbsentWithin (t : Tree) (count : Nat) (s : List Char) : Prop :=
  ∀ u w v, s = u ++ w ++ v → u.length < count → ¬ t.Spells w

/-- The text with every occurrence of a tree replaced, the leftmost one first. What is put in for
an occurrence depends on the whole of it and on what its group captures. -/
inductive Replaced (t : Tree) (fill : List Char → List Char → List Char) :
    List Char → List Char → Prop
  | rest {s : List Char} : t.AbsentWithin (s.length + 1) s → Replaced t fill s s
  | next {before whole after name out : List Char} : t.Captures whole name →
      t.AbsentWithin before.length (before ++ whole ++ after) → Replaced t fill after out →
      Replaced t fill (before ++ whole ++ after) (before ++ fill whole name ++ out)

variable {t : Tree} {fill : List Char → List Char → List Char}

theorem Tree.AbsentWithin.cons {count : Nat} {s : List Char} (h : t.AbsentWithin count s) {c : Char}
    (hc : ∀ w v, c :: s = w ++ v → ¬ t.Spells w) : t.AbsentWithin (count + 1) (c :: s) := by
  intro u w v heq hu
  cases u with
  | nil => exact hc w v heq
  | cons d u =>
    obtain ⟨rfl, rfl⟩ := List.cons.inj heq
    exact h u w v rfl (Nat.lt_of_succ_lt_succ hu)

theorem Replaced.cons {s out : List Char} (h : Replaced t fill s out) {c : Char}
    (hc : ∀ w v, c :: s = w ++ v → ¬ t.Spells w) : Replaced t fill (c :: s) (c :: out) := by
  cases h with
  | rest habsent => exact .rest (habsent.cons hc)
  | @next before whole after name out hcap habsent hrest =>
    have hnext : Replaced t fill ((c :: before) ++ whole ++ after)
        ((c :: before) ++ fill whole name ++ out) := .next hcap (habsent.cons hc) hrest
    exact hnext

theorem Replaced.front {whole after name out : List Char} (hcap : t.Captures whole name)
    (h : Replaced t fill after out) :
    Replaced t fill (whole ++ after) (fill whole name ++ out) := by
  have hnone : t.AbsentWithin 0 ([] ++ whole ++ after) :=
    fun _ _ _ _ hu => absurd hu (Nat.not_lt_zero _)
  have hnext : Replaced t fill ([] ++ whole ++ after) ([] ++ fill whole name ++ out) :=
    .next hcap hnone h
  exact hnext

/-- Steps through a class to the end of a text are as many as its characters from there on. -/
theorem steps_chars {s : CharClass} {w : List Char} {k i : Nat} :
    Steps (Spans w.toArray (.chars s)) k i w.length ↔
      i + k = w.length ∧ ∀ c ∈ w.drop i, s.contains c = true := by
  induction k generalizing i with
  | zero =>
    constructor
    · rintro rfl
      simp [List.drop_length]
    · exact fun h => h.1
  | succ k ih =>
    simp only [Steps, spans_chars, List.getElem?_toArray]
    constructor
    · rintro ⟨-, ⟨c, hc, hs, rfl⟩, hh⟩
      obtain ⟨hlen, hall⟩ := ih.mp hh
      obtain ⟨hi, rfl⟩ := List.getElem?_eq_some_iff.mp hc
      rw [List.drop_eq_getElem_cons hi, List.forall_mem_cons]
      exact ⟨by omega, hs, hall⟩
    · rintro ⟨hlen, hall⟩
      have hi : i < w.length := by omega
      rw [List.drop_eq_getElem_cons hi, List.forall_mem_cons] at hall
      refine ⟨i + 1, ⟨w[i], List.getElem?_eq_getElem hi, hall.1, rfl⟩, ?_⟩
      exact ih.mpr ⟨by omega, hall.2⟩

theorem accepts_many {s : CharClass} {least : Nat} {w : List Char} :
    Accepts (.rep least none (.chars s)) w ↔
      least ≤ w.length ∧ ∀ c ∈ w, s.contains c = true := by
  unfold Accepts
  simp only [spans_rep, steps_chars, List.drop_zero]
  constructor
  · rintro ⟨k, hk, -, hlen, hall⟩
    exact ⟨by omega, hall⟩
  · rintro ⟨hle, hall⟩
    exact ⟨w.length, hle, (fun _ hn => nomatch hn), Nat.zero_add _, hall⟩

end StepGlue.Regex
