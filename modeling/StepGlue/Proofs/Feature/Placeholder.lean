import Mathlib.Data.List.Basic
import StepGlue.Feature.Outline

/-! Placeholders of outline steps.

A placeholder is a name between angle brackets. Filling in goes over a text once, from left to
right: what stands before a placeholder stays, the placeholder is replaced, and only what follows
it is looked at again. How a text is cut does not depend on the values. -/

namespace StepGlue

def IsRun (run : List Char) : Prop := ∀ c ∈ run, c ≠ '>' ∧ isBlank c = false

/-- A name that can stand between angle brackets. -/
def IsName (name : List Char) : Prop := name ≠ [] ∧ IsRun name

def Opens (s : List Char) : Prop := ∃ name rest, IsName name ∧ s = '<' :: (name ++ '>' :: rest)

/-- A text cut after the longest run at its front. -/
structure LongestRun (s run rest : List Char) : Prop where
  cut : s = run ++ rest
  isRun : IsRun run
  stops : ∀ c ∈ rest.head?, c = '>' ∨ isBlank c = true

def filling (value? : String → Option String) (name : List Char) : List Char :=
  match value? (String.ofList name) with
  | some v => v.toList
  | none => '<' :: (name ++ ['>'])

theorem isPlaceholderChar_iff {c : Char} :
    isPlaceholderChar c = true ↔ c ≠ '>' ∧ isBlank c = false := by
  simp [isPlaceholderChar]

theorem longestRun_takeWhile (s : List Char) :
    LongestRun s (s.takeWhile isPlaceholderChar) (s.dropWhile isPlaceholderChar) where
  cut := List.takeWhile_append_dropWhile.symm
  isRun c hc := isPlaceholderChar_iff.mp (List.all_eq_true.mp List.all_takeWhile c hc)
  stops c hc := by
    have hh := List.head?_dropWhile_not isPlaceholderChar s
    rw [Option.mem_def.mp hc] at hh
    by_contra hno
    rw [not_or, Bool.not_eq_true, ← isPlaceholderChar_iff] at hno
    simp [hno] at hh

theorem LongestRun.eq {s run rest : List Char} (h : LongestRun s run rest) :
    run = s.takeWhile isPlaceholderChar ∧ rest = s.dropWhile isPlaceholderChar := by
  obtain ⟨rfl, hrun, hstops⟩ := h
  have hall : ∀ c ∈ run, isPlaceholderChar c = true :=
    fun c hc => isPlaceholderChar_iff.mpr (hrun c hc)
  rw [List.takeWhile_append_of_pos hall, List.dropWhile_append_of_pos hall]
  cases rest with
  | nil => simp
  | cons c rest =>
    have hc : isPlaceholderChar c = false := by
      rw [← Bool.not_eq_true, isPlaceholderChar_iff]
      rintro ⟨hne, hblank⟩
      rcases hstops c rfl with heq | heq
      · exact hne heq
      · rw [hblank] at heq
        cases heq
    simp [hc]

theorem IsName.longestRun {name : List Char} (h : IsName name) (rest : List Char) :
    LongestRun (name ++ '>' :: rest) name ('>' :: rest) where
  cut := rfl
  isRun := h.2
  stops c hc := by
    cases hc
    exact Or.inl rfl

theorem placeholder?_eq_some {s name rest : List Char} :
    placeholder? s = some (name, rest) ↔ IsName name ∧ s = name ++ '>' :: rest := by
  constructor
  · intro h
    have hrun := longestRun_takeWhile s
    unfold placeholder? at h
    split at h
    · cases h
    · next hdrop hne =>
      cases h
      rw [hdrop] at hrun
      exact ⟨⟨hne, hrun.isRun⟩, hrun.cut⟩
    · cases h
  · rintro ⟨hname, rfl⟩
    obtain ⟨htake, hdrop⟩ := (hname.longestRun rest).eq
    unfold placeholder?
    rw [← htake, ← hdrop]
    split
    · exact absurd rfl hname.1
    · next heq =>
      cases heq
      rfl
    · next hno => exact absurd rfl (hno rest)

section Equations

variable (value? : String → Option String)

@[simp] theorem substitute_nil : substitute value? [] = [] := by
  unfold substitute
  rfl

theorem substitute_placeholder {name : List Char} (h : IsName name) (rest : List Char) :
    substitute value? ('<' :: (name ++ '>' :: rest)) =
      filling value? name ++ substitute value? rest := by
  have hread : placeholder? (name ++ '>' :: rest) = some (name, rest) :=
    placeholder?_eq_some.mpr ⟨h, rfl⟩
  rw [substitute, if_pos rfl]
  split
  · next heq =>
    rw [hread] at heq
    cases heq
    rfl
  · next heq =>
    rw [hread] at heq
    cases heq

theorem substitute_cons {c : Char} {s : List Char} (h : ¬ Opens (c :: s)) :
    substitute value? (c :: s) = c :: substitute value? s := by
  rw [substitute]
  split
  · next hc =>
    subst hc
    split
    · next name rest heq =>
      obtain ⟨hname, rfl⟩ := placeholder?_eq_some.mp heq
      exact absurd ⟨name, rest, hname, rfl⟩ h
    · rfl
  · rfl

theorem substitute_append {a b : List Char} (h : ∀ u v, a = u ++ v → v ≠ [] → ¬ Opens (v ++ b)) :
    substitute value? (a ++ b) = a ++ substitute value? b := by
  induction a with
  | nil => rfl
  | cons c a ih =>
    have hhead : ¬ Opens (c :: (a ++ b)) := h [] (c :: a) rfl (List.cons_ne_nil c a)
    rw [List.cons_append, substitute_cons value? hhead, ih]
    · rfl
    · rintro u v rfl hv
      exact h (c :: u) v rfl hv

theorem substitute_append_of_notMem {a : List Char} (h : '<' ∉ a) (b : List Char) :
    substitute value? (a ++ b) = a ++ substitute value? b := by
  refine substitute_append value? ?_
  rintro u v rfl hv ⟨name, rest, -, heq⟩
  obtain ⟨c, v, rfl⟩ := List.exists_cons_of_ne_nil hv
  obtain ⟨rfl, -⟩ := List.cons.inj heq
  exact h (by simp)

theorem substitute_of_notMem {s : List Char} (h : '<' ∉ s) : substitute value? s = s := by
  have hh := substitute_append_of_notMem value? h []
  simpa using hh

end Equations

/-- A text is read placeholder by placeholder, and character by character in between. -/
theorem placeholderInduction {P : List Char → Prop} (nil : P [])
    (placeholder : ∀ name rest, IsName name → P rest → P ('<' :: (name ++ '>' :: rest)))
    (skip : ∀ c s, ¬ Opens (c :: s) → P s → P (c :: s)) (s : List Char) : P s := by
  induction hn : s.length using Nat.strongRecOn generalizing s with
  | _ n ih =>
    subst hn
    by_cases hopen : Opens s
    · obtain ⟨name, rest, hname, rfl⟩ := hopen
      refine placeholder name rest hname (ih _ ?_ rest rfl)
      simp only [List.length_cons, List.length_append]
      omega
    · cases s with
      | nil => exact nil
      | cons c s => exact skip c s hopen (ih _ (Nat.lt_succ_self _) s rfl)

/-! ### The pass over a text -/

/-- One pass over a text: at an opening bracket the longest run after it decides. -/
inductive Scans (value? : String → Option String) : List Char → List Char → Prop
  | done : Scans value? [] []
  | filled {s run rest out : List Char} {v : String} : LongestRun s run ('>' :: rest) → run ≠ [] →
      value? (String.ofList run) = some v → Scans value? rest out →
      Scans value? ('<' :: s) (v.toList ++ out)
  | kept {s run rest out : List Char} : LongestRun s run ('>' :: rest) → run ≠ [] →
      value? (String.ofList run) = none → Scans value? rest out →
      Scans value? ('<' :: s) ('<' :: (run ++ '>' :: out))
  | lone {s run rest out : List Char} : LongestRun s run rest →
      run = [] ∨ rest.head? ≠ some '>' → Scans value? s out →
      Scans value? ('<' :: s) ('<' :: out)
  | other {c : Char} {s out : List Char} : c ≠ '<' → Scans value? s out →
      Scans value? (c :: s) (c :: out)

variable {value? : String → Option String}

theorem LongestRun.not_opens_iff {s run rest : List Char} (h : LongestRun s run rest) :
    ¬ Opens ('<' :: s) ↔ run = [] ∨ rest.head? ≠ some '>' := by
  constructor
  · intro hno
    by_contra hcon
    rw [not_or, not_not] at hcon
    obtain ⟨hne, hhead⟩ := hcon
    obtain ⟨after, rfl⟩ : ∃ after, rest = '>' :: after := by
      cases rest with
      | nil => cases hhead
      | cons c after =>
        cases hhead
        exact ⟨after, rfl⟩
    exact hno ⟨run, after, ⟨hne, h.isRun⟩, by rw [h.cut]⟩
  · rintro hor ⟨name, after, hname, heq⟩
    obtain ⟨-, rfl⟩ := List.cons.inj heq
    obtain ⟨hrun, hrest⟩ := h.eq
    obtain ⟨hrun', hrest'⟩ := (hname.longestRun after).eq
    rw [hrun, ← hrun', hrest, ← hrest'] at hor
    rcases hor with hnil | hhead
    · exact hname.1 hnil
    · exact hhead rfl

theorem scans_substitute (s : List Char) : Scans value? s (substitute value? s) := by
  induction s using placeholderInduction with
  | nil =>
    rw [substitute_nil]
    exact .done
  | placeholder name rest hname ih =>
    rw [substitute_placeholder value? hname, filling]
    split
    · next v hv => exact .filled (hname.longestRun rest) hname.1 hv ih
    · next hv =>
      have hkept := Scans.kept (hname.longestRun rest) hname.1 hv ih
      simpa using hkept
  | skip c s hopen ih =>
    rw [substitute_cons value? hopen]
    by_cases hc : c = '<'
    · subst hc
      have hrun := longestRun_takeWhile s
      exact .lone hrun (hrun.not_opens_iff.mp hopen) ih
    · exact .other hc ih

theorem Scans.eq_substitute {s out : List Char} (h : Scans value? s out) :
    out = substitute value? s := by
  induction h with
  | done => rw [substitute_nil]
  | filled hrun hne hv _ ih =>
    rw [hrun.cut, substitute_placeholder value? ⟨hne, hrun.isRun⟩, filling, hv, ih]
  | kept hrun hne hv _ ih =>
    rw [hrun.cut, substitute_placeholder value? ⟨hne, hrun.isRun⟩, filling, hv, ih]
    simp
  | lone hrun hlone _ ih => rw [substitute_cons value? (hrun.not_opens_iff.mpr hlone), ih]
  | other hc _ ih =>
    rw [substitute_cons value?, ih]
    rintro ⟨name, rest, -, heq⟩
    exact hc (List.cons.inj heq).1

/-! ### The cut of a text -/

inductive Stretch
  | plain (c : Char)
  | placeholder (name : List Char)

def Stretch.written : Stretch → List Char
  | .plain c => [c]
  | .placeholder name => '<' :: (name ++ ['>'])

def Stretch.filled (value? : String → Option String) : Stretch → List Char
  | .plain c => [c]
  | .placeholder name => filling value? name

/-- The values come in after the cut is made, so none of them is cut again. -/
theorem exists_stretches (s : List Char) :
    ∃ stretches : List Stretch, s = stretches.flatMap Stretch.written ∧
      ∀ value?, substitute value? s = stretches.flatMap (Stretch.filled value?) := by
  induction s using placeholderInduction with
  | nil => exact ⟨[], rfl, fun value? => substitute_nil value?⟩
  | placeholder name rest hname ih =>
    obtain ⟨stretches, hwritten, hfilled⟩ := ih
    refine ⟨.placeholder name :: stretches, ?_, fun value? => ?_⟩
    · simp [Stretch.written, ← hwritten]
    · rw [substitute_placeholder value? hname, hfilled, List.flatMap_cons]
      rfl
  | skip c s hopen ih =>
    obtain ⟨stretches, hwritten, hfilled⟩ := ih
    refine ⟨.plain c :: stretches, ?_, fun value? => ?_⟩
    · simp [Stretch.written, ← hwritten]
    · rw [substitute_cons value? hopen, hfilled, List.flatMap_cons]
      rfl

end StepGlue
