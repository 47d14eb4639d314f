import StepGlue.Proofs.Except
import StepGlue.Proofs.Feature.Placeholder
import StepGlue.Proofs.Regex.Replacement
import StepGlue.Regex.Compile

/-! Filling in outline steps, and the pattern of a placeholder.

The pass over a text finds exactly what the pattern spells, so it replaces what a search for the
pattern would replace. The pattern spells no name with a blank in it, although a column may have
such a name: its placeholder is not filled in. -/

namespace StepGlue

open Regex

/-- A name between angle brackets, as a regular expression. -/
def placeholderPattern : String := "<([^>\\s]+)>"

/-- The part of the pattern that stands for the name. -/
def nameTree : Tree :=
  .repetition ⟨2, 9⟩ 1 none (.bracketed ⟨2, 8⟩ true
    (.union ⟨4, 7⟩ [.literal ⟨⟨4, 5⟩, '>', false⟩, .shorthand ⟨5, 7⟩ .space false]))

def placeholderTree : Tree :=
  .sequence ⟨0, 11⟩
    [.literal ⟨⟨0, 1⟩, '<', false⟩, .group ⟨1, 10⟩ .capturing nameTree,
      .literal ⟨⟨10, 11⟩, '>', false⟩]

theorem readPattern_placeholder :
    readPattern placeholderPattern.toList = .ok placeholderTree := rfl

def nameClass : CharClass :=
  [(0, 8), (14, 31), (33, 61), (63, 132), (134, 159), (161, 5759), (5761, 8191), (8203, 8231),
    (8234, 8238), (8240, 8286), (8288, 12287), (12289, 55295), (57344, 1114111)]

theorem contains_nameClass {c : Char} :
    nameClass.contains c = true ↔ c ≠ '>' ∧ isBlank c = false := by
  have hne : c ≠ '>' ↔ c.toNat ≠ 62 := by
    rw [ne_eq, ← Char.toNat_inj]
    rfl
  have hvalid : c.toNat < 55296 ∨ 57343 < c.toNat ∧ c.toNat < 1114112 := c.valid
  simp only [hne, nameClass, CharClass.contains, isBlank, List.any_cons, List.any_nil,
    Bool.or_false, Bool.or_eq_true, Bool.or_eq_false_iff, Bool.and_eq_true, Bool.and_eq_false_iff,
    decide_eq_true_eq, decide_eq_false_iff_not, beq_eq_false_iff_ne]
  omega

theorem lower_nameTree :
    nameTree.lower namedClass {} = .ok (.rep 1 none (.chars nameClass), {}) := by
  have hclass : (ClassTree.bracketed ⟨2, 8⟩ true (.union ⟨4, 7⟩
      [.literal ⟨⟨4, 5⟩, '>', false⟩, .shorthand ⟨5, 7⟩ .space false])).lower namedClass {} =
      .ok nameClass := toOption_eq_some.mp (by decide +kernel)
  obtain ⟨inner, hinner, hneg⟩ := bind_eq_ok.mp hclass
  exact bind_eq_ok.mpr ⟨_, bind_eq_ok.mpr ⟨inner, hinner, bind_eq_ok.mpr ⟨_, hneg, rfl⟩⟩, rfl⟩

theorem spells_nameTree {w : List Char} : nameTree.Spells w ↔ IsName w := by
  rw [Tree.spells_iff lower_nameTree, accepts_many]
  refine and_congr ?_ (forall₂_congr fun c _ => contains_nameClass)
  rw [Nat.one_le_iff_ne_zero, ne_eq, List.length_eq_zero_iff]

theorem nameTree_plain : nameTree.Plain := ⟨trivial, trivial, trivial⟩

theorem spells_placeholderTree {w : List Char} :
    placeholderTree.Spells w ↔ ∃ name, IsName name ∧ w = '<' :: (name ++ ['>']) := by
  have hplain : ∀ t ∈ [Tree.literal ⟨⟨0, 1⟩, '<', false⟩, .group ⟨1, 10⟩ .capturing nameTree,
      .literal ⟨⟨10, 11⟩, '>', false⟩], t.Plain := by
    simp [Tree.Plain, nameTree_plain, GroupKind.flags]
  unfold placeholderTree
  simp only [Tree.spells_sequence hplain, SpellsAll, Tree.spells_literal,
    Tree.spells_group (k := .capturing) rfl, spells_nameTree]
  constructor
  · rintro ⟨-, -, rfl, rfl, name, -, rfl, hname, -, -, rfl, rfl, rfl⟩
    exact ⟨name, hname, by simp⟩
  · rintro ⟨name, hname, rfl⟩
    exact ⟨['<'], name ++ ['>'], rfl, rfl, name, ['>'], rfl, hname, ['>'], [], rfl, rfl, rfl⟩

theorem captures_placeholderTree {w name : List Char} :
    placeholderTree.Captures w name ↔ IsName name ∧ w = '<' :: (name ++ ['>']) := by
  unfold placeholderTree
  simp only [Tree.captures_cons, Tree.captures_group, Tree.not_captures_literal,
    Tree.not_captures_nil, SpellsAll, Tree.spells_literal, spells_nameTree, and_false, false_and,
    or_false, false_or, exists_false]
  constructor
  · rintro ⟨u, v, rfl, rfl, x, y, rfl, ⟨hname, rfl⟩, c, d, rfl, rfl, rfl⟩
    exact ⟨hname, by simp⟩
  · rintro ⟨hname, rfl⟩
    exact ⟨['<'], name ++ ['>'], rfl, rfl, name, ['>'], rfl, ⟨hname, rfl⟩, ['>'], [], rfl, rfl, rfl⟩

theorem opens_iff {s : List Char} : Opens s ↔ ∃ w v, s = w ++ v ∧ placeholderTree.Spells w := by
  simp only [spells_placeholderTree]
  constructor
  · rintro ⟨name, rest, hname, rfl⟩
    exact ⟨'<' :: (name ++ ['>']), rest, by simp, name, hname, rfl⟩
  · rintro ⟨w, v, rfl, name, hname, rfl⟩
    exact ⟨name, v, hname, by simp⟩

theorem not_opens_of_absentWithin {count : Nat} {u s : List Char}
    (h : placeholderTree.AbsentWithin count (u ++ s)) (hu : u.length < count) : ¬ Opens s := by
  intro hopen
  obtain ⟨w, v, rfl, hw⟩ := opens_iff.mp hopen
  exact h u w v (by simp) hu hw

variable {value? : String → Option String}

/-- A value by the name that the group captures; without a value the whole occurrence stays. -/
def replacement (value? : String → Option String) (whole name : List Char) : List Char :=
  ((value? (String.ofList name)).map String.toList).getD whole

theorem replacement_eq_filling (name : List Char) :
    replacement value? ('<' :: (name ++ ['>'])) name = filling value? name := by
  unfold replacement filling
  cases value? (String.ofList name) with
  | none => rfl
  | some v => rfl

theorem replaced_substitute (s : List Char) :
    Replaced placeholderTree (replacement value?) s (substitute value? s) := by
  induction s using placeholderInduction with
  | nil =>
    rw [substitute_nil]
    refine .rest fun u w v heq _ hw => ?_
    obtain ⟨name, -, rfl⟩ := spells_placeholderTree.mp hw
    simp at heq
  | placeholder name rest hname ih =>
    have hcap := captures_placeholderTree.mpr ⟨hname, rfl⟩
    have hfront := Replaced.front hcap ih
    rw [replacement_eq_filling] at hfront
    rw [substitute_placeholder value? hname]
    simpa using hfront
  | skip c s hopen ih =>
    rw [substitute_cons value? hopen]
    exact ih.cons fun w v heq hw => hopen (opens_iff.mpr ⟨w, v, heq, hw⟩)

theorem eq_substitute_of_replaced {s out : List Char}
    (h : Replaced placeholderTree (replacement value?) s out) : out = substitute value? s := by
  induction h with
  | @rest s habsent =>
    have hstay : substitute value? (s ++ []) = s ++ substitute value? [] := by
      refine substitute_append value? ?_
      rintro u v rfl -
      have hu : u.length < (u ++ v).length + 1 := by
        rw [List.length_append]
        omega
      rw [List.append_nil]
      exact not_opens_of_absentWithin habsent hu
    simpa using hstay.symm
  | @next before whole after name out hcap habsent _ ih =>
    obtain ⟨hname, rfl⟩ := captures_placeholderTree.mp hcap
    have hstay : substitute value? (before ++ ('<' :: (name ++ ['>']) ++ after)) =
        before ++ substitute value? ('<' :: (name ++ ['>']) ++ after) := by
      refine substitute_append value? ?_
      rintro u v rfl hv
      have hu : u.length < (u ++ v).length := by
        have hpos := List.length_pos_iff.mpr hv
        simp only [List.length_append]
        omega
      rw [List.append_assoc, List.append_assoc] at habsent
      exact not_opens_of_absentWithin habsent hu
    have hfill : substitute value? ('<' :: (name ++ ['>']) ++ after) =
        filling value? name ++ substitute value? after := by
      simpa using substitute_placeholder value? hname after
    calc before ++ replacement value? ('<' :: (name ++ ['>'])) name ++ out
        = before ++ (filling value? name ++ substitute value? after) := by
          rw [replacement_eq_filling, ih, List.append_assoc]
      _ = substitute value? (before ++ '<' :: (name ++ ['>']) ++ after) := by
          rw [List.append_assoc before, hstay, hfill]

/-- Filling in is the replacement of all that the pattern finds, and it is one pass. The cut of
the text comes before the values, so no value is searched. -/
theorem substitute_one_pass (value? : String → Option String) (text : List Char) :
    (∃ t, readPattern placeholderPattern.toList = .ok t ∧
      ∀ out, Replaced t (replacement value?) text out ↔ out = substitute value? text) ∧
    (∀ out, Scans value? text out ↔ out = substitute value? text) ∧
    (∃ stretches : List Stretch, text = stretches.flatMap Stretch.written ∧
      ∀ value?, substitute value? text = stretches.flatMap (Stretch.filled value?)) ∧
    ('<' ∉ text → substitute value? text = text) := by
  refine ⟨⟨placeholderTree, readPattern_placeholder, fun out => ?_⟩, fun out => ?_,
    exists_stretches text, substitute_of_notMem value?⟩
  · constructor
    · exact eq_substitute_of_replaced
    · rintro rfl
      exact replaced_substitute text
  · constructor
    · exact Scans.eq_substitute
    · rintro rfl
      exact scans_substitute text

def bracketRow : ExampleRow := ⟨7, [("a", "<b>"), ("b", "c")]⟩

theorem substitute_one_pass_brackets :
    Scans bracketRow.value? "<a>b> <<a> <b c> <> <b".toList "<b>b> <<a> <b c> <> <b".toList ∧
      '<' ∉ "a> b".toList ∧ substitute bracketRow.value? "a> b".toList = "a> b".toList := by
  have hscan := (substitute_one_pass bracketRow.value? "<a>b> <<a> <b c> <> <b".toList).2.1
  have hplain := (substitute_one_pass bracketRow.value? "a> b".toList).2.2.2
  have hno : '<' ∉ "a> b".toList := by decide +kernel
  exact ⟨(hscan _).mpr (by decide +kernel), hno, hplain hno⟩

/-! ### Columns -/

theorem not_opens_of_blank {column : List Char} (hgt : '>' ∉ column)
    (hblank : ∃ c ∈ column, isBlank c = true) (rest : List Char) :
    ¬ Opens ('<' :: (column ++ '>' :: rest)) := by
  rintro ⟨name, after, hname, heq⟩
  obtain ⟨-, htail⟩ := List.cons.inj heq
  obtain ⟨c, hc, hblank⟩ := hblank
  have hgt' : '>' ∉ name := fun hmem => (hname.2 '>' hmem).1 rfl
  have hlen : column.length = name.length := by
    have hcolumn : (column ++ '>' :: rest).idxOf '>' = column.length + ('>' :: rest).idxOf '>' :=
      List.idxOf_append_of_notMem hgt
    have hidx : (name ++ '>' :: after).idxOf '>' = name.length + ('>' :: after).idxOf '>' :=
      List.idxOf_append_of_notMem hgt'
    rw [htail, hidx] at hcolumn
    simpa using hcolumn.symm
  obtain ⟨rfl, -⟩ := List.append_inj htail hlen
  rw [(hname.2 c hc).2] at hblank
  cases hblank

theorem substitute_of_blank {column : List Char} (hlt : '<' ∉ column) (hgt : '>' ∉ column)
    (hblank : ∃ c ∈ column, isBlank c = true) (rest : List Char) :
    substitute value? ('<' :: (column ++ '>' :: rest)) =
      '<' :: (column ++ '>' :: substitute value? rest) := by
  have hclose : '<' ∉ column ++ ['>'] := by simp [hlt]
  have hrest : substitute value? (column ++ '>' :: rest) =
      column ++ '>' :: substitute value? rest := by
    simpa using substitute_append_of_notMem value? hclose rest
  rw [substitute_cons value? (not_opens_of_blank hgt hblank rest), hrest]

theorem isName_of_not_blank {column : List Char} (hne : column ≠ []) (hgt : '>' ∉ column)
    (hblank : ∀ c ∈ column, isBlank c = false) : IsName column := by
  refine ⟨hne, fun c hc => ⟨?_, hblank c hc⟩⟩
  rintro rfl
  exact hgt hc

/-- The placeholder of a column is filled in with the column's value exactly if the column's name
has no blank in it, the value that spells the placeholder itself apart. -/
theorem expand_fills_column_iff {o : Outline} {row : ExampleRow} {i : Nat} {step : Step}
    {a column b : List Char} {v : String} (hstep : o.steps[i]? = some step)
    (htext : step.text.toList = a ++ '<' :: (column ++ '>' :: b)) (ha : '<' ∉ a)
    (hne : column ≠ []) (hlt : '<' ∉ column) (hgt : '>' ∉ column)
    (hvalue : row.value? (String.ofList column) = some v) :
    ∃ text : List Char, (o.expand row)[i]? = some { step with text := String.ofList text } ∧
      ((∃ c ∈ column, isBlank c = true) →
        text = a ++ '<' :: (column ++ '>' :: substitute row.value? b)) ∧
      (text = a ++ v.toList ++ substitute row.value? b ↔
        (∀ c ∈ column, isBlank c = false) ∨ v.toList = '<' :: (column ++ ['>'])) := by
  have hexpand : (o.expand row)[i]? =
      some { step with text := String.ofList (substitute row.value? step.text.toList) } := by
    simp [Outline.expand, hstep]
  have hstay : substitute row.value? (a ++ '<' :: (column ++ '>' :: b)) =
      a ++ substitute row.value? ('<' :: (column ++ '>' :: b)) :=
    substitute_append_of_notMem row.value? ha _
  refine ⟨_, hexpand, ?_⟩
  rw [htext, hstay]
  by_cases hblank : ∃ c ∈ column, isBlank c = true
  · have hsome : ¬ ∀ c ∈ column, isBlank c = false := by
      obtain ⟨c, hc, hb⟩ := hblank
      intro hall
      rw [hall c hc] at hb
      cases hb
    have hsplit : a ++ '<' :: (column ++ '>' :: substitute row.value? b) =
        a ++ ('<' :: (column ++ ['>']) ++ substitute row.value? b) := by simp
    rw [substitute_of_blank hlt hgt hblank]
    refine ⟨fun _ => rfl, ?_⟩
    rw [hsplit, List.append_assoc, List.append_cancel_left_eq, List.append_cancel_right_eq,
      or_iff_right hsome, eq_comm]
  · have hnone : ∀ c ∈ column, isBlank c = false := by
      intro c hc
      rw [← Bool.not_eq_true]
      exact fun hb => hblank ⟨c, hc, hb⟩
    have hname : IsName column := isName_of_not_blank hne hgt hnone
    have hfill : filling row.value? column = v.toList := by rw [filling, hvalue]
    rw [substitute_placeholder row.value? hname, hfill]
    exact ⟨fun hb => absurd hb hblank, fun _ => Or.inl hnone, fun _ => by rw [List.append_assoc]⟩

def greetOutline : Outline where
  steps := [⟨.given, "I am <first name>!", 3⟩]
  rows := [⟨6, [("first name", "Ada")]⟩]

theorem expand_fills_column_iff_greet :
    ∃ row ∈ greetOutline.rows, row.value? "first name" = some "Ada" ∧
      (greetOutline.expand row)[0]? = some ⟨.given, "I am <first name>!", 3⟩ := by
  have hstep : greetOutline.steps[0]? = some ⟨.given, "I am <first name>!", 3⟩ := rfl
  have htext : "I am <first name>!".toList =
      "I am ".toList ++ '<' :: ("first name".toList ++ '>' :: ['!']) := by decide +kernel
  have hvalue : (ExampleRow.mk 6 [("first name", "Ada")]).value?
      (String.ofList "first name".toList) = some "Ada" := by decide +kernel
  obtain ⟨text, hexpand, hstay, -⟩ := expand_fills_column_iff hstep htext (by decide +kernel)
    (by decide +kernel) (by decide +kernel) (by decide +kernel) hvalue
  have hkept := hstay ⟨' ', by decide +kernel, by decide +kernel⟩
  have hrest : substitute (ExampleRow.mk 6 [("first name", "Ada")]).value? ['!'] = ['!'] :=
    substitute_of_notMem _ (by decide +kernel)
  rw [hrest, ← htext] at hkept
  rw [hkept] at hexpand
  exact ⟨_, List.mem_singleton_self _, hvalue, hexpand⟩

end StepGlue
