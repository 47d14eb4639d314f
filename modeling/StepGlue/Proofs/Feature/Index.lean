import Mathlib.Data.List.Flatten
import Mathlib.Data.List.Forall2
import StepGlue.Feature.Index
import StepGlue.Proofs.Text.Offsets

/-! The index of a feature loses no step and no example row.

A background is taken as a scenario without examples, so a feature is a row of blocks in the order
of its text. A block with a data row becomes an outline, and all others leave their steps as they
are. The lines of data rows are found by going over the text of the table again: the lines that
start with a bar are in ascending order, and so are the numbers that stand in where there are too
few of them. -/

namespace StepGlue

/-! ### Lines that start with a bar -/

/-- The numbers of the lines that start with a bar, blanks aside. The first line has a given
number. -/
def barNumbers (n : Nat) (pieces : List (List Char)) : List Nat :=
  ((pieces.zipIdx n).filter fun l => (trimStart l.1).head? == some '|').map (·.2)

theorem barNumbers_cons (n : Nat) (piece : List Char) (more : List (List Char)) :
    barNumbers n (piece :: more) =
      if (trimStart piece).head? = some '|' then n :: barNumbers (n + 1) more
      else barNumbers (n + 1) more := by
  by_cases hbar : (trimStart piece).head? = some '|'
  · simp [barNumbers, List.zipIdx_cons, hbar]
  · simp [barNumbers, List.zipIdx_cons, hbar]

theorem barNumbers_pairwise (n : Nat) (pieces : List (List Char)) :
    (barNumbers n pieces).Pairwise (· < ·) := by
  have hall : ((pieces.zipIdx n).map (·.2)).Pairwise (· < ·) := by
    rw [List.zipIdx_map_snd]
    exact List.pairwise_lt_range' 1
  exact hall.sublist (List.filter_sublist.map _)

theorem le_of_mem_barNumbers {n x : Nat} {pieces : List (List Char)}
    (h : x ∈ barNumbers n pieces) : n ≤ x := by
  obtain ⟨l, hl, rfl⟩ := List.mem_map.mp h
  have hmem := List.mem_map_of_mem (f := Prod.snd) (List.mem_filter.mp hl).1
  rw [List.zipIdx_map_snd, List.mem_range'_1] at hmem
  exact hmem.1

/-- The lines are found by the offsets at which they start, each one behind the line feed of the
line before. -/
theorem barLines_eq (a s b : List Char) :
    barLines (LineMap.ofText (a ++ s ++ b)) (byteLength a) (splitLines s) =
      barNumbers (lineFeeds a + 1) (splitLines s) := by
  have hline := LineMap.lineOf_byteLength a (s ++ b)
  rw [← List.append_assoc] at hline
  obtain ⟨hs, -⟩ | ⟨l, r, hcut, hfeed, hs⟩ := splitLines_cases s
  · rw [hs, barNumbers_cons]
    simp only [barLines, hline]
    rfl
  · have hlater := barLines_eq (a ++ l ++ ['\n']) r b
    have htext : a ++ l ++ ['\n'] ++ r ++ b = a ++ s ++ b := by simp [hcut]
    have hbytes : byteLength (a ++ l ++ ['\n']) = byteLength a + byteLength l + 1 := by
      rw [byteLength_append, byteLength_append]
      rfl
    have hfeeds : lineFeeds (a ++ l ++ ['\n']) = lineFeeds a + 1 := by
      rw [lineFeeds_append, lineFeeds_append, lineFeeds_eq_zero.mpr hfeed]
      rfl
    rw [htext, hbytes, hfeeds] at hlater
    rw [hs, barNumbers_cons]
    simp only [barLines, hline, hlater]
termination_by s.length
decreasing_by
  rw [hcut, List.length_append, List.length_cons]
  omega

example : barNumbers 5 (splitLines "| n |\n# two\n  | 2 |".toList) = [5, 7] := by decide

/-! ### Rows -/

/-- The cell of a row under a header; of columns with the same header the last one counts. -/
def cellUnder? (header : List String) (name : String) (cells : List String) : Option String :=
  ((header.zip cells).reverse.find? (·.1 == name)).map (·.2)

theorem find?_lastEntries (name : String) (es : List (String × String)) :
    (lastEntries es).find? (·.1 == name) = es.reverse.find? (·.1 == name) := by
  induction es with
  | nil => rfl
  | cons e es ih =>
    rw [List.reverse_cons, List.find?_append, ← ih, lastEntries]
    by_cases hlater : es.any (·.1 == e.1)
    · rw [if_pos hlater]
      by_cases hname : e.1 = name
      · have hfound : (es.reverse.find? (·.1 == name)).isSome := by
          simpa [hname] using hlater
        rw [← ih] at hfound
        rw [Option.or_of_isSome hfound]
      · simp [hname]
    · rw [if_neg hlater, List.find?_cons]
      by_cases hname : e.1 = name
      · have hnone : es.reverse.find? (·.1 == name) = none :=
          List.find?_eq_none.mpr fun x hx hfound => hlater (List.any_eq_true.mpr
            ⟨x, List.mem_reverse.mp hx, by simpa [hname] using hfound⟩)
        simp [ih, hnone, hname]
      · have hother : (e.1 == name) = false := by simpa using hname
        simp [hother]

theorem rowsAt_cells (header : List String) (last : Nat) (lines : List Nat)
    (data : List (List String)) :
    List.Forall₂ (fun cells (row : ExampleRow) =>
      ∀ name, row.value? name = cellUnder? header name cells) data
      (rowsAt header last lines data) := by
  induction data generalizing last lines with
  | nil => exact .nil
  | cons cells more ih =>
    refine .cons (fun name => ?_) (ih _ _)
    exact congrArg (Option.map _) (find?_lastEntries name _)

/-- Lines that are given in ascending order stay so, and so do the ones that are made up. -/
theorem rowsAt_pairwise {last : Nat} {lines : List Nat} (h : (last :: lines).Pairwise (· < ·))
    (header : List String) (data : List (List String)) :
    (last :: (rowsAt header last lines data).map (·.line)).Pairwise (· < ·) := by
  rw [← List.isChain_iff_pairwise] at h ⊢
  induction data generalizing last lines with
  | nil => exact List.IsChain.singleton last
  | cons cells more ih =>
    cases lines with
    | nil =>
      have hlater := ih (List.IsChain.singleton (last + 1))
      exact List.isChain_cons_cons.mpr ⟨Nat.lt_succ_self last, hlater⟩
    | cons l lines =>
      obtain ⟨hl, hlines⟩ := List.isChain_cons_cons.mp h
      exact List.isChain_cons_cons.mpr ⟨hl, ih hlines⟩

theorem line_of_rowsAt {header : List String} {last : Nat} {lines : List Nat}
    {data : List (List String)} {k line : Nat} {row : ExampleRow}
    (hrow : (rowsAt header last lines data)[k]? = some row) (hline : lines[k]? = some line) :
    row.line = line := by
  induction data generalizing last lines k with
  | nil => cases hrow
  | cons cells more ih =>
    cases lines with
    | nil => cases hline
    | cons l lines =>
      cases k with
      | zero =>
        cases hrow
        exact Option.some.inj hline
      | succ k => exact ih hrow hline

/-- The line on which a table starts. -/
def Table.startLine (text : List Char) (t : Table) : Nat :=
  (LineMap.ofText text).lineOf t.span.start

/-- The lines of a table that start with a bar, the one of its header among them. -/
def Table.barNumbers (text : List Char) (t : Table) : List Nat :=
  match t.span.slice text with
  | none => []
  | some piece => StepGlue.barNumbers (t.startLine text) (splitLines piece)

theorem Table.pairwise_tail_barNumbers (text : List Char) (t : Table) :
    (t.startLine text :: (t.barNumbers text).tail).Pairwise (· < ·) := by
  unfold Table.barNumbers
  cases t.span.slice text with
  | none => exact List.pairwise_singleton _ _
  | some piece =>
    have hall := barNumbers_pairwise (t.startLine text) (splitLines piece)
    dsimp only
    cases hnumbers : StepGlue.barNumbers (t.startLine text) (splitLines piece) with
    | nil => exact List.pairwise_singleton _ _
    | cons x xs =>
      rw [hnumbers] at hall
      obtain ⟨hx, hxs⟩ := List.pairwise_cons.mp hall
      have hle : t.startLine text ≤ x := le_of_mem_barNumbers (hnumbers ▸ List.mem_cons_self)
      exact List.pairwise_cons.mpr ⟨fun y hy => Nat.lt_of_le_of_lt hle (hx y hy), hxs⟩

theorem Table.exampleRows_eq (text : List Char) (t : Table) :
    t.exampleRows (LineMap.ofText text) text =
      rowsAt (t.rows.headD []) (t.startLine text) (t.barNumbers text).tail t.rows.tail := by
  unfold Table.exampleRows Table.barNumbers
  cases t.rows with
  | nil => rfl
  | cons header data =>
    cases hslice : t.span.slice text with
    | none => rfl
    | some piece =>
      obtain ⟨a, b, rfl, ha⟩ := exists_of_slice hslice
      have hline := LineMap.lineOf_byteLength a (piece ++ b)
      rw [← List.append_assoc] at hline
      have hbars := barLines_eq a piece b
      rw [← hline, ha] at hbars
      exact congrArg (fun numbers : List Nat => rowsAt header _ numbers.tail data) hbars

/-- The rows of a table in an index: one for each row of cells below the header, in ascending order
of their lines. The lines are those that start with a bar, as long as there are any. -/
structure TableRows (text : List Char) (t : Table) (rows : List ExampleRow) : Prop where
  cells : List.Forall₂ (fun cells (row : ExampleRow) =>
    ∀ name, row.value? name = cellUnder? (t.rows.headD []) name cells) t.rows.tail rows
  ascending : (rows.map (·.line)).Pairwise (· < ·)
  below : ∀ row ∈ rows, t.startLine text < row.line
  aligned : ∀ k row line, rows[k]? = some row → (t.barNumbers text)[k + 1]? = some line →
    row.line = line

theorem tableRows_exampleRows (text : List Char) (t : Table) :
    TableRows text t (t.exampleRows (LineMap.ofText text) text) := by
  rw [Table.exampleRows_eq]
  obtain ⟨hbelow, hascending⟩ := List.pairwise_cons.mp
    (rowsAt_pairwise (t.pairwise_tail_barNumbers text) (t.rows.headD []) t.rows.tail)
  exact {
    cells := rowsAt_cells _ _ _ _
    ascending := hascending
    below := fun row hrow => hbelow _ (List.mem_map_of_mem hrow)
    aligned := fun k row line hrow hline =>
      line_of_rowsAt hrow (by rw [List.getElem?_tail, hline]) }

/-! ### Blocks -/

/-- Whether a block of examples has a row below its header. -/
def Scenario.hasRow (s : Scenario) : Bool := s.examples.any (2 ≤ ·.rows.length)

/-- The backgrounds and scenarios of a feature in the order of its tree. A background is a scenario
without examples. -/
def Feature.blocks (f : Feature) : List Scenario :=
  ⟨f.background, []⟩ :: f.scenarios ++ f.rules.flatMap fun r => ⟨r.background, []⟩ :: r.scenarios

/-- A step is that of a node: it has the node's text and the line on which the node starts. Its
keyword is the one that is written there, or the one of the node's role if none is. -/
structure StepOf (text : List Char) (n : StepNode) (s : Step) : Prop where
  worded : s.text = n.text
  starts : s.line = (LineMap.ofText text).lineOf n.start
  written : ∀ k, Keyword.parse n.keyword = .ok k → s.keyword = k
  foreign : ∀ e, Keyword.parse n.keyword = .error e → s.keyword = n.role.keyword

theorem stepOf_step (text : List Char) (n : StepNode) :
    StepOf text n (n.step (LineMap.ofText text)) where
  worded := rfl
  starts := rfl
  written k hk := by simp only [StepNode.step, hk]
  foreign e he := by simp only [StepNode.step, he]

theorem forall₂_stepOf (text : List Char) (ns : List StepNode) :
    List.Forall₂ (StepOf text) ns (ns.map (StepNode.step (LineMap.ofText text))) :=
  List.forall₂_map_right_iff.mpr (List.forall₂_same.mpr fun n _ => stepOf_step text n)

/-- The outline of a scenario: its steps, and the rows of its tables one after the other. -/
structure OutlineOf (text : List Char) (s : Scenario) (o : Outline) : Prop where
  steps : o.steps = s.steps.map (StepNode.step (LineMap.ofText text))
  each : List.Forall₂ (StepOf text) s.steps o.steps
  rows : ∃ tables, List.Forall₂ (TableRows text) s.examples tables ∧ o.rows = tables.flatten

/-- An index that holds every step once: the steps of blocks with a data row in an outline for each
of these, the others among the plain steps, both in the order of the tree. -/
structure Complete (text : List Char) (f : Feature) (index : FeatureIndex) : Prop where
  plain : index.steps = ((f.blocks.filter (!·.hasRow)).flatMap (·.steps)).map
    (StepNode.step (LineMap.ofText text))
  each : List.Forall₂ (StepOf text) ((f.blocks.filter (!·.hasRow)).flatMap (·.steps)) index.steps
  outlined : List.Forall₂ (OutlineOf text) (f.blocks.filter (·.hasRow)) index.outlines
  once : (index.steps ++ index.outlines.flatMap (·.steps)).Perm
    ((f.blocks.flatMap (·.steps)).map (StepNode.step (LineMap.ofText text)))

theorem Table.exampleRows_eq_nil {text : List Char} {t : Table} :
    t.exampleRows (LineMap.ofText text) text = [] ↔ ¬2 ≤ t.rows.length := by
  have hlength := (tableRows_exampleRows text t).cells.length_eq
  rw [List.length_tail] at hlength
  rw [← List.length_eq_zero_iff, ← hlength]
  omega

theorem Scenario.rows_eq_nil {text : List Char} {s : Scenario} :
    s.examples.flatMap (Table.exampleRows (LineMap.ofText text) text) = [] ↔
      s.hasRow = false := by
  simp [Scenario.hasRow, List.flatMap_eq_nil_iff, Table.exampleRows_eq_nil]

theorem Scenario.index_of_not_hasRow {s : Scenario} (h : s.hasRow = false) (text : List Char) :
    s.index (LineMap.ofText text) text =
      { steps := s.steps.map (StepNode.step (LineMap.ofText text)) } := by
  unfold Scenario.index
  rw [Scenario.rows_eq_nil.mpr h]

theorem Scenario.index_of_hasRow {s : Scenario} (h : s.hasRow = true) (text : List Char) :
    ∃ o, s.index (LineMap.ofText text) text = { outlines := [o] } ∧ OutlineOf text s o := by
  have hne : s.examples.flatMap (Table.exampleRows (LineMap.ofText text) text) ≠ [] := by
    rw [ne_eq, Scenario.rows_eq_nil, h]
    decide
  unfold Scenario.index
  split
  · next hnil => exact absurd hnil hne
  · refine ⟨_, rfl, rfl, forall₂_stepOf text s.steps,
      s.examples.map (Table.exampleRows (LineMap.ofText text) text), ?_, ?_⟩
    · exact List.forall₂_map_right_iff.mpr
        (List.forall₂_same.mpr fun t _ => tableRows_exampleRows text t)
    · exact List.flatMap_def

/-! ### Features -/

theorem FeatureIndex.foldl_append {α : Type} (g : α → FeatureIndex) (i : FeatureIndex)
    (l : List α) :
    l.foldl (fun i a => i.append (g a)) i =
      ⟨i.steps ++ l.flatMap fun a => (g a).steps,
        i.outlines ++ l.flatMap fun a => (g a).outlines⟩ := by
  induction l generalizing i with
  | nil => simp
  | cons a l ih =>
    rw [List.foldl_cons, ih]
    simp [append]

/-- The index of blocks, one after the other. -/
def indexBlocks (text : List Char) (blocks : List Scenario) : FeatureIndex :=
  ⟨blocks.flatMap fun s => (s.index (LineMap.ofText text) text).steps,
    blocks.flatMap fun s => (s.index (LineMap.ofText text) text).outlines⟩

theorem indexScenarios_eq (text : List Char) (background : List StepNode)
    (scenarios : List Scenario) :
    indexScenarios (LineMap.ofText text) text background scenarios =
      indexBlocks text (⟨background, []⟩ :: scenarios) := by
  rw [indexScenarios, FeatureIndex.foldl_append]
  rfl

theorem Feature.index_eq (text : List Char) (f : Feature) :
    f.index text = indexBlocks text f.blocks := by
  rw [Feature.index]
  simp only [FeatureIndex.foldl_append, indexScenarios_eq]
  simp [indexBlocks, Feature.blocks, List.flatMap_assoc]

theorem steps_indexBlocks (text : List Char) (blocks : List Scenario) :
    (indexBlocks text blocks).steps =
      ((blocks.filter (!·.hasRow)).flatMap (·.steps)).map
        (StepNode.step (LineMap.ofText text)) := by
  induction blocks with
  | nil => rfl
  | cons s blocks ih =>
    simp only [indexBlocks] at ih ⊢
    rw [List.flatMap_cons, ih]
    cases hs : s.hasRow with
    | false => simp [Scenario.index_of_not_hasRow hs, hs]
    | true =>
      obtain ⟨o, ho, -⟩ := Scenario.index_of_hasRow hs text
      simp [ho, hs]

theorem outlines_indexBlocks (text : List Char) (blocks : List Scenario) :
    List.Forall₂ (OutlineOf text) (blocks.filter (·.hasRow))
      (indexBlocks text blocks).outlines := by
  induction blocks with
  | nil => exact .nil
  | cons s blocks ih =>
    simp only [indexBlocks] at ih ⊢
    rw [List.flatMap_cons]
    cases hs : s.hasRow with
    | false => simpa [Scenario.index_of_not_hasRow hs, hs] using ih
    | true =>
      obtain ⟨o, ho, hof⟩ := Scenario.index_of_hasRow hs text
      rw [ho, List.filter_cons_of_pos hs]
      exact .cons hof ih

theorem steps_of_outlines {text : List Char} {blocks : List Scenario} {outlines : List Outline}
    (h : List.Forall₂ (OutlineOf text) blocks outlines) :
    outlines.flatMap (·.steps) =
      (blocks.flatMap (·.steps)).map (StepNode.step (LineMap.ofText text)) := by
  induction h with
  | nil => rfl
  | cons hof _ ih => rw [List.flatMap_cons, List.flatMap_cons, List.map_append, ih, hof.steps]

theorem complete_index (text : List Char) (f : Feature) : Complete text f (f.index text) := by
  rw [Feature.index_eq]
  have hplain := steps_indexBlocks text f.blocks
  have houtlined := outlines_indexBlocks text f.blocks
  refine ⟨hplain, by rw [hplain]; exact forall₂_stepOf text _, houtlined, ?_⟩
  have hblocks := List.filter_append_perm (fun s : Scenario => !s.hasRow) f.blocks
  simp only [Bool.not_not] at hblocks
  rw [hplain, steps_of_outlines houtlined, ← List.map_append, ← List.flatMap_append]
  exact (hblocks.flatMap_right _).map _

/-- Whatever feature a source is read as, its index has every step once, with the text, the line
and the keyword of its node, and every data row of every table with a line of its own. -/
theorem indexFeature_complete (source : String) :
    let text := terminated source.toList
    indexFeature source = (Feature.parse text).map (Feature.index text) ∧
      ∀ f : Feature, Complete text f (f.index text) := by
  intro text
  refine ⟨?_, complete_index text⟩
  change (Feature.parse text >>= fun f => pure (f.index text)) = _
  cases Feature.parse text with
  | error e => rfl
  | ok f => rfl

end StepGlue
