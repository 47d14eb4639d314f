import StepGlue.Proofs.Glue.Annotation
import StepGlue.Proofs.Marker.Verdict
import StepGlue.Proofs.Position

/-! One line number for every byte.

A feature tells the lines of its steps by a search among line feeds, in a copy of the text that ends
with one. A document has a table of the starts of its lines, an editor position is reached character
by character, and an annotation counts the line feeds before its sign. All of them count the line
feeds that start before the byte. -/

namespace StepGlue

theorem lineOf_terminated {s : List Char} {o : Nat} (h : o ≤ byteLength s) :
    (LineMap.ofText (terminated s)).lineOf o = lineFeeds (charsBefore o s) + 1 := by
  rw [LineMap.lineOf_eq]
  unfold terminated
  by_cases hlast : s.getLast? = some '\n'
  · rw [if_pos hlast]
  · rw [if_neg hlast, charsBefore_append h]

theorem hasLine_charsBefore (source : String) (o : Nat) :
    HasLine source (lineFeeds (charsBefore o source.toList) + 1) := by
  have hle := lineFeeds_mono (prefix_charsBefore o source.toList)
  exact ⟨Nat.le_add_left 1 _, Nat.add_le_add_right hle 1⟩

/-- The lines that start up to a byte are those up to the byte's own line. -/
theorem LineSplit.start_le_iff {s before raw after : List Char} {n : Nat}
    (h : LineSplit s n before raw after) (o : Nat) :
    byteLength before ≤ o ↔ n ≤ lineFeeds (charsBefore o s) + 1 := by
  have hcut : s = before ++ (raw ++ after) := by rw [h.cut, List.append_assoc]
  rw [h.number]
  constructor
  · intro hle
    have hmono := charsBefore_mono hle s
    rw [hcut, charsBefore_byteLength, ← hcut] at hmono
    exact Nat.add_le_add_right (lineFeeds_mono hmono) 1
  · intro hle
    by_contra hlt
    rcases h.opens with rfl | ⟨a, rfl⟩
    · exact hlt (Nat.zero_le o)
    · -- a byte before the line's start is not behind the line feed that opens the line
      have hbytes : o ≤ byteLength a := by
        have hsize : byteLength ['\n'] = 1 := rfl
        rw [byteLength_append] at hlt
        omega
      have hmono := charsBefore_mono hbytes s
      rw [hcut, List.append_assoc, charsBefore_byteLength, ← List.append_assoc, ← hcut] at hmono
      have hfeeds := lineFeeds_mono hmono
      have hone : lineFeeds ['\n'] = 1 := rfl
      rw [lineFeeds_append] at hle
      omega

theorem lineStart?_charsBefore (source : String) (o : Nat) :
    ∃ l, (Document.ofText source).line? (lineFeeds (charsBefore o source.toList) + 1) = some l ∧
      (Document.ofText source).lineStart? (lineFeeds (charsBefore o source.toList) + 1) =
        some l.start ∧ l.start ≤ o := by
  obtain ⟨before, raw, after, hsplit⟩ := exists_lineSplit (hasLine_charsBefore source o)
  exact ⟨_, hsplit.line?, hsplit.lineStart?, (hsplit.start_le_iff o).mpr (Nat.le_refl _)⟩

theorem lt_of_lineStart?_succ {source : String} {o next : Nat}
    (h : (Document.ofText source).lineStart? (lineFeeds (charsBefore o source.toList) + 2) =
      some next) : o < next := by
  have hhas : HasLine source (lineFeeds (charsBefore o source.toList) + 2) := by
    by_contra hno
    rw [Document.lineStart?_eq_none.mpr hno] at h
    cases h
  obtain ⟨before, raw, after, hsplit⟩ := exists_lineSplit hhas
  rw [hsplit.lineStart?] at h
  have hstart := hsplit.start_le_iff o
  obtain rfl := Option.some.inj h
  omega

/-- What a document, an editor and a count of line feeds say of the line of a byte. -/
structure LineOfByte (source : String) (o n : Nat) : Prop where
  there : ∃ l, (Document.ofText source).line? n = some l ∧
    (Document.ofText source).lineStart? n = some l.start ∧ l.start ≤ o
  next : ∀ start, (Document.ofText source).lineStart? (n + 1) = some start → o < start
  position : (positionAt source o).line = n - 1
  fits : lineFeeds source.toList < word32 → (positionAt source o).line < word32
  boundary : ∀ a b, source.toList = a ++ b → byteLength a = o → n = lineFeeds a + 1

theorem lineOfByte (source : String) (o : Nat) :
    LineOfByte source o (lineFeeds (charsBefore o source.toList) + 1) where
  there := lineStart?_charsBefore source o
  next start h := lt_of_lineStart?_succ h
  position := by rw [line_positionAt, Nat.add_sub_cancel]
  fits h := by
    rw [line_positionAt]
    exact (lineFeeds_mono (prefix_charsBefore o source.toList)).trans_lt h
  boundary a b hab hlen := by rw [← hlen, hab, charsBefore_byteLength]

/-- The line of an annotation is the one of its sign. -/
theorem line_of_mem_sites {s : List Char} {a : Annotation.Site} (h : a ∈ Annotation.sites [] s) :
    ∃ rest after, s = a.seen.reverse ++ '@' :: rest ∧
      Annotation.annotation? rest = some (a.keyword, a.literal, after) ∧
      a.step.line = (LineMap.ofText (terminated s)).lineOf (byteLength a.seen.reverse) := by
  obtain ⟨front, rest, after, hcut, hseen, hfound⟩ := Annotation.exists_of_mem_sites h
  obtain rfl : front = a.seen.reverse := by simp [hseen]
  have hle : byteLength a.seen.reverse ≤ byteLength s := by
    rw [hcut, byteLength_append]
    exact Nat.le_add_right _ _
  have hcount : lineFeeds a.seen.reverse = lineFeeds a.seen := List.count_reverse
  refine ⟨rest, after, hcut, hfound, ?_⟩
  rw [lineOf_terminated hle, hcut, charsBefore_byteLength, hcount]
  rfl

/-- All ways to count lines agree on every byte of a text and on its end. So the line of a step that
starts in the text is there, and no such step goes without a marker that it should have. -/
theorem line_counts_agree (source : String) :
    let lines := LineMap.ofText (terminated source.toList)
    (∀ o ≤ byteLength source.toList, LineOfByte source o (lines.lineOf o) ∧
      (∀ i x, lines.breaks[i]? = some x → (x < o ↔ i + 1 < lines.lineOf o)) ∧
      ∀ n : StepNode, n.start = o → ∀ build : Option Span → Marker,
        ((Document.ofText source).markAt (n.step lines).line (n.step lines).text build).isSome) ∧
    ∃ found : List Annotation.Site,
      Annotation.extract source = .ok { steps := found.map Annotation.Site.step } ∧
      ∀ a ∈ found, ∃ rest after, source.toList = a.seen.reverse ++ '@' :: rest ∧
        Annotation.annotation? rest = some (a.keyword, a.literal, after) ∧
        a.step.line = lines.lineOf (byteLength a.seen.reverse) := by
  intro lines
  refine ⟨fun o ho => ?_, _, rfl, fun a ha => line_of_mem_sites (List.mem_filter.mp ha).1⟩
  have hline : lines.lineOf o = lineFeeds (charsBefore o source.toList) + 1 := lineOf_terminated ho
  refine ⟨hline ▸ lineOfByte source o, fun i x hx => LineMap.lt_iff_of_getElem? hx o,
    fun n hn build => ?_⟩
  have hstep : (n.step lines).line = lineFeeds (charsBefore o source.toList) + 1 := by
    rw [← hline, ← hn]
    rfl
  obtain ⟨span, hspan⟩ :=
    markAt_of_hasLine (hasLine_charsBefore source o) (n.step lines).text build
  rw [hstep, hspan, Option.isSome_some]

def annotatedLine : String := "é\n  @When(\"x\")"

def annotatedLines : LineMap := LineMap.ofText (terminated annotatedLine.toList)

/-- The sign of the annotation is the fifth byte after the first one. -/
theorem line_counts_agree_annotated :
    5 ≤ byteLength annotatedLine.toList ∧ annotatedLines.lineOf 5 = 2 ∧
      (∃ l, (Document.ofText annotatedLine).line? 2 = some l ∧ l.start ≤ 5) ∧
      (positionAt annotatedLine 5).line = 1 ∧
      ((Document.ofText annotatedLine).markAt 2 "When" fun span =>
        .ofKind .unmatchedStep "" 2 span []).isSome := by
  have hle : 5 ≤ byteLength annotatedLine.toList := by decide +kernel
  have htwo : annotatedLines.lineOf 5 = 2 := by decide +kernel
  obtain ⟨hbyte, -, hmarked⟩ := (line_counts_agree annotatedLine).1 5 hle
  change LineOfByte annotatedLine 5 (annotatedLines.lineOf 5) at hbyte
  rw [htwo] at hbyte
  obtain ⟨l, hl, -, hstart⟩ := hbyte.there
  have hmark := hmarked ⟨"When", .when, "When", 5⟩ rfl fun span =>
    .ofKind .unmatchedStep "" 2 span []
  change ((Document.ofText annotatedLine).markAt (annotatedLines.lineOf 5) "When" _).isSome at hmark
  rw [htwo] at hmark
  exact ⟨hle, htwo, ⟨l, hl, hstart⟩, hbyte.position, hmark⟩

end StepGlue
