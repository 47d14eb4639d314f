import Mathlib.Data.List.DropRight
import StepGlue.Proofs.Position

/-! Where a whole line ends.

A finding without a span covers its line. The line is read anew for that, and all carriage returns
at its end are left out, while a line of a document leaves out one at most. So the two ends are
apart by the returns that the document's line still has at its end. -/

namespace StepGlue

/-! ### Carriage returns at the end -/

/-- The number of carriage returns at the end of a text. -/
def endReturns (s : List Char) : Nat := (s.rtakeWhile (· == '\r')).length

theorem dropReturns_append_return (s : List Char) : dropReturns (s ++ ['\r']) = dropReturns s :=
  List.rdropWhile_concat_pos _ s '\r' rfl

theorem prefix_dropReturns (s : List Char) : dropReturns s <+: s := List.rdropWhile_prefix _ s

theorem dropReturns_dropReturn (s : List Char) : dropReturns (dropReturn s) = dropReturns s := by
  unfold dropReturn
  split
  · next hlast =>
    obtain ⟨t, rfl⟩ := List.getLast?_eq_some_iff.mp hlast
    rw [List.dropLast_concat, dropReturns_append_return]
  · rfl

theorem utf16Length_dropReturns (s : List Char) :
    utf16Length (dropReturns s) + endReturns s = utf16Length s := by
  induction s using List.reverseRecOn with
  | nil => rfl
  | append_singleton s c ih =>
    by_cases hc : c = '\r'
    · subst hc
      have hmore : endReturns (s ++ ['\r']) = endReturns s + 1 := by
        unfold endReturns
        rw [List.rtakeWhile_concat_pos _ s '\r' rfl, List.length_append, List.length_singleton]
      have hunit : utf16Length ['\r'] = 1 := rfl
      rw [dropReturns_append_return, hmore, utf16Length_append, hunit, ← ih, Nat.add_assoc]
    · have hkept : dropReturns (s ++ [c]) = s ++ [c] :=
        List.rdropWhile_concat_neg _ s c (by simpa using hc)
      have hnone : endReturns (s ++ [c]) = 0 := by
        unfold endReturns
        rw [List.rtakeWhile_concat_neg _ s c (by simpa using hc), List.length_nil]
      rw [hkept, hnone, Nat.add_zero]

theorem endReturns_eq_zero {s : List Char} : endReturns s = 0 ↔ s.getLast? ≠ some '\r' := by
  rcases List.eq_nil_or_concat' s with rfl | ⟨t, c, rfl⟩
  · simp [endReturns]
  · by_cases hc : c = '\r'
    · simp [endReturns, hc]
    · simp [endReturns, hc]

/-! ### Lines and the pieces between line feeds -/

theorem length_splitLines (s : List Char) : (splitLines s).length = lineFeeds s + 1 := by
  induction s with
  | nil => rfl
  | cons c s ih =>
    by_cases hc : c = '\n'
    · simp [splitLines, lineFeeds, hc, ih]
    · cases hs : splitLines s with
      | nil => simp [hs] at ih
      | cons l ls => simpa [splitLines, lineFeeds, hc, hs] using ih

theorem splitLines_append (a b : List Char) :
    splitLines (a ++ '\n' :: b) = splitLines a ++ splitLines b := by
  induction a with
  | nil => rfl
  | cons c a ih =>
    by_cases hc : c = '\n'
    · simp [splitLines, hc, ih]
    · cases ha : splitLines a with
      | nil =>
        have hlen := length_splitLines a
        simp [ha] at hlen
      | cons l ls => simp [splitLines, hc, ih, ha]

theorem splitLines_of_notMem {s : List Char} (h : '\n' ∉ s) : splitLines s = [s] := by
  obtain ⟨hs, -⟩ | ⟨l, r, rfl, -, -⟩ := splitLines_cases s
  · exact hs
  · exact absurd (List.mem_append_right l List.mem_cons_self) h

theorem exists_splitLines_concat (s : List Char) :
    ∃ front last, splitLines s = front ++ [last] := by
  rcases List.eq_nil_or_concat' (splitLines s) with hnil | hcut
  · have hlen := length_splitLines s
    simp [hnil] at hlen
  · exact hcut

theorem textLines_of_splitLines {s last : List Char} {front : List (List Char)}
    (h : splitLines s = front ++ [last]) :
    textLines s = front.map dropReturn ++ if last = [] then [] else [last] := by
  by_cases hlast : last = []
  · simp [textLines, h, hlast]
  · simp [textLines, h, hlast]

/-- A reader that takes a line feed together with a return before it, and then leaves out what
returns are still there, reads the same length. -/
theorem lineLength_eq (source : String) (k : Nat) :
    lineLength source k =
      ((textLines source.toList)[k]?.map fun t => utf16Length (dropReturns t)).getD 0 := by
  obtain ⟨front, last, hpieces⟩ := exists_splitLines_concat source.toList
  unfold lineLength
  rw [textLines_of_splitLines hpieces, hpieces]
  rcases Nat.lt_or_ge k front.length with hk | hk
  · rw [List.getElem?_append_left hk, List.getElem?_append_left (by simpa using hk)]
    simp [hk, dropReturns_dropReturn]
  · obtain ⟨d, rfl⟩ := Nat.exists_eq_add_of_le hk
    rw [List.getElem?_append_right (by omega), List.getElem?_append_right (by simp)]
    by_cases hlast : last = []
    · -- an empty piece at the end is no line of the reader, and has no length
      have hempty : utf16Length (dropReturns []) = 0 := rfl
      cases d with
      | zero => simp [hlast, hempty]
      | succ d => simp [hlast]
    · cases d with
      | zero => simp [hlast]
      | succ d => simp [hlast]

namespace LineSplit

variable {s before raw after : List Char} {n : Nat}

theorem getElem?_splitLines (h : LineSplit s n before raw after) :
    (splitLines s)[n - 1]? = some raw := by
  have hwhole : splitLines raw = [raw] := splitLines_of_notMem h.inside
  obtain ⟨more, hmore⟩ : ∃ more, splitLines (raw ++ after) = raw :: more := by
    rcases h.closes with rfl | ⟨b, rfl⟩
    · exact ⟨[], by rw [List.append_nil, hwhole]⟩
    · exact ⟨splitLines b, by rw [splitLines_append, hwhole, List.singleton_append]⟩
  rw [h.number, Nat.add_sub_cancel, h.cut, List.append_assoc]
  rcases h.opens with rfl | ⟨a, rfl⟩
  · rw [List.nil_append, hmore]
    rfl
  · -- there is a piece for every line feed before the line
    have hlen : lineFeeds (a ++ ['\n']) = (splitLines a).length := by
      rw [length_splitLines, lineFeeds_append]
      rfl
    rw [hlen, List.append_assoc, List.singleton_append, splitLines_append,
      List.getElem?_append_right (Nat.le_refl _), Nat.sub_self, hmore]
    rfl

theorem lineLength {source : String} (h : LineSplit source.toList n before raw after) :
    lineLength source (n - 1) = utf16Length (dropReturns (dropReturn raw)) := by
  rw [dropReturns_dropReturn]
  simp only [StepGlue.lineLength, h.getElem?_splitLines]

/-- Places on one line are at one position only if as many units are before both. -/
theorem positionAt_eq_iff {source : String} {x y : List Char}
    (h : LineSplit source.toList n before raw after) (hx : x <+: raw) (hy : y <+: raw) :
    positionAt source (byteLength before + byteLength x) =
        positionAt source (byteLength before + byteLength y) ↔
      utf16Length x = utf16Length y := by
  rw [← byteLength_append, ← byteLength_append, h.positionAt_of_prefix hx,
    h.positionAt_of_prefix hy, Position.mk.injEq]
  exact and_iff_right rfl

theorem number_le (h : LineSplit s n before raw after) : n - 1 ≤ utf16Length s := by
  have hfeeds := lineFeeds_le_utf16Length s
  have hall := h.lineFeeds_eq
  have hnumber := h.number
  omega

theorem range_of_no_span {source : String} {m : Marker}
    (h : LineSplit source.toList m.line before raw after) (hspan : m.span = none)
    (hsize : utf16Length source.toList < word32) :
    m.range (some source) =
      ⟨⟨m.line - 1, 0⟩, ⟨m.line - 1, utf16Length (dropReturns (dropReturn raw))⟩⟩ := by
  have hle : m.line - 1 ≤ maxEditorLine := Nat.le_sub_one_of_lt (h.number_le.trans_lt hsize)
  have hpos : 0 < m.line := by
    rw [h.number]
    exact Nat.succ_pos _
  simp only [Marker.range, hspan, Nat.min_eq_left hle, if_pos hpos, h.lineLength]

end LineSplit

/-- A range covers a line from its start up to the returns at its end. -/
structure CoversLine (source : String) (n : Nat) (l : Line) (r : Range) : Prop where
  there : (Document.ofText source).line? n = some l
  start : r.start = positionAt source l.start
  stop : r.stop = positionAt source (l.start + byteLength (dropReturns l.text))
  fits : r.start.Fits ∧ r.stop.Fits

theorem LineSplit.coversLine {source : String} {before raw after : List Char} {m : Marker}
    (h : LineSplit source.toList m.line before raw after) (hspan : m.span = none)
    (hsize : utf16Length source.toList < word32) :
    CoversLine source m.line ⟨byteLength before, raw⟩ (m.range (some source)) := by
  have hstart := h.positionAt_of_prefix List.nil_prefix
  have hstop := h.positionAt_of_prefix
    ((prefix_dropReturns (dropReturn raw)).trans (prefix_dropReturn raw))
  rw [List.append_nil] at hstart
  rw [byteLength_append] at hstop
  rw [h.range_of_no_span hspan hsize]
  exact {
    there := h.line?
    start := hstart.symm
    stop := hstop.symm
    fits := ⟨hstart ▸ fits_positionAt hsize _, hstop ▸ fits_positionAt hsize _⟩ }

/-- A line is shown as many units short of a document's line as there are returns left at the end of
the latter. So a finding without a span ends where the line does exactly if there are none. -/
theorem range_of_line_ends_iff (source : String) (n : Nat) (m : Marker)
    (hsize : utf16Length source.toList < word32) (hline : HasLine source n) :
    let range := ({ m with line := n, span := none }.diagnostic (some source)).range
    lineLength source (n - 1) =
      ((textLines source.toList)[n - 1]?.map fun t => utf16Length (dropReturns t)).getD 0 ∧
    ∃ l, CoversLine source n l range ∧
      lineLength source (n - 1) + endReturns l.text = utf16Length l.text ∧
      (lineLength source (n - 1) = utf16Length l.text ↔ l.text.getLast? ≠ some '\r') ∧
      (range.stop = positionAt source (l.start + byteLength l.text) ↔
        l.text.getLast? ≠ some '\r') := by
  intro range
  obtain ⟨before, raw, after, hsplit⟩ := exists_lineSplit hline
  have hcovers : CoversLine source n ⟨byteLength before, raw⟩ range :=
    LineSplit.coversLine (m := { m with line := n, span := none }) hsplit rfl hsize
  have hlength := hsplit.lineLength
  have hunits : lineLength source (n - 1) + endReturns (dropReturn raw) =
      utf16Length (dropReturn raw) := by
    rw [hlength, utf16Length_dropReturns]
  have hsame : lineLength source (n - 1) = utf16Length (dropReturn raw) ↔
      (dropReturn raw).getLast? ≠ some '\r' := by
    rw [← endReturns_eq_zero]
    omega
  refine ⟨lineLength_eq source (n - 1), _, hcovers, hunits, hsame, ?_⟩
  have hshown : dropReturns (dropReturn raw) <+: raw :=
    (prefix_dropReturns _).trans (prefix_dropReturn raw)
  rw [hlength] at hsame
  rw [hcovers.stop]
  exact (hsplit.positionAt_eq_iff hshown (prefix_dropReturn raw)).trans hsame

def doubledReturn : String := "é\r\r\n🦀\r\n"

/-- The first line keeps one of its two returns and is shown without it; the second one has none
left. -/
theorem range_of_line_ends_iff_doubled :
    utf16Length doubledReturn.toList < word32 ∧ HasLine doubledReturn 1 ∧
      HasLine doubledReturn 2 ∧
      (lineLength doubledReturn 0 ≠ utf16Length ['é', '\r'] ∧
        ((Marker.ofKind .unmatchedStep "" 1 none []).diagnostic (some doubledReturn)).range.stop ≠
          positionAt doubledReturn (0 + 3)) ∧
      lineLength doubledReturn 1 = utf16Length ['🦀'] ∧
      ((Marker.ofKind .unmatchedStep "" 2 none []).diagnostic (some doubledReturn)).range.stop =
        positionAt doubledReturn (5 + 4) := by
  have hsize : utf16Length doubledReturn.toList < word32 := by decide +kernel
  have hone : HasLine doubledReturn 1 := ⟨by decide, by decide +kernel⟩
  have htwo : HasLine doubledReturn 2 := ⟨by decide, by decide +kernel⟩
  have hfirst : (Document.ofText doubledReturn).line? 1 = some ⟨0, ['é', '\r', '\r']⟩ := by
    decide +kernel
  have hsecond : (Document.ofText doubledReturn).line? 2 = some ⟨5, ['🦀', '\r']⟩ := by
    decide +kernel
  obtain ⟨-, l, hcovers, -, hlength, hstop⟩ := range_of_line_ends_iff doubledReturn 1
    (Marker.ofKind .unmatchedStep "" 1 none []) hsize hone
  obtain ⟨-, l', hcovers', -, hlength', hstop'⟩ := range_of_line_ends_iff doubledReturn 2
    (Marker.ofKind .unmatchedStep "" 2 none []) hsize htwo
  obtain rfl : ⟨0, ['é', '\r', '\r']⟩ = l := Option.some.inj (hfirst.symm.trans hcovers.there)
  obtain rfl : ⟨5, ['🦀', '\r']⟩ = l' := Option.some.inj (hsecond.symm.trans hcovers'.there)
  have hleft : ¬(Line.text ⟨0, ['é', '\r', '\r']⟩).getLast? ≠ some '\r' := by decide
  have hnone : (Line.text ⟨5, ['🦀', '\r']⟩).getLast? ≠ some '\r' := by decide
  exact ⟨hsize, hone, htwo, ⟨mt hlength.mp hleft, mt hstop.mp hleft⟩, hlength'.mpr hnone,
    hstop'.mpr hnone⟩

end StepGlue
