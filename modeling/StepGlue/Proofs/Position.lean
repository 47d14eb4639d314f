import Mathlib.Data.Prod.Lex
import StepGlue.Diagnostic
import StepGlue.Proofs.Document.Locate

/-! Editor positions of byte offsets.

The position of an offset is what reading the characters before it leads to. Every character moves
it on, so positions and boundaries between characters are in the same order, and the line and the
UTF-16 units of a position lead back to the byte. -/

namespace StepGlue

theorem utf16Width_pos (c : Char) : 0 < utf16Width c := by
  unfold utf16Width
  split
  · exact Nat.one_pos
  · exact Nat.two_pos

@[simp] theorem utf16Length_append (a b : List Char) :
    utf16Length (a ++ b) = utf16Length a + utf16Length b := by
  induction a with
  | nil => simp [utf16Length]
  | cons c a ih =>
    simp only [List.cons_append, utf16Length, ih]
    omega

theorem lineFeeds_le_utf16Length (s : List Char) : lineFeeds s ≤ utf16Length s := by
  induction s with
  | nil => exact Nat.le_refl _
  | cons c s ih =>
    have hpos := utf16Width_pos c
    have hcount : lineFeeds (c :: s) ≤ lineFeeds s + 1 := by
      by_cases hc : c = '\n'
      · simp [lineFeeds, hc]
      · simp [lineFeeds, hc]
    simp only [utf16Length]
    omega

namespace Position

/-- The position after a text. -/
def past (p : Position) (s : List Char) : Position := s.foldl next p

theorem past_append (p : Position) (a b : List Char) : p.past (a ++ b) = (p.past a).past b :=
  List.foldl_append

theorem after_eq_past (p : Position) (s : List Char) (o : Nat) :
    p.after s o = p.past (charsBefore o s) := by
  induction s generalizing p o with
  | nil => rfl
  | cons c s ih =>
    cases o with
    | zero => rfl
    | succ n => exact ih _ _

theorem line_past (p : Position) (s : List Char) : (p.past s).line = p.line + lineFeeds s := by
  induction s generalizing p with
  | nil => rfl
  | cons c s ih =>
    have hh := ih (p.next c)
    by_cases hc : c = '\n'
    · simp only [next, if_pos hc] at hh
      simp only [past, List.foldl_cons, next, if_pos hc] at hh ⊢
      rw [hh]
      simp [lineFeeds, hc]
      omega
    · simp only [past, List.foldl_cons, next, if_neg hc] at hh ⊢
      rw [hh]
      simp [lineFeeds, hc]

theorem past_of_notMem {s : List Char} (h : '\n' ∉ s) (p : Position) :
    p.past s = ⟨p.line, p.character + utf16Length s⟩ := by
  induction s generalizing p with
  | nil => rfl
  | cons c s ih =>
    obtain ⟨hc, hs⟩ : '\n' ≠ c ∧ '\n' ∉ s := by simpa using h
    have hnext : p.next c = ⟨p.line, p.character + utf16Width c⟩ := if_neg (Ne.symm hc)
    have hh := ih hs (p.next c)
    simp only [past, List.foldl_cons, hnext] at hh ⊢
    rw [hh, utf16Length, Nat.add_assoc]

theorem past_of_opens {s : List Char} (h : OpensLine s) :
    past ⟨0, 0⟩ s = ⟨lineFeeds s, 0⟩ := by
  rcases h with rfl | ⟨a, rfl⟩
  · rfl
  · have hline := line_past ⟨0, 0⟩ a
    rw [past_append, lineFeeds_append]
    simp only [past, List.foldl_cons, List.foldl_nil, next] at hline ⊢
    simp [hline, lineFeeds]

/-- The position behind a line's front part. -/
theorem past_line {before x : List Char} (h : OpensLine before) (hx : '\n' ∉ x) :
    past ⟨0, 0⟩ (before ++ x) = ⟨lineFeeds before, utf16Length x⟩ := by
  rw [past_append, past_of_opens h, past_of_notMem hx, Nat.zero_add]

/-! ### The order of positions -/

/-- Positions are compared by line, then by character. -/
def key (p : Position) : ℕ ×ₗ ℕ := toLex (p.line, p.character)

theorem key_lt_next (p : Position) (c : Char) : p.key < (p.next c).key := by
  have hpos := utf16Width_pos c
  rw [key, key, Prod.Lex.toLex_lt_toLex]
  by_cases hc : c = '\n'
  · simp [next, hc]
  · simp [next, hc, hpos]

theorem key_le_past (p : Position) (s : List Char) : p.key ≤ (p.past s).key := by
  induction s generalizing p with
  | nil => exact le_refl _
  | cons c s ih => exact (key_lt_next p c).le.trans (ih (p.next c))

theorem key_past_le {a b : List Char} (h : a <+: b) (p : Position) :
    (p.past a).key ≤ (p.past b).key := by
  obtain ⟨t, rfl⟩ := h
  rw [past_append]
  exact key_le_past _ t

theorem key_past_lt {a b : List Char} (h : a <+: b) (hne : a ≠ b) (p : Position) :
    (p.past a).key < (p.past b).key := by
  obtain ⟨t, rfl⟩ := h
  rw [past_append]
  cases t with
  | nil => exact absurd (List.append_nil a).symm hne
  | cons c t => exact (key_lt_next _ c).trans_le (key_le_past _ t)

/-! ### The size of positions -/

/-- Both numbers of a position fit into 32 bits. -/
def Fits (p : Position) : Prop := p.line < word32 ∧ p.character < word32

theorem character_past_le (p : Position) (s : List Char) :
    (p.past s).character ≤ p.character + utf16Length s := by
  induction s generalizing p with
  | nil => exact Nat.le_refl _
  | cons c s ih =>
    have hh := ih (p.next c)
    have hnext : (p.next c).character ≤ p.character + utf16Width c := by
      by_cases hc : c = '\n'
      · simp [next, hc]
      · simp [next, hc]
    simp only [past, List.foldl_cons, utf16Length] at hh ⊢
    omega

end Position

theorem positionAt_eq (source : String) (o : Nat) :
    positionAt source o = Position.past ⟨0, 0⟩ (charsBefore o source.toList) :=
  Position.after_eq_past _ _ _

theorem positionAt_of_append {source : String} {a b : List Char} (h : source.toList = a ++ b) :
    positionAt source (byteLength a) = Position.past ⟨0, 0⟩ a := by
  rw [positionAt_eq, h, charsBefore_byteLength]

theorem line_positionAt (source : String) (o : Nat) :
    (positionAt source o).line = lineFeeds (charsBefore o source.toList) := by
  rw [positionAt_eq, Position.line_past, Nat.zero_add]

/-- A text of less than 2^32 units has positions of 32 bits. -/
theorem fits_positionAt {source : String} (h : utf16Length source.toList < word32) (o : Nat) :
    (positionAt source o).Fits := by
  obtain ⟨t, ht⟩ := prefix_charsBefore o source.toList
  have hline := lineFeeds_le_utf16Length (charsBefore o source.toList)
  have hcharacter := Position.character_past_le ⟨0, 0⟩ (charsBefore o source.toList)
  rw [← ht, utf16Length_append] at h
  refine ⟨?_, ?_⟩
  · rw [line_positionAt]
    omega
  · rw [positionAt_eq]
    simp only at hcharacter
    omega

theorem positionAt_mono (source : String) {o p : Nat} (h : o ≤ p) :
    (positionAt source o).key ≤ (positionAt source p).key := by
  rw [positionAt_eq, positionAt_eq]
  exact Position.key_past_le (charsBefore_mono h _) _

theorem positionAt_lt {source : String} {o p : Nat} (ho : Boundary source.toList o)
    (hp : Boundary source.toList p) (h : o < p) :
    (positionAt source o).key < (positionAt source p).key := by
  obtain ⟨a, b, hab, rfl⟩ := ho
  obtain ⟨a', b', hab', rfl⟩ := hp
  have hprefix := charsBefore_mono h.le source.toList
  have hne : a ≠ a' := by
    rintro rfl
    exact Nat.lt_irrefl _ h
  rw [positionAt_of_append hab, positionAt_of_append hab']
  rw [hab, charsBefore_byteLength, ← hab, hab', charsBefore_byteLength] at hprefix
  exact Position.key_past_lt hprefix hne _

theorem positionAt_of_le {source : String} {o : Nat} (h : byteLength source.toList ≤ o) :
    positionAt source o = positionAt source (byteLength source.toList) := by
  rw [positionAt_eq, positionAt_eq, charsBefore_of_le h, charsBefore_of_le (Nat.le_refl _)]

/-! ### The way back -/

/-- The number of bytes that a number of UTF-16 units takes up at the start of a line. -/
def unitsBytes : Nat → List Char → Option Nat
  | 0, _ => some 0
  | _ + 1, [] => none
  | n + 1, c :: s =>
    if c ≠ '\n' ∧ utf16Width c ≤ n + 1 then
      (unitsBytes (n + 1 - utf16Width c) s).map (c.utf8Size + ·)
    else none

/-- The byte offset of a position, if its line is there and has that many units. -/
def Position.offset? (p : Position) (source : String) : Option Nat :=
  ((Document.ofText source).lineStart? (p.line + 1)).bind fun start =>
    (dropBytes start source.toList).bind fun rest =>
      (unitsBytes p.character rest).map (start + ·)

theorem unitsBytes_append {x : List Char} (h : '\n' ∉ x) (y : List Char) :
    unitsBytes (utf16Length x) (x ++ y) = some (byteLength x) := by
  induction x with
  | nil => simp [utf16Length, unitsBytes, byteLength]
  | cons c x ih =>
    obtain ⟨hc, hx⟩ : '\n' ≠ c ∧ '\n' ∉ x := by simpa using h
    have hpos := utf16Width_pos c
    obtain ⟨n, hn⟩ : ∃ n, utf16Length (c :: x) = n + 1 :=
      ⟨utf16Width c + utf16Length x - 1, by simp only [utf16Length]; omega⟩
    have hrest : n + 1 - utf16Width c = utf16Length x := by
      rw [← hn, utf16Length]
      omega
    have hle : utf16Width c ≤ n + 1 := by
      rw [← hn, utf16Length]
      omega
    rw [hn, List.cons_append, unitsBytes, if_pos ⟨Ne.symm hc, hle⟩, hrest, ih hx, Option.map_some,
      byteLength]

theorem exists_line_front (a : List Char) :
    ∃ before x, a = before ++ x ∧ OpensLine before ∧ '\n' ∉ x := by
  have hhas : HasLine (String.ofList a) (lineFeeds a + 1) := by
    rw [HasLine, String.toList_ofList]
    omega
  obtain ⟨before, raw, after, hsplit⟩ := exists_lineSplit hhas
  rw [String.toList_ofList] at hsplit
  have hfeeds := hsplit.lineFeeds_eq
  have hnumber := hsplit.number
  have hafter : '\n' ∉ after := lineFeeds_eq_zero.mp (by omega)
  refine ⟨before, raw ++ after, by rw [hsplit.cut, List.append_assoc], hsplit.opens, ?_⟩
  simp [hsplit.inside, hafter]

theorem offset?_positionAt {source : String} {o : Nat} (h : Boundary source.toList o) :
    (positionAt source o).offset? source = some o := by
  obtain ⟨a, b, hab, rfl⟩ := h
  obtain ⟨before, x, rfl, hopens, hx⟩ := exists_line_front a
  have hsplit := lineSplit_of_opens hopens (x ++ b)
  rw [← List.append_assoc, ← hab] at hsplit
  rw [positionAt_of_append hab, Position.past_line hopens hx, Position.offset?, hsplit.lineStart?,
    Option.bind_some, hab, List.append_assoc, dropBytes_append, Option.bind_some,
    unitsBytes_append hx, Option.map_some, byteLength_append]

/-! ### Ranges -/

theorem Marker.range_of_text {m : Marker} {span : Span} (h : m.span = some span) (text : String) :
    m.range (some text) = rangeOfSpan text span := by
  simp only [range, h]

/-- Byte offsets and editor positions tell the same places apart: they are in one order, and
between characters there is a way back. No range of a span ends before it starts. -/
theorem positionAt_faithful (source : String) (hsize : utf16Length source.toList < word32) :
    (∀ o, (positionAt source o).Fits) ∧
    Monotone (fun o => (positionAt source o).key) ∧
    StrictMonoOn (fun o => (positionAt source o).key) {o | Boundary source.toList o} ∧
    (∀ o, byteLength source.toList ≤ o →
      positionAt source o = positionAt source (byteLength source.toList)) ∧
    (∀ o, Boundary source.toList o → (positionAt source o).offset? source = some o) ∧
    ∀ (m : Marker) (span : Span), m.span = some span → span.start ≤ span.stop →
      (m.range (some source)).start.key ≤ (m.range (some source)).stop.key := by
  refine ⟨fits_positionAt hsize, fun _ _ => positionAt_mono source,
    fun _ ho _ hp => positionAt_lt ho hp, fun _ => positionAt_of_le, fun _ => offset?_positionAt,
    fun m span hspan hle => ?_⟩
  rw [Marker.range_of_text hspan]
  exact positionAt_mono source hle

theorem positionAt_faithful_wide :
    utf16Length "🦀\r\né".toList < word32 ∧
      (positionAt "🦀\r\né" 4).key < (positionAt "🦀\r\né" 6).key ∧
      (positionAt "🦀\r\né" 4).offset? "🦀\r\né" = some 4 ∧
      positionAt "🦀\r\né" 100 = positionAt "🦀\r\né" 8 := by
  have hsize : utf16Length "🦀\r\né".toList < word32 := by decide +kernel
  have hcrab : Boundary "🦀\r\né".toList 4 := ⟨['🦀'], ['\r', '\n', 'é'], by decide +kernel, rfl⟩
  have hline : Boundary "🦀\r\né".toList 6 := ⟨['🦀', '\r', '\n'], ['é'], by decide +kernel, rfl⟩
  obtain ⟨-, -, hlt, hend, hback, -⟩ := positionAt_faithful "🦀\r\né" hsize
  exact ⟨hsize, hlt hcrab hline (by decide), hback 4 hcrab, hend 100 (by decide +kernel)⟩

/-- A place on a line has the line's number and as many units as there are before it. -/
theorem LineSplit.positionAt_of_prefix {source : String} {before raw after x : List Char} {n : Nat}
    (h : LineSplit source.toList n before raw after) (hx : x <+: raw) :
    positionAt source (byteLength (before ++ x)) = ⟨n - 1, utf16Length x⟩ := by
  obtain ⟨y, rfl⟩ := hx
  have hcut : source.toList = before ++ x ++ (y ++ after) := by
    rw [h.cut]
    simp
  have hin : '\n' ∉ x := fun hmem => h.inside (List.mem_append_left y hmem)
  rw [positionAt_of_append hcut, Position.past_line h.opens hin, h.number, Nat.add_sub_cancel]

/-- The finding of a located text is shown on its line, as many units after the start as are before
the first copy of the text, and over the units of the text. -/
theorem range_of_located (source needle : String) (n : Nat) (span : Span) (m : Marker)
    (hsize : utf16Length source.toList < word32)
    (hspan : (Document.ofText source).locate n needle = .span span) :
    ∃ before raw after u v, LineSplit source.toList n before raw after ∧
      FirstOccurrence needle.toList u v (dropReturn raw) ∧
      let range := ({ m with line := n, span := some span }.diagnostic (some source)).range
      range = ⟨⟨n - 1, utf16Length u⟩, ⟨n - 1, utf16Length u + utf16Length needle.toList⟩⟩ ∧
        range.start.Fits ∧ range.stop.Fits := by
  have hhas : HasLine source n := by
    by_contra hno
    rw [Document.locate_of_not_hasLine hno] at hspan
    cases hspan
  obtain ⟨before, raw, after, hsplit⟩ := exists_lineSplit hhas
  obtain ⟨u, v, hfirst, rfl⟩ := hsplit.locate_eq_span.mp hspan
  have hu : u <+: raw := by
    have htext : u <+: dropReturn raw := ⟨needle.toList ++ v, by rw [hfirst.cut, List.append_assoc]⟩
    exact htext.trans (prefix_dropReturn raw)
  have huneedle : u ++ needle.toList <+: raw := by
    have htext : u ++ needle.toList <+: dropReturn raw := ⟨v, hfirst.cut.symm⟩
    exact htext.trans (prefix_dropReturn raw)
  have hstart := hsplit.positionAt_of_prefix hu
  have hstop : positionAt source (byteLength (before ++ u) + byteLength needle.toList) =
      ⟨n - 1, utf16Length u + utf16Length needle.toList⟩ := by
    have hend := hsplit.positionAt_of_prefix huneedle
    rw [← List.append_assoc, byteLength_append (before ++ u), utf16Length_append] at hend
    exact hend
  refine ⟨before, raw, after, u, v, hsplit, hfirst, ?_, fits_positionAt hsize _,
    fits_positionAt hsize _⟩
  exact congrArg₂ Range.mk hstart hstop

def wideLine : String := "é\r\n 🦀 é\r\n"

/-- The crab before the located text counts twice. -/
theorem range_of_located_wide :
    utf16Length wideLine.toList < word32 ∧
      (Document.ofText wideLine).locate 2 "é" = .span ⟨10, 12⟩ ∧
      ∃ u v, FirstOccurrence ['é'] u v " 🦀 é".toList ∧ utf16Length u = 4 ∧
        ((Marker.ofKind .unmatchedStep "" 2 (some ⟨10, 12⟩) []).diagnostic (some wideLine)).range =
          ⟨⟨1, utf16Length u⟩, ⟨1, utf16Length u + 1⟩⟩ := by
  have hsize : utf16Length wideLine.toList < word32 := by decide +kernel
  have hspan : (Document.ofText wideLine).locate 2 "é" = .span ⟨10, 12⟩ := by decide +kernel
  have hline : (Document.ofText wideLine).line? 2 = some ⟨4, " 🦀 é\r".toList⟩ := by
    decide +kernel
  have hplace : positionAt wideLine 10 = ⟨1, 4⟩ := by decide +kernel
  obtain ⟨before, raw, after, u, v, hsplit, hfirst, hrange, -⟩ := range_of_located wideLine "é" 2
    ⟨10, 12⟩ (Marker.ofKind .unmatchedStep "" 2 none []) hsize hspan
  obtain rfl : raw = " 🦀 é\r".toList :=
    congrArg Line.raw (Option.some.inj (hsplit.line?.symm.trans hline))
  have htext : dropReturn " 🦀 é\r".toList = " 🦀 é".toList := by decide +kernel
  have hunits : (⟨1, 4⟩ : Position) = ⟨1, utf16Length u⟩ :=
    hplace.symm.trans (congrArg Range.start hrange)
  rw [htext] at hfirst
  exact ⟨hsize, hspan, u, v, hfirst, (congrArg Position.character hunits).symm, hrange⟩

end StepGlue
