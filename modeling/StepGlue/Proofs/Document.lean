import Mathlib.Data.List.TakeWhile
import StepGlue.Document
import StepGlue.Proofs.Text.Offsets

/-! Lines of a document, and where a text stands on them.

A line is looked up by its number, and a text by its first occurrence on the line. Offsets count
bytes of the whole document, so a span found on a line cuts the text out of the document. -/

namespace StepGlue

/-- A text has a line for every line feed, and one more. -/
def HasLine (source : String) (n : Nat) : Prop := 1 ≤ n ∧ n ≤ lineFeeds source.toList + 1

/-! ### Occurrences -/

/-- A text stands on a line between two other ones, and nowhere before. -/
structure FirstOccurrence (needle before after s : List Char) : Prop where
  cut : s = before ++ needle ++ after
  first : ∀ u v, s = u ++ needle ++ v → before.length ≤ u.length

theorem exists_firstOccurrence {needle u v s : List Char} (h : s = u ++ needle ++ v) :
    ∃ before after, FirstOccurrence needle before after s := by
  induction u generalizing s with
  | nil => exact ⟨[], v, h, fun _ _ _ => Nat.zero_le _⟩
  | cons c u ih =>
    obtain ⟨before, after, hcut, hfirst⟩ := ih rfl
    by_cases hfront : ∃ w, s = needle ++ w
    · obtain ⟨w, hw⟩ := hfront
      exact ⟨[], w, hw, fun _ _ _ => Nat.zero_le _⟩
    · refine ⟨c :: before, after, by rw [h, List.cons_append, List.cons_append, hcut]; rfl, ?_⟩
      intro u' v' heq
      cases u' with
      | nil => exact absurd ⟨v', heq⟩ hfront
      | cons d u' =>
        rw [h] at heq
        exact Nat.succ_le_succ (hfirst u' v' (List.cons.inj heq).2)

theorem findText_of_firstOccurrence {needle before after s : List Char}
    (h : FirstOccurrence needle before after s) :
    findText needle s = some (byteLength before) := by
  induction before generalizing s with
  | nil =>
    have hs : s = needle ++ after := h.cut
    cases s with
    | nil => simp [findText, (List.append_eq_nil_iff.mp hs.symm).1, byteLength]
    | cons c s =>
      have hfront : needle.isPrefixOf (c :: s) = true :=
        List.isPrefixOf_iff_prefix.mpr ⟨after, hs.symm⟩
      rw [findText, if_pos hfront, byteLength]
  | cons c before ih =>
    obtain ⟨rfl, hfirst⟩ := h
    have hrest : FirstOccurrence needle before after (before ++ needle ++ after) := by
      refine ⟨rfl, fun u v heq => ?_⟩
      exact Nat.le_of_succ_le_succ (hfirst (c :: u) v (congrArg (c :: ·) heq))
    have hfront : ¬ needle.isPrefixOf (c :: (before ++ needle ++ after)) = true := by
      intro hp
      obtain ⟨v, hv⟩ := List.isPrefixOf_iff_prefix.mp hp
      have hle := hfirst [] v hv.symm
      simp at hle
    rw [List.cons_append, List.cons_append, findText, if_neg hfront, ih hrest, Option.map_some,
      byteLength]

theorem occurs_of_findText {needle s : List Char} {i : Nat} (h : findText needle s = some i) :
    ∃ u v, s = u ++ needle ++ v := by
  induction s generalizing i with
  | nil =>
    cases needle with
    | nil => exact ⟨[], [], rfl⟩
    | cons c needle => cases h
  | cons c s ih =>
    rw [findText] at h
    split at h
    · next hfront =>
      obtain ⟨v, hv⟩ := List.isPrefixOf_iff_prefix.mp hfront
      exact ⟨[], v, hv.symm⟩
    · obtain ⟨j, hj, -⟩ := Option.map_eq_some_iff.mp h
      obtain ⟨u, v, rfl⟩ := ih hj
      exact ⟨c :: u, v, rfl⟩

theorem findText_eq_some {needle s : List Char} {i : Nat} :
    findText needle s = some i ↔
      ∃ before after, FirstOccurrence needle before after s ∧ i = byteLength before := by
  constructor
  · intro h
    obtain ⟨u, v, huv⟩ := occurs_of_findText h
    obtain ⟨before, after, hfirst⟩ := exists_firstOccurrence huv
    rw [findText_of_firstOccurrence hfirst] at h
    exact ⟨before, after, hfirst, (Option.some.inj h).symm⟩
  · rintro ⟨before, after, hfirst, rfl⟩
    exact findText_of_firstOccurrence hfirst

/-! ### Lines -/

/-- A line can start behind a text that is empty or ends with a line feed. -/
def OpensLine (before : List Char) : Prop := before = [] ∨ ∃ a, before = a ++ ['\n']

/-- A line of a text with its one-based number, between what stands before and behind it. -/
structure LineSplit (s : List Char) (n : Nat) (before raw after : List Char) : Prop where
  cut : s = before ++ raw ++ after
  number : n = lineFeeds before + 1
  opens : OpensLine before
  inside : '\n' ∉ raw
  closes : after = [] ∨ ∃ b, after = '\n' :: b

theorem lineSplit_of_opens {before : List Char} (h : OpensLine before) (rest : List Char) :
    LineSplit (before ++ rest) (lineFeeds before + 1) before (rest.takeWhile (· ≠ '\n'))
      (rest.dropWhile (· ≠ '\n')) where
  cut := by rw [List.append_assoc, List.takeWhile_append_dropWhile]
  number := rfl
  opens := h
  inside hmem := by simpa using List.mem_takeWhile_imp hmem
  closes := by
    cases hrest : rest.dropWhile (· ≠ '\n') with
    | nil => exact .inl rfl
    | cons c b =>
      have hne : rest.dropWhile (· ≠ '\n') ≠ [] := by
        rw [hrest]
        exact List.cons_ne_nil c b
      have hhead := List.head_dropWhile_not (· ≠ '\n') hne
      simp only [hrest, List.head_cons, decide_eq_false_iff_not, not_not] at hhead
      exact .inr ⟨b, by rw [hhead]⟩

theorem prefix_dropReturn (s : List Char) : dropReturn s <+: s := by
  unfold dropReturn
  split
  · exact List.dropLast_prefix s
  · exact List.prefix_rfl

namespace LineSplit

variable {s before raw after : List Char} {n : Nat}

theorem lineFeeds_eq (h : LineSplit s n before raw after) :
    lineFeeds s = lineFeeds before + lineFeeds after := by
  have hraw := lineFeeds_eq_zero.mpr h.inside
  rw [h.cut, lineFeeds_append, lineFeeds_append, hraw, Nat.add_zero]

theorem next {b : List Char} (h : LineSplit s n before raw ('\n' :: b)) :
    LineSplit s (n + 1) (before ++ raw ++ ['\n']) (b.takeWhile (· ≠ '\n'))
      (b.dropWhile (· ≠ '\n')) := by
  have hnumber : n + 1 = lineFeeds (before ++ raw ++ ['\n']) + 1 := by
    have hraw := lineFeeds_eq_zero.mpr h.inside
    rw [lineFeeds_append, lineFeeds_append, hraw, h.number]
    rfl
  have hcut : s = before ++ raw ++ ['\n'] ++ b := by
    rw [h.cut]
    simp
  rw [hnumber, hcut]
  exact lineSplit_of_opens (.inr ⟨before ++ raw, rfl⟩) b

theorem lineStart? {source : String} (h : LineSplit source.toList n before raw after) :
    (Document.ofText source).lineStart? n = some (byteLength before) := by
  rw [h.number]
  rcases h.opens with rfl | ⟨a, rfl⟩
  · rfl
  · have hcut : source.toList = a ++ '\n' :: (raw ++ after) := by
      rw [h.cut]
      simp
    have hfeed := getElem?_lineFeedOffsets 0 a (raw ++ after)
    rw [← hcut, Nat.zero_add] at hfeed
    have hnumber : lineFeeds (a ++ ['\n']) = lineFeeds a + 1 := by
      rw [lineFeeds_append]
      rfl
    simp only [Document.lineStart?, Document.ofText, hnumber, List.getElem?_cons_succ,
      List.getElem?_map, hfeed, Option.map_some, byteLength_append]
    rfl

theorem lineStart?_succ {source : String} (h : LineSplit source.toList n before raw after) :
    (Document.ofText source).lineStart? (n + 1) =
      if after = [] then none else some (byteLength (before ++ raw) + 1) := by
  rcases h.closes with rfl | ⟨b, rfl⟩
  · have hfeeds := h.lineFeeds_eq
    have hnumber := h.number
    simp only [lineFeeds, List.count_nil] at hfeeds hnumber
    simp only [Document.lineStart?, Document.ofText, if_pos, List.getElem?_eq_none_iff,
      List.length_cons, List.length_map, length_lineFeedOffsets, lineFeeds]
    omega
  · rw [h.next.lineStart?, if_neg (List.cons_ne_nil _ _)]
    simp only [byteLength_append]
    rfl

theorem lineEnd_eq {source : String} (h : LineSplit source.toList n before raw after) :
    (Document.ofText source).lineEnd n = byteLength before + byteLength raw := by
  rw [Document.lineEnd, h.lineStart?_succ, ← byteLength_append]
  by_cases hafter : after = []
  · rw [if_pos hafter]
    change byteLength source.toList = _
    rw [h.cut, hafter, List.append_nil]
  · rw [if_neg hafter]
    rfl

theorem line? {source : String} (h : LineSplit source.toList n before raw after) :
    (Document.ofText source).line? n = some ⟨byteLength before, raw⟩ := by
  have hslice := slice_append before raw after
  rw [← h.cut, ← h.lineEnd_eq] at hslice
  rw [Document.line?, h.lineStart?, Option.bind_some]
  exact congrArg (Option.map (Line.mk (byteLength before))) hslice

theorem exists_rest (h : LineSplit s n before raw after) :
    ∃ rest, s = before ++ dropReturn raw ++ rest := by
  obtain ⟨c, hc⟩ := prefix_dropReturn raw
  have hraw : raw ++ after = dropReturn raw ++ (c ++ after) := by rw [← List.append_assoc, hc]
  exact ⟨c ++ after, by rw [h.cut, List.append_assoc, List.append_assoc, hraw]⟩

end LineSplit

theorem exists_lineSplit {source : String} {n : Nat} (h : HasLine source n) :
    ∃ before raw after, LineSplit source.toList n before raw after := by
  obtain ⟨k, rfl⟩ : ∃ k, n = k + 1 := ⟨n - 1, by have := h.1; omega⟩
  induction k with
  | zero => exact ⟨_, _, _, lineSplit_of_opens (.inl rfl) source.toList⟩
  | succ k ih =>
    obtain ⟨hpos, hle⟩ := h
    obtain ⟨before, raw, after, hsplit⟩ := ih ⟨by omega, by omega⟩
    have hfeeds := hsplit.lineFeeds_eq
    have hnumber := hsplit.number
    rcases hsplit.closes with rfl | ⟨b, rfl⟩
    · simp only [lineFeeds, List.count_nil] at hfeeds hnumber hle
      omega
    · exact ⟨_, _, _, hsplit.next⟩

def Line.spanAfter (l : Line) (before text : List Char) : Span :=
  ⟨l.start + byteLength before, l.start + byteLength before + byteLength text⟩

namespace Document

theorem lineStart?_eq_none {source : String} {n : Nat} :
    (ofText source).lineStart? n = none ↔ ¬HasLine source n := by
  unfold HasLine
  cases n with
  | zero => simp [lineStart?]
  | succ n =>
    simp only [lineStart?, ofText, List.getElem?_eq_none_iff, List.length_cons, List.length_map,
      length_lineFeedOffsets]
    omega

theorem line?_eq_none {source : String} {n : Nat} :
    (ofText source).line? n = none ↔ ¬HasLine source n := by
  constructor
  · intro hnone hhas
    obtain ⟨before, raw, after, hsplit⟩ := exists_lineSplit hhas
    rw [hsplit.line?] at hnone
    cases hnone
  · intro hno
    rw [line?, lineStart?_eq_none.mpr hno, Option.bind_none]

theorem exists_line? {source : String} {n : Nat} (h : HasLine source n) :
    ∃ l, (ofText source).line? n = some l := by
  obtain ⟨before, raw, after, hsplit⟩ := exists_lineSplit h
  exact ⟨_, hsplit.line?⟩

theorem locate_of_not_hasLine {source : String} {n : Nat} (h : ¬HasLine source n)
    (needle : String) : (ofText source).locate n needle = .outOfRange := by
  unfold locate
  rw [line?_eq_none.mpr h]

theorem exists_of_line? {source : String} {n : Nat} {l : Line}
    (h : (ofText source).line? n = some l) :
    ∃ a b, source.toList = a ++ l.text ++ b ∧ l.start = byteLength a := by
  have hhas : HasLine source n := by
    by_contra hno
    rw [line?_eq_none.mpr hno] at h
    cases h
  obtain ⟨before, raw, after, hsplit⟩ := exists_lineSplit hhas
  obtain rfl : ⟨byteLength before, raw⟩ = l := Option.some.inj (hsplit.line?.symm.trans h)
  obtain ⟨rest, hrest⟩ := hsplit.exists_rest
  exact ⟨before, rest, hrest, rfl⟩

theorem locate_eq_span {source needle : String} {n : Nat} {p : Span} :
    (ofText source).locate n needle = .span p ↔
      ∃ l before after, (ofText source).line? n = some l ∧
        FirstOccurrence needle.toList before after l.text ∧
        p = l.spanAfter before needle.toList := by
  unfold locate
  cases hl : (ofText source).line? n with
  | none => simp
  | some l =>
    dsimp only
    cases hfind : findText needle.toList l.text with
    | none =>
      constructor
      · intro h
        cases h
      · rintro ⟨l', before, after, hl', hfirst, -⟩
        cases hl'
        rw [findText_of_firstOccurrence hfirst] at hfind
        cases hfind
    | some i =>
      constructor
      · intro h
        cases h
        obtain ⟨before, after, hfirst, rfl⟩ := findText_eq_some.mp hfind
        exact ⟨l, before, after, rfl, hfirst, rfl⟩
      · rintro ⟨l', before, after, hl', hfirst, rfl⟩
        cases hl'
        rw [findText_of_firstOccurrence hfirst] at hfind
        cases hfind
        rfl

/-- What is located is a copy of the text. -/
theorem slice_of_locate {source needle : String} {n : Nat} {p : Span}
    (h : (ofText source).locate n needle = .span p) :
    p.slice source.toList = some needle.toList := by
  obtain ⟨l, before, after, hl, hfirst, rfl⟩ := locate_eq_span.mp h
  obtain ⟨a, b, hcut, hstart⟩ := exists_of_line? hl
  have hsource : source.toList = (a ++ before) ++ needle.toList ++ (after ++ b) := by
    rw [hcut, hfirst.cut]
    simp
  have hslice := slice_append (a ++ before) needle.toList (after ++ b)
  rw [← hsource, byteLength_append, ← hstart] at hslice
  exact hslice

end Document

end StepGlue
