import StepGlue.Text.Lines

/-! Byte offsets of a text.

An offset splits a text into the characters that start before it and the others. The first part
tells all that is ever asked about an offset: it grows with the offset, and at a boundary between
two characters it is as long as the offset. -/

namespace StepGlue

@[simp] theorem byteLength_append (a b : List Char) :
    byteLength (a ++ b) = byteLength a + byteLength b := by
  induction a with
  | nil => simp [byteLength]
  | cons c a ih =>
    simp only [List.cons_append, byteLength, ih]
    omega

theorem byteLength_eq_zero {s : List Char} : byteLength s = 0 ↔ s = [] := by
  cases s with
  | nil => simp [byteLength]
  | cons c s =>
    have hpos := c.utf8Size_pos
    simp only [byteLength, List.cons_ne_nil, iff_false]
    omega

theorem exists_byteLength_cons (c : Char) (s : List Char) :
    ∃ n, byteLength (c :: s) = n + 1 ∧ c.utf8Size ≤ n + 1 ∧
      n + 1 - c.utf8Size = byteLength s := by
  have hpos := c.utf8Size_pos
  simp only [byteLength]
  exact ⟨c.utf8Size + byteLength s - 1, by omega, by omega, by omega⟩

theorem dropBytes_append (a s : List Char) : dropBytes (byteLength a) (a ++ s) = some s := by
  induction a with
  | nil => rw [byteLength, List.nil_append, dropBytes]
  | cons c a ih =>
    obtain ⟨n, hn, hle, hrest⟩ := exists_byteLength_cons c a
    rw [hn, List.cons_append, dropBytes, if_pos hle, hrest, ih]

theorem takeBytes_append (a s : List Char) : takeBytes (byteLength a) (a ++ s) = some a := by
  induction a with
  | nil => rw [byteLength, takeBytes]
  | cons c a ih =>
    obtain ⟨n, hn, hle, hrest⟩ := exists_byteLength_cons c a
    rw [hn, List.cons_append, takeBytes, if_pos hle, hrest, ih, Option.map_some]

theorem slice_append (a t b : List Char) :
    (Span.mk (byteLength a) (byteLength a + byteLength t)).slice (a ++ t ++ b) = some t := by
  unfold Span.slice
  rw [List.append_assoc, dropBytes_append, Option.bind_some, Nat.add_sub_cancel_left,
    takeBytes_append]

theorem exists_of_dropBytes {n : Nat} {s rest : List Char} (h : dropBytes n s = some rest) :
    ∃ a, s = a ++ rest ∧ byteLength a = n := by
  induction s generalizing n with
  | nil =>
    cases n with
    | zero =>
      rw [dropBytes] at h
      exact ⟨[], Option.some.inj h, rfl⟩
    | succ n => cases h
  | cons c s ih =>
    cases n with
    | zero =>
      rw [dropBytes] at h
      exact ⟨[], Option.some.inj h, rfl⟩
    | succ n =>
      rw [dropBytes] at h
      split at h
      · next hle =>
        obtain ⟨a, rfl, ha⟩ := ih h
        exact ⟨c :: a, rfl, by simp only [byteLength]; omega⟩
      · cases h

theorem prefix_of_takeBytes {n : Nat} {s t : List Char} (h : takeBytes n s = some t) : t <+: s := by
  induction s generalizing n t with
  | nil =>
    cases n with
    | zero =>
      rw [takeBytes] at h
      exact Option.some.inj h ▸ List.nil_prefix
    | succ n => cases h
  | cons c s ih =>
    cases n with
    | zero =>
      rw [takeBytes] at h
      exact Option.some.inj h ▸ List.nil_prefix
    | succ n =>
      rw [takeBytes] at h
      split at h
      · obtain ⟨t, ht, rfl⟩ := Option.map_eq_some_iff.mp h
        exact List.cons_prefix_cons.mpr ⟨rfl, ih ht⟩
      · cases h

/-- The text of a span stands where the span starts. -/
theorem exists_of_slice {p : Span} {s t : List Char} (h : p.slice s = some t) :
    ∃ a b, s = a ++ t ++ b ∧ byteLength a = p.start := by
  obtain ⟨rest, hdrop, htake⟩ := Option.bind_eq_some_iff.mp h
  obtain ⟨a, rfl, ha⟩ := exists_of_dropBytes hdrop
  obtain ⟨b, rfl⟩ := prefix_of_takeBytes htake
  exact ⟨a, b, by rw [List.append_assoc], ha⟩

/-- An offset between two characters, or at an end of the text. -/
def Boundary (s : List Char) (o : Nat) : Prop := ∃ a b, s = a ++ b ∧ byteLength a = o

/-! ### The characters before an offset -/

/-- The characters that start before an offset. -/
def charsBefore : Nat → List Char → List Char
  | _, [] => []
  | 0, _ :: _ => []
  | n + 1, c :: s => c :: charsBefore (n + 1 - c.utf8Size) s

@[simp] theorem charsBefore_zero (s : List Char) : charsBefore 0 s = [] := by
  cases s with
  | nil => rfl
  | cons c s => rfl

theorem charsBefore_append {a : List Char} {o : Nat} (h : o ≤ byteLength a) (b : List Char) :
    charsBefore o (a ++ b) = charsBefore o a := by
  induction a generalizing o with
  | nil =>
    obtain rfl : o = 0 := by simpa [byteLength] using h
    simp
  | cons c a ih =>
    cases o with
    | zero => simp
    | succ n =>
      have hrest : n + 1 - c.utf8Size ≤ byteLength a := by
        simp only [byteLength] at h
        omega
      simp only [List.cons_append, charsBefore, ih hrest]

theorem charsBefore_of_le {s : List Char} {o : Nat} (h : byteLength s ≤ o) :
    charsBefore o s = s := by
  induction s generalizing o with
  | nil => rfl
  | cons c s ih =>
    have hpos := c.utf8Size_pos
    simp only [byteLength] at h
    obtain ⟨n, rfl⟩ : ∃ n, o = n + 1 := ⟨o - 1, by omega⟩
    rw [charsBefore, ih (by omega)]

theorem charsBefore_byteLength (a b : List Char) : charsBefore (byteLength a) (a ++ b) = a := by
  rw [charsBefore_append (Nat.le_refl _), charsBefore_of_le (Nat.le_refl _)]

theorem prefix_charsBefore (o : Nat) (s : List Char) : charsBefore o s <+: s := by
  induction s generalizing o with
  | nil => exact List.prefix_rfl
  | cons c s ih =>
    cases o with
    | zero => simp
    | succ n => exact List.cons_prefix_cons.mpr ⟨rfl, ih _⟩

theorem charsBefore_mono {o p : Nat} (h : o ≤ p) (s : List Char) :
    charsBefore o s <+: charsBefore p s := by
  induction s generalizing o p with
  | nil => exact List.prefix_rfl
  | cons c s ih =>
    cases o with
    | zero => simp
    | succ n =>
      obtain ⟨m, rfl⟩ : ∃ m, p = m + 1 := ⟨p - 1, by omega⟩
      exact List.cons_prefix_cons.mpr ⟨rfl, ih (by omega)⟩

/-! ### Line feeds -/

@[simp] theorem lineFeeds_append (a b : List Char) :
    lineFeeds (a ++ b) = lineFeeds a + lineFeeds b :=
  List.count_append

theorem lineFeeds_eq_zero {s : List Char} : lineFeeds s = 0 ↔ '\n' ∉ s := List.count_eq_zero

theorem lineFeeds_mono {a b : List Char} (h : a <+: b) : lineFeeds a ≤ lineFeeds b :=
  h.sublist.count_le '\n'

/-- A text is one line, or a line with its line feed and a rest. -/
theorem splitLines_cases (s : List Char) : (splitLines s = [s] ∧ '\n' ∉ s) ∨
    ∃ l r, s = l ++ '\n' :: r ∧ '\n' ∉ l ∧ splitLines s = l :: splitLines r := by
  induction s with
  | nil => exact .inl ⟨rfl, by simp⟩
  | cons c s ih =>
    rw [splitLines]
    by_cases hc : c = '\n'
    · subst hc
      exact .inr ⟨[], s, rfl, by simp, if_pos rfl⟩
    · rw [if_neg hc]
      obtain ⟨hs, hfeed⟩ | ⟨l, r, rfl, hfeed, hs⟩ := ih
      · exact .inl ⟨by rw [hs], by simp [Ne.symm hc, hfeed]⟩
      · exact .inr ⟨c :: l, r, rfl, by simp [Ne.symm hc, hfeed], by rw [hs]⟩

theorem length_lineFeedOffsets (o : Nat) (s : List Char) :
    (lineFeedOffsets o s).length = lineFeeds s := by
  induction s generalizing o with
  | nil => rfl
  | cons c s ih =>
    by_cases hc : c = '\n'
    · simp [lineFeedOffsets, hc, ih, lineFeeds]
    · simp [lineFeedOffsets, hc, ih, lineFeeds]

theorem lineFeedOffsets_append (o : Nat) (a b : List Char) :
    lineFeedOffsets o (a ++ b) = lineFeedOffsets o a ++ lineFeedOffsets (o + byteLength a) b := by
  induction a generalizing o with
  | nil => simp [lineFeedOffsets, byteLength]
  | cons c a ih =>
    have hsum : o + c.utf8Size + byteLength a = o + byteLength (c :: a) := by
      simp only [byteLength]
      omega
    by_cases hc : c = '\n'
    · simp only [List.cons_append, lineFeedOffsets, if_pos hc, ih, hsum]
    · simp only [List.cons_append, lineFeedOffsets, if_neg hc, ih, hsum]

theorem getElem?_lineFeedOffsets (o : Nat) (a b : List Char) :
    (lineFeedOffsets o (a ++ '\n' :: b))[lineFeeds a]? = some (o + byteLength a) := by
  have hlen := length_lineFeedOffsets o a
  rw [lineFeedOffsets_append, List.getElem?_append_right (Nat.le_of_eq hlen), hlen, Nat.sub_self]
  rfl

theorem le_of_mem_lineFeedOffsets {o x : Nat} {s : List Char} (h : x ∈ lineFeedOffsets o s) :
    o ≤ x := by
  induction s generalizing o with
  | nil => cases h
  | cons c s ih =>
    by_cases hc : c = '\n'
    · rcases List.mem_cons.mp (by simpa [lineFeedOffsets, hc] using h) with rfl | hx
      · exact Nat.le_refl _
      · have hh := ih hx
        omega
    · have hh := ih (by simpa [lineFeedOffsets, hc] using h)
      omega

theorem lineFeedOffsets_pairwise (o : Nat) (s : List Char) :
    (lineFeedOffsets o s).Pairwise (· < ·) := by
  induction s generalizing o with
  | nil => exact List.Pairwise.nil
  | cons c s ih =>
    by_cases hc : c = '\n'
    · subst hc
      refine List.pairwise_cons.mpr ⟨fun x hx => ?_, ih _⟩
      have hle := le_of_mem_lineFeedOffsets hx
      have hpos := ('\n').utf8Size_pos
      omega
    · simpa [lineFeedOffsets, hc] using ih _

theorem findIdx_of_forall_le {o : Nat} {xs : List Nat} (h : ∀ x ∈ xs, o ≤ x) :
    xs.findIdx (o ≤ ·) = 0 := by
  cases xs with
  | nil => rfl
  | cons x xs => simp [List.findIdx_cons, h x List.mem_cons_self]

/-- A search among the offsets finds out how many line feeds there are before a place. -/
theorem findIdx_lineFeedOffsets (k o : Nat) (s : List Char) :
    (lineFeedOffsets k s).findIdx (k + o ≤ ·) = lineFeeds (charsBefore o s) := by
  induction s generalizing k o with
  | nil => rfl
  | cons c s ih =>
    cases o with
    | zero => exact findIdx_of_forall_le fun x hx => le_of_mem_lineFeedOffsets hx
    | succ n =>
      have hrest : (lineFeedOffsets (k + c.utf8Size) s).findIdx (k + (n + 1) ≤ ·) =
          lineFeeds (charsBefore (n + 1 - c.utf8Size) s) := by
        by_cases hle : c.utf8Size ≤ n + 1
        · have hsum : k + c.utf8Size + (n + 1 - c.utf8Size) = k + (n + 1) := by omega
          rw [← hsum]
          exact ih _ _
        · -- the offset lies inside of the character, so every later line feed is behind it
          have hzero : n + 1 - c.utf8Size = 0 := by omega
          rw [hzero, charsBefore_zero]
          refine findIdx_of_forall_le fun x hx => ?_
          have hh := le_of_mem_lineFeedOffsets hx
          omega
      by_cases hc : c = '\n'
      · have hlt : ¬k + (n + 1) ≤ k := by omega
        simp only [lineFeedOffsets, if_pos hc, List.findIdx_cons, hlt, decide_false, cond_false,
          hrest]
        simp [charsBefore, lineFeeds, hc]
      · simp only [lineFeedOffsets, if_neg hc, hrest]
        simp [charsBefore, lineFeeds, hc]

namespace LineMap

theorem lineOf_eq (s : List Char) (o : Nat) :
    (ofText s).lineOf o = lineFeeds (charsBefore o s) + 1 := by
  have hh := findIdx_lineFeedOffsets 0 o s
  rw [Nat.zero_add] at hh
  simp only [lineOf, ofText, hh]

theorem lineOf_byteLength (a s : List Char) :
    (ofText (a ++ s)).lineOf (byteLength a) = lineFeeds a + 1 := by
  rw [lineOf_eq, charsBefore_byteLength]

/-- The line feeds before a place are the first ones of the list, so a search by halving ends at the
same line. -/
theorem lt_iff_of_getElem? {s : List Char} {i x : Nat} (h : (ofText s).breaks[i]? = some x)
    (o : Nat) : x < o ↔ i + 1 < (ofText s).lineOf o := by
  obtain ⟨hi, hx⟩ := List.getElem?_eq_some_iff.mp h
  simp only [ofText] at hi hx
  simp only [ofText, lineOf, Nat.add_lt_add_iff_right]
  constructor
  · intro hlt
    refine Nat.lt_of_not_le fun hle => ?_
    have hstop := Nat.lt_of_le_of_lt hle hi
    have hfound := List.findIdx_getElem (w := hstop)
    rcases Nat.lt_or_eq_of_le hle with hbefore | heq
    · have hasc := List.pairwise_iff_getElem.mp (lineFeedOffsets_pairwise 0 s) _ _ hstop hi hbefore
      simp only [decide_eq_true_eq] at hfound
      omega
    · simp only [heq, hx, decide_eq_true_eq] at hfound
      omega
  · intro hlt
    have hnot := List.not_of_lt_findIdx hlt
    simp only [hx, decide_eq_false_iff_not] at hnot
    omega

end LineMap

end StepGlue
