import StepGlue.Proofs.Document

/-! What a search on a line answers, and that no byte of a document is outside of its lines.

A search answers that there is no such line only if the number is not one of a line. On a line it
finds the first copy of the text if there is one, and cuts it out at boundaries of characters that
lie within the line. -/

namespace StepGlue

/-- A span covers the first copy of a text on a line that stands behind some other text. -/
structure FoundAt (s needle before line : List Char) (p : Span) : Prop where
  slice : p.slice s = some needle
  extent : p.stop = p.start + byteLength needle
  boundary : Boundary s p.start
  behind : byteLength before ≤ p.start
  within : p.stop ≤ byteLength (before ++ line)
  first : ∀ u v, line = u ++ needle ++ v → p.start ≤ byteLength (before ++ u)

theorem FirstOccurrence.foundAt {s needle before line u v rest : List Char}
    (h : FirstOccurrence needle u v line) (hs : s = before ++ line ++ rest) :
    FoundAt s needle before line
      ⟨byteLength (before ++ u), byteLength (before ++ u) + byteLength needle⟩ where
  slice := by
    have hcut : s = (before ++ u) ++ needle ++ (v ++ rest) := by
      rw [hs, h.cut]
      simp
    rw [hcut]
    exact slice_append (before ++ u) needle (v ++ rest)
  extent := rfl
  boundary := by
    refine ⟨before ++ u, needle ++ v ++ rest, ?_, rfl⟩
    rw [hs, h.cut]
    simp
  behind := by simp
  within := by
    rw [h.cut]
    simp only [byteLength_append]
    omega
  first := by
    intro u' v' heq
    have hlen := h.first u' v' heq
    have hu : u <+: line := ⟨needle ++ v, by rw [h.cut, List.append_assoc]⟩
    have hu' : u' <+: line := ⟨needle ++ v', by rw [heq, List.append_assoc]⟩
    obtain ⟨x, hx⟩ := List.prefix_of_prefix_length_le hu hu' hlen
    simp only [← hx, byteLength_append]
    omega

/-- What a document holds from the start of a line up to the start of the next one, or to its
end. -/
def Document.stretch? (d : Document) (n : Nat) : Option (List Char) :=
  (d.lineStart? n).bind fun start =>
    (Span.mk start ((d.lineStart? (n + 1)).getD (byteLength d.text.toList))).slice d.text.toList

namespace LineSplit

variable {source needle : String} {before raw after : List Char} {n : Nat}

theorem locate_eq_span (h : LineSplit source.toList n before raw after) {p : Span} :
    (Document.ofText source).locate n needle = .span p ↔
      ∃ u v, FirstOccurrence needle.toList u v (dropReturn raw) ∧
        p = ⟨byteLength (before ++ u), byteLength (before ++ u) + byteLength needle.toList⟩ := by
  rw [Document.locate_eq_span, h.line?]
  constructor
  · rintro ⟨l, u, v, hl, hfirst, rfl⟩
    cases hl
    exact ⟨u, v, hfirst, by rw [byteLength_append]; rfl⟩
  · rintro ⟨u, v, hfirst, rfl⟩
    exact ⟨_, u, v, rfl, hfirst, by rw [byteLength_append]; rfl⟩

theorem exists_span_iff (h : LineSplit source.toList n before raw after) :
    (∃ p, (Document.ofText source).locate n needle = .span p) ↔
      needle.toList <:+: dropReturn raw := by
  constructor
  · rintro ⟨p, hp⟩
    obtain ⟨u, v, hfirst, -⟩ := h.locate_eq_span.mp hp
    exact ⟨u, v, hfirst.cut.symm⟩
  · rintro ⟨u, v, huv⟩
    obtain ⟨u', v', hfirst⟩ := exists_firstOccurrence huv.symm
    exact ⟨_, h.locate_eq_span.mpr ⟨u', v', hfirst, rfl⟩⟩

theorem stretch? (h : LineSplit source.toList n before raw after) :
    (Document.ofText source).stretch? n = some (raw ++ after.take 1) := by
  have hstop : ((Document.ofText source).lineStart? (n + 1)).getD (byteLength source.toList) =
      byteLength before + byteLength (raw ++ after.take 1) := by
    rw [h.lineStart?_succ]
    rcases h.closes with rfl | ⟨b, rfl⟩
    · rw [if_pos rfl, Option.getD_none, h.cut]
      simp
    · rw [if_neg (List.cons_ne_nil _ _), Option.getD_some]
      simp only [List.take_succ_cons, List.take_zero, byteLength_append, byteLength]
      have hsize : ('\n').utf8Size = 1 := rfl
      omega
  have hcut : source.toList = before ++ (raw ++ after.take 1) ++ after.drop 1 := by
    rw [h.cut]
    simp only [List.append_assoc, List.take_append_drop]
  have hslice := slice_append before (raw ++ after.take 1) (after.drop 1)
  rw [← hcut, ← hstop] at hslice
  rw [Document.stretch?, h.lineStart?, Option.bind_some]
  exact hslice

end LineSplit

namespace Document

theorem locate_eq_outOfRange {source needle : String} {n : Nat} :
    (ofText source).locate n needle = .outOfRange ↔ ¬HasLine source n := by
  constructor
  · intro h hhas
    obtain ⟨l, hl⟩ := exists_line? hhas
    unfold locate at h
    rw [hl] at h
    cases hfind : findText needle.toList l.text with
    | none => simp [hfind] at h
    | some i => simp [hfind] at h
  · intro h
    exact locate_of_not_hasLine h needle

theorem locate_eq_lineOnly {source needle : String} {n : Nat} (h : HasLine source n) :
    (ofText source).locate n needle = .lineOnly ↔
      ¬∃ p, (ofText source).locate n needle = .span p := by
  cases hloc : (ofText source).locate n needle with
  | span p => simp
  | lineOnly => simp
  | outOfRange => exact absurd h (locate_eq_outOfRange.mp hloc)

/-- The lines up to a given one hold what stands before it. -/
theorem stretches_before {source : String} {k : Nat} (hk : k ≤ lineFeeds source.toList) :
    ∃ before raw after pieces, LineSplit source.toList (k + 1) before raw after ∧
      (List.range k).mapM (fun i => (ofText source).stretch? (i + 1)) = some pieces ∧
      pieces.flatten = before := by
  induction k with
  | zero => exact ⟨_, _, _, [], lineSplit_of_opens (.inl rfl) source.toList, rfl, rfl⟩
  | succ k ih =>
    obtain ⟨before, raw, after, pieces, hsplit, hpieces, hflat⟩ := ih (by omega)
    have hfeeds := hsplit.lineFeeds_eq
    have hnumber := hsplit.number
    rcases hsplit.closes with rfl | ⟨b, rfl⟩
    · simp only [lineFeeds, List.count_nil] at hfeeds hnumber hk
      omega
    · refine ⟨_, _, _, pieces ++ [raw ++ ['\n']], hsplit.next, ?_, ?_⟩
      · rw [List.range_succ, List.mapM_append, hpieces]
        simp [hsplit.stretch?]
      · simp [hflat]

theorem stretches_flatten (source : String) :
    ∃ pieces, (List.range (ofText source).lineCount).mapM
        (fun i => (ofText source).stretch? (i + 1)) = some pieces ∧
      pieces.flatten = source.toList := by
  have hcount : (ofText source).lineCount = lineFeeds source.toList + 1 := by
    simp [lineCount, ofText, length_lineFeedOffsets]
  obtain ⟨before, raw, after, pieces, hsplit, hpieces, hflat⟩ :=
    stretches_before (Nat.le_refl (lineFeeds source.toList))
  have hfeeds := hsplit.lineFeeds_eq
  have hnumber := hsplit.number
  -- nothing is behind the last line, since all line feeds are before it
  rcases hsplit.closes with rfl | ⟨b, rfl⟩
  · refine ⟨pieces ++ [raw], ?_, ?_⟩
    · rw [hcount, List.range_succ, List.mapM_append, hpieces]
      simp [hsplit.stretch?]
    · rw [List.flatten_append, hflat, hsplit.cut]
      simp
  · simp only [lineFeeds, List.count_cons_self] at hfeeds hnumber
    omega

/-- A search on a line is exact: which of its three answers it gives is told by the number of the
line and by the line's text alone. And the lines of a document make up its text. -/
theorem locate_exact (source needle : String) (n : Nat) :
    let doc := ofText source
    (doc.locate n needle = .outOfRange ↔ n = 0 ∨ lineFeeds source.toList + 1 < n) ∧
    (HasLine source n → ∃ before raw after, LineSplit source.toList n before raw after ∧
      ((∃ p, doc.locate n needle = .span p) ↔ needle.toList <:+: dropReturn raw) ∧
      (doc.locate n needle = .lineOnly ↔ ¬needle.toList <:+: dropReturn raw) ∧
      ∀ p, doc.locate n needle = .span p →
        FoundAt source.toList needle.toList before (dropReturn raw) p) ∧
    ∃ pieces, (List.range doc.lineCount).mapM (fun i => doc.stretch? (i + 1)) = some pieces ∧
      pieces.flatten = source.toList := by
  intro doc
  refine ⟨?_, fun hhas => ?_, stretches_flatten source⟩
  · rw [locate_eq_outOfRange, HasLine]
    omega
  · obtain ⟨before, raw, after, hsplit⟩ := exists_lineSplit hhas
    have hspan : (∃ p, doc.locate n needle = .span p) ↔ needle.toList <:+: dropReturn raw :=
      hsplit.exists_span_iff
    refine ⟨before, raw, after, hsplit, hspan, ?_, fun p hp => ?_⟩
    · rw [locate_eq_lineOnly hhas, hspan]
    · obtain ⟨u, v, hfirst, rfl⟩ := hsplit.locate_eq_span.mp hp
      obtain ⟨rest, hrest⟩ := hsplit.exists_rest
      exact hfirst.foundAt hrest

/-- Of two carriage returns before a line feed, the first one belongs to the line. -/
theorem locate_exact_returns :
    HasLine "é\r\r\n" 1 ∧
      (∃ p, (ofText "é\r\r\n").locate 1 "\r" = .span p ∧
        FoundAt "é\r\r\n".toList ['\r'] [] ['é', '\r'] p) ∧
      (ofText "é\r\r\n").locate 1 "\r\r" = .lineOnly := by
  have hhas : HasLine "é\r\r\n" 1 := ⟨by decide, by decide +kernel⟩
  have hline : (ofText "é\r\r\n").line? 1 = some ⟨0, ['é', '\r', '\r']⟩ := by decide +kernel
  have hparts : ∀ {before raw after : List Char},
      LineSplit "é\r\r\n".toList 1 before raw after → before = [] ∧ raw = ['é', '\r', '\r'] := by
    intro before raw after hsplit
    have heq := Option.some.inj (hsplit.line?.symm.trans hline)
    exact ⟨byteLength_eq_zero.mp (congrArg Line.start heq), congrArg Line.raw heq⟩
  obtain ⟨before, raw, after, hsplit, hspan, -, hfound⟩ := (locate_exact "é\r\r\n" "\r" 1).2.1 hhas
  obtain ⟨before', raw', after', hsplit', -, honly, -⟩ :=
    (locate_exact "é\r\r\n" "\r\r" 1).2.1 hhas
  obtain ⟨rfl, rfl⟩ := hparts hsplit
  obtain ⟨rfl, rfl⟩ := hparts hsplit'
  obtain ⟨p, hp⟩ := hspan.mpr (by decide +kernel)
  exact ⟨hhas, ⟨p, hp, hfound p hp⟩, honly.mpr (by decide +kernel)⟩

end Document

end StepGlue
