import StepGlue.Proofs.Marker.Verdict

/-! Where the markers of a step stand.

A marker of a step is placed by looking for the text of the step on its line, so it covers the
first copy of the text there. This is the text behind the keyword only if there is none before: the
keyword may hold one, or a copy may begin in the keyword and end behind it. -/

namespace StepGlue

/-- A line with an indentation, a keyword and a space before the text of a step. -/
structure StepLine (line indent keyword text trail : List Char) : Prop where
  indented : ∀ c ∈ indent, isBlank c = true
  written : line = indent ++ keyword ++ ' ' :: (text ++ trail)
  trailing : ∀ c ∈ trail, isBlank c = true

/-- A marker covers the first copy of a step's text on the line of the step, and has no span if
there is none. On a line with an indentation, a keyword and a space before the text there is one,
and it is the one behind the keyword exactly if no other one begins before it. -/
structure Placed (source : String) (s : Step) (m : Marker) : Prop where
  first : ∀ p, m.span = some p ↔ ∃ l before after,
    (Document.ofText source).line? s.line = some l ∧
      FirstOccurrence s.text.toList before after l.text ∧ p = l.spanAfter before s.text.toList
  covers : ∀ p, m.span = some p → p.slice source.toList = some s.text.toList
  spanned : ∀ l indent keyword trail, (Document.ofText source).line? s.line = some l →
    StepLine l.text indent keyword s.text.toList trail → ∃ before after,
      FirstOccurrence s.text.toList before after l.text ∧
        m.span = some (l.spanAfter before s.text.toList)
  behind : ∀ l indent keyword trail, (Document.ofText source).line? s.line = some l →
    StepLine l.text indent keyword s.text.toList trail →
    (m.span = some (l.spanAfter (indent ++ keyword ++ [' ']) s.text.toList) ↔
      ∀ u v, l.text = u ++ s.text.toList ++ v → (indent ++ keyword).length < u.length)

theorem span_of_markAt {doc : Document} {line : Nat} {text : String} {build : Option Span → Marker}
    (hbuild : ∀ span, (build span).span = span) {m : Marker}
    (h : m ∈ (doc.markAt line text build).toList) (p : Span) :
    m.span = some p ↔ doc.locate line text = .span p := by
  unfold Document.markAt at h
  cases hloc : doc.locate line text with
  | span q =>
    rw [hloc] at h
    obtain rfl := List.mem_singleton.mp h
    simp [hbuild]
  | lineOnly =>
    rw [hloc] at h
    obtain rfl := List.mem_singleton.mp h
    simp [hbuild]
  | outOfRange =>
    rw [hloc] at h
    cases h

theorem span_outcomeMarkers {reportMatches : Bool} {file : FileId} {doc : Document} {s : Step}
    {outcome : Outcome} {m : Marker} (h : m ∈ outcomeMarkers reportMatches file doc s outcome)
    (p : Span) : m.span = some p ↔ doc.locate s.line s.text = .span p := by
  cases outcome with
  | unmatched => exact span_of_markAt (fun _ => rfl) h p
  | single d =>
    cases reportMatches with
    | false => cases h
    | true => exact span_of_markAt (fun _ => rfl) h p
  | multiple ds => exact span_of_markAt (fun _ => rfl) h p

theorem StepLine.cut {line indent keyword text trail : List Char}
    (h : StepLine line indent keyword text trail) :
    line = (indent ++ keyword ++ [' ']) ++ text ++ trail := by
  rw [h.written]
  simp

theorem locate_behind_iff {source : String} {s : Step} {l : Line}
    {indent keyword trail : List Char} (hl : (Document.ofText source).line? s.line = some l)
    (hline : StepLine l.text indent keyword s.text.toList trail) :
    (Document.ofText source).locate s.line s.text =
        .span (l.spanAfter (indent ++ keyword ++ [' ']) s.text.toList) ↔
      ∀ u v, l.text = u ++ s.text.toList ++ v → (indent ++ keyword).length < u.length := by
  have hcut := hline.cut
  rw [Document.locate_eq_span]
  constructor
  · rintro ⟨l', before, after, hl', hfirst, hspan⟩ u v huv
    obtain rfl : l = l' := Option.some.inj (hl.symm.trans hl')
    -- both ends of the space are at the same byte, so the first occurrence is the one behind it
    have hbytes : byteLength before = byteLength (indent ++ keyword ++ [' ']) := by
      simp only [Line.spanAfter, Span.mk.injEq] at hspan
      omega
    have hle := hfirst.first _ _ hcut
    obtain ⟨x, hx⟩ : before <+: indent ++ keyword ++ [' '] := by
      have hbefore : before <+: l.text :=
        ⟨s.text.toList ++ after, (hfirst.cut.trans (List.append_assoc _ _ _)).symm⟩
      have hlead : indent ++ keyword ++ [' '] <+: l.text :=
        ⟨s.text.toList ++ trail, (hcut.trans (List.append_assoc _ _ _)).symm⟩
      exact List.prefix_of_prefix_length_le hbefore hlead hle
    have hxnil : x = [] := by
      rw [← hx, byteLength_append] at hbytes
      exact byteLength_eq_zero.mp (by omega)
    have hlen := hfirst.first u v huv
    rw [hxnil, List.append_nil] at hx
    rw [hx] at hlen
    simp only [List.length_append, List.length_singleton] at hlen ⊢
    omega
  · intro hno
    refine ⟨l, indent ++ keyword ++ [' '], trail, hl, ⟨hcut, fun u v huv => ?_⟩, rfl⟩
    have hlt := hno u v huv
    simp only [List.length_append, List.length_singleton] at hlt ⊢
    omega

theorem placed_of_mem {reportMatches : Bool} {file : FileId} {source : String} {s : Step}
    {outcome : Outcome} {m : Marker}
    (h : m ∈ outcomeMarkers reportMatches file (Document.ofText source) s outcome) :
    Placed source s m where
  first p := (span_outcomeMarkers h p).trans Document.locate_eq_span
  covers p hp := Document.slice_of_locate ((span_outcomeMarkers h p).mp hp)
  spanned l _ _ _ hl hline := by
    obtain ⟨before, after, hfirst⟩ := exists_firstOccurrence hline.cut
    refine ⟨before, after, hfirst, (span_outcomeMarkers h _).mpr ?_⟩
    exact Document.locate_eq_span.mpr ⟨l, before, after, hl, hfirst, rfl⟩
  behind _ _ _ _ hl hline :=
    (span_outcomeMarkers h _).trans (locate_behind_iff hl hline)

namespace Workspace

/-- The markers of the plain steps cover the first copies of the steps' texts on their lines: the
copy behind the keyword exactly if no other one begins before it. -/
theorem recomputeFeature_places (w : Workspace) (read : FileId → Except ReadError String)
    (file : FileId) (store : MarkerStore) {source : String} {index : FeatureIndex}
    (hread : w.sourceText read file = .ok source) (hindex : indexFeature source = .ok index) :
    ∃ (plain : List (List Marker)) (rest : List Marker),
      (store.run (w.recomputeFeature read file)).1.markersOf file = plain.flatten ++ rest ∧
      List.Forall₂ (fun s ms =>
        PlainMarked w.settings.reportMatches w.repository.definitions source s ms ∧
          ∀ m ∈ ms, Placed source s m) index.steps plain := by
  refine ⟨_, _, markersOf_recomputeFeature w read file store hread hindex, ?_⟩
  exact forall₂_map (fun s => ⟨plainMarked s, fun m => placed_of_mem⟩) _

def letterStep : String := "Feature: f\n  Scenario: s\n    Given e\n"

def letterStepIndex : FeatureIndex := ⟨[⟨.given, "e", 3⟩], []⟩

theorem indexFeature_letterStep : indexFeature letterStep = .ok letterStepIndex :=
  toOption_eq_some.mp (by decide +kernel)

theorem line?_letterStep :
    (Document.ofText letterStep).line? 3 = some ⟨25, "    Given e".toList⟩ := by
  decide +kernel

theorem stepLine_letterStep :
    StepLine "    Given e".toList "    ".toList "Given".toList "e".toList [] :=
  ⟨List.all_eq_true.mp rfl, by decide +kernel, List.forall_mem_nil _⟩

theorem recomputeFeature_places_letter :
    let file : FileId := ⟨[.name "a.feature"]⟩
    let read : FileId → Except ReadError String := fun _ => .ok letterStep
    (twiceDefined.sourceText read file = .ok letterStep ∧
      indexFeature letterStep = .ok letterStepIndex) ∧
    StepLine "    Given e".toList "    ".toList "Given".toList "e".toList [] ∧
    ∃ m ∈ (({} : MarkerStore).run (twiceDefined.recomputeFeature read file)).1.markersOf file,
      m.line = 3 ∧ m.span ≠ some ⟨35, 36⟩ := by
  intro file read
  have hread : twiceDefined.sourceText read file = .ok letterStep := rfl
  obtain ⟨plain, rest, hmarkers, hplain⟩ :=
    recomputeFeature_places twiceDefined read file {} hread indexFeature_letterStep
  simp only [letterStepIndex, List.forall₂_cons_left_iff, List.forall₂_nil_left_iff] at hplain
  obtain ⟨ms, -, ⟨hmarked, hplaced⟩, rfl, rfl⟩ := hplain
  obtain ⟨m, rfl, -, hm⟩ : Sole .unmatchedStep 3 ms := hmarked.here ⟨by decide, by decide +kernel⟩
  refine ⟨⟨hread, indexFeature_letterStep⟩, stepLine_letterStep, m, by rw [hmarkers]; simp, hm, ?_⟩
  have hbehind := (hplaced m (List.mem_singleton_self m)).behind _ _ _ _ line?_letterStep
    stepLine_letterStep
  intro hspan
  -- the letter of the keyword comes first
  have hlt := hbehind.mp hspan "    Giv".toList "n e".toList (by decide +kernel)
  revert hlt
  decide +kernel

/-- The marker of the step is on a letter of its keyword, not on its text. -/
theorem letterStep_marked_in_keyword :
    let w : Workspace := ⟨⟨[]⟩, ⟨false, 1000⟩, Extractor.all, {}, {}, [], {}⟩
    let file : FileId := ⟨[.name "a.feature"]⟩
    let read : FileId → Except ReadError String := fun _ => .ok letterStep
    ∃ l, (Document.ofText letterStep).line? 3 = some l ∧
      StepLine l.text "    ".toList "Given".toList "e".toList [] ∧
      l.spanAfter "    Given ".toList "e".toList = ⟨35, 36⟩ ∧
      ((({} : MarkerStore).run (w.recomputeFeature read file)).1.markersOf file).map
        (fun m => (m.kind, m.line, m.span)) = [(.unmatchedStep, 3, some ⟨32, 33⟩)] := by
  intro w file read
  refine ⟨_, line?_letterStep, stepLine_letterStep, by decide +kernel, ?_⟩
  rw [markersOf_recomputeFeature w read file {} rfl indexFeature_letterStep]
  decide +kernel

end Workspace

end StepGlue
