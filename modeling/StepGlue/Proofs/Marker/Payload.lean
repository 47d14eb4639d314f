import StepGlue.Decode
import StepGlue.Proofs.Json
import StepGlue.Proofs.Marker.Report
import StepGlue.Proofs.Marker.Verdict

/-! What travels along with a marker can be read back.

The marker of an unmatched step carries the step as text. A step and a pattern are written as
objects of strings and numbers, so both are read back from their text, and no two steps share
one. -/

namespace StepGlue

/-- The text of a step that a marker carries. -/
def Marker.payload? (m : Marker) : Option String := m.attributes.lookup stepAttribute

/-- The step that a text was written from. -/
def Step.ofPayload? (payload : String) : Option Step := (Json.read payload).bind Step.ofJson?

/-- The pattern that a text was written from. -/
def Pattern.ofPayload? (payload : String) : Option Pattern :=
  (Json.read payload).bind Pattern.ofJson?

theorem Keyword.ofJson?_tag (k : Keyword) : Keyword.ofJson? (.str k.tag) = some k := by
  cases k <;> decide

theorem Step.ofJson?_toJson (s : Step) : Step.ofJson? s.toJson = some s := by
  have hkeyword := Keyword.ofJson?_tag s.keyword
  have hline : (Json.int s.line).nat? = some s.line := by simp [Json.nat?]
  simp [Step.ofJson?, Step.toJson, Json.record?, Json.oneField?, hkeyword, hline, Json.string?]

theorem Pattern.ofJson?_toJson (p : Pattern) : Pattern.ofJson? p.toJson = some p := by
  cases p with
  | expression s => rfl
  | regex s => rfl

theorem Step.ofPayload?_compact {s : Step} (h : s.line < word64) :
    Step.ofPayload? s.toJson.compact = some s := by
  have hfields : ∀ f ∈ [("keyword", Json.str s.keyword.tag), ("text", .str s.text),
      ("line", .int s.line)], f.2.ReadsBack (Json.depthLimit - 1) := by
    simp [Json.readsBack_str, Json.readsBack_nat _ h]
  have hread : Json.read s.toJson.compact = some s.toJson :=
    Json.read_obj hfields (List.cons_ne_nil _ _)
  rw [Step.ofPayload?, hread, Option.bind_some, Step.ofJson?_toJson]

theorem Pattern.ofPayload?_compact (p : Pattern) :
    Pattern.ofPayload? p.toJson.compact = some p := by
  have hfields : ∀ f ∈ [("kind", Json.str p.kind), ("source", .str p.source)],
      f.2.ReadsBack (Json.depthLimit - 1) := by
    simp [Json.readsBack_str]
  have hread : Json.read p.toJson.compact = some p.toJson :=
    Json.read_obj hfields (List.cons_ne_nil _ _)
  rw [Pattern.ofPayload?, hread, Option.bind_some, Pattern.ofJson?_toJson]

theorem payload?_unmatchedMarker {file : FileId} {doc : Document} {s : Step} {m : Marker}
    (h : unmatchedMarker file doc s = some m) : m.payload? = some s.toJson.compact := by
  obtain ⟨span, rfl⟩ := exists_of_markAt h
  rfl

/-- The step of a marker is read back from it, so different steps never share a payload; and
patterns are read back from their text too. -/
theorem payload_reads_back (s : Step) (h : s.line < word64) :
    (∀ file source, HasLine source s.line →
      (unmatchedMarker file (Document.ofText source) s).isSome) ∧
    (∀ file doc m, unmatchedMarker file doc s = some m →
      ∃ payload, m.payload? = some payload ∧ Step.ofPayload? payload = some s) ∧
    (∀ t : Step, t.line < word64 → s ≠ t → ∀ file doc m, unmatchedMarker file doc s = some m →
      ∀ file' doc' m', unmatchedMarker file' doc' t = some m' → m.payload? ≠ m'.payload?) ∧
    ∀ p : Pattern, Pattern.ofPayload? p.toJson.compact = some p := by
  have hback := Step.ofPayload?_compact h
  refine ⟨fun file source hline => ?_, fun file doc m hm => ?_, ?_, Pattern.ofPayload?_compact⟩
  · obtain ⟨span, hmark⟩ := markAt_of_hasLine hline s.text fun span =>
      .ofKind .unmatchedStep ("Step '" ++ s.text ++ "' does not have a matching glue code")
        s.line span [(pathAttribute, file.fullPath), (stepAttribute, s.toJson.compact)]
    rw [unmatchedMarker, hmark, Option.isSome_some]
  · exact ⟨_, payload?_unmatchedMarker hm, hback⟩
  · intro t ht hne file doc m hm file' doc' m' hm' hshared
    rw [payload?_unmatchedMarker hm, payload?_unmatchedMarker hm', Option.some.injEq] at hshared
    rw [hshared, Step.ofPayload?_compact ht] at hback
    exact hne (Option.some.inj hback).symm

/-- A step whose text has all sorts of characters that are escaped, and one that is not. -/
def escapedStep : Step := ⟨.star, "say \"\\\" \x08\x01\r\n 😀", 2⟩

def unescapedStep : Step := ⟨.star, "say \\\"\\\\\\\" \\b\\u0001\\r\\n 😀", 2⟩

/-- A text that spells the escapes of another one has another payload. -/
theorem payload_reads_back_escaped :
    escapedStep.line < word64 ∧ unescapedStep.line < word64 ∧ escapedStep ≠ unescapedStep ∧
      ∀ file, ∃ m m', unmatchedMarker file (Document.ofText "\n") escapedStep = some m ∧
        unmatchedMarker file (Document.ofText "\n") unescapedStep = some m' ∧
        (∃ payload, m.payload? = some payload ∧ Step.ofPayload? payload = some escapedStep) ∧
        m.payload? ≠ m'.payload? := by
  have hstep : escapedStep.line < word64 := by decide
  have hother : unescapedStep.line < word64 := by decide
  have hne : escapedStep ≠ unescapedStep := by decide
  have hline : HasLine "\n" 2 := ⟨by decide, by decide⟩
  obtain ⟨hmarked, hback, hapart, -⟩ := payload_reads_back escapedStep hstep
  refine ⟨hstep, hother, hne, fun file => ?_⟩
  obtain ⟨m, hm⟩ := Option.isSome_iff_exists.mp (hmarked file "\n" hline)
  obtain ⟨m', hm'⟩ := Option.isSome_iff_exists.mp
    ((payload_reads_back unescapedStep hother).1 file "\n" hline)
  exact ⟨m, m', hm, hm', hback file _ m hm,
    hapart unescapedStep hother hne file _ m hm file _ m' hm'⟩

end StepGlue
