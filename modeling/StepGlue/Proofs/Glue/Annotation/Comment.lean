import Mathlib.Data.List.TakeWhile
import StepGlue.Proofs.Glue.Annotation.Lexis
import StepGlue.Proofs.Glue.Annotation.Written

/-! Annotations in comments.

Whether an annotation is in a comment is decided from how its line starts. That is wrong for a
comment that opens behind other text or goes on over lines without a star, and for a line that
starts as a comment does and is none where the sign stands. In every other layout it is right. -/

namespace StepGlue.Annotation

/-! ### What a line starts with -/

/-- What a line of a comment is taken to start with. -/
def commentMarks : List (List Char) := [['*'], Comment.line.opener, Comment.block.opener]

theorem mem_commentMarks {mark : List Char} :
    mark ∈ commentMarks ↔ mark = ['*'] ∨ ∃ k : Comment, mark = k.opener := by
  constructor
  · intro h
    simp only [commentMarks, List.mem_cons, List.not_mem_nil, or_false] at h
    rcases h with h | h | h
    · exact .inl h
    · exact .inr ⟨.line, h⟩
    · exact .inr ⟨.block, h⟩
  · rintro (rfl | ⟨k, rfl⟩)
    · decide
    · cases k <;> decide

def StartsAsComment (line : List Char) : Prop :=
  ∃ blanks mark rest, line = blanks ++ mark ++ rest ∧ (∀ c ∈ blanks, isBlank c = true) ∧
    mark ∈ commentMarks

theorem exists_line (before : List Char) :
    ∃ front line, before = front ++ line ∧ AtLineStart front ∧ '\n' ∉ line := by
  induction before using List.reverseRecOn with
  | nil => exact ⟨[], [], rfl, rfl, List.not_mem_nil⟩
  | append_singleton s c ih =>
    by_cases hc : c = '\n'
    · subst hc
      exact ⟨s ++ ['\n'], [], (List.append_nil _).symm, atLineStart_feed s, List.not_mem_nil⟩
    · obtain ⟨front, line, rfl, hfront, hline⟩ := ih
      exact ⟨front, line ++ [c], List.append_assoc _ _ _, hfront, by simp [hline, Ne.symm hc]⟩

theorem opensLine_lex {front : List Char} (h : AtLineStart front) : (lex front).OpensLine := by
  induction front using List.reverseRecOn with
  | nil => exact .inl rfl
  | append_singleton s c _ =>
    have hc : c = '\n' := by
      by_contra hc
      simp [AtLineStart, hc] at h
    rw [lex_concat, hc]
    exact Mode.opensLine_next_feed _

theorem inComment_iff {front line : List Char} (h : AtLineStart front) (hline : '\n' ∉ line) :
    inComment (front ++ line).reverse = true ↔ StartsAsComment line := by
  have hrest : (front ++ line).reverse.takeWhile (· ≠ '\n') = line.reverse := by
    have hall : ∀ c ∈ line.reverse, decide (c ≠ '\n') = true := by
      intro c hc
      exact decide_eq_true fun hfeed => hline (hfeed ▸ List.mem_reverse.mp hc)
    rw [List.reverse_append, List.takeWhile_append_of_pos hall, h, List.append_nil]
  rw [inComment, hrest, List.reverse_reverse]
  constructor
  · intro hstart
    have hcut : line = line.takeWhile isBlank ++ trimStart line :=
      List.takeWhile_append_dropWhile.symm
    have hblank : ∀ c ∈ line.takeWhile isBlank, isBlank c = true := fun c hc =>
      List.mem_takeWhile_imp hc
    split at hstart
    · next rest htrim =>
      rw [htrim] at hcut
      exact ⟨_, ['*'], rest, by simpa using hcut, hblank, by decide⟩
    · next c rest htrim =>
      rw [htrim] at hcut
      refine ⟨_, ['/', c], rest, by simpa using hcut, hblank, ?_⟩
      rw [Bool.or_eq_true, beq_iff_eq, beq_iff_eq] at hstart
      rcases hstart with rfl | rfl <;> decide
    · cases hstart
  · rintro ⟨blanks, mark, rest, rfl, hblank, hmark⟩
    have htrim : trimStart (blanks ++ mark ++ rest) = mark ++ rest := by
      rw [trimStart, List.append_assoc, List.dropWhile_append_of_pos hblank]
      rcases mem_commentMarks.mp hmark with rfl | ⟨k, rfl⟩
      · rfl
      · cases k <;> rfl
    rw [htrim]
    rcases mem_commentMarks.mp hmark with rfl | ⟨k, rfl⟩
    · rfl
    · cases k <;> rfl

/-- Text behind a sign does not change how the line of the sign starts. -/
theorem startsAsComment_sign {line rest : List Char} :
    StartsAsComment (line ++ '@' :: rest) ↔ StartsAsComment line := by
  constructor
  · rintro ⟨blanks, mark, tail, heq, hblank, hmark⟩
    have hsign : '@' ∉ blanks ++ mark := by
      rw [List.mem_append, not_or]
      have hmarks : ∀ mark ∈ commentMarks, '@' ∉ mark := by decide
      exact ⟨fun hmem => absurd (hblank _ hmem) (by decide), hmarks mark hmark⟩
    rcases List.append_eq_append_iff.mp heq with ⟨more, hmore, hrest⟩ | ⟨more, rfl, -⟩
    · cases more with
      | nil => exact ⟨blanks, mark, [], by simpa using hmore.symm, hblank, hmark⟩
      | cons c more =>
        obtain ⟨rfl, -⟩ := List.cons.inj hrest
        exact absurd (hmore ▸ List.mem_append_right line List.mem_cons_self) hsign
    · exact ⟨blanks, mark, more, rfl, hblank, hmark⟩
  · rintro ⟨blanks, mark, tail, rfl, hblank, hmark⟩
    exact ⟨blanks, mark, tail ++ '@' :: rest, List.append_assoc _ _ _, hblank, hmark⟩

theorem inComment_sign {before rest : List Char} (h : '\n' ∉ rest) :
    inComment (before ++ '@' :: rest).reverse = inComment before.reverse := by
  obtain ⟨front, line, rfl, hfront, hline⟩ := exists_line before
  have hlonger : '\n' ∉ line ++ '@' :: rest := by simp [hline, h]
  rw [List.append_assoc, Bool.eq_iff_iff, inComment_iff hfront hlonger, inComment_iff hfront hline]
  exact startsAsComment_sign

/-! ### Where the decision is wrong -/

/-- Whether a sign behind this text is in no comment. -/
def live (before : List Char) : Bool := (lex before).comment?.isNone

theorem live_eq_false {before : List Char} :
    live before = false ↔ ∃ k, (lex before).comment? = some k := by
  rw [live, Option.isNone_eq_false_iff, Option.isSome_iff_exists]

/-- The texts before a sign that is in a comment of which its line shows nothing. -/
inductive MissedComment : List Char → Prop
  /-- The comment opens on the line of the sign, behind other text. -/
  | trailing {front pre tail : List Char} {k : Comment} (hfront : AtLineStart front)
      (hline : '\n' ∉ pre ++ k.opener ++ tail) (hplain : ¬StartsAsComment (pre ++ k.opener ++ tail))
      (hcode : (lex (front ++ pre)).isCode = true) (hopen : k.Holds tail) :
      MissedComment (front ++ (pre ++ k.opener ++ tail))
  /-- A block comment goes on over a line that starts with other text. -/
  | unmarked {front line : List Char} (hfront : AtLineStart front) (hline : '\n' ∉ line)
      (hplain : ¬StartsAsComment line) (hblock : lex front = .block)
      (hopen : Comment.block.Holds line) : MissedComment (front ++ line)

/-- The texts before a sign that is in no comment, on a line that starts as a comment does. -/
inductive FalseComment : List Char → Prop
  /-- The comment that the line starts with is closed before the sign. -/
  | closed {front blanks tail : List Char} {k : Comment} (hfront : AtLineStart front)
      (hline : '\n' ∉ blanks ++ k.opener ++ tail) (hcode : lex front = .code)
      (hblank : ∀ c ∈ blanks, isBlank c = true) (hclosed : ¬k.Holds tail)
      (hlive : live (front ++ (blanks ++ k.opener ++ tail)) = true) :
      FalseComment (front ++ (blanks ++ k.opener ++ tail))
  /-- A block comment from a line before is closed before the sign. -/
  | carried {front line : List Char} (hfront : AtLineStart front) (hline : '\n' ∉ line)
      (hstart : StartsAsComment line) (hblock : lex front = .block)
      (hclosed : ¬Comment.block.Holds line) (hlive : live (front ++ line) = true) :
      FalseComment (front ++ line)
  /-- The line is code that starts with a star. -/
  | operator {front blanks tail : List Char} (hfront : AtLineStart front)
      (hline : '\n' ∉ blanks ++ ['*'] ++ tail) (hcode : lex front = .code)
      (hblank : ∀ c ∈ blanks, isBlank c = true)
      (hlive : live (front ++ (blanks ++ ['*'] ++ tail)) = true) :
      FalseComment (front ++ (blanks ++ ['*'] ++ tail))
  /-- The line starts in a text block. -/
  | quoted {front line : List Char} (hfront : AtLineStart front) (hline : '\n' ∉ line)
      (hstart : StartsAsComment line) (htext : lex front = .text 0)
      (hlive : live (front ++ line) = true) : FalseComment (front ++ line)

theorem missedComment_iff {before : List Char} :
    MissedComment before ↔ live before = false ∧ inComment before.reverse = false := by
  constructor
  · rintro (⟨hfront, hline, hplain, hcode, hopen⟩ | ⟨hfront, hline, hplain, hblock, hopen⟩)
    · next front pre tail k =>
      have hk : (lex (front ++ (pre ++ k.opener ++ tail))).comment? = some k :=
        comment?_lex_iff.mpr ⟨front ++ pre, tail, by simp, hcode, hopen⟩
      refine ⟨live_eq_false.mpr ⟨k, hk⟩, ?_⟩
      · exact Bool.eq_false_iff.mpr fun h => hplain ((inComment_iff hfront hline).mp h)
    · refine ⟨live_eq_false.mpr ⟨.block, ?_⟩, ?_⟩
      · rw [lex_append, hblock]
        exact comment?_foldl_block hopen
      · exact Bool.eq_false_iff.mpr fun h => hplain ((inComment_iff hfront hline).mp h)
  · rintro ⟨hdead, hplain⟩
    obtain ⟨front, line, rfl, hfront, hline⟩ := exists_line before
    obtain ⟨k, hk⟩ := live_eq_false.mp hdead
    have hstart : ¬StartsAsComment line := fun h =>
      Bool.eq_false_iff.mp hplain ((inComment_iff hfront hline).mpr h)
    have hopens := opensLine_lex hfront
    rw [lex_append] at hk
    rcases (comment?_foldl_iff hopens).mp hk with ⟨hmode, hopen⟩ | ⟨pre, tail, rfl, hcode, hopen⟩
    · cases k with
      | line => rw [hmode] at hopens; rcases hopens with h | h | h <;> cases h
      | block => exact .unmarked hfront hline hstart hmode hopen
    · exact .trailing hfront hline hstart (by rw [lex_append]; exact hcode) hopen

theorem foldl_blanks {blanks : List Char} (h : ∀ c ∈ blanks, isBlank c = true) :
    blanks.foldl Mode.next .code = .code := by
  induction blanks with
  | nil => rfl
  | cons c blanks ih =>
    obtain ⟨hc, hblanks⟩ := List.forall_mem_cons.mp h
    have hstay : Mode.code.next c = .code := by
      have hplain : c ≠ '/' ∧ c ≠ '"' ∧ c ≠ '\'' := by
        refine ⟨?_, ?_, ?_⟩ <;> rintro rfl <;> exact absurd hc (by decide)
      simp [Mode.next, Mode.start, hplain]
    rw [List.foldl_cons, hstay, ih hblanks]

theorem falseComment_iff {before : List Char} :
    FalseComment before ↔ live before = true ∧ inComment before.reverse = true := by
  constructor
  · rintro (⟨hfront, hline, -, hblank, -, hlive⟩ | ⟨hfront, hline, hstart, -, -, hlive⟩ |
      ⟨hfront, hline, -, hblank, hlive⟩ | ⟨hfront, hline, hstart, -, hlive⟩)
    · exact ⟨hlive, (inComment_iff hfront hline).mpr
        ⟨_, _, _, rfl, hblank, mem_commentMarks.mpr (.inr ⟨_, rfl⟩)⟩⟩
    · exact ⟨hlive, (inComment_iff hfront hline).mpr hstart⟩
    · exact ⟨hlive, (inComment_iff hfront hline).mpr ⟨_, _, _, rfl, hblank, by decide⟩⟩
    · exact ⟨hlive, (inComment_iff hfront hline).mpr hstart⟩
  · rintro ⟨hlive, hcomment⟩
    obtain ⟨front, line, rfl, hfront, hline⟩ := exists_line before
    have hstart := (inComment_iff hfront hline).mp hcomment
    have hnone : ∀ k, (line.foldl Mode.next (lex front)).comment? ≠ some k := by
      intro k hk
      rw [← lex_append] at hk
      exact Bool.eq_false_iff.mp (live_eq_false.mpr ⟨k, hk⟩) hlive
    have hopens := opensLine_lex hfront
    rcases hopens with hcode | hblock | htext
    · obtain ⟨blanks, mark, tail, rfl, hblank, hmark⟩ := hstart
      have hclosed : ∀ k : Comment, mark = k.opener → ¬k.Holds tail := by
        rintro k rfl hopen
        rw [hcode] at hnone
        refine hnone k ((comment?_foldl_iff (.inl rfl)).mpr
          (.inr ⟨blanks, tail, rfl, ?_, hopen⟩))
        rw [foldl_blanks hblank]
        rfl
      rcases mem_commentMarks.mp hmark with rfl | ⟨k, rfl⟩
      · exact .operator hfront hline hcode hblank hlive
      · exact .closed hfront hline hcode hblank (hclosed k rfl) hlive
    · refine .carried hfront hline hstart hblock (fun hopen => ?_) hlive
      rw [hblock] at hnone
      exact hnone .block (comment?_foldl_block hopen)
    · exact .quoted hfront hline hstart htext hlive

theorem inComment_eq_not_live_iff {before : List Char} :
    inComment before.reverse = !live before ↔ ¬MissedComment before ∧ ¬FalseComment before := by
  rw [missedComment_iff, falseComment_iff]
  cases live before <;> cases inComment before.reverse <;> decide

/-! ### What a file defines -/

/-- Two choices from a list that agree on the elements of a key, all or none of them, give the
same images only if they are the same. -/
theorem filter_map_eq_iff {α β κ : Type} [DecidableEq κ] (f : α → β) (key : β → κ) {l : List α}
    {p q : α → Bool} (hp : ∀ a ∈ l, ∀ b ∈ l, key (f a) = key (f b) → p a = p b) :
    (l.filter p).map f = (l.filter q).map f ↔ ∀ a ∈ l, p a = q a := by
  constructor
  · -- On the elements of a key, `p` chooses all or none, so how many are chosen tells which.
    intro h a ha
    let same := l.filter fun b => key (f b) = key (f a)
    have hmem : a ∈ same := List.mem_filter.mpr ⟨ha, decide_eq_true rfl⟩
    have hcount : same.countP p = same.countP q := by
      have hkeys := congrArg (List.countP fun y => key y = key (f a)) h
      rw [List.countP_map, List.countP_map, List.countP_filter, List.countP_filter] at hkeys
      rw [List.countP_filter, List.countP_filter]
      simpa [Bool.and_comm] using hkeys
    have hall : ∀ b ∈ same, p b = p a := by
      intro b hb
      obtain ⟨hbl, hkey⟩ := List.mem_filter.mp hb
      exact hp b hbl a ha (of_decide_eq_true hkey)
    cases hpa : p a with
    | true =>
      have hfull : same.countP p = same.length :=
        List.countP_eq_length.mpr fun b hb => (hall b hb).trans hpa
      exact (List.countP_eq_length.mp (hcount.symm.trans hfull) a hmem).symm
    | false =>
      have hnone : same.countP p = 0 :=
        List.countP_eq_zero.mpr fun b hb => by simp [hall b hb, hpa]
      simpa using (List.countP_eq_zero.mp (hcount.symm.trans hnone) a hmem)
  · intro h
    rw [List.filter_congr h]

/-- From one sign of a line to another one, the decision stays as it is. -/
theorem inComment_append {before more rest after : List Char}
    (h : '@' :: rest = more ++ '@' :: after)
    (hline : lineFeeds (before ++ more) = lineFeeds before) :
    inComment (before ++ more).reverse = inComment before.reverse := by
  cases more with
  | nil => rw [List.append_nil]
  | cons c more =>
    obtain ⟨rfl, -⟩ := List.cons.inj h
    rw [lineFeeds_append, Nat.add_eq_left, lineFeeds_eq_zero] at hline
    exact inComment_sign fun hmem => hline (List.mem_cons_of_mem _ hmem)

/-- Annotations of one line are all taken to be in a comment, or none of them is. -/
theorem inComment_eq_of_line_eq {s : List Char} {a b : Site} (ha : a ∈ sites [] s)
    (hb : b ∈ sites [] s) (h : a.step.line = b.step.line) :
    inComment a.seen = inComment b.seen := by
  obtain ⟨front, rest, -, hs, hseen, -⟩ := exists_of_mem_sites ha
  obtain ⟨front', rest', -, hs', hseen', -⟩ := exists_of_mem_sites hb
  rw [List.append_nil] at hseen hseen'
  have hfeeds : lineFeeds front = lineFeeds front' := by
    have hreverse : ∀ t : List Char, lineFeeds t.reverse = lineFeeds t := fun _ =>
      List.count_reverse
    rw [Site.step, Site.step, hseen, hseen', hreverse, hreverse] at h
    exact Nat.add_right_cancel h
  rw [hseen, hseen']
  rcases List.append_eq_append_iff.mp (hs.symm.trans hs') with
    ⟨more, rfl, hmore⟩ | ⟨more, rfl, hmore⟩
  · exact (inComment_append hmore hfeeds.symm).symm
  · exact inComment_append hmore hfeeds

namespace Site

/-- The text before the sign of an annotation. -/
def before (a : Site) : List Char := a.seen.reverse

theorem reverse_before (a : Site) : a.before.reverse = a.seen := List.reverse_reverse a.seen

end Site

/-- An annotation is taken just when it is in no comment, unless its line has one of the layouts
above; and what the file defines is what stands in no comment just if no line has one. -/
theorem extract_skips_comments_iff (source : String) :
    (∃ kept : Site → Bool,
      extract source = .ok { steps := ((sites [] source.toList).filter kept).map Site.step } ∧
      ∀ a ∈ sites [] source.toList, (kept a = live a.before ↔
        ¬MissedComment a.before ∧ ¬FalseComment a.before)) ∧
    (extract source =
        .ok { steps := ((sites [] source.toList).filter (live ·.before)).map Site.step } ↔
      ∀ a ∈ sites [] source.toList, ¬MissedComment a.before ∧ ¬FalseComment a.before) := by
  have hkept : ∀ a : Site, (!inComment a.seen) = live a.before ↔
      ¬MissedComment a.before ∧ ¬FalseComment a.before := by
    intro a
    rw [← inComment_eq_not_live_iff, a.reverse_before, Bool.not_eq_eq_eq_not]
  refine ⟨⟨(!inComment ·.seen), rfl, fun a _ => hkept a⟩, ?_⟩
  have hline : ∀ a ∈ sites [] source.toList, ∀ b ∈ sites [] source.toList,
      a.step.line = b.step.line → (!inComment a.seen) = !inComment b.seen :=
    fun a ha b hb h => congrArg not (inComment_eq_of_line_eq ha hb h)
  rw [extract, Except.ok.injEq, GlueSteps.mk.injEq, and_iff_left rfl,
    filter_map_eq_iff Site.step GlueStep.line hline]
  exact forall₂_congr fun a _ => hkept a

theorem sites_single {front : List Char} (h : '@' ∉ front) :
    sites [] (front ++ '@' :: (written .given ['a'] ++ [')', '\n'])) =
      [⟨front.reverse, .given, ['a']⟩] := by
  have hend : ∀ seen, sites seen ([')', '\n'] ++ []) = [] := fun seen => by
    rw [sites_append (by decide), sites]
  rw [sites_append h, sites_written (by decide), ← List.append_nil [')', '\n'], hend,
    List.append_nil]
  rfl

/-- A comment behind code does not take its annotation away, and a comment that is closed takes
the annotation behind it. -/
theorem extract_misjudges_comments :
    (∃ a ∈ sites [] "int x; // @Given(\"a\")\n".toList, live a.before = false ∧
      extract "int x; // @Given(\"a\")\n" = .ok { steps := [a.step], rejected := [] }) ∧
    ∃ a ∈ sites [] "/* a */ @Given(\"a\")\n".toList, live a.before = true ∧
      extract "/* a */ @Given(\"a\")\n" = .ok { steps := [], rejected := [] } := by
  have hbehind : "int x; // @Given(\"a\")\n".toList =
      "int x; // ".toList ++ '@' :: (written .given ['a'] ++ [')', '\n']) := by decide
  have hclosed : "/* a */ @Given(\"a\")\n".toList =
      "/* a */ ".toList ++ '@' :: (written .given ['a'] ++ [')', '\n']) := by decide
  constructor
  · rw [extract, hbehind, sites_single (by decide)]
    exact ⟨_, List.mem_singleton_self _, by decide, rfl⟩
  · rw [extract, hclosed, sites_single (by decide)]
    exact ⟨_, List.mem_singleton_self _, by decide, rfl⟩

end StepGlue.Annotation
