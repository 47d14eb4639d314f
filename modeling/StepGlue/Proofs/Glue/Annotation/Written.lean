import Mathlib.Data.List.Basic
import StepGlue.Proofs.Glue.Annotation
import StepGlue.Proofs.Regex.Class
import StepGlue.Proofs.Text.Offsets

/-! Annotations that are written to be read.

A file is written line by line, some lines with an annotation each and the others without any sign.
Nothing that an annotation quotes can end its literal or its line, so the scan meets every line at
its start, and what is read back is what was written. -/

namespace StepGlue.Annotation

/-! ### Literals -/

def escapeChar : Char → List Char
  | '\\' => ['\\', '\\']
  | '"' => ['\\', '"']
  | '\n' => ['\\', 'n']
  | '\t' => ['\\', 't']
  | '\r' => ['\\', 'r']
  | c => [c]

/-- A text as it is written between quotation marks. -/
def escape (v : List Char) : List Char := v.flatMap escapeChar

theorem escape_cons (c : Char) (v : List Char) :
    escape (c :: v) = escapeChar c ++ escape v := List.flatMap_cons

/-- A character is written with a backslash and a character that stands for it, or as it is. -/
theorem escapeChar_cases (c : Char) :
    (∃ d, escapeChar c = ['\\', d] ∧ d ≠ '\n' ∧ ∀ s, unescape ('\\' :: d :: s) = c :: unescape s) ∨
      escapeChar c = [c] ∧ c ≠ '\\' ∧ c ≠ '"' ∧ c ≠ '\n' := by
  unfold escapeChar
  split
  · exact .inl ⟨'\\', rfl, by decide, fun _ => rfl⟩
  · exact .inl ⟨'"', rfl, by decide, fun _ => rfl⟩
  · exact .inl ⟨'n', rfl, by decide, fun _ => rfl⟩
  · exact .inl ⟨'t', rfl, by decide, fun _ => rfl⟩
  · exact .inl ⟨'r', rfl, by decide, fun _ => rfl⟩
  · next hbackslash hquote hfeed _ _ => exact .inr ⟨rfl, hbackslash, hquote, hfeed⟩

theorem unescape_cons {c : Char} (h : c ≠ '\\') (s : List Char) :
    unescape (c :: s) = c :: unescape s := by
  simp [unescape, h]

theorem unescape_escape (v : List Char) : unescape (escape v) = v := by
  induction v with
  | nil => rfl
  | cons c v ih =>
    rw [escape_cons]
    obtain ⟨d, hc, -, hread⟩ | ⟨hc, hbackslash, -, -⟩ := escapeChar_cases c
    · rw [hc, List.cons_append, List.singleton_append, hread, ih]
    · rw [hc, List.singleton_append, unescape_cons hbackslash, ih]

theorem literal?_backslash {c : Char} (h : c ≠ '\n') (s : List Char) :
    literal? ('\\' :: c :: s) = (literal? s).map fun (body, rest) => ('\\' :: c :: body, rest) := by
  rw [literal?, if_neg h]

theorem literal?_cons {c : Char} (hbackslash : c ≠ '\\') (hquote : c ≠ '"') (hfeed : c ≠ '\n')
    (s : List Char) :
    literal? (c :: s) = (literal? s).map fun (body, rest) => (c :: body, rest) := by
  simp [literal?, hbackslash, hfeed]

/-- A literal ends where it was closed. -/
theorem literal?_escape (v rest : List Char) :
    literal? (escape v ++ '"' :: rest) = some (escape v, rest) := by
  induction v with
  | nil => rfl
  | cons c v ih =>
    rw [escape_cons]
    obtain ⟨d, hc, hd, -⟩ | ⟨hc, hbackslash, hquote, hfeed⟩ := escapeChar_cases c
    · rw [hc, List.append_assoc, List.cons_append, List.singleton_append,
        literal?_backslash hd, ih]
      rfl
    · rw [hc, List.append_assoc, List.singleton_append,
        literal?_cons hbackslash hquote hfeed, ih]
      rfl

theorem lineFeeds_escape (v : List Char) : lineFeeds (escape v) = 0 := by
  induction v with
  | nil => rfl
  | cons c v ih =>
    rw [escape_cons, lineFeeds_append, ih, Nat.add_zero, lineFeeds_eq_zero]
    obtain ⟨d, hc, hd, -⟩ | ⟨hc, -, -, hfeed⟩ := escapeChar_cases c
    · simp [hc, hd.symm]
    · simp [hc, hfeed.symm]

/-! ### Lines -/

/-- A line of a source file: some text without a sign, or an annotation on its own. -/
inductive SourceLine
  | other (text : List Char) (oneLine : '\n' ∉ text) (noSign : '@' ∉ text)
  | entry (spaces : Nat) (k : Keyword) (named : k ∈ keywords) (v : List Char)

/-- What follows the sign of an annotation, its closing bracket apart. -/
def written (k : Keyword) (v : List Char) : List Char :=
  k.text.toList ++ '(' :: '"' :: escape v ++ ['"']

namespace SourceLine

def text : SourceLine → List Char
  | other s _ _ => s
  | entry spaces k _ v => List.replicate spaces ' ' ++ '@' :: (written k v ++ [')'])

/-- What a line defines under its number. -/
def step? : SourceLine → Nat → Option GlueStep
  | other _ _ _, _ => none
  | entry _ k _ v, n => some ⟨.infer (String.ofList v), n, some k⟩

end SourceLine

/-- The text of lines that are each closed by a line feed, apart from the last one. -/
def sourceOf (lines : List SourceLine) : List Char :=
  ['\n'].intercalate (lines.map SourceLine.text)

theorem keyword?_text {k : Keyword} (h : k ∈ keywords) : keyword? k.text.toList = some k := by
  revert k
  decide

theorem isNameChar_ascii {c : Char} (hc : c.toNat < 128) :
    isNameChar c = (c == '.' || Regex.asciiWord.contains c) := by
  rw [isNameChar, Bool.eq_iff_iff.mpr (Regex.contains_wordClass_ascii hc)]

theorem isNameChar_of_mem {k : Keyword} (h : k ∈ keywords) :
    ∀ c ∈ k.text.toList, isNameChar c = true := by
  have hname : ∀ k ∈ keywords, k.text.toList.all (fun c =>
      c.toNat < 128 && (c == '.' || Regex.asciiWord.contains c)) = true := by decide
  intro c hc
  have hletter := List.all_eq_true.mp (hname k h) c hc
  rw [Bool.and_eq_true, decide_eq_true_eq] at hletter
  rw [isNameChar_ascii hletter.1]
  exact hletter.2

theorem isNameChar_paren : isNameChar '(' = false := isNameChar_ascii (by decide)

theorem annotation?_written {k : Keyword} (h : k ∈ keywords) (v rest : List Char) :
    annotation? (written k v ++ rest) = some (k, escape v, rest) := by
  have hcut : written k v ++ rest = k.text.toList ++ '(' :: '"' :: (escape v ++ '"' :: rest) := by
    simp [written]
  have hname := isNameChar_of_mem h
  have htake : (written k v ++ rest).takeWhile isNameChar = k.text.toList := by
    rw [hcut, List.takeWhile_append_of_pos hname, List.takeWhile_cons_of_neg, List.append_nil]
    simp [isNameChar_paren]
  have hdrop : (written k v ++ rest).dropWhile isNameChar =
      '(' :: '"' :: (escape v ++ '"' :: rest) := by
    rw [hcut, List.dropWhile_append_of_pos hname, List.dropWhile_cons_of_neg]
    simp [isNameChar_paren]
  unfold annotation?
  rw [htake, hdrop, keyword?_text h]
  exact congrArg (Option.map _) (literal?_escape v rest)

/-! ### The scan -/

theorem sites_append {s : List Char} (h : '@' ∉ s) (seen rest : List Char) :
    sites seen (s ++ rest) = sites (s.reverse ++ seen) rest := by
  induction s generalizing seen with
  | nil => rfl
  | cons c s ih =>
    rw [List.mem_cons, not_or] at h
    rw [List.cons_append, sites, if_neg (Ne.symm h.1), ih h.2]
    simp

theorem sites_written {k : Keyword} (h : k ∈ keywords) (v seen rest : List Char) :
    sites seen ('@' :: (written k v ++ rest)) =
      ⟨seen, k, escape v⟩ :: sites ((written k v).reverse ++ '@' :: seen) rest := by
  have hfound := annotation?_written h v rest
  rw [sites, if_pos rfl]
  split
  · next hsome =>
    rw [hfound] at hsome
    cases hsome
    simp
  · next hnone =>
    rw [hfound] at hnone
    cases hnone

/-- The definitions in a text, given the text before it. -/
def stepsAfter (front s : List Char) : List GlueStep :=
  ((sites front.reverse s).filter (!inComment ·.seen)).map Site.step

theorem stepsAfter_append {s : List Char} (h : '@' ∉ s) (front rest : List Char) :
    stepsAfter front (s ++ rest) = stepsAfter (front ++ s) rest := by
  simp [stepsAfter, sites_append h]

theorem stepsAfter_written {front : List Char} (h : inComment front.reverse = false) {k : Keyword}
    (hk : k ∈ keywords) (v rest : List Char) :
    stepsAfter front ('@' :: (written k v ++ rest)) =
      ⟨.infer (String.ofList v), lineFeeds front + 1, some k⟩ ::
        stepsAfter (front ++ '@' :: written k v) rest := by
  have hfeeds : lineFeeds front.reverse = lineFeeds front := List.count_reverse
  simp [stepsAfter, sites_written hk, h, Site.step, unescape_escape, hfeeds]

/-- The text ends where a line starts. -/
def AtLineStart (front : List Char) : Prop := front.reverse.takeWhile (· ≠ '\n') = []

theorem atLineStart_feed (front : List Char) : AtLineStart (front ++ ['\n']) := by
  simp [AtLineStart]

theorem inComment_spaces {front : List Char} (h : AtLineStart front) (n : Nat) :
    inComment (front ++ List.replicate n ' ').reverse = false := by
  have hspaces : ∀ c ∈ List.replicate n ' ', decide (c ≠ '\n') = true := by simp
  have hline : (front ++ List.replicate n ' ').reverse.takeWhile (· ≠ '\n') =
      List.replicate n ' ' := by
    rw [List.reverse_append, List.reverse_replicate, List.takeWhile_append_of_pos hspaces, h,
      List.append_nil]
  have htrim : trimStart (List.replicate n ' ') = [] := by
    simp [trimStart, isBlank]
  simp only [inComment, hline, List.reverse_replicate, htrim]

/-- A line gives what it defines, and then the scan is behind it. -/
theorem stepsAfter_line {front : List Char} (h : AtLineStart front) (l : SourceLine)
    (rest : List Char) : stepsAfter front (l.text ++ rest) =
      (l.step? (lineFeeds front + 1)).toList ++ stepsAfter (front ++ l.text) rest := by
  cases l with
  | other s _ hsign => exact stepsAfter_append hsign front rest
  | entry n k hk v =>
    have hspaces : '@' ∉ List.replicate n ' ' := by simp
    have hfeeds : lineFeeds (List.replicate n ' ') = 0 := lineFeeds_eq_zero.mpr (by simp)
    calc stepsAfter front ((SourceLine.entry n k hk v).text ++ rest)
        = stepsAfter front (List.replicate n ' ' ++ '@' :: (written k v ++ ([')'] ++ rest))) := by
          simp [SourceLine.text]
      _ = stepsAfter (front ++ List.replicate n ' ') ('@' :: (written k v ++ ([')'] ++ rest))) :=
          stepsAfter_append hspaces _ _
      _ = ⟨.infer (String.ofList v), lineFeeds front + 1, some k⟩ ::
            stepsAfter (front ++ List.replicate n ' ' ++ '@' :: written k v) ([')'] ++ rest) := by
          rw [stepsAfter_written (inComment_spaces h n) hk, lineFeeds_append, hfeeds, Nat.add_zero]
      _ = _ := by
          rw [stepsAfter_append (by decide)]
          simp [SourceLine.text, SourceLine.step?]

theorem lineFeeds_text (l : SourceLine) : lineFeeds l.text = 0 := by
  cases l with
  | other s hline _ => exact lineFeeds_eq_zero.mpr hline
  | entry n k hk v =>
    have hname : ∀ k ∈ keywords, '\n' ∉ k.text.toList := by decide
    have hescape : '\n' ∉ escape v := lineFeeds_eq_zero.mp (lineFeeds_escape v)
    rw [lineFeeds_eq_zero]
    simp [SourceLine.text, written, hname k hk, hescape]

theorem sourceOf_cons_cons (l m : SourceLine) (lines : List SourceLine) :
    sourceOf (l :: m :: lines) = l.text ++ (['\n'] ++ sourceOf (m :: lines)) := by
  simp [sourceOf, List.intercalate]

theorem stepsAfter_sourceOf {front : List Char} (h : AtLineStart front) (lines : List SourceLine) :
    stepsAfter front (sourceOf lines) =
      (lines.zipIdx (lineFeeds front + 1)).filterMap fun (l, n) => l.step? n := by
  induction lines generalizing front with
  | nil => simp [sourceOf, stepsAfter, sites]
  | cons l lines ih =>
    rw [List.filterMap_eq_flatMap_toList, List.zipIdx_cons, List.flatMap_cons,
      ← List.filterMap_eq_flatMap_toList]
    cases lines with
    | nil => simpa [sourceOf, stepsAfter, sites] using stepsAfter_line h l []
    | cons m lines =>
      have hfeeds : lineFeeds (front ++ l.text ++ ['\n']) = lineFeeds front + 1 := by
        rw [lineFeeds_append, lineFeeds_append, lineFeeds_text]
        rfl
      rw [sourceOf_cons_cons, stepsAfter_line h, stepsAfter_append (by decide),
        ih (atLineStart_feed _), hfeeds]

/-- What is written line by line is read back, with the number of its line. -/
theorem extract_sourceOf (lines : List SourceLine) :
    extract (String.ofList (sourceOf lines)) =
      .ok { steps := (lines.zipIdx 1).filterMap fun (l, n) => l.step? n, rejected := [] } := by
  have hsteps := stepsAfter_sourceOf (rfl : AtLineStart []) lines
  unfold extract
  rw [String.toList_ofList]
  exact congrArg (fun found => Except.ok (GlueSteps.mk found [])) hsteps

example : sourceOf [.other "class A \x7b".toList (by decide) (by decide),
      .entry 2 .when (by decide) "I say \"@Given\"".toList] =
    "class A \x7b\n  @When(\"I say \\\"@Given\\\"\")".toList := by
  decide

end StepGlue.Annotation
