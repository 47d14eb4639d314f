import Mathlib.Data.List.Infix

/-! Comments and literals of a Java source.

A source is read one character at a time, from its beginning, and what is read so far says whether
a place is in code, in a comment or in a literal. Unicode escapes are taken to be translated. -/

namespace StepGlue.Annotation

/-- A line of a source ends with either of these. -/
def isLineEnd (c : Char) : Bool := c == '\n' || c == '\r'

/-- Where a reader of a source is. -/
inductive Mode
  | code
  /-- Behind a slash that may open a comment. -/
  | slash
  | lineComment
  | block
  /-- Behind a star that may close a block comment. -/
  | star
  /-- Behind a quotation mark that opens a string or a text block. -/
  | opened
  /-- Behind two quotation marks: an empty string, unless a third one follows. -/
  | empty
  /-- In a string or a character that is closed by this mark. -/
  | quoted (mark : Char)
  | escaped (mark : Char)
  /-- In a text block, behind this many quotation marks of the three that close it. -/
  | text (marks : Nat)
  | textEscaped
deriving DecidableEq, Repr

namespace Mode

/-- What a character opens in code. -/
def start (c : Char) : Mode :=
  if c = '/' then slash else if c = '"' then opened else if c = '\'' then quoted c else code

/-- A character in a literal that does not go beyond its line. -/
def inQuotes (mark c : Char) : Mode :=
  if c = mark ∨ isLineEnd c then code else if c = '\\' then escaped mark else quoted mark

def next : Mode → Char → Mode
  | code, c => start c
  | slash, c => if c = '/' then lineComment else if c = '*' then block else start c
  | lineComment, c => if isLineEnd c then code else lineComment
  | block, c => if c = '*' then star else block
  | star, c => if c = '/' then code else if c = '*' then star else block
  | opened, c => if c = '"' then empty else inQuotes '"' c
  | empty, c => if c = '"' then text 0 else start c
  | quoted mark, c => inQuotes mark c
  | escaped mark, c => if isLineEnd c then code else quoted mark
  | text n, c =>
    if c = '"' then if n = 2 then code else text (n + 1)
    else if c = '\\' then textEscaped else text 0
  | textEscaped, _ => text 0

/-- Whether a slash would be the first one of something new. -/
def isCode : Mode → Bool
  | code | empty => true
  | _ => false

end Mode

/-- Where a reader is behind a text. -/
def lex (s : List Char) : Mode := s.foldl Mode.next .code

theorem lex_append (s t : List Char) : lex (s ++ t) = t.foldl Mode.next (lex s) :=
  List.foldl_append

theorem lex_concat (s : List Char) (c : Char) : lex (s ++ [c]) = (lex s).next c :=
  lex_append s [c]

/-! ### Comments -/

inductive Comment
  | line
  | block
deriving DecidableEq, Repr

namespace Comment

/-- What makes a slash open a comment. -/
def second : Comment → Char
  | line => '/'
  | block => '*'

def opener (k : Comment) : List Char := ['/', k.second]

/-- Whether a comment is still open behind a text that follows its opener. -/
def Holds : Comment → List Char → Prop
  | line, s => ∀ c ∈ s, isLineEnd c = false
  | block, s => ¬['*', '/'] <:+: s

/-- Where a reader is behind the opener. -/
def mode : Comment → Mode
  | line => .lineComment
  | block => .block

end Comment

/-- The comment that a reader is in. -/
def Mode.comment? : Mode → Option Comment
  | lineComment => some .line
  | block | star => some .block
  | _ => none

theorem Mode.comment?_eq_block {m : Mode} : m.comment? = some .block ↔ m = .block ∨ m = .star := by
  cases m <;> simp [comment?]

theorem Mode.next_eq_slash {m : Mode} {c : Char} :
    m.next c = .slash ↔ c = '/' ∧ m.isCode = true := by
  cases m <;> grind [next, start, inQuotes, isCode]

theorem Mode.next_eq_star {m : Mode} {c : Char} (h : m.next c = .star) : c = '*' := by
  cases m <;> grind [next, start, inQuotes]

/-- A reader in a comment was in it before, or has just read the second character of its opener. -/
theorem Mode.comment?_next {m : Mode} {c : Char} {k : Comment} (h : (m.next c).comment? = some k) :
    m.comment? = some k ∨ m = .slash ∧ c = k.second := by
  cases m <;> grind [next, start, inQuotes, comment?, Comment.second]

theorem Mode.next_second (k : Comment) : Mode.slash.next k.second = k.mode := by
  cases k <;> rfl

theorem foldl_opener {m : Mode} (h : m.isCode = true) (k : Comment) :
    k.opener.foldl Mode.next m = k.mode := by
  have hslash : m.next '/' = .slash := Mode.next_eq_slash.mpr ⟨rfl, h⟩
  rw [Comment.opener, List.foldl_cons, hslash]
  exact Mode.next_second k

/-- Behind a slash that may open a comment, it was the last character. -/
theorem eq_concat_of_foldl_eq_slash {m : Mode} (hm : m ≠ .slash) {s : List Char}
    (h : s.foldl Mode.next m = .slash) :
    ∃ front, s = front ++ ['/'] ∧ (front.foldl Mode.next m).isCode = true := by
  induction s using List.reverseRecOn with
  | nil => exact absurd h hm
  | append_singleton front c _ =>
    rw [List.foldl_concat, Mode.next_eq_slash] at h
    exact ⟨front, by rw [h.1], h.2⟩

/-! ### How long a comment stays open -/

theorem foldl_lineComment {tail : List Char} (h : Comment.line.Holds tail) :
    tail.foldl Mode.next .lineComment = .lineComment := by
  induction tail with
  | nil => rfl
  | cons c tail ih =>
    obtain ⟨hc, htail⟩ := List.forall_mem_cons.mp h
    have hstay : Mode.lineComment.next c = .lineComment := by simp [Mode.next, hc]
    rw [List.foldl_cons, hstay, ih htail]

/-- Behind a star of a block comment, the star was the last character. -/
theorem eq_concat_of_foldl_block_eq_star {tail : List Char}
    (h : tail.foldl Mode.next .block = .star) : ∃ s, tail = s ++ ['*'] := by
  induction tail using List.reverseRecOn with
  | nil => cases h
  | append_singleton s c _ =>
    rw [List.foldl_append] at h
    exact ⟨s, by rw [Mode.next_eq_star h]⟩

theorem comment?_block_next (c : Char) : (Mode.block.next c).comment? = some .block := by
  grind [Mode.next, Mode.comment?]

theorem comment?_star_next {c : Char} :
    (Mode.star.next c).comment? = some .block ↔ c ≠ '/' := by
  grind [Mode.next, Mode.comment?]

theorem Comment.Holds.of_concat {k : Comment} {s : List Char} {c : Char} (h : k.Holds (s ++ [c])) :
    k.Holds s := by
  cases k with
  | line => exact (List.forall_mem_append.mp h).1
  | block => exact fun hclose => h (hclose.trans (List.prefix_append s [c]).isInfix)

theorem comment?_foldl_block {tail : List Char} (h : Comment.block.Holds tail) :
    (tail.foldl Mode.next .block).comment? = some .block := by
  induction tail using List.reverseRecOn with
  | nil => rfl
  | append_singleton s c ih =>
    rw [List.foldl_append]
    rcases Mode.comment?_eq_block.mp (ih h.of_concat) with hmode | hmode
    · rw [hmode]
      exact comment?_block_next c
    · obtain ⟨t, rfl⟩ := eq_concat_of_foldl_block_eq_star hmode
      rw [hmode]
      refine comment?_star_next.mpr ?_
      rintro rfl
      exact h ⟨t, [], by simp⟩

theorem comment?_of_holds {k : Comment} {tail : List Char} (h : k.Holds tail) :
    (tail.foldl Mode.next k.mode).comment? = some k := by
  cases k with
  | line => exact congrArg Mode.comment? (foldl_lineComment h)
  | block => exact comment?_foldl_block h

/-- A comment that the next character does not close stays open. -/
theorem Comment.Holds.concat {k : Comment} {s : List Char} {c : Char} (h : k.Holds s)
    (hnext : ((s.foldl Mode.next k.mode).next c).comment? = some k) : k.Holds (s ++ [c]) := by
  cases k with
  | line =>
    rw [Comment.mode, foldl_lineComment h] at hnext
    have hc : isLineEnd c = false := by grind [Mode.next, Mode.comment?]
    exact List.forall_mem_append.mpr ⟨h, List.forall_mem_singleton.mpr hc⟩
  | block =>
    intro hclose
    rcases List.infix_concat_iff.mp hclose with hend | hbefore
    · obtain ⟨t, ht⟩ := hend
      have hsplit : t ++ ['*'] ++ ['/'] = s ++ [c] := by simpa using ht
      obtain ⟨hs, hc⟩ := List.append_inj' hsplit rfl
      have hstar : s.foldl Mode.next .block = .star := by
        have hopen : Comment.block.Holds t := Comment.Holds.of_concat (hs ▸ h)
        rw [← hs, List.foldl_append]
        rcases Mode.comment?_eq_block.mp (comment?_foldl_block hopen) with hmode | hmode <;>
          rw [hmode] <;> rfl
      rw [Comment.mode, hstar] at hnext
      exact comment?_star_next.mp hnext (List.singleton_inj.mp hc).symm
    · exact h hbefore

/-! ### Lines -/

/-- Where a reader can be when a line opens: in code, in a block comment or in a text block. -/
def Mode.OpensLine (m : Mode) : Prop := m = .code ∨ m = .block ∨ m = .text 0

theorem Mode.opensLine_next_feed (m : Mode) : (m.next '\n').OpensLine := by
  cases m <;> grind [OpensLine, next, start, inQuotes, isLineEnd]

/-- A place in a line is in a comment if the comment was opened before the line or in it, and is
still open. -/
theorem comment?_foldl_iff {m : Mode} (hm : m.OpensLine) {s : List Char} {k : Comment} :
    (s.foldl Mode.next m).comment? = some k ↔
      (m = k.mode ∧ k.Holds s) ∨
        ∃ front tail, s = front ++ k.opener ++ tail ∧ (front.foldl Mode.next m).isCode = true ∧
          k.Holds tail := by
  constructor
  · -- The last character tells whether the comment is still open, so the text grows at its end.
    have hslash : m ≠ .slash := by grind [Mode.OpensLine]
    induction s using List.reverseRecOn with
    | nil =>
      intro h
      refine .inl ⟨?_, ?_⟩
      · cases k <;> grind [Mode.OpensLine, Mode.comment?, Comment.mode]
      · cases k <;> simp [Comment.Holds]
    | append_singleton s c ih =>
      intro h
      rw [List.foldl_concat] at h
      rcases Mode.comment?_next h with hin | ⟨hopens, rfl⟩
      · rcases ih hin with ⟨rfl, hopen⟩ | ⟨front, tail, rfl, hcode, hopen⟩
        · exact .inl ⟨rfl, hopen.concat h⟩
        · rw [List.foldl_append, List.foldl_append, foldl_opener hcode] at h
          exact .inr ⟨front, tail ++ [c], List.append_assoc _ _ _, hcode, hopen.concat h⟩
      · obtain ⟨front, rfl, hcode⟩ := eq_concat_of_foldl_eq_slash hslash hopens
        refine .inr ⟨front, [], by simp [Comment.opener], hcode, ?_⟩
        cases k <;> simp [Comment.Holds]
  · rintro (⟨rfl, hopen⟩ | ⟨front, tail, rfl, hcode, hopen⟩)
    · exact comment?_of_holds hopen
    · rw [List.foldl_append, List.foldl_append, foldl_opener hcode]
      exact comment?_of_holds hopen

/-- A place is in a comment if one was opened in code before it and is still open. -/
theorem comment?_lex_iff {s : List Char} {k : Comment} :
    (lex s).comment? = some k ↔
      ∃ front tail, s = front ++ k.opener ++ tail ∧ (lex front).isCode = true ∧ k.Holds tail := by
  have hmode : Mode.code ≠ k.mode := by cases k <;> decide
  simpa [hmode, lex] using comment?_foldl_iff (.inl rfl : Mode.code.OpensLine) (s := s) (k := k)

example : (lex "s = \"/*\"; // a".toList).comment? = some .line := by decide

end StepGlue.Annotation
