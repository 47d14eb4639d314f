import StepGlue.Glue.Basic
import StepGlue.Regex.Unicode.Property
import StepGlue.Text.Blank
import StepGlue.Text.Units

/-! Step definitions written as annotations, such as `@Given("I have {int} cukes")`.

The source is scanned for annotations, not read as a program. Each one that is found is passed
over as a whole, so none starts inside another one. -/

namespace StepGlue.Annotation

/-- The characters of a dotted name. -/
def isNameChar (c : Char) : Bool := c == '.' || Regex.wordClass.contains c

/-- The keywords that an annotation can be named for. -/
def keywords : List Keyword := [.given, .when, .«then», .and, .but]

/-- What may stand before the last part of a name: nothing, or a text of at least two characters
that ends with a dot. -/
def isQualifier (q : List Char) : Bool := q.isEmpty || (2 ≤ q.length && q.getLast? == some '.')

def keyword? (name : List Char) : Option Keyword :=
  keywords.find? fun k =>
    let word := k.text.toList
    word.isSuffixOf name && isQualifier (name.take (name.length - word.length))

/-- A string literal up to its closing quotation mark, and what follows it. Escapes stay as they
are written, and a literal does not go beyond its line. -/
def literal? : List Char → Option (List Char × List Char)
  | [] => none
  | '"' :: rest => some ([], rest)
  | '\\' :: c :: s =>
    if c = '\n' then none else (literal? s).map fun (body, rest) => ('\\' :: c :: body, rest)
  | c :: s =>
    if c = '\\' ∨ c = '\n' then none else (literal? s).map fun (body, rest) => (c :: body, rest)

/-- Passes over the name of the argument, if it is given. -/
def dropArgumentName (s : List Char) : List Char :=
  if "value".toList.isPrefixOf s then
    match trimStart (s.drop 5) with
    | '=' :: rest => trimStart rest
    | _ => s
  else s

/-- An annotation after its sign: its keyword, the literal and what follows the literal. -/
def annotation? (s : List Char) : Option (Keyword × List Char × List Char) :=
  match keyword? (s.takeWhile isNameChar), trimStart (s.dropWhile isNameChar) with
  | some k, '(' :: s =>
    match dropArgumentName (trimStart s) with
    | '"' :: s => (literal? s).map fun (body, rest) => (k, body, rest)
    | _ => none
  | _, _ => none

theorem length_trimStart_le (s : List Char) : (trimStart s).length ≤ s.length :=
  (List.dropWhile_sublist isBlank).length_le

theorem length_dropArgumentName_le (s : List Char) : (dropArgumentName s).length ≤ s.length := by
  unfold dropArgumentName
  split
  · split
    · rename_i rest hs
      have hd := length_trimStart_le (s.drop 5)
      have hr := length_trimStart_le rest
      rw [hs, List.length_cons, List.length_drop] at hd
      omega
    · exact Nat.le_refl _
  · exact Nat.le_refl _

theorem literal?_length {s body rest : List Char} (h : literal? s = some (body, rest)) :
    rest.length < s.length := by
  fun_induction literal? s generalizing body rest with
  | case1 => cases h
  | case2 r => cases h; simp
  | case3 => cases h
  | case4 c s hc ih =>
    obtain ⟨⟨b, r⟩, hb, he⟩ := Option.map_eq_some_iff.1 h
    cases he
    have := ih hb
    simp only [List.length_cons]
    omega
  | case5 => cases h
  | case6 c s _ _ hc ih =>
    obtain ⟨⟨b, r⟩, hb, he⟩ := Option.map_eq_some_iff.1 h
    cases he
    have := ih hb
    simp only [List.length_cons]
    omega

theorem annotation?_length {s body rest : List Char} {k : Keyword}
    (h : annotation? s = some (k, body, rest)) : rest.length < s.length := by
  unfold annotation? at h
  split at h
  · rename_i t hk hs
    split at h
    · rename_i u hq
      obtain ⟨⟨b, r⟩, hb, he⟩ := Option.map_eq_some_iff.1 h
      cases he
      have h1 := literal?_length hb
      have h2 := length_dropArgumentName_le (trimStart t)
      rw [hq, List.length_cons] at h2
      have h3 := length_trimStart_le (s.dropWhile isNameChar)
      rw [hs, List.length_cons] at h3
      have h4 := (List.dropWhile_sublist (l := s) isNameChar).length_le
      have h5 := length_trimStart_le t
      omega
    · cases h
  · cases h

/-- Reads the escapes of a literal. One that is not known stands for itself. -/
def unescape : List Char → List Char
  | [] => []
  | '\\' :: c :: s =>
    (match c with
      | 'n' => ['\n']
      | 't' => ['\t']
      | 'r' => ['\r']
      | '\\' | '"' | '\'' => [c]
      | _ => ['\\', c]) ++ unescape s
  | c :: s => c :: unescape s

/-- Whether a line up to some place starts as a comment does. The text before that place is given
backwards. -/
def inComment (seen : List Char) : Bool :=
  match trimStart (seen.takeWhile (· ≠ '\n')).reverse with
  | '*' :: _ => true
  | '/' :: c :: _ => c == '/' || c == '*'
  | _ => false

/-- An annotation of a text: what stands before its sign, backwards, its keyword, and its literal
as it is written. -/
structure Site where
  seen : List Char
  keyword : Keyword
  literal : List Char
deriving DecidableEq, Repr

/-- The annotations of a text, given what stands before it backwards. -/
def sites (seen : List Char) : List Char → List Site
  | [] => []
  | c :: s =>
    if c = '@' then
      match _h : annotation? s with
      | some (k, body, rest) =>
        ⟨seen, k, body⟩ :: sites ((s.take (s.length - rest.length)).reverse ++ c :: seen) rest
      | none => sites (c :: seen) s
    else sites (c :: seen) s
termination_by s => s.length
decreasing_by
  · exact Nat.lt_succ_of_lt (annotation?_length _h)
  · simp
  · simp

def Site.step (a : Site) : GlueStep :=
  ⟨.infer (String.ofList (unescape a.literal)), lineFeeds a.seen + 1, some a.keyword⟩

/-- The definitions of a source file, none of which is ever rejected. -/
def extract (source : String) : Except GlueError GlueSteps :=
  .ok { steps := ((sites [] source.toList).filter (!inComment ·.seen)).map Site.step }

end StepGlue.Annotation
