import StepGlue.Regex.Tree
import StepGlue.Text.Lines

/-! Why a pattern is no regular expression, and the text that says so: the pattern with marks
under the offending characters. -/

namespace StepGlue.Regex

inductive ErrorKind
  | captureNameDuplicate | captureNameEmpty | captureNameInvalid | captureNameUnclosed
  | classEscapeInvalid | classRangeInvalid | classRangeLiteral | classUnclosed
  | decimalInvalid
  | escapeHexEmpty | escapeHexInvalid | escapeHexInvalidDigit
  | escapeUnexpectedEnd | escapeUnrecognized
  | flagDanglingNegation | flagDuplicate | flagRepeatedNegation | flagUnexpectedEnd
  | flagUnrecognized
  | groupUnclosed | groupUnopened
  | nestLimit
  | repetitionCountInvalid | repetitionCountEmpty | repetitionCountUnclosed | repetitionMissing
  | specialWordUnclosed | specialWordUnrecognized | specialWordUnexpectedEnd
  | namedClassInvalid
  | backreference | lookAround
  | propertyNotFound | propertyValueNotFound
  | unicodeNotAllowed | invalidUtf8
deriving DecidableEq, Repr

/-- How deeply groups, classes, repetitions and sequences may be nested. -/
def nestLimit : Nat := 250

def ErrorKind.text : ErrorKind → String
  | .captureNameDuplicate => "duplicate capture group name"
  | .captureNameEmpty => "empty capture group name"
  | .captureNameInvalid => "invalid capture group character"
  | .captureNameUnclosed => "unclosed capture group name"
  | .classEscapeInvalid => "invalid escape sequence found in character class"
  | .classRangeInvalid => "invalid character class range, the start must be <= the end"
  | .classRangeLiteral => "invalid range boundary, must be a literal"
  | .classUnclosed => "unclosed character class"
  | .decimalInvalid => "decimal literal invalid"
  | .escapeHexEmpty => "hexadecimal literal empty"
  | .escapeHexInvalid => "hexadecimal literal is not a Unicode scalar value"
  | .escapeHexInvalidDigit => "invalid hexadecimal digit"
  | .escapeUnexpectedEnd => "incomplete escape sequence, reached end of pattern prematurely"
  | .escapeUnrecognized => "unrecognized escape sequence"
  | .flagDanglingNegation => "dangling flag negation operator"
  | .flagDuplicate => "duplicate flag"
  | .flagRepeatedNegation => "flag negation operator repeated"
  | .flagUnexpectedEnd => "expected flag but got end of regex"
  | .flagUnrecognized => "unrecognized flag"
  | .groupUnclosed => "unclosed group"
  | .groupUnopened => "unopened group"
  | .nestLimit => "exceed the maximum number of nested parentheses/brackets (250)"
  | .repetitionCountInvalid => "invalid repetition count range, the start must be <= the end"
  | .repetitionCountEmpty => "repetition quantifier expects a valid decimal"
  | .repetitionCountUnclosed => "unclosed counted repetition"
  | .repetitionMissing => "repetition operator missing expression"
  | .specialWordUnclosed => "special word boundary assertion is either unclosed or "
      ++ "contains an invalid character"
  | .specialWordUnrecognized => "unrecognized special word boundary assertion, "
      ++ "valid choices are: start, end, start-half or end-half"
  | .specialWordUnexpectedEnd => "found either the beginning of a special word boundary "
      ++ "or a bounded repetition on a \\b with an opening brace, but no closing brace"
  | .namedClassInvalid => "invalid Unicode character class"
  | .backreference => "backreferences are not supported"
  | .lookAround => "look-around, including look-ahead and look-behind, is not supported"
  | .propertyNotFound => "Unicode property not found"
  | .propertyValueNotFound => "Unicode property value not found"
  | .unicodeNotAllowed => "Unicode not allowed here"
  | .invalidUtf8 => "pattern can match invalid UTF-8"

/-- A fault of a pattern: what is wrong, where, and, where two places clash, the other one. -/
structure Fault where
  kind : ErrorKind
  region : Region
  other : Option Region := none
deriving DecidableEq, Repr

/-- The largest size of a compiled pattern, in bytes. -/
def sizeLimit : Nat := 10485760

inductive Error
  | malformed (pattern : String) (fault : Fault)
  | tooLarge
deriving DecidableEq, Repr

/-- A place of a pattern by line and column, both from one. -/
structure Place where
  line : Nat
  column : Nat
deriving DecidableEq, Repr

def placeFrom : Place → List Char → Nat → Place
  | p, [], _ => p
  | p, _ :: _, 0 => p
  | p, c :: s, n + 1 =>
    placeFrom (if c = '\n' then ⟨p.line + 1, 1⟩ else ⟨p.line, p.column + 1⟩) s n

/-- Marks under a line: a caret for each character of each region, and at least one. -/
def caretLine (marks : List (Nat × Nat)) : List Char :=
  go 0 marks
where
  go (column : Nat) : List (Nat × Nat) → List Char
    | [] => []
    | (start, stop) :: rest =>
      let width := max 1 (stop - start)
      List.replicate (start - 1 - column) ' ' ++ List.replicate width '^'
        ++ go (max column (start - 1) + width) rest

/-- The regions of a fault in ascending order. -/
def Fault.regions (f : Fault) : List Region :=
  match f.other with
  | none => [f.region]
  | some o =>
    if o.start < f.region.start ∨ (o.start = f.region.start ∧ o.stop ≤ f.region.stop)
    then [o, f.region] else [f.region, o]

/-- The lines of a pattern, each with the marks that fall on it. -/
def Fault.annotated (pattern : List Char) (f : Fault) : List Char :=
  let lines := textLines pattern
  let count := lines.length + if pattern.getLast? = some '\n' then 1 else 0
  let width := if count ≤ 1 then 0 else (toString count).length
  let places := f.regions.map fun r =>
    (placeFrom ⟨1, 1⟩ pattern r.start, placeFrom ⟨1, 1⟩ pattern r.stop)
  let row := fun (entry : List Char × Nat) =>
    let number := (toString (entry.2 + 1)).toList
    let lead := if width = 0 then List.replicate 4 ' '
      else List.replicate (width - number.length) ' ' ++ number ++ [':', ' ']
    let marks := (places.filter fun p => p.1.line = p.2.line ∧ p.1.line = entry.2 + 1).map
      fun p => (p.1.column, p.2.column)
    let pad := if width = 0 then 4 else width + 2
    lead ++ entry.1 ++ ['\n']
      ++ if marks.isEmpty then [] else List.replicate pad ' ' ++ caretLine marks ++ ['\n']
  lines.zipIdx.flatMap row

/-- Notes on regions that cover more than one line. -/
def Fault.notes (pattern : List Char) (f : Fault) : List String :=
  f.regions.filterMap fun r =>
    let a := placeFrom ⟨1, 1⟩ pattern r.start
    let b := placeFrom ⟨1, 1⟩ pattern r.stop
    if a.line = b.line then none
    else some ("on line " ++ toString a.line ++ " (column " ++ toString a.column
      ++ ") through line " ++ toString b.line ++ " (column " ++ toString (b.column - 1) ++ ")")

def Fault.message (pattern : String) (f : Fault) : String :=
  let text := pattern.toList
  let body := String.ofList (f.annotated text)
  if text.contains '\n' then
    let divider := String.ofList (List.replicate 79 '~') ++ "\n"
    let notes := f.notes text
    "regex parse error:\n" ++ divider ++ body ++ divider
      ++ (if notes.isEmpty then "" else "\n".intercalate notes ++ "\n")
      ++ "error: " ++ f.kind.text
  else "regex parse error:\n" ++ body ++ "error: " ++ f.kind.text

def Error.message : Error → String
  | .malformed pattern fault => fault.message pattern
  | .tooLarge => "Compiled regex exceeds size limit of " ++ toString sizeLimit ++ " bytes."

end StepGlue.Regex
