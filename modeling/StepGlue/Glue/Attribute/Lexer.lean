import StepGlue.Glue.Attribute.Literal
import StepGlue.Glue.Basic
import StepGlue.Text.Blank

/-! Cutting a source file into tokens. -/

namespace StepGlue.Attribute

/-- The rest of a block comment that is some levels deep: its text, and what follows it. -/
def blockComment? : Nat → List Char → Option (List Char × List Char)
  | _, [] => none
  | depth, '/' :: '*' :: s =>
    (blockComment? (depth + 1) s).map fun (t, rest) => ('/' :: '*' :: t, rest)
  | depth, '*' :: '/' :: s =>
    if depth ≤ 1 then some (['*', '/'], s)
    else (blockComment? (depth - 1) s).map fun (t, rest) => ('*' :: '/' :: t, rest)
  | depth, c :: s => (blockComment? depth s).map fun (t, rest) => (c :: t, rest)

/-- How a text starts that documents what follows it, or what it stands in. -/
inductive DocMark
  | lineOuter | lineInner | blockOuter | blockInner
deriving DecidableEq, Repr

def docMark? : List Char → Option DocMark
  | '/' :: '/' :: '!' :: _ => some .lineInner
  | '/' :: '/' :: '/' :: '/' :: _ => none
  | '/' :: '/' :: '/' :: _ => some .lineOuter
  | '/' :: '*' :: '!' :: _ => some .blockInner
  | '/' :: '*' :: '*' :: '*' :: _ => none
  | '/' :: '*' :: '*' :: '/' :: _ => none
  | '/' :: '*' :: '*' :: _ => some .blockOuter
  | _ => none

/-- One comment or blank at the front of a text, and what follows it. -/
def trivia? (s : List Char) : Option (List Char × List Char) :=
  match s with
  | '/' :: '/' :: _ =>
    if (docMark? s).isSome then none
    else some (s.takeWhile (· ≠ '\n'), s.dropWhile (· ≠ '\n'))
  | '/' :: '*' :: t =>
    if (docMark? s).isSome then none else (blockComment? 1 t)
  | c :: t =>
    if isBlank c || c.toNat == 0x200E || c.toNat == 0x200F then some ([c], t) else none
  | [] => none

/-- Whether every carriage return stands before a line feed. -/
def returnsPaired : List Char → Bool
  | [] => true
  | '\r' :: s => s.head? == some '\n' && returnsPaired s
  | _ :: s => returnsPaired s

/-- A documenting comment as the attribute that it is short for, the line on which it ends, and
what follows it. -/
def docComment? (line : Nat) (s : List Char) : Option (List Token × Nat × List Char) := do
  let mark ← docMark? s
  let body := s.drop 3
  let (text, rest, last) ← match mark with
    | .lineOuter | .lineInner =>
      let whole := body.takeWhile (· ≠ '\n')
      let rest := body.dropWhile (· ≠ '\n')
      let text := if rest ≠ [] ∧ whole.getLast? = some '\r' then whole.dropLast else whole
      pure (text, rest, line)
    | .blockOuter | .blockInner => do
      let (whole, rest) ← blockComment? 1 body
      pure (whole.dropLast.dropLast, rest, line + lineFeeds whole)
  guard (returnsPaired text)
  let bang := if mark = .lineInner ∨ mark = .blockInner then [Token.punct '!' false line] else []
  let inner := [.ident "doc" line, .punct '=' false line, .text (String.ofList text) line]
  return (.punct '#' false line :: (bang ++ [.group .bracket inner line last]), last, rest)

/-- A mark of punctuation at the front of a text. The stroke of a comment is none. -/
def punctChar? : List Char → Option (Char × List Char)
  | '/' :: '/' :: _ | '/' :: '*' :: _ => none
  | c :: s => if "~!@#$%^&*-=+|;:,<.>/?'".toList.contains c then some (c, s) else none
  | [] => none

/-- Punctuation as a token. The mark of a lifetime is only one before an identifier that no
further mark closes. -/
def punct? (line : Nat) (s : List Char) : Option (Token × List Char) := do
  let (c, rest) ← punctChar? s
  if c = '\'' then
    let (_, after) ← identifier? rest
    let isRaw := ['r', '#'].isPrefixOf rest
    if after.head? = some '\'' ∨ (after.head? = some '#' ∧ !isRaw) then none
    else some (.punct c true line, rest)
  else some (.punct c (punctChar? rest).isSome line, rest)

/-- The starts of literals, at which no identifier starts. -/
def literalStarts : List String :=
  ["r\"", "r#\"", "r##", "b\"", "b'", "br\"", "br#", "c\"", "cr\"", "cr#"]

def ident? (line : Nat) (s : List Char) : Option (Token × List Char) :=
  if literalStarts.any fun p => p.toList.isPrefixOf s then none
  else (identifier? s).map fun (word, rest) => (.ident (String.ofList word) line, rest)

/-- A token that is no bracket. -/
def leaf? (line : Nat) (s : List Char) : Option (Token × Nat × List Char) :=
  (literal? line s).or <|
    (((punct? line s).or (ident? line s)).map fun (t, rest) => (t, line, rest))

/-- A bracket that waits to be closed: its line, and the tokens before it, last one first. -/
structure OpenGroup where
  delimiter : Delimiter
  line : Nat
  before : List Token

/-- The error of a text that has no tokens. -/
def lexError (line : Nat) : GlueError := ⟨"cannot parse string into token stream", line⟩

/-- Cuts a text into tokens, step by step; every step takes at least one character. An open
bracket at the end is blamed where it stands. -/
def lex : Nat → Nat → List Char → List Token → List OpenGroup → Except GlueError (List Token)
  | 0, line, _, _, _ => .error (lexError line)
  | n + 1, line, s, done, open_ =>
    match s with
    | [] => match open_ with
      | [] => .ok done.reverse
      | g :: _ => .error (lexError g.line)
    | c :: rest =>
      match trivia? s with
      | some (text, rest) => lex n (line + lineFeeds text) rest done open_
      | none => match docComment? line s with
        | some (tokens, last, rest) => lex n last rest (tokens.reverse ++ done) open_
        | none => match Delimiter.all.find? (·.opening == c) with
          | some d => lex n line rest [] (⟨d, line, done⟩ :: open_)
          | none => match Delimiter.all.find? (·.closing == c), open_ with
            | some d, g :: outer =>
              if g.delimiter = d then
                lex n line rest (.group d done.reverse g.line line :: g.before) outer
              else .error (lexError line)
            | some _, [] => .error (lexError line)
            | none, _ => match leaf? line s with
              | some (t, last, rest) => lex n last rest (t :: done) open_
              | none => .error (lexError line)

/-- Passes over comments and blanks. -/
def dropTrivia : Nat → List Char → List Char
  | 0, s => s
  | n + 1, s => match trivia? s with
    | some (_, rest) => dropTrivia n rest
    | none => s

def dropByteOrderMark : List Char → List Char
  | c :: s => if c.toNat = 0xFEFF then s else c :: s
  | [] => []

/-- Takes away a first line that names an interpreter. -/
def dropInterpreterLine (s : List Char) : List Char :=
  match s with
  | '#' :: '!' :: t =>
    if (dropTrivia t.length t).head? = some '[' then s else s.dropWhile (· ≠ '\n')
  | _ => s

/-- The tokens of a source file. -/
def tokenize (source : String) : Except GlueError (List Token) :=
  let s := dropByteOrderMark (dropInterpreterLine (dropByteOrderMark source.toList))
  lex (s.length + 1) 1 s [] []

end StepGlue.Attribute
