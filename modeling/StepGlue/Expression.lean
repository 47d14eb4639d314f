import StepGlue.Parameter
import StepGlue.Regex.Escape
import StepGlue.Text.Blank

/-! Step expressions: text with parameters in braces, optional text in parentheses and
alternatives between slashes. An expression is cut into tokens, and the tokens are written as a
regular expression that spans the whole step. -/

namespace StepGlue

/-- What an expression is made of. Offsets are in bytes. -/
inductive Token
  | text (s : List Char)
  | blank (s : List Char)
  | optional (start : Nat) (s : List Char)
  | parameter (start : Nat) (name : List Char)
  | slash (start : Nat)
deriving DecidableEq, Repr

/-- What is wrong with an expression. -/
inductive ExpressionFault
  | closingBrace | closingParenthesis
  | nameCharacter | nameBlank | nameUnclosed
  | optionalEmpty | optionalNested | optionalUnclosed
  | parameterInAlternation | alternativeEmpty | parameterUndefined | alternationUnexpected
deriving DecidableEq, Repr

def ExpressionFault.text : ExpressionFault → String
  | .closingBrace => "unmatched closing brace '\x7d' in expression"
  | .closingParenthesis => "unmatched closing parenthesis ')' in expression"
  | .nameCharacter => "invalid character in parameter type name"
  | .nameBlank => "parameter type names must not contain whitespace"
  | .nameUnclosed => "missing closing '\x7d' for parameter type"
  | .optionalEmpty => "optional text must not be empty"
  | .optionalNested => "parameters and nested optionals are not allowed inside an optional"
  | .optionalUnclosed => "missing closing ')' for optional text"
  | .parameterInAlternation => "parameter types are not allowed in an alternation"
  | .alternativeEmpty => "alternative text must not be empty"
  | .parameterUndefined => "undefined parameter type"
  | .alternationUnexpected => "unexpected alternation"

/-- A fault of an expression, the byte offset that it points at, and the parameter that it is
about. -/
structure ExpressionError where
  fault : ExpressionFault
  position : Nat
  parameter : Option String := none
deriving DecidableEq, Repr

def ExpressionError.message (e : ExpressionError) : String :=
  let about := match e.parameter with
    | some name => " for parameter type `\x7b" ++ name ++ "\x7d`"
    | none => ""
  e.fault.text ++ about ++ " at byte " ++ toString e.position ++ " (zero-based)"

/-- Puts a character of text before some tokens; text tokens never touch. -/
def consText (c : Char) : List Token → List Token
  | .text s :: ts => .text (c :: s) :: ts
  | ts => .text [c] :: ts

/-- Puts a blank before some tokens; blank tokens never touch. -/
def consBlank (c : Char) : List Token → List Token
  | .blank s :: ts => .blank (c :: s) :: ts
  | ts => .blank [c] :: ts

/-- The characters that a parameter name must not hold, blanks aside. -/
def isNameStop (c : Char) : Bool :=
  c = '{' || c = '(' || c = ')' || c = '\\' || c = '/'

mutual

/-- The tokens of an expression from a byte offset on. A backslash takes the meaning of the
character after it; at the end it stands for itself. -/
def lexText (pos : Nat) : List Char → Except ExpressionError (List Token)
  | [] => .ok []
  | ['\\'] => .ok [.text ['\\']]
  | '\\' :: c :: s => (lexText (pos + 1 + c.utf8Size) s).map (consText c)
  | '{' :: s => lexParameter pos [] (pos + 1) s
  | '(' :: s => lexOptional pos [] (pos + 1) s
  | '/' :: s => (lexText (pos + 1) s).map (.slash pos :: ·)
  | '}' :: _ => .error ⟨.closingBrace, pos, none⟩
  | ')' :: _ => .error ⟨.closingParenthesis, pos, none⟩
  | c :: s =>
    (lexText (pos + c.utf8Size) s).map (if isBlank c then consBlank c else consText c)

/-- A parameter whose brace stands at `start`, after some characters of its name. -/
def lexParameter (start : Nat) (name : List Char) (pos : Nat) :
    List Char → Except ExpressionError (List Token)
  | [] => .error ⟨.nameUnclosed, start, some (String.ofList name)⟩
  | c :: s =>
    if c = '}' then (lexText (pos + 1) s).map (.parameter start name :: ·)
    else if isNameStop c then .error ⟨.nameCharacter, start, some (String.ofList name)⟩
    else if isBlank c then .error ⟨.nameBlank, start, some (String.ofList name)⟩
    else lexParameter start (name ++ [c]) (pos + c.utf8Size) s

/-- Optional text whose parenthesis stands at `start`, after some of its characters. -/
def lexOptional (start : Nat) (text : List Char) (pos : Nat) :
    List Char → Except ExpressionError (List Token)
  | [] => .error ⟨.optionalUnclosed, start, none⟩
  | ['\\'] => .error ⟨.optionalUnclosed, start, none⟩
  | '\\' :: c :: s => lexOptional start (text ++ [c]) (pos + 1 + c.utf8Size) s
  | c :: s =>
    if c = ')' then
      if text.isEmpty then .error ⟨.optionalEmpty, start, none⟩
      else (lexText (pos + 1) s).map (.optional start text :: ·)
    else if c = '(' ∨ c = '{' then .error ⟨.optionalNested, start, none⟩
    else lexOptional start (text ++ [c]) (pos + c.utf8Size) s

end

/-- The tokens of an expression. -/
def lexExpression (e : String) : Except ExpressionError (List Token) := lexText 0 e.toList

/-- The regular expression of one token. A slash has none: it only cuts a word into
alternatives. -/
def renderToken : Token → Except ExpressionError (List Char)
  | .text s | .blank s => .ok (Regex.escape s)
  | .optional _ s => .ok ("(?:".toList ++ Regex.escape s ++ ")?".toList)
  | .parameter start name =>
    let text := String.ofList name
    match ParameterType.ofName? text with
    | some type => .ok ('(' :: (type.fragment.toList ++ [')']))
    | none => .error ⟨.parameterUndefined, start, some text⟩
  | .slash start => .error ⟨.alternationUnexpected, start, none⟩

def renderTokens : List Token → Except ExpressionError (List Char)
  | [] => .ok []
  | t :: ts => do
    let a ← renderToken t
    let b ← renderTokens ts
    return a ++ b

/-- The alternatives of a word: its tokens between slashes. -/
def alternatives : List Token → List (List Token)
  | [] => [[]]
  | .slash _ :: ts => [] :: alternatives ts
  | t :: ts => match alternatives ts with
    | [] => [[t]]
    | a :: as => (t :: a) :: as

/-- The offset of the first slash of a word. -/
def firstSlash? : List Token → Option Nat
  | [] => none
  | .slash start :: _ => some start
  | _ :: ts => firstSlash? ts

/-- The first parameter of a word. -/
def firstParameter? : List Token → Option (Nat × List Char)
  | [] => none
  | .parameter start name :: _ => some (start, name)
  | _ :: ts => firstParameter? ts

/-- Joins texts with a bar between them. -/
def joinBars : List (List Char) → List Char
  | [] => []
  | [s] => s
  | s :: ss => s ++ '|' :: joinBars ss

/-- The regular expression of a word, a run of tokens without blanks. A word with a slash is one
of its alternatives. -/
def renderWord (word : List Token) : Except ExpressionError (List Char) :=
  match firstSlash? word with
  | none => renderTokens word
  | some slash =>
    match firstParameter? word with
    | some (start, name) => .error ⟨.parameterInAlternation, start, some (String.ofList name)⟩
    | none =>
      let parts := alternatives word
      if parts.any List.isEmpty then .error ⟨.alternativeEmpty, slash, none⟩
      else do
        let rendered ← parts.mapM renderTokens
        return "(?:".toList ++ joinBars rendered ++ [')']

/-- The regular expression of some tokens after the tokens of an unfinished word. -/
def renderFrom (word : List Token) : List Token → Except ExpressionError (List Char)
  | [] => renderWord word
  | .blank s :: ts => do
    let a ← renderWord word
    let b ← renderFrom [] ts
    return a ++ Regex.escape s ++ b
  | t :: ts => renderFrom (word ++ [t]) ts

/-- The regular expression that an expression means; it spans the whole text. -/
def regexOfExpression (e : String) : Except ExpressionError String := do
  let tokens ← lexExpression e
  let body ← renderFrom [] tokens
  return String.ofList ('^' :: (body ++ ['$']))

end StepGlue
