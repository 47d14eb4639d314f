import StepGlue.Glue.Attribute.Token
import StepGlue.Glue.Basic

/-! Reading a list of tokens from left to right. -/

namespace StepGlue.Attribute

/-- The tokens still to be read, the line that is blamed when there are none left, and the first
token that was left over inside brackets. -/
structure TokenStream where
  rest : List Token
  stop : Nat
  stray : Option GlueError := none

abbrev TokenReader := StateT TokenStream (Except GlueError)

namespace TokenReader

variable {α : Type}

def remaining : TokenReader (List Token) := return (← get).rest

def atEnd : TokenReader Bool := return (← remaining).isEmpty

def setRemaining (rest : List Token) : TokenReader Unit := modify fun s => { s with rest }

def advance (n : Nat) : TokenReader Unit := modify fun s => { s with rest := s.rest.drop n }

/-- The line of the next token. -/
def line : TokenReader Nat := do
  let s ← get
  return (s.rest.head?.map Token.line).getD s.stop

def failAt (message : String) (line : Nat) : TokenReader α := throw ⟨message, line⟩

/-- Fails at the next token, or tells that there is none. -/
def fail (message : String) : TokenReader α := do
  let message := if ← atEnd then "unexpected end of input, " ++ message else message
  failAt message (← line)

/-- The text of what was expected: one thing, one of two, or one of several. -/
def expectation : List String → String
  | [a] => "expected " ++ a
  | [a, b] => "expected " ++ a ++ " or " ++ b
  | names => "expected one of: " ++ ", ".intercalate names

def failExpecting (names : List String) : TokenReader α := fail (expectation names)

/-- Runs a reader as long as a test holds of the tokens still to be read. -/
def repeatWhile (test : List Token → Bool) (p : TokenReader α) : TokenReader (List α) := do
  let rec loop : Nat → TokenReader (List α)
    | 0 => return []
    | n + 1 => do
      if test (← remaining) then
        let a ← p
        return a :: (← loop n)
      else return []
  loop ((← remaining).length)

def startsPunct : List Char → List Token → Bool
  | [], _ => true
  | [c], .punct d _ _ :: _ => c == d
  | c :: cs, .punct d joint _ :: rest => c == d && joint && startsPunct cs rest
  | _, _ => false

def startsWord (word : String) : List Token → Bool
  | .ident text _ :: _ => text == word
  | _ => false

def startsGroup (d : Delimiter) : List Token → Bool
  | .group e _ _ _ :: _ => d == e
  | _ => false

/-- The words that name nothing. -/
def reservedWords : List String :=
  ["_", "abstract", "as", "async", "await", "become", "box", "break", "const", "continue",
    "crate", "do", "dyn", "else", "enum", "extern", "false", "final", "fn", "for", "if", "impl",
    "in", "let", "loop", "macro", "match", "mod", "move", "mut", "override", "priv", "pub", "ref",
    "return", "Self", "self", "static", "struct", "super", "trait", "true", "try", "type",
    "typeof", "unsafe", "unsized", "use", "virtual", "where", "while", "yield"]

def startsName : List Token → Bool
  | .ident text _ :: _ => !reservedWords.contains text
  | _ => false

def nextPunct (s : String) : TokenReader Bool := return startsPunct s.toList (← remaining)

def nextWord (word : String) : TokenReader Bool := return startsWord word (← remaining)

def nextGroup (d : Delimiter) : TokenReader Bool := return startsGroup d (← remaining)

/-- Reads a mark of punctuation; where it is missing, the end is not mentioned. -/
def punct (s : String) : TokenReader Unit := do
  if ← nextPunct s then advance s.length
  else failAt ("expected `" ++ s ++ "`") (← line)

def optionalPunct (s : String) : TokenReader Bool := do
  if ← nextPunct s then
    advance s.length
    return true
  else return false

def optionalWord (word : String) : TokenReader Bool := do
  if ← nextWord word then
    advance 1
    return true
  else return false

def word (w : String) : TokenReader Unit := do
  unless ← optionalWord w do fail ("expected `" ++ w ++ "`")

/-- Reads a name with its line. -/
def name : TokenReader (String × Nat) := do
  match ← remaining with
  | .ident text line :: rest =>
    if reservedWords.contains text then
      fail ("expected identifier, found keyword `" ++ text ++ "`")
    else do
      setRemaining rest
      return (text, line)
  | _ => fail "expected identifier"

def string : TokenReader String := do
  match ← remaining with
  | .text value _ :: rest => do
    setRemaining rest
    return value
  | _ => fail "expected string literal"

def closingMark : Delimiter → String
  | .paren => ")"
  | .bracket => "]"
  | .brace => "\x7d"

/-- Reads a group of brackets with a reader of its inside. What the reader leaves over is
remembered. -/
def within (d : Delimiter) (p : TokenReader α) : TokenReader α := do
  let outer ← get
  match outer.rest with
  | .group e inner _ closed :: rest =>
    if d = e then
      let (a, s) ← liftM (p.run ⟨inner, closed, outer.stray⟩)
      let left := s.rest.head?.map fun t =>
        (⟨"unexpected token, expected `" ++ closingMark d ++ "`", t.line⟩ : GlueError)
      set (⟨rest, outer.stop, s.stray.or left⟩ : TokenStream)
      return a
    else fail ("expected " ++ d.name)
  | _ => fail ("expected " ++ d.name)

/-- Passes over everything. -/
def skipAll : TokenReader Unit := setRemaining []

/-- Whether a mark is the first half of an arrow, which is not closed by an angle bracket. -/
def startsArrow : Option Token → Bool
  | some (.punct c joint _) => (c == '-' || c == '=') && joint
  | _ => false

/-- Whether a name and an exclamation mark stand before the brackets of a macro. -/
def startsMacro : Option Token → Option Token → Bool
  | some (.ident _ _), some (.punct c _ _) => c == '!'
  | _, _ => false

/-- Passes over tokens up to one at which a test holds; tokens between angle brackets are not
tested, and neither are the brackets of a macro. -/
def skipUntil (stop : List Token → Bool) : TokenReader Unit := do
  let rec loop (depth : Nat) (first second : Option Token) : List Token → List Token
    | [] => []
    | t :: ts =>
      if depth = 0 && !startsMacro first second && stop (t :: ts) then t :: ts
      else match t with
        | .punct '<' _ _ => loop (depth + 1) second (some t) ts
        | .punct '>' _ _ =>
          loop (if startsArrow second then depth else depth - 1) second (some t) ts
        | _ => loop depth second (some t) ts
  setRemaining (loop 0 none none (← remaining))

end TokenReader

end StepGlue.Attribute
