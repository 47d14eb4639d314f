import StepGlue.Feature.Peg
import StepGlue.Text.Blank

/-! The grammar of feature files. -/

namespace StepGlue.Grammar

open Peg

def isGap (c : Char) : Bool := c == ' ' || c == '\t'

/-- Spaces and tabs. -/
def gap : Peg Unit := quiet do
  let _ ← many (satisfy isGap)

def lineBreak : Peg Unit := quiet do
  let _ ← perhaps (literal "\r")
  literal "\n"

/-- A comment up to the end of its line. -/
def commentText : Peg Unit := quiet do
  let _ ← many (satisfy isGap)
  literal "#"
  let _ ← many (do absent lineBreak; anyChar)

/-- The end of a line, with a comment before it if there is one. -/
def lineEnd : Peg Unit := quiet do
  let _ ← perhaps commentText
  lineBreak

def endOfText : Peg Unit := absent anyChar

/-- The end of a line with the empty lines and the indentation that follow, or the end of the
text. -/
def lineEnds : Peg Unit := quiet do
  either (do let _ ← many1 (either lineEnd (do let _ ← satisfy isGap))) endOfText

def comment : Peg Unit := quiet do
  commentText
  lineEnds

def comments : Peg Unit := do
  let _ ← many comment

/-- Spaces, tabs and line ends. -/
def wideGap : Peg Unit := quiet do
  let _ ← many (either (do let _ ← satisfy isGap) lineEnd)

/-- The rest of a line, which is not empty. -/
def lineText : Peg (List Char) := slice (many1 (do absent lineBreak; anyChar))

/-- One of some words, after comments. The text is looked at as far as the longest word goes, and
that is where something else could have been expected, whether a word is found or not. -/
def keyword (words : List String) : Peg String := do
  comments
  let c ← cursor
  let longest := words.foldl (fun n w => max n w.length) 0
  expect (c.index + min longest c.rest.length)
  match words.find? fun w => w.toList.isPrefixOf c.rest with
  | some w => do skip w.toList; return w
  | none => failHere

def languageWords (select : Language → List String) : Peg (List String) := do
  return select (← findings).language

def markFatal : Peg Unit := learn fun f => { f with fatal := true }

/-- The comment at the top that names the language. A code that names none is fatal. -/
def language : Peg Unit := do
  let _ ← many (either (do let _ ← satisfy isGap) lineBreak)
  literal "#"
  gap
  literal "language"
  gap
  literal ":"
  gap
  let code ← slice (many1 lineText)
  gap
  lineEnd
  match Language.ofCode? (String.ofList code) with
  | some l => learn fun f => { f with language := l }
  | none => do markFatal; failHere

def quoted (fence : String) : Peg Unit := do
  literal fence
  let _ ← many (do absent (literal fence); either lineEnd (do let _ ← anyChar))
  literal fence
  lineEnds

def docString : Peg Unit := either (quoted "\"\"\"") (quoted "```")

def tableCell : Peg String := do
  literal "|"
  gap
  absent (either lineBreak endOfText)
  let text ← slice (many (do absent (either (literal "|") lineBreak); anyChar))
  return String.ofList (trim text)

def tableRow : Peg (List String) := do
  let cells ← sepBy tableCell gap
  gap
  literal "|"
  gap
  lineEnds
  return cells

/-- A table. Every row is cut to the length of the first one; a shorter row is fatal. -/
def table : Peg Table := do
  let start := (← cursor).offset
  gap
  let rows ← sepBy1 tableRow gap
  let stop := (← cursor).offset
  let width := (rows.headD []).length
  if rows.all (width ≤ ·.length) then return ⟨⟨start, stop⟩, rows.map (·.take width)⟩
  else do markFatal; failHere

/-- A step of some words; `role` tells its role from the one before it, and there is no step where
it tells none. -/
def stepOf (words : Language → List String) (role : Option StepRole → Option StepRole) :
    Peg StepNode := do
  let start := (← cursor).offset
  let word ← keyword (← languageWords words)
  gap
  let text ← lineText
  gap
  lineEnds
  gap
  let _ ← perhaps docString
  let _ ← perhaps table
  match role (← findings).role with
  | none => failHere
  | some r =>
    learn fun f => { f with role := some r }
    return ⟨word, r, String.ofList (trimEnd text), start⟩

def step : Peg StepNode :=
  either (do comments; stepOf (·.given) fun _ => some .given) <|
  either (stepOf (·.whenWords) fun _ => some .when) <|
  either (stepOf (·.thenWords) fun _ => some .«then») <|
  either (stepOf (·.and) id) (stepOf (·.but) id)

/-- The steps of a block; a conjunction does not look beyond its block. -/
def steps : Peg (List StepNode) := do
  let nodes ← sepBy step gap
  learn fun f => { f with role := none }
  return nodes

/-- A line that starts neither with a tag nor with one of the words that end a description. -/
def descriptionLine (stops : List String) : Peg Unit := do
  gap
  absent (literal "@")
  absent (keyword stops)
  gap
  let _ ← lineText
  lineEnds

def description (stops : List String) : Peg Unit := do
  let _ ← perhaps (do
    let _ ← sepBy (descriptionLine stops) gap
    wideGap)

def blockWords (l : Language) : List String := l.scenario ++ l.outline ++ l.stepWords

/-- The heading of a block: its word, a colon and a title. -/
def heading (words : Language → List String) : Peg Unit := do
  let _ ← keyword (← languageWords words)
  literal ":"
  gap
  let _ ← perhaps lineText
  gap
  lineEnds

def background : Peg (List StepNode) := do
  comments
  gap
  heading (·.background)
  description (← languageWords blockWords)
  steps

/-- A character of a tag; the look at another one goes one further. -/
def tagChar : Peg Char := do
  let c ← anyChar
  if isBlank c || c == '@' then failHere else return c

def tag : Peg Unit := do
  literal "@"
  let _ ← many1 tagChar

def tags : Peg Unit := do
  let _ ← sepBy tag wideGap
  gap
  let _ ← many lineEnd

/-- A block of examples, with or without a table. -/
def examples : Peg (Option Table) := do
  comments
  gap
  tags
  gap
  heading (·.examples)
  description ((← languageWords blockWords) ++ ["|"])
  perhaps table

def scenarioOf (words : Language → List String) : Peg Scenario := do
  comments
  gap
  tags
  gap
  heading words
  description (← languageWords blockWords)
  let nodes ← steps
  let blocks ← many examples
  return ⟨nodes, blocks.filterMap id⟩

def scenario : Peg Scenario := either (scenarioOf (·.scenario)) (scenarioOf (·.outline))

def scenarios : Peg (List Scenario) := do
  gap
  sepBy scenario gap

def lineEndings : Peg Unit := do
  let _ ← many lineEnd

def rule : Peg Rule := do
  gap
  tags
  gap
  heading (·.rule)
  description (← languageWords fun l => l.background ++ l.scenario ++ l.outline)
  let shared ← perhaps background
  lineEndings
  let cases ← scenarios
  lineEndings
  return ⟨shared.getD [], cases⟩

def rules : Peg (List Rule) := do
  gap
  sepBy rule gap

/-- A whole feature file. -/
def feature : Peg Feature := do
  gap
  let _ ← perhaps language
  lineEndings
  tags
  heading (·.feature)
  description (← languageWords fun l => l.background ++ l.rule ++ l.scenario ++ l.outline)
  let shared ← perhaps background
  lineEndings
  let cases ← scenarios
  lineEndings
  let groups ← rules
  lineEndings
  if (← findings).fatal then failHere
  unless (← cursor).rest.isEmpty do failHere
  return ⟨shared.getD [], cases, groups⟩

end StepGlue.Grammar

namespace StepGlue

/-- Where a feature file could not be read: a line and a column of characters, from one. -/
structure FeatureError where
  line : Nat
  column : Nat
deriving DecidableEq, Repr

def FeatureError.message (e : FeatureError) : String :=
  "Error at " ++ toString e.line ++ ":" ++ toString e.column

/-- The line and column of a character index. -/
def FeatureError.atIndex (text : List Char) (index : Nat) : FeatureError :=
  let before := text.take index
  ⟨lineFeeds before + 1, (before.reverse.takeWhile (· ≠ '\n')).length + 1⟩

/-- Reads a feature file, or tells the furthest place where its reading failed. -/
def Feature.parse (text : List Char) : Except FeatureError Feature :=
  match Grammar.feature.run ⟨0, 0, text⟩ {} with
  | (some (feature, _), _) => .ok feature
  | (none, found) => .error (.atIndex text found.furthest)

end StepGlue
