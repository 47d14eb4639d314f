import StepGlue.Feature.Language
import StepGlue.Feature.Tree

/-! Ordered-choice parsing with a record of the furthest failure.

A parser moves a cursor over the text or fails. What it learns on the way (the furthest place
where something was expected in vain, the language, a fault that cannot be mended) stays known
when the cursor goes back. -/

namespace StepGlue

/-- A place in a text: characters and bytes before it, and the text after it. -/
structure Cursor where
  index : Nat
  offset : Nat
  rest : List Char
deriving Repr

/-- What parsing has learned so far. -/
structure Findings where
  /-- The furthest character index at which something failed. -/
  furthest : Nat := 0
  /-- While this is positive, failures are not recorded. -/
  silence : Nat := 0
  /-- Whether the text has a fault that no other reading can mend. -/
  fatal : Bool := false
  language : Language := Language.english
  /-- The role that a conjunction takes over. -/
  role : Option StepRole := none

abbrev Peg := StateT Cursor (OptionT (StateM Findings))

namespace Peg

variable {α β : Type}

def run (p : Peg α) (c : Cursor) (f : Findings) : Option (α × Cursor) × Findings :=
  StateT.run (m := Id) (OptionT.run (StateT.run p c)) f

def ofFunction (g : Cursor → Findings → Option (α × Cursor) × Findings) : Peg α :=
  fun c => OptionT.mk fun f => g c f

def cursor : Peg Cursor := ofFunction fun c f => (some (c, c), f)

def findings : Peg Findings := ofFunction fun c f => (some (f, c), f)

def learn (g : Findings → Findings) : Peg Unit := ofFunction fun c f => (some ((), c), g f)

/-- Records that something was expected at an index. -/
def expect (index : Nat) : Peg Unit :=
  learn fun f => if f.silence = 0 then { f with furthest := max f.furthest index } else f

def fail : Peg α := ofFunction fun _ f => (none, f)

/-- Fails at the place reached. -/
def failHere : Peg α := do
  expect (← cursor).index
  fail

/-- The first parser, or from the same place the second. -/
def either (p q : Peg α) : Peg α := ofFunction fun c f =>
  match p.run c f with
  | (some r, f) => (some r, f)
  | (none, f) => q.run c f

/-- Parses without recording failures. -/
def quiet (p : Peg α) : Peg α := ofFunction fun c f =>
  let (r, f) := p.run c { f with silence := f.silence + 1 }
  (r, { f with silence := f.silence - 1 })

/-- Succeeds, without moving, where a parser fails. -/
def absent (p : Peg α) : Peg Unit := ofFunction fun c f =>
  match p.quiet.run c f with
  | (some _, f) => (none, f)
  | (none, f) => (some ((), c), f)

def perhaps (p : Peg α) : Peg (Option α) := either (some <$> p) (pure none)

/-- Runs a parser as often as it succeeds and moves on. -/
def manyFrom (p : Peg α) (c : Cursor) (f : Findings) : List α × Cursor × Findings :=
  match p.run c f with
  | (none, f) => ([], c, f)
  | (some (a, c'), f) =>
    if c'.rest.length < c.rest.length then
      let (as, c', f) := manyFrom p c' f
      (a :: as, c', f)
    else ([], c, f)
termination_by c.rest.length

def many (p : Peg α) : Peg (List α) := ofFunction fun c f =>
  let (as, c, f) := manyFrom p c f
  (some (as, c), f)

def many1 (p : Peg α) : Peg (List α) := do
  let a ← p
  return a :: (← many p)

/-- One or more, with separators between them. -/
def sepBy1 (p : Peg α) (sep : Peg β) : Peg (List α) := do
  let a ← p
  return a :: (← many (do let _ ← sep; p))

/-- Any number, with separators between them. -/
def sepBy (p : Peg α) (sep : Peg β) : Peg (List α) := either (sepBy1 p sep) (pure [])

def anyChar : Peg Char := ofFunction fun c f =>
  match c.rest with
  | x :: rest => (some (x, ⟨c.index + 1, c.offset + x.utf8Size, rest⟩), f)
  | [] => (failHere : Peg Char).run c f

/-- A character of a class; any other fails where it stands. -/
def satisfy (test : Char → Bool) : Peg Char := do
  let c ← cursor
  match c.rest with
  | x :: _ => if test x then anyChar else failHere
  | [] => failHere

/-- Moves over a number of characters that are known to be there. -/
def skip (word : List Char) : Peg Unit := ofFunction fun c f =>
  (some ((), ⟨c.index + word.length, c.offset + byteLength word, c.rest.drop word.length⟩), f)

/-- A fixed text, expected as a whole. -/
def literal (word : String) : Peg Unit := do
  let c ← cursor
  if word.toList.isPrefixOf c.rest then skip word.toList else failHere

/-- The text that a parser moves over. -/
def slice (p : Peg α) : Peg (List Char) := do
  let before ← cursor
  let _ ← p
  let after ← cursor
  return before.rest.take (after.index - before.index)

end Peg

end StepGlue
