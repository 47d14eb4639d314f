import StepGlue.Regex.Error
import StepGlue.Regex.Escape
import StepGlue.Regex.Unicode.Property
import StepGlue.Text.Blank
import StepGlue.Text.Word

/-! Reading a pattern into a tree.

The reader goes through the pattern once. It holds what was read since the innermost open group,
the branches before the last bar and the items after it, and a stack of the open groups. Inside
brackets a second stack holds open classes and set operations that wait for their right side. -/

namespace StepGlue.Regex

/-- The rest of a pattern and the number of characters before it. -/
structure Cursor where
  rest : List Char
  pos : Nat
deriving Repr

namespace Cursor

def char? (c : Cursor) : Option Char := c.rest.head?

def bump (c : Cursor) : Cursor :=
  match c.rest with
  | [] => c
  | _ :: s => ⟨s, c.pos + 1⟩

/-- The region of the character under the cursor. -/
def here (c : Cursor) : Region := ⟨c.pos, c.pos + 1⟩

/-- The empty region at the cursor. -/
def point (c : Cursor) : Region := ⟨c.pos, c.pos⟩

/-- Skips a literal text. -/
def skip? (c : Cursor) (text : List Char) : Option Cursor :=
  if text.isPrefixOf c.rest then some ⟨c.rest.drop text.length, c.pos + text.length⟩ else none

end Cursor

/-- Skips blanks and comments, which run from a number sign to the end of the line. -/
def skipBlanks (inComment : Bool) : Nat → List Char → Cursor
  | pos, [] => ⟨[], pos⟩
  | pos, c :: s =>
    if inComment then skipBlanks (c ≠ '\n') (pos + 1) s
    else if isBlank c then skipBlanks false (pos + 1) s
    else if c = '#' then skipBlanks true (pos + 1) s
    else ⟨c :: s, pos⟩

/-- Skips blanks where they are ignored. -/
def Cursor.space (ignore : Bool) (c : Cursor) : Cursor :=
  if ignore then skipBlanks false c.pos c.rest else c

def Cursor.bumpSpace (ignore : Bool) (c : Cursor) : Cursor := c.bump.space ignore

/-- The character after the one under the cursor, blanks between them skipped where they are
ignored; a number sign starts a comment that hides only the blanks after it. -/
def Cursor.peekSpace (ignore : Bool) (c : Cursor) : Option Char :=
  let s := c.rest.drop 1
  if !ignore then s.head?
  else match s.dropWhile isBlank with
    | '#' :: t => (t.dropWhile isBlank).head?
    | t => t.head?

/-- Characters from the cursor on that satisfy a test, blanks between them skipped where they
are ignored. -/
def takeSpaced (ignore : Bool) (test : Char → Bool) : Nat → Cursor → List Char × Cursor
  | 0, c => ([], c)
  | fuel + 1, c => match c.char? with
    | none => ([], c)
    | some ch =>
      if test ch then
        let r := takeSpaced ignore test fuel (c.bumpSpace ignore)
        (ch :: r.1, r.2)
      else ([], c)

def isDecimal (c : Char) : Bool := '0' ≤ c && c ≤ '9'

def isHex (c : Char) : Bool :=
  isDecimal c || ('a' ≤ c && c ≤ 'f') || ('A' ≤ c && c ≤ 'F')

def hexValue (c : Char) : Nat :=
  if isDecimal c then c.toNat - 48 else if 'a' ≤ c then c.toNat - 87 else c.toNat - 55

/-- The character of a hexadecimal number, if there is one. -/
def charOfHex (digits : List Char) : Option Char :=
  let n := digits.foldl (fun n c => 16 * n + hexValue c) 0
  if n < 0xD800 ∨ (0xDFFF < n ∧ n ≤ 0x10FFFF) then some (Char.ofNat n) else none

/-- The ASCII characters that a backslash may stand before without need. -/
def isIdleEscape (c : Char) : Bool := c.toNat < 128 && !c.isAlphanum && c ≠ '<' && c ≠ '>'

/-- What a backslash, or a single character, can stand for. -/
inductive Primitive
  | literal (l : Literal)
  | dot (region : Region)
  | assertion (region : Region) (kind : Assertion)
  | named (region : Region) (name : ClassName) (negated : Bool)
  | shorthand (region : Region) (kind : Shorthand) (negated : Bool)
deriving Repr

namespace Primitive

def region : Primitive → Region
  | .literal l => l.region
  | .dot r | .assertion r _ | .named r _ _ | .shorthand r _ _ => r

def toTree : Primitive → Tree
  | .literal l => .literal l
  | .dot r => .dot r
  | .assertion r k => .assertion r k
  | .named r n neg => .named r n neg
  | .shorthand r k neg => .shorthand r k neg

/-- An item of a bracketed class. -/
def toClassItem : Primitive → Except Fault ClassTree
  | .literal l => .ok (.literal l)
  | .named r n neg => .ok (.named r n neg)
  | .shorthand r k neg => .ok (.shorthand r k neg)
  | p => .error ⟨.classEscapeInvalid, p.region, none⟩

/-- An end of a range. -/
def toClassLiteral : Primitive → Except Fault Literal
  | .literal l => .ok l
  | p => .error ⟨.classRangeLiteral, p.region, none⟩

end Primitive

/-- A hexadecimal number of a fixed number of digits, the cursor on the first of them. -/
def readHexDigits (ignore : Bool) (start : Nat) (first : Nat) :
    Nat → List Char → Cursor → Except Fault (Char × Cursor)
  | 0, digits, c =>
    match charOfHex digits with
    | some ch => .ok (ch, c)
    | none => .error ⟨.escapeHexInvalid, ⟨first, c.pos⟩, none⟩
  | n + 1, digits, c => match c.char? with
    | none => .error ⟨.escapeUnexpectedEnd, c.point, none⟩
    | some d =>
      if isHex d then readHexDigits ignore start first n (digits ++ [d]) (c.bumpSpace ignore)
      else .error ⟨.escapeHexInvalidDigit, c.here, none⟩

/-- A hexadecimal number in braces, the cursor on the opening one. -/
def readBracedHex (ignore : Bool) (start : Nat) (c : Cursor) : Except Fault (Literal × Cursor) :=
  let inner := c.bumpSpace ignore
  let (digits, after) := takeSpaced ignore isHex inner.rest.length inner
  match after.char? with
  | none => .error ⟨.escapeUnexpectedEnd, ⟨c.pos, after.pos⟩, none⟩
  | some '}' =>
    let next := after.bumpSpace ignore
    if digits.isEmpty then .error ⟨.escapeHexEmpty, ⟨c.pos, next.pos⟩, none⟩
    else match charOfHex digits with
      | none => .error ⟨.escapeHexInvalid, ⟨c.pos + 1, after.pos⟩, none⟩
      | some ch => .ok (⟨⟨start, next.pos⟩, ch, false⟩, next)
  | some _ => .error ⟨.escapeHexInvalidDigit, after.here, none⟩

/-- The hexadecimal forms of a character, the cursor on the letter after the backslash. -/
def readHex (ignore : Bool) (start : Nat) (letter : Char) (c : Cursor) :
    Except Fault (Literal × Cursor) :=
  let c := c.bumpSpace ignore
  match c.char? with
  | none => .error ⟨.escapeUnexpectedEnd, c.point, none⟩
  | some '{' => readBracedHex ignore start c
  | some _ => do
    let count := if letter = 'x' then 2 else if letter = 'u' then 4 else 8
    let (ch, next) ← readHexDigits ignore start c.pos count [] c
    return (⟨⟨start, next.pos⟩, ch, letter = 'x'⟩, next)

/-- Cuts a text at the first occurrence of another one. -/
def cutAt (mark : List Char) : List Char → Option (List Char × List Char)
  | [] => none
  | c :: s =>
    if mark.isPrefixOf (c :: s) then some ([], (c :: s).drop mark.length)
    else (cutAt mark s).map fun r => (c :: r.1, r.2)

/-- The name inside the braces of a named class: a property and its value, or one name. -/
def classNameOf (s : List Char) : ClassName :=
  let cut := (cutAt ['!', '='] s).or ((cutAt [':'] s).or (cutAt ['='] s))
  match cut with
  | some (p, v) => .value (String.ofList p) (String.ofList v)
  | none => .name (String.ofList s)

/-- A named class, the cursor on the letter after the backslash. -/
def readNamedClass (ignore : Bool) (start : Nat) (negated : Bool) (c : Cursor) :
    Except Fault (Primitive × Cursor) :=
  let c := c.bumpSpace ignore
  match c.char? with
  | none => .error ⟨.escapeUnexpectedEnd, c.point, none⟩
  | some '{' =>
    let inner := c.bumpSpace ignore
    let (name, after) := takeSpaced ignore (· ≠ '}') inner.rest.length inner
    if after.rest.isEmpty then .error ⟨.escapeUnexpectedEnd, after.point, none⟩
    else .ok (.named ⟨start, after.bump.pos⟩ (classNameOf name) negated, after.bump)
  | some '\\' => .error ⟨.namedClassInvalid, c.here, none⟩
  | some ch =>
    let next := c.bumpSpace ignore
    .ok (.named ⟨start, next.pos⟩ (.name (String.ofList [ch])) negated, next)

def isSpecialWordChar (c : Char) : Bool := c.isAlpha || c = '-'

def specialWord? : String → Option Assertion
  | "start" => some .wordStart
  | "end" => some .wordEnd
  | "start-half" => some .wordStartHalf
  | "end-half" => some .wordEndHalf
  | _ => none

/-- The braced name after a word boundary. `none` leaves the brace to a counted repetition. -/
def readSpecialWord (ignore : Bool) (start : Nat) (c : Cursor) :
    Except Fault (Option (Assertion × Cursor)) :=
  let inner := c.bumpSpace ignore
  match inner.char? with
  | none => .error ⟨.specialWordUnexpectedEnd, ⟨start, inner.pos⟩, none⟩
  | some ch =>
    if !isSpecialWordChar ch then .ok none
    else
      let (name, after) := takeSpaced ignore isSpecialWordChar inner.rest.length inner
      if after.char? ≠ some '}' then .error ⟨.specialWordUnclosed, ⟨c.pos, after.pos⟩, none⟩
      else match specialWord? (String.ofList name) with
        | some kind => .ok (some (kind, after.bump))
        | none => .error ⟨.specialWordUnrecognized, ⟨inner.pos, after.pos⟩, none⟩

/-- The control characters that have a letter after a backslash. -/
def controlEscape? : Char → Option Char
  | 'a' => some '\x07'
  | 'f' => some '\x0c'
  | 't' => some '\t'
  | 'n' => some '\n'
  | 'r' => some '\r'
  | 'v' => some '\x0b'
  | _ => none

def assertionEscape? : Char → Option Assertion
  | 'A' => some .textStart
  | 'z' => some .textEnd
  | 'b' => some .wordBoundary
  | 'B' => some .notWordBoundary
  | '<' => some .wordStart
  | '>' => some .wordEnd
  | _ => none

def shorthandEscape? : Char → Option (Shorthand × Bool)
  | 'd' => some (.digit, false)
  | 'D' => some (.digit, true)
  | 's' => some (.space, false)
  | 'S' => some (.space, true)
  | 'w' => some (.word, false)
  | 'W' => some (.word, true)
  | _ => none

/-- What a backslash and one letter stand for, conditions on the place aside. -/
def letterEscape? (region : Region) (ch : Char) : Option Primitive :=
  match shorthandEscape? ch with
  | some (kind, negated) => some (.shorthand region kind negated)
  | none =>
    if isIdleEscape ch then some (.literal ⟨region, ch, false⟩)
    else (controlEscape? ch).map fun control => .literal ⟨region, control, false⟩

/-- A condition on the place, the cursor after its letter. -/
def readAssertion (ignore : Bool) (region : Region) (ch : Char) (next : Cursor) :
    Except Fault (Primitive × Cursor) :=
  match assertionEscape? ch with
  | none => .error ⟨.escapeUnrecognized, region, none⟩
  | some kind =>
    if kind = .wordBoundary ∧ next.char? = some '{' then do
      match ← readSpecialWord ignore region.start next with
      | some (special, after) => return (.assertion ⟨region.start, after.pos⟩ special, after)
      | none => return (.assertion region kind, next)
    else .ok (.assertion region kind, next)

/-- What a backslash introduces, the cursor on it. -/
def readEscape (ignore : Bool) (c : Cursor) : Except Fault (Primitive × Cursor) :=
  let letter := c.bump
  match letter.char? with
  | none => .error ⟨.escapeUnexpectedEnd, ⟨c.pos, letter.pos⟩, none⟩
  | some ch =>
    let next := letter.bump
    let region : Region := ⟨c.pos, next.pos⟩
    if isMeta ch then .ok (.literal ⟨region, ch, false⟩, next)
    else if isDecimal ch then .error ⟨.backreference, region, none⟩
    else if ch = 'x' ∨ ch = 'u' ∨ ch = 'U' then do
      let (l, next) ← readHex ignore c.pos ch letter
      return (.literal l, next)
    else if ch = 'p' ∨ ch = 'P' then readNamedClass ignore c.pos (ch = 'P') letter
    else match letterEscape? region ch with
      | some p => .ok (p, next)
      | none => readAssertion ignore region ch next

/-- A backslash with what follows it, or one character. -/
def readPrimitive (ignore : Bool) (ch : Char) (c : Cursor) :
    Except Fault (Primitive × Cursor) :=
  match ch with
  | '\\' => readEscape ignore c
  | '.' => .ok (.dot c.here, c.bump)
  | '^' => .ok (.assertion c.here .lineStart, c.bump)
  | '$' => .ok (.assertion c.here .lineEnd, c.bump)
  | _ => .ok (.literal ⟨c.here, ch, false⟩, c.bump)

/-! ### Bracketed classes -/

/-- The items of a class before they are put together. -/
structure Items where
  region : Region
  items : List ClassTree
deriving Repr

namespace Items

def nil (pos : Nat) : Items := ⟨⟨pos, pos⟩, []⟩

def push (u : Items) (t : ClassTree) : Items :=
  ⟨⟨if u.items.isEmpty then t.region.start else u.region.start, t.region.stop⟩, u.items ++ [t]⟩

def toTree (u : Items) : ClassTree :=
  match u.items with
  | [] => .empty u.region
  | [t] => t
  | _ => .union u.region u.items

end Items

/-- What waits on the stack while a class is read. -/
inductive ClassFrame
  | bracket (outer : Items) (region : Region) (negated : Bool)
  | op (kind : SetOp) (left : ClassTree)
deriving Repr

/-- Completes a set operation that waits for its right side. -/
def closeOp (stack : List ClassFrame) (right : ClassTree) : List ClassFrame × ClassTree :=
  match stack with
  | .op kind left :: rest =>
    (rest, .op ⟨left.region.start, right.region.stop⟩ kind left right)
  | _ => (stack, right)

/-- The region of the innermost open bracket. -/
def openBracket : List ClassFrame → Region
  | [] => ⟨0, 0⟩
  | .bracket _ region _ :: _ => region
  | .op _ _ :: rest => openBracket rest

/-- The hyphens that a class may start with. -/
def readLeadingHyphens (ignore : Bool) (start : Nat) :
    Nat → Items → Cursor → Except Fault (Items × Cursor)
  | 0, u, c => .ok (u, c)
  | fuel + 1, u, c =>
    if c.char? = some '-' then
      let u := u.push (.literal ⟨c.here, '-', false⟩)
      let c := c.bumpSpace ignore
      if c.rest.isEmpty then .error ⟨.classUnclosed, ⟨start, start⟩, none⟩
      else readLeadingHyphens ignore start fuel u c
    else .ok (u, c)

/-- The hyphens that a class may start with, or a closing bracket that is a member. -/
def readFirstItems (ignore : Bool) (start : Nat) (negated : Bool) (c : Cursor) :
    Except Fault ((Region × Bool) × Items × Cursor) := do
  let (u, c) ← readLeadingHyphens ignore start c.rest.length (Items.nil c.pos) c
  if u.items.isEmpty ∧ c.char? = some ']' then
    let next := c.bumpSpace ignore
    if next.rest.isEmpty then .error ⟨.classUnclosed, ⟨start, next.pos⟩, none⟩
    else .ok ((⟨start, next.pos⟩, negated), u.push (.literal ⟨c.here, ']', false⟩), next)
  else .ok ((⟨start, c.pos⟩, negated), u, c)

/-- An opening bracket with what may stand right after it: a caret, hyphens, and a closing
bracket that is a member. -/
def readBracketOpen (ignore : Bool) (c : Cursor) :
    Except Fault ((Region × Bool) × Items × Cursor) :=
  let start := c.pos
  let c := c.bumpSpace ignore
  if c.char? = some '^' then
    let inner := c.bumpSpace ignore
    if inner.rest.isEmpty then .error ⟨.classUnclosed, ⟨start, inner.pos⟩, none⟩
    else readFirstItems ignore start true inner
  else if c.rest.isEmpty then .error ⟨.classUnclosed, ⟨start, c.pos⟩, none⟩
  else readFirstItems ignore start false c

def asciiName? : String → Option AsciiName
  | "alnum" => some .alnum
  | "alpha" => some .alpha
  | "ascii" => some .ascii
  | "blank" => some .blank
  | "cntrl" => some .cntrl
  | "digit" => some .digit
  | "graph" => some .graph
  | "lower" => some .lower
  | "print" => some .print
  | "punct" => some .punct
  | "space" => some .space
  | "upper" => some .upper
  | "word" => some .word
  | "xdigit" => some .xdigit
  | _ => none

/-- The name between colons, the cursor on its first letter. -/
def readAsciiName? (start : Nat) (negated : Bool) (c : Cursor) : Option (ClassTree × Cursor) := do
  let name := c.rest.takeWhile (· ≠ ':')
  let after : Cursor := ⟨c.rest.dropWhile (· ≠ ':'), c.pos + name.length⟩
  let next ← after.skip? [':', ']']
  let kind ← asciiName? (String.ofList name)
  return (.ascii ⟨start, next.pos⟩ kind negated, next)

/-- A named class between brackets and colons, the cursor on its bracket. -/
def readAsciiClass? (c : Cursor) : Option (ClassTree × Cursor) := do
  let inner ← c.skip? ['[', ':']
  if inner.char? = some '^' then readAsciiName? c.pos true inner.bump
  else readAsciiName? c.pos false inner

/-- One item or end of a range of a class. -/
def readClassPrimitive (ignore : Bool) (c : Cursor) (ch : Char) :
    Except Fault (Primitive × Cursor) :=
  if ch = '\\' then readEscape ignore c
  else .ok (.literal ⟨c.here, ch, false⟩, c.bump)

/-- The end of a range, the cursor after the hyphen. -/
def readRangeEnd (ignore : Bool) (unclosed : Fault) (first : Primitive) (c : Cursor) :
    Except Fault (ClassTree × Cursor) :=
  match c.char? with
  | none => .error unclosed
  | some ch => do
    let (last, next) ← readClassPrimitive ignore c ch
    let region : Region := ⟨first.region.start, last.region.stop⟩
    let lo ← first.toClassLiteral
    let hi ← last.toClassLiteral
    if hi.char < lo.char then .error ⟨.classRangeInvalid, region, none⟩
    else .ok (.range region lo hi, next)

/-- An item of a class or a range of them. -/
def readClassRange (ignore : Bool) (unclosed : Fault) (c : Cursor) (ch : Char) :
    Except Fault (ClassTree × Cursor) := do
  let (first, next) ← readClassPrimitive ignore c ch
  let c := next.space ignore
  match c.char? with
  | none => .error unclosed
  | some ch =>
    let ahead := c.peekSpace ignore
    if ch ≠ '-' ∨ ahead = some ']' ∨ ahead = some '-' then do
      let item ← first.toClassItem
      return (item, c)
    else readRangeEnd ignore unclosed first (c.bumpSpace ignore)

/-- The state of the reader inside brackets. -/
structure ClassState where
  items : Items
  stack : List ClassFrame
  cursor : Cursor
deriving Repr

/-- What one step inside brackets comes to: a further state, or the finished class. -/
inductive ClassStep
  | more (s : ClassState)
  | done (region : Region) (negated : Bool) (inner : ClassTree) (c : Cursor)

/-- The set operation that a text starts with. -/
def setOp? : List Char → Option SetOp
  | '&' :: '&' :: _ => some .inter
  | '-' :: '-' :: _ => some .diff
  | '~' :: '~' :: _ => some .symmDiff
  | _ => none

/-- Puts a set operation on the stack with all that was read before it as its left side. -/
def pushOp (kind : SetOp) (items : Items) (stack : List ClassFrame) (c : Cursor) : ClassState :=
  let c := c.bump.bump
  let (stack, left) := closeOp stack items.toTree
  ⟨Items.nil c.pos, .op kind left :: stack, c⟩

/-- Puts an opening bracket on the stack. -/
def enterBracket (ignore : Bool) (s : ClassState) (c : Cursor) : Except Fault ClassState := do
  let ((region, negated), u, next) ← readBracketOpen ignore c
  return ⟨u, .bracket s.items region negated :: s.stack, next⟩

/-- An opening bracket: a named class if it is not the first one, or a class of its own. -/
def openBracketStep (ignore : Bool) (s : ClassState) (c : Cursor) : Except Fault ClassState :=
  match if s.stack.isEmpty then none else readAsciiClass? c with
  | some (item, next) => .ok ⟨s.items.push item, s.stack, next⟩
  | none => enterBracket ignore s c

/-- A closing bracket. -/
def closeBracketStep (s : ClassState) (c : Cursor) : Except Fault ClassStep :=
  let (stack, inner) := closeOp s.stack s.items.toTree
  let next := c.bump
  match stack with
  | .bracket outer region negated :: rest =>
    let region : Region := ⟨region.start, next.pos⟩
    if rest.isEmpty then .ok (.done region negated inner next)
    else .ok (.more ⟨outer.push (.bracketed region negated inner), rest, next⟩)
  | _ => .error ⟨.classUnclosed, openBracket s.stack, none⟩

/-- One step inside brackets: a bracket, an operation, or an item. -/
def classStep (ignore : Bool) (s : ClassState) : Except Fault ClassStep :=
  let c := s.cursor.space ignore
  let unclosed : Fault := ⟨.classUnclosed, openBracket s.stack, none⟩
  match c.char? with
  | none => .error unclosed
  | some ch =>
    if ch = '[' then (openBracketStep ignore s c).map .more
    else if ch = ']' then closeBracketStep s c
    else match setOp? c.rest with
      | some kind => .ok (.more (pushOp kind s.items s.stack c))
      | none => do
        let (item, next) ← readClassRange ignore unclosed c ch
        return .more ⟨s.items.push item, s.stack, next⟩

/-- Steps inside brackets until the class is closed; every step takes at least one character. -/
def readClass (ignore : Bool) : Nat → ClassState → Except Fault (Tree × Cursor)
  | 0, s => .error ⟨.classUnclosed, openBracket s.stack, none⟩
  | fuel + 1, s => do
    match ← classStep ignore s with
    | .done region negated inner c => return (.bracketed region negated inner, c)
    | .more s => readClass ignore fuel s

/-! ### Groups, repetitions and the whole pattern -/

/-- The items of a sequence, the last one first, and where it starts. -/
structure Sequence where
  start : Nat
  items : List Tree
deriving Repr

def Sequence.toTree (q : Sequence) (stop : Nat) : Tree :=
  match q.items with
  | [] => .empty ⟨q.start, stop⟩
  | [t] => t
  | items => .sequence ⟨q.start, stop⟩ items.reverse

/-- What is read at one depth of groups: where it starts, the finished branches of an
alternation, the last one first, and the sequence being read. -/
structure Level where
  start : Nat
  branches : List Tree
  sequence : Sequence
deriving Repr

namespace Level

def nil (pos : Nat) : Level := ⟨pos, [], ⟨pos, []⟩⟩

def items (l : Level) : List Tree := l.sequence.items

def push (l : Level) (t : Tree) : Level :=
  { l with sequence := ⟨l.sequence.start, t :: l.items⟩ }

/-- Ends a branch; the next one starts at another place. -/
def bar (l : Level) (stop next : Nat) : Level :=
  ⟨l.start, l.sequence.toTree stop :: l.branches, ⟨next, []⟩⟩

def toTree (l : Level) (stop : Nat) : Tree :=
  let last := l.sequence.toTree stop
  if l.branches.isEmpty then last
  else .alternation ⟨l.start, stop⟩ (last :: l.branches).reverse

end Level

/-- An open group, with what was read around it and whether blanks were ignored there. -/
structure Frame where
  outer : Level
  region : Region
  kind : GroupKind
  ignore : Bool
deriving Repr

structure State where
  level : Level
  stack : List Frame
  ignore : Bool
  names : List (String × Region)
  cursor : Cursor
deriving Repr

def State.push (s : State) (t : Tree) (c : Cursor) : State :=
  { s with level := s.level.push t, cursor := c }

def flagOf? : Char → Option Flag
  | 'i' => some .caseInsensitive
  | 'm' => some .multiLine
  | 's' => some .dotAll
  | 'U' => some .swapGreed
  | 'u' => some .unicode
  | 'R' => some .crlf
  | 'x' => some .ignoreSpace
  | _ => none

/-- One letter of a group of flags, or a minus sign. -/
def flagItem? (c : Char) : Option FlagItem :=
  if c = '-' then some .minus else (flagOf? c).map .flag

/-- The flags up to a colon or a closing parenthesis; the items come with their places. -/
def readFlags : Nat → List (FlagItem × Region) → Cursor →
    Except Fault (List (FlagItem × Region) × Cursor)
  | 0, _, c => .error ⟨.flagUnexpectedEnd, c.point, none⟩
  | fuel + 1, items, c =>
    match c.char? with
    | none => .error ⟨.flagUnexpectedEnd, c.point, none⟩
    | some ch =>
      if ch = ':' ∨ ch = ')' then
        match items.getLast? with
        | some (.minus, region) => .error ⟨.flagDanglingNegation, region, none⟩
        | _ => .ok (items, c)
      else match flagItem? ch with
        | none => .error ⟨.flagUnrecognized, c.here, none⟩
        | some item => match items.find? (·.1 = item) with
          | some (_, first) =>
            let kind := if item = .minus then ErrorKind.flagRepeatedNegation else .flagDuplicate
            .error ⟨kind, c.here, some first⟩
          | none =>
            if c.bump.rest.isEmpty then .error ⟨.flagUnexpectedEnd, c.bump.point, none⟩
            else readFlags fuel (items ++ [(item, c.here)]) c.bump

def isAlphabeticChar (c : Char) : Bool := alphabetic.contains c

def isNumericChar (c : Char) : Bool := (Category.unionOf Category.numbers).contains c

def isCaptureNameChar (first : Bool) (c : Char) : Bool :=
  c = '_' || isAlphabeticChar c
    || (!first && (c = '.' || c = '[' || c = ']' || isNumericChar c))

/-- The characters of a capture group's name up to the closing angle. -/
def readCaptureName : Bool → List Char → Nat → Except Fault (List Char × Cursor)
  | _, [], pos => .error ⟨.captureNameUnclosed, ⟨pos, pos⟩, none⟩
  | first, c :: s, pos =>
    if c = '>' then .ok ([], ⟨s, pos + 1⟩)
    else if isCaptureNameChar first c then do
      let (name, next) ← readCaptureName false s (pos + 1)
      return (c :: name, next)
    else .error ⟨.captureNameInvalid, ⟨pos, pos + 1⟩, none⟩

/-- Opens a group on the stack. -/
def State.openGroup (s : State) (region : Region) (kind : GroupKind) (c : Cursor) : State :=
  { s with
    level := Level.nil c.pos
    stack := ⟨s.level, region, kind, s.ignore⟩ :: s.stack
    ignore := (flagState .ignoreSpace kind.flags).getD s.ignore
    cursor := c }

/-- A named capture group, the cursor on its name. -/
def readNamedGroup (s : State) (region : Region) (c : Cursor) : Except Fault State := do
  let (name, next) ← readCaptureName true c.rest c.pos
  let text := String.ofList name
  let place : Region := ⟨c.pos, c.pos + name.length⟩
  if name.isEmpty then .error ⟨.captureNameEmpty, c.point, none⟩
  else match s.names.find? (·.1 = text) with
    | some (_, first) => .error ⟨.captureNameDuplicate, place, some first⟩
    | none => .ok { s.openGroup region .capturing next with names := (text, place) :: s.names }

/-- Flags after an opening parenthesis and a question mark, on their own or before a group. -/
def readFlagged (s : State) (region : Region) (question : Region) (c : Cursor) :
    Except Fault State :=
  if c.rest.isEmpty then .error ⟨.groupUnclosed, region, none⟩
  else do
    let (items, after) ← readFlags (c.rest.length + 1) [] c
    let flags := items.map (·.1)
    let next := after.bump
    if after.char? ≠ some ')' then .ok (s.openGroup region (.flagged flags) next)
    else if flags.isEmpty then .error ⟨.repetitionMissing, question, none⟩
    else .ok { s.push (.flags ⟨region.start, next.pos⟩ flags) next with
      ignore := (flagState .ignoreSpace flags).getD s.ignore }

/-- An opening parenthesis and what may stand right after it. -/
def readGroupOpen (s : State) (c : Cursor) : Except Fault State :=
  let region := c.here
  let c := c.bump.space s.ignore
  match [['?', '='], ['?', '!'], ['?', '<', '='], ['?', '<', '!']].findSome? c.skip? with
  | some after => .error ⟨.lookAround, ⟨region.start, after.pos⟩, none⟩
  | none => match [['?', 'P', '<'], ['?', '<']].findSome? c.skip? with
    | some inner => readNamedGroup s region inner
    | none => match c.skip? ['?'] with
      | none => .ok (s.openGroup region .capturing c)
      | some inner => readFlagged s region c.point inner

/-- A closing parenthesis. -/
def readGroupClose (s : State) (c : Cursor) : Except Fault State :=
  match s.stack with
  | [] => .error ⟨.groupUnopened, c.here, none⟩
  | frame :: rest =>
    let group := Tree.group ⟨frame.region.start, c.bump.pos⟩ frame.kind (s.level.toTree c.pos)
    .ok { s with
      level := frame.outer.push group
      stack := rest
      ignore := frame.ignore
      cursor := c.bump }

/-- A bar between branches. -/
def readBar (s : State) (c : Cursor) : State :=
  { s with level := s.level.bar c.pos c.bump.pos, cursor := c.bump }

/-- The item that a repetition operator applies to, and the items before it. -/
def repeated (s : State) (c : Cursor) : Except Fault (Tree × List Tree) :=
  match s.level.items with
  | [] | .empty _ :: _ | .flags _ _ :: _ => .error ⟨.repetitionMissing, c.point, none⟩
  | t :: rest => .ok (t, rest)

/-- Skips the question mark that makes a repetition reluctant. -/
def skipReluctance (c : Cursor) : Cursor := if c.char? = some '?' then c.bump else c

def State.repeatLast (s : State) (least : Nat) (most : Option Nat) (item : Tree)
    (before : List Tree) (c : Cursor) : State :=
  { s with
    level := { s.level with
      sequence := ⟨s.level.sequence.start,
        .repetition ⟨item.region.start, c.pos⟩ least most item :: before⟩ }
    cursor := c }

def readRepetition (s : State) (c : Cursor) (least : Nat) (most : Option Nat) :
    Except Fault State := do
  let (item, before) ← repeated s c
  return s.repeatLast least most item before (skipReluctance c.bump)

/-- A decimal count of at most 32 bits; blanks may stand around it. -/
def readCount (ignore : Bool) (c : Cursor) : Except Fault Nat × Cursor :=
  let c : Cursor := ⟨c.rest.dropWhile isBlank,
    c.pos + (c.rest.takeWhile isBlank).length⟩
  let (digits, after) := takeSpaced ignore isDecimal c.rest.length c
  let region : Region := ⟨c.pos, after.pos⟩
  let (_, next) := takeSpaced ignore isBlank after.rest.length after
  let value := digits.foldl (fun n d => 10 * n + (d.toNat - 48)) 0
  let count : Except Fault Nat :=
    if digits.isEmpty then .error ⟨.repetitionCountEmpty, region, none⟩
    else if value < word32 then .ok value
    else .error ⟨.decimalInvalid, region, none⟩
  (count, next)

/-- The upper bound of a repetition, the cursor after the comma. -/
def readMost (ignore : Bool) (unclosed : Cursor → Fault) (count : Except Fault Nat) (c : Cursor) :
    Except Fault ((Nat × Option Nat) × Cursor) :=
  if c.rest.isEmpty then .error (unclosed c)
  else do
    let least ← count
    if c.char? = some '}' then .ok ((least, none), c)
    else
      let (second, next) := readCount ignore c
      let most ← second
      return ((least, some most), next)

/-- The bounds of a repetition, the cursor after the opening brace. -/
def readBounds (ignore : Bool) (unclosed : Cursor → Fault) (c : Cursor) :
    Except Fault ((Nat × Option Nat) × Cursor) :=
  if c.rest.isEmpty then .error (unclosed c)
  else
    let (count, c) := readCount ignore c
    match c.char? with
    | none => .error (unclosed c)
    | some ',' => readMost ignore unclosed count (c.bumpSpace ignore)
    | some _ => do
      let least ← count
      return ((least, some least), c)

/-- A counted repetition, the cursor on its opening brace. -/
def readCounted (s : State) (c : Cursor) : Except Fault State := do
  let unclosed := fun (d : Cursor) => (⟨.repetitionCountUnclosed, ⟨c.pos, d.pos⟩, none⟩ : Fault)
  let (item, before) ← repeated s c
  let ((least, most), after) ← readBounds s.ignore unclosed (c.bumpSpace s.ignore)
  if after.char? ≠ some '}' then .error (unclosed after)
  else
    let next := skipReluctance (after.bumpSpace s.ignore)
    if most.any (· < least) then .error ⟨.repetitionCountInvalid, ⟨c.pos, next.pos⟩, none⟩
    else .ok (s.repeatLast least most item before next)

/-- One step of the reader, the cursor on a character. -/
def readStep (s : State) (c : Cursor) (ch : Char) : Except Fault State :=
  match ch with
  | '(' => readGroupOpen s c
  | ')' => readGroupClose s c
  | '|' => .ok (readBar s c)
  | '[' => do
    let (t, next) ← readClass s.ignore (c.rest.length + 1) ⟨Items.nil c.pos, [], c⟩
    return s.push t next
  | '?' => readRepetition s c 0 (some 1)
  | '*' => readRepetition s c 0 none
  | '+' => readRepetition s c 1 none
  | '{' => readCounted s c
  | _ => do
    let (p, next) ← readPrimitive s.ignore ch c
    return s.push p.toTree next

/-- The tree of a pattern that has come to its end. -/
def State.finish (s : State) (c : Cursor) : Except Fault Tree :=
  match s.stack with
  | [] => .ok (s.level.toTree c.pos)
  | frame :: _ => .error ⟨.groupUnclosed, frame.region, none⟩

/-- Steps until the pattern ends; every step takes at least one character. -/
def readAll : Nat → State → Except Fault Tree
  | 0, s => s.finish s.cursor
  | fuel + 1, s =>
    let c := s.cursor.space s.ignore
    match c.char? with
    | none => s.finish c
    | some ch => do readAll fuel (← readStep s c ch)

/-! ### The nesting limit -/

/-- The first node of a class that is nested too deeply. -/
def ClassTree.tooDeep (depth : Nat) : ClassTree → Option Region
  | .bracketed r _ inner => if nestLimit ≤ depth then some r else inner.tooDeep (depth + 1)
  | .union r items => if nestLimit ≤ depth then some r else itemsTooDeep (depth + 1) items
  | .op r _ a b =>
    if nestLimit ≤ depth then some r
    else (a.tooDeep (depth + 1)).or (b.tooDeep (depth + 1))
  | _ => none
where
  itemsTooDeep (depth : Nat) : List ClassTree → Option Region
    | [] => none
    | t :: ts => (t.tooDeep depth).or (itemsTooDeep depth ts)

/-- The first node of a tree that is nested too deeply. -/
def Tree.tooDeep (depth : Nat) : Tree → Option Region
  | .bracketed r _ inner => if nestLimit ≤ depth then some r else inner.tooDeep (depth + 1)
  | .repetition r _ _ t => if nestLimit ≤ depth then some r else t.tooDeep (depth + 1)
  | .group r _ t => if nestLimit ≤ depth then some r else t.tooDeep (depth + 1)
  | .alternation r ts => if nestLimit ≤ depth then some r else treesTooDeep (depth + 1) ts
  | .sequence r ts => if nestLimit ≤ depth then some r else treesTooDeep (depth + 1) ts
  | _ => none
where
  treesTooDeep (depth : Nat) : List Tree → Option Region
    | [] => none
    | t :: ts => (t.tooDeep depth).or (treesTooDeep depth ts)

/-- Reads a pattern. -/
def readPattern (pattern : List Char) : Except Fault Tree := do
  let start : State := ⟨Level.nil 0, [], false, [], ⟨pattern, 0⟩⟩
  let tree ← readAll (pattern.length + 1) start
  match tree.tooDeep 0 with
  | some region => throw ⟨.nestLimit, region, none⟩
  | none => return tree

end StepGlue.Regex
