import StepGlue.Regex.Error
import StepGlue.Regex.Expr
import StepGlue.Regex.Unicode.CaseFolding
import StepGlue.Regex.Unicode.Names

/-! From the tree of a pattern to a regular expression over characters. Flags take effect from
where they stand to the end of the enclosing group. What a named set holds is looked up in a
table, so that nothing else depends on the names that a table knows. -/

namespace StepGlue.Regex

structure Flags where
  caseInsensitive : Bool := false
  multiLine : Bool := false
  dotAll : Bool := false
  crlf : Bool := false
  unicode : Bool := true
deriving DecidableEq, Repr

def Flags.update (f : Flags) (items : List FlagItem) : Flags where
  caseInsensitive := (flagState .caseInsensitive items).getD f.caseInsensitive
  multiLine := (flagState .multiLine items).getD f.multiLine
  dotAll := (flagState .dotAll items).getD f.dotAll
  crlf := (flagState .crlf items).getD f.crlf
  unicode := (flagState .unicode items).getD f.unicode

def spaceClass : CharClass :=
  [(9, 13), (0x20, 0x20), (0x85, 0x85), (0xA0, 0xA0), (0x1680, 0x1680), (0x2000, 0x200A),
    (0x2028, 0x2029), (0x202F, 0x202F), (0x205F, 0x205F), (0x3000, 0x3000)]

def asciiWord : CharClass := [(48, 57), (65, 90), (95, 95), (97, 122)]

def asciiClass : AsciiName → CharClass
  | .alnum => [(48, 57), (65, 90), (97, 122)]
  | .alpha => [(65, 90), (97, 122)]
  | .ascii => [(0, 0x7F)]
  | .blank => [(9, 9), (32, 32)]
  | .cntrl => [(0, 31), (127, 127)]
  | .digit => [(48, 57)]
  | .graph => [(33, 126)]
  | .lower => [(97, 122)]
  | .print => [(32, 126)]
  | .punct => [(33, 47), (58, 64), (91, 96), (123, 126)]
  | .space => [(9, 13), (32, 32)]
  | .upper => [(65, 90)]
  | .word => asciiWord
  | .xdigit => [(48, 57), (65, 70), (97, 102)]

def Flags.fold (f : Flags) (s : CharClass) : CharClass :=
  if !f.caseInsensitive then s else if f.unicode then s.foldCase else s.foldAsciiCase

/-- The complement of a set. Where characters are bytes it would hold bytes that are no text. -/
def Flags.negate (f : Flags) (region : Region) (negated : Bool) (s : CharClass) :
    Except Fault CharClass :=
  if !negated then .ok s
  else if f.unicode then .ok s.complement
  else .error ⟨.invalidUtf8, region, none⟩

def Flags.shorthand (f : Flags) (region : Region) (kind : Shorthand) (negated : Bool) :
    Except Fault CharClass :=
  f.negate region negated <| match kind with
    | .digit => if f.unicode then digitClass else [(48, 57)]
    | .space => if f.unicode then spaceClass else asciiClass .space
    | .word => if f.unicode then wordClass else asciiWord

def Flags.named (sets : NamedSets) (f : Flags) (region : Region) (name : ClassName)
    (negated : Bool) : Except Fault CharClass :=
  if !f.unicode then .error ⟨.unicodeNotAllowed, region, none⟩
  else match sets name with
    | .error .property => .error ⟨.propertyNotFound, region, none⟩
    | .error .value => .error ⟨.propertyValueNotFound, region, none⟩
    | .ok s => f.negate region negated (f.fold s)

/-- A literal as a member of a class: where characters are bytes it has to be ASCII. -/
def Flags.classLiteral (f : Flags) (l : Literal) : Except Fault Nat :=
  if f.unicode || l.char.toNat ≤ 0x7F then .ok l.char.toNat
  else if l.isByte then .error ⟨.invalidUtf8, l.region, none⟩
  else .error ⟨.unicodeNotAllowed, l.region, none⟩

/-- The set of characters that a class means. -/
def ClassTree.lower (sets : NamedSets) (f : Flags) : ClassTree → Except Fault CharClass
  | .empty _ => .ok []
  | .literal l => do
    let n ← f.classLiteral l
    return [(n, n)]
  | .range _ first last => do
    let lo ← f.classLiteral first
    let hi ← f.classLiteral last
    return [(lo, hi)]
  | .ascii region name negated => f.negate region negated (f.fold (asciiClass name))
  | .named region name negated => f.named sets region name negated
  | .shorthand region kind negated => f.shorthand region kind negated
  | .bracketed region negated inner => do
    let s ← inner.lower sets f
    f.negate region negated (f.fold s)
  | .union _ items => lowerItems sets f items
  | .op _ kind left right => do
    let a := f.fold (← left.lower sets f)
    let b := f.fold (← right.lower sets f)
    return match kind with
      | .inter => a.inter b
      | .diff => a.diff b
      | .symmDiff => a.symmDiff b
where
  lowerItems (sets : NamedSets) (f : Flags) : List ClassTree → Except Fault CharClass
    | [] => .ok []
    | t :: ts => do
      let a ← t.lower sets f
      let b ← lowerItems sets f ts
      return a.union b

/-- A character on its own. -/
def Flags.literal (f : Flags) (l : Literal) : Except Fault Expr :=
  if !f.unicode && l.isByte && 0x7F < l.char.toNat then .error ⟨.invalidUtf8, l.region, none⟩
  else .ok (.chars (f.fold (CharClass.single l.char)))

def Flags.dot (f : Flags) (region : Region) : Except Fault Expr :=
  if !f.unicode then .error ⟨.invalidUtf8, region, none⟩
  else if f.dotAll then .ok (.chars CharClass.anyChar)
  else if f.crlf then .ok (.chars (CharClass.complement [(10, 10), (13, 13)]))
  else .ok (.chars (CharClass.complement [(10, 10)]))

def Flags.assertion (f : Flags) (kind : Assertion) : Look :=
  let word := if f.unicode then wordClass else asciiWord
  match kind with
  | .textStart => .textStart
  | .textEnd => .textEnd
  | .lineStart => if !f.multiLine then .textStart else if f.crlf then .crlfStart else .lineStart
  | .lineEnd => if !f.multiLine then .textEnd else if f.crlf then .crlfEnd else .lineEnd
  | .wordBoundary => .word .boundary word
  | .notWordBoundary => .word .notBoundary word
  | .wordStart => .word .start word
  | .wordEnd => .word .stop word
  | .wordStartHalf => .word .startHalf word
  | .wordEndHalf => .word .stopHalf word

/-- The expression that a tree means under some flags, and the flags in force after it. -/
def Tree.lower (sets : NamedSets) (f : Flags) : Tree → Except Fault (Expr × Flags)
  | .empty _ => .ok (.empty, f)
  | .flags _ items => .ok (.empty, f.update items)
  | .literal l => do return (← f.literal l, f)
  | .dot region => do return (← f.dot region, f)
  | .assertion _ kind => .ok (.look (f.assertion kind), f)
  | .named region name negated => do return (.chars (← f.named sets region name negated), f)
  | .shorthand region kind negated => do return (.chars (← f.shorthand region kind negated), f)
  | .bracketed region negated inner => do
    let s ← inner.lower sets f
    return (.chars (← f.negate region negated (f.fold s)), f)
  | .repetition _ least most item => do
    let (e, f) ← item.lower sets f
    return (.rep least most e, f)
  | .group _ kind body => do
    let (e, _) ← body.lower sets (f.update kind.flags)
    return (e, f)
  | .alternation _ branches => lowerBranches sets f branches
  | .sequence _ items => lowerItems sets f items
where
  lowerItems (sets : NamedSets) (f : Flags) : List Tree → Except Fault (Expr × Flags)
    | [] => .ok (.empty, f)
    | t :: ts => do
      let (a, f) ← t.lower sets f
      let (b, f) ← lowerItems sets f ts
      return (.seq a b, f)
  lowerBranches (sets : NamedSets) (f : Flags) : List Tree → Except Fault (Expr × Flags)
    | [] => .ok (.chars [], f)
    | [t] => t.lower sets f
    | t :: ts => do
      let (a, f) ← t.lower sets f
      let (b, f) ← lowerBranches sets f ts
      return (.alt a b, f)

end StepGlue.Regex
