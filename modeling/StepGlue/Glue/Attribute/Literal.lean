import StepGlue.Glue.Attribute.Token
import StepGlue.Regex.Unicode.Property
import StepGlue.Text.Units

/-! Identifiers and literals of a source file. -/

namespace StepGlue.Attribute

def isIdentStart (c : Char) : Bool :=
  c == '_' || if c.toNat < 128 then c.isAlpha else Regex.xidStart.contains c

def isIdentContinue (c : Char) : Bool :=
  c == '_' || if c.toNat < 128 then c.isAlphanum else Regex.xidContinue.contains c

/-- The identifier at the front of a text, and what follows it. -/
def identRun? : List Char → Option (List Char × List Char)
  | [] => none
  | c :: s =>
    if isIdentStart c then some (c :: s.takeWhile isIdentContinue, s.dropWhile isIdentContinue)
    else none

/-- An identifier, raw or not. The words for paths cannot be raw. -/
def identifier? : List Char → Option (List Char × List Char)
  | 'r' :: '#' :: s =>
    (identRun? s).bind fun (word, rest) =>
      if ["_", "super", "self", "Self", "crate"].contains (String.ofList word) then none
      else some ('r' :: '#' :: word, rest)
  | s => identRun? s

/-- A literal may end with an identifier that says its type. -/
def dropSuffix (s : List Char) : List Char :=
  match identRun? s with
  | some (_, rest) => rest
  | none => s

/-- The three kinds of string literals differ in the characters and escapes that they admit. -/
inductive StringKind
  | chars | bytes | terminated
deriving DecidableEq, Repr

/-- Byte strings are ASCII, and terminated strings have no null character. -/
def StringKind.admits : StringKind → Char → Bool
  | .chars, _ => true
  | .bytes, c => c.toNat < 128
  | .terminated, c => c.toNat ≠ 0

/-- The bytes that can be given by their number: text takes the ASCII ones. -/
def StringKind.admitsByte : StringKind → Nat → Bool
  | .chars, n => n < 128
  | .bytes, _ => true
  | .terminated, n => n != 0

def hexValue? (c : Char) : Option Nat :=
  if '0' ≤ c ∧ c ≤ '9' then some (c.toNat - 48)
  else if 'a' ≤ c ∧ c ≤ 'f' then some (c.toNat - 87)
  else if 'A' ≤ c ∧ c ≤ 'F' then some (c.toNat - 55)
  else none

def charOfNat? (n : Nat) : Option Char := if n.isValidChar then some (Char.ofNat n) else none

/-- The rest of an escape by code point: up to six digits, low lines after the first, and a
closing brace. -/
def codePoint? : Nat → Nat → List Char → Option (Char × List Char)
  | _, _, [] => none
  | value, digits, c :: s =>
    match hexValue? c with
    | some d => if digits = 6 then none else codePoint? (16 * value + d) (digits + 1) s
    | none =>
      if digits = 0 then none
      else if c = '_' then codePoint? value digits s
      else if c = '}' then (charOfNat? value).map fun c => (c, s)
      else none

theorem codePoint?_length {s rest : List Char} {c : Char} {value digits : Nat}
    (h : codePoint? value digits s = some (c, rest)) : rest.length < s.length := by
  fun_induction codePoint? value digits s with
  | case1 => cases h
  | case2 => cases h
  | case3 value digits x s d hx hd ih =>
    have := ih h
    simp only [List.length_cons]
    omega
  | case4 => cases h
  | case5 value digits s hx hd ih =>
    have := ih h
    simp only [List.length_cons]
    omega
  | case6 =>
    obtain ⟨y, hy, he⟩ := Option.map_eq_some_iff.1 h
    cases he
    simp
  | case7 => cases h

/-- An escape after its backslash, and what follows it. -/
def escape? (kind : StringKind) : List Char → Option (Char × List Char)
  | 'n' :: s => some ('\n', s)
  | 'r' :: s => some ('\r', s)
  | 't' :: s => some ('\t', s)
  | '\\' :: s => some ('\\', s)
  | '\'' :: s => some ('\'', s)
  | '"' :: s => some ('"', s)
  | '0' :: s => if kind = .terminated then none else some (Char.ofNat 0, s)
  | 'x' :: a :: b :: s =>
    match hexValue? a, hexValue? b with
    | some m, some n =>
      if kind.admitsByte (16 * m + n) then some (Char.ofNat (16 * m + n), s) else none
    | _, _ => none
  | 'u' :: '{' :: s =>
    (codePoint? 0 0 s).bind fun (c, rest) =>
      if kind = .bytes ∨ (kind = .terminated ∧ c.toNat = 0) then none else some (c, rest)
  | _ => none

theorem escape?_length {kind : StringKind} {s rest : List Char} {c : Char}
    (h : escape? kind s = some (c, rest)) : rest.length < s.length := by
  unfold escape? at h
  split at h
  all_goals try (cases h; simp only [List.length_cons]; omega)
  · split at h
    · cases h
    · cases h; simp
  · split at h
    · split at h
      · cases h
        simp only [List.length_cons]
        omega
      · cases h
    · cases h
  · obtain ⟨⟨d, r⟩, hd, he⟩ := Option.bind_eq_some_iff.1 h
    have := codePoint?_length hd
    dsimp only at he
    split at he
    · cases he
    · cases he
      simp only [List.length_cons]
      omega
  · cases h

/-- Passes over the blanks with which a line of a literal is continued, counting lines. -/
def dropContinuation : Nat → List Char → Option (Nat × List Char)
  | _, [] => none
  | line, '\r' :: s =>
    match s with
    | '\n' :: s => dropContinuation (line + 1) s
    | _ => none
  | line, c :: s =>
    if c = '\n' then dropContinuation (line + 1) s
    else if c = ' ' ∨ c = '\t' then dropContinuation line s
    else some (line, c :: s)

theorem dropContinuation_length {s rest : List Char} {line line' : Nat}
    (h : dropContinuation line s = some (line', rest)) : rest.length ≤ s.length := by
  fun_induction dropContinuation line s with
  | case1 => cases h
  | case2 line s ih =>
    have := ih h
    simp only [List.length_cons]
    omega
  | case3 => cases h
  | case4 line s _ ih =>
    have := ih h
    simp only [List.length_cons]
    omega
  | case5 line c s _ _ _ ih =>
    have := ih h
    simp only [List.length_cons]
    omega
  | case6 => cases h; exact Nat.le_refl _

/-- The value of a literal, the line on which it ends, and what follows it. -/
abbrev Scanned := List Char × Nat × List Char

def Scanned.push (c : Char) (s : Scanned) : Scanned := (c :: s.1, s.2)

/-- A string literal after its opening quotation mark. A carriage return only stands before a line
feed, and the two count as a line feed. -/
def quoted? (kind : StringKind) (line : Nat) : List Char → Option Scanned
  | [] => none
  | '"' :: s => some ([], line, s)
  | '\\' :: s =>
    if s.head?.any fun c => c == '\n' || c == '\r' then
      match _h : dropContinuation line s with
      | some (line, rest) => quoted? kind line rest
      | none => none
    else
      match _h : escape? kind s with
      | some (c, rest) => (quoted? kind line rest).map (.push c)
      | none => none
  | '\r' :: s =>
    match s with
    | '\n' :: s => (quoted? kind (line + 1) s).map (.push '\n')
    | _ => none
  | c :: s =>
    if kind.admits c then
      (quoted? kind (if c = '\n' then line + 1 else line) s).map (.push c)
    else none
termination_by s => s.length
decreasing_by
  · exact Nat.lt_succ_of_le (dropContinuation_length _h)
  · exact Nat.lt_succ_of_lt (escape?_length _h)
  · simp only [List.length_cons]; omega
  · simp

/-- A raw string literal after its opening quotation mark: it ends with a quotation mark and as
many number signs as it began with. -/
def raw? (kind : StringKind) (hashes : Nat) : Nat → List Char → Option Scanned
  | _, [] => none
  | line, c :: s =>
    if c = '"' ∧ (List.replicate hashes '#').isPrefixOf s then some ([], line, s.drop hashes)
    else if c = '\r' ∧ s.head? ≠ some '\n' then none
    else if kind.admits c then
      (raw? kind hashes (if c = '\n' then line + 1 else line) s).map (.push c)
    else none

/-- A raw string literal after its letter. -/
def rawString? (kind : StringKind) (line : Nat) (s : List Char) : Option Scanned :=
  let hashes := (s.takeWhile (· == '#')).length
  match s.drop hashes with
  | '"' :: s => if hashes ≤ 255 then raw? kind hashes line s else none
  | _ => none

/-- A character literal after its opening mark: one character or escape, and a closing mark. -/
def character? (kind : StringKind) (line : Nat) (s : List Char) : Option Scanned :=
  let inner := match s with
    | '\\' :: s => escape? kind s
    | c :: s => if kind.admits c then some (c, s) else none
    | [] => none
  match inner with
  | some (c, '\'' :: rest) => some ([c], if c = '\n' && s.head? != some '\\' then line + 1 else line, rest)
  | _ => none

def isDigitOrLow (c : Char) : Bool := c.isDigit || c == '_'

/-- Where an exponent ends. Without a digit in it, the number ends before the exponent, if it can
end there. -/
def exponentEnd (before : Option (List Char)) : Bool → Bool → List Char → Option (List Char)
  | _, hasValue, [] => if hasValue then some [] else before
  | hasSign, hasValue, c :: s =>
    if (c = '+' ∨ c = '-') ∧ !hasValue then
      if hasSign then before else exponentEnd before true hasValue s
    else if c.isDigit then exponentEnd before hasSign true s
    else if c = '_' then exponentEnd before hasSign hasValue s
    else if hasValue then some (c :: s) else before

/-- Where a number with a point or an exponent ends. -/
def floatEnd? : List Char → Option (List Char)
  | [] => none
  | d :: s =>
    if !d.isDigit then none
    else match s.dropWhile isDigitOrLow with
      | '.' :: s =>
        if s.head?.any fun c => c == '.' || isIdentStart c then none
        else
          let rest := s.dropWhile isDigitOrLow
          match rest with
          | c :: s => if c = 'e' ∨ c = 'E' then exponentEnd (some rest) false false s else some rest
          | [] => some []
      | c :: s => if c = 'e' ∨ c = 'E' then exponentEnd none false false s else none
      | [] => none

/-- Where the digits of a base end. A decimal digit beyond the base is an error, a letter ends the
number. -/
def digitsEnd? (base : Nat) : Bool → List Char → Option (List Char)
  | found, [] => if found then some [] else none
  | found, c :: s =>
    let stop := if found then some (c :: s) else none
    if c.isDigit then if c.toNat - 48 < base then digitsEnd? base true s else none
    else match hexValue? c with
      | some d => if d < base then digitsEnd? base true s else stop
      | none =>
        if c = '_' then if !found && base = 10 then none else digitsEnd? base found s
        else stop

def integerEnd? : List Char → Option (List Char)
  | '0' :: 'x' :: s => digitsEnd? 16 false s
  | '0' :: 'o' :: s => digitsEnd? 8 false s
  | '0' :: 'b' :: s => digitsEnd? 2 false s
  | s => digitsEnd? 10 false s

/-- A number with its suffix; no identifier character follows it. -/
def endNumber (s : List Char) : Option (List Char) :=
  let rest := dropSuffix s
  if rest.head?.any isIdentContinue then none else some rest

def number? (s : List Char) : Option (List Char) :=
  ((floatEnd? s).bind endNumber).or ((integerEnd? s).bind endNumber)

/-- The literal at the front of a text, the line on which it ends, and what follows it. -/
def literal? (line : Nat) (s : List Char) : Option (Token × Nat × List Char) :=
  let other (r : Option Scanned) : Option (Token × Nat × List Char) :=
    r.map fun (_, last, rest) => (.literal line, last, dropSuffix rest)
  let text (r : Option Scanned) : Option (Token × Nat × List Char) :=
    r.map fun (value, last, rest) => (.text (String.ofList value) line, last, dropSuffix rest)
  let found := match s with
    | '"' :: s => text (quoted? .chars line s)
    | 'r' :: s => text (rawString? .chars line s)
    | 'b' :: '"' :: s => other (quoted? .bytes line s)
    | 'b' :: 'r' :: s => other (rawString? .bytes line s)
    | 'c' :: '"' :: s => other (quoted? .terminated line s)
    | 'c' :: 'r' :: s => other (rawString? .terminated line s)
    | 'b' :: '\'' :: s => other (character? .bytes line s)
    | '\'' :: s => other (character? .chars line s)
    | _ => none
  found.or ((number? s).map fun rest => (.literal line, line, rest))

end StepGlue.Attribute
