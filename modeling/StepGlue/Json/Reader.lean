import StepGlue.Json
import StepGlue.Text.Word

/-! Reading JSON text. -/

namespace StepGlue.Json

def isSpace (c : Char) : Bool := c = ' ' || c = '\t' || c = '\n' || c = '\r'

def skipSpace (s : List Char) : List Char := s.dropWhile isSpace

def isDigit (c : Char) : Bool := '0' ≤ c && c ≤ '9'

def hexValue? (c : Char) : Option Nat :=
  if isDigit c then some (c.toNat - 48)
  else if 'a' ≤ c ∧ c ≤ 'f' then some (c.toNat - 87)
  else if 'A' ≤ c ∧ c ≤ 'F' then some (c.toNat - 55)
  else none

/-- The value of four hexadecimal digits. -/
def hex4? (a b c d : Char) : Option Nat := do
  return 4096 * (← hexValue? a) + 256 * (← hexValue? b) + 16 * (← hexValue? c) + (← hexValue? d)

/-- The character that a letter after a backslash means. -/
def unescapeChar? : Char → Option Char
  | '"' => some '"'
  | '\\' => some '\\'
  | '/' => some '/'
  | 'b' => some '\x08'
  | 'f' => some '\x0c'
  | 'n' => some '\n'
  | 'r' => some '\r'
  | 't' => some '\t'
  | _ => none

/-- The characters of a string up to its closing quotation mark, and what follows it. Two
escaped surrogates make one character; one alone is refused, as are bare controls. -/
def readChars : List Char → Option (List Char × List Char)
  | [] => none
  | '"' :: s => some ([], s)
  | '\\' :: 'u' :: a :: b :: c :: d :: '\\' :: 'u' :: e :: f :: g :: h :: s => do
    let n ← hex4? a b c d
    if 0xD800 ≤ n ∧ n < 0xDC00 then
      let m ← hex4? e f g h
      if 0xDC00 ≤ m ∧ m < 0xE000 then
        let (cs, rest) ← readChars s
        return (Char.ofNat (0x10000 + 1024 * (n - 0xD800) + (m - 0xDC00)) :: cs, rest)
      else none
    else if 0xDC00 ≤ n ∧ n < 0xE000 then none
    else
      let (cs, rest) ← readChars ('\\' :: 'u' :: e :: f :: g :: h :: s)
      return (Char.ofNat n :: cs, rest)
  | '\\' :: 'u' :: a :: b :: c :: d :: s => do
    let n ← hex4? a b c d
    if 0xD800 ≤ n ∧ n < 0xE000 then none
    else
      let (cs, rest) ← readChars s
      return (Char.ofNat n :: cs, rest)
  | '\\' :: c :: s => do
    let ch ← unescapeChar? c
    let (cs, rest) ← readChars s
    return (ch :: cs, rest)
  | c :: s =>
    if c.toNat < 32 ∨ c = '\\' then none
    else (readChars s).map fun r => (c :: r.1, r.2)

def natValue (digits : List Char) : Nat := digits.foldl (fun n c => 10 * n + (c.toNat - 48)) 0

/-- The integer part of a number: zero, or digits that do not start with zero. -/
def readWhole (s : List Char) : Option (List Char × List Char) :=
  let digits := s.takeWhile isDigit
  match digits with
  | [] => none
  | '0' :: _ :: _ => none
  | _ => some (digits, s.dropWhile isDigit)

/-- The fraction and exponent of a number, as they are written. -/
def readTail (s : List Char) : Option (List Char × List Char) := do
  let (fraction, s) ← match s with
    | '.' :: t =>
      let digits := t.takeWhile isDigit
      if digits.isEmpty then none else some ('.' :: digits, t.dropWhile isDigit)
    | _ => some ([], s)
  match s with
  | e :: t =>
    if e = 'e' ∨ e = 'E' then
      let (sign, u) := match t with
        | '+' :: u => (['+'], u)
        | '-' :: u => (['-'], u)
        | u => ([], u)
      let digits := u.takeWhile isDigit
      if digits.isEmpty then none
      else some (fraction ++ e :: (sign ++ digits), u.dropWhile isDigit)
    else some (fraction, s)
  | [] => some (fraction, [])

/-- A number. It is an integer if it is written as one and fits 64 bits. -/
def readNumber (s : List Char) : Option (Json × List Char) := do
  let (negative, t) := match s with
    | '-' :: t => (true, t)
    | t => (false, t)
  let (whole, t) ← readWhole t
  let (tail, rest) ← readTail t
  let n := natValue whole
  let text := (if negative then ['-'] else []) ++ whole ++ tail
  if !tail.isEmpty then return (.real (String.ofList text), rest)
  if negative then
    if n = 0 ∨ word64 / 2 < n then return (.real (String.ofList text), rest)
    else return (.int (-(n : Int)), rest)
  else if n < word64 then return (.int n, rest)
  else return (.real (String.ofList text), rest)

/-- Skips a literal text. -/
def readWord (word : String) (value : Json) (s : List Char) : Option (Json × List Char) :=
  if word.toList.isPrefixOf s then some (value, s.drop word.length) else none

mutual

/-- A value, blanks before it skipped. `depth` bounds how deeply arrays and objects nest, and
`fuel` the number of values and separators. -/
def readValue (depth : Nat) : Nat → List Char → Option (Json × List Char)
  | 0, _ => none
  | fuel + 1, s =>
    match skipSpace s with
    | '"' :: t => (readChars t).map fun r => (.str (String.ofList r.1), r.2)
    | '[' :: t =>
      if depth ≤ 1 then none
      else match skipSpace t with
        | ']' :: rest => some (.arr [], rest)
        | _ => (readItems (depth - 1) fuel t).map fun r => (.arr r.1, r.2)
    | '{' :: t =>
      if depth ≤ 1 then none
      else match skipSpace t with
        | '}' :: rest => some (.obj [], rest)
        | _ => (readFields (depth - 1) fuel t).map fun r => (.obj r.1, r.2)
    | 'n' :: t => readWord "null" .null ('n' :: t)
    | 't' :: t => readWord "true" (.bool true) ('t' :: t)
    | 'f' :: t => readWord "false" (.bool false) ('f' :: t)
    | t => readNumber t

/-- The items of an array up to its closing bracket. -/
def readItems (depth : Nat) : Nat → List Char → Option (List Json × List Char)
  | 0, _ => none
  | fuel + 1, s => do
    let (item, s) ← readValue depth fuel s
    match skipSpace s with
    | ',' :: t => (readItems depth fuel t).map fun r => (item :: r.1, r.2)
    | ']' :: rest => some ([item], rest)
    | _ => none

/-- The fields of an object up to its closing brace. -/
def readFields (depth : Nat) : Nat → List Char → Option (List (String × Json) × List Char)
  | 0, _ => none
  | fuel + 1, s => do
    match skipSpace s with
    | '"' :: t =>
      let (name, t) ← readChars t
      match skipSpace t with
      | ':' :: t =>
        let (value, t) ← readValue depth fuel t
        let field := (String.ofList name, value)
        match skipSpace t with
        | ',' :: t => (readFields depth fuel t).map fun r => (field :: r.1, r.2)
        | '}' :: rest => some ([field], rest)
        | _ => none
      | _ => none
    | _ => none

end

/-- How deeply arrays and objects may nest. -/
def depthLimit : Nat := 128

/-- Reads a text that is one value with nothing but blanks around it. -/
def read (s : String) : Option Json := do
  let chars := s.toList
  let (value, rest) ← readValue depthLimit (chars.length + 1) chars
  if (skipSpace rest).isEmpty then some value else none

end StepGlue.Json
