import StepGlue.Text.Blank
import StepGlue.Url.Percent

/-! The hosts of URLs: names and numeric addresses. -/

namespace StepGlue

/-- Why a text is no URL. -/
inductive UrlError
  | noScheme
  | emptyHost
  | portNumber
  | ipv4Address
  | ipv6Address
  | hostCharacter
  | hostName
deriving DecidableEq, Repr

def UrlError.message : UrlError → String
  | .noScheme => "relative URL without a base"
  | .emptyHost => "empty host"
  | .portNumber => "invalid port number"
  | .ipv4Address => "invalid IPv4 address"
  | .ipv6Address => "invalid IPv6 address"
  | .hostCharacter => "invalid domain character"
  | .hostName => "invalid international domain name"

/-- Cuts a text at every occurrence of a character, keeping empty parts. -/
def splitAtChar (mark : Char) : List Char → List (List Char)
  | [] => [[]]
  | c :: s =>
    if c = mark then [] :: splitAtChar mark s
    else match splitAtChar mark s with
      | [] => [[c]]
      | p :: ps => (c :: p) :: ps

/-- The value of digits to a base; `none` if one of them is no digit of the base. -/
def digitsToBase? (base : Nat) (digits : List Char) : Option Nat :=
  digits.foldlM (fun n c => do
    let d ← Json.hexValue? c
    if d < base then some (base * n + d) else none) 0

/-- A part of a version 4 address: decimal, or octal after a zero, or hexadecimal after 0x. -/
def ipv4Number? : List Char → Option Nat
  | [] => none
  | '0' :: 'x' :: digits => digitsToBase? 16 digits
  | '0' :: 'X' :: digits => digitsToBase? 16 digits
  | '0' :: d :: digits => digitsToBase? 8 (d :: digits)
  | digits => digitsToBase? 10 digits

/-- The parts of a dotted name; one dot at the end says nothing. -/
def dottedParts (name : List Char) : List (List Char) :=
  let parts := splitAtChar '.' name
  if 1 < parts.length && parts.getLast? == some [] then parts.dropLast else parts

/-- Whether a name has to be a version 4 address: its last part is a number. -/
def endsInNumber (name : List Char) : Bool :=
  match (dottedParts name).getLast? with
  | some last => (!last.isEmpty && last.all Json.isDigit) || (ipv4Number? last).isSome
  | none => false

/-- Whether a name is a version 4 address. The last part fills the places that are left. -/
def isIpv4 (name : List Char) : Bool :=
  let parts := dottedParts name
  match parts.mapM ipv4Number? with
  | some numbers =>
    numbers.length ≤ 4 && numbers.dropLast.all (· < 256)
      && numbers.getLast?.any (· < Nat.pow 256 (5 - numbers.length))
  | none => false

/-- A number below 256 as the end of a version 6 address has it: no zero in front. -/
def isPlainOctet : List Char → Bool
  | ['0'] => true
  | '0' :: _ => false
  | digits => !digits.isEmpty && digits.length ≤ 3 && (digitsToBase? 10 digits).any (· < 256)

/-- How many places a group of a version 6 address fills: a dotted address at the end fills
two. -/
def ipv6Places? (isLast : Bool) (group : List Char) : Option Nat :=
  if isLast && group.contains '.' then
    let octets := splitAtChar '.' group
    if octets.length = 4 && octets.all isPlainOctet then some 2 else none
  else if !group.isEmpty && group.length ≤ 4 && group.all (fun c => (Json.hexValue? c).isSome) then
    some 1
  else none

/-- The number of places that a side of a version 6 address fills. -/
def ipv6Side? (endsAddress : Bool) (s : List Char) : Option Nat :=
  if s.isEmpty then some 0
  else
    let groups := splitAtChar ':' s
    (groups.zipIdx.mapM fun (g, i) =>
      ipv6Places? (endsAddress && i + 1 == groups.length) g).map fun (ns : List Nat) => ns.foldl (· + ·) 0

/-- The two sides of the first double colon. -/
def splitAtDoubleColon : List Char → Option (List Char × List Char)
  | ':' :: ':' :: s => some ([], s)
  | c :: s => (splitAtDoubleColon s).map fun (a, b) => (c :: a, b)
  | [] => none

/-- Whether a text is a version 6 address: eight places, or fewer with a double colon for the
others. -/
def isIpv6 (s : List Char) : Bool :=
  match splitAtDoubleColon s with
  | some (a, b) => match ipv6Side? false a, ipv6Side? true b with
    | some m, some n => m + n ≤ 7
    | _, _ => false
  | none => ipv6Side? true s == some 8

/-- An address in square brackets. -/
def bracketedHost (s : List Char) : Except UrlError String :=
  if s.getLast? == some ']' && isIpv6 (s.drop 1).dropLast then .ok (String.ofList s)
  else .error .ipv6Address

/-- Characters that no host name holds. -/
def isForbiddenInName (c : Char) : Bool :=
  c.toNat ≤ 32 || c.toNat == 127 || c == '\uFFFD'
    || ['#', '%', '/', ':', '<', '>', '?', '@', '[', '\\', ']', '^', '|'].contains c

/-- The host of a URL whose scheme knows network names. -/
def parseHost (s : List Char) : Except UrlError String :=
  if s.head? == some '[' then bracketedHost s
  else
    let name := (textOfBytes (percentDecode s)).map lowerAscii
    if name.any isForbiddenInName then .error .hostName
    else if name.isEmpty then .error .emptyHost
    else if endsInNumber name && !isIpv4 name then .error .ipv4Address
    else .ok (String.ofList name)

/-- Characters that a host of any scheme may not hold. -/
def isForbiddenInHost (c : Char) : Bool :=
  ['\x00', '\t', '\n', '\r', ' ', '#', '/', ':', '<', '>', '?', '@', '[', '\\', ']', '^',
    '|'].contains c

/-- The host of a URL of any other scheme, which is taken as it stands. -/
def parseOpaqueHost (s : List Char) : Except UrlError String :=
  if s.head? == some '[' then bracketedHost s
  else if s.any isForbiddenInHost then .error .hostCharacter
  else .ok (String.ofList s)

end StepGlue
