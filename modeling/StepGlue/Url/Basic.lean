import StepGlue.FileId
import StepGlue.Url.Host

/-! URLs, as far as they name files.

A URL is read as browsers read it: blanks around it and line breaks in it say nothing, schemes
of the network take a backslash for a slash, and parts that are dots are resolved. -/

namespace StepGlue

/-- A scheme, a host unless it is empty, and the parts of the path, unless the path is a text
without parts. Query and fragment are left out. -/
structure Url where
  scheme : String
  host : Option String
  path : Option (List (List Char))
deriving DecidableEq, Repr

namespace Url

def isAsciiLetter (c : Char) : Bool := ('a' ≤ c && c ≤ 'z') || ('A' ≤ c && c ≤ 'Z')

def isSchemeChar (c : Char) : Bool :=
  isAsciiLetter c || Json.isDigit c || c == '+' || c == '-' || c == '.'

/-- The scheme in front of the first colon, in lower case, and what follows. -/
def splitScheme (s : List Char) : Option (String × List Char) :=
  let scheme := s.takeWhile isSchemeChar
  match scheme.head?, s.drop scheme.length with
  | some c, ':' :: rest =>
    if isAsciiLetter c then some (String.ofList (scheme.map lowerAscii), rest) else none
  | _, _ => none

/-- The schemes of the network, next to the one for files. -/
def networkSchemes : List String := ["http", "https", "ws", "wss", "ftp"]

/-- Whether a part of a path is a dot, which may be written as a byte. -/
def isHere (p : List Char) : Bool := p == ['.'] || p.map lowerAscii == ['%', '2', 'e']

/-- Whether a part of a path is two dots. -/
def isUp (p : List Char) : Bool :=
  isHere (p.take 1) && isHere (p.drop 1) || isHere (p.take 3) && isHere (p.drop 3)

/-- Takes parts onto a path that is held with its last part first. Dots are resolved, and at the
end they leave an empty part. -/
def resolveParts (path : List (List Char)) : List (List Char) → List (List Char)
  | [] => path
  | p :: rest =>
    let path := if isUp p then path.tail else if isHere p then path else p :: path
    if rest.isEmpty then if isUp p || isHere p then [] :: path else path
    else resolveParts path rest

/-- The parts of a path without the slash in front of it. -/
def pathParts (s : List Char) : List (List Char) :=
  (resolveParts [] (splitAtSlashes s)).reverse

def dropSlash : List Char → List Char
  | '/' :: s => s
  | s => s

/-- Turns backslashes into slashes. -/
def unifySlashes (s : List Char) : List Char := s.map fun c => if c = '\\' then '/' else c

/-- A letter and a colon or bar in place of a host belong to the path. -/
def isDriveLetter (s : List Char) : Bool :=
  match s with
  | [a, b] => isAsciiLetter a && (b == ':' || b == '|')
  | _ => false

/-- A URL for a file: two slashes come before a host, and the host of this machine is no host. -/
def parseFile (s : List Char) : Except UrlError Url := do
  let (host, rest) ← match unifySlashes s with
    | '/' :: '/' :: s =>
      let host := s.takeWhile (· ≠ '/')
      if isDriveLetter host then pure (none, s)
      else if host.isEmpty then pure (none, s)
      else
        let name ← parseHost host
        pure (if name = "localhost" then none else some name, s.drop host.length)
    | s => pure (none, s)
  return ⟨"file", host, some (pathParts (rest.dropWhile (· = '/')))⟩

/-- The text after the last at sign in front of the path; what stands before names a user. -/
def afterUser (authority : List Char) : Option (List Char) :=
  if authority.contains '@' then
    some (authority.reverse.takeWhile (· ≠ '@')).reverse
  else none

/-- The host of an authority: up to the first colon outside brackets. -/
def hostText : Bool → List Char → List Char
  | _, [] => []
  | inside, c :: s =>
    if c = ':' && !inside then []
    else c :: hostText (if c = '[' then true else if c = ']' then false else inside) s

/-- Checks what follows the colon after a host: a number below 65536, or nothing. -/
def isPortNumber (s : List Char) : Bool := s.all Json.isDigit && Json.natValue s < 65536

/-- The host of an authority, if it is not empty. -/
def parseAuthority (isNetwork : Bool) (authority : List Char) :
    Except UrlError (Option String) := do
  let user := afterUser authority
  let rest := user.getD authority
  let text := hostText false rest
  if isNetwork && text.isEmpty then throw .emptyHost
  let host ← if isNetwork then parseHost text else parseOpaqueHost text
  let tail := rest.drop text.length
  if text.isEmpty && (!tail.isEmpty || user.isSome) then throw .emptyHost
  if !isPortNumber (tail.drop 1) then throw .portNumber
  return if text.isEmpty then none else some host

/-- A URL of a network scheme. Any number of slashes comes before the authority. -/
def parseNetwork (scheme : String) (s : List Char) : Except UrlError Url := do
  let s := (unifySlashes s).dropWhile (· = '/')
  let authority := s.takeWhile (· ≠ '/')
  let host ← parseAuthority true authority
  return ⟨scheme, host, some (pathParts (dropSlash (s.drop authority.length)))⟩

/-- A URL of another scheme. Only two slashes come before an authority, and a path that does not
start with a slash has no parts. -/
def parseOther (scheme : String) : List Char → Except UrlError Url
  | '/' :: '/' :: s => do
    let authority := s.takeWhile (· ≠ '/')
    let host ← parseAuthority false authority
    let rest := s.drop authority.length
    return ⟨scheme, host, if rest.isEmpty then none else some (pathParts (dropSlash rest))⟩
  | '/' :: s => .ok ⟨scheme, none, some (pathParts s)⟩
  | _ => .ok ⟨scheme, none, none⟩

/-- Reads a URL. -/
def parse (text : String) : Except UrlError Url :=
  let idle (c : Char) : Bool := c.toNat ≤ 32
  let s := ((text.toList.dropWhile idle).reverse.dropWhile idle).reverse
  match splitScheme (s.filter fun c => c ≠ '\t' && c ≠ '\n' && c ≠ '\r') with
  | none => .error .noScheme
  | some (scheme, rest) =>
    let rest := rest.takeWhile fun c => c ≠ '?' && c ≠ '#'
    if scheme = "file" then parseFile rest
    else if networkSchemes.contains scheme then parseNetwork scheme rest
    else parseOther scheme rest

/-- The path of the file that a URL names: one without a host, or on this machine. The scheme
does not matter. -/
def filePath? (u : Url) : Option String :=
  if u.host.all (· = "localhost") then
    u.path.map fun parts =>
      String.ofList (textOfBytes (percentDecode (parts.flatMap ('/' :: ·))))
  else none

end Url

/-- The URL of a file. -/
def FileId.url (f : FileId) : String :=
  if f.segments.isEmpty then "file:///"
  else "file://" ++ String.ofList (f.segments.flatMap fun s => '/' :: percentEncode s.text.toList)

end StepGlue
