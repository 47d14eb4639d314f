import StepGlue.Json.Reader
import StepGlue.Text.Utf8

/-! Bytes written as a percent sign and two hexadecimal digits. -/

namespace StepGlue

/-- The hexadecimal digit of a number below sixteen, in upper case. -/
def upperHexDigit (n : Nat) : Char := if n < 10 then Char.ofNat (48 + n) else Char.ofNat (55 + n)

def percentByte (b : UInt8) : List Char :=
  ['%', upperHexDigit (b.toNat / 16), upperHexDigit (b.toNat % 16)]

/-- The characters that a name in the path of a URL does not show as they are: controls, the
space, all beyond ASCII, and marks that mean something elsewhere. -/
def isHiddenInPath (c : Char) : Bool :=
  c.toNat ≤ 32 || 127 ≤ c.toNat
    || ['"', '#', '%', '/', '<', '>', '?', '\\', '`', '\x7b', '\x7d'].contains c

def percentEncode (s : List Char) : List Char :=
  s.flatMap fun c => if isHiddenInPath c then (bytesOfText [c]).flatMap percentByte else [c]

/-- The bytes of a text in which percent signs stand for bytes. One that two hexadecimal digits
do not follow stands for itself. -/
def percentDecode : List Char → List UInt8
  | [] => []
  | '%' :: a :: b :: rest =>
    match Json.hexValue? a, Json.hexValue? b with
    | some x, some y => UInt8.ofNat (16 * x + y) :: percentDecode rest
    | _, _ => bytesOfText ['%'] ++ percentDecode (a :: b :: rest)
  | c :: rest => bytesOfText [c] ++ percentDecode rest

end StepGlue
