/-! Reading bytes as UTF-8 text, whatever they are. -/

namespace StepGlue

/-- How many bytes follow a first byte, and between which values the next one lies; `none` if no
character starts with the byte. The narrower ranges leave out overlong forms, surrogates and what
lies beyond the last character. -/
def utf8Lead (b : Nat) : Option (Nat × Nat × Nat) :=
  if b < 0x80 then some (0, 0, 0)
  else if b < 0xC2 then none
  else if b < 0xE0 then some (1, 0x80, 0xBF)
  else if b = 0xE0 then some (2, 0xA0, 0xBF)
  else if b = 0xED then some (2, 0x80, 0x9F)
  else if b < 0xF0 then some (2, 0x80, 0xBF)
  else if b = 0xF0 then some (3, 0x90, 0xBF)
  else if b < 0xF4 then some (3, 0x80, 0xBF)
  else if b = 0xF4 then some (3, 0x80, 0x8F)
  else none

/-- The bytes that continue a character: at most a number of them, the first in a range. -/
def utf8Tail : Nat → Nat → Nat → List UInt8 → List Nat
  | 0, _, _, _ => []
  | _ + 1, _, _, [] => []
  | n + 1, lo, hi, b :: rest =>
    if lo ≤ b.toNat ∧ b.toNat ≤ hi then b.toNat :: utf8Tail n 0x80 0xBF rest else []

/-- The bits of a first byte that count, by the number of bytes after it. -/
def utf8LeadBits (b n : Nat) : Nat := if n = 0 then b else b % Nat.pow 2 (6 - n)

/-- Reads bytes as text. What is no character, as far as it could have become one, is replaced by
one replacement character. -/
def textOfBytes : List UInt8 → List Char
  | [] => []
  | b :: rest =>
    match utf8Lead b.toNat with
    | none => '\uFFFD' :: textOfBytes rest
    | some (n, lo, hi) =>
      let tail := utf8Tail n lo hi rest
      let c :=
        if tail.length = n then
          Char.ofNat (tail.foldl (fun v x => 64 * v + x % 64) (utf8LeadBits b.toNat n))
        else '\uFFFD'
      c :: textOfBytes (rest.drop tail.length)
termination_by bytes => bytes.length
decreasing_by all_goals (simp only [List.length_cons, List.length_drop]; omega)

/-- The bytes of a text. -/
def bytesOfText (s : List Char) : List UInt8 := (String.ofList s).toUTF8.toList

end StepGlue
