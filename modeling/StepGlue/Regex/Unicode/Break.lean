import StepGlue.Regex.Unicode.Property
import StepGlue.Regex.Unicode.Script

/-! Where clusters of characters, words and sentences may be broken, as of version 16 of the
character database. Each rule gives every character one value, named in lower case and without
low lines. -/

namespace StepGlue.Regex

def emojiModifier : CharClass := [(0x1F3FB, 0x1F3FF)]

/-- Signs that stand before a number and enclose it. -/
def numberSigns : CharClass :=
  [(0x600, 0x605), (0x6DD, 0x6DD), (0x890, 0x891), (0x8E2, 0x8E2), (0x110BD, 0x110BD),
    (0x110CD, 0x110CD)]

/-- What belongs to the character after it. -/
def graphemePrepend : CharClass := decodeRanges
  ["16o 5 5z 0 1d 0 ao 1 28 0 vf 0 1f8u 0 f 0 6s 1 el 0 12l 0 1 0 8y 5 jg 0 cb 0"]

def graphemeControl : CharClass :=
  ((Category.unionOf [.cc, .cf, .zl, .zp]).diff <|
    (graphemeExtend.union graphemePrepend).union [(0xA, 0xA), (0xD, 0xD), (0x200C, 0x200D)]).union
  [(0x2065, 0x2065), (0xFFF0, 0xFFF8), (0xE0000, 0xE0000), (0xE0002, 0xE001F), (0xE0080, 0xE00FF),
    (0xE01F0, 0xE0FFF)]

def graphemeSpacingMark : CharClass :=
  CharClass.diff ((Category.mc.ranges.diff graphemeExtend).union [(0xE33, 0xE33), (0xEB3, 0xEB3)])
    <| decodeRanges
    ["36z 1 b 0 15 2 2 6 l 0 3 5 2 0 a 2 1xg 0 1 1 sgm 0 1 0 lgi 1"]

/-- The characters that a value of the rule for clusters means. Of the syllables of two or three
letters, each row of 28 starts with one of two letters. -/
def graphemeBreak? : String → Option CharClass
  | "control" | "cn" => some graphemeControl
  | "cr" => some [(0xD, 0xD)]
  | "extend" | "ex" => some (graphemeExtend.union emojiModifier)
  | "l" => some [(0x1100, 0x115F), (0xA960, 0xA97C)]
  | "lf" => some [(0xA, 0xA)]
  | "lv" => some ((List.range 399).map fun i => (0xAC00 + 28 * i, 0xAC00 + 28 * i))
  | "lvt" => some ((List.range 399).map fun i => (0xAC01 + 28 * i, 0xAC1B + 28 * i))
  | "prepend" | "pp" => some graphemePrepend
  | "regionalindicator" | "ri" => some [(0x1F1E6, 0x1F1FF)]
  | "spacingmark" | "sm" => some graphemeSpacingMark
  | "t" => some [(0x11A8, 0x11FF), (0xD7CB, 0xD7FB)]
  | "v" => some [(0x1160, 0x11A7), (0xD7B0, 0xD7C6), (0x16D63, 0x16D63), (0x16D67, 0x16D6A)]
  | "zwj" => some [(0x200D, 0x200D)]
  | _ => none

/-! ### Words -/

def wordExtend : CharClass :=
  ((graphemeExtend.union Category.mc.ranges).union emojiModifier).diff [(0x200D, 0x200D)]

def wordKatakana : CharClass := decodeRanges
  ["9ip 4 2t 1 3 2i 1 3 6o f 5s 1a 1 2f 14b2 1j ytu 3 1 6 1 1 1 0 7z 2 1e 0 e 3"]

def wordHebrew : CharClass := decodeRanges
  ["15c q 4 3 1cfe 0 1 9 1 c 1 4 1 0 1 1 1 1 1 9"]

/-- Letters of the scripts that put blanks between words, and signs that are used like letters. -/
def wordLetter : CharClass :=
  let signs := decodeRanges
    ["jm 3 c 5 6 1 5 6 1 0 1 g gq 2 1 0 17 0 2w 0 7v 0 vlk e 9 1 2v 1 r4 0"]
  let unspaced := decodeRanges
    ["2rl 1b 1 1 c 6 1m 1 1 0 1 4 1 n 1 0 1 9 1 1 9 0 2 4 1 0 l 3 80 16 k 0 g 5 4 3 3 0 3 1 7 2 4",
    "c c 0 1dd 1f z 0 4 0 ab t 2 4 b 17 4 p 2e 1g 2a 0 sag 4 1 9 a 4 2p m 3 0 3 1d 1 0 3 1 2 4 2",
    "0 1 0 o 2 lcy q 11 6"]
  let apart := [wordExtend, wordKatakana, wordHebrew, unspaced,
    (property? "ideographic").getD [], (script? "hiragana").getD []]
  CharClass.union signs <| alphabetic.diff <| apart.foldl CharClass.union []

/-- The characters that a value of the rule for words means. -/
def wordBreak? : String → Option CharClass
  | "aletter" | "le" => some wordLetter
  | "cr" => some [(0xD, 0xD)]
  | "doublequote" | "dq" => some [(0x22, 0x22)]
  | "extend" => some wordExtend
  | "extendnumlet" | "ex" =>
    some [(0x5F, 0x5F), (0x202F, 0x202F), (0x203F, 0x2040), (0x2054, 0x2054), (0xFE33, 0xFE34),
      (0xFE4D, 0xFE4F), (0xFF3F, 0xFF3F)]
  | "format" | "fo" =>
    some (Category.cf.ranges.diff <| (wordExtend.union numberSigns).union
      [(0x70F, 0x70F), (0x200B, 0x200D)])
  | "hebrewletter" | "hl" => some wordHebrew
  | "katakana" | "ka" => some wordKatakana
  | "lf" => some [(0xA, 0xA)]
  | "midletter" | "ml" => some (decodeRanges ["1m 0 3g 0 jz 0 d3 0 44 0 56a 0 17u3 0 1t 0 5g 0"])
  | "midnum" | "mn" => some (decodeRanges
    ["18 0 e 0 n6 0 ei 0 3m 1 2m 0 az 0 4sr 0 17t7 0 3 0 1n 0 3 0 53 0 e 0"])
  | "midnumlet" | "mb" => some (decodeRanges ["1a 0 6ax 1 a 0 17vx 0 50 0 6 0"])
  | "newline" | "nl" => some [(0xB, 0xC), (0x85, 0x85), (0x2028, 0x2029)]
  | "numeric" | "nu" => some ((Category.nd.ranges.union numberSigns).union [(0x66B, 0x66B)])
  | "regionalindicator" | "ri" => some [(0x1F1E6, 0x1F1FF)]
  | "singlequote" | "sq" => some [(0x27, 0x27)]
  | "wsegspace" =>
    some [(0x20, 0x20), (0x1680, 0x1680), (0x2000, 0x2006), (0x2008, 0x200A), (0x205F, 0x205F),
      (0x3000, 0x3000)]
  | "zwj" => some [(0x200D, 0x200D)]
  | _ => none

/-! ### Sentences -/

def sentenceExtend : CharClass :=
  (graphemeExtend.union Category.mc.ranges).union [(0x200D, 0x200D)]

def sentenceLower : CharClass :=
  lowercase.diff (graphemeExtend.union [(0x10D0, 0x10FA), (0x10FD, 0x10FF)])

def sentenceUpper : CharClass := (uppercase.union Category.lt.ranges).diff [(0x1C90, 0x1CBF)]

/-- The full stops, which may also end an abbreviation. -/
def fullStops : CharClass := [(0x2E, 0x2E), (0x2024, 0x2024), (0xFE52, 0xFE52), (0xFF0E, 0xFF0E)]

/-- The characters that a value of the rule for sentences means. -/
def sentenceBreak? : String → Option CharClass
  | "aterm" | "at" => some fullStops
  | "close" | "cl" =>
    some ((Category.unionOf [.ps, .pe, .pi, .pf]).union <| decodeRanges
      ["y 0 4 0 7qr 5 1b3 1 4 2 2 0 2i5m 2"])
  | "cr" => some [(0xD, 0xD)]
  | "extend" | "ex" => some sentenceExtend
  | "format" | "fo" =>
    some (Category.cf.ranges.diff <| (sentenceExtend.union numberSigns).union [(0x70F, 0x70F)])
  | "lf" => some [(0xA, 0xA)]
  | "lower" | "lo" => some sentenceLower
  | "numeric" | "nu" => some ((Category.nd.ranges.union numberSigns).union [(0x66B, 0x66C)])
  | "oletter" | "le" =>
    some ((alphabetic.union [(0x5F3, 0x5F3), (0x70F, 0x70F)]).diff <|
      (sentenceLower.union sentenceUpper).union sentenceExtend)
  | "scontinue" | "sc" => some (decodeRanges
    ["18 1 c 1 n6 0 da 0 4u 1 dm 0 361 0 5 0 1l6 1 358 0 14pa 1 1 1 s 1 t 1 2 1 2 0 a 0 4o 1 c 1",
    "20 0"])
  | "sep" | "se" => some [(0x85, 0x85), (0x2028, 0x2029)]
  | "sp" =>
    some [(0x9, 0x9), (0xB, 0xC), (0x20, 0x20), (0xA0, 0xA0), (0x1680, 0x1680), (0x2000, 0x200A),
      (0x202F, 0x202F), (0x205F, 0x205F), (0x3000, 0x3000)]
  | "sterm" | "st" => some (((property? "sentenceterminal").getD []).diff fullStops)
  | "upper" | "up" => some sentenceUpper
  | _ => none

end StepGlue.Regex
