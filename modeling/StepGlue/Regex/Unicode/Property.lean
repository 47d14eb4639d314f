import StepGlue.Regex.Unicode.Category

/-! Properties that a character has or has not, as of version 16 of the character database. -/

namespace StepGlue.Regex

def alphabetic : CharClass :=
  (Category.unionOf (.nl :: Category.letters)).union <| decodeRanges
    ["n9 0 t c g0 d 1 0 1 1 1 1 1 0 20 a 1c c 1 6 g 0 2t 6 4 3 2 1 4 0 z 0 u f 2u a 2t 1 3 8 1",
    "2 1 3 2y 0 1o b 3 6 6 j 1i 1 2 e 1 1 5 2 a 1 t 2 1m 6 2 1 2 1 a 0 a 1 t 2 1m 4 4 1 2 1 4",
    "0 u 1 3 0 b 2 1m 7 1 2 1 1 l 1 m 2 4 2 1m 6 2 1 2 1 9 1 a 1 u 0 1n 4 3 2 1 2 a 0 14 4 1l",
    "6 1 2 1 2 8 1 b 1 t 2 1m 6 1 2 1 2 8 1 b 1 f 0 c 3 1m 6 1 2 1 2 a 0 a 1 t 2 23 5 1 0 1 7",
    "i 1 1p 0 2 6 i 0 2r 0 2 5 1 1 g 0 4j i 9 a 1 z 32 b 1 0 2 3 n 3 4 2 1 2 2 6 3 3 d b 1 0 a",
    "3 19w 1 u 1 u 1 u 1 1u i 58 1 y 0 3a b 4 8 66 4 1l 9 2 j 22 1 b 2 1d 4 1c e 1o 2 u 8 2 1",
    "1l a 1e i bg x 1c1 1f 1rq v nsk 7 y 1 9u 0 8 0 n 4 2g 1 1e f 1 0 1l 0 12 4 s b 19 3 1c b",
    "11 0 1v d c 0 8 1 19 2 1e 0 1 2 2 1 5 0 18 4 5 0 6l 7 fn7 0 1nb 4 1ae 2 1 1 5 3 lw 3 1t 0",
    "8x 1 27 0 77 2 1h d 19 1 b 2 19 8 9 0 1p 2 10 b i 1 1l 2 1c c e 1 2k 8 2 0 6 0 2 0 4d 9 n",
    "3 1m 6 2 1 2 1 a 0 a 1 2c 8 1 0 2 0 1 3 1 1 2v c 1 2 2y h 6l 6 2 6 t 1 2a e 1 0 2y a 2v d",
    "75 c 6v 5 1 1 2 1 3 0 1 0 3y 6 2 5 4 0 s 9 16 4 1 3 i a 1a d bb 7 1 6 2b l 1 d 3e 5 3 0 1",
    "1 1 2 1 0 3 0 1u 4 1 1 1 3 9o 3 9 1 1 0 1c 6 3 2 d0d g 2sg 0 1 1i 7 3 2l 1 f58 0 6zl 6 1",
    "g 2 6 1 1 1 4 2s 0 1pz 0 1k8 p 6 p 6 p"]

def lowercase : CharClass :=
  Category.ll.ranges.union <| decodeRanges
    ["4q 0 f 0 dx 8 7 1 u 4 2o 0 1g 0 2o1 0 2en 1q d 0 y 10 j5 0 d 0 g c 5v f nk p 1hu 1 o4e 1",
    "5u 0 3l 2 3 1 o2 3 9 0 i6u 0 2 2 1 15 1 8 16r9 1p"]

def uppercase : CharClass :=
  Category.lu.ranges.union <| decodeRanges
    ["6lc f na p 2ixs p 6 p 6 p"]

def joinControl : CharClass := [(0x200C, 0x200D)]

/-- What a word is made of: letters, marks, decimal digits, connectors and joiners. -/
def wordClass : CharClass :=
  (alphabetic.union (Category.unionOf (.nd :: .pc :: Category.marks))).union joinControl

def digitClass : CharClass := Category.nd.ranges

def idStart : CharClass :=
  ((Category.unionOf (.nl :: Category.letters)).union
    [(0x1885, 0x1886), (0x2118, 0x2118), (0x212E, 0x212E), (0x309B, 0x309C)]).diff
    [(0x2E2F, 0x2E2F)]

def idContinue : CharClass :=
  (idStart.union (Category.unionOf [.mn, .mc, .nd, .pc])).union <| decodeRanges
    ["53 0 jz 0 34x 8 19k 0 181 1 3cd 0 14rt 0"]

def xidStart : CharClass :=
  idStart.diff <| decodeRanges
    ["oq 0 248 0 3j 0 6p3 1 148x 5 ba 1 38 0 1 0 1 0 1 0 1 0 1 0 1 0 1 0 7z 1"]

def xidContinue : CharClass :=
  idContinue.diff <| decodeRanges
    ["oq 0 8ww 1 148x 5 ba 1 38 0 1 0 1 0 1 0 1 0 1 0 1 0 1 0"]

/-- What prolongs a cluster of characters: marks, and some characters that behave like marks. -/
def graphemeExtend : CharClass :=
  (Category.unionOf [.mn, .me]).union <| decodeRanges
    ["1xa 0 o 0 9y 0 o 0 2u 0 o 0 6g 0 1 0 4 1 1 1 9 1 2v 0 o 0 3b 0 f 0 1th 0 u 0 sg 0 5 0 1 0 5",
    "1 2t 0 1z 1 t4 0 36p 1 nxf 0 30 0 gyl 1 3kw 0 38 0 7c 0 e 0 9 0 2o 0 9 0 2 0 1 2 5 0 68 0 c",
    "0 6p 0 7a 0 hl 0 c 0 16r 0 fxq 1 j8z 1 6 5 h419 2n"]

def graphemeBase : CharClass :=
  Category.assigned.diff ((Category.unionOf [.cc, .cf, .co, .zl, .zp]).union graphemeExtend)

/-- What case mappings pass over: marks, format characters, modifiers, and what may stand inside
a word. -/
def caseIgnorable : CharClass :=
  (Category.unionOf [.mn, .me, .cf, .lm, .sk]).union <| decodeRanges
    ["13 0 6 0 b 0 3g 0 jz 0 d3 0 44 0 55v 1 a 0 2 0 17u3 0 1q 0 2 0 4x 0 6 0 b 0"]

def changesWhenLowercased : CharClass :=
  (uppercase.union Category.lt.ranges).diff <| decodeRanges
    ["r6 2 5rh 0 4 0 3 2 2 2 2 0 3 4 6 0 3 0 3 1 2 1 1 0 a 1 5 0 2dve p q p q p q 0 1 1 2 0 2 1 2",
    "3 1 7 q p q 1 1 3 2 7 1 6 r 1 1 3 1 4 1 0 3 6 r p q p q p q p q p q p u o x o x o x o x o x",
    "0 50l p 6 p 6 p"]

def changesWhenUppercased : CharClass :=
  CharClass.union (decodeRanges ["cl 0 2 0 2 0 12 0 5ud 7 8 7 8 7 c 0 f 0 1b 0"]) <|
    lowercase.diff <| decodeRanges
    ["4q 0 f 0 3h 0 2c 0 s 1 e 0 3 0 2q 0 i 5 r 0 2 0 1 0 2 2 2 0 4 0 5 1 1 0 2 1 1 6 1 1 1 0 2 2",
    "6 4 1 0 2 6 2 p 7 1 u 4 45 0 3l 0 9v 0 13 0 29f 0 2df 3c 1 2 1 f 1 1c 64 1 1 0 cx 0 d 0 g c",
    "31 0 3 1 3 0 r 0 4 0 4 0 2 1 8 3 27b 0 2 0 2 6 2u 0 o1j 1 42 1 1q 8 l 0 6 0 p 0 z 0 1 0 s 2",
    "3 2 mt y 1 6 1 d i6u 0 2 2 1 15 1 8 14db p q 6 1 h q p q 3 1 0 1 6 1 a q p q p q p q p q p",
    "q p q p q p q r s o 1 5 q o 1 5 q o 1 5 q o 1 5 q o 1 5 1 0 1f8 9 1 j 6 5 79 1p"]

def changesWhenTitlecased : CharClass :=
  CharClass.union (decodeRanges ["ck 0 2 0 2 0 12 0"]) <| changesWhenUppercased.diff <|
    decodeRanges ["cl 0 2 0 2 0 12 0 2xp 16 2 2 2vc 7 8 7 8 7 c 0 f 0 1b 0"]

def changesWhenCasefolded : CharClass :=
  (changesWhenLowercased.diff [(0x13A0, 0x13F5)]).union <| decodeRanges
    ["51 0 15 0 2x 0 1h 0 cl 0 3g 0 d 1 3 1 p 1 3 0 b5 0 2uo 5 1oi 8 ep 1 6c 7 8 7 8 7 a 2 2 0 a",
    "2 2 0 16 2 2 0 rjs 27 fnk 6 c 4"]

def changesWhenCasemapped : CharClass :=
  (changesWhenLowercased.union changesWhenUppercased).union changesWhenTitlecased

/-- The names of further properties with their ranges: pairs of numbers of base 36, the gap before
a range and how many more characters it has. -/
def propertyTable : List (List String × List String) := [
  (["whitespace", "space", "wspace"],
    ["9 4 i 0 2s 0 q 0 4bj 0 1vj a t 1 5 0 1b 0 334 0"]),
  (["joincontrol", "joinc"],
    ["6bw 1"]),
  (["emoji"],
    ["z 0 6 0 5 9 33 0 4 0 68d 0 c 0 60 0 m 0 2i 5 f 1 a7 1 c 0 4m 0 p a 4 2 5j 0 6f 1 a 0 9 0",
    "1m 3 1 4 9 0 2 0 2 1 2 0 4 0 2 0 1 1 2 0 3 0 3 1 8 2 5 0 1 0 5 b b 1 2 0 1 1 1 0 i 0 2 1",
    "i 5 1 0 1 1 3 1 5 0 2 1 4 1 b 1 5 1 2 0 5 1 1 0 1 1 k 1 5 5 1 3 2 0 4 0 2 0 2 5 1 0 2 0 1",
    "0 1 0 6 0 3 0 6 0 a 1 f 0 2 0 4 0 1 0 4 2 1 0 b 1 1c 2 9 0 e 0 e 0 ac 1 cv 2 j 1 1f 0 4 0",
    "yi 0 c 0 gp 0 1 0 2fze 0 5m 0 4g 1 c 1 e 0 2 9 23 p 1 1 n 0 k 0 2 8 l 1 4u x 2 33 2 1 1 2",
    "2 2a 2 2 1 7a 1 1q b 5 1 n 7 1 2 7 c 0 2 3 2 0 4 1 d 1 2 0 8 1 9 0 5 2 c 2 8 2 2 0 1 0 4",
    "0 6 0 3 0 6 2d 1c 1x 5 7 2 2 4 9 3 0 1 1 3 0 2 9 6b b 4 0 7v 1a 1 9 1 54 34 c 3 9 5 1j 7",
    "e 2 a 6 8"]),
  (["emojipresentation", "epres"],
    ["6xm 1 5p 3 3 0 2 0 eh 1 l 1 1e b 17 0 j 0 d 0 8 1 h 1 5 1 8 0 5 0 l 0 7 1 1 0 4 0 2 0 7 0",
    "4 1 s 0 z 0 1 0 4 2 1 0 1p 2 o 0 e 0 nv 1 1f 0 4 0 2hf2 0 5m 0 5a 0 2 9 23 p 1 0 o 0 k 0",
    "2 4 1 2 l 1 4u w c 8 1 1x 1 l c 16 4 4 c g 3 0 3 1y 1 0 1 56 2 1q d 3 1 n i 0 q 1 d 0 2e",
    "2c 1c 1x 6 0 3 2 2 2 4 3 b 1 7 8 6b b 4 0 7v 1a 1 9 1 54 34 c 3 9 5 1j 7 e 2 a 6 8"]),
  (["emojimodifier", "emod"],
    ["2qrf 4"]),
  (["emojimodifierbase", "ebase"],
    ["7j1 0 63 0 g 3 2iyf 0 1o 2 2 0 2 2 39 1 2 a l i 3 0 4 2 1 2 7 0 1 0 o 0 5l 1 4 0 l 0 4 1",
    "4u 2 3 4 2b 0 g 2 9 0 b 0 fz 0 2 0 8 7 6 0 9 9 2 2 1k 0 1p 1 1 1 1 0 h 2 1 c 6d 2 16 8"]),
  (["emojicomponent", "ecomp"],
    ["z 0 6 0 5 9 6ab 0 5x 0 17or 0 1c5y p e3 4 14g 3 gw30 2n"]),
  (["extendedpictographic", "extpict"],
    ["4p 0 4 0 68d 0 c 0 60 0 m 0 2i 5 f 1 a7 1 c 0 4m 0 p a 4 2 5j 0 6f 1 a 0 9 0 1m 3 1 4 9 0",
    "2 0 2 1 2 0 4 0 2 0 1 1 2 0 3 0 3 1 8 2 5 0 1 0 5 b b 1 2 0 1 1 1 0 i 0 2 1 i 5 1 0 1 1 3",
    "1 5 0 2 1 4 1 b 1 5 1 2 0 5 1 1 0 1 1 k 1 5 5 1 3 2 0 4 0 2 0 2 5 1 0 2 0 1 0 1 0 6 0 3 0",
    "6 0 a 1 f 0 2 0 4 0 1 0 4 2 1 0 b 1 1c 2 9 0 e 0 e 0 ac 1 cv 2 j 1 1f 0 4 0 yi 0 c 0 gp 0",
    "1 0 2fze 0 13 3 2s b f 1 f 0 e 1 11 9 34 1 c 1 e 0 2 9 j 1j r e a 0 k 0 2 8 1 3 9 m 6 57",
    "2 33 2 1 1 2 2 2a 2 2 1 3 5 71 1 1q b 5 1 n 7 1 2 7 c 0 2 3 2 0 4 1 d 1 2 0 8 1 9 0 5 2 c",
    "2 8 2 2 0 1 0 4 0 6 0 3 0 6 2d 1c 1x 5 7 2 2 1 c 3 0 1 5 2 c 62 11 c 3 1k 7 a 5 14 7 u 1",
    "c 3 2 d 9 12 c 1a 1 9 1 54 2g 7 e r 1 2 1 1k 1 3 1 r 1 3 1 f 74 sd"]),
  (["math"],
    ["17 0 g 2 v 0 t 0 1 0 19 0 4 0 11 0 v 0 k8 2 2 0 q 1 2 2 en 2 559 0 r 2 b 0 3 0 d 0 e 3 l",
    "4 b 4 1t c 4 0 3 1 4 4 i 0 4 0 2 9 1 0 2 5 6 0 3 1 2 1 1 2 1 5 3 d 1 0 1w n 1 5 1 1 4 1 4",
    "v 1 0 6 1 e 7f 8 3 k 1 2i 0 u q 1 0 o 0 b 6 cd 1 c 9 4 5 4 1 2 1 3 4 e 0 1 0 2 5 b 7 5 1",
    "1l 0 1 0 t 3 9 2 9c 1r 74 e7 1c k 2 5 1524 0 mv 5 1 0 4i 0 g 2 t 0 1 0 t 0 1 0 3n 0 6 3",
    "2ox 1 1374 2c 1 1y 1 1 2 0 2 1 2 3 1 b 1 0 1 6 1 1s 1 3 2 7 1 6 1 r 1 3 1 4 1 0 3 6 1 9f",
    "2 83 2 1d 4cg 3 1 q 1 1 1 0 2 0 1 9 1 3 1 0 1 0 6 0 4 0 1 0 1 0 1 2 1 1 1 0 2 0 1 0 1 0 1",
    "0 1 0 1 1 1 0 2 3 1 6 1 3 1 3 1 0 1 9 1 g 5 2 1 4 1 g 1g 1"]),
  (["dash"],
    ["19 0 124 0 1f 0 2td 0 sl 0 1l5 5 1p 0 13 0 f 0 au 0 2dg 0 2 0 v 1 4 0 s 0 ce 0 j 0 33 0",
    "14ls 1 11 0 a 0 4p 0 2u8 0 8u 0"]),
  (["hexdigit", "hex"],
    ["1c 9 7 5 q 5 1eax 9 7 5 q 5"]),
  (["asciihexdigit", "ahex"],
    ["1c 9 7 5 q 5"]),
  (["ideographic", "ideo"],
    ["9hi 1 p 8 e 2 qt 533 1s g73 hkw a5 2 2x n4a 0 r 4qf 8 yd 15 9 76v az f7o wyn w 37d 6 65 2",
    "4g1 e 5rk f h9 1wi f1 15u 3t6 5 38f"]),
  (["cased"],
    ["1t p 6 p 1b 0 a 0 4 0 5 m 1 u 1 5e 1 3 4 5r 2 y 7 1 u 4 2o 0 16 3 2 1 2 3 1 0 6 0 1 2 1 0",
    "1 j 1 2a 1 3u 8 4l 1 11 9 14 26v 11 1 0 5 0 2 16 1 3 io 2d 2 5 1oi a 5 16 2 2 1s 5b 1s 7p",
    "2 5 2 11 2 5 2 7 1 0 1 0 1 0 1 u 2 1g 1 6 1 0 3 2 1 6 3 3 2 5 4 c 5 2 1 6 38 0 d 0 g c 2t",
    "0 4 0 2 9 1 0 3 4 6 0 1 0 1 0 1 3 1 5 4 0 2 3 5 4 4 0 h v 3 1 mp 1f 1ee 6c 6 3 3 1 c 11 1",
    "0 5 0 nwy 19 i t 3o 2t 3 3 1 1p 2 1 1 0 1 7 l 4 1 2 mt 16 1 d 6 27 fnk 6 c 4 sp p 6 p x1",
    "27 2o z 4 z 38 a 1 e 1 6 1 1 1 a 1 e 1 6 1 1 cj 0 2 2 1 15 1 8 xx 1e d 1e 2l l a l 26y 1r",
    "gv4 1r k1s 2c 1 1y 1 1 2 0 2 1 2 3 1 b 1 0 1 6 1 1s 1 3 2 7 1 6 1 r 1 3 1 4 1 0 3 6 1 9f",
    "2 o 1 o 1 u 1 o 1 u 1 o 1 u 1 o 1 u 1 o 1 7 1f8 9 1 j 6 5 79 1p 1oy 1v 1kc p 6 p 6 p"]),
  (["diacritic", "dia"],
    ["2m 0 1 0 1z 0 6 0 4 0 2 1 dz 4e 1 7 5 5 h 1 4 0 9 1 71 4 5t 0 1j 18 1 0 1 1 1 1 1 0 3n 7",
    "4 1 3q 1 4 1 3 2 1v q 2j a 1m a y 1 3i 7 15 9 g r 1p 0 g 0 3 3 s 0 22 0 g 0 32 0 g 0 32 0",
    "g 0 1b 2 1o 0 g 0 7 0 3b 0 32 0 g 0 32 0 g 0 31 1 g 0 3g 0 33 0 c 5 1 0 2z 0 d 4 23 1 r 0",
    "1 0 1 0 4 1 1u 2 1 1 1q 0 34 0 1 1 14 1 4 4 p 6 1 0 a 1 jl 2 qc 1 u 0 44 a 9 0 9n 2 84 0",
    "k 7 2 0 1c e 2 a 2w 0 f 0 12 8 1i 1 1m 0 b 1 1u 1 1s 5 2a o 4 0 6 0 2 2 1e 1q 1c z 5 b 11",
    "a cd 0 1 2 b 2 d 2 d 2 d 1 2k0 2 8t 0 e2 5 2x 3 2n 0 n76 0 c 1 1 0 s 1 2a 1 e x 2u 2 31 1",
    "c 0 11 0 47 0 r h 1l 3 10 0 2n 0 c 0 10 0 45 2 1t 3 1f 0 2s 4 9 2 3k 1 fn4 0 ld f 7i 0 1",
    "0 1b 0 19 1 1v 0 l8 0 wv 5 1 15 1 8 hp 2 4 0 4l 1 fv 5 12 0 q 4 b3 2 1y a 1d 3 5c 0 15 0",
    "20 1 3c 1 1q 0 24 0 9 2 2w 1 4y 1 28 1 g 0 o 6 3 4 2h 2 1 1 d 1 2n 0 3 0 3f 1 6z 1 3i 0",
    "3a 1 37 0 7h 1 76 1 4 0 4c 0 2b 0 i 0 29 0 bp 0 76 0 1 1 29 0 bt 1 n 0 44s e 8ux 0 1xc 4",
    "1n 6 fo 1 f6 g 28 1 cn2 3 1 6 1 1 64h 19 2 m f4 2 3 5 8 7 2 6 u 3 2v6 1p 5e 6 af 0 1p 3",
    "la 1 kg 6 31 2 1 2"]),
  (["quotationmark", "qmark"],
    ["y 0 4 0 3n 0 f 0 670 7 p 1 2rr 0 cp 3 d 2 14pt 3 59 0 4 0 2i 1"]),
  (["sentenceterminal", "sterm"],
    ["x 0 c 0 g 0 11l 0 43 2 50 0 17 2 6u 0 1p 0 1 0 3 1 85 1 1d0 1 ly 0 4 1 lh 0 5i 1 4d 1 19",
    "0 5 0 8q 1 9u 3 4i 1 a 1 2 1 t 2 57 1 1t 1 pw 0 n 1 9 2 2i7 2 8i 0 d 0 m 1 bx 0 n3w 0 7i",
    "1 6b 0 3 0 am 1 2e 1 2n 0 48 1 43 2 40 1 6x 0 g86 0 2 1 1n 0 3 1 4p 0 c 0 g 0 1t 0 25w 1",
    "zh 4 18 3 59 1 39 3 3j 2 3l 1 6 0 g 1 2g 1 1 1 30 0 8a 1 39 1 ad 1 5 e 2x 1 6x 2 ed 0 1 0",
    "6z 1 2f 1 bo 1 j8 1 22 1 euh 1 3p 0 1t 1 b 0 fd 1 88 0 feu 0 5wo 0"]),
  (["terminalpunctuation", "term"],
    ["x 0 a 0 1 0 b 1 3 0 n2 0 8 0 e9 0 1l 0 20 0 e 0 1 2 50 0 17 a 1 0 6j 1 1i 5 1 7 v 0 79 1",
    "z8 1 4s 0 4 5 8n 1 lx 7 lh 0 3g 2 1z 1 4d 2 3 0 13 3 2 1 8q 1 9u 3 4i 1 a 1 1 2 t 2 57 4",
    "1q 1 pw 0 n 1 9 2 2i7 2 8i 0 d 0 4 0 a 0 1 1 3 1 bw 1 n3v 1 7h 2 6b 4 am 1 2e 1 2n 0 47 2",
    "43 2 3j 0 g 1 6x 0 g86 0 2 1 1l 2 1 3 4p 0 a 0 1 0 b 1 3 0 1t 0 2 0 u2 0 1c 0 w6 0 5j 0",
    "8m 1 48 5 1w 5 2h 3 qg 4 18 3 59 6 34 3 3j 2 3l 1 6 0 g 1 2g 4 30 0 8a 1 39 2 c 1 9y 3 3",
    "e 2x 1 6x 2 ed 0 1 0 6z 1 2f 1 4 1 bi 2 19 0 hx 1 22 1 10r 4 dtl 1 3p 0 1t 2 a 0 fd 1 87",
    "1 feu 0 5wn 3"]),
  (["noncharactercodepoint", "nchar"],
    ["1e4w v em 1 1eke 1 1eke 1 1eke 1 1eke 1 1eke 1 1eke 1 1eke 1 1eke 1 1eke 1 1eke 1 1eke 1",
    "1eke 1 1eke 1 1eke 1 1eke 1 1eke 1"]),
  (["patternwhitespace", "patws"],
    ["9 4 i 0 2s 0 688 1 o 1"]),
  (["unifiedideograph", "uideo"],
    ["a9s 533 1s g73 hse 1 1 0 1 1 a 0 1 0 1 1 2 2 1fpy wyn w 37d 6 65 2 4g1 e 5rk f h9 3he 3t6",
    "5 38f"]),
  (["variationselector", "vs"],
    ["4qz 2 1 0 19f4 f i9yo 6n"]),
  (["regionalindicator", "ri"],
    ["2qcm p"]),
  (["bidicontrol", "bidic"],
    ["17g 0 54h 1 q 4 1j 3"]),
  (["defaultignorablecodepoint", "di"],
    ["4t 0 ip 0 jw 0 282 1 18z 1 2d 4 1kr 4 q 4 1d f 3ck 0 14ez f 6n 0 4g 0 27 8 119j 3 43z 7",
    "h405 35r"]),
  (["extender", "ext"],
    ["53 0 ew 1 oe 0 c9 0 hi 0 3t 0 2h 0 kw 0 3j 0 1tv 0 1k 0 gz 0 b2 0 1w 0 3ux 0 17 4 2v 1 2l",
    "2 lxy 0 16e 0 qq 0 m 0 3t 0 30 0 l 1 gor 0 1lc 1 157 0 r 0 4 0 xz 0 85 0 38 1 du 2 y7 0",
    "fxl 1 ws 1 1 0 me0 1 xd 0 no 2"]),
  (["softdotted", "sd"],
    ["2x 1 5g 0 7t 0 u 0 1g 0 k 0 8w 0 2q 0 1 0 4y1 0 1f 0 d 0 3 0 3o 0 4d 0 bp 0 5y 1 27m 0",
    "2bol 1 1e 1 1e 1 1e 1 1e 1 1e 1 1e 1 1e 1 1e 1 1e 1 1e 1 1e 1 1e 1 1om 0 8h 1 q 0"]),
  (["radical"],
    ["96o p 1 2g c 5x"]),
  (["patternsyntax", "patsyn"],
    ["x e a 6 q 3 1 0 q 3 y 6 1 0 1 1 1 0 1 1 4 0 4 0 3 0 n 0 v 0 654 n 8 e 2 i 1 9 8h jz 4g hh",
    "u sh 1 2w e8 3j ap 2 4 o f 0 14i5 1 79 1"]),
  (["deprecated", "dep"],
    ["95 0 10p 0 1s3 0 1 0 1m1 1 1qd 5 jd 1 jh06 0"]),
  (["hyphen"],
    ["19 0 3j 0 yk 0 3nf 0 1l5 1 2rp 0 kj 0 14kn 0 4p 0 2f 0"]),
  (["idsbinaryoperator", "idsb"],
    ["9gw 1 2 9 dt 0"]),
  (["idstrinaryoperator", "idst"],
    ["9gy 1"]),
  (["idsunaryoperator", "idsu"],
    ["9ha 1"]),
  (["idcompatmathstart"],
    ["6pu 0 4 0 m 0 2e8y 0 p 0 v 0 p 0 v 0 p 0 v 0 p 0 v 0 p 0"]),
  (["idcompatmathcontinue"],
    ["4y 1 5 0 69i 0 3 a 1 e ab 0 4 0 m 0 2e8y 0 p 0 v 0 p 0 v 0 p 0 v 0 p 0 v 0 p 0"]),
  (["logicalorderexception", "loe"],
    ["2tc 4 3f 4 25s 2 2 0 smy 1 2 0 1 1"]),
  (["modifiercombiningmark", "mcm"],
    ["190 1 2 0 3n 0 6 0 3 1 dd 1 1 2 3 0 v 0"]),
  (["prependedconcatenationmark", "pcm"],
    ["16o 5 5z 0 1d 0 ao 1 28 0 1g4a 0 f 0"]),
  (["othermath", "omath"],
    ["2m 0 oh 2 2 0 q 1 2 1 5k0 0 r 2 b 0 w 3 o 1 e 1 1t c 4 0 3 1 4 4 i 0 4 0 2 9 1 0 3 4 6 0 3",
    "1 2 1 1 2 1 5 3 3 5 4 23 4 2 3 1 1 1 1 1 0 1 4 2 1 4 1 4 h 2 1 1 0 1 6 1 0 6 1 82 3 4o 1 1",
    "0 o 0 h 0 cd 1 c 8 5 4 5 1 2 1 3 4 e 0 1 0 2 5 o 1 1l 0 1 0 t 3 9 1 9i 1 v 9 b7 l 1r 3 w 1",
    "15yb 0 1 0 4 0 5v 0 1 0 160x 2c 1 1y 1 1 2 0 2 1 2 3 1 b 1 0 1 6 1 1s 1 3 2 7 1 6 1 r 1 3 1",
    "4 1 0 3 6 1 9f 2 o 1 o 1 u 1 o 1 u 1 o 1 u 1 o 1 u 1 o 1 7 2 1d 4cg 3 1 q 1 1 1 0 2 0 1 9 1",
    "3 1 0 1 0 6 0 4 0 1 0 1 0 1 2 1 1 1 0 2 0 1 0 1 0 1 0 1 0 1 1 1 0 2 3 1 6 1 3 1 3 1 0 1 9 1",
    "g 5 2 1 4 1 g"]),
  (["otherdefaultignorablecodepoint", "odi"],
    ["nj 0 2rz 1 18z 1 1pr 0 3cu 0 14qj 0 27 8 i9dz 0 1 t 2o 3j 6o 2rz"]),
  (["graphemelink", "grlink"],
    ["1u5 0 3j 0 3j 0 3j 0 3j 0 3j 0 3j 0 3j 0 31 1 g 0 3g 0 33 0 3j 0 5l 0 50 1 1cp 1 u 0 4d 0",
    "i5 0 6b 0 2t 1 1y 1 3gr 0 o7a 0 11 0 47 0 3y 0 30 0 8l 0 6u 0 imp 0 16u 0 15 0 e 0 1l 0 3d",
    "1 3v 0 38 0 50 0 2q 0 3k 2 35 0 3j 0 70 0 3j 0 3a 0 38 0 7h 0 77 1 4h 0 2b 0 i 0 29 0 bp 0",
    "78 1 29 0 bt 1 d0s 0"])]

/-- The property that a name means, the name in lower case and without blanks, hyphens and low
lines. -/
def property? : String → Option CharClass
  | "alphabetic" | "alpha" => some alphabetic
  | "lowercase" | "lower" => some lowercase
  | "uppercase" | "upper" => some uppercase
  | "idstart" | "ids" => some idStart
  | "idcontinue" | "idc" => some idContinue
  | "xidstart" | "xids" => some xidStart
  | "xidcontinue" | "xidc" => some xidContinue
  | "graphemeextend" | "grext" => some graphemeExtend
  | "graphemebase" | "grbase" => some graphemeBase
  | "caseignorable" | "ci" => some caseIgnorable
  | "changeswhenlowercased" | "cwl" => some changesWhenLowercased
  | "changeswhenuppercased" | "cwu" => some changesWhenUppercased
  | "changeswhentitlecased" | "cwt" => some changesWhenTitlecased
  | "changeswhencasefolded" | "cwcf" => some changesWhenCasefolded
  | "changeswhencasemapped" | "cwcm" => some changesWhenCasemapped
  | "otheralphabetic" | "oalpha" =>
    some (alphabetic.diff (Category.unionOf (.nl :: Category.letters)))
  | "otherlowercase" | "olower" => some (lowercase.diff Category.ll.ranges)
  | "otheruppercase" | "oupper" => some (uppercase.diff Category.lu.ranges)
  | "otheridstart" | "oids" =>
    some (idStart.diff (Category.unionOf (.nl :: Category.letters)))
  | "otheridcontinue" | "oidc" =>
    some (idContinue.diff (idStart.union (Category.unionOf [.mn, .mc, .nd, .pc])))
  | "othergraphemeextend" | "ogrext" =>
    some (graphemeExtend.diff (Category.unionOf [.mn, .me]))
  | name => (propertyTable.find? (·.1.contains name)).map fun row => decodeRanges row.2

end StepGlue.Regex
