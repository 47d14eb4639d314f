import StepGlue.Regex.Class

/-! Scripts of characters, as of version 16 of the character database. -/

namespace StepGlue.Regex

/-- The names of each script with its ranges: pairs of numbers of base 36, the gap before a range
and how many more characters it has. -/
def scriptTable : List (List String × List String) := [
  (["adlm", "adlam"],
    ["2olc 23 4 9 4 1"]),
  (["ahom"],
    ["1j40 q 2 e 4 m"]),
  (["hluw", "anatolianhieroglyphs"],
    ["1s00 g6"]),
  (["arab", "arabic"],
    ["16o 4 1 5 1 d 1 2 1 v 1 9 b p 1 2z 1 x 28 1b 6o u 1 1 5 22 1 s 1bv4 36 g a2 2 27 2 1h 7 0",
    "w f 34 4 1 3q 31f u 1v 2 1j 3 181s 3 1 q 1 1 1 0 2 0 1 9 1 3 1 0 1 0 6 0 4 0 1 0 1 0 1 2",
    "1 1 1 0 2 0 1 0 1 0 1 0 1 0 1 1 1 0 2 3 1 6 1 3 1 3 1 0 1 9 1 g 5 2 1 4 1 g 1g 1"]),
  (["armn", "armenian"],
    ["10x 11 2 1d 2 2 1chv 4"]),
  (["avst", "avestan"],
    ["1gqo 1h 3 6"]),
  (["bali", "balinese"],
    ["5c0 24 1 1d"]),
  (["bamu", "bamum"],
    ["www 2f 124o fs"]),
  (["bass", "bassavah"],
    ["1zo0 t 2 5"]),
  (["batk", "batak"],
    ["5hc 1f 8 3"]),
  (["beng", "bengali"],
    ["1vk 3 1 7 2 1 2 l 1 6 1 0 3 3 2 8 2 1 2 3 8 0 4 1 1 4 2 o"]),
  (["bhks", "bhaiksuki"],
    ["1k3k 8 1 18 1 d a s"]),
  (["bopo", "bopomofo"],
    ["kq 1 93t 16 34 v"]),
  (["brah", "brahmi"],
    ["1hq8 25 4 z 9 0"]),
  (["brai", "braille"],
    ["7wg 73"]),
  (["bugi", "buginese"],
    ["54w r 2 1"]),
  (["buhd", "buhid"],
    ["4lc j"]),
  (["cans", "canadianaboriginal"],
    ["3y8 hr fk 1x 1ewq f"]),
  (["cari", "carian"],
    ["1f34 1c"]),
  (["aghb", "caucasianalbanian"],
    ["1flc 1f b 0"]),
  (["cakm", "chakma"],
    ["1hxc 1g 1 h"]),
  (["cham"],
    ["xkw 1i 9 d 2 9 2 3"]),
  (["cher", "cherokee"],
    ["3vk 2d 2 5 twy 27"]),
  (["chrs", "chorasmian"],
    ["1ho0 r"]),
  (["zyyy", "common"],
    ["0 1s q 5 q 1a 1 e 1 4 n 0 v 0 ch 12 5 4 2 j 38 0 9 0 6 0 1 0 hp 0 6 0 e 0 3 0 w 0 4c 0 ec",
    "0 3l 1 yh 0 b9 3 82 0 167 2 1z 1 5n 1 1 0 y5 0 d 0 7 3 1 5 1 2 2 0 lh b 2 2e 1 a 3 a 1 e",
    "h w 1r 11 1 2 2 5 1 q 1 g 15 2 4 ih m a l pr 74 hf 2 v 1 2w e8 2l b6 k 1 0 1 o f 7 4 3 2j",
    "1 3 0 2i 1 43 f w 11 9 0 1c 1r v 28 1b 0 2g 4n 534 1r hkw x 2u 2 4l 9 6s 0 4g 0 az 0 e 1",
    "g5u 1 5s 9 m y 1 i 1 3 43 0 1 v q 5 q a a 0 19 1 1s 6 1 6 a 4 76 2 4 18 3 8 28 c 1f 18 6c",
    "q 10o4 3 318 6x 6 c3 4c 37 1o 6t a 12 2 1p 3 g 8 1 7 t 4 1o 5x j c j c 2e 9 o 3r 2c 1 1y",
    "1 1 2 0 2 1 2 3 1 b 1 0 1 6 1 1s 1 3 2 7 1 6 1 r 1 3 1 4 1 0 3 6 1 9f 2 83 2 1d 41d 1v 24",
    "1o jm 17 4 2r c e 2 e 1 e 1 10 a 4t 1k p 1 1 d 17 4 8 7 1 e 5 4a rb 4 g 3 c 3 3a 4 2m 6 b",
    "4 0 f b 4 1j 8 9 6 13 8 t 2 b 4 1 1q 9f c d 2 c 3 9 5 1j 7 e 2 a 6 8 7 42 1 2t gvlz 0 u 2n"]),
  (["copt", "coptic", "qaac"],
    ["rm d 80g 37 5 6"]),
  (["xsux", "cuneiform"],
    ["1kw0 pl 2u 32 1 4 b 5f"]),
  (["cprt", "cypriot"],
    ["1g5c 5 2 0 1 17 1 1 3 0 2 0"]),
  (["cpmn", "cyprominoan"],
    ["1nyo 2q"]),
  (["cyrl", "cyrillic"],
    ["sg 3o 2 4o 4ls a 4g 0 24 0 38n v nr4 2n ham 1 18n4 1p x 0"]),
  (["dsrt", "deseret"],
    ["1fcw 27"]),
  (["deva", "devanagari"],
    ["1s0 28 4 e 2 p vhc v mio 9"]),
  (["diak", "divesakuru"],
    ["1ji8 6 2 0 2 7 1 1 1 t 1 1 2 b 9 9"]),
  (["dogr", "dogra"],
    ["1jb4 1n"]),
  (["dupl", "duployan"],
    ["2fpc 2y 5 c 3 8 7 9 2 3"]),
  (["egyp", "egyptianhieroglyphs"],
    ["1o1s ut a 32y"]),
  (["elba", "elbasan"],
    ["1fk0 13"]),
  (["elym", "elymaic"],
    ["1hpc m"]),
  (["ethi", "ethiopic"],
    ["3k0 20 1 3 2 6 1 0 1 3 2 14 1 3 2 w 1 3 2 6 1 0 1 3 2 e 1 1k 1 3 2 1u 2 v 3 p 546 m 9 6 1",
    "6 1 6 1 6 1 6 1 6 1 6 1 6 opu 5 2 5 2 5 9 6 1 6 1qk1 6 1 3 1 1 1 e"]),
  (["gara", "garay"],
    ["1h6o 11 3 s 8 1"]),
  (["geor", "georgian"],
    ["3a8 11 1 0 5 0 2 16 1 3 2a8 16 2 2 37k 11 1 0 5 0"]),
  (["glag", "glagolitic"],
    ["8ow 2n 2e1s 6 1 g 2 6 1 1 1 4"]),
  (["goth", "gothic"],
    ["1f74 q"]),
  (["gran", "grantha"],
    ["1ibk 3 1 7 2 1 2 l 1 6 1 1 1 4 2 8 2 1 2 2 2 0 6 0 5 6 2 6 3 4"]),
  (["grek", "greek"],
    ["og 3 1 2 2 3 1 0 4 0 1 0 1 2 1 0 1 j 1 1q e f 4yu 4 1e 4 4 4 2c 0 8w l 2 5 2 11 2 5 2 7 1",
    "0 1 0 1 0 1 u 2 1g 1 e 1 d 2 5 1 i 2 2 1 8 87 0 rb2 0 gyi 26 h 0 155r 1x"]),
  (["gujr", "gujarati"],
    ["22p 2 1 8 1 2 1 l 1 6 1 1 1 4 2 9 1 2 1 2 2 0 f 3 2 b 7 6"]),
  (["gong", "gunjalagondi"],
    ["1kdc 5 1 1 1 10 1 1 1 5 7 9"]),
  (["guru", "gurmukhi"],
    ["1z5 2 1 5 4 1 2 l 1 6 1 1 1 1 1 1 2 0 1 4 4 1 2 2 3 0 7 3 1 0 7 g"]),
  (["gukh", "gurungkhema"],
    ["1xq8 1l"]),
  (["hang", "hangul"],
    ["3cw 73 5ym 1 75 2l 35 u 1t u nhd s hv 8mb c m 4 1c 7tw u 3 5 2 5 2 5 2 2"]),
  (["hani", "han"],
    ["96o p 1 2g c 5x 1b 0 1 0 p 8 e 3 qs 533 1s g73 hkw a5 2 2x n48 1 c 1 sge wyn w 37d 6 65 2",
    "4g1 e 5rk f h9 1wi f1 15u 3t6 5 38f"]),
  (["rohg", "hanifirohingya"],
    ["1h4w 13 8 9"]),
  (["hano", "hanunoo"],
    ["4kg k"]),
  (["hatr", "hatran"],
    ["1gbk i 1 1 5 4"]),
  (["hebr", "hebrew"],
    ["13l 1i 8 q 4 5 1cfc p 1 4 1 0 1 1 1 1 1 9"]),
  (["hira", "hiragana"],
    ["9j5 2d 6 2 23q9 7y i 0 t 2 crx 0"]),
  (["armi", "imperialaramaic"],
    ["1g74 l 1 8"]),
  (["zinh", "inherited", "qaai"],
    ["lc 33 7p 1 ck a q 0 kg 3 3ff u e9 2 1 c 1 6 4 0 6 0 3 1 5i 1r ek 1 5e w 309 3 2z 1 14kl f",
    "g d r3 0 6a 0 38a 0 1138 19 2 m f4 2 h 7 2 6 u 3 h45u 6n"]),
  (["phli", "inscriptionalpahlavi"],
    ["1gtc i 5 7"]),
  (["prti", "inscriptionalparthian"],
    ["1gsg l 2 7"]),
  (["java", "javanese"],
    ["xhc 25 2 9 4 1"]),
  (["kthi", "kaithi"],
    ["1hts 1u a 0"]),
  (["knda", "kannada"],
    ["2gw c 1 2 1 m 1 9 1 4 2 8 1 2 1 3 7 1 6 1 1 3 2 9 1 2"]),
  (["kana", "katakana"],
    ["9lt 2h 2 2 6o f 5s 1a 1 2f 14b2 9 1 18 ytu 3 1 6 1 1 1 0 7z 2 1e 0 e 3"]),
  (["kawi"],
    ["1kow g 1 14 3 s"]),
  (["kali", "kayahli"],
    ["xds 19 1 0"]),
  (["khar", "kharoshthi"],
    ["1gjk 3 1 1 5 7 1 2 1 s 2 2 4 9 7 8"]),
  (["kits", "khitansmallscript"],
    ["20o4 0 5cr d1 15 0"]),
  (["khmr", "khmer"],
    ["4n4 2l 2 9 6 9 di v"]),
  (["khoj", "khojki"],
    ["1i4g h 1 1a"]),
  (["sind", "khudawadi"],
    ["1i9c 1m 5 9"]),
  (["krai", "kiratrai"],
    ["205c 1l"]),
  (["laoo", "lao"],
    ["2v5 1 1 0 1 4 1 n 1 0 1 m 2 4 1 0 1 6 1 9 2 3"]),
  (["latn", "latin"],
    ["1t p 6 p 1b 0 f 0 5 m 1 u 1 cg 13 4 55n 11 6 1c 5 3 5 c 1 1x 1t 73 a9 0 d 0 g c 3x 1 6 0",
    "r 0 h 14 253 v o82 2t 3 1u 2 1 1 0 1 7 l d mo 16 1 8 1 3 fpy 6 t6 p 6 p 1lx 5 1 15 1 8",
    "16it u 6 5"]),
  (["lepc", "lepcha"],
    ["5j4 1j 3 e 3 2"]),
  (["limb", "limbu"],
    ["4xs u 1 b 4 b 4 0 3 b"]),
  (["lina", "lineara"],
    ["1fr4 8m 9 l a 7"]),
  (["linb", "linearb"],
    ["1ekg b 1 p 1 i 1 1 1 e 2 d y 3e"]),
  (["lisu"],
    ["wk0 1b o8g 0"]),
  (["lyci", "lycian"],
    ["1f28 s"]),
  (["lydi", "lydian"],
    ["1gdc p 5 0"]),
  (["mahj", "mahajani"],
    ["1hzk 12"]),
  (["maka", "makasar"],
    ["1ko0 o"]),
  (["mlym", "malayalam"],
    ["2kg c 1 2 1 1e 1 2 1 5 4 f 2 p"]),
  (["mand", "mandaic"],
    ["1mo r 2 0"]),
  (["mani", "manichaean"],
    ["1gow 12 4 b"]),
  (["marc", "marchen"],
    ["1k6o v 2 l 1 d"]),
  (["gonm", "masaramgondi"],
    ["1kao 6 1 1 1 17 3 0 1 1 1 8 8 9"]),
  (["medf", "medefaidrin"],
    ["20cg 2i"]),
  (["mtei", "meeteimayek"],
    ["xr4 m 5l 19 2 9"]),
  (["mend", "mendekikakui"],
    ["2oe8 5g 2 f"]),
  (["merc", "meroiticcursive"],
    ["1ggw n 4 j 2 19"]),
  (["mero", "meroitichieroglyphs"],
    ["1gg0 v"]),
  (["modi"],
    ["1iww 1w b 9"]),
  (["mong", "mongolian"],
    ["4qo 1 2 0 1 j 6 2g 7 16 1e45 c"]),
  (["mroo", "mro"],
    ["1zk0 u 1 9 4 1"]),
  (["mult", "multani"],
    ["1i80 6 1 0 1 3 1 e 1 a"]),
  (["mymr", "myanmar"],
    ["35s 4f u9s u 2p v le8 j"]),
  (["nbat", "nabataean"],
    ["1g8w u 8 8"]),
  (["nagm", "nagmundari"],
    ["2nrk 15"]),
  (["nand", "nandinagari"],
    ["1jmo 7 2 19 2 a"]),
  (["newa"],
    ["1iio 2j 1 4"]),
  (["talu", "newtailue"],
    ["51c 17 4 p 6 a 3 1"]),
  (["nkoo", "nko"],
    ["1j4 1m 2 2"]),
  (["nshu", "nushu"],
    ["20o1 0 cy6 az"]),
  (["hmnp", "nyiakengpuachuehmong"],
    ["2n0g 18 3 d 2 9 4 1"]),
  (["ogam", "ogham"],
    ["4g0 s"]),
  (["olck", "olchiki"],
    ["5lc 1b"]),
  (["hung", "oldhungarian"],
    ["1h1c 1e d 1e 7 5"]),
  (["ital", "olditalic"],
    ["1f5s z 9 2"]),
  (["narb", "oldnortharabian"],
    ["1gn4 v"]),
  (["perm", "oldpermic"],
    ["1f80 16"]),
  (["xpeo", "oldpersian"],
    ["1fa8 z 4 d"]),
  (["sogo", "oldsogdian"],
    ["1hj4 13"]),
  (["sarb", "oldsoutharabian"],
    ["1gm8 v"]),
  (["orkh", "oldturkic"],
    ["1gxs 20"]),
  (["ougr", "olduyghur"],
    ["1hm8 p"]),
  (["onao", "olonal"],
    ["2nyo 16 4 0"]),
  (["orya", "oriya"],
    ["269 2 1 7 2 1 2 l 1 6 1 1 1 4 2 8 2 1 2 2 7 2 4 1 1 4 2 h"]),
  (["osge", "osage"],
    ["1fhs z 4 z"]),
  (["osma", "osmanya"],
    ["1fgg t 2 9"]),
  (["hmng", "pahawhhmong"],
    ["1zpc 1x a 9 1 6 1 k 5 i"]),
  (["palm", "palmyrene"],
    ["1g80 v"]),
  (["pauc", "paucinhau"],
    ["1juo 1k"]),
  (["phag", "phagspa"],
    ["x8g 1j"]),
  (["phnx", "phoenician"],
    ["1gcg r 3 0"]),
  (["plrd", "miao"],
    ["20hs 22 4 1k 7 g"]),
  (["phlp", "psalterpahlavi"],
    ["1gu8 h 7 3 c 6"]),
  (["rjng", "rejang"],
    ["xf4 z b 0"]),
  (["runr", "runic"],
    ["4gw 22 3 a"]),
  (["samr", "samaritan"],
    ["1kw 19 2 e"]),
  (["saur", "saurashtra"],
    ["xa8 1x 8 b"]),
  (["shrd", "sharada"],
    ["1i0w 2n"]),
  (["shaw", "shavian"],
    ["1ff4 1b"]),
  (["sidd", "siddham"],
    ["1itc 1h 2 11"]),
  (["sgnw", "signwriting"],
    ["2l8g i3 f 4 1 e"]),
  (["sinh", "sinhala"],
    ["2o1 2 1 h 3 n 1 8 1 0 2 6 3 0 4 5 1 0 1 7 6 9 2 2 1fcc j"]),
  (["sogd", "sogdian"],
    ["1hkg 15"]),
  (["sora", "sorasompeng"],
    ["1hw0 o 7 9"]),
  (["soyo", "soyombo"],
    ["1jrk 2a"]),
  (["sund", "sundanese"],
    ["5fk 1r 74 7"]),
  (["sunu", "sunuwar"],
    ["1k1s x e 9"]),
  (["sylo", "sylotinagri"],
    ["x6o 18"]),
  (["syrc", "syriac"],
    ["1ds d 1 1n 2 2 7k a"]),
  (["tglg", "tagalog"],
    ["4jk l 9 0"]),
  (["tagb", "tagbanwa"],
    ["4m8 c 1 2 1 1"]),
  (["tale", "taile"],
    ["500 t 2 4"]),
  (["lana", "taitham"],
    ["55s 1q 1 s 2 a 6 9 6 d"]),
  (["tavt", "taiviet"],
    ["xog 1u o 4"]),
  (["takr", "takri"],
    ["1j0g 1l 6 9"]),
  (["taml", "tamil"],
    ["29u 1 1 5 3 2 1 3 3 1 1 0 1 1 3 1 3 2 3 b 4 4 3 2 1 3 2 0 6 0 e k 1ih1 1d d 0"]),
  (["tnsa", "tangsa"],
    ["1zlc 26 1 9"]),
  (["tang", "tangut"],
    ["20o0 0 v 4qf 8 lb e8 8"]),
  (["telu", "telugu"],
    ["2dc c 1 2 1 m 1 f 2 8 1 2 1 3 7 1 1 2 2 0 2 3 2 9 7 8"]),
  (["thaa", "thaana"],
    ["1hc 1d"]),
  (["thai"],
    ["2rl 1l 5 r"]),
  (["tibt", "tibetan"],
    ["2yo 1z 1 z 4 12 1 z 1 e 1 6 4 1"]),
  (["tfng", "tifinagh"],
    ["8xc 1j 7 1 e 0"]),
  (["tirh", "tirhuta"],
    ["1im8 1z 8 9"]),
  (["todr", "todhri"],
    ["1fpc 1f"]),
  (["toto"],
    ["2nbk u"]),
  (["tutg", "tulutigalari"],
    ["1if4 9 1 0 2 0 1 11 1 9 1 0 2 0 1 3 1 9 1 1 8 1"]),
  (["ugar", "ugaritic"],
    ["1f9c t 1 0"]),
  (["zzzz", "unknown"],
    ["oo 1 6 3 7 0 1 0 k 0 b1 0 12 1 1e 1 3 0 1j 7 r 3 6 a 7i 0 1o 1 2t d 1n 1 1d 1 f 0 s 1 1 0",
    "b 4 y 4 6l 0 8 1 2 1 m 0 7 0 1 2 4 1 9 1 2 1 4 7 1 3 2 0 5 1 p 1 3 0 6 3 2 1 m 0 7 0 2 0",
    "2 0 2 1 1 0 5 3 2 1 3 2 1 6 4 0 1 6 h 9 3 0 9 0 3 0 m 0 7 0 2 0 5 1 a 0 3 0 3 1 1 e 4 1 c",
    "6 7 0 3 0 8 1 2 1 m 0 7 0 2 0 5 1 9 1 2 1 3 6 3 3 2 0 5 1 i 9 2 0 6 2 3 0 4 2 2 0 1 0 2 2",
    "2 2 3 2 c 3 5 2 3 0 4 1 1 5 1 d l 4 d 0 3 0 n 0 g 1 9 0 3 0 4 6 2 0 3 0 2 1 4 1 a 6 m 0 3",
    "0 n 0 a 0 5 1 9 0 3 0 4 6 2 4 3 0 4 1 a 0 3 b d 0 3 0 1f 0 3 0 6 3 g 1 q 0 3 0 i 2 o 0 9",
    "0 1 1 7 2 1 3 6 0 1 0 8 5 a 1 3 b 1m 3 t 10 2 0 1 0 5 0 o 0 1 0 n 1 5 0 1 0 7 0 a 1 4 v",
    "20 0 10 3 13 0 10 0 f 0 d 10 5i 0 1 4 1 1 ah 0 4 1 7 0 1 0 4 1 15 0 4 1 x 0 4 1 7 0 1 0 4",
    "1 f 0 1l 0 4 1 1v 1 w 2 q 5 2e 1 6 1 il 2 2h 6 m 8 o 8 k b d 0 3 0 2 b 2m 1 a 5 a 5 q 5",
    "2h 6 17 4 1y 9 v 0 c 3 c 3 1 2 16 1 5 a 18 3 q 5 b 2 1q 1 1t 0 t 1 b 5 a 5 e 1 1a 1 c j",
    "25 0 4m 7 1o 2 f 2 1q 4 17 1 b 7 17 4 eu 1 6 1 12 1 6 1 8 0 1 0 1 0 1 0 v 1 1h 0 f 0 e 1",
    "6 0 j 1 3 0 9 0 2t 0 c 1 r 0 d 2 y d x e 3w 3 ii l b k 1ec 1 am 4 19 0 1 4 1 1 1k 6 2 d o",
    "8 7 0 7 0 7 0 7 0 7 0 7 0 7 0 7 0 3i x q 0 2h b 5y p 28 0 2e 1 2v 4 17 0 2m 0 2e 8 1c 0",
    "mlp 2 1j 8 9o j 54 7 65 j 1o 2 a 5 1k 7 1y 7 c 5 38 a u 2 26 0 b 3 x 0 1j 8 e 1 a 1 2v n",
    "s 9 6 1 6 1 6 8 7 0 7 0 1o 3 3i 1 a 5 8mc b n 3 1d 3 1kw 4xr a6 1 2y 11 7 b 5 4 q 0 5 0 1",
    "0 2 0 2 0 i2 v 16 5 1f 0 j 0 4 3 5 0 3r 1 1 0 5a 2 6 1 6 1 6 1 3 2 7 0 7 9 5 1 c 0 q 0 j",
    "0 2 0 f 1 e x 3f 4 3 3 19 2 2g 0 d 2 1 1a 1a 3l t 2 1d e s 3 10 8 u 4 17 4 u 0 11 3 e 15",
    "4e 1 a 5 10 3 10 3 14 7 1g a c 0 f 0 7 0 2 0 b 0 f 0 7 0 2 2 1g b 8n 8 m 9 8 n 6 0 16 0 9",
    "1w 6 1 1 0 18 0 2 2 1 1 n 0 20 7 9 1b j 0 2 4 x 2 r 4 r 11 1k 3 k 1 1e 0 2 4 8 0 3 0 t 1",
    "3 3 a 6 9 6 1s v 13 3 c 8 1i 2 t 1 r 4 q 6 4 b 7 27 21 1i 1f c 1f 6 1a 7 a 5 12 2 t 7 2",
    "5r v 0 16 0 3 1 2 f 6 7 9 w 1a 7 16 l q 11 s j n 8 26 3 10 8 1w 9 1 1 p 6 a 5 1h 0 i 7 13",
    "8 2o 0 k a i 0 1b 1p 7 0 1 0 4 0 f 0 b 5 1n 4 a 5 4 0 8 1 2 1 m 0 7 0 2 0 5 0 a 1 2 1 3 1",
    "1 5 1 4 7 1 7 2 5 a a 0 1 1 1 0 12 0 a 0 1 1 1 0 4 0 a 0 2 7 2 s 2k 0 5 t 20 7 a 4l 1i 1",
    "12 x 1x a a 5 d i 1m 5 a 5 k r r 1 f 3 n 54 1o 2r 2b b 8 1 1 1 8 0 2 0 u 0 2 1 c 8 a 1x 8",
    "1 1a 1 b q 20 7 2b c 21 6 a 2d 8 2f y d a 5 9 0 19 0 e 9 t 2 w 1 m 0 e 20 7 0 2 0 18 2 1",
    "0 2 0 9 7 a 5 6 0 2 0 11 0 2 0 6 6 a 5 18 3 a 6t p 6 h 0 15 2 t 2c 1 e 1e c pn 2t 33 0 5",
    "a 5g 217 2r c uu 9 32z 4 g7 5a0 1m 1c5 ft 6 v 0 a 3 29 0 a 5 u 1 6 9 1y 9 a 0 7 0 l 4 j",
    "bz 1m 5h 2j 4 p 1 p 17 23 3 1l 6 h 1r 5 a 7 8 5p2 14 w 2o 37 6po 4 0 7 0 2 0 83 e 1 s 3 1",
    "1 d 4 7 b0 1s3 2z 4 d 2 9 6 a 1 8 317 71 2 c4 5 n e h e 1a 1 n 8 38 1n 6u 9 13 1 5e k 1y",
    "3d k b k b 2f 8 p 3q 2d 0 1z 0 2 1 1 1 2 1 4 0 c 0 1 0 7 0 1t 0 4 1 8 0 7 0 s 0 4 0 5 0 1",
    "2 7 0 9g 1 84 1 ji e 5 0 f un v 5 6 5w 7 0 h 1 7 0 2 0 5 4 1q w 1 33 19 2 e 1 a 3 2 8v v",
    "g 1m 4 1 cv 16 5x 17 3 1 5b v 0 m 7 2 67 7 0 4 0 2 0 f 0 5h 1 g 14 24 3 a 3 2 ls 1w 23 1p",
    "5d 4 0 r 0 2 0 1 1 1 0 a 0 4 0 1 0 1 5 1 3 1 0 1 0 1 0 3 0 2 0 1 1 1 0 1 0 1 0 1 0 1 0 2",
    "0 1 1 4 0 7 0 4 0 4 0 1 0 a 0 h 4 3 0 5 0 h 1f 2 7h 18 3 2s b f 1 f 0 f 0 11 9 4u 1j t c",
    "18 3 9 6 2 d 6 49 rd 2 h 2 d 2 62 5 c 3 1 e c 3 1k 7 a 5 14 7 u 1 c 3 2 d 9 12 9k 7 e 1 d",
    "2 b 2 1l 0 1 3 g 1 c 3 a 6 43 0 2v sk wyo v 3dq 1 4ge 1 5rl e ha 1wh f2 15t 3t7 4 6ju",
    "f5vq 1 t 2o 3j 6o 47bj"]),
  (["vaii", "vai"],
    ["wlc 8b"]),
  (["vith", "vithkuqi"],
    ["1fn4 a 1 e 1 6 1 1 1 a 1 e 1 6 1 1"]),
  (["wcho", "wancho"],
    ["2ncw 1l 5 0"]),
  (["wara", "warangciti"],
    ["1jfk 2a c 0"]),
  (["yezi", "yezidi"],
    ["1hfk 15 1 2 2 1"]),
  (["yiii", "yi"],
    ["vls wc 3 1i"]),
  (["zanb", "zanabazarsquare"],
    ["1jpc 1z"])]

/-- The script that a name means, the name in lower case and without blanks, hyphens and low
lines. -/
def script? (name : String) : Option CharClass :=
  (scriptTable.find? (·.1.contains name)).map fun row => decodeRanges row.2

/-- The characters that are used with other scripts than their own, or with several ones: the short
names of these scripts and the ranges. -/
def extensionTable : List (String × List String) := [
  ("avst cari copt dupl elba geor glag gong goth grek hani latn lydi mahj perm shaw", ["53 0"]),
  ("beng cyrl deva latn lisu thai toto", ["jg 0"]),
  ("bopo latn", ["jr 0 1 2 d 0"]),
  ("latn lisu", ["jx 0"]),
  ("latn thai", ["k7 0"]),
  ("cher copt cyrl grek latn perm sunu tale", ["lc 0"]),
  ("cher cyrl grek latn osge sunu tale todr", ["ld 0"]),
  ("cher cyrl latn tfng", ["le 0"]),
  ("glag latn sunu syrc thai", ["lf 0"]),
  ("aghb cher copt cyrl goth grek latn osge syrc tfng todr", ["lg 0"]),
  ("copt elba glag goth kana latn", ["lh 0"]),
  ("cyrl grek latn perm tfng", ["li 0"]),
  ("copt dupl hebr latn perm syrc tale tfng todr", ["lj 0"]),
  ("armn cyrl dupl goth grek hebr latn perm syrc tale tfng", ["lk 0"]),
  ("latn tfng", ["ll 0"]),
  ("dupl latn syrc", ["lm 0"]),
  ("cher cyrl latn osge", ["ln 0"]),
  ("cher latn tale", ["lo 0"]),
  ("latn sunu", ["lp 0 2 0"]),
  ("ethi latn", ["lq 0"]),
  ("cyrl latn todr", ["lt 0"]),
  ("grek latn perm todr", ["lv 0"]),
  ("cher dupl kana latn syrc tfng", ["mb 0"]),
  ("cher dupl latn syrc", ["mc 0"]),
  ("latn syrc", ["md 0 8 0"]),
  ("latn sunu syrc", ["ml 0"]),
  ("cher latn syrc", ["mo 0"]),
  ("aghb cher goth latn sunu syrc thai", ["mp 0"]),
  ("grek", ["n6 0 2 0 58a 1"]),
  ("latn osge", ["ns 0"]),
  ("aghb latn todr", ["ny 0"]),
  ("latn", ["o3 c"]),
  ("copt grek", ["ok 1"]),
  ("cyrl perm", ["w3 0"]),
  ("cyrl glag", ["w4 0 2 0 88r 0 nqj 0"]),
  ("cyrl latn", ["w5 1"]),
  ("armn geor glag", ["13d 0"]),
  ("arab gara nkoo rohg syrc thaa yezi", ["170 0 e 0"]),
  ("arab syrc thaa", ["17g 0"]),
  ("adlm arab gara nkoo rohg syrc thaa yezi", ["17j 0"]),
  ("adlm arab mand mani ougr phlp rohg sogd syrc", ["18g 0"]),
  ("arab syrc", ["18r a q 0"]),
  ("arab thaa yezi", ["19c 9"]),
  ("arab rohg", ["1ck 0"]),
  ("beng deva gran gujr guru knda latn mlym nand newa orya shrd taml telu tirh", ["1u9 0"]),
  ("beng deva gran gujr guru knda latn mlym newa orya taml telu tirh", ["1ua 0"]),
  ("beng deva dogr gong gonm gran gujr guru knda mahj mlym nand onao orya sind sinh sylo takr taml telu tirh",
    ["1us 0"]),
  ("beng deva dogr gong gonm gran gujr gukh guru knda limb mahj mlym nand onao orya sind sinh sylo takr taml telu tirh",
    ["1ut 0"]),
  ("deva dogr kthi mahj", ["1uu 9"]),
  ("beng cakm sylo", ["1ye 9"]),
  ("guru mult", ["21y 9"]),
  ("gujr khoj", ["25i 9"]),
  ("gran taml", ["2cm d 1fyl 0 1 0 1j 1 2hf 1 1 0"]),
  ("knda nand tutg", ["2jq 9"]),
  ("cakm mymr tale", ["37k 9"]),
  ("geor glag latn", ["3cr 0"]),
  ("runr", ["4iz 2"]),
  ("buhd hano tagb tglg", ["4l1 1"]),
  ("mong phag", ["4qq 1 1 0"]),
  ("beng deva gran knda", ["5ow 0 1 0"]),
  ("deva", ["5ox 0 2 0 6 0 2 1 3 5 3 0 1 3"]),
  ("deva gran knda", ["5oz 0"]),
  ("beng deva newa telu tirh", ["5p1 0"]),
  ("beng deva telu", ["5p2 0"]),
  ("deva newa shrd", ["5p3 0"]),
  ("beng deva newa telu", ["5p4 0"]),
  ("deva shrd", ["5p5 0 2 1 2 0"]),
  ("deva knda mlym orya taml telu", ["5p6 0"]),
  ("beng deva", ["5pd 0 j 1"]),
  ("deva newa tirh", ["5pe 0"]),
  ("deva nand newa", ["5pl 0"]),
  ("beng deva shrd", ["5pm 0"]),
  ("deva newa", ["5pn 0"]),
  ("beng deva newa shrd", ["5pp 0"]),
  ("beng deva gran knda mlym nand orya sinh telu tirh tutg", ["5pu 0"]),
  ("deva gran", ["5pv 0 4 1"]),
  ("deva gran knda tutg", ["5pw 0"]),
  ("beng", ["5pz 0"]),
  ("nand", ["5q2 0"]),
  ("cyrl latn syrc", ["5x4 0"]),
  ("syrc", ["5x6 0"]),
  ("latn mong phag", ["6cv 0"]),
  ("adlm arab", ["6dr 0"]),
  ("cari geor glag hung lyci orkh", ["6e2 0"]),
  ("cari grek hung mero", ["6e5 0"]),
  ("deva gran latn", ["6i8 0"]),
  ("copt latn", ["93r 0"]),
  ("avst orkh", ["94g 0"]),
  ("avst cari geor hung kthi lydi samr", ["94h 0"]),
  ("dupl", ["94s 0 26oz 3"]),
  ("adlm arab hung", ["94x 0"]),
  ("hani tang", ["9gw f dr 0"]),
  ("bopo hang hani hira kana mong yiii", ["9hd 0"]),
  ("bopo hang hani hira kana mong phag yiii", ["9he 0"]),
  ("bopo hang hani hira kana", ["9hf 0 f 0 8 3 g 0 6 0 14p9 1"]),
  ("hani", ["9hi 0 1j 1 9c f w 11 1m 13 1k 1c f b 1f 0 2g o a 4 2o u 2a1t h 63i 1"]),
  ("bopo hang hani hira kana mong tibt yiii", ["9hk 1"]),
  ("bopo hang hani hira kana lisu mong tibt yiii", ["9hm 1"]),
  ("bopo hang hani hira kana yiii", ["9ho 5 2 7 67 0 14rp 4"]),
  ("bopo hani", ["9ii 3"]),
  ("hira kana", ["9ip 4 2r 3 3 0 2j 0 14s3 0 19 1"]),
  ("hani hira kana", ["9j0 1"]),
  ("hani latn", ["wzk 7"]),
  ("deva dogr gujr guru khoj knda kthi mahj mlym modi nand shrd sind takr tirh tutg", ["x80 2"]),
  ("deva dogr gujr guru khoj knda kthi mahj modi nand shrd sind takr tirh tutg", ["x83 2"]),
  ("deva dogr gujr guru khoj kthi mahj modi sind takr tirh", ["x86 1 1 0"]),
  ("deva dogr gujr guru khoj kthi mahj modi shrd sind takr tirh", ["x88 0"]),
  ("beng deva tutg", ["xdd 0"]),
  ("deva taml", ["xdf 0"]),
  ("kali latn mymr", ["xf2 0"]),
  ("bugi java", ["xjj 0"]),
  ("arab nkoo", ["1e0u 1"]),
  ("arab thaa", ["1e5u 0 a 0"]),
  ("cpmn cprt linb", ["1erk 1"]),
  ("cprt linb", ["1erm 0 1g 8"]),
  ("cprt lina linb", ["1err 18"]),
  ("arab copt", ["1f4w r"]),
  ("mani ougr", ["1gqa 0"])]

/-- The characters that are used with a script. -/
def scriptExtension? (name : String) : Option CharClass := do
  let (names, ranges) ← scriptTable.find? (·.1.contains name)
  let short ← names.head?
  let extended := extensionTable.map fun row => decodeRanges row.2
  let used := extensionTable.filter fun row => (row.1.splitOn " ").contains short
  let own := (decodeRanges ranges).diff (extended.foldl CharClass.union [])
  return (used.map fun row => decodeRanges row.2).foldl CharClass.union own

end StepGlue.Regex
