import StepGlue.Regex.Unicode.Age
import StepGlue.Regex.Unicode.Break
import StepGlue.Regex.Tree

/-! Looking up a named set of characters. -/

namespace StepGlue.Regex

/-- The form in which names are compared: ASCII only, in lower case, without blanks, hyphens and
low lines, and without a leading "is" unless the name is "isc". -/
def looseName (s : String) : String :=
  let chars : List Char := s.toList
  let rest : List Char := match chars with
    | a :: b :: tail =>
      if (a = 'i' ∨ a = 'I') ∧ (b = 's' ∨ b = 'S') then tail else chars
    | _ => chars
  let kept : List Char :=
    (rest.filter fun c => c.toNat < 128 && c ≠ ' ' && c ≠ '_' && c ≠ '-').map Char.toLower
  if rest.length < chars.length ∧ kept = ['c'] then "isc" else String.ofList kept

/-- Each category or family of categories by its names. -/
def categoryNames : List (List String × List Category) := [
  (["lu", "uppercaseletter"], [.lu]), (["ll", "lowercaseletter"], [.ll]),
  (["lt", "titlecaseletter"], [.lt]), (["lc", "casedletter"], [.lu, .ll, .lt]),
  (["lm", "modifierletter"], [.lm]), (["lo", "otherletter"], [.lo]),
  (["l", "letter"], Category.letters),
  (["mn", "nonspacingmark"], [.mn]), (["mc", "spacingmark"], [.mc]),
  (["me", "enclosingmark"], [.me]), (["m", "mark", "combiningmark"], Category.marks),
  (["nd", "decimalnumber", "digit"], [.nd]), (["nl", "letternumber"], [.nl]),
  (["no", "othernumber"], [.no]), (["n", "number"], Category.numbers),
  (["pc", "connectorpunctuation"], [.pc]), (["pd", "dashpunctuation"], [.pd]),
  (["ps", "openpunctuation"], [.ps]), (["pe", "closepunctuation"], [.pe]),
  (["pi", "initialpunctuation"], [.pi]), (["pf", "finalpunctuation"], [.pf]),
  (["po", "otherpunctuation"], [.po]), (["p", "punctuation", "punct"], Category.punctuation),
  (["sm", "mathsymbol"], [.sm]), (["sc", "currencysymbol"], [.sc]),
  (["sk", "modifiersymbol"], [.sk]), (["so", "othersymbol"], [.so]),
  (["s", "symbol"], Category.symbols),
  (["zs", "spaceseparator"], [.zs]), (["zl", "lineseparator"], [.zl]),
  (["zp", "paragraphseparator"], [.zp]), (["z", "separator"], Category.separators),
  (["cc", "control", "cntrl"], [.cc]), (["cf", "format"], [.cf]),
  (["co", "privateuse"], [.co])]

/-- The category that a name means. -/
def category? : String → Option CharClass
  | "any" => some CharClass.anyChar
  | "assigned" => some Category.assigned
  | "ascii" => some [(0, 0x7F)]
  | "cn" | "unassigned" => some Category.assigned.complement
  | "c" | "other" =>
    some (Category.assigned.diff (Category.unionOf [.cc, .cf, .co])).complement
  | name => (categoryNames.find? (·.1.contains name)).map fun row => Category.unionOf row.2

inductive NameError
  | property
  | value
deriving DecidableEq, Repr

/-- A table of the named sets of characters. -/
abbrev NamedSets := ClassName → Except NameError CharClass

/-- Names of a category and of a script that have no characters. -/
def emptyNames : List String := ["cs", "surrogate", "hrkt", "katakanaorhiragana"]

/-- The further properties of the database. No set is known for any of their values. -/
def otherProperties : List String := [
  "bc", "bidiclass", "bidim", "bidimirrored", "bmg", "bidimirroringglyph", "bpb",
  "bidipairedbracket", "bpt", "bidipairedbrackettype", "blk", "block", "ccc",
  "canonicalcombiningclass", "ce", "compositionexclusion", "cf", "casefolding", "compex",
  "fullcompositionexclusion", "cwkcf", "changeswhennfkccasefolded", "dm", "decompositionmapping",
  "dt", "decompositiontype", "ea", "eastasianwidth", "equideo", "equivalentunifiedideograph",
  "fcnfkc", "fcnfkcclosure", "hst", "hangulsyllabletype", "incb", "indicconjunctbreak", "inpc",
  "indicpositionalcategory", "insc", "indicsyllabiccategory", "isc", "jg", "joininggroup", "jsn",
  "jamoshortname", "jt", "joiningtype", "lb", "linebreak", "lc", "lowercasemapping", "na", "name",
  "na1", "unicode1name", "namealias", "nfcqc", "nfcquickcheck", "nfdqc", "nfdquickcheck",
  "nfkccf", "nfkccasefold", "nfkcqc", "nfkcquickcheck", "nfkcscf", "nfkcsimplecasefold", "nfkdqc",
  "nfkdquickcheck", "nt", "numerictype", "nv", "numericvalue", "scf", "sfc", "simplecasefolding",
  "slc", "simplelowercasemapping", "stc", "simpletitlecasemapping", "suc",
  "simpleuppercasemapping", "tc", "titlecasemapping", "uc", "uppercasemapping", "urs",
  "unicoderadicalstroke", "vo", "verticalorientation", "xonfc", "expandsonnfc", "xonfd",
  "expandsonnfd", "xonfkc", "expandsonnfkc", "xonfkd", "expandsonnfkd"]

/-- The set that a name, or a property and its value, means. A bare name is a property, else a
category, else a script; three short names are kept for categories. -/
def namedClass : NamedSets
  | .name text =>
    let name := looseName text
    let asProperty := if name = "cf" ∨ name = "sc" ∨ name = "lc" then none else property? name
    match asProperty.or ((category? name).or (script? name)) with
    | some s => .ok s
    | none => .error (if emptyNames.contains name then .value else .property)
  | .value property value =>
    let value := looseName value
    let found := match looseName property with
      | "gc" | "generalcategory" => some (category? value)
      | "sc" | "script" => some (script? value)
      | "scx" | "scriptextensions" => some (scriptExtension? value)
      | "age" => some (age? value)
      | "gcb" | "graphemeclusterbreak" => some (graphemeBreak? value)
      | "wb" | "wordbreak" => some (wordBreak? value)
      | "sb" | "sentencebreak" => some (sentenceBreak? value)
      | name =>
        if (property? name).isSome ∨ otherProperties.contains name then some none else none
    match found with
    | some (some s) => .ok s
    | some none => .error .value
    | none => .error .property

end StepGlue.Regex
