/-! The spoken languages of feature files. -/

namespace StepGlue

/-- The words of a language, each list in the order in which they are tried. -/
structure Language where
  feature : List String
  background : List String
  rule : List String := ["Rule"]
  scenario : List String
  outline : List String
  examples : List String
  given : List String
  whenWords : List String
  thenWords : List String
  and : List String
  but : List String
deriving DecidableEq, Repr

namespace Language

def english : Language where
  feature := ["Feature", "Business Need", "Ability"]
  background := ["Background"]
  scenario := ["Example", "Scenario"]
  outline := ["Scenario Outline", "Scenario Template"]
  examples := ["Examples", "Scenarios"]
  given := ["* ", "Given "]
  whenWords := ["* ", "When "]
  thenWords := ["* ", "Then "]
  and := ["* ", "And "]
  but := ["* ", "But "]

instance : Inhabited Language := ⟨english⟩

def french : Language where
  feature := ["Fonctionnalité"]
  background := ["Contexte"]
  rule := ["Règle"]
  scenario := ["Exemple", "Scénario"]
  outline := ["Plan du scénario", "Plan du Scénario"]
  examples := ["Exemples"]
  given := ["* ", "Soit ", "Sachant que ", "Sachant qu'", "Sachant ", "Etant donné que ",
    "Etant donné qu'", "Etant donné ", "Etant donnée ", "Etant donnés ", "Etant données ",
    "Étant donné que ", "Étant donné qu'", "Étant donné ", "Étant donnée ", "Étant donnés ",
    "Étant données "]
  whenWords := ["* ", "Quand ", "Lorsque ", "Lorsqu'"]
  thenWords := ["* ", "Alors ", "Donc "]
  and := ["* ", "Et que ", "Et qu'", "Et "]
  but := ["* ", "Mais que ", "Mais qu'", "Mais "]

def german : Language where
  feature := ["Funktionalität", "Funktion"]
  background := ["Grundlage", "Hintergrund", "Voraussetzungen", "Vorbedingungen"]
  rule := ["Rule", "Regel"]
  scenario := ["Beispiel", "Szenario"]
  outline := ["Szenariogrundriss", "Szenarien"]
  examples := ["Beispiele"]
  given := ["* ", "Angenommen ", "Gegeben sei ", "Gegeben seien "]
  whenWords := ["* ", "Wenn "]
  thenWords := ["* ", "Dann "]
  and := ["* ", "Und "]
  but := ["* ", "Aber "]

def japanese : Language where
  feature := ["フィーチャ", "機能"]
  background := ["背景"]
  scenario := ["シナリオ"]
  outline := ["シナリオアウトライン", "シナリオテンプレート", "テンプレ", "シナリオテンプレ"]
  examples := ["例", "サンプル"]
  given := ["* ", "前提"]
  whenWords := ["* ", "もし"]
  thenWords := ["* ", "ならば"]
  and := ["* ", "かつ"]
  but := ["* ", "しかし", "但し", "ただし"]

def emoji : Language where
  feature := ["📚"]
  background := ["💤"]
  scenario := ["🥒", "📕"]
  outline := ["📖"]
  examples := ["📓"]
  given := ["* ", "😐"]
  whenWords := ["* ", "🎬"]
  thenWords := ["* ", "🙏"]
  and := ["* ", "😂"]
  but := ["* ", "😔"]

def pirate : Language where
  feature := ["Ahoy matey!"]
  background := ["Yo-ho-ho"]
  scenario := ["Heave to"]
  outline := ["Shiver me timbers"]
  examples := ["Dead men tell no tales"]
  given := ["* ", "Gangway! "]
  whenWords := ["* ", "Blimey! "]
  thenWords := ["* ", "Let go and haul "]
  and := ["* ", "Aye "]
  but := ["* ", "Avast! "]

def formal : Language where
  feature := ["Section"]
  background := ["Context"]
  scenario := ["Proof", "Evidence"]
  outline := ["Demonstration"]
  examples := ["Examples"]
  given := ["Given"]
  whenWords := ["When"]
  thenWords := ["Then"]
  and := ["*", "And"]
  but := ["But"]

/-- The languages by the code that a feature file names them with. -/
def all : List (String × Language) :=
  [("en", english), ("fr", french), ("de", german), ("ja", japanese), ("em", emoji),
    ("en-pirate", pirate), ("formal", formal)]

def ofCode? (code : String) : Option Language := (all.find? (·.1 == code)).map (·.2)

/-- The words that start a step. -/
def stepWords (l : Language) : List String :=
  l.given ++ l.whenWords ++ l.thenWords ++ l.and ++ l.but

end Language

end StepGlue
