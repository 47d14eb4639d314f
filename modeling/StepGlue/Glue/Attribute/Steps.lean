import StepGlue.Glue.Attribute.Item
import StepGlue.Glue.Attribute.Lexer
import StepGlue.Regex.Escape

/-! Step definitions written as attributes of functions, such as `#[given("a cuke")]`. -/

namespace StepGlue.Attribute

open TokenReader

def keyword? (a : Attr) : Option Keyword :=
  match a.path.getLast? with
  | some "given" => some .given
  | some "when" => some .when
  | some "then" => some .«then»
  | _ => none

/-- The expression that a function's name spells. -/
def namePattern (name : String) : Pattern :=
  .expression (String.ofList (name.toList.map fun c => if c = '_' then ' ' else c))

/-- The pattern that matches just one text. -/
def literalPattern (text : String) : Pattern := .regex (String.ofList (Regex.escape text.toList))

/-- The pattern of an attribute's arguments: a literal text, or a pattern under the name of its
dialect. Further arguments do not matter. -/
def argumentPattern : TokenReader Pattern := do
  if let .text value _ :: _ ← remaining then return literalPattern value
  let (dialect, line) ← name
  punct "="
  let source ← string
  match dialect with
  | "expr" => return .expression source
  | "regex" => return .regex source
  | _ => failAt ("unknown step attribute argument `" ++ dialect
      ++ "`, expected `expr` or `regex`") line

/-- The pattern of an attribute on a function. -/
def pattern (function : String) (a : Attr) : Except GlueError Pattern :=
  match a.arguments with
  | .absent | .list [] _ => .ok (namePattern function)
  | .list tokens closed => (argumentPattern.run ⟨tokens, closed, none⟩).map (·.1)
  | .value => .error ⟨"step attribute on '" ++ function
      ++ "' must use parentheses, as in #[given(\"...\")]", a.pathLine⟩

/-- What one attribute of a function gives: nothing, a definition or an error. -/
def attributeSteps (function : String) (a : Attr) : GlueSteps :=
  match keyword? a with
  | none => {}
  | some k => match pattern function a with
    | .ok p => { steps := [⟨p, a.line, some k⟩] }
    | .error e => { rejected := [e] }

def functionSteps (f : Function) : GlueSteps :=
  (f.attributes.map (attributeSteps f.name)).foldl .append {}

mutual

def itemSteps : Item → GlueSteps
  | .function f => functionSteps f
  | .implementation methods => (methods.map functionSteps).foldl .append {}
  | .module items => allSteps items
  | .other => {}

/-- The definitions of items in their order, modules included. -/
def allSteps : List Item → GlueSteps
  | [] => {}
  | i :: is => (itemSteps i).append (allSteps is)

end

/-- The definitions of a source file. -/
def extract (source : String) : Except GlueError GlueSteps := do
  return allSteps (← readItems (← tokenize source))

end StepGlue.Attribute
