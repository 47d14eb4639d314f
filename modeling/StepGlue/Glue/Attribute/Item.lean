import StepGlue.Glue.Attribute.TokenReader

/-! The items of a source file, as far as step definitions are concerned: functions with their
attributes, in modules and implementation blocks. Types, expressions and the bodies of functions
are passed over. -/

namespace StepGlue.Attribute

open TokenReader

/-- What follows the path of an attribute: nothing, arguments in brackets, or a value. -/
inductive Arguments
  | absent
  | list (tokens : List Token) (closed : Nat)
  | value
deriving Repr

/-- An attribute: the names of its path, the lines of its sign and of its path, and its
arguments. -/
structure Attr where
  path : List String
  line : Nat
  pathLine : Nat
  arguments : Arguments
deriving Repr

structure Function where
  attributes : List Attr
  name : String
deriving Repr

inductive Item
  | function (f : Function)
  | implementation (methods : List Function)
  | module (items : List Item)
  | other
deriving Repr

def pathWords : List String := ["super", "self", "Self", "crate"]

/-- The names after the first one of a path. -/
def pathTail : Nat → TokenReader (List String)
  | 0 => return []
  | n + 1 => do
    unless ← optionalPunct "::" do return []
    match ← remaining with
    | .ident text _ :: rest =>
      if startsName [.ident text 0] || pathWords.contains text then do
        setRemaining rest
        return text :: (← pathTail n)
      else fail "expected path segment after `::`"
    | _ => fail "expected path segment after `::`"

/-- A path of names. -/
def path : TokenReader (List String) := do
  let _ ← optionalPunct "::"
  match ← remaining with
  | .ident text _ :: rest =>
    if startsName [.ident text 0] || pathWords.contains text then do
      setRemaining rest
      return text :: (← pathTail rest.length)
    else do
      let _ ← name
      return []
  | _ => do
    let _ ← name
    return []

/-- The inside of an attribute's brackets. -/
def attributeBody (line : Nat) : TokenReader Attr := do
  let pathLine ← TokenReader.line
  let names ← if ← optionalWord "unsafe" then pure ["unsafe"] else path
  match ← remaining with
  | .group _ inner _ closed :: rest => do
    setRemaining rest
    return ⟨names, line, pathLine, .list inner closed⟩
  | tokens =>
    if startsPunct ['='] tokens && !startsPunct ['=', '='] tokens && !startsPunct ['=', '>'] tokens
    then do
      punct "="
      if ← atEnd then fail "expected an expression"
      skipAll
      return ⟨names, line, pathLine, .value⟩
    else return ⟨names, line, pathLine, .absent⟩

/-- The attributes in front of an item. -/
def outerAttributes : TokenReader (List Attr) :=
  repeatWhile (startsPunct ['#']) do
    let line ← TokenReader.line
    punct "#"
    within .bracket (attributeBody line)

def startsInnerAttribute : List Token → Bool
  | .punct '#' _ _ :: .punct '!' _ _ :: _ => true
  | _ => false

/-- The attributes at the start of a block, which belong to the item of the block. -/
def innerAttributes : TokenReader (List Attr) :=
  repeatWhile startsInnerAttribute do
    let line ← TokenReader.line
    punct "#"
    punct "!"
    within .bracket (attributeBody line)

/-- Reads a visibility and tells whether there is one. -/
def visibility : TokenReader Bool := do
  unless ← optionalWord "pub" do return false
  match ← remaining with
  | .group .paren [.ident w _] _ _ :: rest =>
    if ["crate", "self", "super"].contains w then setRemaining rest
  | .group .paren (.ident "in" _ :: _) _ _ :: _ =>
    within .paren do
      advance 1
      let _ ← path
  | _ => pure ()
  return true

/-- Removes what may stand before the word of a function. -/
def dropQualifiers (tokens : List Token) : List Token :=
  let drop (w : String) (ts : List Token) := if startsWord w ts then ts.tail else ts
  match drop "unsafe" (drop "async" (drop "const" tokens)) with
  | .ident "extern" _ :: .text _ _ :: rest => rest
  | .ident "extern" _ :: rest => rest
  | rest => rest

def startsFunction (tokens : List Token) : Bool := startsWord "fn" (dropQualifiers tokens)

/-- Passes over parameters in angle brackets. -/
def generics : TokenReader Unit := do
  if ← nextPunct "<" then
    let rec close : Nat → Bool → List Token → List Token
      | _, _, [] => []
      | depth, arrow, t :: ts => match t with
        | .punct '<' _ _ => close (depth + 1) false ts
        | .punct '>' _ _ =>
          if arrow then close depth false ts
          else if depth ≤ 1 then ts else close (depth - 1) false ts
        | .punct c joint _ => close depth ((c == '-' || c == '=') && joint) ts
        | _ => close depth false ts
    setRemaining (close 0 false (← remaining))

/-- Where a type ends. -/
def endsType (tokens : List Token) : Bool :=
  startsPunct [','] tokens || startsPunct [';'] tokens || startsPunct ['='] tokens
    || startsGroup .brace tokens || startsWord "where" tokens

def typeStarts : List String :=
  ["`for`", "parentheses", "`fn`", "`unsafe`", "`extern`", "identifier", "`::`", "`<`", "`dyn`",
    "square brackets", "`*`", "`&`", "`!`", "`impl`", "`_`", "lifetime"]

/-- Passes over a type, which is not empty. -/
def skipType : TokenReader Unit := do
  let tokens ← remaining
  if tokens.isEmpty || endsType tokens then failExpecting typeStarts
  skipUntil endsType

def whereClause : TokenReader Unit := do
  if ← nextWord "where" then
    skipUntil fun ts => startsPunct [';'] ts || startsPunct ['='] ts || startsGroup .brace ts

/-- Passes over an expression up to a mark that ends it. -/
def skipExpression (stop : Char) : TokenReader Unit := do
  if ← atEnd then fail "expected an expression"
  if ← nextPunct (String.singleton stop) then fail "expected an expression"
  let rec loop : List Token → List Token
    | [] => []
    | t :: ts => if startsPunct [stop] (t :: ts) then t :: ts else loop ts
  setRemaining (loop (← remaining))

/-- Whether a parameter is the receiver of a method. -/
def startsReceiver : List Token → Bool
  | .punct '&' _ _ :: .punct '\'' _ _ :: .ident _ _ :: rest =>
    startsWord "self" rest || (startsWord "mut" rest && startsWord "self" rest.tail)
  | .punct '&' _ _ :: rest =>
    startsWord "self" rest || (startsWord "mut" rest && startsWord "self" rest.tail)
  | tokens => startsWord "self" tokens || (startsWord "mut" tokens && startsWord "self" tokens.tail)

/-- A colon that is not the first half of a path mark. -/
def startsColon (tokens : List Token) : Bool :=
  startsPunct [':'] tokens && !startsPunct [':', ':'] tokens

/-- Passes over a pattern. -/
def skipPattern : TokenReader Unit := do
  let rec loop : List Token → List Token
    | [] => []
    | t :: ts =>
      if startsColon (t :: ts) || startsPunct [','] (t :: ts) then t :: ts
      else if startsPunct [':', ':'] (t :: ts) then match ts with
        | _ :: ts => loop ts
        | [] => []
      else loop ts
  let tokens ← remaining
  let bare := (if startsWord "ref" tokens then tokens.tail else tokens)
  let bare := (if startsWord "mut" bare then bare.tail else bare)
  if startsName bare && !startsPunct [':', ':'] bare.tail && !startsPunct ['@'] bare.tail
      && !startsPunct ['!'] bare.tail && !startsGroup .paren bare.tail
      && !startsGroup .brace bare.tail then
    setRemaining bare.tail
  else setRemaining (loop tokens)

/-- One parameter of a function. -/
def parameter : TokenReader Unit := do
  let _ ← outerAttributes
  let tokens ← remaining
  if startsPunct ['.', '.', '.'] tokens then advance 3
  else if startsReceiver tokens then
    skipUntil fun ts => startsPunct [','] ts
  else if startsName tokens && startsPunct ['<'] tokens.tail then skipType
  else do
    skipPattern
    punct ":"
    if ← nextPunct "..." then advance 3 else skipType

def parameters : TokenReader Unit := do
  let _ ← repeatWhile (!·.isEmpty) do
    parameter
    unless ← atEnd do punct ","

/-- The signature of a function; its value is the function's name. -/
def signature : TokenReader String := do
  setRemaining (dropQualifiers (← remaining))
  word "fn"
  let (f, _) ← name
  generics
  within .paren parameters
  if ← optionalPunct "->" then skipType
  whereClause
  return f

/-- A function after its outer attributes: `none` if it has no body. -/
def functionRest (attributes : List Attr) : TokenReader (Option Function) := do
  let f ← signature
  if ← optionalPunct ";" then return none
  let inner ← within .brace do
    let inner ← innerAttributes
    skipAll
    return inner
  return some ⟨attributes ++ inner, f⟩

/-- The fields of a structure in braces. -/
def namedFields : TokenReader Unit := do
  let _ ← within .brace <| repeatWhile (!·.isEmpty) do
    let _ ← outerAttributes
    let _ ← visibility
    if ← nextWord "_" then advance 1
    else
      let _ ← name
    punct ":"
    skipType
    unless ← atEnd do punct ","

def unnamedFields : TokenReader Unit := do
  let _ ← within .paren <| repeatWhile (!·.isEmpty) do
    let _ ← outerAttributes
    let _ ← visibility
    skipType
    unless ← atEnd do punct ","

/-- A structure after its word. -/
def structureRest : TokenReader Unit := do
  let _ ← name
  generics
  let early ← nextWord "where"
  whereClause
  if !early && (← nextGroup .paren) then
    unnamedFields
    let late ← nextWord "where"
    whereClause
    unless ← optionalPunct ";" do
      failExpecting (if late then ["`;`"] else ["`where`", "`;`"])
  else if ← nextGroup .brace then namedFields
  else unless ← optionalPunct ";" do
    failExpecting (if early then ["curly braces", "`;`"]
      else ["`where`", "parentheses", "curly braces", "`;`"])

/-- An enumeration after its word. -/
def enumerationRest : TokenReader Unit := do
  let _ ← name
  generics
  whereClause
  let _ ← within .brace <| repeatWhile (!·.isEmpty) do
    let _ ← outerAttributes
    let _ ← visibility
    let _ ← name
    if ← nextGroup .brace then namedFields
    else if ← nextGroup .paren then unnamedFields
    if ← optionalPunct "=" then skipExpression ','
    unless ← atEnd do punct ","

def useStarts : List String :=
  ["identifier", "`self`", "`super`", "`crate`", "`try`", "`*`", "curly braces"]

/-- What is brought into scope, below some depth of braces and paths. -/
def useTree : Nat → TokenReader Unit
  | 0 => skipAll
  | n + 1 => do
    match ← remaining with
    | .ident text _ :: rest =>
      if startsName [.ident text 0] || ["self", "super", "crate", "try"].contains text then do
        setRemaining rest
        if ← optionalPunct "::" then useTree n
        else if ← optionalWord "as" then
          match ← remaining with
          | .ident w _ :: rest =>
            if startsName [.ident w 0] || w == "_" then setRemaining rest
            else fail "expected identifier or underscore"
          | _ => fail "expected identifier or underscore"
      else failExpecting useStarts
    | tokens =>
      if startsPunct ['*'] tokens then advance 1
      else if startsGroup .brace tokens then
        let _ ← within .brace <| repeatWhile (!·.isEmpty) do
          let _ ← optionalPunct "::"
          useTree n
          unless ← atEnd do punct ","
      else failExpecting useStarts

/-- A constant after its word. -/
def constantRest : TokenReader Unit := do
  match ← remaining with
  | .ident text _ :: rest =>
    if startsName [.ident text 0] || text == "_" then setRemaining rest
    else failExpecting ["identifier", "`_`"]
  | _ => failExpecting ["identifier", "`_`"]
  generics
  punct ":"
  skipType
  if ← optionalPunct "=" then skipExpression ';'
  whereClause
  punct ";"

/-- A static variable after its word. -/
def staticRest : TokenReader Unit := do
  let _ ← optionalWord "mut"
  let _ ← name
  if ← optionalPunct "=" then
    skipExpression ';'
    punct ";"
  else
    punct ":"
    skipType
    unless ← optionalPunct ";" do
      punct "="
      skipExpression ';'
      punct ";"

/-- A type alias after its word. -/
def aliasRest : TokenReader Unit := do
  let _ ← name
  generics
  if ← optionalPunct ":" then
    skipUntil fun ts => startsPunct [';'] ts || startsPunct ['='] ts || startsWord "where" ts
  whereClause
  if ← optionalPunct "=" then skipType
  whereClause
  punct ";"

/-- A trait after its word; its inside holds no step definitions. -/
def traitRest : TokenReader Unit := do
  let _ ← name
  generics
  if ← optionalPunct "=" then
    skipUntil (startsPunct [';'])
    punct ";"
  else
    let tokens ← remaining
    unless startsGroup .brace tokens || startsColon tokens || startsWord "where" tokens do
      failExpecting ["curly braces", "`:`", "`where`", "`=`"]
    skipUntil fun ts => startsGroup .brace ts || startsPunct [';'] ts
    within .brace skipAll

/-- A call of a macro as an item. -/
def macroCall : TokenReader Unit := do
  let _ ← path
  punct "!"
  if startsName (← remaining) || (← nextWord "try") then advance 1
  match ← remaining with
  | .group d _ _ _ :: rest => do
    setRemaining rest
    unless d = .brace do punct ";"
  | _ => fail "expected delimiter"

/-- A definition of a macro after its word. -/
def macroRest : TokenReader Unit := do
  let _ ← name
  if ← nextGroup .paren then
    advance 1
    within .brace skipAll
  else if ← nextGroup .brace then advance 1
  else failExpecting ["parentheses", "curly braces"]

def itemStarts : List String :=
  ["`fn`", "`extern`", "`use`", "`static`", "`const`", "`unsafe`", "`mod`", "`type`", "`struct`",
    "`enum`", "`union`", "`trait`", "`auto`", "`impl`", "`default`", "`macro`"]

def callStarts : List String := ["identifier", "`self`", "`super`", "`crate`", "`::`"]

/-- Whether a path starts here that could name a macro. -/
def startsCall (tokens : List Token) : Bool :=
  startsName tokens || startsPunct [':', ':'] tokens
    || ["self", "super", "crate"].any fun w => startsWord w tokens

/-- One member of an implementation block; only functions with a body are kept. -/
def member : TokenReader (Option Function) := do
  let attributes ← outerAttributes
  let isPublic ← visibility
  let tokens ← remaining
  let hasDefault := startsWord "default" tokens && !startsPunct ['!'] tokens.tail
  if hasDefault then advance 1
  let tokens ← remaining
  if startsFunction tokens then functionRest attributes
  else do
    if ← optionalWord "const" then constantRest
    else if ← optionalWord "type" then aliasRest
    else if !isPublic && !hasDefault && startsCall tokens then macroCall
    else failExpecting ((if hasDefault then [] else ["`default`"]) ++ ["`fn`", "`const`", "`type`"]
      ++ if isPublic || hasDefault then [] else callStarts)
    return none

/-- Passes over parameters of an implementation block. A bracket can also open a path. -/
def implementationGenerics : TokenReader Unit := do
  match ← remaining with
  | .punct '<' _ _ :: .punct '>' _ _ :: _ => generics
  | .punct '<' _ _ :: .punct '#' _ _ :: _ => generics
  | .punct '<' _ _ :: .ident "const" _ :: _ => generics
  | .punct '<' _ _ :: .punct '\'' _ _ :: _ => generics
  | .punct '<' _ _ :: .ident _ _ :: .punct c _ _ :: _ =>
    if c == '>' || c == ',' || c == ':' || c == '=' then generics
  | _ => pure ()

/-- An implementation block after its word. One that the language does not know gives no
definitions. -/
def implementationRest (isPublic : Bool) : TokenReader Item := do
  implementationGenerics
  let isConst ← do
    let tokens ← remaining
    if startsPunct ['?'] tokens && startsWord "const" tokens.tail then
      advance 2
      pure true
    else optionalWord "const"
  if startsPunct ['!'] (← remaining) then advance 1
  skipType
  whereClause
  let methods ← within .brace do
    let _ ← innerAttributes
    repeatWhile (!·.isEmpty) member
  if isPublic || isConst then return .other
  return .implementation (methods.filterMap id)

/-- A module after its word, given a reader of its items. -/
def moduleRest (items : TokenReader (List Item)) : TokenReader Item := do
  if ← nextWord "try" then advance 1
  else
    let _ ← name
  if ← optionalPunct ";" then return .module []
  if ← nextGroup .brace then
    within .brace do
      let _ ← innerAttributes
      return .module (← items)
  else failExpecting ["`;`", "curly braces"]

/-- An item that starts with the word for foreign code. -/
def foreignRest : TokenReader Unit := do
  if ← optionalWord "crate" then
    unless ← optionalWord "self" do
      let _ ← name
    if ← optionalWord "as" then
      unless ← optionalWord "_" do
        let _ ← name
    punct ";"
  else if ← nextGroup .brace then within .brace skipAll
  else match ← remaining with
    | .text _ _ :: rest => do
      setRemaining rest
      if ← nextGroup .brace then within .brace skipAll else failExpecting ["curly braces"]
    | _ => failExpecting ["`crate`", "curly braces", "string literal"]

/-- One item, given a reader of the items of a module inside it. -/
def item (items : TokenReader (List Item)) : TokenReader Item := do
  let attributes ← outerAttributes
  let isPublic ← visibility
  let tokens ← remaining
  let other (r : TokenReader Unit) : TokenReader Item := do
    advance 1
    r
    return .other
  if startsFunction tokens then
    match ← functionRest attributes with
    | some f => return .function f
    | none => return .other
  else match tokens with
    | .ident "extern" _ :: _ => other foreignRest
    | .ident "use" _ :: rest => other do
      let _ ← optionalPunct "::"
      useTree (Token.weightAll rest + 1)
      punct ";"
    | .ident "static" _ :: _ => other staticRest
    | .ident "const" _ :: _ => other constantRest
    | .ident "unsafe" _ :: rest => do
      advance 1
      if startsWord "trait" rest then other traitRest
      else if startsWord "auto" rest && startsWord "trait" rest.tail then
        advance 1
        other traitRest
      else if startsWord "impl" rest then
        advance 1
        implementationRest isPublic
      else if startsWord "extern" rest then other foreignRest
      else if startsWord "mod" rest then
        advance 1
        moduleRest items
      else failExpecting ["`trait`", "`auto`", "`impl`", "`extern`", "`mod`"]
    | .ident "mod" _ :: _ => do
      advance 1
      moduleRest items
    | .ident "type" _ :: _ => other aliasRest
    | .ident "struct" _ :: _ => other structureRest
    | .ident "enum" _ :: _ => other enumerationRest
    | .ident "trait" _ :: _ => other traitRest
    | .ident "impl" _ :: _ => do
      advance 1
      implementationRest isPublic
    | .ident "macro" _ :: _ => other macroRest
    | _ =>
      if startsWord "union" tokens && startsName tokens.tail then
        other do
          let _ ← name
          generics
          whereClause
          namedFields
      else if startsWord "auto" tokens && startsWord "trait" tokens.tail then do
        advance 1
        other traitRest
      else if startsWord "default" tokens && !startsPunct ['!'] tokens.tail then do
        advance 1
        let _ ← optionalWord "unsafe"
        word "impl"
        implementationRest isPublic
      else if !isPublic && startsCall tokens then do
        macroCall
        return .other
      else failExpecting (itemStarts ++ if isPublic then [] else callStarts)

/-- Items up to the end, below some number of them and of modules inside each other. -/
def items : Nat → TokenReader (List Item)
  | 0 => return []
  | n + 1 => do
    if ← atEnd then return []
    let first ← item (items n)
    return first :: (← items n)

/-- The items of a source file. The end of the file is blamed on its first line, and a token left
over in brackets only if nothing else is wrong. -/
def readItems (tokens : List Token) : Except GlueError (List Item) := do
  let reader : TokenReader (List Item) := do
    let _ ← innerAttributes
    items (Token.weightAll tokens + 1)
  let (found, s) ← reader.run ⟨tokens, 1, none⟩
  match s.stray with
  | some e => .error e
  | none => .ok found

end StepGlue.Attribute
