import StepGlue.Server.Message

/-! The parameters of messages. -/

namespace StepGlue

/-- Why parameters cannot be read. -/
inductive ParamsError
  | wrongType (found : Json) (expected : String)
  | missing (field : String)
  | url (text : String) (cause : UrlError)

/-- A text in quotation marks, with quotation marks, backslashes and controls escaped. -/
def quoted (s : String) : String :=
  let escape (c : Char) : List Char :=
    if c = '"' then ['\\', '"']
    else if c = '\\' then ['\\', '\\']
    else if c = '\n' then ['\\', 'n']
    else if c = '\r' then ['\\', 'r']
    else if c = '\t' then ['\\', 't']
    else if c = '\x00' then ['\\', '0']
    else if c.toNat < 32 ∨ c.toNat = 127 then
      ['\\', 'u', '\x7b'] ++ Nat.toDigits 16 c.toNat ++ ['\x7d']
    else [c]
  "\"" ++ String.ofList (s.toList.flatMap escape) ++ "\""

/-- How a value is named in an error. -/
def Json.describe : Json → String
  | .null => "null"
  | .bool b => "boolean `" ++ (if b then "true" else "false") ++ "`"
  | .int n => "integer `" ++ toString n ++ "`"
  | .real text => "floating point `" ++ text ++ "`"
  | .str s => "string " ++ quoted s
  | .arr _ => "sequence"
  | .obj _ => "map"

def ParamsError.message : ParamsError → String
  | .wrongType found expected => "invalid type: " ++ found.describe ++ ", expected " ++ expected
  | .missing field => "missing field `" ++ field ++ "`"
  | .url text cause => cause.message ++ ": " ++ quoted text

namespace Json

def readUrl : Json → Except ParamsError Url
  | .str text => match Url.parse text with
    | .ok url => .ok url
    | .error e => .error (.url text e)
  | j => .error (.wrongType j "a string representing an URL")

def readText : Json → Except ParamsError String
  | .str s => .ok s
  | j => .error (.wrongType j "a string")

def readObject (expected : String) : Json → Except ParamsError Json
  | .obj fields => .ok (.obj fields)
  | j => .error (.wrongType j expected)

def readArray : Json → Except ParamsError (List Json)
  | .arr items => .ok items
  | j => .error (.wrongType j "a sequence")

/-- A field that has to be there. -/
def readField {α : Type} (j : Json) (name : String) (read : Json → Except ParamsError α) :
    Except ParamsError α :=
  match j.field? name with
  | some v => read v
  | none => .error (.missing name)

/-- A field that may be absent or null. -/
def readOptional {α : Type} (j : Json) (name : String) (read : Json → Except ParamsError α) :
    Except ParamsError (Option α) :=
  match j.field? name with
  | none => .ok none
  | some .null => .ok none
  | some v => (read v).map some

/-- Parameters of a message that has none. -/
def readNothing : Json → Except ParamsError Unit
  | .null => .ok ()
  | j => .error (.wrongType j "unit")

end Json

open Json

/-- A folder of the client. -/
def readFolder (j : Json) : Except ParamsError Url := do
  let j ← readObject "struct WorkspaceFolder" j
  let _ ← readOptional j "name" readText
  let url ← readField j "uri" readUrl
  let _ ← readField j "name" readText
  return url

/-- Fields are read in the order of their names, and then looked for. -/
def InitializeParams.ofJson (j : Json) : Except ParamsError InitializeParams := do
  let j ← readObject "struct InitializeParams" j
  match j.field? "capabilities" with
  | some c => let _ ← readObject "struct ClientCapabilities" c
  | none => pure ()
  let root ← readOptional j "rootUri" readUrl
  let folders ← readOptional j "workspaceFolders" fun v => do (← readArray v).mapM readFolder
  let _ ← readField j "capabilities" (readObject "struct ClientCapabilities")
  return { folders, root }

/-- A command and its arguments. -/
def readCommand (j : Json) : Except ParamsError (String × List Json) := do
  let j ← readObject "struct ExecuteCommandParams" j
  let arguments ← match j.field? "arguments" with
    | some v => readArray v
    | none => pure []
  let command ← readField j "command" readText
  return (command, arguments)

/-- The document that a notification is about. -/
def readDocument (j : Json) : Except ParamsError Url :=
  readField j "textDocument" fun d => readField d "uri" readUrl

/-- A saved document and its text. -/
def readSave (j : Json) : Except ParamsError (Url × Option String) := do
  return (← readDocument j, ← readOptional j "text" readText)

end StepGlue
