import StepGlue.Decode
import StepGlue.Server.Basic

/-! What a client says to a server, and how the server answers. -/

namespace StepGlue

/-- The folders that a client opens with; a client without folders may name a root. -/
structure InitializeParams where
  folders : Option (List Url) := none
  root : Option Url := none
deriving DecidableEq, Repr

/-- A message from the client. -/
inductive ClientMessage
  | initialise (params : InitializeParams)
  | initialised
  | save (uri : Url) (text : Option String)
  | execute (command : String) (arguments : List Json)
  | shutdown

/-- What is wrong with the argument of a command. -/
inductive ArgumentError
  | notAString
  | notAUri (text : String) (cause : UrlError)
  | notAFile (text : String)
deriving DecidableEq, Repr

/-- Why a request is refused. -/
inductive RequestError
  | alreadyInitialised
  | unknownCommand (name : String)
  | invalidArguments (cause : ArgumentError)
deriving DecidableEq, Repr

/-- The command that looks at a feature again. -/
def recalculateCommand : String := "cuke-glue.recalculateSteps"

def ArgumentError.message : ArgumentError → String
  | .notAString => "expected a file URI string"
  | .notAUri text cause => "invalid URI '" ++ text ++ "': " ++ cause.message
  | .notAFile text => "'" ++ text ++ "' is not a file URI"

namespace RequestError

def message : RequestError → String
  | .alreadyInitialised => "server already initialised"
  | .unknownCommand name => "unknown command '" ++ name ++ "'"
  | .invalidArguments cause =>
    "invalid arguments for command '" ++ recalculateCommand ++ "': " ++ cause.message

/-- The number of an error in the protocol: an invalid request, or invalid parameters. -/
def code : RequestError → Int
  | .alreadyInitialised => -32600
  | .unknownCommand _ => -32602
  | .invalidArguments _ => -32602

end RequestError

/-- The path of the file that the arguments of the command name. -/
def recalculateTarget : List Json → Except ArgumentError String
  | .str text :: _ => match Url.parse text with
    | .error e => .error (.notAUri text e)
    | .ok url => match url.filePath? with
      | some path => .ok path
      | none => .error (.notAFile text)
  | _ => .error .notAString

def serverName : String := "cuke-glue-lsp"

def serverVersion : String := "0.1.0"

/-- What the server tells about itself: builds follow saves, for which it asks for the text. -/
def greeting : Json :=
  .obj [
    ("capabilities", .obj [
      ("textDocumentSync", .obj [
        ("openClose", .bool true),
        ("change", .int 0),
        ("save", .obj [("includeText", .bool true)])]),
      ("executeCommandProvider", .obj [("commands", .arr [.str recalculateCommand])])]),
    ("serverInfo", .obj [("name", .str serverName), ("version", .str serverVersion)])]

/-- The paths at which a client wants projects: its folders, or its root if there are none that
are files. -/
def projectPaths (folders : List Url) (root : Option Url) : List String :=
  match folders.filterMap Url.filePath? with
  | [] => (root.bind Url.filePath?).toList
  | paths => paths

/-- What comes of a message: the new state, the answer, and what the client is told besides. -/
structure Reaction where
  server : Server
  tree : FileTree
  answer : Except RequestError Json := .ok .null
  published : List Publication := []

namespace Server

def initialise (s : Server) (params : InitializeParams) : Except RequestError Server :=
  if s.initialised then .error .alreadyInitialised
  else
    let s := { s with hasCapabilities := true, folders := params.folders.getD s.folders }
    .ok ((projectPaths s.folders params.root).foldl (fun s p => s.openProject (.ofPath p)) s)

/-- Builds all projects from scratch. -/
def start (s : Server) (t : FileTree) : Server :=
  s.roots.foldl (fun s root => s.build t .full root) { s with initialised := true }

/-- Builds the project of a saved file, if builds read such files; the saved text stands in for
what is on disk. Says whether there was a build. -/
def save (s : Server) (t : FileTree) (path : String) (text : Option String) : Server × Bool :=
  let file := FileId.ofPath path
  let root := s.rootFor t path
  let s := s.openProject root
  let isSource := file.isFeature
    || (s.projects.get? root).any fun p => p.workspace.isGlueFile (pathSegments path)
  if isSource then
    let s := match text with
      | some text => s.updateWorkspace root fun w => w.setOverlay file text
      | none => s
    (s.build t .incremental root, true)
  else (s, false)

/-- Carries out a message. -/
def handle (s : Server) (t : FileTree) : ClientMessage → Reaction
  | .initialise params => match s.initialise params with
    | .ok s => { server := s, tree := t, answer := .ok greeting }
    | .error e => { server := s, tree := t, answer := .error e }
  | .initialised =>
    let (s, published) := (s.start t).publish t
    { server := s, tree := t, published }
  | .save uri text => match uri.filePath? with
    | none => { server := s, tree := t }
    | some path => match s.save t path text with
      | (s, false) => { server := s, tree := t }
      | (s, true) =>
        let (s, published) := s.publish t
        { server := s, tree := t, published }
  | .execute command arguments =>
    if command = recalculateCommand then
      match recalculateTarget arguments with
      | .error e => { server := s, tree := t, answer := .error (.invalidArguments e) }
      | .ok path =>
        let root := s.rootFor t path
        let (s, t, report) := (s.openProject root).recalculate t root (.ofPath path)
        let (s, published) := s.publish t
        { server := s, tree := t, published,
          answer := .ok ((report.map BuildReport.toJson).getD .null) }
    else { server := s, tree := t, answer := .error (.unknownCommand command) }
  | .shutdown => { server := s, tree := t }

end Server

end StepGlue
