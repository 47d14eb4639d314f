import StepGlue.Session.Message
import StepGlue.Session.Params

/-! A session: one client, from its first message to the end of the connection.

Requests are only let through between the opening and the shutdown. What a request causes is
told after its answer, and before the next message is looked at. -/

namespace StepGlue

/-- How far a session has come. -/
inductive Phase
  | waiting | opening | ready | closing
deriving DecidableEq, Repr

structure Session where
  phase : Phase := .waiting
  server : Server := {}
  tree : FileTree := {}

/-- What comes of a message: the new state, what is sent, and whether the session ends with some
exit code. -/
structure Turn where
  session : Session
  sent : List Json := []
  exit : Option Nat := none

namespace Session

/-- The code of a session that ends as it should. -/
def success : Nat := 0

/-- The code of a session that breaks off. -/
def failure : Nat := 1

/-- Whether a phase lets a request through, and to which phase it then leads. -/
def phaseAfter (phase : Phase) (method : String) : Except Fault Phase :=
  match phase with
  | .waiting =>
    if method = "initialize" then .ok .opening
    else .error ⟨-32002, "Server is not initialized yet"⟩
  | .opening => .error ⟨-32002, "Server is not initialized yet"⟩
  | .ready =>
    if method = "initialize" then .error ⟨-32600, "Server is already initialized"⟩
    else .ok (if method = "shutdown" then .closing else .ready)
  | .closing => .error ⟨-32600, "Server is shutting down"⟩

/-- The message that a request stands for. -/
def readRequest (method : String) (params : Json) : Except Fault ClientMessage :=
  let read {α : Type} (r : Except ParamsError α) (f : α → ClientMessage) :
      Except Fault ClientMessage :=
    match r with
    | .ok a => .ok (f a)
    | .error e => .error ⟨-32602, "Failed to deserialize parameters: " ++ e.message⟩
  match method with
  | "initialize" => read (InitializeParams.ofJson params) .initialise
  | "workspace/executeCommand" => read (readCommand params) fun (c, args) => .execute c args
  | "shutdown" => read (Json.readNothing params) fun _ => .shutdown
  | _ => .error ⟨-32601, "No such method " ++ method⟩

def publicationJson (p : Publication) : Json :=
  notificationJson "textDocument/publishDiagnostics" p.toJson

/-- Answers a request. -/
def request (s : Session) (id : Json) (method : String) (params : Json) : Turn :=
  match phaseAfter s.phase method with
  | .error e => { session := s, sent := [answerJson id (.error e)] }
  | .ok phase =>
    let s := { s with phase }
    match readRequest method params with
    | .error e => { session := s, sent := [answerJson id (.error e)] }
    | .ok m =>
      let r := s.server.handle s.tree m
      let answer := r.answer.mapError fun e => (⟨e.code, e.message⟩ : Fault)
      { session := { s with server := r.server, tree := r.tree }
        sent := answerJson id answer :: r.published.map publicationJson }

/-- Passes a notification on. -/
def pass (s : Session) (m : ClientMessage) : Turn :=
  let r := s.server.handle s.tree m
  { session := { s with server := r.server, tree := r.tree }
    sent := r.published.map publicationJson }

/-- Breaks off unless the parameters of a notification can be read. -/
def reading {α : Type} (s : Session) (params : Except ParamsError α) (next : α → Turn) : Turn :=
  match params with
  | .ok a => next a
  | .error _ => { session := s, exit := some failure }

/-- Takes a notification. Unknown ones break the session off, unless their names show that they
may be ignored. -/
def notification (s : Session) (method : String) (params : Json) : Turn :=
  match method with
  | "initialized" =>
    if s.phase = .opening then
      s.reading (params.readObject "struct InitializedParams") fun _ =>
        { s with phase := .ready }.pass .initialised
    else { session := s, exit := some failure }
  | "textDocument/didSave" =>
    s.reading (readSave params) fun (uri, text) => s.pass (.save uri text)
  | "textDocument/didOpen" | "textDocument/didChange" | "textDocument/didClose" =>
    s.reading (readDocument params) fun _ => { session := s }
  | "exit" =>
    s.reading params.readNothing fun _ => { session := s, exit := some success }
  | _ =>
    if "$/".toList.isPrefixOf method.toList then { session := s }
    else { session := s, exit := some failure }

/-- Takes a message. One that cannot be understood breaks the session off. -/
def receive (s : Session) (message : Json) : Turn :=
  match WireMessage.ofJson? message with
  | some (.request id method params) => s.request id method params
  | some (.notification method params) => s.notification method params
  | some .answer => { session := s }
  | none => { session := s, exit := some failure }

/-- Takes messages until one ends the session; a connection that just ends is a failure. -/
def run (s : Session) : List Json → List Json × Nat
  | [] => ([], failure)
  | m :: rest =>
    let turn := s.receive m
    match turn.exit with
    | some code => (turn.sent, code)
    | none =>
      let (sent, code) := turn.session.run rest
      (turn.sent ++ sent, code)

end Session

end StepGlue
