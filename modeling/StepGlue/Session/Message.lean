import StepGlue.Decode
import StepGlue.Text.Word

/-! The messages of a session: requests, notifications and answers, as JSON objects. -/

namespace StepGlue

/-- A message of the client. An answer of the client is about nothing the server has asked. -/
inductive WireMessage
  | request (id : Json) (method : String) (params : Json)
  | notification (method : String) (params : Json)
  | answer

/-- Whether a value names a request: a text, or a 32-bit number. -/
def Json.isRequestId : Json → Bool
  | .str _ => true
  | .int n => -(word32 / 2 : Nat) ≤ n && n < (word32 / 2 : Nat)
  | _ => false

/-- Reads a message. What has a method is a request if it has a name, and what has a name but no
method is an answer. -/
def WireMessage.ofJson? (j : Json) : Option WireMessage :=
  let params := (j.field? "params").getD .null
  let id := (j.field? "id").filter Json.isRequestId
  match j.field? "jsonrpc" with
  | some (.str "2.0") =>
    match (j.field? "method").bind Json.string?, id with
    | some method, some id => some (.request id method params)
    | some method, none => some (.notification method params)
    | none, some _ => some .answer
    | none, none => none
  | _ => none

/-- Why a request of a session fails. -/
structure Fault where
  code : Int
  message : String
deriving DecidableEq, Repr

/-- The answer to a request. -/
def answerJson (id : Json) : Except Fault Json → Json
  | .ok result => .obj [("jsonrpc", .str "2.0"), ("id", id), ("result", result)]
  | .error e => .obj [("jsonrpc", .str "2.0"), ("id", id),
      ("error", .obj [("code", .int e.code), ("message", .str e.message), ("data", .null)])]

def notificationJson (method : String) (params : Json) : Json :=
  .obj [("jsonrpc", .str "2.0"), ("method", .str method), ("params", params)]

end StepGlue
