import StepGlue.CommandLine
import StepGlue.Json.Reader
import StepGlue.Session.Frame

/-! The program: a session on standard input and output. Its files are the documents that the
client shows to it. -/

namespace StepGlue

/-- The variables that settings are read from. -/
def settingNames : List String :=
  ["CUKE_GLUE_LSP_LOG_LEVEL", "CUKE_GLUE_LSP_REPORT_MATCHES", "CUKE_GLUE_LSP_MAX_FILE_BYTES"]

/-- Reads a number of bytes, or as many as there are. -/
def readBytes (input : IO.FS.Stream) (count : Nat) : IO ByteArray := do
  let mut bytes := ByteArray.empty
  while bytes.size < count do
    let more ← input.read (USize.ofNat (count - bytes.size))
    if more.isEmpty then break
    bytes := bytes ++ more
  return bytes

/-- Reads the header of a message up to the empty line, and the length that it announces. -/
def readHeader (input : IO.FS.Stream) : IO (Option Nat) := do
  let mut length := none
  repeat
    let line ← input.getLine
    if line.isEmpty then return none
    if (trim line.toList).isEmpty then break
    length := (contentLength? line).or length
  return length

/-- Reads a message; `none` at the end of the input or where it cannot be understood. -/
def readMessage (input : IO.FS.Stream) : IO (Option Json) := do
  match ← readHeader input with
  | none => return none
  | some length =>
    let bytes ← readBytes input length
    return (String.fromUTF8? bytes).bind Json.read

/-- Serves a client until it leaves. -/
def serve (config : Config) : IO UInt32 := do
  let input ← IO.getStdin
  let output ← IO.getStdout
  let mut session : Session := { server := { config } }
  repeat
    match ← readMessage input with
    | none => break
    | some message =>
      let turn := (session.noteDocument message).receive message
      for sent in turn.sent do
        output.putStr (frame sent)
      output.flush
      if let some code := turn.exit then return code.toUInt32
      session := turn.session
  return Session.failure.toUInt32

end StepGlue

open StepGlue

/-- Starts the server, or says what the arguments ask for. -/
def main (args : List String) : IO UInt32 := do
  let values ← settingNames.mapM fun name => return (name, ← IO.getEnv name)
  match Launch.ofArguments args fun name => (values.lookup name).join with
  | .quit code output =>
    (← IO.getStdout).putStr output
    return code.toUInt32
  | .serve config => serve config
