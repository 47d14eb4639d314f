import StepGlue.Session.Basic
import StepGlue.Text.Units

/-! Messages on a stream of bytes: each has its length in front of it. -/

namespace StepGlue

/-- A message as it is sent. -/
def frame (message : Json) : String :=
  let text := message.write
  "Content-Length: " ++ toString (byteLength text) ++ "\r\n\r\n" ++ String.ofList text

/-- The length that a header line announces, if it is about the length. -/
def contentLength? (line : String) : Option Nat :=
  let name := "content-length:".toList
  let chars := line.toList
  if (chars.take name.length).map lowerAscii = name then
    digitsValue (trim (chars.drop name.length))
  else none

/-- The file and the text of a document that a message shows: one that is opened or saved. -/
def shownDocument? (message : Json) : Option (FileId × String) := do
  let params ← message.field? "params"
  let document ← params.field? "textDocument"
  let path ← ((← (document.field? "uri").bind Json.string?) |> Url.parse).toOption.bind
    Url.filePath?
  let text ← ((document.field? "text").bind Json.string?).or
    ((params.field? "text").bind Json.string?)
  return (FileId.ofPath path, text)

/-- Takes a document that a message shows into the file tree, so that later builds find it. -/
def Session.noteDocument (s : Session) (message : Json) : Session :=
  match shownDocument? message with
  | some (file, text) =>
    let now := s.tree.clock + 1
    { s with tree := { s.tree.write file.segments text.toUTF8 now with clock := now } }
  | none => s

end StepGlue
