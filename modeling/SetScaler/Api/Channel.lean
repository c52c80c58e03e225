import SetScaler.Api.Http
import SetScaler.Api.Path
import SetScaler.Api.Resource
import SetScaler.Text.Utf8

/-!
Commands in pods, carried out over a channel of messages. The first byte of a message says which
stream the rest belongs to; the command ends when its outcome arrives or the server closes the
channel.
-/

namespace SetScaler.Api

inductive Message where
  | binary (bytes : List UInt8)
  | text (content : String)
  /-- The connection is gone without having been closed. -/
  | lost
deriving Repr

/-- The streams of a command that are listened to. -/
def outputStream : UInt8 := 1

/-- The stream on which the outcome of the command arrives, once. -/
def outcomeStream : UInt8 := 3

structure ExecRequest where
  ns : String
  pod : String
  container : String
  command : List String
deriving Repr

namespace ExecRequest

/-- The request that opens the channel. -/
def http (request : ExecRequest) : HttpRequest :=
  { method := .get
    path := execPath request.ns request.pod
    query := request.command.map (fun word => ("command", word)) ++
      [("container", request.container), ("stderr", "true"), ("stdout", "true")] }

def isSendable (request : ExecRequest) : Bool :=
  !request.pod.isEmpty && request.http.path.toList.all isPathChar

end ExecRequest

/-- Whether bytes are the outcome of a command. -/
def isOutcomeText (bytes : List UInt8) : Bool :=
  match String.fromUTF8? (ByteArray.mk bytes.toArray) with
  | none => false
  | some text => (Json.read? text).any isOutcome

/-- The output of a command from the messages that arrive, and `none` when the channel breaks. The
outcome itself does not matter: the command says in its output whether it succeeded. -/
def outputOf : List Message → Option (List UInt8)
  | [] => some []
  | .lost :: _ => none
  | .text _ :: rest => outputOf rest
  | .binary (stream :: first :: payload) :: rest =>
    if stream = outputStream then (outputOf rest).map (first :: payload ++ ·)
    else if stream = outcomeStream then
      if isOutcomeText (first :: payload) then some [] else none
    else outputOf rest
  | .binary _ :: rest => outputOf rest

inductive ChannelError where
  | notOpened
  | broken
deriving DecidableEq, Repr

def ChannelError.message : ChannelError → String
  | notOpened => "failed to open exec channel"
  | broken => "exec channel failed"

/-- Runs a command on a server that opens a channel and sends messages on it, or opens none: what is
sent to the server, and the output as text. -/
def ExecRequest.run (server : HttpRequest → Option (List Message)) (request : ExecRequest) :
    List HttpRequest × Except ChannelError String :=
  if request.isSendable then
    ([request.http], match server request.http with
      | none => .error .notOpened
      | some messages =>
        match outputOf messages with
        | none => .error .broken
        | some bytes => .ok (Text.decode bytes))
  else ([], .error .notOpened)

end SetScaler.Api
