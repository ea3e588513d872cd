import Hoposhell.CommandHistory
import Hoposhell.Library.Json
import Hoposhell.Library.Zstd

/-!
# Processing a command on the remote shell

`CommandProcessor::process_msg` feeds a message to the history and answers a request
once it is complete.  What a command does is a parameter: the record `Handlers` holds
the function of each command, and the compressor and the JSON library are the codecs
of `Zstd` and `Json`.
-/

namespace Hoposhell

def makeError (msg : String) : Json.Value :=
  .object [("error", .string msg)]

def makeErrorBytes (json : Json.Codec) (msg : String) : Bytes :=
  asBytes (json.toString (makeError msg))

structure Handlers where
  ls : Bytes → Except Bytes Bytes
  download : Bytes → Except Bytes Bytes
  glob : Bytes → Except Bytes Bytes
  http : Bytes → Except Bytes Bytes
  tcp : Bytes → Except Bytes Bytes
  scripts : Bytes → String → Except Bytes Bytes

/-- The payload of the response, chosen by the name of the command. -/
def Handlers.responsePayload (handlers : Handlers) (json : Json.Codec) (req : Request)
    (hoposhellFolder : String) : Except Bytes Bytes :=
  if req.cmd = "ls" then handlers.ls req.payload
  else if req.cmd = "download" then handlers.download req.payload
  else if req.cmd = "glob" then handlers.glob req.payload
  else if req.cmd = "http" then handlers.http req.payload
  else if req.cmd = "tcp" then handlers.tcp req.payload
  else if req.cmd = "scripts" then handlers.scripts req.payload hoposhellFolder
  else .error (makeErrorBytes json "Unknown command")

structure CommandProcessor where
  history : CommandHistory

namespace CommandProcessor

def new : CommandProcessor where
  history := .new

/--
`CommandProcessor::process_msg`.  A payload that cannot be compressed has no response,
so the internal error the source keeps for a missing payload never is one.
-/
def processMsg (handlers : Handlers) (json : Json.Codec) (zstd : Zstd.Codec)
    (commands : CommandProcessor) (msg : Bytes) (hoposhellFolder : String) :
    Option Response × CommandProcessor :=
  let (cmd, history) := commands.history.append msg
  let response : Option Response :=
    match cmd with
    | .request req =>
        match handlers.responsePayload json req hoposhellFolder with
        | .ok payload =>
            match zstd.encodeAll payload with
            | some payload =>
                some
                  { messageId := req.messageId, statusCode := .ok, cmd := req.cmd,
                    payload := payload }
            | none => none
        | .error payload =>
            some
              { messageId := req.messageId, statusCode := .incorrectParams, cmd := req.cmd,
                payload := payload }
    | .response _ => none
    | .none => none
  (response, { commands with history })

/-- A result of the handler is answered, compressed, under the id and command of the request. -/
theorem processMsg_ok {handlers : Handlers} {json : Json.Codec} {zstd : Zstd.Codec}
    {commands : CommandProcessor} {msg payload : Bytes} {hoposhellFolder : String}
    {request : Request} {response : Response}
    (completes : (commands.history.append msg).1 = .request request)
    (handled : handlers.responsePayload json request hoposhellFolder = .ok payload)
    (built : (processMsg handlers json zstd commands msg hoposhellFolder).1 = some response) :
    ∃ compressed, zstd.encodeAll payload = some compressed ∧
      response =
        { messageId := request.messageId, statusCode := .ok, cmd := request.cmd,
          payload := compressed } := by
  simp only [processMsg, completes, handled] at built
  split at built
  · rename_i compressed encoded
    cases built
    exact ⟨compressed, encoded, rfl⟩
  · cases built

end CommandProcessor

end Hoposhell
