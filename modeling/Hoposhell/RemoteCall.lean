import Hoposhell.ClientCommand
import Hoposhell.ErrorReport
import Hoposhell.MainConnect
import Hoposhell.ShellIdentity

/-!
# A command run on a remote shell

A client and the process of a remote shell, with the server between them: the server hands the
chunks of the request of the client to the shell, mixed with what other clients send, and hands
the answers under the id of the request back to the client.  The client then shows what the
command gives on the machine of the shell, with the arguments on its own command line.
-/

namespace Hoposhell

section Receive

variable {base64 : Base64.Engine} {json : Json.Codec} {zstd : Zstd.Codec}
  {commandTimeout startTime : ℕ} {req : Request} {response : Response} {frames : List Frame}
  {polls : List Poll}

/-- The reads of a client that is not disturbed carry the frames of a response. -/
structure Arrives (base64 : Base64.Engine) (commandTimeout startTime : ℕ)
    (response : Response) (polls : List Poll) : Prop where
  undisturbed : ∀ poll ∈ polls, poll.Undisturbed
  inTime : InTime commandTimeout startTime polls
  cut : ∃ frames : List Frame,
    (receivedData polls).flatten = frames.flatMap (Frame.bytes base64) ∧
      frames.filterMap Frame.message? = responseMessages response

/-- The receive loop ends with what the messages of the response give, however they are cut. -/
theorem Arrives.loop (arrives : Arrives base64 commandTimeout startTime response polls)
    (lawful : base64.Lawful) {parsed : Parsed} {turn : Turn}
    (collects : ∀ lists : List (List (Message MessageTypeToCmd)),
      lists.flatten = responseMessages response → collect json req lists [] = .ok parsed)
    (ends : parsed.outcome = some turn) :
    Receiving.loop base64 json commandTimeout req
      { bufStr := [], allRes := [], startTime, totalBytesReceived := 0 } polls = .ok turn := by
  rcases arrives.cut with ⟨frames, cut, framed⟩
  rw [← stream_map_good] at cut
  rcases separateReads_stream_frames lawful frames cut with ⟨lists, separated, whole⟩
  rw [framed] at whole
  have filled : ∀ messages ∈ lists, ∀ message ∈ messages, message.content.isSome := by
    intro messages messagesMem message mem
    have inResponse := List.mem_flatten_of_mem messagesMem mem
    rw [whole] at inResponse
    rcases List.mem_map.mp inResponse with ⟨content, _, rfl⟩
    rfl
  exact Receiving.loop_of_outcome arrives.undisturbed arrives.inTime separated filled
    (collects lists whole) ends

theorem Arrives.receive_ok (arrives : Arrives base64 commandTimeout startTime response polls)
    (lawful : base64.Lawful) (cmdFree : SlashFree response.cmd)
    (messageIdFree : SlashFree response.messageId) (awaited : response.messageId = req.messageId)
    (ok : response.statusCode = .ok) {payload : Bytes}
    (decompresses : zstd.decodeAll response.payload = some payload) :
    receiveResponse base64 json commandTimeout req zstd startTime polls =
      .ok (some (.ok { response with payload })) := by
  have collects : ∀ lists : List (List (Message MessageTypeToCmd)),
      lists.flatten = responseMessages response → collect json req lists [] =
        .ok { result := .reachedLastChunk, allRes := response.chunk, errorText := none } :=
    fun _ whole => collect_responseMessages json cmdFree messageIdFree awaited ok whole
  have loop : Receiving.loop base64 json commandTimeout req
      { bufStr := [], allRes := [], startTime, totalBytesReceived := 0 } polls =
      .ok (.reachedLastChunk response.chunk) :=
    arrives.loop lawful collects rfl
  simp only [receiveResponse, bind, Except.bind, loop, assembleResponse_chunk decompresses]

/-- Whatever the client makes of the error of a command, it goes on. -/
theorem exists_reportError (lawful : json.Lawful) (cmd msg : String) :
    ∃ errorText, reportError json ((errorPayload json cmd msg).take commandPayloadSize) =
      .ok errorText := by
  by_cases recognised : firstText json cmd msg = some (makeError msg)
  · exact ⟨_, reportError_of_recognised recognised⟩
  · have unread : firstText json cmd msg = none := by
      rw [recognised_iff lawful, not_and_or] at recognised
      rcases recognised with script | long
      · rw [not_not] at script
        rw [script, firstText_of_script lawful]
      · by_cases script : cmd = "scripts"
        · rw [script, firstText_of_script lawful]
        · exact firstText_of_long lawful script (by omega)
    rw [firstText, Option.bind_eq_none_iff] at unread
    rw [reportError]
    cases decoded : fromUtf8 ((errorPayload json cmd msg).take commandPayloadSize) with
    | none => exact ⟨none, rfl⟩
    | some errorBody => simp [unread errorBody decoded]

def parseError : CommandError where
  kind := .other
  message := "Unable to parse command response"

theorem Arrives.receive_failed (arrives : Arrives base64 commandTimeout startTime response polls)
    (lawful : base64.Lawful) (lawfulJson : json.Lawful) (cmdFree : SlashFree response.cmd)
    (messageIdFree : SlashFree response.messageId) (awaited : response.messageId = req.messageId)
    (failed : response.statusCode ≠ .ok) {msg : String}
    (payload : response.payload = errorPayload json response.cmd msg) :
    receiveResponse base64 json commandTimeout req zstd startTime polls =
      .ok (some (.error parseError)) := by
  rcases exists_first_chunk response with ⟨chunk, rest, chunks, first⟩
  have mem : chunk ∈ response.chunk := by simp [chunks]
  have own := ownChunk_of_mem_response cmdFree messageIdFree awaited mem
  have notOk : chunk.statusCode ≠ .ok := by
    rwa [(Response.header_of_mem_chunk mem).2.2]
  rcases exists_reportError lawfulJson response.cmd msg with ⟨errorText, reported⟩
  have collects : ∀ lists : List (List (Message MessageTypeToCmd)),
      lists.flatten = responseMessages response → collect json req lists [] =
        .ok { result := .error, allRes := [], errorText } := by
    intro lists whole
    rw [responseMessages, chunks] at whole
    rw [collect_failed whole own notOk, first, payload, reported]
    rfl
  have loop : Receiving.loop base64 json commandTimeout req
      { bufStr := [], allRes := [], startTime, totalBytesReceived := 0 } polls =
      .ok (.failed parseError) :=
    arrives.loop lawful collects rfl
  simp only [receiveResponse, bind, Except.bind, loop]

end Receive

/-- A message is served on a machine, with the same codecs as those of the client. -/
structure StdinEvent.ServedOn (zstd : Zstd.Codec) (config : ProcessConfig) (texts : BodyTexts)
    (event : StdinEvent) (around : Surroundings) : Prop where
  handlers : event.handlers = around.handlers
  zstd : event.zstd = zstd
  json : around.json = config.json
  hoposhellFolder : around.hoposhellFolder = config.hoposhellFolder
  reads : around.bodies.Reads texts

/-- The command does not panic on the machine, and its result can be compressed. -/
def Command.AnsweredOn (command : Command) (zstd : Zstd.Codec) (around : Surroundings) : Prop :=
  ∃ result, command.run around = .ok result ∧
    ∀ payload, result = .ok payload → (zstd.encodeAll payload).isSome = true

section Answer

variable {zstd : Zstd.Codec} {config : ProcessConfig} {texts : BodyTexts} {event : StdinEvent}
  {around : Surroundings} {messageId shellId : String} {command : Command}

/-- The response to a request on the machine where its command gives a result. -/
def answerOf (req : Request) (compressed : Bytes) : Except Bytes Bytes → Response
  | .ok _ =>
      { cmd := req.cmd, messageId := req.messageId, statusCode := .ok, payload := compressed }
  | .error payload =>
      { cmd := req.cmd, messageId := req.messageId, statusCode := .incorrectParams, payload }

theorem response?_of_servedOn (served : event.ServedOn zstd config texts around)
    (lawful : zstd.Lawful) {result : Except Bytes Bytes} (runs : command.run around = .ok result)
    (encodes : ∀ payload, result = .ok payload → (zstd.encodeAll payload).isSome = true) :
    ∃ compressed, (∀ payload, result = .ok payload → zstd.decodeAll compressed = some payload) ∧
      event.response? config.json config.hoposhellFolder
          (command.request texts messageId shellId) =
        some (answerOf (command.request texts messageId shellId) compressed result) := by
  have handled : event.handlers.responsePayload config.json
      (command.request texts messageId shellId) config.hoposhellFolder = result := by
    rw [served.handlers, ← served.json, ← served.hoposhellFolder, responsePayload_handlers,
      responsePayload_request served.reads, runs, returned]
  cases result with
  | ok payload =>
      rcases Option.isSome_iff_exists.mp (encodes payload rfl) with ⟨compressed, encoded⟩
      refine ⟨compressed, ?_, ?_⟩
      · rintro other same
        cases same
        exact lawful.decode_encode payload compressed encoded
      · simp only [StdinEvent.response?, handled, served.zstd, encoded, Option.map_some, answerOf]
  | error payload =>
      refine ⟨[], ?_, ?_⟩
      · rintro other same
        cases same
      · simp only [StdinEvent.response?, handled, answerOf]

end Answer

/-- How a client ends with a result. -/
def Command.finish {File : Type} (command : Command) (client : Client File)
    (format : OutputFormat) : Except CommandError Response → Except Panic (Option Printed)
  | .ok res => (command.showResult client format res.payload).map some
  | .error _ => .ok (some .exit)

/-- The words of a client name a command, its connection opens, and its writes succeed. -/
structure CommandRun.Sends {File : Type} (run : CommandRun) (client : Client File) (args : Args)
    (targetShellId id : String) (command : Command) : Prop where
  words : ∃ name words, args.extraArgs = targetShellId :: name :: words ∧ Names name words command
  isId : args.getShellId = some id
  connects : connectToHoposhell args run = true
  handshake : args.useSsl = true → run.handshake.isSome = true
  writes : ∀ n, (run.writes n).isOk = true

/-- The request of a run. -/
def CommandRun.request {File : Type} (run : CommandRun) (client : Client File) (id : String)
    (targetShellId : String) (command : Command) : Request :=
  command.request client.texts (id ++ ":" ++ run.randomId) targetShellId

/-- The process has nothing left to do for its clients. -/
structure ConnectProcess.Settled (process : ConnectProcess) : Prop where
  alive : process.stdinAlive = true
  toCmd : process.toCmd = []
  outbox : process.outbox = []
  held : process.shell.held = none
  channel : process.shell.channel = []

theorem ConnectProcess.settled_iff {process : ConnectProcess} :
    process.Settled ↔
      process.stdinAlive = true ∧ process.toCmd = [] ∧ process.outbox = [] ∧
        process.shell.held = none ∧ process.shell.channel = [] := by
  constructor
  · intro settled
    exact ⟨settled.alive, settled.toCmd, settled.outbox, settled.held, settled.channel⟩
  · rintro ⟨alive, toCmd, outbox, held, channel⟩
    exact ⟨alive, toCmd, outbox, held, channel⟩

instance (process : ConnectProcess) : Decidable process.Settled :=
  decidable_of_iff _ ConnectProcess.settled_iff.symm

/-- A run that has been computed to end with nothing left to do, but for its answers. -/
theorem ConnectProcess.exists_settled {config : ProcessConfig} {events : List ProcessEvent}
    {answers : List ChunkedResponse}
    (computed : ((Transition.run (ConnectProcess.step config) .start events).filter fun process =>
      process.Settled ∧
        responsesPut (ConnectProcess.commandsOf process.shell.forwarded) = answers).isSome) :
    ∃ process, Transition.run (ConnectProcess.step config) .start events = some process ∧
      process.Settled ∧
      responsesPut (ConnectProcess.commandsOf process.shell.forwarded) = answers := by
  rcases Option.isSome_iff_exists.mp computed with ⟨process, found⟩
  rcases Option.filter_eq_some_iff.mp found with ⟨reaches, settled⟩
  exact ⟨process, reaches, of_decide_eq_true settled⟩

section Call

variable {File : Type} {client : Client File} {args : Args} {run : CommandRun}
  {targetShellId id : String} {command : Command}

/-- Without failure the whole request is written, and the response is received. -/
theorem sendRequest_of_received {base64 : Base64.Engine} {json : Json.Codec} {zstd : Zstd.Codec}
    {commandTimeout startTime : ℕ} {version : String} {req : Request}
    {writes : ℕ → Except ErrorKind ℕ} {polls : List Poll} {result : Except CommandError Response}
    (succeed : ∀ n, (writes n).isOk = true)
    (received : receiveResponse base64 json commandTimeout req zstd startTime polls =
      .ok (some result)) :
    sendRequestAndGetResponse base64 json zstd commandTimeout version req writes startTime polls =
      .ok { written := req.chunk, outcome := .returned result } := by
  have header := succeed 0
  have sends : sendMessageToStream base64 (commandHeader version) (fun _ => writes 0) =
      writes 0 := rfl
  rw [sendRequestAndGetResponse, sends]
  cases wrote : writes 0 with
  | error kind => simp [wrote] at header
  | ok n =>
      simp only [received, bind, Except.bind, sendChunks_of_isOk fun i _ => succeed (1 + i)]

/-- A client that has received a result ends with it. -/
theorem mainCommand_of_received (sends : run.Sends client args targetShellId id command)
    {result : Except CommandError Response}
    (received : receiveResponse client.base64 client.json args.commandTimeout
      (run.request client id targetShellId command) client.zstd run.startTime run.polls =
        .ok (some result)) :
    mainCommand client args run = command.finish client args.format result := by
  rcases sends.words with ⟨name, words, extraArgs, names⟩
  have sent : sendRequestAndGetResponse client.base64 client.json client.zstd args.commandTimeout
      args.version (run.request client id targetShellId command) run.writes run.startTime
      run.polls =
        .ok
          { written := (run.request client id targetShellId command).chunk
            outcome := .returned result } :=
    sendRequest_of_received sends.writes received
  have first : index args.extraArgs 0 = .ok targetShellId := by
    rw [extraArgs]
    rfl
  have second : index args.extraArgs 1 = .ok name := by
    rw [extraArgs]
    rfl
  have rest : sliceFrom args.extraArgs 2 = .ok words := by
    rw [extraArgs]
    rfl
  rw [CommandRun.request] at sent
  simp only [mainCommand, first, second, rest, bind, Except.bind,
    prepareCommand_of_names sends.isId names, Command.prepared, sends.connects, if_true, sent]
  split_ifs with useSsl
  · rcases Option.isSome_iff_exists.mp (sends.handshake useSsl) with ⟨shaken, isSome⟩
    rw [isSome, unwrap]
    cases result <;> rfl
  · cases result <;> rfl

end Call

/--
The server hands the chunks of the request to the shell, between whatever else it sends, and
the answers under the id of the request to the client.
-/
structure Relayed (config : ProcessConfig) (events : List ProcessEvent) (process : ConnectProcess)
    (base64 : Base64.Engine) (req : Request) (polls : List Poll) : Prop where
  toShell : (requestChunks (((connectionReads events).flatMap
      (decodeReads config.connect.base64 [])).filterMap servedContent)).filter
    (fun chunk => chunk.messageId = req.messageId) = req.chunk
  toClient : ∃ frames : List Frame,
    (receivedData polls).flatten = frames.flatMap (Frame.bytes base64) ∧
      frames.filterMap Frame.message? =
        (((responsesPut (ConnectProcess.commandsOf process.shell.forwarded)).filter
          fun chunk => chunk.messageId = req.messageId).map (·.toMessagePayload)).map commandMessage

section Remote

variable {config : ProcessConfig} {events : List ProcessEvent} {process : ConnectProcess}
  {base64 : Base64.Engine} {req : Request} {polls : List Poll}

/-- The shell has answered the request at one of the messages it has taken. -/
theorem exists_answer (nonempty : req.payload ≠ [])
    (reaches : Transition.run (ConnectProcess.step config) .start events = some process)
    (relayed : Relayed config events process base64 req polls) (settled : process.Settled)
    (noFailure : Transition.Meets (Shell.step config.connect)
      (Shell.NoFailure ConnectProcess.isCommand) .start
      (events.flatMap ProcessEvent.shellEvents)) :
    ∃ event ∈ events.flatMap ProcessEvent.stdinEvents,
      SlashFree req.cmd ∧ SlashFree req.messageId ∧
        (responsesPut (ConnectProcess.commandsOf process.shell.forwarded)).filter
            (fun chunk => chunk.messageId = req.messageId) =
          event.answerTo config.json config.hoposhellFolder req := by
  have sent : (requestChunks (((connectionReads events).flatMap
      (decodeReads config.connect.base64 [])).filterMap servedContent)).filter
        (fun chunk => chunk.messageId = req.messageId) = [req].flatMap Request.chunk := by
    simpa using relayed.toShell
  rcases ConnectProcess.answers_of_run reaches (by simpa using nonempty) (by simp) sent
    settled.alive ⟨settled.toCmd, settled.outbox⟩ noFailure with ⟨completed, answers⟩
  rcases List.map_eq_singleton_iff.mp completed with ⟨item, only, rfl⟩
  have mem : item ∈ completionsOf item.2.messageId (events.flatMap ProcessEvent.stdinEvents) := by
    rw [only]
    exact List.mem_cons_self
  have free := slashFree_of_mem_completions (List.mem_of_mem_filter mem)
  have flow : process.shell.flow = process.shell.forwarded := by
    simp [Shell.flow, settled.held, settled.channel]
  refine ⟨item.1, ?_, free.1, free.2, ?_⟩
  · exact (completionsOf_sublist _ _).subset (List.mem_map_of_mem mem)
  · rw [← flow, answers, only, List.flatMap_singleton]

end Remote

section Shows

variable {File : Type} {client : Client File} {config : ProcessConfig}
  {events : List ProcessEvent} {process : ConnectProcess} {machine : StdinEvent → Surroundings}

structure Client.Lawful (client : Client File) : Prop where
  base64 : client.base64.Lawful
  zstd : client.zstd.Lawful
  json : client.json.Lawful

/-- A process that has served its clients, each message of theirs on a machine. -/
structure ConnectProcess.Serves (client : Client File) (config : ProcessConfig)
    (events : List ProcessEvent) (machine : StdinEvent → Surroundings)
    (process : ConnectProcess) : Prop where
  reaches : Transition.run (ConnectProcess.step config) .start events = some process
  settled : process.Settled
  noFailure : Transition.Meets (Shell.step config.connect)
    (Shell.NoFailure ConnectProcess.isCommand) .start
    (events.flatMap ProcessEvent.shellEvents)
  served : ∀ event ∈ events.flatMap ProcessEvent.stdinEvents,
    event.ServedOn client.zstd config client.texts (machine event)
  json : config.json = client.json

/-- What the client receives for the result of a command. -/
def receivedOf (req : Request) : Except Bytes Bytes → Except CommandError Response
  | .ok payload =>
      .ok { cmd := req.cmd, messageId := req.messageId, statusCode := .ok, payload }
  | .error _ => .error parseError

/-- What is received is what the command gives at one of the messages that the shell has taken. -/
theorem ConnectProcess.Serves.received {commandTimeout startTime : ℕ} {polls : List Poll}
    {command : Command} {messageId targetShellId : String} {req : Request}
    (serves : process.Serves client config events machine)
    (isRequest : command.request client.texts messageId targetShellId = req)
    (nonempty : req.payload ≠ [])
    (answered : ∀ event ∈ events.flatMap ProcessEvent.stdinEvents,
      command.AnsweredOn client.zstd (machine event))
    (relayed : Relayed config events process client.base64 req polls) (lawful : client.Lawful)
    (undisturbed : ∀ poll ∈ polls, poll.Undisturbed)
    (inTime : InTime commandTimeout startTime polls) :
    ∃ event ∈ events.flatMap ProcessEvent.stdinEvents, ∃ result,
      command.run (machine event) = .ok result ∧
        receiveResponse client.base64 client.json commandTimeout req client.zstd startTime polls =
          .ok (some (receivedOf req result)) := by
  rcases exists_answer nonempty serves.reaches relayed serves.settled serves.noFailure with
    ⟨event, mem, cmdFree, messageIdFree, answers⟩
  rcases answered event mem with ⟨result, runsTo, encodes⟩
  refine ⟨event, mem, result, runsTo, ?_⟩
  have here := serves.served event mem
  have made : ∃ compressed, (∀ payload, result = .ok payload →
        client.zstd.decodeAll compressed = some payload) ∧
      event.response? config.json config.hoposhellFolder req =
        some (answerOf req compressed result) := by
    rw [← isRequest]
    exact response?_of_servedOn here lawful.zstd runsTo encodes
  rcases made with ⟨compressed, decompresses, made⟩
  rcases relayed.toClient with ⟨frames, cut, framed⟩
  rw [answers, StdinEvent.answerTo, made, Option.elim_some] at framed
  have arrives : Arrives client.base64 commandTimeout startTime (answerOf req compressed result)
      polls :=
    ⟨undisturbed, inTime, frames, cut, framed⟩
  cases result with
  | ok payload =>
      exact arrives.receive_ok lawful.base64 cmdFree messageIdFree rfl rfl
        (decompresses payload rfl)
  | error error =>
      have failed : (machine event).responsePayload req = .ok (.error error) := by
        rw [← isRequest, responsePayload_request here.reads, runsTo]
      rcases exists_errorPayload failed with ⟨msg, isError⟩
      rw [here.json, serves.json] at isError
      have notOk : StatusCode.incorrectParams ≠ .ok := by decide
      exact arrives.receive_failed lawful.base64 lawful.json cmdFree messageIdFree rfl notOk isError

end Shows

/-- A machine whose files all have the same contents. -/
def fileMachine : Surroundings :=
  { refusing [] with
    system := { refusingSystem [] with isFile := fun _ => true, readFile := fun _ => some [120] }
    bodies := jsonBodies
    json := Json.textCodec
    hoposhellFolder := "" }

def fileProcess : ProcessConfig :=
  { localProcess with json := Json.textCodec }

def downloadCommand : Command :=
  .download "/x" (some "-")

def downloadCommandRequest : Request :=
  downloadCommand.request jsonTexts "shell_a:abcdefgh" "shell_b"

def downloadContent : Bytes :=
  (downloadCommandRequest.chunk.map (·.toMessagePayload)).flatten

def downloadCommandEvent : StdinEvent :=
  { echoEvent "download" Zstd.stored with
    message := { mtype := .command, content := some downloadContent }
    handlers := fileMachine.handlers }

def downloadAnswer : Response where
  cmd := "download"
  messageId := "shell_a:abcdefgh"
  statusCode := .ok
  payload := Zstd.storedFrame [120]

def answerContent : Bytes :=
  (downloadAnswer.chunk.map (·.toMessagePayload)).flatten

/-- The only chunk of the request is read, served and answered. -/
def downloadRun : List ProcessEvent :=
  [.connect, .handle (.write (.ok 12)), .handle (.getSize (some (24, 80))),
    .handle (.write (.ok 24)), .handle (.lockHistory []),
    .handle (.read (.ok ((Frame.message .command downloadContent).bytes Base64.standard))),
    .serve downloadCommandEvent, .respond answerContent,
    .handle (.recv (.msg
      { id := 0, message := { mtype := .command, content := some answerContent } })),
    .handle (.write (.ok 12))]

def downloadClient : Client Unit where
  json := Json.textCodec
  listing := { fileInfos := fun _ => none, toStringPretty := fun _ => "[]" }
  texts := jsonTexts
  machine :=
    { tree :=
        { kind := fun _ => .dir, entry := fun _ _ => none, root := (), cwd := ()
          root_isDir := rfl, cwd_isDir := rfl }
      write := fun data => .ok data.length
      writeFile := fun _ _ => true }
  base64 := Base64.standard
  zstd := Zstd.stored

def downloadArgs : Args :=
  homeArgs
    { command := .command, shellName := some "shell_a"
      extraArgs := ["shell_b", "download", "/x", "-"] } true

/-- The answer is read at once. -/
def downloadCommandRun : CommandRun where
  randomId := "abcdefgh"
  certificates := true
  connects := true
  handshake := some ()
  writes _ := .ok 44
  startTime := 0
  polls :=
    [{ checkedAt := 1, readAt := 1
       read := .ok ((Frame.message .command answerContent).bytes Base64.standard) }]

theorem downloadCommandRun_sends :
    downloadCommandRun.Sends downloadClient downloadArgs "shell_b" "shell_a" downloadCommand where
  words := ⟨"download", ["/x", "-"], rfl, .download "/x" ["-"]⟩
  isId := rfl
  connects := rfl
  handshake _ := rfl
  writes _ := rfl

theorem exists_downloadRun :
    ∃ process : ConnectProcess,
      process.Serves downloadClient fileProcess downloadRun (fun _ => fileMachine) ∧
      responsesPut (ConnectProcess.commandsOf process.shell.forwarded) = downloadAnswer.chunk := by
  have settles : ∃ process,
      Transition.run (ConnectProcess.step fileProcess) .start downloadRun = some process ∧
        process.Settled ∧
        responsesPut (ConnectProcess.commandsOf process.shell.forwarded) = downloadAnswer.chunk :=
    ConnectProcess.exists_settled (by decide +kernel)
  rcases settles with ⟨process, reaches, settled, answers⟩
  have served : ∀ event ∈ downloadRun.flatMap ProcessEvent.stdinEvents,
      event.ServedOn downloadClient.zstd fileProcess downloadClient.texts fileMachine := by
    intro event mem
    obtain rfl : event = downloadCommandEvent := by
      simpa [downloadRun, ProcessEvent.stdinEvents] using mem
    exact ⟨rfl, rfl, rfl, rfl, jsonBodies_reads⟩
  exact ⟨process, ⟨reaches, settled, by decide +kernel, served, rfl⟩, answers⟩

theorem downloadClient_lawful : downloadClient.Lawful :=
  ⟨Base64.standard_lawful, Zstd.stored_lawful, Json.textCodec_lawful⟩

end Hoposhell
