import Hoposhell.CommandSafety
import Hoposhell.Library.JsonText
import Hoposhell.ReceiveResponse
import Hoposhell.Serialization

/-!
# The report of an error

A command that fails on the remote shell answers with a JSON object that holds the text
of its error, and the client looks for that object in the first chunk that is not `Ok`.
It is there, and its text is the one reported, exactly when the error has no prefix and
fits a single chunk.
-/

namespace Hoposhell

/-- The payload of the error of a command. -/
def errorPayload (json : Json.Codec) (cmd msg : String) : Bytes :=
  if cmd = "scripts" then makeErrorBytesWithPrefix json [0, 0, 0, 1] msg
  else makeErrorBytes json msg

section Handlers

variable {around : Surroundings} {system : System} {bodies : RequestBodies} {json : Json.Codec}
  {req : Request} {payload error : Bytes}

theorem exists_msg_of_listFiles {noPath invalid : String} {nameOf : Bytes → Except Panic String}
    {error : Json.Value}
    (failed : listFiles system noPath invalid nameOf payload = .ok (.error error)) :
    ∃ msg, error = makeError msg := by
  rw [listFiles] at failed
  cases read : maybeString (some payload) with
  | none =>
      simp only [read] at failed
      cases failed
      exact ⟨_, rfl⟩
  | some pattern =>
      cases matched : system.glob (system.tilde pattern) with
      | error =>
          simp only [read, matched] at failed
          cases failed
          exact ⟨_, rfl⟩
      | ok entries =>
          cases listed : entries.mapM (entryInfos nameOf) <;>
            simp [read, matched, listed, bind, Except.bind] at failed

/-- The error of a listing, printed. -/
theorem exists_msg_of_listing {result : Except Panic (Except Json.Value Json.Value)}
    (made : ∀ value, result = .ok (.error value) → ∃ msg, value = makeError msg)
    (failed : (result.map fun result =>
      (result.map fun value => asBytes (json.toString value)).mapError fun value =>
        asBytes (json.toString value)) = .ok (.error error)) :
    ∃ msg, error = makeErrorBytes json msg := by
  cases result with
  | error panic => cases failed
  | ok result =>
      cases result with
      | ok value => cases failed
      | error value =>
          cases failed
          rcases made value rfl with ⟨msg, rfl⟩
          exact ⟨msg, rfl⟩

theorem exists_msg_of_download
    (failed : processDownloadCommand system json payload = .ok (.error error)) :
    ∃ msg, error = makeErrorBytes json msg := by
  rw [processDownloadCommand] at failed
  cases filePath : maybeString (some payload) with
  | none =>
      simp only [filePath] at failed
      cases failed
      exact ⟨_, rfl⟩
  | some filePath' =>
      simp only [filePath, fromUtf8_asBytes, unwrap, bind, Except.bind] at failed
      split at failed
      · split at failed
        · cases failed
        · cases failed
          exact ⟨_, rfl⟩
      · cases failed
        exact ⟨_, rfl⟩

theorem exists_msg_of_httpResult {response : Option (Option Bytes)}
    (failed : httpResult json response = .error error) : ∃ msg, error = makeErrorBytes json msg := by
  match response with
  | some (some contents) => cases failed
  | some none =>
      cases failed
      exact ⟨_, rfl⟩
  | none =>
      cases failed
      exact ⟨_, rfl⟩

theorem exists_msg_of_http
    (failed : processHttpCommand system bodies json payload = .ok (.error error)) :
    ∃ msg, error = makeErrorBytes json msg := by
  rw [processHttpCommand] at failed
  split at failed
  · cases failed
    exact ⟨_, rfl⟩
  split at failed
  · cases failed
    exact ⟨_, rfl⟩
  rename_i requestInfos _
  cases verb : requestInfos.verb with
  | get =>
      simp only [verb, Except.ok.injEq] at failed
      exact exists_msg_of_httpResult failed
  | post =>
      cases client : system.httpClient with
      | none => simp [verb, client, unwrap, bind, Except.bind] at failed
      | some _ =>
          simp only [verb, client, unwrap, bind, Except.bind, Except.ok.injEq] at failed
          exact exists_msg_of_httpResult failed
  | put =>
      simp only [verb] at failed
      cases failed
      exact ⟨_, rfl⟩
  | delete =>
      simp only [verb] at failed
      cases failed
      exact ⟨_, rfl⟩

theorem exists_msg_of_tcpExchange {body : TcpCommandRequestBody}
    (failed : tcpExchange system json body = .ok (.error error)) :
    ∃ msg, error = makeErrorBytes json msg := by
  rw [tcpExchange] at failed
  cases connected : system.connect (body.host ++ ":" ++ toString body.port) with
  | none => simp [connected, unwrap, bind, Except.bind] at failed
  | some stream =>
      simp only [connected, unwrap, bind, Except.bind] at failed
      split at failed
      · cases failed
        exact ⟨_, rfl⟩
      split at failed
      · cases failed
        exact ⟨_, rfl⟩
      cases timeout : stream.setReadTimeout with
      | none => simp [timeout] at failed
      | some _ =>
          simp only [timeout] at failed
          split at failed
          · cases failed
            exact ⟨_, rfl⟩
          · cases failed

theorem exists_msg_of_tcp
    (failed : processTcpCommand system bodies json payload = .ok (.error error)) :
    ∃ msg, error = makeErrorBytes json msg := by
  rw [processTcpCommand] at failed
  split at failed
  · cases failed
    exact ⟨_, rfl⟩
  split at failed
  · cases failed
    exact ⟨_, rfl⟩
  · exact exists_msg_of_tcpExchange failed

theorem exists_msg_of_scripts {hoposhellFolder : String}
    (failed : processScriptsCommand system bodies json payload hoposhellFolder =
      .ok (.error error)) :
    ∃ msg, error = makeErrorBytesWithPrefix json [0, 0, 0, 1] msg := by
  rw [processScriptsCommand] at failed
  split at failed
  · cases failed
    exact ⟨_, rfl⟩
  split at failed
  · cases failed
    exact ⟨_, rfl⟩
  rename_i requestInfos _
  cases found : findFileInFolder system (joinPath (asBytes hoposhellFolder) (asBytes "scripts"))
      requestInfos.name with
  | none =>
      simp only [found] at failed
      cases failed
      exact ⟨_, rfl⟩
  | some scriptPath =>
      cases printed : fromUtf8 scriptPath with
      | none => simp [found, printed, unwrap, bind, Except.bind] at failed
      | some _ =>
          simp only [found, printed, unwrap, bind, Except.bind] at failed
          split at failed
          · cases failed
            exact ⟨_, rfl⟩
          · cases failed

/-- Every error of every command is the error object of some text. -/
theorem exists_errorPayload (failed : around.responsePayload req = .ok (.error error)) :
    ∃ msg, error = errorPayload around.json req.cmd msg := by
  have plain (notScript : req.cmd ≠ "scripts")
      (made : ∃ msg, error = makeErrorBytes around.json msg) :
      ∃ msg, error = errorPayload around.json req.cmd msg := by
    simpa only [errorPayload, if_neg notScript] using made
  rw [Surroundings.responsePayload] at failed
  by_cases ls : req.cmd = "ls"
  · rw [if_pos ls] at failed
    exact plain (by simp [ls]) (exists_msg_of_listing (fun _ => exists_msg_of_listFiles) failed)
  rw [if_neg ls] at failed
  by_cases download : req.cmd = "download"
  · rw [if_pos download] at failed
    exact plain (by simp [download]) (exists_msg_of_download failed)
  rw [if_neg download] at failed
  by_cases glob : req.cmd = "glob"
  · rw [if_pos glob] at failed
    exact plain (by simp [glob]) (exists_msg_of_listing (fun _ => exists_msg_of_listFiles) failed)
  rw [if_neg glob] at failed
  by_cases http : req.cmd = "http"
  · rw [if_pos http] at failed
    exact plain (by simp [http]) (exists_msg_of_http failed)
  rw [if_neg http] at failed
  by_cases tcp : req.cmd = "tcp"
  · rw [if_pos tcp] at failed
    exact plain (by simp [tcp]) (exists_msg_of_tcp failed)
  rw [if_neg tcp] at failed
  by_cases scripts : req.cmd = "scripts"
  · rw [if_pos scripts] at failed
    simpa only [errorPayload, if_pos scripts] using exists_msg_of_scripts failed
  · rw [if_neg scripts] at failed
    cases failed
    exact plain scripts ⟨_, rfl⟩

end Handlers

/-- The client recognises the error object in the first chunk, and reports its text. -/
structure Reported (json : Json.Codec) (req : Request) (response : Response)
    (lists : List (List (Message MessageTypeToCmd))) (msg : String) : Prop where
  recognised : ∀ chunk ∈ response.chunk.head?,
    (fromUtf8 chunk.payload).bind json.fromStr = some (makeError msg)
  reported : collect json req lists [] =
    .ok { result := .error, allRes := [], errorText := some msg }

section FirstChunk

variable {json : Json.Codec} {req : Request}

/-- The first chunk holds as much of the payload as a chunk has room for. -/
theorem exists_first_chunk (response : Response) :
    ∃ chunk rest, response.chunk = chunk :: rest ∧
      chunk.payload = response.payload.take commandPayloadSize := by
  have pieces : ∃ more, response.payloadChunks =
      response.payload.take commandPayloadSize :: more := by
    rw [Response.payloadChunks]
    split
    · rename_i empty
      exact ⟨[], by simp [List.eq_nil_of_length_eq_zero empty]⟩
    · rename_i nonempty
      refine ⟨_, Chunks.chunks_of_ne_nil (by decide) ?_⟩
      intro empty
      exact nonempty (by simp [empty])
  rcases pieces with ⟨more, pieces⟩
  rw [Response.chunk, pieces]
  cases more with
  | nil => exact ⟨response.chunkOf .last _, [], rfl, rfl⟩
  | cons next more =>
      rw [List.map_cons, ← List.singleton_append, List.modifyLast_append_of_right_ne_nil]
      · exact ⟨response.chunkOf .notLast _, _, rfl, rfl⟩
      · simp

/-- Whatever the batches, the client stops at a first message that is not `Ok`. -/
theorem collect_failed {lists : List (List (Message MessageTypeToCmd))} {content : Bytes}
    {chunk : ChunkedResponse} {rest : List (Message MessageTypeToCmd)}
    (whole : lists.flatten = commandMessage content :: rest)
    (own : ownChunk req content = some chunk) (failed : chunk.statusCode ≠ .ok)
    (allRes : List ChunkedResponse) :
    collect json req lists allRes =
      (reportError json chunk.payload).map fun errorText =>
        { result := .error, allRes, errorText } := by
  induction lists with
  | nil => simp at whole
  | cons messages lists ih =>
      cases messages with
      | nil =>
          simp only [collect, parseCommandResponseMessage, bind, Except.bind]
          exact ih whole
      | cons message messages =>
          simp only [List.flatten_cons, List.cons_append, List.cons.injEq] at whole
          rw [collect, whole.1, parse_failed json own failed]
          cases reportError json chunk.payload <;> rfl

/-- What a client reads in the first chunk of an error. -/
def firstText (json : Json.Codec) (cmd msg : String) : Option Json.Value :=
  (fromUtf8 ((errorPayload json cmd msg).take commandPayloadSize)).bind json.fromStr

/-- The four bytes in front of the error of a script are read as a text that starts with NUL. -/
theorem firstText_of_script (lawful : json.Lawful) (msg : String) :
    firstText json "scripts" msg = none := by
  have nul : (errorPayload json "scripts" msg).take commandPayloadSize =
      asBytes (String.singleton (Char.ofNat 0)) ++
        (([0, 0, 1] ++ makeErrorBytes json msg).take (commandPayloadSize - 1)) := rfl
  rw [firstText, Option.bind_eq_none_iff]
  intro text decoded
  have bytes := asBytes_eq_of_fromUtf8 decoded
  rw [nul] at bytes
  rcases exists_append_of_asBytes bytes.symm with ⟨rest, rfl⟩
  exact lawful.noNul rest

/-- An error object that has no room in a chunk is cut before its end. -/
theorem firstText_of_long (lawful : json.Lawful) {cmd msg : String} (notScript : cmd ≠ "scripts")
    (long : commandPayloadSize < (makeErrorBytes json msg).length) :
    firstText json cmd msg = none := by
  rw [firstText, errorPayload, if_neg notScript, Option.bind_eq_none_iff]
  intro part decoded
  have bytes := asBytes_eq_of_fromUtf8 decoded
  have split : asBytes part ++ (makeErrorBytes json msg).drop commandPayloadSize =
      asBytes (json.toString (makeError msg)) := by
    rw [bytes, List.take_append_drop, makeErrorBytes]
  rcases exists_append_of_asBytes split with ⟨rest, whole⟩
  apply lawful.incomplete "error" msg part rest whole
  rintro rfl
  have lengths := congrArg List.length split
  rw [whole, String.append_empty, bytes, List.length_append, List.length_drop] at lengths
  omega

theorem firstText_of_short (lawful : json.Lawful) {cmd msg : String} (notScript : cmd ≠ "scripts")
    (short : (makeErrorBytes json msg).length ≤ commandPayloadSize) :
    firstText json cmd msg = some (makeError msg) := by
  rw [firstText, errorPayload, if_neg notScript, List.take_of_length_le short, makeErrorBytes,
    fromUtf8_asBytes, Option.bind_some]
  exact lawful.read_print "error" msg

theorem recognised_iff (lawful : json.Lawful) {cmd msg : String} :
    firstText json cmd msg = some (makeError msg) ↔
      cmd ≠ "scripts" ∧ (makeErrorBytes json msg).length ≤ commandPayloadSize := by
  constructor
  · intro recognised
    have notScript : cmd ≠ "scripts" := by
      rintro rfl
      rw [firstText_of_script lawful] at recognised
      cases recognised
    refine ⟨notScript, ?_⟩
    by_contra long
    rw [firstText_of_long lawful notScript (by omega)] at recognised
    cases recognised
  · rintro ⟨notScript, short⟩
    exact firstText_of_short lawful notScript short

theorem Reported.fits (lawful : json.Lawful) {response : Response} {cmd msg : String}
    {lists : List (List (Message MessageTypeToCmd))}
    (reported : Reported json req response lists msg)
    (failed : response.payload = errorPayload json cmd msg) :
    cmd ≠ "scripts" ∧ (makeErrorBytes json msg).length ≤ commandPayloadSize := by
  rcases exists_first_chunk response with ⟨chunk, rest, chunks, payload⟩
  have recognised := reported.recognised chunk (by simp [chunks])
  rw [payload, failed] at recognised
  exact (recognised_iff lawful).mp recognised

theorem reportError_of_recognised {payload : Bytes} {msg : String}
    (recognised : (fromUtf8 payload).bind json.fromStr = some (makeError msg)) :
    reportError json payload = .ok (some msg) := by
  rcases Option.bind_eq_some_iff.mp recognised with ⟨text, decoded, read⟩
  simp [reportError, decoded, read, makeError, Json.Value.get, Json.Value.asStr, unwrap, Except.map]

end FirstChunk

section Answer

variable {around : Surroundings} {commands next : CommandProcessor} {msg : Bytes} {req : Request}
  {response : Response}

/-- The response to a request whose command has failed. -/
theorem answer_of_failed {error : Bytes}
    (completes : (commands.history.append msg).1 = .request req)
    (failed : around.responsePayload req = .ok (.error error))
    (answered : around.processMsg commands msg = .ok (some response, next)) :
    response =
      { messageId := req.messageId, statusCode := .incorrectParams, cmd := req.cmd,
        payload := error } := by
  have result := processMsg_eq answered
  have handled : around.handlers.responsePayload around.json req around.hoposhellFolder =
      .error error := by
    rw [responsePayload_handlers, failed, returned]
  simp only [CommandProcessor.processMsg, completes, handled, Prod.mk.injEq,
    Option.some.injEq] at result
  exact result.1

/--
The client that asked reports the error of a command, and stops, exactly when the command is
not `scripts` and the error object fits a single chunk.
-/
theorem error_reported_iff (lawful : around.json.Lawful) {msgs : List Bytes} {error : String}
    (reachable : commands.history = (CommandHistory.new.appendAll msgs).2)
    (completes : (commands.history.append msg).1 = .request req)
    (failed : around.responsePayload req = .ok (.error (errorPayload around.json req.cmd error)))
    (answered : around.processMsg commands msg = .ok (some response, next))
    {asked : Request} (awaited : asked.messageId = req.messageId)
    {lists : List (List (Message MessageTypeToCmd))}
    (whole : lists.flatten = responseMessages response) :
    Reported around.json asked response lists error ↔
      req.cmd ≠ "scripts" ∧ (makeErrorBytes around.json error).length ≤ commandPayloadSize := by
  have responseEq := answer_of_failed completes failed answered
  have completed : completedItem msgs msg = .request req := by
    rw [← completes, reachable, (append_appendAll msgs msg).1]
  have free := slashFree_of_completedItem completed
  rcases exists_first_chunk response with ⟨chunk, rest, chunks, payload⟩
  rw [responseEq] at payload
  have first : lists.flatten = commandMessage chunk.toMessagePayload ::
      (rest.map (·.toMessagePayload)).map commandMessage := by
    rw [whole, responseMessages, chunks]
    rfl
  have mem : chunk ∈ response.chunk := by simp [chunks]
  have own : ownChunk asked chunk.toMessagePayload = some chunk := by
    apply ownChunk_of_mem_response _ _ _ mem
    · simpa only [responseEq] using free.1
    · simpa only [responseEq] using free.2.1
    · rw [responseEq, awaited]
  have notOk : chunk.statusCode ≠ .ok := by
    rw [(Response.header_of_mem_chunk mem).2.2, responseEq]
    simp
  constructor
  · intro reported
    exact reported.fits lawful (by rw [responseEq])
  · intro fits
    have recognised := firstText_of_short lawful fits.1 fits.2
    rw [firstText, ← payload] at recognised
    constructor
    · intro other isFirst
      obtain rfl : chunk = other := by simpa [chunks] using isFirst
      exact recognised
    · rw [collect_failed first own notOk, reportError_of_recognised recognised]
      rfl

end Answer

/-- The machine that refuses connections, with a codec for error objects. -/
def reporting : Surroundings := { refusing [] with json := Json.textCodec }

/-- The request of the shell `b` that `wholeRequest` asks for. -/
def asking (cmd payload : String) : Request where
  cmd := cmd
  messageId := "a:1"
  target := "shell:b"
  payload := asBytes payload

/-- The response to the request when its command fails with the text. -/
def failedResponse (cmd error : String) : Response where
  cmd := cmd
  messageId := "a:1"
  statusCode := .incorrectParams
  payload := errorPayload Json.textCodec cmd error

theorem error_reported_iff_uptime :
    Reported Json.textCodec (asking "uptime" "x") (failedResponse "uptime" "Unknown command")
        [responseMessages (failedResponse "uptime" "Unknown command")] "Unknown command" ↔
      "uptime" ≠ "scripts" ∧
        (makeErrorBytes Json.textCodec "Unknown command").length ≤ commandPayloadSize :=
  @error_reported_iff reporting .new .new (wholeRequest "uptime" "x") (asking "uptime" "x")
    (failedResponse "uptime" "Unknown command") Json.textCodec_lawful [] "Unknown command"
    rfl rfl rfl rfl (asking "uptime" "x") rfl _ List.flatten_singleton

/-- The client prints the four bytes and the JSON text for an error of a script. -/
theorem not_error_reported :
    let error := "Invalid json payload: expected value at line 1 column 1"
    let response := failedResponse "scripts" error
    reporting.responsePayload (asking "scripts" "x") =
        .ok (.error (errorPayload Json.textCodec "scripts" error)) ∧
      reporting.processMsg .new (wholeRequest "scripts" "x") = .ok (some response, .new) ∧
      collect Json.textCodec (asking "scripts" "x") [responseMessages response] [] =
        .ok
          { result := .error
            allRes := []
            errorText := some ("\x00\x00\x00\x01\x7b\"error\":\"" ++ error ++ "\"\x7d") } ∧
      ¬Reported Json.textCodec (asking "scripts" "x") response [responseMessages response]
        error := by
  refine ⟨rfl, rfl, rfl, ?_⟩
  intro reported
  exact (reported.fits Json.textCodec_lawful rfl).1 rfl

end Hoposhell
