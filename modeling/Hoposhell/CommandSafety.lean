import Hoposhell.CommandHandlers

/-!
# When a command ends the thread that serves it

`process_msg` runs on the thread that feeds the shell, so that an `unwrap` that fails
in a handler ends that thread.  This file runs `process_msg` with the handlers as they
are, and says exactly when it returns.  When it does, it returns what `processMsg`
returns with handlers that never panic.
-/

namespace Hoposhell

/-- What the clock shows at the places that stamp a time; `none` is before `UNIX_EPOCH`. -/
structure Clock where
  receivedAt : Option ℕ
  storedAt : Option ℕ
  answeredAt : Option ℕ

/-- The surroundings of `process_msg`. -/
structure Surroundings where
  system : System
  bodies : RequestBodies
  json : Json.Codec
  zstd : Zstd.Codec
  clock : Clock
  hoposhellFolder : String

/-- The time stamps of `deserialize` and of `append`, which are not kept. -/
def CommandHistory.stamp (history : CommandHistory) (clock : Clock) (msg : Bytes) :
    Except Panic Unit :=
  match ChunkedRequestOrResponse.deserialize msg with
  | .none => .ok ()
  | .request _ => do
      let _ ← unwrap clock.receivedAt
      .ok ()
  | .response chunk => do
      let _ ← unwrap clock.receivedAt
      if history.pastResponses.any fun past => past.messageId == chunk.messageId then .ok ()
      else do
        let _ ← unwrap clock.storedAt
        .ok ()

namespace Surroundings

/-- The payload of the response, chosen by the name of the command. -/
def responsePayload (around : Surroundings) (req : Request) :
    Except Panic (Except Bytes Bytes) :=
  let ofJson (value : Json.Value) : Bytes := asBytes (around.json.toString value)
  if req.cmd = "ls" then
    (processLsCommand around.system req.payload).map fun result =>
      (result.map ofJson).mapError ofJson
  else if req.cmd = "download" then processDownloadCommand around.system around.json req.payload
  else if req.cmd = "glob" then
    (processGlobCommand around.system req.payload).map fun result =>
      (result.map ofJson).mapError ofJson
  else if req.cmd = "http" then
    processHttpCommand around.system around.bodies around.json req.payload
  else if req.cmd = "tcp" then
    processTcpCommand around.system around.bodies around.json req.payload
  else if req.cmd = "scripts" then
    processScriptsCommand around.system around.bodies around.json req.payload
      around.hoposhellFolder
  else .ok (.error (makeErrorBytes around.json "Unknown command"))

/-- The response made of the result of a command; a result is compressed, an error is not. -/
def answer (around : Surroundings) (req : Request) (result : Except Bytes Bytes) :
    Except Panic (Option Response) :=
  match result with
  | .ok payload =>
      match around.zstd.encodeAll payload with
      | some payload => do
          let _ ← unwrap around.clock.answeredAt
          .ok (some
            { messageId := req.messageId, statusCode := .ok, cmd := req.cmd, payload := payload })
      | none => .ok none
  | .error payload => do
      let _ ← unwrap around.clock.answeredAt
      .ok (some
        { messageId := req.messageId, statusCode := .incorrectParams, cmd := req.cmd,
          payload := payload })

/-- `CommandProcessor::process_msg`, panics included. -/
def processMsg (around : Surroundings) (commands : CommandProcessor) (msg : Bytes) :
    Except Panic (Option Response × CommandProcessor) := do
  commands.history.stamp around.clock msg
  let (cmd, history) := commands.history.append msg
  match cmd with
  | .request req => do
      let responsePayload ← around.responsePayload req
      let response ← around.answer req responsePayload
      .ok (response, { history })
  | .response _ => .ok (none, { history })
  | .none => .ok (none, { history })

end Surroundings

section IsOk

theorem isOk_iff {ε α : Type} {result : Except ε α} :
    result.isOk = true ↔ ∃ value, result = .ok value := by
  cases result <;> simp

theorem isOk_bind_iff {ε α β : Type} {result : Except ε α} {next : α → Except ε β} :
    (result >>= next).isOk = true ↔ ∃ value, result = .ok value ∧ (next value).isOk = true := by
  cases result <;> simp [bind, Except.bind]

theorem isOk_map {ε α β : Type} (f : α → β) (result : Except ε α) :
    (result.map f).isOk = result.isOk := by
  cases result <;> rfl

theorem isOk_mapM_iff {ε α β : Type} {f : α → Except ε β} {items : List α} :
    (items.mapM f).isOk = true ↔ ∀ item ∈ items, (f item).isOk = true := by
  induction items with
  | nil => simp [pure, Except.pure]
  | cons item items ih =>
      rw [List.mapM_cons, isOk_bind_iff, List.forall_mem_cons, ← ih]
      cases f item with
      | error error => simp
      | ok value => cases items.mapM f <;> simp [bind, Except.bind, pure, Except.pure]

theorem fromUtf8_append {left right : Bytes} (leftValid : (fromUtf8 left).isSome = true)
    (rightValid : (fromUtf8 right).isSome = true) : (fromUtf8 (left ++ right)).isSome = true := by
  rcases Option.isSome_iff_exists.mp leftValid with ⟨leftText, leftRead⟩
  rcases Option.isSome_iff_exists.mp rightValid with ⟨rightText, rightRead⟩
  have whole : left ++ right = asBytes (leftText ++ rightText) := by
    rw [← asBytes_eq_of_fromUtf8 leftRead, ← asBytes_eq_of_fromUtf8 rightRead]
    simp [asBytes, String.toByteArray_append]
  rw [whole, fromUtf8_asBytes]
  rfl

end IsOk

section Handlers

variable {system : System} {bodies : RequestBodies} {json : Json.Codec} {payload : Bytes}

theorem isOk_timestamp_iff {time : Option ℤ} :
    (timestamp time).isOk = true ↔ ∀ instant ∈ time, 0 ≤ instant := by
  cases time with
  | none => simp [timestamp]
  | some instant => by_cases after : 0 ≤ instant <;> simp [timestamp, after]

/-- The times of a file are not before `UNIX_EPOCH`. -/
def FileMetadata.SinceEpoch (metadata : FileMetadata) : Prop :=
  (∀ instant ∈ metadata.created, 0 ≤ instant) ∧ ∀ instant ∈ metadata.modified, 0 ≤ instant

theorem isOk_fromMetadata_iff {metadata : FileMetadata} {fileName : String} :
    (FileInfos.fromMetadata metadata fileName).isOk = true ↔ metadata.SinceEpoch := by
  rw [FileMetadata.SinceEpoch, ← isOk_timestamp_iff, ← isOk_timestamp_iff, FileInfos.fromMetadata]
  cases timestamp metadata.created with
  | error panic => simp [bind, Except.bind]
  | ok creationTimestamp => cases timestamp metadata.modified <;> simp [bind, Except.bind]

/-- The files that match the pattern of the request can be listed. -/
def ListSafe (system : System) (nameOf : Bytes → Except Panic String) (payload : Bytes) : Prop :=
  ∀ pattern, fromUtf8 payload = some pattern →
    ∀ entries, system.glob (system.tilde pattern) = .ok entries →
      ∀ path metadata, some { path, metadata := some metadata } ∈ entries →
        (nameOf path).isOk = true ∧ metadata.SinceEpoch

theorem isOk_entryInfos_iff {nameOf : Bytes → Except Panic String} {entry : Option GlobEntry} :
    (entryInfos nameOf entry).isOk = true ↔
      ∀ path metadata, entry = some { path, metadata := some metadata } →
        (nameOf path).isOk = true ∧ metadata.SinceEpoch := by
  match entry with
  | none => simp [entryInfos]
  | some { path, metadata := none } => simp [entryInfos]
  | some { path, metadata := some metadata } =>
      have read : (entryInfos nameOf (some { path, metadata := some metadata })).isOk = true ↔
          (nameOf path).isOk = true ∧ metadata.SinceEpoch := by
        rw [entryInfos, isOk_bind_iff]
        cases nameOf path with
        | error panic => simp
        | ok name =>
            rw [← @isOk_fromMetadata_iff metadata name]
            cases made : FileInfos.fromMetadata metadata name <;> simp [made, bind, Except.bind]
      rw [read]
      simp

theorem isOk_listFiles_iff {noPath invalid : String} {nameOf : Bytes → Except Panic String} :
    (listFiles system noPath invalid nameOf payload).isOk = true ↔
      ListSafe system nameOf payload := by
  rw [listFiles, ListSafe, maybeString, Option.bind_some]
  cases fromUtf8 payload with
  | none => simp
  | some pattern =>
      cases matched : system.glob (system.tilde pattern) with
      | error error => simp [matched]
      | ok entries =>
          have listed : (entries.mapM (entryInfos nameOf)).isOk = true ↔
              ∀ path metadata, some { path, metadata := some metadata } ∈ entries →
                (nameOf path).isOk = true ∧ metadata.SinceEpoch := by
            simp only [isOk_mapM_iff, isOk_entryInfos_iff]
            constructor
            · intro safe path metadata mem
              exact safe _ mem path metadata rfl
            · rintro safe entry mem path metadata rfl
              exact safe path metadata mem
          simp only [matched, isOk_bind_iff, isOk_ok, and_true, ← isOk_iff, listed,
            Option.some.injEq, forall_eq', Except.ok.injEq]

theorem isOk_processLsCommand_iff :
    (processLsCommand system payload).isOk = true ↔
      ListSafe system (fun path => unwrap (fromUtf8 path)) payload :=
  isOk_listFiles_iff

theorem isOk_processGlobCommand_iff :
    (processGlobCommand system payload).isOk = true ↔
      ListSafe system (fun path => .ok ((fromUtf8 path).getD "")) payload :=
  isOk_listFiles_iff

/-- A path made from a text can be printed. -/
theorem isOk_processDownloadCommand : (processDownloadCommand system json payload).isOk = true := by
  rw [processDownloadCommand]
  cases maybeString (some payload) with
  | none => rfl
  | some filePath =>
      simp only [fromUtf8_asBytes]
      split
      · cases system.readFile (system.tilde filePath) <;> rfl
      · rfl

/-- A client for HTTP requests can be made when the request needs one. -/
def HttpSafe (system : System) (bodies : RequestBodies) (payload : Bytes) : Prop :=
  ∀ text, fromUtf8 payload = some text →
    ∀ body, bodies.http text = .ok body → body.verb = .post → system.httpClient.isSome = true

theorem isOk_processHttpCommand_iff :
    (processHttpCommand system bodies json payload).isOk = true ↔
      HttpSafe system bodies payload := by
  rw [processHttpCommand, HttpSafe, maybeString, Option.bind_some]
  cases fromUtf8 payload with
  | none => simp
  | some text =>
      cases read : bodies.http text with
      | error error => simp [read]
      | ok body =>
          cases verb : body.verb with
          | post =>
              cases system.httpClient <;> simp [read, verb, unwrap, bind, Except.bind]
          | get => simp [read, verb]
          | put => simp [read, verb]
          | delete => simp [read, verb]

/--
The connection that the body asks for can be opened, and its read timeout set once the whole
payload has been written.
-/
def ExchangeSafe (system : System) (body : TcpCommandRequestBody) : Prop :=
  ∃ stream, system.connect (body.host ++ ":" ++ toString body.port) = some stream ∧
    (stream.write body.payload = .ok body.payload.length → stream.setReadTimeout.isSome = true)

theorem isOk_tcpExchange_iff {body : TcpCommandRequestBody} :
    (tcpExchange system json body).isOk = true ↔ ExchangeSafe system body := by
  rw [tcpExchange, ExchangeSafe]
  cases system.connect (body.host ++ ":" ++ toString body.port) with
  | none => simp [unwrap, bind, Except.bind]
  | some stream =>
      cases written : stream.write body.payload with
      | error error => simp [written, unwrap, bind, Except.bind]
      | ok n =>
          by_cases whole : n = body.payload.length
          · cases timeout : stream.setReadTimeout <;>
              cases received : stream.readToEnd <;>
                simp [written, whole, timeout, received, unwrap, bind, Except.bind]
          · simp [written, whole, unwrap, bind, Except.bind]

/-- The exchange of a body that can be read is safe. -/
def TcpSafe (system : System) (bodies : RequestBodies) (payload : Bytes) : Prop :=
  ∀ text, fromUtf8 payload = some text → ∀ body, bodies.tcp text = .ok body →
    ExchangeSafe system body

theorem isOk_processTcpCommand_iff :
    (processTcpCommand system bodies json payload).isOk = true ↔
      TcpSafe system bodies payload := by
  rw [processTcpCommand, TcpSafe, maybeString, Option.bind_some]
  cases fromUtf8 payload with
  | none => simp
  | some text =>
      cases read : bodies.tcp text with
      | error error => simp [read]
      | ok body => simp [read, isOk_tcpExchange_iff]

theorem fromUtf8_joinPath {folder name : Bytes} (folderValid : (fromUtf8 folder).isSome = true)
    (nameValid : (fromUtf8 name).isSome = true) :
    (fromUtf8 (joinPath folder name)).isSome = true := by
  rw [joinPath]
  split
  · exact fromUtf8_append folderValid nameValid
  · exact fromUtf8_append (fromUtf8_append folderValid (by decide)) nameValid

theorem fromUtf8_findFileInFolder {folderPath scriptPath : Bytes} {targetFileName : String}
    (folderValid : (fromUtf8 folderPath).isSome = true)
    (found : findFileInFolder system folderPath targetFileName = some scriptPath) :
    (fromUtf8 scriptPath).isSome = true := by
  simp only [findFileInFolder, Option.bind_eq_bind, Option.bind_eq_some_iff] at found
  rcases found with ⟨names, _, name, isFirst, built⟩
  rcases List.exists_of_findSome?_eq_some isFirst with ⟨entry, _, matched⟩
  cases built
  cases entry with
  | none => cases matched
  | some entryName =>
      simp only [Option.ite_none_right_eq_some, Option.some.injEq] at matched
      rcases matched with ⟨valid, rfl⟩
      exact fromUtf8_joinPath folderValid (by rw [valid]; rfl)

/-- A script that is found has a path that can be printed. -/
theorem isOk_processScriptsCommand {hoposhellFolder : String} :
    (processScriptsCommand system bodies json payload hoposhellFolder).isOk = true := by
  rw [processScriptsCommand]
  cases maybeString (some payload) with
  | none => rfl
  | some text =>
      cases read : bodies.scripts text with
      | error error => simp only [read]; rfl
      | ok requestInfos =>
          have folderValid : (fromUtf8 (joinPath (asBytes hoposhellFolder)
              (asBytes "scripts"))).isSome = true := by
            apply fromUtf8_joinPath <;> simp
          simp only [read]
          cases found : findFileInFolder system (joinPath (asBytes hoposhellFolder)
              (asBytes "scripts")) requestInfos.name with
          | none => rfl
          | some scriptPath =>
              have valid := fromUtf8_findFileInFolder folderValid found
              rcases Option.isSome_iff_exists.mp valid with ⟨path, isPath⟩
              simp only [isPath, unwrap, bind, Except.bind]
              cases system.output scriptPath <;> rfl

end Handlers

/-- What a handler returns, and an arbitrary result where it panics. -/
def returned : Except Panic (Except Bytes Bytes) → Except Bytes Bytes
  | .ok result => result
  | .error _ => .error []

/-- The handlers as functions that never panic. -/
def Surroundings.handlers (around : Surroundings) : Handlers :=
  let ofJson (value : Json.Value) : Bytes := asBytes (around.json.toString value)
  { ls := fun payload =>
      returned ((processLsCommand around.system payload).map fun result =>
        (result.map ofJson).mapError ofJson)
    download := fun payload =>
      returned (processDownloadCommand around.system around.json payload)
    glob := fun payload =>
      returned ((processGlobCommand around.system payload).map fun result =>
        (result.map ofJson).mapError ofJson)
    http := fun payload =>
      returned (processHttpCommand around.system around.bodies around.json payload)
    tcp := fun payload =>
      returned (processTcpCommand around.system around.bodies around.json payload)
    scripts := fun payload hoposhellFolder =>
      returned (processScriptsCommand around.system around.bodies around.json payload
        hoposhellFolder) }

/-- No handler panics on the request. -/
structure HandlerSafe (around : Surroundings) (req : Request) : Prop where
  ls : req.cmd = "ls" → ListSafe around.system (fun path => unwrap (fromUtf8 path)) req.payload
  glob : req.cmd = "glob" →
    ListSafe around.system (fun path => .ok ((fromUtf8 path).getD "")) req.payload
  http : req.cmd = "http" → HttpSafe around.system around.bodies req.payload
  tcp : req.cmd = "tcp" → TcpSafe around.system around.bodies req.payload

section ProcessMsg

variable {around : Surroundings} {commands : CommandProcessor} {msg : Bytes} {req : Request}

theorem isOk_responsePayload_iff :
    (around.responsePayload req).isOk = true ↔ HandlerSafe around req := by
  have fields : HandlerSafe around req ↔
      (req.cmd = "ls" → ListSafe around.system (fun path => unwrap (fromUtf8 path)) req.payload) ∧
        (req.cmd = "glob" →
          ListSafe around.system (fun path => .ok ((fromUtf8 path).getD "")) req.payload) ∧
        (req.cmd = "http" → HttpSafe around.system around.bodies req.payload) ∧
        (req.cmd = "tcp" → TcpSafe around.system around.bodies req.payload) :=
    ⟨fun safe => ⟨safe.ls, safe.glob, safe.http, safe.tcp⟩,
      fun safe => ⟨safe.1, safe.2.1, safe.2.2.1, safe.2.2.2⟩⟩
  rw [fields, Surroundings.responsePayload]
  by_cases ls : req.cmd = "ls"
  · simp [ls, isOk_map, isOk_processLsCommand_iff]
  by_cases download : req.cmd = "download"
  · simp [download, isOk_processDownloadCommand]
  by_cases glob : req.cmd = "glob"
  · simp [glob, isOk_map, isOk_processGlobCommand_iff]
  by_cases http : req.cmd = "http"
  · simp [http, isOk_processHttpCommand_iff]
  by_cases tcp : req.cmd = "tcp"
  · simp [tcp, isOk_processTcpCommand_iff]
  by_cases scripts : req.cmd = "scripts"
  · simp [scripts, isOk_processScriptsCommand]
  · simp [ls, download, glob, http, tcp, scripts]

theorem responsePayload_handlers :
    around.handlers.responsePayload around.json req around.hoposhellFolder =
      returned (around.responsePayload req) := by
  unfold Handlers.responsePayload Surroundings.responsePayload
  split_ifs <;> rfl

theorem answer_eq {result : Except Bytes Bytes} {response : Option Response} :
    around.answer req result = .ok response →
      response =
        match result with
        | .ok payload =>
            match around.zstd.encodeAll payload with
            | some payload =>
                some
                  { messageId := req.messageId, statusCode := .ok, cmd := req.cmd,
                    payload := payload }
            | none => none
        | .error payload =>
            some
              { messageId := req.messageId, statusCode := .incorrectParams, cmd := req.cmd,
                payload := payload } := by
  intro answered
  unfold Surroundings.answer at answered
  cases result with
  | error payload =>
      cases read : around.clock.answeredAt <;> simp [read, unwrap, bind, Except.bind] at answered
      exact answered.symm
  | ok payload =>
      cases encoded : around.zstd.encodeAll payload with
      | none =>
          simp only [encoded, Except.ok.injEq] at answered
          simp [encoded, answered]
      | some compressed =>
          cases read : around.clock.answeredAt <;>
            simp [encoded, read, unwrap, bind, Except.bind] at answered
          simp [encoded, answered]

/-- A call that returns gives what `processMsg` gives with handlers that never panic. -/
theorem processMsg_eq {result : Option Response × CommandProcessor}
    (returns : around.processMsg commands msg = .ok result) :
    result = commands.processMsg around.handlers around.json around.zstd msg
      around.hoposhellFolder := by
  unfold Surroundings.processMsg at returns
  unfold CommandProcessor.processMsg
  cases stamped : commands.history.stamp around.clock msg with
  | error panic => simp [stamped, bind, Except.bind] at returns
  | ok _ =>
      simp only [stamped, bind, Except.bind] at returns
      cases appended : commands.history.append msg with
      | mk cmd history =>
          simp only [appended] at returns ⊢
          cases cmd with
          | none =>
              cases returns
              rfl
          | response response =>
              cases returns
              rfl
          | request req =>
              simp only [responsePayload_handlers]
              cases handled : around.responsePayload req with
              | error panic => simp [handled] at returns
              | ok result =>
                  cases answered : around.answer req result with
                  | error panic => simp [handled, answered] at returns
                  | ok response =>
                      simp only [handled, answered, Except.ok.injEq] at returns
                      rw [← returns, answer_eq answered]
                      rfl

/-- The clock is not before `UNIX_EPOCH` where a received chunk is stamped. -/
def StampSafe (history : CommandHistory) (clock : Clock) (msg : Bytes) : Prop :=
  match ChunkedRequestOrResponse.deserialize msg with
  | .none => True
  | .request _ => clock.receivedAt.isSome = true
  | .response chunk =>
      clock.receivedAt.isSome = true ∧
        ((∀ past ∈ history.pastResponses, past.messageId ≠ chunk.messageId) →
          clock.storedAt.isSome = true)

theorem any_messageId_iff {pastResponses : List Response} {messageId : String} :
    (pastResponses.any fun past => past.messageId == messageId) = true ↔
      ¬∀ past ∈ pastResponses, past.messageId ≠ messageId := by
  simp

theorem isOk_stamp_iff {history : CommandHistory} {clock : Clock} :
    (history.stamp clock msg).isOk = true ↔ StampSafe history clock msg := by
  unfold CommandHistory.stamp StampSafe
  cases ChunkedRequestOrResponse.deserialize msg with
  | none => simp
  | request chunk => cases clock.receivedAt <;> simp [unwrap, bind, Except.bind]
  | response chunk =>
      cases clock.receivedAt with
      | none => simp [unwrap, bind, Except.bind]
      | some receivedAt =>
          simp only [unwrap, bind, Except.bind, any_messageId_iff, Option.isSome_some, true_and]
          by_cases fresh : ∀ past ∈ history.pastResponses, past.messageId ≠ chunk.messageId
          · rw [if_neg (not_not_intro fresh)]
            cases clock.storedAt with
            | none => simpa using fresh
            | some storedAt => simp
          · rw [if_pos fresh]
            exact ⟨fun _ new => absurd new fresh, fun _ => rfl⟩

/-- A result that cannot be compressed is not answered. -/
def Unanswered (around : Surroundings) (req : Request) : Prop :=
  ∃ payload, around.responsePayload req = .ok (.ok payload) ∧
    around.zstd.encodeAll payload = none

/-- What the machine must provide for `process_msg` to return. -/
structure Survives (around : Surroundings) (history : CommandHistory) (msg : Bytes) : Prop where
  stamped : StampSafe history around.clock msg
  handled : ∀ req, (history.append msg).1 = .request req → HandlerSafe around req
  answered : ∀ req, (history.append msg).1 = .request req →
    Unanswered around req ∨ around.clock.answeredAt.isSome = true

theorem survives_iff {history : CommandHistory} :
    Survives around history msg ↔
      (history.stamp around.clock msg).isOk = true ∧
        ∀ req, (history.append msg).1 = .request req →
          (around.responsePayload req).isOk = true ∧
            (Unanswered around req ∨ around.clock.answeredAt.isSome = true) := by
  simp only [isOk_stamp_iff, isOk_responsePayload_iff]
  constructor
  · intro survives
    refine ⟨survives.stamped, ?_⟩
    intro req completes
    exact ⟨survives.handled req completes, survives.answered req completes⟩
  · rintro ⟨stamped, safe⟩
    constructor
    · exact stamped
    · intro req completes
      exact (safe req completes).1
    · intro req completes
      exact (safe req completes).2

/-- The time of an answer is taken when there is one. -/
theorem isOk_answer_iff {result : Except Bytes Bytes}
    (handled : around.responsePayload req = .ok result) :
    (around.answer req result).isOk = true ↔
      Unanswered around req ∨ around.clock.answeredAt.isSome = true := by
  unfold Surroundings.answer Unanswered
  cases result with
  | error payload => cases around.clock.answeredAt <;> simp [handled, unwrap, bind, Except.bind]
  | ok payload =>
      cases encoded : around.zstd.encodeAll payload with
      | none => simp [handled, encoded]
      | some compressed =>
          cases around.clock.answeredAt <;> simp [handled, encoded, unwrap, bind, Except.bind]

/-- `process_msg` returns exactly when the machine provides what it takes for granted. -/
theorem processMsg_returns_iff :
    (around.processMsg commands msg).isOk = true ↔ Survives around commands.history msg := by
  have returns_iff (returns : Prop) :
      (∃ value, commands.history.stamp around.clock msg = .ok value ∧ returns) ↔
        (commands.history.stamp around.clock msg).isOk = true ∧ returns := by
    rw [isOk_iff, exists_and_right]
  rw [survives_iff, Surroundings.processMsg, isOk_bind_iff, returns_iff]
  cases commands.history.append msg with
  | mk cmd history =>
      cases cmd with
      | none => simp
      | response response => simp
      | request req =>
          simp only [RequestOrResponse.request.injEq, forall_eq']
          apply and_congr_right
          intro _
          cases handled : around.responsePayload req with
          | error panic => simp [bind, Except.bind]
          | ok result =>
              rw [← isOk_answer_iff handled]
              cases answered : around.answer req result <;> simp [answered, bind, Except.bind]

end ProcessMsg

/-- A machine that refuses connections, with the given files. -/
def refusingSystem (files : List (Option GlobEntry)) : System where
  tilde := id
  glob _ := .ok files
  isFile _ := false
  readFile _ := none
  httpGet _ := none
  httpClient := some ()
  httpPost _ _ := none
  connect _ := none
  readDir _ := none
  output _ := .error "No such file or directory (os error 2)"

/-- A reader that knows a single body. -/
def tcpBodies : RequestBodies where
  http _ := .error "expected value at line 1 column 1"
  tcp text :=
    if text = "\x7b\"host\":\"localhost\",\"port\":81,\"payload\":[104,105]\x7d" then
      .ok { host := "localhost", port := 81, payload := [104, 105] }
    else .error "expected value at line 1 column 1"
  scripts _ := .error "expected value at line 1 column 1"

def refusing (files : List (Option GlobEntry)) : Surroundings where
  system := refusingSystem files
  bodies := tcpBodies
  json := Json.nullCodec
  zstd := Zstd.stored
  clock := { receivedAt := some 0, storedAt := some 0, answeredAt := some 0 }
  hoposhellFolder := "/home/a/.hoposhell"

/-- The only chunk of a request to the shell `b`. -/
def wholeRequest (cmd payload : String) : Bytes :=
  ChunkedRequest.toMessagePayload
    { cmd, messageId := "a:1", target := "shell:b", chunkType := .last,
      payload := asBytes payload }

/--
A refused connection, a listed path that is not UTF-8 and a listed file older than
`UNIX_EPOCH` each end the thread.
-/
theorem processMsg_panics :
    ((refusing []).processMsg .new (wholeRequest "tcp"
        "\x7b\"host\":\"localhost\",\"port\":81,\"payload\":[104,105]\x7d")).isOk = false ∧
      ((refusing [some
          { path := [47, 255]
            metadata := some { isDir := false, created := none, modified := none, size := 0 } }
        ]).processMsg .new (wholeRequest "ls" "/*")).isOk = false ∧
      ((refusing [some
          { path := [47, 97]
            metadata := some { isDir := false, created := none, modified := some (-1), size := 0 } }
        ]).processMsg .new (wholeRequest "glob" "/*")).isOk = false := by
  refine ⟨?_, ?_, ?_⟩ <;> decide +kernel

end Hoposhell
