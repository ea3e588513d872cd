import Hoposhell.Args
import Hoposhell.RequestTexts
import Hoposhell.SendRequest

/-!
# The command of a client

`main_command` makes a request out of the words on its command line, sends it, and shows the
payload of the response.  What the words ask for is a `Command`, which says what the remote shell
is to do and how its result is shown: exactly the words that name a command are sent, and the
request that is sent has the remote shell do what they ask for.
-/

namespace Hoposhell

/-- A request whose payload is a text. -/
def makeTextRequest (cmd messageId shellId text : String) : Request where
  cmd := cmd
  messageId := messageId
  target := makeShellTarget shellId
  payload := asBytes text

def makeLsRequest (messageId shellId folderPath : String) : Request :=
  makeTextRequest "ls" messageId shellId folderPath

def makeDownloadRequest (messageId shellId filePath : String) : Request :=
  makeTextRequest "download" messageId shellId filePath

def makeGlobRequest (messageId shellId globPattern : String) : Request :=
  makeTextRequest "glob" messageId shellId globPattern

def makeHttpRequest (encode : HttpCommandRequestBody → String) (messageId shellId : String)
    (args : List String) : Except Panic Request := do
  let verb ← index args 0
  let url ← index args 1
  let body := args[2]?
  let verb ← unwrap (HttpVerb.deserialize verb)
  .ok (makeTextRequest "http" messageId shellId (encode { verb, url, body }))

def makeScriptsRequest (encode : ScriptsCommandRequestBody → String)
    (messageId shellId name : String) : Request :=
  makeTextRequest "scripts" messageId shellId (encode { name })

/-- What the process of a client has around it. -/
structure Client (File : Type) where
  json : Json.Codec
  listing : ListingJson
  texts : BodyTexts
  machine : LocalMachine File
  base64 : Base64.Engine
  zstd : Zstd.Codec

/-- What `send_command` goes on with once it has looked at the words. -/
inductive Prepared where
  | exits
  | sends (req : Request) (processRes : Response → Except Panic Printed)

section SendCommand

variable {File : Type} (client : Client File) (args : Args)

/-- `send_command` up to the connection, given the random part of the id of its request. -/
def prepareCommand (targetShellId command : String) (commandArgs : List String)
    (randomId : String) : Except Panic Prepared :=
  match args.getShellId with
  | none => .ok .exits
  | some currentShellId =>
      let messageId := currentShellId ++ ":" ++ randomId
      if command = "ls" then do
        let folderPath ← index commandArgs 0
        .ok (.sends (makeLsRequest messageId targetShellId folderPath) fun res =>
          processLsResponse client.json client.listing res.payload args.format)
      else if command = "download" ∨ command = "cp" then do
        let remoteFilePath ← index commandArgs 0
        let localFilePath := commandArgs[1]?
        .ok (.sends (makeDownloadRequest messageId targetShellId remoteFilePath) fun res =>
          processDownloadResponse client.machine res.payload remoteFilePath localFilePath)
      else if command = "glob" then do
        let globPattern ← index commandArgs 0
        .ok (.sends (makeGlobRequest messageId targetShellId globPattern) fun res =>
          processGlobResponse client.json client.listing res.payload args.format)
      else if command = "http" then do
        let req ← makeHttpRequest client.texts.http messageId targetShellId commandArgs
        .ok (.sends req fun res => processHttpResponse client.json res.payload args.format)
      else if command = "tcp" then do
        let host ← index commandArgs 0
        let port ← index commandArgs 1
        let payload ← index commandArgs 2
        let port ← unwrap (parseU16 port)
        .ok (.sends
          (makeTcpRequest client.texts.tcp messageId targetShellId host (UInt16.ofNat port)
            (asBytes payload))
          fun res => processTcpResponse client.json res.payload args.format)
      else if command = "scripts" then do
        let scriptName ← index commandArgs 0
        .ok (.sends (makeScriptsRequest client.texts.scripts messageId targetShellId scriptName)
          fun res => processScriptResponse client.json res.payload args.format)
      else .ok .exits

/-- What a run of `main_command` gets from the outside. -/
structure CommandRun where
  randomId : String
  /-- Whether the certificates can be loaded. -/
  certificates : Bool
  /-- Whether `TcpStream::connect` succeeds. -/
  connects : Bool
  /-- The TLS connection over the stream. -/
  handshake : Option Unit
  writes : ℕ → Except ErrorKind ℕ
  startTime : ℕ
  polls : List Poll

/-- The message that is reported and `exit(-1)`. -/
def Printed.exit : Printed where
  exits := true

/-- `connect_to_hoposhell`: whether there is a connection, or the process exits. -/
def connectToHoposhell (run : CommandRun) : Bool :=
  args.serverCrtPath.isSome && args.shellKeyPath.isSome &&
    (!args.useSsl || run.certificates) && run.connects

/--
`main_command`: what the process has printed when it ends, unless it still waits for the
response.
-/
def mainCommand (run : CommandRun) : Except Panic (Option Printed) := do
  let targetShellId ← index args.extraArgs 0
  let command ← index args.extraArgs 1
  let commandArgs ← sliceFrom args.extraArgs 2
  let prepared ← prepareCommand client args targetShellId command commandArgs run.randomId
  match prepared with
  | .exits => .ok (some .exit)
  | .sends req processRes =>
      if connectToHoposhell args run then do
        if args.useSsl then unwrap run.handshake
        let sent ← sendRequestAndGetResponse client.base64 client.json client.zstd
          args.commandTimeout args.version req run.writes run.startTime run.polls
        match sent.outcome with
        | .waiting => .ok none
        | .exited => .ok (some .exit)
        | .returned (.error _) => .ok (some .exit)
        | .returned (.ok res) => (processRes res).map some
      else .ok (some .exit)

end SendCommand

/-- What the words of a client ask for. -/
inductive Command where
  | ls (folderPath : String)
  | download (remoteFilePath : String) (localFilePath : Option String)
  | glob (globPattern : String)
  | http (body : HttpCommandRequestBody)
  | tcp (body : TcpCommandRequestBody)
  | scripts (body : ScriptsCommandRequestBody)

namespace Command

def request (texts : BodyTexts) (messageId shellId : String) : Command → Request
  | .ls folderPath => makeLsRequest messageId shellId folderPath
  | .download remoteFilePath _ => makeDownloadRequest messageId shellId remoteFilePath
  | .glob globPattern => makeGlobRequest messageId shellId globPattern
  | .http body => makeTextRequest "http" messageId shellId (texts.http body)
  | .tcp body => makeTcpRequest texts.tcp messageId shellId body.host body.port body.payload
  | .scripts body => makeTextRequest "scripts" messageId shellId (texts.scripts body)

/-- How the result of the command is shown. -/
def showResult {File : Type} (client : Client File) (format : OutputFormat) (payload : Bytes) :
    Command → Except Panic Printed
  | .ls _ => processLsResponse client.json client.listing payload format
  | .download remoteFilePath localFilePath =>
      processDownloadResponse client.machine payload remoteFilePath localFilePath
  | .glob _ => processGlobResponse client.json client.listing payload format
  | .http _ => processHttpResponse client.json payload format
  | .tcp _ => processTcpResponse client.json payload format
  | .scripts _ => processScriptResponse client.json payload format

end Command

namespace Surroundings

/-- The files that match a pattern, as the JSON text of the answer. -/
def list (around : Surroundings) (invalid : String) (nameOf : Bytes → Except Panic String)
    (pattern : String) : Except Panic (Except Bytes Bytes) :=
  let pattern := around.system.tilde pattern
  match around.system.glob pattern with
  | .error error =>
      .ok (.error (makeErrorBytes around.json (invalid ++ pattern ++ ": " ++ error)))
  | .ok entries =>
      (entries.mapM (entryInfos nameOf)).map fun files =>
        .ok (asBytes (around.json.toString
          (.object [("entries", .array ((files.filterMap id).map FileInfos.json))])))

/-- The contents of a file. -/
def readFile (around : Surroundings) (filePath : String) : Except Bytes Bytes :=
  let filePath := around.system.tilde filePath
  if around.system.isFile filePath then
    match around.system.readFile filePath with
    | some contents => .ok contents
    | none => .error (makeErrorBytes around.json ("Cannot read file " ++ filePath))
  else .error (makeErrorBytes around.json ("File " ++ filePath ++ " does not exist"))

/-- The contents at a URL; only two of the verbs are supported. -/
def httpExchange (around : Surroundings) (body : HttpCommandRequestBody) :
    Except Panic (Except Bytes Bytes) :=
  match body.verb with
  | .get => .ok (httpResult around.json (around.system.httpGet body.url))
  | .post => do
      unwrap around.system.httpClient
      .ok (httpResult around.json (around.system.httpPost body.url (body.body.getD "")))
  | verb =>
      .ok (.error (makeErrorBytes around.json ("Unsupported http verb: " ++ verb.debug)))

/-- The exit code and the output of a script of the folder. -/
def runScript (around : Surroundings) (name : String) : Except Panic (Except Bytes Bytes) :=
  let folder := joinPath (asBytes around.hoposhellFolder) (asBytes "scripts")
  match findFileInFolder around.system folder name with
  | none =>
      .ok (.error (makeErrorBytesWithPrefix around.json [0, 0, 0, 1]
        ("Unable to find a script with name: " ++ name)))
  | some script => do
      let _ ← unwrap (fromUtf8 script)
      match around.system.output script with
      | .error error =>
          .ok (.error (makeErrorBytesWithPrefix around.json [0, 0, 0, 1]
            ("Error while executing script: " ++ error)))
      | .ok output =>
          .ok (.ok (toNeBytes (output.code.getD (if output.success then 0 else 1)) ++
            output.stdout))

end Surroundings

/-- What the remote shell is to do. -/
def Command.run (around : Surroundings) : Command → Except Panic (Except Bytes Bytes)
  | .ls folderPath => around.list "Invalid pattern " (fun path => unwrap (fromUtf8 path)) folderPath
  | .download remoteFilePath _ => .ok (around.readFile remoteFilePath)
  | .glob globPattern =>
      around.list "Cannot glob pattern " (fun path => .ok ((fromUtf8 path).getD "")) globPattern
  | .http body => around.httpExchange body
  | .tcp body => tcpExchange around.system around.json body
  | .scripts body => around.runScript body.name

section Meaning

variable {around : Surroundings} {texts : BodyTexts} {messageId shellId : String}

theorem list_eq {noPath invalid pattern : String} {nameOf : Bytes → Except Panic String} :
    ((listFiles around.system noPath invalid nameOf (asBytes pattern)).map fun result =>
      (result.map fun value => asBytes (around.json.toString value)).mapError fun value =>
        asBytes (around.json.toString value)) = around.list invalid nameOf pattern := by
  simp only [listFiles, Surroundings.list, maybeString, Option.bind_some, fromUtf8_asBytes]
  cases around.system.glob (around.system.tilde pattern) with
  | error error => rfl
  | ok entries =>
      dsimp only
      cases entries.mapM (entryInfos nameOf) <;> rfl

theorem readFile_eq {filePath : String} :
    processDownloadCommand around.system around.json (asBytes filePath) =
      .ok (around.readFile filePath) := by
  simp only [processDownloadCommand, Surroundings.readFile, maybeString, Option.bind_some,
    fromUtf8_asBytes, unwrap, bind, Except.bind]
  split_ifs
  · cases around.system.readFile (around.system.tilde filePath) <;> rfl
  · rfl

theorem httpExchange_eq (reads : around.bodies.Reads texts) {body : HttpCommandRequestBody} :
    processHttpCommand around.system around.bodies around.json (asBytes (texts.http body)) =
      around.httpExchange body := by
  simp only [processHttpCommand, maybeString, Option.bind_some, fromUtf8_asBytes,
    (reads.http body).1]
  unfold Surroundings.httpExchange
  cases body.verb <;> rfl

theorem runScript_eq (reads : around.bodies.Reads texts) {body : ScriptsCommandRequestBody} :
    processScriptsCommand around.system around.bodies around.json (asBytes (texts.scripts body))
      around.hoposhellFolder = around.runScript body.name := by
  simp only [processScriptsCommand, maybeString, Option.bind_some, fromUtf8_asBytes,
    (reads.scripts body).1]
  rfl

/-- The remote shell does what the command asks for, with the arguments of the command. -/
theorem responsePayload_request (reads : around.bodies.Reads texts) (command : Command) :
    around.responsePayload (command.request texts messageId shellId) = command.run around := by
  cases command with
  | ls folderPath => exact list_eq
  | download remoteFilePath localFilePath => exact readFile_eq
  | glob globPattern => exact list_eq
  | http body => exact httpExchange_eq reads
  | tcp body =>
      apply processTcpCommand_of_decoded
      simp [Command.request, makeTcpRequest, (reads.tcp body).1]
  | scripts body => exact runScript_eq reads

end Meaning

/-- The words that name a command; words behind those that are looked at are ignored. -/
inductive Names : String → List String → Command → Prop where
  | ls (folderPath : String) (more : List String) :
      Names "ls" (folderPath :: more) (.ls folderPath)
  | download (remoteFilePath : String) (more : List String) :
      Names "download" (remoteFilePath :: more) (.download remoteFilePath more.head?)
  | cp (remoteFilePath : String) (more : List String) :
      Names "cp" (remoteFilePath :: more) (.download remoteFilePath more.head?)
  | glob (globPattern : String) (more : List String) :
      Names "glob" (globPattern :: more) (.glob globPattern)
  | http {word : String} {verb : HttpVerb} (isVerb : HttpVerb.deserialize word = some verb)
      (url : String) (more : List String) :
      Names "http" (word :: url :: more) (.http { verb, url, body := more.head? })
  | tcp {word : String} {port : ℕ} (isPort : parseU16 word = some port) (host payload : String)
      (more : List String) :
      Names "tcp" (host :: word :: payload :: more)
        (.tcp { host, port := UInt16.ofNat port, payload := asBytes payload })
  | scripts (name : String) (more : List String) :
      Names "scripts" (name :: more) (.scripts { name })

def commandNames : List String :=
  ["ls", "download", "cp", "glob", "http", "tcp", "scripts"]

section Names

variable {File : Type} {client : Client File} {args : Args} {targetShellId name randomId : String}
  {words : List String} {req : Request} {processRes : Response → Except Panic Printed}

theorem eq_some_of_unwrap {α : Type} {option : Option α} {value : α}
    (unwrapped : unwrap option = .ok value) : option = some value := by
  cases option with
  | none => cases unwrapped
  | some other =>
      cases unwrapped
      rfl

theorem getElem?_cons_one (first : String) (more : List String) :
    (first :: more)[1]? = more.head? := by
  cases more <;> rfl

theorem index_of_cons {first word : String} {n : ℕ}
    (indexed : index (first :: words) (n + 1) = .ok word) : index words n = .ok word :=
  indexed

theorem exists_cons_of_index {word : String} (indexed : index words 0 = .ok word) :
    ∃ more, words = word :: more := by
  cases words with
  | nil => cases indexed
  | cons first more =>
      cases indexed
      exact ⟨more, rfl⟩

/-- What a command sends, and what it does with the response. -/
def Command.prepared (command : Command) (client : Client File) (args : Args)
    (messageId targetShellId : String) : Prepared :=
  .sends (command.request client.texts messageId targetShellId) fun res =>
    command.showResult client args.format res.payload

theorem prepareCommand_of_names {id : String} {command : Command} (isId : args.getShellId = some id)
    (names : Names name words command) :
    prepareCommand client args targetShellId name words randomId =
      .ok (command.prepared client args (id ++ ":" ++ randomId) targetShellId) := by
  simp only [prepareCommand, isId]
  cases names with
  | ls folderPath more => rfl
  | download remoteFilePath more => cases more <;> rfl
  | cp remoteFilePath more => cases more <;> rfl
  | glob globPattern more => rfl
  | http isVerb url more =>
      rw [← getElem?_cons_one url more]
      simp [makeHttpRequest, index, isVerb, unwrap, bind, Except.bind]
      rfl
  | tcp isPort host payload more =>
      simp [index, isPort, unwrap, bind, Except.bind]
      rfl
  | scripts name more => rfl

theorem prepareCommand_of_unknown {id : String} (isId : args.getShellId = some id)
    (unknown : name ∉ commandNames) :
    prepareCommand client args targetShellId name words randomId = .ok .exits := by
  simp only [commandNames, List.mem_cons, List.not_mem_nil, or_false, not_or] at unknown
  simp only [prepareCommand, isId, unknown, if_false, or_false]

theorem cases_of_prepareCommand {id : String} {prepared : Prepared}
    (isId : args.getShellId = some id)
    (returns : prepareCommand client args targetShellId name words randomId = .ok prepared) :
    (name ∉ commandNames ∧ prepared = .exits) ∨ ∃ command, Names name words command ∧
      prepared = command.prepared client args (id ++ ":" ++ randomId) targetShellId := by
  simp only [prepareCommand, isId] at returns
  by_cases ls : name = "ls"
  · rw [if_pos ls] at returns
    rcases exists_of_bind_eq_ok returns with ⟨folderPath, indexed, returns⟩
    rcases exists_cons_of_index indexed with ⟨more, rfl⟩
    cases returns
    rw [ls]
    exact .inr ⟨_, .ls folderPath more, rfl⟩
  rw [if_neg ls] at returns
  by_cases download : name = "download" ∨ name = "cp"
  · rw [if_pos download] at returns
    rcases exists_of_bind_eq_ok returns with ⟨remoteFilePath, indexed, returns⟩
    rcases exists_cons_of_index indexed with ⟨more, rfl⟩
    cases returns
    rw [getElem?_cons_one]
    rcases download with rfl | rfl
    · exact .inr ⟨_, .download remoteFilePath more, rfl⟩
    · exact .inr ⟨_, .cp remoteFilePath more, rfl⟩
  rw [if_neg download] at returns
  by_cases glob : name = "glob"
  · rw [if_pos glob] at returns
    rcases exists_of_bind_eq_ok returns with ⟨globPattern, indexed, returns⟩
    rcases exists_cons_of_index indexed with ⟨more, rfl⟩
    cases returns
    rw [glob]
    exact .inr ⟨_, .glob globPattern more, rfl⟩
  rw [if_neg glob] at returns
  by_cases http : name = "http"
  · rw [if_pos http] at returns
    rcases exists_of_bind_eq_ok returns with ⟨req, made, returns⟩
    rcases exists_of_bind_eq_ok made with ⟨word, first, made⟩
    rcases exists_of_bind_eq_ok made with ⟨url, second, made⟩
    rcases exists_of_bind_eq_ok made with ⟨verb, isVerb, made⟩
    rcases exists_cons_of_index first with ⟨rest, rfl⟩
    rcases exists_cons_of_index (index_of_cons second) with ⟨more, rfl⟩
    have third : (word :: url :: more)[2]? = more.head? := getElem?_cons_one url more
    rw [third] at made
    cases made
    cases returns
    rw [http]
    exact .inr ⟨_, .http (eq_some_of_unwrap isVerb) url more, rfl⟩
  rw [if_neg http] at returns
  by_cases tcp : name = "tcp"
  · rw [if_pos tcp] at returns
    rcases exists_of_bind_eq_ok returns with ⟨host, first, returns⟩
    rcases exists_of_bind_eq_ok returns with ⟨word, second, returns⟩
    rcases exists_of_bind_eq_ok returns with ⟨payload, third, returns⟩
    rcases exists_of_bind_eq_ok returns with ⟨port, isPort, returns⟩
    cases returns
    rcases exists_cons_of_index first with ⟨rest, rfl⟩
    rcases exists_cons_of_index (index_of_cons second) with ⟨rest, rfl⟩
    rcases exists_cons_of_index (index_of_cons (index_of_cons third)) with ⟨more, rfl⟩
    rw [tcp]
    exact .inr ⟨_, .tcp (eq_some_of_unwrap isPort) host payload more, rfl⟩
  rw [if_neg tcp] at returns
  by_cases scripts : name = "scripts"
  · rw [if_pos scripts] at returns
    rcases exists_of_bind_eq_ok returns with ⟨scriptName, indexed, returns⟩
    rcases exists_cons_of_index indexed with ⟨more, rfl⟩
    cases returns
    rw [scripts]
    exact .inr ⟨_, .scripts scriptName more, rfl⟩
  · rw [if_neg scripts] at returns
    cases returns
    exact .inl ⟨by simp [commandNames, ls, not_or.mp download, glob, http, tcp, scripts], rfl⟩

/--
Exactly the words that name a command are sent, as the request of the command, and the process
exits exactly without an id or when the name of the command is unknown; for all other words it
panics.
-/
theorem prepareCommand_iff {prepared : Prepared} :
    prepareCommand client args targetShellId name words randomId = .ok prepared ↔
      (prepared = .exits ∧ (args.getShellId = none ∨ name ∉ commandNames)) ∨
        ∃ id command, args.getShellId = some id ∧ Names name words command ∧
          prepared = command.prepared client args (id ++ ":" ++ randomId) targetShellId := by
  constructor
  · intro returns
    cases isId : args.getShellId with
    | none =>
        simp only [prepareCommand, isId] at returns
        cases returns
        exact .inl ⟨rfl, .inl rfl⟩
    | some id =>
        rcases cases_of_prepareCommand isId returns with ⟨unknown, exits⟩ | ⟨command, names, sends⟩
        · exact .inl ⟨exits, .inr unknown⟩
        · exact .inr ⟨id, command, rfl, names, sends⟩
  · rintro (⟨rfl, noId | unknown⟩ | ⟨id, command, isId, names, rfl⟩)
    · simp only [prepareCommand, noId]
    · cases isId : args.getShellId with
      | none => simp only [prepareCommand, isId]
      | some id => exact prepareCommand_of_unknown isId unknown
    · exact prepareCommand_of_names isId names

end Names

end Hoposhell
