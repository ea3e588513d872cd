import Hoposhell.CommandProcessor

/-!
# What the commands do

The functions that serve the commands on the remote shell, with everything they ask of
the machine in the record `System` and of the JSON library in `RequestBodies`.  A call
that the source unwraps panics when it fails.
-/

namespace Hoposhell

/-- The prefix stands in front of the JSON text of the error. -/
def makeErrorBytesWithPrefix (json : Json.Codec) (stem : Bytes) (msg : String) : Bytes :=
  stem ++ asBytes (json.toString (makeError msg))

/-- What `metadata` tells of a file; a time is in nanoseconds since `UNIX_EPOCH`. -/
structure FileMetadata where
  isDir : Bool
  created : Option ℤ
  modified : Option ℤ
  size : ℕ

/-- A path that matches a pattern, and its metadata when it can be read. -/
structure GlobEntry where
  path : Bytes
  metadata : Option FileMetadata

/-- A connection that `TcpStream::connect` has opened. -/
structure TcpConnection where
  write : Bytes → Except String ℕ
  setReadTimeout : Option Unit
  readToEnd : Except String Bytes

structure ScriptOutput where
  stdout : Bytes
  /-- There is no code when the script was ended by a signal. -/
  code : Option Int32
  success : Bool

/-- The machine that the shell runs on; the texts of its errors are part of the answers. -/
structure System where
  tilde : String → String
  glob : String → Except String (List (Option GlobEntry))
  isFile : String → Bool
  readFile : String → Option Bytes
  /-- No response, or one whose bytes can be had or not. -/
  httpGet : String → Option (Option Bytes)
  /-- `Client::new`, which panics when the TLS backend cannot be initialized. -/
  httpClient : Option Unit
  httpPost : String → String → Option (Option Bytes)
  connect : String → Option TcpConnection
  /-- The names of the entries of a folder. -/
  readDir : Bytes → Option (List (Option Bytes))
  output : Bytes → Except String ScriptOutput

inductive HttpVerb where
  | get
  | post
  | put
  | delete
deriving DecidableEq, Repr

def HttpVerb.debug : HttpVerb → String
  | .get => "GET"
  | .post => "POST"
  | .put => "PUT"
  | .delete => "DELETE"

structure HttpCommandRequestBody where
  verb : HttpVerb
  url : String
  body : Option String

structure TcpCommandRequestBody where
  host : String
  port : UInt16
  payload : Bytes
deriving DecidableEq, Repr

structure ScriptsCommandRequestBody where
  name : String

/-- `serde_json::from_str` at the types of the bodies: a body, or the text of an error. -/
structure RequestBodies where
  http : String → Except String HttpCommandRequestBody
  tcp : String → Except String TcpCommandRequestBody
  scripts : String → Except String ScriptsCommandRequestBody

inductive FileType where
  | file
  | folder
deriving DecidableEq, Repr

structure FileInfos where
  name : String
  fileType : FileType
  creationTimestamp : ℕ
  modificationTimestamp : ℕ
  sizeInBytes : ℕ
deriving DecidableEq, Repr

def FileType.json : FileType → Json.Value
  | .file => .string "file"
  | .folder => .string "dir"

/-- The fields of an object are in the order of their names. -/
def FileInfos.json (infos : FileInfos) : Json.Value :=
  .object
    [("creationTimestamp", .number (toString infos.creationTimestamp)),
      ("fileType", infos.fileType.json),
      ("modificationTimestamp", .number (toString infos.modificationTimestamp)),
      ("name", .string infos.name), ("sizeInBytes", .number (toString infos.sizeInBytes))]

/-- `duration_since(UNIX_EPOCH).unwrap().as_secs()` of a time that may be unavailable. -/
def timestamp : Option ℤ → Except Panic ℕ
  | some time =>
      if 0 ≤ time then .ok (time / 1000000000).toNat else .error .unwrap
  | none => .ok 0

def FileInfos.fromMetadata (metadata : FileMetadata) (fileName : String) :
    Except Panic FileInfos := do
  let creationTimestamp ← timestamp metadata.created
  let modificationTimestamp ← timestamp metadata.modified
  .ok
    { name := fileName
      fileType := if metadata.isDir then .folder else .file
      creationTimestamp
      modificationTimestamp
      sizeInBytes := metadata.size }

/-- The infos of an entry; one that cannot be read is ignored. -/
def entryInfos (nameOf : Bytes → Except Panic String) (entry : Option GlobEntry) :
    Except Panic (Option FileInfos) :=
  match entry with
  | some { path, metadata := some metadata } => do
      let name ← nameOf path
      let infos ← FileInfos.fromMetadata metadata name
      .ok (some infos)
  | _ => .ok none

/-- The files that match a pattern, common to `ls` and `glob`. -/
def listFiles (system : System) (noPath invalid : String)
    (nameOf : Bytes → Except Panic String) (payload : Bytes) :
    Except Panic (Except Json.Value Json.Value) :=
  match maybeString (some payload) with
  | none => .ok (.error (makeError noPath))
  | some pattern =>
      let pattern := system.tilde pattern
      match system.glob pattern with
      | .error error => .ok (.error (makeError (invalid ++ pattern ++ ": " ++ error)))
      | .ok entries => do
          let files ← entries.mapM (entryInfos nameOf)
          .ok (.ok (.object [("entries", .array ((files.filterMap id).map FileInfos.json))]))

def processLsCommand (system : System) (payload : Bytes) :
    Except Panic (Except Json.Value Json.Value) :=
  listFiles system "No folder path provided" "Invalid pattern " (fun path => unwrap (fromUtf8 path))
    payload

/-- The name of a file whose path is not UTF-8 is empty. -/
def processGlobCommand (system : System) (payload : Bytes) :
    Except Panic (Except Json.Value Json.Value) :=
  listFiles system "No glob_pattern path provided" "Cannot glob pattern "
    (fun path => .ok ((fromUtf8 path).getD "")) payload

def processDownloadCommand (system : System) (json : Json.Codec) (payload : Bytes) :
    Except Panic (Except Bytes Bytes) :=
  match maybeString (some payload) with
  | none => .ok (.error (makeErrorBytes json "No file path provided"))
  | some filePath => do
      let filePath := system.tilde filePath
      if system.isFile filePath then
        match system.readFile filePath with
        | some fileContents => .ok (.ok fileContents)
        | none => do
            let text ← unwrap (fromUtf8 (asBytes filePath))
            .ok (.error (makeErrorBytes json ("Cannot read file " ++ text)))
      else do
        let text ← unwrap (fromUtf8 (asBytes filePath))
        .ok (.error (makeErrorBytes json ("File " ++ text ++ " does not exist")))

/-- The result of a command out of the response to an HTTP request. -/
def httpResult (json : Json.Codec) : Option (Option Bytes) → Except Bytes Bytes
  | some (some contents) => .ok contents
  | some none => .error (makeErrorBytes json "Cannot get response bytes")
  | none => .error (makeErrorBytes json "Cannot access url")

def processHttpCommand (system : System) (bodies : RequestBodies) (json : Json.Codec)
    (payload : Bytes) : Except Panic (Except Bytes Bytes) :=
  match maybeString (some payload) with
  | none => .ok (.error (makeErrorBytes json "No text payload provided"))
  | some textPayload =>
      match bodies.http textPayload with
      | .error error => .ok (.error (makeErrorBytes json ("Invalid json payload: " ++ error)))
      | .ok requestInfos =>
          match requestInfos.verb with
          | .get => .ok (httpResult json (system.httpGet requestInfos.url))
          | .post => do
              unwrap system.httpClient
              .ok (httpResult json
                (system.httpPost requestInfos.url (requestInfos.body.getD "")))
          | verb => .ok (.error (makeErrorBytes json ("Unsupported http verb: " ++ verb.debug)))

/-- The TCP request at the location of the body. -/
def tcpExchange (system : System) (json : Json.Codec) (requestInfos : TcpCommandRequestBody) :
    Except Panic (Except Bytes Bytes) := do
  let address := requestInfos.host ++ ":" ++ toString requestInfos.port
  let stream ← unwrap (system.connect address)
  match stream.write requestInfos.payload with
  | .error error =>
      .ok (.error (makeErrorBytes json ("Error while writing to tcp stream: " ++ error)))
  | .ok n =>
      if n ≠ requestInfos.payload.length then
        .ok (.error (makeErrorBytes json ("Wrong number of bytes written to tcp steam: " ++
          toString n ++ " bytes written instead of " ++
          toString requestInfos.payload.length ++ " bytes")))
      else do
        unwrap stream.setReadTimeout
        match stream.readToEnd with
        | .error error =>
            .ok (.error (makeErrorBytes json ("Error while reading from tcp stream: " ++ error)))
        | .ok response => .ok (.ok response)

def processTcpCommand (system : System) (bodies : RequestBodies) (json : Json.Codec)
    (payload : Bytes) : Except Panic (Except Bytes Bytes) :=
  match maybeString (some payload) with
  | none => .ok (.error (makeErrorBytes json "No text payload provided"))
  | some textPayload =>
      match bodies.tcp textPayload with
      | .error error => .ok (.error (makeErrorBytes json ("Invalid json payload: " ++ error)))
      | .ok requestInfos => tcpExchange system json requestInfos

/-- `Path::join` with a relative path. -/
def joinPath (folder name : Bytes) : Bytes :=
  if folder = [] ∨ folder.getLast? = some 47 then folder ++ name else folder ++ [47] ++ name

/-- The first entry of the folder whose name is the one looked for. -/
def findFileInFolder (system : System) (folderPath : Bytes) (targetFileName : String) :
    Option Bytes := do
  let names ← system.readDir folderPath
  let name ← names.findSome? fun name =>
    match name with
    | some name => if fromUtf8 name = some targetFileName then some name else none
    | none => none
  some (joinPath folderPath name)

/-- `to_ne_bytes` of an `i32` on a little-endian machine. -/
def toNeBytes (code : Int32) : Bytes :=
  [code.toUInt32.toUInt8, (code.toUInt32 >>> 8).toUInt8, (code.toUInt32 >>> 16).toUInt8,
    (code.toUInt32 >>> 24).toUInt8]

def processScriptsCommand (system : System) (bodies : RequestBodies) (json : Json.Codec)
    (payload : Bytes) (hoposhellFolder : String) : Except Panic (Except Bytes Bytes) :=
  match maybeString (some payload) with
  | none => .ok (.error (makeErrorBytesWithPrefix json [0, 0, 0, 1] "No text payload provided"))
  | some textPayload =>
      match bodies.scripts textPayload with
      | .error error =>
          .ok (.error (makeErrorBytesWithPrefix json [0, 0, 0, 1]
            ("Invalid json payload: " ++ error)))
      | .ok requestInfos =>
          let scriptFolderPath := joinPath (asBytes hoposhellFolder) (asBytes "scripts")
          match findFileInFolder system scriptFolderPath requestInfos.name with
          | none =>
              .ok (.error (makeErrorBytesWithPrefix json [0, 0, 0, 1]
                ("Unable to find a script with name: " ++ requestInfos.name)))
          | some scriptPath => do
              -- the path is printed before the script is started
              let _ ← unwrap (fromUtf8 scriptPath)
              match system.output scriptPath with
              | .error error =>
                  .ok (.error (makeErrorBytesWithPrefix json [0, 0, 0, 1]
                    ("Error while executing script: " ++ error)))
              | .ok output =>
                  let code := output.code.getD (if output.success then 0 else 1)
                  .ok (.ok (toNeBytes code ++ output.stdout))

end Hoposhell
