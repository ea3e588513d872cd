import Hoposhell.CommandHandlers
import Hoposhell.Library.FileTree
import Hoposhell.Message

/-!
# What the client does with a response

The functions that show the payload of the response to a command, or store it in a file.
They print on the standard output, and two of them can end the process.  Printing succeeds;
only the single `write` of a download says how much it has written.  What is reported on the
standard error is left out, and what has to be unwrapped for a report is not.

A path made of a `String` is a list of characters.
-/

namespace Hoposhell

open PathText

inductive OutputFormat where
  | json
  | text
  | raw
deriving DecidableEq, Repr

/-- What a function of the client leaves behind when it returns or ends the process. -/
structure Printed where
  stdout : Bytes := []
  /-- The file that has been written, with its contents. -/
  file : Option (String × Bytes) := none
  exits : Bool := false
deriving DecidableEq

/-- `println!` of a text. -/
def line (text : String) : Bytes :=
  asBytes (text ++ "\n")

/-- What the client asks of the JSON library besides reading and printing values. -/
structure ListingJson where
  /-- `serde_json::from_value::<FileInfos>`. -/
  fileInfos : Json.Value → Option FileInfos
  toStringPretty : List Json.Value → String

def FileType.debug : FileType → String
  | .file => "File"
  | .folder => "Folder"

/-- The line of a file in a listing. -/
def FileInfos.show (infos : FileInfos) : String :=
  infos.name ++ " " ++ infos.fileType.debug ++ " " ++ toString infos.creationTimestamp ++ " " ++
    toString infos.modificationTimestamp ++ " " ++ toString infos.sizeInBytes

/-- `from_slice` reads a text that is UTF-8; `value["entries"]` of something else is `null`. -/
def printFileList (json : Json.Codec) (listing : ListingJson) (responsePayload : Bytes)
    (format : OutputFormat) : Except Panic Printed :=
  match (fromUtf8 responsePayload).bind json.fromStr with
  | none => do
      let _ ← unwrap (fromUtf8 responsePayload)
      .ok {}
  | some responsePayloadJson => do
      let files ← unwrap ((responsePayloadJson.get "entries").getD .null).asArray
      match format with
      | .json => .ok { stdout := line (listing.toStringPretty files) }
      | _ =>
          -- an entry that cannot be parsed is ignored
          .ok { stdout := (files.filterMap listing.fileInfos).flatMap fun file => line file.show }

def processLsResponse (json : Json.Codec) (listing : ListingJson) (responsePayload : Bytes)
    (format : OutputFormat) : Except Panic Printed :=
  printFileList json listing responsePayload format

def processGlobResponse (json : Json.Codec) (listing : ListingJson) (responsePayload : Bytes)
    (format : OutputFormat) : Except Panic Printed :=
  printFileList json listing responsePayload format

def processHttpResponse (json : Json.Codec) (responsePayload : Bytes) (format : OutputFormat) :
    Except Panic Printed :=
  if format = .raw then .ok { stdout := responsePayload }
  else
    match maybeString (some responsePayload) with
    | none => .ok {}
    | some textPayload =>
        if format = .text then .ok { stdout := line textPayload }
        else if format = .json then
          match json.fromStr textPayload with
          | none => .ok {}
          | some bodyJson => .ok { stdout := line (json.toString bodyJson) }
        else .ok {}

/-- What a remote peer or a script has written, shared by `tcp` and `scripts`. -/
def printOutput (json : Json.Codec) (output : Bytes) (format : OutputFormat) :
    Except Panic Bytes :=
  match format with
  | .raw => .ok output
  | .text => do
      let text ← unwrap (fromUtf8 output)
      .ok (line text)
  | .json => do
      let text ← unwrap (fromUtf8 output)
      .ok (line (json.toString (.string text)))

def processTcpResponse (json : Json.Codec) (responsePayload : Bytes) (format : OutputFormat) :
    Except Panic Printed := do
  let stdout ← printOutput json responsePayload format
  .ok { stdout }

/-- The first four bytes are the exit code of the script, which is only reported. -/
def processScriptResponse (json : Json.Codec) (responsePayload : Bytes) (format : OutputFormat) :
    Except Panic Printed :=
  if responsePayload.length < 4 then .ok { exits := true }
  else do
    let stdout ← printOutput json (responsePayload.drop 4) format
    .ok { stdout }

/-- `/` separates the components of a path. -/
def posix : Symbols Char where
  sep := '/'
  dot := '.'
  sep_ne_dot := by decide

/-- `compute_destination`; the text of a path that was made of strings can always be had. -/
def computeDestination {File : Type} (tree : FileTree Char File) (remoteFilePath : String)
    (dstPath : Option String) : Except Panic (Option String) := do
  let dstPath := (dstPath.getD "./").toList
  let fileName ← unwrap (posix.fileName remoteFilePath.toList)
  if tree.isDir posix dstPath then
    .ok (some (String.ofList (posix.join dstPath fileName)))
  else if tree.isFile posix dstPath then .ok (some (String.ofList dstPath))
  else if posix.endsWithSep dstPath then .ok none
  else
    match posix.parent dstPath with
    | none => .ok none
    | some parent =>
        if tree.isDir posix parent then .ok (some (String.ofList dstPath)) else .ok none

/-- What the machine of the client does for a download. -/
structure LocalMachine (File : Type) where
  tree : FileTree Char File
  /-- `stdout().write`. -/
  write : Bytes → Except ErrorKind ℕ
  /-- `std::fs::write`, which writes all of the contents or fails. -/
  writeFile : String → Bytes → Bool

def processDownloadResponse {File : Type} (machine : LocalMachine File) (responsePayload : Bytes)
    (remoteFilePath : String) (localFilePath : Option String) : Except Panic Printed :=
  if localFilePath = some "-" then
    match machine.write responsePayload with
    | .error _ => .error .unwrap
    | .ok n => .ok { stdout := responsePayload.take n }
  else do
    let targetPath ← computeDestination machine.tree remoteFilePath localFilePath
    match targetPath with
    | none => .ok { exits := true }
    | some targetPath =>
        if machine.writeFile targetPath responsePayload then
          .ok { file := some (targetPath, responsePayload) }
        else .ok {}

end Hoposhell
