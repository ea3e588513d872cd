import Hoposhell.ErrorReport
import Hoposhell.ProcessResponse
import Hoposhell.ResponseOrigin

/-!
# When a reply ends the client by a panic

The payload of a response is chosen by the remote shell, or even by the peer or the script
that the shell has asked.  This file says exactly which payloads the functions that read and
show a response survive.  Only `process_http_response` survives all of them: it is the one
that reports what it cannot decode.
-/

namespace Hoposhell

/-- An error body that is an object has a text under `error`, or nothing. -/
def ErrorReadable (json : Json.Codec) (payload : Bytes) : Prop :=
  ∀ errorBody, fromUtf8 payload = some errorBody →
    ∀ errorJson, json.fromStr errorBody = some errorJson →
      ∀ error, errorJson.get "error" = some error → error.asStr.isSome = true

/-- A text that, if it is JSON at all, has a list of entries. -/
def Listable (json : Json.Codec) (payload : Bytes) : Prop :=
  ∃ text, fromUtf8 payload = some text ∧
    ∀ value, json.fromStr text = some value →
      ∃ files, value.get "entries" = some (.array files)

/-- The bytes are not decoded, or they are UTF-8. -/
def Printable (payload : Bytes) (format : OutputFormat) : Prop :=
  format = .raw ∨ (fromUtf8 payload).isSome = true

theorem isOk_unwrap_iff {α : Type} {value : Option α} :
    (unwrap value).isOk = true ↔ value.isSome = true := by
  cases value <;> simp [unwrap]

section Parse

variable {json : Json.Codec} {req : Request}

theorem isOk_reportError_iff {payload : Bytes} :
    (reportError json payload).isOk = true ↔ ErrorReadable json payload := by
  rw [reportError, ErrorReadable]
  cases fromUtf8 payload with
  | none => simp
  | some errorBody =>
      cases read : json.fromStr errorBody with
      | none => simp [read]
      | some errorJson =>
          cases found : errorJson.get "error" with
          | none => simp [read, found]
          | some error => simp [read, found, isOk_map, isOk_unwrap_iff]

/-- A batch is survived when every error in the part of it that is examined can be read. -/
theorem isOk_parse_iff {contents : List Bytes} {allRes : List ChunkedResponse} :
    (parseCommandResponseMessage json req (contents.map commandMessage) allRes).isOk = true ↔
      ∀ message ∈ examined req (contents.map commandMessage),
        ∀ chunk ∈ message.content.bind (ownChunk req),
          chunk.statusCode ≠ .ok → ErrorReadable json chunk.payload := by
  induction contents generalizing allRes with
  | nil => simp [parseCommandResponseMessage, examined]
  | cons content contents ih =>
      cases own : ownChunk req content with
      | none =>
          have noChunk : okChunk req (commandMessage content) = none := by
            simp [okChunk, commandMessage, own]
          rw [List.map_cons, parse_ignored json own, examined, noChunk]
          simp [commandMessage, own]
      | some chunk =>
          by_cases ok : chunk.statusCode = .ok
          · have isChunk : okChunk req (commandMessage content) = some chunk := by
              simp [okChunk, commandMessage, own, ok]
            rw [List.map_cons, parse_own json own ok, examined, isChunk]
            by_cases last : chunk.chunkType = .last
            · simp [last, commandMessage, own, ok]
            · simp only [last, if_false, ih, List.forall_mem_cons]
              simp [commandMessage, own, ok]
          · have noChunk : okChunk req (commandMessage content) = none := by
              simp [okChunk, commandMessage, own, ok]
            rw [List.map_cons, parse_failed json own ok, examined, noChunk, isOk_map,
              isOk_reportError_iff]
            simp [commandMessage, own, ok]

end Parse

section Print

variable {json : Json.Codec} {listing : ListingJson} {responsePayload : Bytes}
  {format : OutputFormat}

theorem isOk_printFileList_iff :
    (printFileList json listing responsePayload format).isOk = true ↔
      Listable json responsePayload := by
  rw [printFileList, Listable]
  cases fromUtf8 responsePayload with
  | none => simp [unwrap, bind, Except.bind]
  | some text =>
      cases read : json.fromStr text with
      | none => simp [read, unwrap, bind, Except.bind]
      | some value =>
          simp only [read, Option.bind_some, isOk_bind_iff]
          cases found : value.get "entries" with
          | none => simp [read, found, unwrap, Json.Value.asArray]
          | some entries =>
              cases entries <;> cases format <;> simp [read, found, unwrap, Json.Value.asArray]

theorem isOk_processHttpResponse :
    (processHttpResponse json responsePayload format).isOk = true := by
  rw [processHttpResponse]
  cases maybeString (some responsePayload) with
  | none => cases format <;> rfl
  | some text => cases format <;> cases read : json.fromStr text <;> simp [read]

theorem isOk_printOutput_iff :
    (printOutput json responsePayload format).isOk = true ↔ Printable responsePayload format := by
  unfold printOutput Printable
  cases format <;> cases fromUtf8 responsePayload <;> simp [unwrap, bind, Except.bind]

theorem isOk_processTcpResponse_iff :
    (processTcpResponse json responsePayload format).isOk = true ↔
      Printable responsePayload format := by
  rw [processTcpResponse, isOk_bind_iff, ← @isOk_printOutput_iff json, isOk_iff]
  simp

theorem isOk_processScriptResponse_iff :
    (processScriptResponse json responsePayload format).isOk = true ↔
      responsePayload.length < 4 ∨ Printable (responsePayload.drop 4) format := by
  rw [processScriptResponse]
  split
  · rename_i short
    simp [short]
  · rename_i long
    rw [isOk_bind_iff, ← @isOk_printOutput_iff json, isOk_iff]
    simp [long]

end Print

/--
A client survives a reply exactly when an `error` in the errors it looks at is a text, a
listing is a text that has a list of entries or is no JSON, and output that is decoded is
UTF-8.
-/
theorem client_survives_iff (json : Json.Codec) (listing : ListingJson) :
    (∀ (req : Request) (contents : List Bytes) (allRes : List ChunkedResponse),
      (parseCommandResponseMessage json req (contents.map commandMessage) allRes).isOk = true ↔
        ∀ message ∈ examined req (contents.map commandMessage),
          ∀ chunk ∈ message.content.bind (ownChunk req),
            chunk.statusCode ≠ .ok → ErrorReadable json chunk.payload) ∧
      ∀ (responsePayload : Bytes) (format : OutputFormat),
        ((processLsResponse json listing responsePayload format).isOk = true ↔
            Listable json responsePayload) ∧
          ((processGlobResponse json listing responsePayload format).isOk = true ↔
            Listable json responsePayload) ∧
          (processHttpResponse json responsePayload format).isOk = true ∧
          ((processTcpResponse json responsePayload format).isOk = true ↔
            Printable responsePayload format) ∧
          ((processScriptResponse json responsePayload format).isOk = true ↔
            responsePayload.length < 4 ∨ Printable (responsePayload.drop 4) format) := by
  constructor
  · intro req contents allRes
    exact isOk_parse_iff
  · intro responsePayload format
    exact ⟨isOk_printFileList_iff, isOk_printFileList_iff, isOk_processHttpResponse,
      isOk_processTcpResponse_iff, isOk_processScriptResponse_iff⟩

/-- A reader of two small objects; its printer is not used. -/
def objectCodec : Json.Codec where
  fromStr text :=
    if text = "\x7b\x7d" then some (.object [])
    else if text = "\x7b\"error\":1\x7d" then some (.object [("error", .number "1")])
    else none
  toString _ := ""

/-- A listing without entries, an error that is a number, and output that is not UTF-8. -/
theorem client_panics :
    parseCommandResponseMessage objectCodec
        { cmd := "ls", messageId := "a:1", target := "shell:b", payload := [] }
        [commandMessage (ChunkedResponse.toMessagePayload
          { cmd := "ls", messageId := "a:1", statusCode := .incorrectParams, chunkType := .last,
            payload := asBytes "\x7b\"error\":1\x7d" })] [] = .error .unwrap ∧
      (∀ listing, processLsResponse objectCodec listing (asBytes "\x7b\x7d") .text =
        .error .unwrap) ∧
      (∀ listing, processGlobResponse objectCodec listing (asBytes "\x7b\x7d") .json =
        .error .unwrap) ∧
      processTcpResponse objectCodec [255] .text = .error .unwrap ∧
      processScriptResponse objectCodec [0, 0, 0, 0, 255] .json = .error .unwrap := by
  exact ⟨by decide, fun _ => rfl, fun _ => rfl, by decide, by decide⟩

end Hoposhell
