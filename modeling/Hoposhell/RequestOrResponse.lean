import Hoposhell.Basic
import Hoposhell.Library.Chunks
import Hoposhell.Library.Separator
import Mathlib.Data.List.ModifyLast

/-!
# Requests, responses and their chunks

A command message is a chunk of a request or of a response, written as six parts
separated by `/`; only the last part, the payload, may contain the separator.  This
file models the chunking of requests and responses, the serialization of chunks and
its parser.

The field `creation_timestamp` is left out: it is stamped from the clock, copied
along and never read, and it is not on the wire.
-/

namespace Hoposhell

inductive ReqOrRes where
  | req
  | res
deriving DecidableEq, Repr

inductive StatusCode where
  | ok
  | incorrectParams
  | internalError
deriving DecidableEq, Repr

inductive ChunkType where
  | notLast
  | last
deriving DecidableEq, Repr

structure ChunkedRequest where
  cmd : String
  messageId : String
  target : String
  chunkType : ChunkType
  payload : Bytes
deriving DecidableEq, Repr

structure Request where
  cmd : String
  messageId : String
  target : String
  payload : Bytes
deriving DecidableEq, Repr

structure ChunkedResponse where
  cmd : String
  messageId : String
  statusCode : StatusCode
  chunkType : ChunkType
  payload : Bytes
deriving DecidableEq, Repr

structure Response where
  cmd : String
  messageId : String
  statusCode : StatusCode
  payload : Bytes
deriving DecidableEq, Repr

inductive RequestOrResponse where
  | request (request : Request)
  | response (response : Response)
  | none
deriving DecidableEq, Repr

inductive ChunkedRequestOrResponse where
  | request (request : ChunkedRequest)
  | response (response : ChunkedResponse)
  | none
deriving DecidableEq, Repr

def maybeString (v : Option Bytes) : Option String :=
  v.bind fromUtf8

namespace ReqOrRes

def maybeFrom (v : Option Bytes) : Option ReqOrRes :=
  match maybeString v with
  | some text => if text = "req" then some .req else if text = "res" then some .res else none
  | none => none

def toBytes : ReqOrRes → Bytes
  | .req => asBytes "req"
  | .res => asBytes "res"

end ReqOrRes

/-- The value of decimal digits read after `value`. -/
def parseDigits (value : ℕ) : Bytes → Option ℕ
  | [] => some value
  | digit :: rest =>
      if 48 ≤ digit ∧ digit ≤ 57 then parseDigits (value * 10 + (digit.toNat - 48)) rest else none

/-- `parse::<i32>`: an optional sign, at least one digit, and a value in range. -/
def parseI32 (text : String) : Option ℤ :=
  match asBytes text with
  | [] => none
  | first :: rest =>
      if first = 43 ∨ first = 45 then
        if rest = [] then none
        else do
          let value ← parseDigits 0 rest
          if first = 43 then if value < 2147483648 then some value else none
          else if value ≤ 2147483648 then some (-(value : ℤ)) else none
      else do
        let value ← parseDigits 0 (first :: rest)
        if value < 2147483648 then some value else none

namespace StatusCode

def maybeFrom (code : Option String) : Option StatusCode :=
  match code.bind parseI32 with
  | some code =>
      if code = 200 then some .ok
      else if code = 400 then some .incorrectParams
      else if code = 500 then some .internalError
      else none
  | none => none

def toBytes : StatusCode → Bytes
  | .ok => asBytes "200"
  | .incorrectParams => asBytes "400"
  | .internalError => asBytes "500"

end StatusCode

namespace ChunkType

def maybeFrom (v : Option Bytes) : Option ChunkType :=
  match maybeString v with
  | some text =>
      if text = "not-last" then some .notLast else if text = "last" then some .last else none
  | none => none

def toBytes : ChunkType → Bytes
  | .notLast => asBytes "not-last"
  | .last => asBytes "last"

end ChunkType

/-- The six parts of a message, separated by `/`. -/
def messagePayload (cmd : String) (reqOrRes : ReqOrRes) (messageId : String)
    (targetOrStatus : Bytes) (chunkType : ChunkType) (payload : Bytes) : Bytes :=
  asBytes cmd ++ [messagePartsSeparator] ++ reqOrRes.toBytes ++ [messagePartsSeparator] ++
    asBytes messageId ++ [messagePartsSeparator] ++ targetOrStatus ++ [messagePartsSeparator] ++
    chunkType.toBytes ++ [messagePartsSeparator] ++ payload

def ChunkedRequest.toMessagePayload (chunk : ChunkedRequest) : Bytes :=
  messagePayload chunk.cmd .req chunk.messageId (asBytes chunk.target) chunk.chunkType chunk.payload

def ChunkedResponse.toMessagePayload (chunk : ChunkedResponse) : Bytes :=
  messagePayload chunk.cmd .res chunk.messageId chunk.statusCode.toBytes chunk.chunkType
    chunk.payload

namespace Request

def chunkOf (request : Request) (chunkType : ChunkType) (payload : Bytes) : ChunkedRequest where
  cmd := request.cmd
  messageId := request.messageId
  target := request.target
  chunkType := chunkType
  payload := payload

/-- `Request::chunk`: no chunk at all for an empty payload. -/
def chunk (request : Request) : List ChunkedRequest :=
  ((Chunks.chunks commandPayloadSize request.payload).map (request.chunkOf .notLast)).modifyLast
    fun last => { last with chunkType := .last }

end Request

namespace Response

def chunkOf (response : Response) (chunkType : ChunkType) (payload : Bytes) : ChunkedResponse where
  cmd := response.cmd
  messageId := response.messageId
  statusCode := response.statusCode
  chunkType := chunkType
  payload := payload

/-- The payloads of the chunks: a single empty one for an empty payload. -/
def payloadChunks (response : Response) : List Bytes :=
  match response.payload.length with
  | 0 => [[]]
  | _ => Chunks.chunks commandPayloadSize response.payload

def chunk (response : Response) : List ChunkedResponse :=
  (response.payloadChunks.map (response.chunkOf .notLast)).modifyLast
    fun last => { last with chunkType := .last }

end Response

/--
`ChunkedRequestOrResponse::deserialize`: a message whose parts are missing or cannot
be read is `None`.
-/
def ChunkedRequestOrResponse.deserialize (msg : Bytes) : ChunkedRequestOrResponse :=
  let parts := Separator.splitN (· == messagePartsSeparator) 6 msg
  let chunk : Option ChunkedRequestOrResponse := do
    let cmd ← maybeString parts[0]?
    let reqOrRes ← ReqOrRes.maybeFrom parts[1]?
    let messageId ← maybeString parts[2]?
    let targetOrStatus ← maybeString parts[3]?
    let chunkType ← ChunkType.maybeFrom parts[4]?
    let payload ← parts[5]?
    match reqOrRes with
    | .req => some (.request { cmd, messageId, target := targetOrStatus, chunkType, payload })
    | .res =>
        let statusCode ← StatusCode.maybeFrom (some targetOrStatus)
        some (.response { cmd, messageId, statusCode, chunkType, payload })
  chunk.getD .none

/-- A header field that does not contain the separator. -/
def SlashFree (text : String) : Prop :=
  messagePartsSeparator ∉ asBytes text

instance (text : String) : Decidable (SlashFree text) :=
  inferInstanceAs (Decidable (¬_))

@[simp]
theorem maybeString_asBytes (text : String) : maybeString (some (asBytes text)) = some text := by
  simp [maybeString]

@[simp]
theorem ReqOrRes.maybeFrom_toBytes (kind : ReqOrRes) :
    ReqOrRes.maybeFrom (some kind.toBytes) = some kind := by
  cases kind <;> decide

@[simp]
theorem ChunkType.maybeFrom_toBytes (chunkType : ChunkType) :
    ChunkType.maybeFrom (some chunkType.toBytes) = some chunkType := by
  cases chunkType <;> decide

theorem StatusCode.maybeFrom_toBytes (statusCode : StatusCode) :
    ∃ text, maybeString (some statusCode.toBytes) = some text ∧
      StatusCode.maybeFrom (some text) = some statusCode := by
  cases statusCode with
  | ok => exact ⟨"200", by decide⟩
  | incorrectParams => exact ⟨"400", by decide⟩
  | internalError => exact ⟨"500", by decide⟩

theorem splitN_messagePayload {cmd messageId : String} {reqOrRes : ReqOrRes}
    {targetOrStatus : Bytes} {chunkType : ChunkType} {payload : Bytes}
    (cmdFree : SlashFree cmd) (messageIdFree : SlashFree messageId)
    (targetFree : messagePartsSeparator ∉ targetOrStatus) :
    Separator.splitN (· == messagePartsSeparator) 6
        (messagePayload cmd reqOrRes messageId targetOrStatus chunkType payload) =
      [asBytes cmd, reqOrRes.toBytes, asBytes messageId, targetOrStatus, chunkType.toBytes,
        payload] := by
  have free : ∀ {piece : Bytes}, messagePartsSeparator ∉ piece →
      ∀ byte ∈ piece, (byte == messagePartsSeparator) = false := by
    intro piece absent byte mem
    simp only [beq_eq_false_iff_ne]
    rintro rfl
    exact absent mem
  have kindFree : messagePartsSeparator ∉ reqOrRes.toBytes := by cases reqOrRes <;> decide
  have chunkTypeFree : messagePartsSeparator ∉ chunkType.toBytes := by cases chunkType <;> decide
  simp only [messagePayload, List.append_assoc, List.cons_append, List.nil_append]
  rw [Separator.splitN_append (free cmdFree) (beq_self_eq_true _),
    Separator.splitN_append (free kindFree) (beq_self_eq_true _),
    Separator.splitN_append (free messageIdFree) (beq_self_eq_true _),
    Separator.splitN_append (free targetFree) (beq_self_eq_true _),
    Separator.splitN_append (free chunkTypeFree) (beq_self_eq_true _), Separator.splitN_one]

/-- A request chunk survives serialization when its header fields have no separator. -/
theorem deserialize_request {chunk : ChunkedRequest} (cmdFree : SlashFree chunk.cmd)
    (messageIdFree : SlashFree chunk.messageId) (targetFree : SlashFree chunk.target) :
    ChunkedRequestOrResponse.deserialize chunk.toMessagePayload = .request chunk := by
  rw [ChunkedRequestOrResponse.deserialize, ChunkedRequest.toMessagePayload,
    splitN_messagePayload cmdFree messageIdFree targetFree]
  simp

theorem deserialize_response {chunk : ChunkedResponse} (cmdFree : SlashFree chunk.cmd)
    (messageIdFree : SlashFree chunk.messageId) :
    ChunkedRequestOrResponse.deserialize chunk.toMessagePayload = .response chunk := by
  rcases chunk.statusCode.maybeFrom_toBytes with ⟨text, decoded, status⟩
  have statusFree : messagePartsSeparator ∉ chunk.statusCode.toBytes := by
    cases chunk.statusCode <;> decide
  rw [ChunkedRequestOrResponse.deserialize, ChunkedResponse.toMessagePayload,
    splitN_messagePayload cmdFree messageIdFree statusFree]
  simp [decoded, status]

@[simp]
theorem Request.chunk_of_payload_nil {request : Request} (empty : request.payload = []) :
    request.chunk = [] := by
  simp only [Request.chunk, empty, Chunks.chunks_nil]
  rfl

theorem exists_chunks_eq {payload : Bytes} (nonempty : payload ≠ []) :
    ∃ (front : List Bytes) (last : Bytes), front.flatten ++ last = payload ∧
      Chunks.chunks commandPayloadSize payload = front ++ [last] := by
  have positive : 0 < commandPayloadSize := by decide
  rcases List.eq_nil_or_concat (Chunks.chunks commandPayloadSize payload) with
    none | ⟨front, last, pieces⟩
  · exact absurd ((Chunks.chunks_eq_nil_iff positive).mp none) nonempty
  · rw [List.concat_eq_append] at pieces
    have whole := Chunks.flatten_chunks positive payload
    rw [pieces, List.flatten_append] at whole
    exact ⟨front, last, by simpa using whole, pieces⟩

/-- The chunks of a request carry its payload, and exactly the last one is marked. -/
theorem Request.chunk_eq {request : Request} (nonempty : request.payload ≠ []) :
    ∃ (front : List Bytes) (last : Bytes), front.flatten ++ last = request.payload ∧
      request.chunk = front.map (request.chunkOf .notLast) ++ [request.chunkOf .last last] := by
  rcases exists_chunks_eq nonempty with ⟨front, last, whole, pieces⟩
  refine ⟨front, last, whole, ?_⟩
  rw [Request.chunk, pieces, List.map_append, List.map_singleton, List.modifyLast_concat]
  rfl

theorem Response.chunk_eq (response : Response) :
    ∃ (front : List Bytes) (last : Bytes), front.flatten ++ last = response.payload ∧
      response.chunk = front.map (response.chunkOf .notLast) ++ [response.chunkOf .last last] := by
  have pieces : ∃ (front : List Bytes) (last : Bytes), front.flatten ++ last = response.payload ∧
      response.payloadChunks = front ++ [last] := by
    by_cases empty : response.payload = []
    · exact ⟨[], [], by simp [empty], by simp [Response.payloadChunks, empty]⟩
    · rcases exists_chunks_eq empty with ⟨front, last, whole, pieces⟩
      refine ⟨front, last, whole, ?_⟩
      rw [← pieces, Response.payloadChunks]
      split
      · rename_i none
        exact absurd (List.eq_nil_of_length_eq_zero none) empty
      · rfl
  rcases pieces with ⟨front, last, whole, pieces⟩
  refine ⟨front, last, whole, ?_⟩
  rw [Response.chunk, pieces, List.map_append, List.map_singleton, List.modifyLast_concat]
  rfl

theorem Request.header_of_mem_chunk {request : Request} {chunk : ChunkedRequest}
    (mem : chunk ∈ request.chunk) :
    chunk.cmd = request.cmd ∧ chunk.messageId = request.messageId ∧
      chunk.target = request.target := by
  by_cases empty : request.payload = []
  · simp [Request.chunk_of_payload_nil empty] at mem
  · rcases Request.chunk_eq empty with ⟨front, last, _, chunks⟩
    rw [chunks] at mem
    rcases List.mem_append.mp mem with inFront | isLast
    · rcases List.mem_map.mp inFront with ⟨piece, _, rfl⟩
      exact ⟨rfl, rfl, rfl⟩
    · rw [List.mem_singleton.mp isLast]
      exact ⟨rfl, rfl, rfl⟩

theorem Response.header_of_mem_chunk {response : Response} {chunk : ChunkedResponse}
    (mem : chunk ∈ response.chunk) :
    chunk.cmd = response.cmd ∧ chunk.messageId = response.messageId ∧
      chunk.statusCode = response.statusCode := by
  rcases Response.chunk_eq response with ⟨front, last, _, chunks⟩
  rw [chunks] at mem
  rcases List.mem_append.mp mem with inFront | isLast
  · rcases List.mem_map.mp inFront with ⟨piece, _, rfl⟩
    exact ⟨rfl, rfl, rfl⟩
  · rw [List.mem_singleton.mp isLast]
    exact ⟨rfl, rfl, rfl⟩

theorem Response.flatMap_chunk (response : Response) :
    response.chunk.flatMap (·.payload) = response.payload := by
  rcases Response.chunk_eq response with ⟨front, last, whole, chunks⟩
  rw [chunks, ← whole, List.flatMap_append, List.flatMap_map]
  simp [Response.chunkOf, List.flatMap_def]

theorem deserialize_of_mem_request {request : Request} (cmdFree : SlashFree request.cmd)
    (messageIdFree : SlashFree request.messageId) (targetFree : SlashFree request.target)
    {chunk : ChunkedRequest} (mem : chunk ∈ request.chunk) :
    ChunkedRequestOrResponse.deserialize chunk.toMessagePayload = .request chunk := by
  rcases Request.header_of_mem_chunk mem with ⟨cmd, messageId, target⟩
  exact deserialize_request (by rwa [cmd]) (by rwa [messageId]) (by rwa [target])

theorem deserialize_of_mem_response {response : Response} (cmdFree : SlashFree response.cmd)
    (messageIdFree : SlashFree response.messageId) {chunk : ChunkedResponse}
    (mem : chunk ∈ response.chunk) :
    ChunkedRequestOrResponse.deserialize chunk.toMessagePayload = .response chunk := by
  rcases Response.header_of_mem_chunk mem with ⟨cmd, messageId, _⟩
  exact deserialize_response (by rwa [cmd]) (by rwa [messageId])

end Hoposhell
