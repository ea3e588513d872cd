import Hoposhell.Library.Reassembly
import Hoposhell.RequestOrResponse

/-!
# The history of unfinished requests and responses

`CommandHistory::append` puts the chunks of requests and of responses back together,
in two lists of unfinished items looked up by message id.  Both branches of the
source are the same lookup, `Reassembly.Scheme.absorb`, over two schemes.

`append_appendAll` says what a call returns after any sequence of messages, by
reference to that sequence alone, and `appendAll_chunk_iff` when the chunks of a
request come back as that request.
-/

namespace Hoposhell

/-- How the chunks of requests are put together. -/
def requests : Reassembly.Scheme String ChunkedRequest Request where
  chunkKey chunk := chunk.messageId
  isLast chunk := chunk.chunkType == .last
  start chunk :=
    { cmd := chunk.cmd, messageId := chunk.messageId, target := chunk.target,
      payload := chunk.payload }
  extend past chunk := { past with payload := past.payload ++ chunk.payload }
  itemKey past := past.messageId
  itemKey_start _ := rfl
  itemKey_extend _ _ := rfl

/-- How the chunks of responses are put together. -/
def responses : Reassembly.Scheme String ChunkedResponse Response where
  chunkKey chunk := chunk.messageId
  isLast chunk := chunk.chunkType == .last
  start chunk :=
    { cmd := chunk.cmd, messageId := chunk.messageId, statusCode := chunk.statusCode,
      payload := chunk.payload }
  extend past chunk := { past with payload := past.payload ++ chunk.payload }
  itemKey past := past.messageId
  itemKey_start _ := rfl
  itemKey_extend _ _ := rfl

structure CommandHistory where
  pastRequests : List Request
  pastResponses : List Response
deriving DecidableEq, Repr

def RequestOrResponse.ofRequest (finished : Option Request) : RequestOrResponse :=
  finished.elim .none .request

def RequestOrResponse.ofResponse (finished : Option Response) : RequestOrResponse :=
  finished.elim .none .response

namespace CommandHistory

def new : CommandHistory where
  pastRequests := []
  pastResponses := []

def append (history : CommandHistory) (msg : Bytes) : RequestOrResponse × CommandHistory :=
  match ChunkedRequestOrResponse.deserialize msg with
  | .request chunk =>
      let (finished, pastRequests) := requests.absorb history.pastRequests chunk
      (.ofRequest finished, { history with pastRequests })
  | .response chunk =>
      let (finished, pastResponses) := responses.absorb history.pastResponses chunk
      (.ofResponse finished, { history with pastResponses })
  | .none => (.none, history)

/-- The results of appending messages in turn, and the history after them. -/
def appendAll (history : CommandHistory) : List Bytes → List RequestOrResponse × CommandHistory
  | [] => ([], history)
  | msg :: msgs =>
      let first := history.append msg
      let rest := appendAll first.2 msgs
      (first.1 :: rest.1, rest.2)

end CommandHistory

def requestChunks (msgs : List Bytes) : List ChunkedRequest :=
  msgs.filterMap fun msg =>
    match ChunkedRequestOrResponse.deserialize msg with
    | .request chunk => some chunk
    | _ => none

def responseChunks (msgs : List Bytes) : List ChunkedResponse :=
  msgs.filterMap fun msg =>
    match ChunkedRequestOrResponse.deserialize msg with
    | .response chunk => some chunk
    | _ => none

/-- The request a last chunk completes, after the open run of its id. -/
def completeRequest (run : List ChunkedRequest) (last : ChunkedRequest) : Request where
  cmd := (run.headD last).cmd
  messageId := last.messageId
  target := (run.headD last).target
  payload := run.flatMap (·.payload) ++ last.payload

/-- The response a last chunk completes, after the open run of its id. -/
def completeResponse (run : List ChunkedResponse) (last : ChunkedResponse) : Response where
  cmd := (run.headD last).cmd
  messageId := last.messageId
  statusCode := (run.headD last).statusCode
  payload := run.flatMap (·.payload) ++ last.payload

/--
What a message completes after others, by reference to their chunks: a last chunk
completes the item made of the chunks of its own kind and id since the previous last
one, and itself.
-/
def completedItem (msgs : List Bytes) (msg : Bytes) : RequestOrResponse :=
  match ChunkedRequestOrResponse.deserialize msg with
  | .request chunk =>
      match chunk.chunkType with
      | .notLast => .none
      | .last =>
          .request (completeRequest (requests.openRun chunk.messageId (requestChunks msgs)) chunk)
  | .response chunk =>
      match chunk.chunkType with
      | .notLast => .none
      | .last =>
          .response
            (completeResponse (responses.openRun chunk.messageId (responseChunks msgs)) chunk)
  | .none => .none

/-- Two messages are chunks of one kind with one id. -/
def sameItem (left right : Bytes) : Bool :=
  match ChunkedRequestOrResponse.deserialize left, ChunkedRequestOrResponse.deserialize right with
  | .request left, .request right => left.messageId = right.messageId
  | .response left, .response right => left.messageId = right.messageId
  | _, _ => false

/-- The two lists are those of the open runs of the messages received. -/
structure CommandHistory.Represents (history : CommandHistory) (msgs : List Bytes) : Prop where
  pastRequests : requests.Represents (requestChunks msgs) history.pastRequests
  pastResponses : responses.Represents (responseChunks msgs) history.pastResponses

theorem describes_completeRequest : requests.Describes completeRequest where
  start_eq _ := rfl
  extend_eq run chunk last sameId := by
    have messageId : chunk.messageId = last.messageId := sameId
    cases run <;> simp [requests, completeRequest, messageId]

theorem describes_completeResponse : responses.Describes completeResponse where
  start_eq _ := rfl
  extend_eq run chunk last sameId := by
    have messageId : chunk.messageId = last.messageId := sameId
    cases run <;> simp [responses, completeResponse, messageId]

namespace CommandHistory

theorem represents_new : new.Represents [] where
  pastRequests := Reassembly.Scheme.represents_nil
  pastResponses := Reassembly.Scheme.represents_nil

/-- One message completes what the reference says and leaves a history representing it. -/
theorem Represents.append {history : CommandHistory} {msgs : List Bytes}
    (represents : history.Represents msgs) (msg : Bytes) :
    (history.append msg).1 = completedItem msgs msg ∧
      (history.append msg).2.Represents (msgs ++ [msg]) := by
  rw [CommandHistory.append, completedItem]
  cases read : ChunkedRequestOrResponse.deserialize msg with
  | none =>
      refine ⟨rfl, ?_, ?_⟩
      · simpa [requestChunks, read] using represents.pastRequests
      · simpa [responseChunks, read] using represents.pastResponses
  | request chunk =>
      have step := represents.pastRequests.absorb chunk
      rw [describes_completeRequest.completed_eq] at step
      refine ⟨?_, ?_, ?_⟩
      · simp only [step.1]
        cases kind : chunk.chunkType <;>
          simp [requests, kind, RequestOrResponse.ofRequest]
      · simpa [requestChunks, read] using step.2
      · simpa [responseChunks, read] using represents.pastResponses
  | response chunk =>
      have step := represents.pastResponses.absorb chunk
      rw [describes_completeResponse.completed_eq] at step
      refine ⟨?_, ?_, ?_⟩
      · simp only [step.1]
        cases kind : chunk.chunkType <;>
          simp [responses, kind, RequestOrResponse.ofResponse]
      · simpa [requestChunks, read] using represents.pastRequests
      · simpa [responseChunks, read] using step.2

theorem Represents.appendAll {history : CommandHistory} {seen : List Bytes}
    (represents : history.Represents seen) (msgs : List Bytes) :
    (history.appendAll msgs).2.Represents (seen ++ msgs) := by
  induction msgs generalizing history seen with
  | nil => simpa [CommandHistory.appendAll] using represents
  | cons msg msgs ih => simpa [CommandHistory.appendAll] using ih (represents.append msg).2

theorem represents_appendAll_new (msgs : List Bytes) :
    (new.appendAll msgs).2.Represents msgs := by
  simpa using represents_new.appendAll msgs

end CommandHistory

theorem requestChunks_filter {msg : Bytes} {chunk : ChunkedRequest}
    (read : ChunkedRequestOrResponse.deserialize msg = .request chunk) (msgs : List Bytes) :
    requestChunks (msgs.filter fun other => sameItem other msg) =
      (requestChunks msgs).filter fun other => requests.chunkKey other = chunk.messageId := by
  rw [requestChunks, requestChunks, List.filterMap_filter, List.filter_filterMap]
  congr 1
  funext other
  cases readOther : ChunkedRequestOrResponse.deserialize other with
  | none => simp [sameItem, readOther]
  | response other => simp [sameItem, read, readOther]
  | request other =>
      by_cases same : other.messageId = chunk.messageId <;>
        simp [sameItem, read, readOther, requests, Option.filter_some, same]

theorem responseChunks_filter {msg : Bytes} {chunk : ChunkedResponse}
    (read : ChunkedRequestOrResponse.deserialize msg = .response chunk) (msgs : List Bytes) :
    responseChunks (msgs.filter fun other => sameItem other msg) =
      (responseChunks msgs).filter fun other => responses.chunkKey other = chunk.messageId := by
  rw [responseChunks, responseChunks, List.filterMap_filter, List.filter_filterMap]
  congr 1
  funext other
  cases readOther : ChunkedRequestOrResponse.deserialize other with
  | none => simp [sameItem, readOther]
  | request other => simp [sameItem, read, readOther]
  | response other =>
      by_cases same : other.messageId = chunk.messageId <;>
        simp [sameItem, read, readOther, responses, Option.filter_some, same]

/-- Only the chunks of a message's own kind and id matter to what it completes. -/
theorem completedItem_filter (msgs : List Bytes) (msg : Bytes) :
    completedItem (msgs.filter fun other => sameItem other msg) msg = completedItem msgs msg := by
  cases read : ChunkedRequestOrResponse.deserialize msg with
  | none => simp only [completedItem, read]
  | request chunk =>
      simp only [completedItem, read, requestChunks_filter read,
        Reassembly.Scheme.openRun_filter]
  | response chunk =>
      simp only [completedItem, read, responseChunks_filter read,
        Reassembly.Scheme.openRun_filter]

/--
The history demultiplexes: after any messages, a call returns what the message
completes by reference to the chunks of its own kind and id, so that messages of
another item never matter, and the lists hold one entry for each open run.
-/
theorem append_appendAll (msgs : List Bytes) (msg : Bytes) :
    let history := (CommandHistory.new.appendAll msgs).2
    let alone := (CommandHistory.new.appendAll (msgs.filter fun other => sameItem other msg)).2
    let next := (history.append msg).2
    (history.append msg).1 = completedItem msgs msg ∧
      (alone.append msg).1 = (history.append msg).1 ∧
      (next.pastRequests.map (·.messageId)).Nodup ∧
      (next.pastResponses.map (·.messageId)).Nodup ∧
      (∀ id, id ∈ next.pastRequests.map (·.messageId) ↔
        requests.openRun id (requestChunks (msgs ++ [msg])) ≠ []) ∧
      ∀ id, id ∈ next.pastResponses.map (·.messageId) ↔
        responses.openRun id (responseChunks (msgs ++ [msg])) ≠ [] := by
  intro history alone next
  rcases (CommandHistory.represents_appendAll_new msgs).append msg with ⟨result, represents⟩
  have resultAlone := ((CommandHistory.represents_appendAll_new
    (msgs.filter fun other => sameItem other msg)).append msg).1
  refine ⟨result, ?_, represents.pastRequests.nodup, represents.pastResponses.nodup,
    represents.pastRequests.mem_keys_iff, represents.pastResponses.mem_keys_iff⟩
  rw [resultAlone, completedItem_filter, result]

theorem CommandHistory.appendAll_requests {chunks : List ChunkedRequest}
    (read : ∀ chunk ∈ chunks,
      ChunkedRequestOrResponse.deserialize chunk.toMessagePayload = .request chunk)
    (history : CommandHistory) :
    history.appendAll (chunks.map (·.toMessagePayload)) =
      ((requests.absorbAll history.pastRequests chunks).1.map .ofRequest,
        { history with pastRequests := (requests.absorbAll history.pastRequests chunks).2 }) := by
  induction chunks generalizing history with
  | nil => rfl
  | cons chunk chunks ih =>
      have first : history.append chunk.toMessagePayload =
          (.ofRequest (requests.absorb history.pastRequests chunk).1,
            { history with
              pastRequests := (requests.absorb history.pastRequests chunk).2 }) := by
        rw [CommandHistory.append, read chunk (by simp)]
      have rest := ih (fun other mem => read other (by simp [mem]))
        { history with pastRequests := (requests.absorb history.pastRequests chunk).2 }
      simp only [List.map_cons, CommandHistory.appendAll, first, rest,
        Reassembly.Scheme.absorbAll]

theorem CommandHistory.appendAll_concat (history : CommandHistory) (msgs : List Bytes)
    (msg : Bytes) :
    history.appendAll (msgs ++ [msg]) =
      ((history.appendAll msgs).1 ++ [((history.appendAll msgs).2.append msg).1],
        ((history.appendAll msgs).2.append msg).2) := by
  induction msgs generalizing history with
  | nil => rfl
  | cons first msgs ih => simp only [List.cons_append, CommandHistory.appendAll, ih]

/--
There is a chunk, and the chunks appended in turn give nothing before the last one, the
request at the last one, and the history they started from.
-/
def Delivered (history : CommandHistory) (request : Request) : Prop :=
  request.chunk ≠ [] ∧
    history.appendAll (request.chunk.map (·.toMessagePayload)) =
      (List.replicate (request.chunk.length - 1) .none ++ [.request request], history)

theorem completeRequest_chunkOf {request : Request} {front : List Bytes} {last : Bytes}
    (whole : front.flatten ++ last = request.payload) :
    completeRequest (front.map (request.chunkOf .notLast)) (request.chunkOf .last last) =
      request := by
  have cmd : ((front.map (request.chunkOf .notLast)).headD (request.chunkOf .last last)).cmd =
      request.cmd := by
    cases front <;> rfl
  have target : ((front.map (request.chunkOf .notLast)).headD
      (request.chunkOf .last last)).target = request.target := by
    cases front <;> rfl
  have payload : (front.map (request.chunkOf .notLast)).flatMap (·.payload) ++ last =
      request.payload := by
    rw [← whole, List.flatMap_map]
    simp [Request.chunkOf, List.flatMap_def]
  rw [completeRequest, cmd, target]
  simp only [Request.chunkOf] at payload ⊢
  rw [payload]

theorem delivered_of_payload_ne_nil {history : CommandHistory} {request : Request}
    (cmdFree : SlashFree request.cmd) (messageIdFree : SlashFree request.messageId)
    (targetFree : SlashFree request.target)
    (notPending : ∀ past ∈ history.pastRequests, past.messageId ≠ request.messageId)
    (nonempty : request.payload ≠ []) : Delivered history request := by
  have read : ∀ chunk ∈ request.chunk,
      ChunkedRequestOrResponse.deserialize chunk.toMessagePayload = .request chunk :=
    fun chunk mem => deserialize_of_mem_request cmdFree messageIdFree targetFree mem
  have appended := CommandHistory.appendAll_requests read history
  rcases Request.chunk_eq nonempty with ⟨front, last, whole, chunks⟩
  have sameId : ∀ chunk ∈ front.map (request.chunkOf .notLast) ++ [request.chunkOf .last last],
      requests.chunkKey chunk = request.messageId := by
    rw [← chunks]
    exact fun chunk mem => (Request.header_of_mem_chunk mem).2.1
  have unmarked : ∀ chunk ∈ front.map (request.chunkOf .notLast),
      requests.isLast chunk = false := by
    intro chunk mem
    rcases List.mem_map.mp mem with ⟨piece, _, rfl⟩
    rfl
  have complete : requests.assemble
      (front.map (request.chunkOf .notLast) ++ [request.chunkOf .last last]) = _ :=
    describes_completeRequest.assemble_eq fun chunk mem => sameId chunk (by simp [mem])
  have absorbed := Reassembly.Scheme.absorbAll_run notPending sameId unmarked rfl
  rw [complete, completeRequest_chunkOf whole] at absorbed
  refine ⟨by simp [chunks], ?_⟩
  rw [appended, chunks, absorbed]
  simp [RequestOrResponse.ofRequest]

/--
A request whose id is not pending is delivered exactly when its payload is not empty:
an empty payload has no chunk.
-/
theorem delivered_iff {history : CommandHistory} {request : Request}
    (cmdFree : SlashFree request.cmd) (messageIdFree : SlashFree request.messageId)
    (targetFree : SlashFree request.target)
    (notPending : ∀ past ∈ history.pastRequests, past.messageId ≠ request.messageId) :
    Delivered history request ↔ request.payload ≠ [] := by
  constructor
  · intro delivered empty
    exact delivered.1 (Request.chunk_of_payload_nil empty)
  · exact delivered_of_payload_ne_nil cmdFree messageIdFree targetFree notPending

theorem delivered_iff_listRoot :
    let request : Request :=
      { cmd := "ls", messageId := "shell:abc", target := "remote", payload := asBytes "/" }
    (SlashFree request.cmd ∧ SlashFree request.messageId ∧ SlashFree request.target) ∧
      (Delivered .new request ↔ request.payload ≠ []) ∧ request.payload ≠ [] := by
  have slashFree : SlashFree "ls" ∧ SlashFree "shell:abc" ∧ SlashFree "remote" := by decide
  exact ⟨slashFree, delivered_iff slashFree.1 slashFree.2.1 slashFree.2.2
    (by simp [CommandHistory.new]), by decide⟩

/-- `ls ""` is never sent. -/
theorem not_delivered_listEmpty :
    ¬∀ (history : CommandHistory) (request : Request), SlashFree request.cmd →
      SlashFree request.messageId → SlashFree request.target →
      (∀ past ∈ history.pastRequests, past.messageId ≠ request.messageId) →
      Delivered history request := by
  intro delivered
  have sent := delivered .new
    { cmd := "ls", messageId := "shell:abc", target := "remote", payload := [] }
    (by decide) (by decide) (by decide) (by simp [CommandHistory.new])
  exact sent.1 (Request.chunk_of_payload_nil rfl)

end Hoposhell
