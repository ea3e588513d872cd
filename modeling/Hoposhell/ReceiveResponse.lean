import Hoposhell.CommandProcessor
import Hoposhell.Framing
import Hoposhell.SendCommand

/-!
# A response from the handler to the client

A receive loop that is not disturbed, by a timeout or by an error of the stream, gives
what the batches of its reads give.  With the framing of the stream, the chunks of a
response and the codecs this makes up the whole way from the result of a handler to
the response that the client returns.
-/

namespace Hoposhell

def receivedData (polls : List Poll) : List Bytes :=
  polls.filterMap fun poll => poll.read.toOption

/-- A read returns some bytes that fit the array, or would block. -/
def Poll.Undisturbed (poll : Poll) : Prop :=
  match poll.read with
  | .ok data => data ≠ [] ∧ data.length ≤ bufSize
  | .error kind => kind = .wouldBlock

instance (poll : Poll) : Decidable poll.Undisturbed :=
  match eq : poll.read with
  | .ok data =>
      decidable_of_iff (data ≠ [] ∧ data.length ≤ bufSize) (by simp [Poll.Undisturbed, eq])
  | .error kind => decidable_of_iff (kind = .wouldBlock) (by simp [Poll.Undisturbed, eq])

/-- The timeout does not fire at the head of any turn. -/
def InTime (commandTimeout : ℕ) (startTime : ℕ) : List Poll → Prop
  | [] => True
  | poll :: polls =>
      poll.checkedAt - startTime ≤ commandTimeout ∧
        match poll.read with
        | .ok _ => InTime commandTimeout poll.readAt polls
        | .error _ => InTime commandTimeout startTime polls

section Loop

variable {base64 : Base64.Engine} {json : Json.Codec} {commandTimeout : ℕ} {req : Request}

theorem exists_mapM_unwrap {messages : List (Message MessageTypeToCmd)}
    (filled : ∀ message ∈ messages, message.content.isSome) :
    ∃ contents, messages.mapM (fun message => unwrap message.content) = .ok contents := by
  induction messages with
  | nil => exact ⟨[], rfl⟩
  | cons message messages ih =>
      rw [List.forall_mem_cons] at filled
      rcases Option.isSome_iff_exists.mp filled.1 with ⟨content, isContent⟩
      rcases ih filled.2 with ⟨contents, rest⟩
      refine ⟨content :: contents, ?_⟩
      rw [List.mapM_cons, isContent, rest]
      rfl

theorem Receiving.turn_of_wouldBlock {receiving : Receiving} {poll : Poll}
    (inTime : poll.checkedAt - receiving.startTime ≤ commandTimeout)
    (read : poll.read = .error .wouldBlock) :
    receiving.turn base64 json commandTimeout req poll = .ok (.next receiving) := by
  rw [Receiving.turn, if_neg (Nat.not_lt.mpr inTime), read]
  rfl

theorem Receiving.turn_of_data {receiving : Receiving} {poll : Poll} {data : Bytes}
    {separated : Separated} {parsed : Parsed}
    (inTime : poll.checkedAt - receiving.startTime ≤ commandTimeout)
    (read : poll.read = .ok data) (nonempty : data ≠ [])
    (split : separateMessages base64 receiving.bufStr (readBuffer data) data.length = .ok separated)
    (gives : parseCommandResponseMessage json req separated.messages receiving.allRes = .ok parsed)
    (filled : ∀ message ∈ separated.messages, message.content.isSome) :
    ∃ totalBytesReceived, receiving.turn base64 json commandTimeout req poll =
      match parsed.result with
      | .canContinue =>
          .ok (.next
            { bufStr := separated.buffer, allRes := parsed.allRes, startTime := poll.readAt
              totalBytesReceived := totalBytesReceived })
      | .reachedLastChunk => .ok (.reachedLastChunk parsed.allRes)
      | .error =>
          .ok (.failed { kind := .other, message := "Unable to parse command response" }) := by
  rcases exists_mapM_unwrap filled with ⟨contents, unwrapped⟩
  refine ⟨receiving.totalBytesReceived + (contents.map List.length).sum, ?_⟩
  rw [Receiving.turn, if_neg (Nat.not_lt.mpr inTime), read, readMessagesFromStream_ok _ _ nonempty,
    split]
  simp only [Except.map, bind, Except.bind, gives]
  cases parsed.result with
  | canContinue => simp only [unwrapped]
  | reachedLastChunk => rfl
  | error => rfl

/-- All that a turn of the receive loop can do. -/
inductive Receiving.TakesTurn (base64 : Base64.Engine) (json : Json.Codec) (commandTimeout : ℕ)
    (req : Request) (receiving : Receiving) (poll : Poll) : Turn → Prop where
  | timedOut (silent : commandTimeout < poll.checkedAt - receiving.startTime) :
      TakesTurn base64 json commandTimeout req receiving poll
        (.failed { kind := .timedOut, message := "Command timeout" })
  | blocked (read : poll.read = .error .wouldBlock) :
      TakesTurn base64 json commandTimeout req receiving poll (.next receiving)
  | unreadable (read : poll.read = .ok [] ∨ poll.read = .error .other) :
      TakesTurn base64 json commandTimeout req receiving poll
        (.failed { kind := .other, message := "Unable to read tcp stream" })
  | continues {data : Bytes} {separated : Separated} {parsed : Parsed} {totalBytesReceived : ℕ}
      (read : poll.read = .ok data) (nonempty : data ≠ [])
      (split : separateMessages base64 receiving.bufStr (readBuffer data) data.length =
        .ok separated)
      (gives : parseCommandResponseMessage json req separated.messages receiving.allRes =
        .ok parsed)
      (result : parsed.result = .canContinue) :
      TakesTurn base64 json commandTimeout req receiving poll
        (.next
          { bufStr := separated.buffer, allRes := parsed.allRes, startTime := poll.readAt
            totalBytesReceived })
  | reached {data : Bytes} {separated : Separated} {parsed : Parsed}
      (read : poll.read = .ok data) (nonempty : data ≠ [])
      (split : separateMessages base64 receiving.bufStr (readBuffer data) data.length =
        .ok separated)
      (gives : parseCommandResponseMessage json req separated.messages receiving.allRes =
        .ok parsed)
      (result : parsed.result = .reachedLastChunk) :
      TakesTurn base64 json commandTimeout req receiving poll (.reachedLastChunk parsed.allRes)
  | rejected {data : Bytes} {separated : Separated} {parsed : Parsed}
      (read : poll.read = .ok data) (nonempty : data ≠ [])
      (split : separateMessages base64 receiving.bufStr (readBuffer data) data.length =
        .ok separated)
      (gives : parseCommandResponseMessage json req separated.messages receiving.allRes =
        .ok parsed)
      (result : parsed.result = .error) :
      TakesTurn base64 json commandTimeout req receiving poll
        (.failed { kind := .other, message := "Unable to parse command response" })

theorem Receiving.takesTurn {receiving : Receiving} {poll : Poll} {turn : Turn}
    (taken : receiving.turn base64 json commandTimeout req poll = .ok turn) :
    TakesTurn base64 json commandTimeout req receiving poll turn := by
  unfold Receiving.turn at taken
  split at taken
  · rename_i silent
    cases taken
    exact .timedOut silent
  · cases read : poll.read with
    | error kind =>
        cases kind with
        | wouldBlock =>
            simp only [read, readMessagesFromStream, bind, Except.bind] at taken
            cases taken
            exact .blocked read
        | other =>
            simp only [read, readMessagesFromStream, bind, Except.bind] at taken
            cases taken
            exact .unreadable (.inr read)
    | ok data =>
        by_cases empty : data = []
        · simp only [read, readMessagesFromStream, empty, List.length_nil, if_true, bind,
            Except.bind] at taken
          cases taken
          exact .unreadable (.inl (by rw [read, empty]))
        · rw [read, readMessagesFromStream_ok _ _ empty] at taken
          cases split : separateMessages base64 receiving.bufStr (readBuffer data) data.length with
          | error panic => simp [split, Except.map, bind, Except.bind] at taken
          | ok separated =>
              simp only [split, Except.map, bind, Except.bind] at taken
              cases gives : parseCommandResponseMessage json req separated.messages
                  receiving.allRes with
              | error panic => simp [gives] at taken
              | ok parsed =>
                  simp only [gives] at taken
                  cases result : parsed.result with
                  | canContinue =>
                      simp only [result] at taken
                      split at taken
                      · cases taken
                      · cases taken
                        exact .continues read empty split gives result
                  | reachedLastChunk =>
                      simp only [result] at taken
                      cases taken
                      exact .reached read empty split gives result
                  | error =>
                      simp only [result] at taken
                      cases taken
                      exact .rejected read empty split gives result

/-- A loop that still waits after a first turn has gone on from there. -/
theorem Receiving.loop_cons_eq_next_iff {receiving last : Receiving} {poll : Poll}
    {polls : List Poll} :
    receiving.loop base64 json commandTimeout req (poll :: polls) = .ok (.next last) ↔
      ∃ next, receiving.turn base64 json commandTimeout req poll = .ok (.next next) ∧
        next.loop base64 json commandTimeout req polls = .ok (.next last) := by
  rw [Receiving.loop]
  cases receiving.turn base64 json commandTimeout req poll with
  | error panic => simp [bind, Except.bind]
  | ok turn => cases turn <;> simp [bind, Except.bind]

/-- The turn that ends the loop with what the batches have given. -/
def Parsed.outcome (parsed : Parsed) : Option Turn :=
  match parsed.result with
  | .canContinue => none
  | .reachedLastChunk => some (.reachedLastChunk parsed.allRes)
  | .error => some (.failed { kind := .other, message := "Unable to parse command response" })

/-- An undisturbed receive loop ends with what the batches of its reads give. -/
theorem Receiving.loop_of_outcome {receiving : Receiving} {polls : List Poll} {last : Bytes}
    {lists : List (List (Message MessageTypeToCmd))} {parsed : Parsed} {turn : Turn}
    (undisturbed : ∀ poll ∈ polls, poll.Undisturbed)
    (inTime : InTime commandTimeout receiving.startTime polls)
    (separated : separateReads base64 receiving.bufStr (receivedData polls) = .ok (last, lists))
    (filled : ∀ messages ∈ lists, ∀ message ∈ messages, message.content.isSome)
    (collects : collect json req lists receiving.allRes = .ok parsed)
    (ends : parsed.outcome = some turn) :
    receiving.loop base64 json commandTimeout req polls = .ok turn := by
  induction polls generalizing receiving lists last with
  | nil =>
      simp only [receivedData, List.filterMap_nil, separateReads, Except.ok.injEq,
        Prod.mk.injEq] at separated
      rw [← separated.2] at collects
      cases collects
      cases ends
  | cons poll polls ih =>
      have here := undisturbed poll (by simp)
      have rest : ∀ poll ∈ polls, poll.Undisturbed :=
        fun other mem => undisturbed other (by simp [mem])
      simp only [InTime] at inTime
      cases read : poll.read with
      | error kind =>
          simp only [read] at inTime
          obtain rfl : kind = .wouldBlock := by simpa [Poll.Undisturbed, read] using here
          have skipped : receivedData (poll :: polls) = receivedData polls := by
            simp [receivedData, read, Except.toOption]
          rw [skipped] at separated
          simp only [Receiving.loop, turn_of_wouldBlock inTime.1 read, bind, Except.bind]
          exact ih rest inTime.2 separated filled collects
      | ok data =>
          simp only [read] at inTime
          have nonempty : data ≠ [] := by
            simp only [Poll.Undisturbed, read] at here
            exact here.1
          have taken : receivedData (poll :: polls) = data :: receivedData polls := by
            simp [receivedData, read, Except.toOption]
          rw [taken] at separated
          rcases separateReads_cons_eq_ok separated with ⟨first, batches, split, later, rfl⟩
          rw [List.forall_mem_cons] at filled
          cases gives : parseCommandResponseMessage json req first.messages receiving.allRes with
          | error panic => simp [collect, gives, bind, Except.bind] at collects
          | ok here =>
              rcases turn_of_data inTime.1 read nonempty split gives filled.1 with ⟨total, turn⟩
              simp only [collect, gives, bind, Except.bind] at collects
              simp only [Receiving.loop, turn, bind, Except.bind]
              cases result : here.result with
              | canContinue =>
                  simp only [result] at collects ⊢
                  exact ih rest inTime.2 later filled.2 collects
              | reachedLastChunk =>
                  simp only [result, Except.ok.injEq] at collects ⊢
                  simpa [Parsed.outcome, ← collects, result] using ends
              | error =>
                  simp only [result, Except.ok.injEq] at collects ⊢
                  simpa [Parsed.outcome, ← collects, result] using ends

/-- An undisturbed receive loop collects the batches of its reads. -/
theorem Receiving.loop_of_collect {receiving : Receiving} {polls : List Poll} {last : Bytes}
    {lists : List (List (Message MessageTypeToCmd))} {allRes : List ChunkedResponse}
    (undisturbed : ∀ poll ∈ polls, poll.Undisturbed)
    (inTime : InTime commandTimeout receiving.startTime polls)
    (separated : separateReads base64 receiving.bufStr (receivedData polls) = .ok (last, lists))
    (filled : ∀ messages ∈ lists, ∀ message ∈ messages, message.content.isSome)
    (reached : collect json req lists receiving.allRes =
      .ok { result := .reachedLastChunk, allRes, errorText := none }) :
    receiving.loop base64 json commandTimeout req polls = .ok (.reachedLastChunk allRes) :=
  Receiving.loop_of_outcome undisturbed inTime separated filled reached rfl

end Loop

/-- The messages of the chunks of a response, as the client receives them. -/
def responseMessages (response : Response) : List (Message MessageTypeToCmd) :=
  (response.chunk.map (·.toMessagePayload)).map commandMessage

theorem exists_batches {lists : List (List (Message MessageTypeToCmd))} {contents : List Bytes}
    (whole : lists.flatten = contents.map commandMessage) :
    ∃ batches : List (List Bytes), lists = batches.map (·.map commandMessage) ∧
      batches.flatten = contents := by
  induction lists generalizing contents with
  | nil =>
      obtain rfl : contents = [] := by simpa using whole.symm
      exact ⟨[], rfl, rfl⟩
  | cons messages lists ih =>
      rw [List.flatten_cons] at whole
      rcases List.map_eq_append_iff.mp whole.symm with ⟨front, back, rfl, rfl, rest⟩
      rcases ih rest.symm with ⟨batches, rfl, rfl⟩
      exact ⟨front :: batches, rfl, rfl⟩

section Response

variable {req : Request} {response : Response}

theorem ownChunk_of_mem_response (cmdFree : SlashFree response.cmd)
    (messageIdFree : SlashFree response.messageId) (awaited : response.messageId = req.messageId)
    {chunk : ChunkedResponse} (mem : chunk ∈ response.chunk) :
    ownChunk req chunk.toMessagePayload = some chunk := by
  rw [ownChunk, deserialize_of_mem_response cmdFree messageIdFree mem]
  simp [(Response.header_of_mem_chunk mem).2.1, awaited]

theorem filterMap_ownChunk (cmdFree : SlashFree response.cmd)
    (messageIdFree : SlashFree response.messageId) (awaited : response.messageId = req.messageId)
    {chunks : List ChunkedResponse} (mem : ∀ chunk ∈ chunks, chunk ∈ response.chunk) :
    (chunks.map (·.toMessagePayload)).filterMap (ownChunk req) = chunks := by
  induction chunks with
  | nil => rfl
  | cons chunk chunks ih =>
      rw [List.forall_mem_cons] at mem
      simp [ownChunk_of_mem_response cmdFree messageIdFree awaited mem.1, ih mem.2]

/-- The messages of a successful response are collected, whatever the batches. -/
theorem collect_responseMessages (json : Json.Codec) (cmdFree : SlashFree response.cmd)
    (messageIdFree : SlashFree response.messageId) (awaited : response.messageId = req.messageId)
    (ok : response.statusCode = .ok) {lists : List (List (Message MessageTypeToCmd))}
    (whole : lists.flatten = responseMessages response) :
    collect json req lists [] =
      .ok { result := .reachedLastChunk, allRes := response.chunk, errorText := none } := by
  have own : ∀ {chunk : ChunkedResponse}, chunk ∈ response.chunk →
      ownChunk req chunk.toMessagePayload = some chunk :=
    fun mem => ownChunk_of_mem_response cmdFree messageIdFree awaited mem
  have allOwn : (response.chunk.map (·.toMessagePayload)).filterMap (ownChunk req) =
      response.chunk := filterMap_ownChunk cmdFree messageIdFree awaited fun _ mem => mem
  rcases exists_batches whole with ⟨batches, rfl, grouped⟩
  have orderly : ∀ batch ∈ batches, Orderly req batch := by
    intro batch batchMem
    refine List.pairwise_of_forall_mem_list fun content mem _ _ _ => ?_
    have inResponse : content ∈ response.chunk.map (·.toMessagePayload) := by
      rw [← grouped]
      exact List.mem_flatten_of_mem batchMem mem
    rcases List.mem_map.mp inResponse with ⟨chunk, chunkMem, rfl⟩
    simp [isOwn, own chunkMem]
  rcases Response.chunk_eq response with ⟨front, last, _, chunks⟩
  have frontMem : ∀ chunk ∈ front.map (response.chunkOf .notLast), chunk ∈ response.chunk := by
    intro chunk mem
    simp [chunks, mem]
  have split : batches.flatten =
      (front.map (response.chunkOf .notLast)).map (·.toMessagePayload) ++
        [(response.chunkOf .last last).toMessagePayload] := by
    rw [grouped, chunks, List.map_append, List.map_singleton]
  have notLast : ∀ chunk ∈ ((front.map (response.chunkOf .notLast)).map
      (·.toMessagePayload)).filterMap (ownChunk req),
      chunk.statusCode = .ok ∧ chunk.chunkType = .notLast := by
    rw [filterMap_ownChunk cmdFree messageIdFree awaited frontMem]
    intro chunk mem
    rcases List.mem_map.mp mem with ⟨piece, _, rfl⟩
    exact ⟨ok, rfl⟩
  rcases collect_response json (own (by simp [chunks])) ok rfl notLast split [] with
    ⟨parsed, gives, reached, _⟩
  rw [gives, reached orderly, ← split, grouped, allOwn, List.nil_append]

theorem assembleResponse_chunk {zstd : Zstd.Codec} {payload : Bytes}
    (decompresses : zstd.decodeAll response.payload = some payload) :
    assembleResponse zstd response.chunk = .ok { response with payload } := by
  have whole := Response.flatMap_chunk response
  rcases Response.chunk_eq response with ⟨front, last, _, chunks⟩
  cases first : response.chunk with
  | nil => simp [chunks] at first
  | cons chunk rest =>
      have mem : chunk ∈ response.chunk := by simp [first]
      have header := Response.header_of_mem_chunk mem
      rw [assembleResponse, ← first, whole, decompresses]
      simp [header.1, header.2.1, header.2.2]

end Response

section EndToEnd

variable {base64 : Base64.Engine} {zstd : Zstd.Codec}

/--
A response arrives intact: what the handler returned is what the client gets, however
the frames of the chunks and the keep-alives between them are cut into reads.
-/
theorem receiveResponse_processMsg (lawful : base64.Lawful) (lawfulZstd : zstd.Lawful)
    {handlers : Handlers} {json : Json.Codec} {commands : CommandProcessor} {msg payload : Bytes}
    {hoposhellFolder : String} {request : Request} {response : Response}
    (completes : (commands.history.append msg).1 = .request request)
    (handled : handlers.responsePayload json request hoposhellFolder = .ok payload)
    (built : (commands.processMsg handlers json zstd msg hoposhellFolder).1 = some response)
    (cmdFree : SlashFree request.cmd) (messageIdFree : SlashFree request.messageId)
    {frames : List Frame} (framed : frames.filterMap Frame.message? = responseMessages response)
    {req : Request} (awaited : req.messageId = request.messageId) {commandTimeout startTime : ℕ}
    {polls : List Poll} (undisturbed : ∀ poll ∈ polls, poll.Undisturbed)
    (inTime : InTime commandTimeout startTime polls)
    (cut : (receivedData polls).flatten = frames.flatMap (Frame.bytes base64)) :
    receiveResponse base64 json commandTimeout req zstd startTime polls =
      .ok (some (.ok
        { cmd := request.cmd, messageId := request.messageId, statusCode := .ok,
          payload := payload })) := by
  rcases CommandProcessor.processMsg_ok completes handled built with
    ⟨compressed, encoded, responseEq⟩
  have decompresses : zstd.decodeAll response.payload = some payload := by
    rw [responseEq]
    exact lawfulZstd.decode_encode payload compressed encoded
  have assembled := assembleResponse_chunk decompresses
  rw [← stream_map_good] at cut
  rcases separateReads_stream_frames lawful frames cut with ⟨lists, separated, whole⟩
  rw [framed] at whole
  have reached : collect json req lists [] =
      .ok { result := .reachedLastChunk, allRes := response.chunk, errorText := none } := by
    subst responseEq
    exact collect_responseMessages json cmdFree messageIdFree awaited.symm rfl whole
  have filled : ∀ messages ∈ lists, ∀ message ∈ messages, message.content.isSome := by
    intro messages messagesMem message mem
    have inResponse := List.mem_flatten_of_mem messagesMem mem
    rw [whole] at inResponse
    rcases List.mem_map.mp inResponse with ⟨content, _, rfl⟩
    rfl
  have loop : Receiving.loop base64 json commandTimeout req
      { bufStr := [], allRes := [], startTime, totalBytesReceived := 0 } polls =
      .ok (.reachedLastChunk response.chunk) :=
    Receiving.loop_of_collect undisturbed inTime separated filled reached
  simp only [receiveResponse, bind, Except.bind, loop, assembled]
  rw [responseEq]

end EndToEnd

/-- A keep-alive and the response to `downloadRequest`, cut inside the base64 text. -/
def downloadPolls : List Poll :=
  let compressed := Zstd.storedFrame (asBytes "x")
  let chunk : ChunkedResponse := { downloadChunk with payload := compressed }
  let bytes := [Frame.keepAlive, .message .command chunk.toMessagePayload].flatMap
    (Frame.bytes Base64.standard)
  [{ checkedAt := 0, read := .ok (bytes.take 30), readAt := 1 },
    { checkedAt := 1, read := .error .wouldBlock, readAt := 1 },
    { checkedAt := 2, read := .ok (bytes.drop 30), readAt := 2 }]

theorem receiveResponse_downloadPolls :
    receiveResponse Base64.standard Json.nullCodec 1 downloadRequest Zstd.stored 0 downloadPolls =
      .ok (some (.ok
        { cmd := "download", messageId := "a:1", statusCode := .ok, payload := asBytes "x" })) := by
  let handlers : Handlers :=
    { ls := .error, download := fun _ => .ok (asBytes "x"), glob := .error, http := .error,
      tcp := .error, scripts := fun payload _ => .error payload }
  let msg : Bytes := (downloadRequest.chunkOf .last (asBytes "/x")).toMessagePayload
  let response : Response :=
    { cmd := "download", messageId := "a:1", statusCode := .ok,
      payload := Zstd.storedFrame (asBytes "x") }
  have completes : (CommandProcessor.new.history.append msg).1 = .request downloadRequest := by
    decide
  have handled : handlers.responsePayload Json.nullCodec downloadRequest "" =
      .ok (asBytes "x") := rfl
  have built : (CommandProcessor.new.processMsg handlers Json.nullCodec Zstd.stored msg "").1 =
      some response := by
    decide
  have framed : [Frame.keepAlive, .message .command (response.chunkOf .last
      response.payload).toMessagePayload].filterMap Frame.message? = responseMessages response := by
    decide
  exact receiveResponse_processMsg Base64.standard_lawful Zstd.stored_lawful completes handled built
    (by decide) (by decide) framed rfl (by decide) ⟨by decide, by decide, by decide, trivial⟩
    (by decide)

end Hoposhell
