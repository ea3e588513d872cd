import Hoposhell.Library.Json
import Hoposhell.Library.Zstd
import Hoposhell.Message
import Hoposhell.RequestOrResponse

/-!
# Receiving the response of a command

The client of a command reads messages until the last chunk of the response to its
request.  `parse_command_response_message` looks at one batch of messages, those of
one read, and returns from the middle of it at the first message it ignores; the
receive loop then goes on with the next read.

The loop is a function of its polls: what the clock shows at the head of the loop and
after a read, and what the read returns.
-/

namespace Hoposhell

inductive ParseCommandResponseResult where
  | canContinue
  | reachedLastChunk
  | error
deriving DecidableEq, Repr

/-- The result of a batch, the chunks collected by then, and the error text printed. -/
structure Parsed where
  result : ParseCommandResponseResult
  allRes : List ChunkedResponse
  errorText : Option String
deriving DecidableEq, Repr

/-- The text printed for a response that is not `Ok`. -/
def reportError (json : Json.Codec) (payload : Bytes) : Except Panic (Option String) :=
  match fromUtf8 payload with
  | none => .ok none
  | some errorBody =>
      match json.fromStr errorBody with
      | none => .ok (some errorBody)
      | some errorJson =>
          match errorJson.get "error" with
          | some error => (unwrap error.asStr).map some
          | none => .ok none

def parseCommandResponseMessage (json : Json.Codec) (req : Request) :
    List (Message MessageTypeToCmd) → List ChunkedResponse → Except Panic Parsed
  | [], allRes => .ok { result := .canContinue, allRes, errorText := none }
  | message :: messages, allRes =>
      if message.mtype ≠ .command then .ok { result := .error, allRes, errorText := none }
      else do
        let content ← unwrap message.content
        match ChunkedRequestOrResponse.deserialize content with
        | .request _ => .ok { result := .canContinue, allRes, errorText := none }
        | .none => .ok { result := .canContinue, allRes, errorText := none }
        | .response res =>
            if res.messageId ≠ req.messageId then
              .ok { result := .canContinue, allRes, errorText := none }
            else if res.statusCode ≠ .ok then do
              let errorText ← reportError json res.payload
              .ok { result := .error, allRes, errorText }
            else if res.chunkType = .last then
              .ok { result := .reachedLastChunk, allRes := allRes ++ [res], errorText := none }
            else parseCommandResponseMessage json req messages (allRes ++ [res])

/-- Batches in turn, until one of them stops the loop. -/
def collect (json : Json.Codec) (req : Request) :
    List (List (Message MessageTypeToCmd)) → List ChunkedResponse → Except Panic Parsed
  | [], allRes => .ok { result := .canContinue, allRes, errorText := none }
  | messages :: batches, allRes => do
      let parsed ← parseCommandResponseMessage json req messages allRes
      match parsed.result with
      | .canContinue => collect json req batches parsed.allRes
      | _ => .ok parsed

inductive CommandErrorKind where
  | timedOut
  | other
deriving DecidableEq, Repr

structure CommandError where
  kind : CommandErrorKind
  message : String
deriving DecidableEq, Repr

/-- One turn of the receive loop, as the program sees the outside of it. -/
structure Poll where
  /-- The instant at the head of the loop. -/
  checkedAt : ℕ
  read : Except ErrorKind Bytes
  /-- The instant after the read. -/
  readAt : ℕ

structure Receiving where
  bufStr : Bytes
  allRes : List ChunkedResponse
  startTime : ℕ
  totalBytesReceived : ℕ

inductive Turn where
  | next (receiving : Receiving)
  | reachedLastChunk (allRes : List ChunkedResponse)
  | failed (error : CommandError)

section Receive

variable (base64 : Base64.Engine) (json : Json.Codec) (commandTimeout : ℕ) (req : Request)

/-- The body of the receive loop of `send_request_and_get_response`. -/
def Receiving.turn (receiving : Receiving) (poll : Poll) : Except Panic Turn :=
  if commandTimeout < poll.checkedAt - receiving.startTime then
    .ok (.failed { kind := .timedOut, message := "Command timeout" })
  else do
    let (bufStr, result) ← readMessagesFromStream base64 receiving.bufStr poll.read
    match result with
    | .ok messages => do
        let parsed ← parseCommandResponseMessage json req messages receiving.allRes
        match parsed.result with
        | .canContinue => do
            let contents ← messages.mapM fun message => unwrap message.content
            .ok (.next
              { bufStr, allRes := parsed.allRes, startTime := poll.readAt
                totalBytesReceived :=
                  receiving.totalBytesReceived + (contents.map List.length).sum })
        | .reachedLastChunk => .ok (.reachedLastChunk parsed.allRes)
        | .error => .ok (.failed { kind := .other, message := "Unable to parse command response" })
    | .canContinue => .ok (.next { receiving with bufStr })
    | .cannotContinue => .ok (.failed { kind := .other, message := "Unable to read tcp stream" })

/-- The receive loop, over as many turns as there are polls. -/
def Receiving.loop (receiving : Receiving) : List Poll → Except Panic Turn
  | [] => .ok (.next receiving)
  | poll :: polls => do
      let turn ← receiving.turn base64 json commandTimeout req poll
      match turn with
      | .next receiving => receiving.loop polls
      | turn => .ok turn

/-- The response made of the chunks collected by the receive loop. -/
def assembleResponse (zstd : Zstd.Codec) (allRes : List ChunkedResponse) :
    Except CommandError Response :=
  match allRes with
  | [] => .error { kind := .other, message := "Got no response" }
  | first :: _ =>
      match zstd.decodeAll (allRes.flatMap (·.payload)) with
      | none => .error { kind := .other, message := "Unable to decompress response" }
      | some payload =>
          .ok
            { cmd := first.cmd, messageId := first.messageId, statusCode := first.statusCode,
              payload := payload }

/--
`send_request_and_get_response` once the request has been sent: nothing while the polls
leave it waiting.
-/
def receiveResponse (zstd : Zstd.Codec) (startTime : ℕ) (polls : List Poll) :
    Except Panic (Option (Except CommandError Response)) := do
  let receiving : Receiving := { bufStr := [], allRes := [], startTime, totalBytesReceived := 0 }
  let turn ← receiving.loop base64 json commandTimeout req polls
  match turn with
  | .next _ => .ok none
  | .reachedLastChunk allRes => .ok (some (assembleResponse zstd allRes))
  | .failed error => .ok (some (.error error))

end Receive

/-- The chunk of the response to the request that a content holds, if it does. -/
def ownChunk (req : Request) (content : Bytes) : Option ChunkedResponse :=
  match ChunkedRequestOrResponse.deserialize content with
  | .response res => if res.messageId = req.messageId then some res else none
  | _ => none

def commandMessage (content : Bytes) : Message MessageTypeToCmd where
  mtype := .command
  content := some content

def isOwn (req : Request) (content : Bytes) : Bool :=
  (ownChunk req content).isSome

/--
No content that the client ignores stands before a chunk of the response: the first
ignored message of a batch ends it.
-/
def Orderly (req : Request) (contents : List Bytes) : Prop :=
  contents.Pairwise fun earlier later => isOwn req later → isOwn req earlier

instance (req : Request) (contents : List Bytes) : Decidable (Orderly req contents) :=
  inferInstanceAs (Decidable (contents.Pairwise _))

/-- The chunks of a batch before the first ignored message. -/
def collected (req : Request) (contents : List Bytes) : List ChunkedResponse :=
  (contents.takeWhile (isOwn req)).filterMap (ownChunk req)

section Orderly

variable {req : Request}

theorem collected_append_lost (contents : List Bytes) :
    collected req contents ++ (contents.dropWhile (isOwn req)).filterMap (ownChunk req) =
      contents.filterMap (ownChunk req) := by
  rw [collected, ← List.filterMap_append, List.takeWhile_append_dropWhile]

theorem isOwn_eq_false {content : Bytes} :
    isOwn req content = false ↔ ownChunk req content = none := by
  simp [isOwn]

/-- Nothing is lost from a batch exactly when it is orderly. -/
theorem orderly_iff {contents : List Bytes} :
    Orderly req contents ↔ (contents.dropWhile (isOwn req)).filterMap (ownChunk req) = [] := by
  induction contents with
  | nil => simp [Orderly]
  | cons content contents ih =>
      rw [Orderly, List.pairwise_cons]
      cases own : isOwn req content with
      | true => simpa [own, Orderly] using ih
      | false =>
          rw [List.dropWhile_cons_of_neg (by simp [own]), List.filterMap_eq_nil_iff]
          simp only [Bool.false_eq_true, imp_false, Bool.not_eq_true, isOwn_eq_false,
            List.forall_mem_cons]
          constructor
          · rintro ⟨ignored, _⟩
            exact ⟨isOwn_eq_false.mp own, ignored⟩
          · rintro ⟨_, ignored⟩
            refine ⟨ignored, ih.mpr ?_⟩
            rw [List.filterMap_eq_nil_iff]
            exact fun later mem => ignored later ((List.dropWhile_sublist _).subset mem)

theorem length_collected_le (req : Request) (contents : List Bytes) :
    (collected req contents).length ≤ (contents.filterMap (ownChunk req)).length := by
  rw [← collected_append_lost contents, List.length_append]
  omega

theorem collected_eq_of_orderly {contents : List Bytes} (orderly : Orderly req contents) :
    collected req contents = contents.filterMap (ownChunk req) := by
  rw [← collected_append_lost, orderly_iff.mp orderly, List.append_nil]

theorem length_collected_lt {contents : List Bytes} (disorderly : ¬Orderly req contents) :
    (collected req contents).length < (contents.filterMap (ownChunk req)).length := by
  rw [orderly_iff] at disorderly
  have lost := List.length_pos_iff.mpr disorderly
  rw [← collected_append_lost contents, List.length_append]
  omega

theorem orderly_concat_iff {before : List Bytes} {final : Bytes} (own : isOwn req final = true) :
    Orderly req (before ++ [final]) ↔ ∀ content ∈ before, isOwn req content := by
  rw [Orderly, List.pairwise_append]
  constructor
  · rintro ⟨_, _, across⟩ content mem
    exact across content mem final (by simp) own
  · intro allOwn
    exact ⟨List.pairwise_of_forall_mem_list fun earlier mem _ _ _ => allOwn earlier mem,
      List.pairwise_singleton _ _, fun earlier mem _ _ _ => allOwn earlier mem⟩

end Orderly

section Collect

variable (json : Json.Codec) {req : Request}

theorem parse_ignored {content : Bytes} (ignored : ownChunk req content = none)
    (messages : List (Message MessageTypeToCmd)) (allRes : List ChunkedResponse) :
    parseCommandResponseMessage json req (commandMessage content :: messages) allRes =
      .ok { result := .canContinue, allRes, errorText := none } := by
  rw [parseCommandResponseMessage]
  simp only [ownChunk] at ignored
  cases read : ChunkedRequestOrResponse.deserialize content with
  | none => simp [commandMessage, unwrap, bind, Except.bind, read]
  | request chunk => simp [commandMessage, unwrap, bind, Except.bind, read]
  | response res =>
      have otherId : res.messageId ≠ req.messageId := by simpa [read] using ignored
      simp [commandMessage, unwrap, bind, Except.bind, read, otherId]

theorem parse_own {content : Bytes} {chunk : ChunkedResponse}
    (own : ownChunk req content = some chunk) (ok : chunk.statusCode = .ok)
    (messages : List (Message MessageTypeToCmd)) (allRes : List ChunkedResponse) :
    parseCommandResponseMessage json req (commandMessage content :: messages) allRes =
      if chunk.chunkType = .last then
        .ok { result := .reachedLastChunk, allRes := allRes ++ [chunk], errorText := none }
      else parseCommandResponseMessage json req messages (allRes ++ [chunk]) := by
  rw [parseCommandResponseMessage]
  simp only [ownChunk] at own
  cases read : ChunkedRequestOrResponse.deserialize content with
  | none => simp [read] at own
  | request chunk => simp [read] at own
  | response res =>
      rw [read] at own
      simp only [Option.ite_none_right_eq_some, Option.some.injEq] at own
      rcases own with ⟨sameId, rfl⟩
      simp [commandMessage, unwrap, bind, Except.bind, read, sameId, ok]

theorem parse_failed {content : Bytes} {chunk : ChunkedResponse}
    (own : ownChunk req content = some chunk) (failed : chunk.statusCode ≠ .ok)
    (messages : List (Message MessageTypeToCmd)) (allRes : List ChunkedResponse) :
    parseCommandResponseMessage json req (commandMessage content :: messages) allRes =
      (reportError json chunk.payload).map fun errorText =>
        { result := .error, allRes, errorText } := by
  rw [parseCommandResponseMessage]
  simp only [ownChunk] at own
  cases read : ChunkedRequestOrResponse.deserialize content with
  | none => simp [read] at own
  | request chunk => simp [read] at own
  | response res =>
      rw [read] at own
      simp only [Option.ite_none_right_eq_some, Option.some.injEq] at own
      rcases own with ⟨sameId, rfl⟩
      cases reported : reportError json res.payload <;>
        simp [commandMessage, unwrap, bind, Except.bind, read, sameId, failed, reported, Except.map]

/-- A batch without last chunk gives the chunks before its first ignored message. -/
theorem parse_of_notLast {contents : List Bytes}
    (notLast : ∀ chunk ∈ contents.filterMap (ownChunk req),
      chunk.statusCode = .ok ∧ chunk.chunkType = .notLast) (allRes : List ChunkedResponse) :
    parseCommandResponseMessage json req (contents.map commandMessage) allRes =
      .ok { result := .canContinue, allRes := allRes ++ collected req contents,
            errorText := none } := by
  induction contents generalizing allRes with
  | nil => simp [parseCommandResponseMessage, collected]
  | cons content contents ih =>
      cases own : ownChunk req content with
      | none =>
          rw [List.map_cons, parse_ignored json own]
          simp [collected, isOwn, own]
      | some chunk =>
          simp only [List.filterMap_cons, own, List.forall_mem_cons] at notLast
          rcases notLast with ⟨⟨ok, unmarked⟩, rest⟩
          rw [List.map_cons, parse_own json own ok, if_neg (by simp [unmarked]), ih rest]
          simp [collected, isOwn, own]

/-- A batch that ends in the last chunk reaches it when nothing in it is ignored. -/
theorem parse_of_last {before : List Bytes} {final : Bytes} {last : ChunkedResponse}
    (finalChunk : ownChunk req final = some last) (lastOk : last.statusCode = .ok)
    (marked : last.chunkType = .last)
    (notLast : ∀ chunk ∈ before.filterMap (ownChunk req),
      chunk.statusCode = .ok ∧ chunk.chunkType = .notLast) (allRes : List ChunkedResponse) :
    parseCommandResponseMessage json req ((before ++ [final]).map commandMessage) allRes =
      if ∀ content ∈ before, isOwn req content then
        .ok { result := .reachedLastChunk,
              allRes := allRes ++ (before ++ [final]).filterMap (ownChunk req), errorText := none }
      else .ok { result := .canContinue, allRes := allRes ++ collected req before,
                 errorText := none } := by
  induction before generalizing allRes with
  | nil => simp [parse_own json finalChunk lastOk, marked, finalChunk]
  | cons content before ih =>
      cases own : ownChunk req content with
      | none =>
          rw [List.cons_append, List.map_cons, parse_ignored json own]
          simp [collected, isOwn, own]
      | some chunk =>
          simp only [List.filterMap_cons, own, List.forall_mem_cons] at notLast
          rcases notLast with ⟨⟨ok, unmarked⟩, rest⟩
          rw [List.cons_append, List.map_cons, parse_own json own ok, if_neg (by simp [unmarked]),
            ih rest]
          simp [collected, isOwn, own]

theorem collect_cons_of_canContinue {messages : List (Message MessageTypeToCmd)}
    {allRes allRes' : List ChunkedResponse} {errorText : Option String}
    (parsed : parseCommandResponseMessage json req messages allRes =
      .ok { result := .canContinue, allRes := allRes', errorText })
    (batches : List (List (Message MessageTypeToCmd))) :
    collect json req (messages :: batches) allRes = collect json req batches allRes' := by
  rw [collect, parsed]
  rfl

theorem collect_cons_of_notLast {contents : List Bytes}
    (notLast : ∀ chunk ∈ contents.filterMap (ownChunk req),
      chunk.statusCode = .ok ∧ chunk.chunkType = .notLast)
    (batches : List (List (Message MessageTypeToCmd))) (allRes : List ChunkedResponse) :
    collect json req (contents.map commandMessage :: batches) allRes =
      collect json req batches (allRes ++ collected req contents) :=
  collect_cons_of_canContinue json (parse_of_notLast json notLast allRes) batches

theorem collect_of_flatten_eq_nil (req : Request) {batches : List (List Bytes)}
    (empty : batches.flatten = []) (allRes : List ChunkedResponse) :
    collect json req (batches.map (·.map commandMessage)) allRes =
      .ok { result := .canContinue, allRes, errorText := none } := by
  induction batches with
  | nil => rfl
  | cons batch batches ih =>
      rw [List.flatten_cons, List.append_eq_nil_iff] at empty
      rw [List.map_cons, empty.1, collect_cons_of_notLast json (by simp)]
      simpa [collected] using ih empty.2

/-- What the batch with the last chunk gives, when there is nothing behind it. -/
theorem collect_last_batch {before : List Bytes} {final : Bytes} {last : ChunkedResponse}
    (finalChunk : ownChunk req final = some last) (lastOk : last.statusCode = .ok)
    (marked : last.chunkType = .last)
    (notLast : ∀ chunk ∈ before.filterMap (ownChunk req),
      chunk.statusCode = .ok ∧ chunk.chunkType = .notLast)
    {batches : List (List Bytes)} (empty : batches.flatten = []) (allRes : List ChunkedResponse) :
    ∃ parsed, collect json req
        (((before ++ [final]) :: batches).map (·.map commandMessage)) allRes = .ok parsed ∧
      ((∀ batch ∈ (before ++ [final]) :: batches, Orderly req batch) → parsed =
        { result := .reachedLastChunk,
          allRes := allRes ++ (before ++ [final]).filterMap (ownChunk req), errorText := none }) ∧
      ((¬∀ batch ∈ (before ++ [final]) :: batches, Orderly req batch) →
        parsed.result = .canContinue) := by
  have finalOwn : isOwn req final = true := by simp [isOwn, finalChunk]
  have restOrderly : ∀ batch ∈ batches, Orderly req batch := by
    intro batch mem
    rw [List.flatten_eq_nil_iff.mp empty batch mem]
    exact List.Pairwise.nil
  have parsedLast := parse_of_last json finalChunk lastOk marked notLast allRes
  by_cases allOwn : ∀ content ∈ before, isOwn req content
  · rw [if_pos allOwn] at parsedLast
    refine ⟨_, ?_, fun _ => rfl, ?_⟩
    · rw [List.map_cons, collect, parsedLast]
      rfl
    · intro disorderly
      have batchOrderly := (orderly_concat_iff finalOwn).mpr allOwn
      exact absurd (List.forall_mem_cons.mpr ⟨batchOrderly, restOrderly⟩) disorderly
  · rw [if_neg allOwn] at parsedLast
    have rest := collect_of_flatten_eq_nil json req empty (allRes ++ collected req before)
    have gives := (collect_cons_of_canContinue json parsedLast _).trans rest
    refine ⟨_, gives, ?_, fun _ => rfl⟩
    intro orderly
    exact absurd ((orderly_concat_iff finalOwn).mp (orderly _ (by simp))) allOwn

/-- What the batches of a whole response give, orderly or not. -/
theorem collect_response {before : List Bytes} {final : Bytes} {last : ChunkedResponse}
    (finalChunk : ownChunk req final = some last) (lastOk : last.statusCode = .ok)
    (marked : last.chunkType = .last)
    (notLast : ∀ chunk ∈ before.filterMap (ownChunk req),
      chunk.statusCode = .ok ∧ chunk.chunkType = .notLast)
    {batches : List (List Bytes)} (grouped : batches.flatten = before ++ [final])
    (allRes : List ChunkedResponse) :
    ∃ parsed, collect json req (batches.map (·.map commandMessage)) allRes = .ok parsed ∧
      ((∀ batch ∈ batches, Orderly req batch) → parsed =
        { result := .reachedLastChunk,
          allRes := allRes ++ (before ++ [final]).filterMap (ownChunk req), errorText := none }) ∧
      ((¬∀ batch ∈ batches, Orderly req batch) → parsed.result = .canContinue ∨
        parsed.allRes.length <
          allRes.length + ((before ++ [final]).filterMap (ownChunk req)).length) := by
  induction batches generalizing before allRes with
  | nil => simp at grouped
  | cons batch batches ih =>
      rw [List.flatten_cons] at grouped
      rcases List.eq_nil_or_concat batches.flatten with empty | ⟨before', final', rest⟩
      · obtain rfl : batch = before ++ [final] := by simpa [empty] using grouped
        rcases collect_last_batch json finalChunk lastOk marked notLast empty allRes with
          ⟨parsed, gives, whole, lost⟩
        exact ⟨parsed, gives, whole, fun disorderly => .inl (lost disorderly)⟩
      · rw [List.concat_eq_append] at rest
        rw [rest, ← List.append_assoc] at grouped
        rcases List.append_inj' grouped rfl with ⟨rfl, finalEq⟩
        obtain rfl : final' = final := by simpa using finalEq
        simp only [List.filterMap_append, List.forall_mem_append] at notLast
        rcases ih notLast.2 rest (allRes ++ collected req batch) with
          ⟨parsed, gives, whole, lost⟩
        rw [← collect_cons_of_notLast json notLast.1] at gives
        refine ⟨parsed, gives, ?_, ?_⟩
        · intro orderly
          rw [List.forall_mem_cons] at orderly
          rw [whole orderly.2, collected_eq_of_orderly orderly.1]
          simp
        · intro disorderly
          rw [List.append_assoc, List.filterMap_append, List.length_append]
          by_cases restOrderly : ∀ batch ∈ batches, Orderly req batch
          · have batchDisorderly : ¬Orderly req batch := fun orderly =>
              disorderly (List.forall_mem_cons.mpr ⟨orderly, restOrderly⟩)
            have shorter := length_collected_lt batchDisorderly
            right
            rw [whole restOrderly, List.length_append, List.length_append]
            omega
          · have notLonger := length_collected_le req batch
            refine (lost restOrderly).imp id fun shorter => ?_
            rw [List.length_append] at shorter
            omega

/--
The chunks of a response are collected whatever the batches exactly when no ignored
message stands before one of them in its batch.
-/
theorem collect_iff_orderly {before : List Bytes} {final : Bytes} {last : ChunkedResponse}
    (finalChunk : ownChunk req final = some last) (lastOk : last.statusCode = .ok)
    (marked : last.chunkType = .last)
    (notLast : ∀ chunk ∈ before.filterMap (ownChunk req),
      chunk.statusCode = .ok ∧ chunk.chunkType = .notLast)
    {batches : List (List Bytes)} (grouped : batches.flatten = before ++ [final]) :
    collect json req (batches.map (·.map commandMessage)) [] =
        .ok { result := .reachedLastChunk,
              allRes := (before ++ [final]).filterMap (ownChunk req), errorText := none } ↔
      ∀ batch ∈ batches, Orderly req batch := by
  rcases collect_response json finalChunk lastOk marked notLast grouped [] with
    ⟨parsed, gives, whole, lost⟩
  rw [gives, Except.ok.injEq]
  constructor
  · intro parsedEq
    by_contra disorderly
    rcases lost disorderly with waiting | shorter
    · simp [parsedEq] at waiting
    · simp [parsedEq] at shorter
  · intro orderly
    simpa using whole orderly

end Collect

def downloadRequest : Request where
  cmd := "download"
  messageId := "a:1"
  target := "b"
  payload := asBytes "/x"

def downloadChunk : ChunkedResponse where
  cmd := "download"
  messageId := "a:1"
  statusCode := .ok
  chunkType := .last
  payload := asBytes "x"

theorem collect_iff_orderly_apart :
    collect Json.nullCodec downloadRequest
        [[commandMessage []], [commandMessage downloadChunk.toMessagePayload]] [] =
      .ok { result := .reachedLastChunk, allRes := [downloadChunk], errorText := none } :=
  (@collect_iff_orderly Json.nullCodec downloadRequest [[]] downloadChunk.toMessagePayload
    downloadChunk (by decide) rfl rfl (by decide) [[[]], [downloadChunk.toMessagePayload]]
    rfl).mpr (by decide)

/-- An ignored message in front of the chunk hides it. -/
theorem not_collect_of_ignored_in_front :
    ¬∀ (json : Json.Codec) (req : Request) (before : List Bytes) (final : Bytes)
      (last : ChunkedResponse) (batches : List (List Bytes)), ownChunk req final = some last →
      last.statusCode = .ok → last.chunkType = .last →
      (∀ chunk ∈ before.filterMap (ownChunk req),
        chunk.statusCode = .ok ∧ chunk.chunkType = .notLast) →
      batches.flatten = before ++ [final] →
      collect json req (batches.map (·.map commandMessage)) [] =
        .ok { result := .reachedLastChunk,
              allRes := (before ++ [final]).filterMap (ownChunk req), errorText := none } := by
  intro always
  have oneBatch := always Json.nullCodec downloadRequest [[]] downloadChunk.toMessagePayload
    downloadChunk [[[], downloadChunk.toMessagePayload]] (by decide) rfl rfl (by decide) rfl
  exact absurd oneBatch (by decide)

end Hoposhell
