import Hoposhell.CommandHistory
import Hoposhell.SendCommand

/-!
# Sending a request

`send_request_and_get_response` writes a header and the chunks of the request, and
then receives the response.  A header that cannot be written ends the process.  A
chunk that cannot be written is reported on the terminal only: the chunks behind it
are written all the same, and the response is awaited.
-/

namespace Hoposhell

def commandHeader (version : String) : Message MessageTypeToStream where
  mtype := .header
  content := some (asBytes ("v" ++ version ++ "/command"))

def ChunkedRequest.message (chunk : ChunkedRequest) : Message MessageTypeToStream where
  mtype := .command
  content := some chunk.toMessagePayload

/--
The loop over the chunks: those whose frame is written, when the calls of `write` from
the `n`-th on return `writes n`, `writes (n + 1)` and so on.
-/
def sendChunks (base64 : Base64.Engine) (writes : ℕ → Except ErrorKind ℕ) :
    ℕ → List ChunkedRequest → List ChunkedRequest
  | _, [] => []
  | n, chunk :: chunks =>
      match sendMessageToStream base64 chunk.message fun _ => writes n with
      | .ok _ => chunk :: sendChunks base64 writes (n + 1) chunks
      | .error _ => sendChunks base64 writes (n + 1) chunks

inductive SendOutcome where
  /-- `process::exit`. -/
  | exited
  /-- The polls leave the receive loop waiting. -/
  | waiting
  | returned (result : Except CommandError Response)
deriving DecidableEq

structure SentRequest where
  /-- The chunks whose frame has been written. -/
  written : List ChunkedRequest
  outcome : SendOutcome
deriving DecidableEq

/-- `send_request_and_get_response`, given the results of its writes and its polls. -/
def sendRequestAndGetResponse (base64 : Base64.Engine) (json : Json.Codec) (zstd : Zstd.Codec)
    (commandTimeout : ℕ) (version : String) (req : Request) (writes : ℕ → Except ErrorKind ℕ)
    (startTime : ℕ) (polls : List Poll) : Except Panic SentRequest :=
  match sendMessageToStream base64 (commandHeader version) fun _ => writes 0 with
  | .error _ => .ok { written := [], outcome := .exited }
  | .ok _ => do
      let written := sendChunks base64 writes 1 req.chunk
      let received ← receiveResponse base64 json commandTimeout req zstd startTime polls
      match received with
      | none => .ok { written, outcome := .waiting }
      | some result => .ok { written, outcome := .returned result }

section SendChunks

variable {base64 : Base64.Engine} {writes : ℕ → Except ErrorKind ℕ}

theorem sendMessageToStream_message (chunk : ChunkedRequest) (write : Bytes → Except ErrorKind ℕ) :
    sendMessageToStream base64 chunk.message write =
      write (base64.encode chunk.toMessagePayload ++ MessageTypeToStream.tag .command) := rfl

/-- Without failure every chunk is written. -/
theorem sendChunks_of_isOk {n : ℕ} {chunks : List ChunkedRequest}
    (succeed : ∀ i < chunks.length, (writes (n + i)).isOk = true) :
    sendChunks base64 writes n chunks = chunks := by
  induction chunks generalizing n with
  | nil => rfl
  | cons chunk chunks ih =>
      have here := succeed 0 (by simp)
      have rest : sendChunks base64 writes (n + 1) chunks = chunks := by
        apply ih
        intro i below
        have later := succeed (i + 1) (by simpa using below)
        rwa [Nat.add_assoc, Nat.add_comm 1 i]
      rw [sendChunks, sendMessageToStream_message]
      cases result : writes n with
      | ok written => simp only [rest]
      | error kind => simp [result] at here

end SendChunks

/-- The call of `write` for some chunk fails, after the header has been written. -/
def ChunkWriteFails (req : Request) (writes : ℕ → Except ErrorKind ℕ) : Prop :=
  (writes 0).isOk = true ∧ ∃ i < req.chunk.length, (writes (1 + i)).isOk = false

/--
What a failure should lead to: the chunks written are the first ones of the request, and
when a chunk could not be written an error is returned, whatever could be read.
-/
def StopsAtFailure (base64 : Base64.Engine) (json : Json.Codec) (zstd : Zstd.Codec)
    (commandTimeout : ℕ) (version : String) (req : Request) (writes : ℕ → Except ErrorKind ℕ) :
    Prop :=
  ∀ startTime polls sent,
    sendRequestAndGetResponse base64 json zstd commandTimeout version req writes startTime polls =
        .ok sent →
      sent.written <+: req.chunk ∧
        (ChunkWriteFails req writes → ∃ error, sent.outcome = .returned (.error error))

section StopsAtFailure

variable {base64 : Base64.Engine} {json : Json.Codec} {zstd : Zstd.Codec} {commandTimeout : ℕ}
  {version : String} {req : Request} {writes : ℕ → Except ErrorKind ℕ}

theorem written_of_sendRequest {startTime : ℕ} {polls : List Poll} {sent : SentRequest}
    (sends : sendRequestAndGetResponse base64 json zstd commandTimeout version req writes startTime
      polls = .ok sent) :
    sent.written = [] ∨ sent.written = sendChunks base64 writes 1 req.chunk := by
  unfold sendRequestAndGetResponse at sends
  split at sends
  · cases sends
    exact .inl rfl
  · cases received : receiveResponse base64 json commandTimeout req zstd startTime polls with
    | error panic => simp [received, bind, Except.bind] at sends
    | ok received' =>
        simp only [received, bind, Except.bind] at sends
        cases received' <;> cases sends <;> exact .inr rfl

/-- After the writes the response is awaited, whatever they have returned. -/
theorem sendRequest_waits (header : (writes 0).isOk = true) :
    sendRequestAndGetResponse base64 json zstd commandTimeout version req writes 0 [] =
      .ok { written := sendChunks base64 writes 1 req.chunk, outcome := .waiting } := by
  unfold sendRequestAndGetResponse
  have sends : sendMessageToStream base64 (commandHeader version) (fun _ => writes 0) =
      writes 0 := rfl
  rw [sends]
  cases result : writes 0 with
  | ok n => rfl
  | error kind => simp [result] at header

/-- A request is sent without a hole, or given up, exactly when no chunk fails to be written. -/
theorem stopsAtFailure_iff :
    StopsAtFailure base64 json zstd commandTimeout version req writes ↔
      ¬ChunkWriteFails req writes := by
  constructor
  · intro stops fails
    rcases (stops 0 [] _ (sendRequest_waits fails.1)).2 fails with ⟨error, returned⟩
    cases returned
  · intro noFailure startTime polls sent sends
    refine ⟨?_, fun fails => absurd fails noFailure⟩
    by_cases header : (writes 0).isOk = true
    · have succeed : ∀ i < req.chunk.length, (writes (1 + i)).isOk = true := by
        intro i below
        by_contra failed
        exact noFailure ⟨header, i, below, by simpa using failed⟩
      rcases written_of_sendRequest sends with none | all
      · rw [none]
        exact List.nil_prefix
      · rw [all, sendChunks_of_isOk succeed]
    · unfold sendRequestAndGetResponse at sends
      have headerSends : sendMessageToStream base64 (commandHeader version) (fun _ => writes 0) =
          writes 0 := rfl
      rw [headerSends] at sends
      cases result : writes 0 with
      | ok n => simp [result] at header
      | error kind =>
          simp only [result] at sends
          cases sends
          exact List.nil_prefix

end StopsAtFailure

/-- A request of two chunks. -/
def longRequest : Request :=
  { downloadRequest with payload := List.replicate commandPayloadSize 0 ++ [1] }

theorem longRequest_chunk :
    longRequest.chunk =
      [longRequest.chunkOf .notLast (List.replicate commandPayloadSize 0),
        longRequest.chunkOf .last [1]] := by
  have positive : 0 < commandPayloadSize := by decide
  have pieces : Chunks.chunks commandPayloadSize longRequest.payload =
      [List.replicate commandPayloadSize 0, [1]] := by
    have nonempty : longRequest.payload ≠ [] := by simp [longRequest]
    rw [Chunks.chunks_of_ne_nil positive nonempty, longRequest,
      List.take_left' List.length_replicate, List.drop_left' List.length_replicate]
    rfl
  rw [Request.chunk, pieces]
  rfl

/--
When the first chunk cannot be written the second one is sent alone, the response is awaited,
and the remote shell runs a request with a byte of the payload.
-/
theorem sends_request_with_hole :
    ∃ (writes : ℕ → Except ErrorKind ℕ) (sent : SentRequest),
      sendRequestAndGetResponse Base64.standard Json.nullCodec Zstd.stored 1 "1" longRequest writes
          0 [] = .ok sent ∧
        ¬sent.written <+: longRequest.chunk ∧ sent.outcome = .waiting ∧
        (CommandHistory.new.appendAll (sent.written.map (·.toMessagePayload))).1 =
          [.request { longRequest with payload := [1] }] := by
  let writes : ℕ → Except ErrorKind ℕ := fun n =>
    match n with
    | 0 => .ok 24
    | 1 => .error .other
    | _ => .ok 44
  have written : sendChunks Base64.standard writes 1 longRequest.chunk =
      [longRequest.chunkOf .last [1]] := by
    rw [longRequest_chunk]
    rfl
  refine ⟨writes, _, sendRequest_waits rfl, ?_, rfl, ?_⟩
  · rw [written, longRequest_chunk, List.cons_prefix_cons]
    rintro ⟨same, _⟩
    have marked := congrArg ChunkedRequest.chunkType same
    cases marked
  · rw [written]
    decide

end Hoposhell
