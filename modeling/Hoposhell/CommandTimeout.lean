import Hoposhell.ReceiveResponse

/-!
# What the command timeout measures

The receive loop looks at the clock at the head of each turn and starts it again after every
read that returns bytes, whatever frames they belong to.  It so measures the silence of the
connection: a wait is given up exactly at the first check at which no bytes have come for
longer than the timeout.  Keep-alives and responses to other requests are enough to go on
waiting.
-/

namespace Hoposhell

/-- The instant since which the connection is silent after a poll. -/
def Poll.silentSince (poll : Poll) (startTime : ℕ) : ℕ :=
  match poll.read with
  | .ok data => if data = [] then startTime else poll.readAt
  | .error _ => startTime

/-- The instant of the last read that has returned bytes, or the start of the wait. -/
def lastBytesAt (startTime : ℕ) (polls : List Poll) : ℕ :=
  polls.foldl (fun startTime poll => poll.silentSince startTime) startTime

/-- More than the timeout has passed at this check since bytes have come. -/
def SilentAt (commandTimeout startTime : ℕ) (before : List Poll) (poll : Poll) : Prop :=
  commandTimeout < poll.checkedAt - lastBytesAt startTime before

def commandTimeoutError : CommandError where
  kind := .timedOut
  message := "Command timeout"

section Loop

variable {base64 : Base64.Engine} {json : Json.Codec} {commandTimeout : ℕ} {req : Request}
  {receiving next : Receiving} {poll : Poll}

theorem Receiving.turn_of_silence (silent : commandTimeout < poll.checkedAt - receiving.startTime) :
    receiving.turn base64 json commandTimeout req poll = .ok (.failed commandTimeoutError) := by
  rw [Receiving.turn, if_pos silent]
  rfl

/-- The clock is started again by bytes alone, and only the clock makes the loop time out. -/
theorem Receiving.clock_of_turn {turn : Turn}
    (taken : receiving.turn base64 json commandTimeout req poll = .ok turn) :
    match turn with
    | .next next => next.startTime = poll.silentSince receiving.startTime
    | .reachedLastChunk _ => True
    | .failed error =>
        error.kind = .timedOut → commandTimeout < poll.checkedAt - receiving.startTime := by
  cases takesTurn taken with
  | timedOut silent => exact fun _ => silent
  | blocked read => simp [Poll.silentSince, read]
  | unreadable read =>
      intro isTimeout
      cases isTimeout
  | continues read nonempty split gives result => simp [Poll.silentSince, read, nonempty]
  | reached read nonempty split gives result => trivial
  | rejected read nonempty split gives result =>
      intro isTimeout
      cases isTimeout

theorem Receiving.startTime_of_loop {polls : List Poll}
    (loops : receiving.loop base64 json commandTimeout req polls = .ok (.next next)) :
    next.startTime = lastBytesAt receiving.startTime polls := by
  induction polls generalizing receiving with
  | nil =>
      cases loops
      rfl
  | cons poll polls ih =>
      rcases loop_cons_eq_next_iff.mp loops with ⟨second, taken, rest⟩
      rw [ih rest, clock_of_turn taken]
      rfl

/-- A loop that still waits goes on with the polls that follow. -/
theorem Receiving.loop_append {polls : List Poll}
    (loops : receiving.loop base64 json commandTimeout req polls = .ok (.next next))
    (more : List Poll) :
    receiving.loop base64 json commandTimeout req (polls ++ more) =
      next.loop base64 json commandTimeout req more := by
  induction polls generalizing receiving with
  | nil =>
      cases loops
      rfl
  | cons poll polls ih =>
      rcases loop_cons_eq_next_iff.mp loops with ⟨second, taken, rest⟩
      rw [List.cons_append, Receiving.loop, taken]
      exact ih rest

/-- While the response is waited for, the next check times out exactly if there is silence. -/
theorem Receiving.turn_timedOut_iff {polls : List Poll}
    (loops : receiving.loop base64 json commandTimeout req polls = .ok (.next next)) :
    next.turn base64 json commandTimeout req poll = .ok (.failed commandTimeoutError) ↔
      SilentAt commandTimeout receiving.startTime polls poll := by
  rw [SilentAt, ← startTime_of_loop loops]
  constructor
  · intro taken
    exact clock_of_turn taken rfl
  · exact turn_of_silence

end Loop

section Receive

variable {base64 : Base64.Engine} {json : Json.Codec} {commandTimeout : ℕ} {req : Request}
  {zstd : Zstd.Codec} {startTime : ℕ} {before : List Poll}

/-- A response that is still waited for is waited for in a state of the loop. -/
theorem exists_next_of_waiting
    (waiting : receiveResponse base64 json commandTimeout req zstd startTime before = .ok none) :
    ∃ next, Receiving.loop base64 json commandTimeout req
      { bufStr := [], allRes := [], startTime, totalBytesReceived := 0 } before =
        .ok (.next next) := by
  rw [receiveResponse] at waiting
  cases loops : Receiving.loop base64 json commandTimeout req
      { bufStr := [], allRes := [], startTime, totalBytesReceived := 0 } before with
  | error panic => simp [loops, bind, Except.bind] at waiting
  | ok turn =>
      simp only [loops, bind, Except.bind] at waiting
      cases turn with
      | next next => exact ⟨next, rfl⟩
      | reachedLastChunk allRes => cases waiting
      | failed error => cases waiting

theorem assembleResponse_ne_timeout (zstd : Zstd.Codec) (allRes : List ChunkedResponse) :
    assembleResponse zstd allRes ≠ .error commandTimeoutError := by
  unfold assembleResponse
  split
  · simp [commandTimeoutError]
  · split <;> simp [commandTimeoutError]

end Receive

/--
When the client still waits for a response, and more than the timeout has passed at a check
since the start of the wait and since the last read that has returned bytes, it gives up at
this check, and never returns a response; and this is the only reason to time out there.
-/
theorem timedOut_iff_silent (base64 : Base64.Engine) (json : Json.Codec) (req : Request)
    (zstd : Zstd.Codec) {commandTimeout startTime : ℕ} {before : List Poll}
    (waiting : receiveResponse base64 json commandTimeout req zstd startTime before = .ok none)
    (poll : Poll) :
    (SilentAt commandTimeout startTime before poll ↔
        receiveResponse base64 json commandTimeout req zstd startTime (before ++ [poll]) =
          .ok (some (.error commandTimeoutError))) ∧
      (SilentAt commandTimeout startTime before poll → ∀ after,
        receiveResponse base64 json commandTimeout req zstd startTime (before ++ poll :: after) =
            .ok (some (.error commandTimeoutError)) ∧
          ∀ response,
            receiveResponse base64 json commandTimeout req zstd startTime
                (before ++ poll :: after) ≠ .ok (some (.ok response))) := by
  rcases exists_next_of_waiting waiting with ⟨next, loops⟩
  have timedOut := @Receiving.turn_timedOut_iff base64 json commandTimeout req _ next poll before loops
  have givesUp : SilentAt commandTimeout startTime before poll → ∀ after,
      receiveResponse base64 json commandTimeout req zstd startTime (before ++ poll :: after) =
        .ok (some (.error commandTimeoutError)) := by
    intro silent after
    simp only [receiveResponse, bind, Except.bind, Receiving.loop_append loops, Receiving.loop,
      timedOut.mpr silent]
  refine ⟨⟨fun silent => givesUp silent [], ?_⟩, ?_⟩
  · intro failed
    apply timedOut.mp
    simp only [receiveResponse, bind, Except.bind, Receiving.loop_append loops,
      Receiving.loop] at failed
    cases taken : next.turn base64 json commandTimeout req poll with
    | error panic => simp [taken] at failed
    | ok turn =>
        cases turn with
        | next later => simp [taken] at failed
        | reachedLastChunk allRes =>
            simp only [taken, Except.ok.injEq, Option.some.injEq] at failed
            exact absurd failed (assembleResponse_ne_timeout zstd allRes)
        | failed error => simpa [taken] using failed
  · intro silent after
    refine ⟨givesUp silent after, ?_⟩
    intro response returned
    rw [givesUp silent after] at returned
    cases returned

/-- A turn at an instant, whose read would block. -/
def idlePoll (instant : ℕ) : Poll where
  checkedAt := instant
  read := .error .wouldBlock
  readAt := instant

theorem timedOut_iff_silent_idle :
    (SilentAt 1 0 [idlePoll 0] (idlePoll 2) ↔
        receiveResponse Base64.standard Json.nullCodec 1 downloadRequest Zstd.stored 0
          ([idlePoll 0] ++ [idlePoll 2]) = .ok (some (.error commandTimeoutError))) ∧
      (SilentAt 1 0 [idlePoll 0] (idlePoll 2) → ∀ after,
        receiveResponse Base64.standard Json.nullCodec 1 downloadRequest Zstd.stored 0
            ([idlePoll 0] ++ idlePoll 2 :: after) = .ok (some (.error commandTimeoutError)) ∧
          ∀ response,
            receiveResponse Base64.standard Json.nullCodec 1 downloadRequest Zstd.stored 0
              ([idlePoll 0] ++ idlePoll 2 :: after) ≠ .ok (some (.ok response))) :=
  timedOut_iff_silent Base64.standard Json.nullCodec downloadRequest Zstd.stored rfl (idlePoll 2)

/-- A frame of a response to the request. -/
def Frame.isOwn (req : Request) : Frame → Bool
  | .message .command content => Hoposhell.isOwn req content
  | _ => false

/-- The bytes of a frame, marked as those of a response to the request or not. -/
def Frame.marked (base64 : Base64.Engine) (req : Request) (frame : Frame) : List (UInt8 × Bool) :=
  (frame.bytes base64).map fun byte => (byte, frame.isOwn req)

/-- A poll whose bytes are marked. -/
structure MarkedPoll where
  checkedAt : ℕ
  read : Except ErrorKind (List (UInt8 × Bool))
  readAt : ℕ

namespace MarkedPoll

def poll (marked : MarkedPoll) : Poll where
  checkedAt := marked.checkedAt
  read := marked.read.map fun data => data.map Prod.fst
  readAt := marked.readAt

/-- The read carries a byte of a response to the request. -/
def progresses (marked : MarkedPoll) : Bool :=
  marked.read.toOption.any fun data => data.any Prod.snd

end MarkedPoll

/-- The instant of the last read with a byte of a response to the request, or the start. -/
def lastProgressAt (startTime : ℕ) (polls : List MarkedPoll) : ℕ :=
  polls.foldl (fun startTime marked => if marked.progresses then marked.readAt else startTime)
    startTime

/-- Two keep-alives, and the response to `downloadRequest`. -/
def slowFrames : List Frame :=
  [.keepAlive, .keepAlive,
    .message .command (ChunkedResponse.toMessagePayload
      { downloadChunk with payload := Zstd.storedFrame (asBytes "x") })]

/-- A turn at an instant, whose read returns a frame of `slowFrames` at another. -/
def slowPoll (checkedAt i readAt : ℕ) : MarkedPoll where
  checkedAt := checkedAt
  read := .ok (slowFrames[i]?.elim [] (Frame.marked Base64.standard downloadRequest))
  readAt := readAt

/--
With a timeout of 1, no byte of the response has come by the check at the instant 2, since the
start of the wait at 0; but the client goes on waiting, and returns the response.
-/
theorem response_after_silence :
    (([slowPoll 0 0 1] ++ slowPoll 2 1 2 :: [slowPoll 3 2 3]).flatMap fun marked =>
          marked.read.toOption.getD []) =
        slowFrames.flatMap (Frame.marked Base64.standard downloadRequest) ∧
      receiveResponse Base64.standard Json.nullCodec 1 downloadRequest Zstd.stored 0
          ([slowPoll 0 0 1].map MarkedPoll.poll) = .ok none ∧
      1 < (slowPoll 2 1 2).checkedAt - 0 ∧
      1 < (slowPoll 2 1 2).checkedAt - lastProgressAt 0 [slowPoll 0 0 1] ∧
      receiveResponse Base64.standard Json.nullCodec 1 downloadRequest Zstd.stored 0
          (([slowPoll 0 0 1] ++ slowPoll 2 1 2 :: [slowPoll 3 2 3]).map MarkedPoll.poll) =
        .ok (some (.ok
          { cmd := "download", messageId := "a:1", statusCode := .ok,
            payload := asBytes "x" })) := by
  refine ⟨?_, ?_, ?_, ?_, ?_⟩
  all_goals decide +kernel

end Hoposhell
