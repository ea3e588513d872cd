import Hoposhell.CommandProcessor
import Hoposhell.Connect
import Hoposhell.Serialization

/-!
# The loop that serves the messages of the server

The stdin thread writes `STDIN` messages to the shell and serves `COMMAND` messages.
A command whose text begins with `restart` ends the process and one that begins with
`resize` sets the size of the terminal; every other one goes to `process_msg`, and the
chunks of its response are put on the channel.

The tests are on the beginning of the message and not on its command, so that requests
of other commands are taken for these two.
-/

namespace Hoposhell

/-- What the pseudo-terminal does: whether it can be resized, and the size it then has. -/
structure MasterPty where
  resize : Bool
  getSize : Option (ℕ × ℕ)

/-- `parse::<u16>`: an optional plus sign, at least one digit, and a value in range. -/
def parseU16 (text : String) : Option ℕ :=
  match asBytes text with
  | [] => none
  | first :: rest =>
      let digits := if first = 43 then rest else first :: rest
      if digits = [] then none
      else (parseDigits 0 digits).filter (· < 65536)

def maybeU16 (v : Option Bytes) : Option ℕ :=
  (maybeString v).bind parseU16

/-- `process_resize_command`: the message that tells the new size, when it could be set. -/
def processResizeCommand (c : Bytes) (master : MasterPty) :
    Except Panic (Option (Message MessageTypeToStream)) :=
  let parts := Separator.splitN (· == messagePartsSeparator) 3 c
  match maybeU16 parts[1]?, maybeU16 parts[2]? with
  | some _, some _ =>
      if master.resize then do
        let (rows, cols) ← unwrap master.getSize
        .ok (some (makeSizeMessage rows cols))
      else .ok none
  | _, _ => .ok none

/-- The messages of the chunks of a response, as they are put on the channel. -/
def Response.messages (response : Response) : List (Message MessageTypeToStream) :=
  response.chunk.map fun chunk => { mtype := .command, content := some chunk.toMessagePayload }

inductive LoopStatus where
  | running
  | exited
  | panicked
deriving DecidableEq, Repr

structure StdinLoop where
  commands : CommandProcessor
  /-- What has been written to the shell. -/
  stdin : Bytes
  /-- What has been put on the channel. -/
  toStream : List (Message MessageTypeToStream)
  status : LoopStatus

/-- A message, and what the calls made for it to the outside return. -/
structure StdinEvent where
  message : Message MessageTypeToCmd
  handlers : Handlers
  zstd : Zstd.Codec
  written : Except ErrorKind ℕ
  master : MasterPty

namespace StdinLoop

def start : StdinLoop where
  commands := .new
  stdin := []
  toStream := []
  status := .running

def send (loop : StdinLoop) (messages : List (Message MessageTypeToStream)) : StdinLoop :=
  { loop with toStream := loop.toStream ++ messages }

/-- A `COMMAND` message with this content. -/
def processCommand (json : Json.Codec) (hoposhellFolder : String) (loop : StdinLoop)
    (event : StdinEvent) (c : Bytes) : StdinLoop :=
  if (asBytes "restart").isPrefixOf c then { loop with status := .exited }
  else if (asBytes "resize").isPrefixOf c then
    match processResizeCommand c event.master with
    | .error _ => { loop with status := .panicked }
    | .ok sizeMessage => loop.send sizeMessage.toList
  else
    let (response, commands) :=
      loop.commands.processMsg event.handlers json event.zstd c hoposhellFolder
    { loop with commands }.send (response.elim [] Response.messages)

/-- One turn of the loop of the stdin thread, as long as it is running. -/
def step (json : Json.Codec) (hoposhellFolder : String) (loop : StdinLoop) (event : StdinEvent) :
    Option StdinLoop :=
  if loop.status = .running then
    match event.message.mtype, event.message.content with
    | .stdin, some content =>
        match event.written with
        | .ok n => some { loop with stdin := loop.stdin ++ content.take n }
        | .error _ => some { loop with status := .panicked }
    | .command, some c => some (loop.processCommand json hoposhellFolder event c)
    | _, none => some loop
  else none

end StdinLoop

namespace StdinEvent

def content (event : StdinEvent) : Bytes :=
  event.message.content.getD []

/-- The message is the serialization of a chunk of a request that is not for the loop itself. -/
def IsRequestChunk (event : StdinEvent) : Prop :=
  ∃ chunk : ChunkedRequest,
    event.message = { mtype := .command, content := some chunk.toMessagePayload } ∧
      SlashFree chunk.cmd ∧ SlashFree chunk.messageId ∧ SlashFree chunk.target ∧
      chunk.cmd ≠ "restart" ∧ chunk.cmd ≠ "resize"

/-- The loop does not take the message for one of its own commands. -/
def IsGeneric (event : StdinEvent) : Prop :=
  ¬asBytes "restart" <+: event.content ∧ ¬asBytes "resize" <+: event.content

/-- The response owed to a request. -/
def IsAnswer (json : Json.Codec) (hoposhellFolder : String) (event : StdinEvent)
    (request : Request) (response : Response) : Prop :=
  response.cmd = request.cmd ∧ response.messageId = request.messageId ∧
    match event.handlers.responsePayload json request hoposhellFolder with
    | .ok payload =>
        match event.zstd.encodeAll payload with
        | some compressed => response.statusCode = .ok ∧ response.payload = compressed
        | none => response.statusCode = .internalError
    | .error payload => response.statusCode = .incorrectParams ∧ response.payload = payload

/-- A result of the handler can be compressed. -/
def Compresses (json : Json.Codec) (hoposhellFolder : String) (event : StdinEvent)
    (request : Request) : Prop :=
  ∀ payload, event.handlers.responsePayload json request hoposhellFolder = .ok payload →
    (event.zstd.encodeAll payload).isSome = true

end StdinEvent

/--
The messages put on the channel are, in order, those of one answer to each message that
completes a request after the messages before it, and no others.
-/
def Answered (json : Json.Codec) (hoposhellFolder : String) (before : List Bytes) :
    List StdinEvent → List (Message MessageTypeToStream) → Prop
  | [], sent => sent = []
  | event :: events, sent =>
      match completedItem before event.content with
      | .request request =>
          ∃ response rest, event.IsAnswer json hoposhellFolder request response ∧
            sent = response.messages ++ rest ∧
            Answered json hoposhellFolder (before ++ [event.content]) events rest
      | _ => Answered json hoposhellFolder (before ++ [event.content]) events sent

/-- Every result of the handler of a completed request can be compressed. -/
def AllCompress (json : Json.Codec) (hoposhellFolder : String) (before : List Bytes) :
    List StdinEvent → Prop
  | [] => True
  | event :: events =>
      (∀ request, completedItem before event.content = .request request →
          event.Compresses json hoposhellFolder request) ∧
        AllCompress json hoposhellFolder (before ++ [event.content]) events

namespace StdinEvent

/-- The response that `process_msg` makes for a request. -/
def response? (json : Json.Codec) (hoposhellFolder : String) (event : StdinEvent)
    (request : Request) : Option Response :=
  match event.handlers.responsePayload json request hoposhellFolder with
  | .ok payload =>
      (event.zstd.encodeAll payload).map fun compressed =>
        { cmd := request.cmd, messageId := request.messageId, statusCode := .ok,
          payload := compressed }
  | .error payload =>
      some
        { cmd := request.cmd, messageId := request.messageId, statusCode := .incorrectParams,
          payload := payload }

/-- The messages that are put on the channel for a message that comes after others. -/
def given (json : Json.Codec) (hoposhellFolder : String) (before : List Bytes)
    (event : StdinEvent) : List (Message MessageTypeToStream) :=
  match completedItem before event.content with
  | .request request => (event.response? json hoposhellFolder request).elim [] Response.messages
  | _ => []

section Answer

variable {json : Json.Codec} {hoposhellFolder : String} {event : StdinEvent} {request : Request}
  {response : Response}

theorem header_of_response? (made : event.response? json hoposhellFolder request = some response) :
    response.cmd = request.cmd ∧ response.messageId = request.messageId ∧
      response.statusCode ≠ .internalError := by
  unfold response? at made
  split at made
  · rcases Option.map_eq_some_iff.mp made with ⟨compressed, _, rfl⟩
    exact ⟨rfl, rfl, by simp⟩
  · cases made
    exact ⟨rfl, rfl, by simp⟩

/-- A response that is made is the one answer, and the handler's result could be compressed. -/
theorem answer_of_some (made : event.response? json hoposhellFolder request = some response) :
    event.Compresses json hoposhellFolder request ∧
      ∀ other, event.IsAnswer json hoposhellFolder request other ↔ other = response := by
  unfold response? at made
  unfold Compresses IsAnswer
  split at made
  · rename_i payload handled
    rcases Option.map_eq_some_iff.mp made with ⟨compressed, encoded, rfl⟩
    constructor
    · intro payload' handled'
      obtain rfl : payload = payload' := by simpa [handled] using handled'
      simp [encoded]
    · intro other
      simp only [encoded]
      rcases other with ⟨cmd, messageId, statusCode, payload⟩
      simp
  · rename_i payload handled
    cases made
    constructor
    · intro payload' handled'
      simp [handled] at handled'
    · intro other
      rcases other with ⟨cmd, messageId, statusCode, payload⟩
      simp

/-- Without response the handler's result could not be compressed, which is an internal error. -/
theorem answer_of_none (none : event.response? json hoposhellFolder request = none) :
    ¬event.Compresses json hoposhellFolder request ∧
      ∀ other, event.IsAnswer json hoposhellFolder request other →
        other.cmd = request.cmd ∧ other.messageId = request.messageId ∧
          other.statusCode = .internalError := by
  unfold response? at none
  unfold Compresses IsAnswer
  split at none
  · rename_i payload handled
    have notEncoded : event.zstd.encodeAll payload = .none := Option.map_eq_none_iff.mp none
    constructor
    · intro compresses
      have encoded := compresses payload handled
      simp [notEncoded] at encoded
    · intro other answer
      simpa [handled, notEncoded] using answer
  · cases none

end Answer

end StdinEvent

theorem CommandProcessor.processMsg_spec {json : Json.Codec} {hoposhellFolder : String}
    {event : StdinEvent} {commands : CommandProcessor} {before : List Bytes}
    (represents : commands.history.Represents before) (c : Bytes) :
    (commands.processMsg event.handlers json event.zstd c hoposhellFolder).1 =
        (match completedItem before c with
          | .request request => event.response? json hoposhellFolder request
          | _ => none) ∧
      (commands.processMsg event.handlers json event.zstd c hoposhellFolder).2.history.Represents
        (before ++ [c]) := by
  have step := represents.append c
  refine ⟨?_, step.2⟩
  simp only [processMsg, step.1]
  cases completedItem before c with
  | request request =>
      simp only [StdinEvent.response?]
      cases event.handlers.responsePayload json request hoposhellFolder with
      | ok payload => cases encoded : event.zstd.encodeAll payload <;> simp [encoded]
      | error payload => rfl
  | response response => rfl
  | none => rfl

/-- A chunk of a response with the status of an internal error. -/
def IsInternalError (message : Message MessageTypeToStream) : Prop :=
  ∃ content chunk, message.content = some content ∧
    ChunkedRequestOrResponse.deserialize content = .response chunk ∧
    chunk.statusCode = .internalError

section Messages

variable {response : Response} {message : Message MessageTypeToStream}

theorem messages_ne_nil (response : Response) : response.messages ≠ [] := by
  rcases Response.chunk_eq response with ⟨front, last, _, chunks⟩
  simp [Response.messages, chunks]

theorem isInternalError_iff (cmdFree : SlashFree response.cmd)
    (messageIdFree : SlashFree response.messageId) (mem : message ∈ response.messages) :
    IsInternalError message ↔ response.statusCode = .internalError := by
  rcases List.mem_map.mp mem with ⟨chunk, chunkMem, rfl⟩
  have read := deserialize_of_mem_response cmdFree messageIdFree chunkMem
  have status := (Response.header_of_mem_chunk chunkMem).2.2
  constructor
  · rintro ⟨content, other, same, accepted, isError⟩
    cases same
    rw [read] at accepted
    cases accepted
    rwa [← status]
  · intro isError
    exact ⟨chunk.toMessagePayload, chunk, rfl, read, by rw [status, isError]⟩

end Messages

section Run

variable {json : Json.Codec} {hoposhellFolder : String} {event : StdinEvent} {loop : StdinLoop}
  {before : List Bytes}

/-- A message that is not for the loop itself is processed, and its response put on the channel. -/
theorem StdinLoop.step_of_isGeneric (running : loop.status = .running)
    (represents : loop.commands.history.Represents before) (isChunk : event.IsRequestChunk)
    (generic : event.IsGeneric) :
    ∃ next, loop.step json hoposhellFolder event = some next ∧ next.status = .running ∧
      next.commands.history.Represents (before ++ [event.content]) ∧
      next.toStream = loop.toStream ++ event.given json hoposhellFolder before := by
  rcases isChunk with ⟨chunk, isCommand, _⟩
  have content : event.content = chunk.toMessagePayload := by
    simp [StdinEvent.content, isCommand]
  have spec := @CommandProcessor.processMsg_spec json hoposhellFolder event _ _ represents
    event.content
  have notRestart : (asBytes "restart").isPrefixOf event.content = false := by
    simpa [← Bool.not_eq_true, List.isPrefixOf_iff_prefix] using generic.1
  have notResize : (asBytes "resize").isPrefixOf event.content = false := by
    simpa [← Bool.not_eq_true, List.isPrefixOf_iff_prefix] using generic.2
  refine ⟨loop.processCommand json hoposhellFolder event event.content, ?_, ?_, ?_, ?_⟩
  · simp [step, running, isCommand, content]
  · simp [processCommand, notRestart, notResize, send, running]
  · simpa [processCommand, notRestart, notResize, send] using spec.2
  · simp only [processCommand, notRestart, notResize, send, Bool.false_eq_true, if_false, spec.1,
      StdinEvent.given]
    cases completedItem before event.content <;> rfl

/--
One message more is answered correctly exactly when the messages after it are and, if it
completes a request, the handler's result can be compressed.
-/
theorem answered_cons_iff {events : List StdinEvent} {rest : List (Message MessageTypeToStream)}
    (noError : ∀ message ∈ rest, ¬IsInternalError message) :
    Answered json hoposhellFolder before (event :: events)
        (event.given json hoposhellFolder before ++ rest) ↔
      (∀ request, completedItem before event.content = .request request →
          event.Compresses json hoposhellFolder request) ∧
        Answered json hoposhellFolder (before ++ [event.content]) events rest := by
  rw [Answered, StdinEvent.given]
  cases completes : completedItem before event.content with
  | none => simp
  | response response => simp
  | request request =>
      have free := slashFree_of_completedItem completes
      simp only [RequestOrResponse.request.injEq, forall_eq']
      cases made : event.response? json hoposhellFolder request with
      | some response =>
          rcases StdinEvent.answer_of_some made with ⟨compresses, unique⟩
          simp only [Option.elim_some, unique, compresses, true_and]
          constructor
          · rintro ⟨_, others, rfl, split, answered⟩
            rwa [List.append_cancel_left split]
          · intro answered
            exact ⟨response, rest, rfl, rfl, answered⟩
      | none =>
          rcases StdinEvent.answer_of_none made with ⟨fails, answer⟩
          simp only [Option.elim_none, List.nil_append, fails, false_and, iff_false]
          rintro ⟨response, others, isAnswer, rfl, _⟩
          rcases answer response isAnswer with ⟨cmd, messageId, isError⟩
          rcases List.exists_mem_of_ne_nil _ (messages_ne_nil response) with ⟨message, mem⟩
          apply noError message (List.mem_append_left _ mem)
          exact (isInternalError_iff (by rw [cmd]; exact free.1) (by rw [messageId]; exact free.2.1)
            mem).mpr isError

/-- No message put on the channel for a message of the server is an internal error. -/
theorem not_isInternalError_of_mem {message : Message MessageTypeToStream}
    (mem : message ∈ event.given json hoposhellFolder before) : ¬IsInternalError message := by
  rw [StdinEvent.given] at mem
  cases completes : completedItem before event.content with
  | none => simp [completes] at mem
  | response response => simp [completes] at mem
  | request request =>
      have free := slashFree_of_completedItem completes
      simp only [completes] at mem
      cases made : event.response? json hoposhellFolder request with
      | none => simp [made] at mem
      | some response =>
          simp only [made, Option.elim_some] at mem
          rcases StdinEvent.header_of_response? made with ⟨cmd, messageId, noError⟩
          rw [isInternalError_iff (by rw [cmd]; exact free.1) (by rw [messageId]; exact free.2.1) mem]
          exact noError

theorem StdinLoop.run_of_isGeneric {events : List StdinEvent} (running : loop.status = .running)
    (represents : loop.commands.history.Represents before)
    (chunks : ∀ event ∈ events, event.IsRequestChunk)
    (generic : ∀ event ∈ events, event.IsGeneric) :
    ∃ last sent, Transition.run (StdinLoop.step json hoposhellFolder) loop events = some last ∧
      last.status = .running ∧ last.toStream = loop.toStream ++ sent ∧
      (∀ message ∈ sent, ¬IsInternalError message) ∧
      (Answered json hoposhellFolder before events sent ↔
        AllCompress json hoposhellFolder before events) := by
  induction events generalizing loop before with
  | nil => exact ⟨loop, [], rfl, running, by simp, by simp, by simp [Answered, AllCompress]⟩
  | cons event events ih =>
      rw [List.forall_mem_cons] at chunks generic
      rcases step_of_isGeneric running represents chunks.1 generic.1 with
        ⟨next, taken, nextRunning, nextRepresents, nextSent⟩
      rcases ih nextRunning nextRepresents chunks.2 generic.2 with
        ⟨last, rest, reaches, lastRunning, lastSent, noError, answered⟩
      refine ⟨last, event.given json hoposhellFolder before ++ rest,
        Transition.run_cons_eq_some_iff.mpr ⟨next, taken, reaches⟩, lastRunning, ?_, ?_, ?_⟩
      · rw [lastSent, nextSent, List.append_assoc]
      · intro message mem
        rcases List.mem_append.mp mem with here | later
        · exact not_isInternalError_of_mem here
        · exact noError message later
      · rw [answered_cons_iff noError, answered, AllCompress]

end Run

/--
As long as no message begins like one of the loop's own commands, the loop goes on, and it
answers every completed request once and nothing else exactly when every result of a handler
can be compressed.
-/
theorem answered_iff_allCompress (json : Json.Codec) (hoposhellFolder : String)
    {events : List StdinEvent} (chunks : ∀ event ∈ events, event.IsRequestChunk)
    (generic : ∀ event ∈ events, event.IsGeneric) :
    ∃ loop, Transition.run (StdinLoop.step json hoposhellFolder) .start events = some loop ∧
      loop.status = .running ∧
      (Answered json hoposhellFolder [] events loop.toStream ↔
        AllCompress json hoposhellFolder [] events) := by
  have represents : StdinLoop.start.commands.history.Represents [] := CommandHistory.represents_new
  rcases StdinLoop.run_of_isGeneric rfl represents chunks generic with
    ⟨loop, sent, reaches, running, toStream, _, answered⟩
  have whole : loop.toStream = sent := toStream
  refine ⟨loop, reaches, running, ?_⟩
  rw [whole]
  exact answered

/-- The only chunk of a request, to a shell whose handlers give back what they get. -/
def echoEvent (cmd : String) (zstd : Zstd.Codec) : StdinEvent where
  message :=
    { mtype := .command
      content := some (ChunkedRequest.toMessagePayload
        { cmd, messageId := "a:1", target := "shell:b", chunkType := .last,
          payload := asBytes "x" }) }
  handlers :=
    { ls := .ok, download := .ok, glob := .ok, http := .ok, tcp := .ok,
      scripts := fun payload _ => .ok payload }
  zstd := zstd
  written := .ok 0
  master := { resize := true, getSize := some (24, 80) }

def failingZstd : Zstd.Codec where
  encodeAll _ := none
  decodeAll _ := none

theorem answered_echo :
    ∃ loop, Transition.run (StdinLoop.step Json.nullCodec "") .start
        [echoEvent "ls" Zstd.stored, echoEvent "uptime" Zstd.stored] = some loop ∧
      loop.status = .running ∧
      (Answered Json.nullCodec "" [] [echoEvent "ls" Zstd.stored, echoEvent "uptime" Zstd.stored]
          loop.toStream ↔
        AllCompress Json.nullCodec "" []
          [echoEvent "ls" Zstd.stored, echoEvent "uptime" Zstd.stored]) := by
  apply answered_iff_allCompress
  · intro event mem
    simp only [List.mem_cons, List.not_mem_nil, or_false] at mem
    rcases mem with rfl | rfl
    · exact ⟨_, rfl, by decide, by decide, by decide, by decide, by decide⟩
    · exact ⟨_, rfl, by decide, by decide, by decide, by decide, by decide⟩
  · intro event mem
    simp only [List.mem_cons, List.not_mem_nil, or_false] at mem
    rcases mem with rfl | rfl
    · exact ⟨by decide, by decide⟩
    · exact ⟨by decide, by decide⟩

theorem not_answered_nil {json : Json.Codec} {hoposhellFolder : String} {event : StdinEvent}
    {events : List StdinEvent} {before : List Bytes} {request : Request}
    (completes : completedItem before event.content = .request request) :
    ¬Answered json hoposhellFolder before (event :: events) [] := by
  rw [Answered, completes]
  rintro ⟨response, rest, _, nothing, _⟩
  exact messages_ne_nil response (List.append_eq_nil_iff.mp nothing.symm).1

/--
A request of a command that only begins with `restart` ends the process, one that begins with
`resize` is dropped, and one whose result cannot be compressed is not answered.
-/
theorem not_answered :
    (∃ loop, (echoEvent "restarts" Zstd.stored).IsRequestChunk ∧
        Transition.run (StdinLoop.step Json.nullCodec "") .start
          [echoEvent "restarts" Zstd.stored] = some loop ∧
        loop.status = .exited ∧
        ¬Answered Json.nullCodec "" [] [echoEvent "restarts" Zstd.stored] loop.toStream) ∧
      (∃ loop, (echoEvent "resizes" Zstd.stored).IsRequestChunk ∧
        Transition.run (StdinLoop.step Json.nullCodec "") .start
          [echoEvent "resizes" Zstd.stored] = some loop ∧
        loop.status = .running ∧
        ¬Answered Json.nullCodec "" [] [echoEvent "resizes" Zstd.stored] loop.toStream) ∧
      ∃ loop, (echoEvent "ls" failingZstd).IsRequestChunk ∧
        Transition.run (StdinLoop.step Json.nullCodec "") .start [echoEvent "ls" failingZstd] =
          some loop ∧
        loop.status = .running ∧
        ¬Answered Json.nullCodec "" [] [echoEvent "ls" failingZstd] loop.toStream := by
  refine ⟨⟨_, ?_, rfl, rfl, ?_⟩, ⟨_, ?_, rfl, rfl, ?_⟩, ⟨_, ?_, rfl, rfl, ?_⟩⟩
  all_goals first
    | exact ⟨_, rfl, by decide, by decide, by decide, by decide, by decide⟩
    | exact not_answered_nil rfl

end Hoposhell
