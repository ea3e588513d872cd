import Hoposhell.Numerals

/-!
# Requests of several clients at one shell

The chunks of several requests reach a shell mixed with each other, with what is typed into
the shell, with resize commands and with messages that nobody can read.  Each request comes
out whole all the same, and what is put on the channel under its id is its answer.

A client may use an id again once its request is complete: an id stands for a sequence of
requests, which are answered in their order.
-/

namespace Hoposhell

def RequestOrResponse.request? : RequestOrResponse → Option Request
  | .request req => some req
  | _ => Option.none

/-- The requests that messages complete in turn. -/
def CommandHistory.requestsOf (history : CommandHistory) (msgs : List Bytes) : List Request :=
  (history.appendAll msgs).1.filterMap RequestOrResponse.request?

/-- The chunks of responses among messages to the server. -/
def responsesPut (messages : List (Message MessageTypeToStream)) : List ChunkedResponse :=
  responseChunks (messages.filterMap (·.content))

/-- The content of a message that the loop hands to `process_msg`. -/
def servedContent : Message MessageTypeToCmd → Option Bytes
  | { mtype := .command, content := some c } =>
      if (asBytes "restart").isPrefixOf c || (asBytes "resize").isPrefixOf c then none else some c
  | _ => none

namespace StdinEvent

def served? (event : StdinEvent) : Option Bytes :=
  servedContent event.message

/-- The request that is complete with this message, after those before it. -/
def completes (before : List Bytes) (event : StdinEvent) : Option Request :=
  event.served?.bind fun c => (completedItem before c).request?

/-- The chunks that answer a request which is complete with this message. -/
def answerTo (json : Json.Codec) (hoposhellFolder : String) (event : StdinEvent)
    (request : Request) : List ChunkedResponse :=
  (event.response? json hoposhellFolder request).elim [] Response.chunk

end StdinEvent

/-- The messages that complete a request, each with its request. -/
def completions (before : List Bytes) : List StdinEvent → List (StdinEvent × Request)
  | [] => []
  | event :: events =>
      (event.completes before).toList.map (fun request => (event, request)) ++
        completions (before ++ event.served?.toList) events

section Mixed

@[simp]
theorem request?_ofRequest (finished : Option Request) :
    (RequestOrResponse.ofRequest finished).request? = finished := by
  cases finished <;> rfl

@[simp]
theorem request?_ofResponse (finished : Option Response) :
    (RequestOrResponse.ofResponse finished).request? = none := by
  cases finished <;> rfl

theorem requestsOf_cons (history : CommandHistory) (msg : Bytes) (msgs : List Bytes) :
    history.requestsOf (msg :: msgs) =
      (history.append msg).1.request?.toList ++ (history.append msg).2.requestsOf msgs := by
  rw [CommandHistory.requestsOf, CommandHistory.appendAll, List.filterMap_cons]
  cases (history.append msg).1.request? <;> rfl

theorem requestsOf_eq (history : CommandHistory) (msgs : List Bytes) :
    history.requestsOf msgs = requests.finished history.pastRequests (requestChunks msgs) := by
  induction msgs generalizing history with
  | nil => rfl
  | cons msg msgs ih =>
      rw [requestsOf_cons, ih]
      cases read : ChunkedRequestOrResponse.deserialize msg with
      | none => simp [CommandHistory.append, requestChunks, read, RequestOrResponse.request?]
      | response chunk => simp [CommandHistory.append, requestChunks, read]
      | request chunk =>
          have chunks : requestChunks (msg :: msgs) = chunk :: requestChunks msgs := by
            simp [requestChunks, read]
          rw [chunks, Reassembly.Scheme.finished_cons]
          simp [CommandHistory.append, read]

/-- The chunks of a request are a run of its id, and they make the request. -/
theorem Request.isRun_chunk {request : Request} (nonempty : request.payload ≠ []) :
    requests.IsRun request.messageId request.chunk ∧
      requests.assemble request.chunk = some request := by
  rcases Request.chunk_eq nonempty with ⟨front, last, whole, chunks⟩
  have sameId : ∀ chunk ∈ request.chunk, requests.chunkKey chunk = request.messageId :=
    fun chunk mem => (Request.header_of_mem_chunk mem).2.1
  refine ⟨⟨sameId, _, _, chunks, ?_, rfl⟩, ?_⟩
  · intro chunk mem
    rcases List.mem_map.mp mem with ⟨piece, _, rfl⟩
    rfl
  · rw [chunks] at sameId ⊢
    have complete : requests.assemble
        (front.map (request.chunkOf .notLast) ++ [request.chunkOf .last last]) = _ :=
      describes_completeRequest.assemble_eq fun chunk mem => sameId chunk (by simp [mem])
    rw [complete, completeRequest_chunkOf whole]

/--
The requests sent under an id come out whole and in their order, whatever their chunks have
been mixed with.
-/
theorem requestsOf_mixed {msgs : List Bytes} {id : String} {sent : List Request}
    (nonempty : ∀ request ∈ sent, request.payload ≠ [])
    (sameId : ∀ request ∈ sent, request.messageId = id)
    (mixed : (requestChunks msgs).filter (fun chunk => chunk.messageId = id) =
      sent.flatMap Request.chunk) :
    (CommandHistory.new.requestsOf msgs).filter (fun request => request.messageId = id) = sent := by
  have areRuns : ∀ run ∈ sent.map Request.chunk, requests.IsRun id run := by
    intro run mem
    rcases List.mem_map.mp mem with ⟨request, requestMem, rfl⟩
    rw [← sameId request requestMem]
    exact (Request.isRun_chunk (nonempty request requestMem)).1
  have assembled : (sent.map Request.chunk).filterMap requests.assemble = sent := by
    rw [List.filterMap_map]
    have each : ∀ request ∈ sent, (requests.assemble ∘ Request.chunk) request = some request :=
      fun request mem => (Request.isRun_chunk (nonempty request mem)).2
    rw [List.filterMap_congr each, List.filterMap_some]
  rw [requestsOf_eq]
  exact (Reassembly.Scheme.finished_of_mixed areRuns mixed).1.trans assembled

end Mixed

section Size

theorem count_separator_messagePayload (cmd : String) (kind : ReqOrRes) (messageId : String)
    (targetOrStatus : Bytes) (chunkType : ChunkType) (payload : Bytes) :
    5 ≤ (messagePayload cmd kind messageId targetOrStatus chunkType payload).count
      messagePartsSeparator := by
  simp only [messagePayload, List.count_append, List.count_singleton_self]
  omega

/-- A size message is no chunk, whatever size it tells. -/
theorem deserialize_size {rows cols : ℕ} {content : Bytes}
    (size : (makeSizeMessage rows cols).content = some content) :
    ChunkedRequestOrResponse.deserialize content = .none := by
  by_contra known
  rcases exists_of_deserialize rfl known with
    ⟨cmd, kind, messageId, status, chunkType, payload, _, _, _, same, _⟩
  have many := count_separator_messagePayload cmd kind messageId (asBytes status) chunkType payload
  have sizeFree : messagePartsSeparator ∉ asBytes "size" := by decide
  rw [← same, ← Option.some.inj size] at many
  simp only [List.count_append, List.count_singleton_self, List.count_eq_zero_of_not_mem sizeFree,
    toString, List.count_eq_zero_of_not_mem (separator_not_mem_repr _)] at many
  omega

end Size

section Serving

variable {json : Json.Codec} {hoposhellFolder : String} {event : StdinEvent}
  {loop next : StdinLoop} {before : List Bytes}

@[simp]
theorem responsesPut_append (front back : List (Message MessageTypeToStream)) :
    responsesPut (front ++ back) = responsesPut front ++ responsesPut back := by
  simp [responsesPut, responseChunks]

theorem responsesPut_size (rows cols : ℕ) : responsesPut [makeSizeMessage rows cols] = [] := by
  simp only [responsesPut, List.filterMap_cons, List.filterMap_nil]
  cases size : (makeSizeMessage rows cols).content with
  | none => rfl
  | some content => simp [responseChunks, deserialize_size size]

theorem responsesPut_messages {response : Response} (cmdFree : SlashFree response.cmd)
    (messageIdFree : SlashFree response.messageId) :
    responsesPut response.messages = response.chunk := by
  have read : ∀ chunk ∈ response.chunk,
      ChunkedRequestOrResponse.deserialize chunk.toMessagePayload = .response chunk :=
    fun chunk mem => deserialize_of_mem_response cmdFree messageIdFree mem
  rw [responsesPut, Response.messages, responseChunks]
  generalize response.chunk = chunks at read
  induction chunks with
  | nil => rfl
  | cons chunk chunks ih =>
      rw [List.forall_mem_cons] at read
      simpa [read.1] using ih read.2

theorem responsesPut_resize {c : Bytes} {master : MasterPty}
    {sizeMessage : Option (Message MessageTypeToStream)}
    (resized : processResizeCommand c master = .ok sizeMessage) :
    responsesPut sizeMessage.toList = [] := by
  simp only [processResizeCommand] at resized
  split at resized
  · split at resized
    · cases size : master.getSize with
      | none => simp [size, unwrap, bind, Except.bind] at resized
      | some size' =>
          simp only [size, unwrap, bind, Except.bind, Except.ok.injEq] at resized
          rw [← resized]
          exact responsesPut_size _ _
    · cases resized
      rfl
  · cases resized
    rfl

theorem responsesPut_response? {request : Request} (cmdFree : SlashFree request.cmd)
    (messageIdFree : SlashFree request.messageId) :
    responsesPut ((event.response? json hoposhellFolder request).elim [] Response.messages) =
      event.answerTo json hoposhellFolder request := by
  rw [StdinEvent.answerTo]
  cases made : event.response? json hoposhellFolder request with
  | none => rfl
  | some response =>
      rcases StdinEvent.header_of_response? made with ⟨cmd, messageId, _⟩
      exact responsesPut_messages (by rwa [cmd]) (by rwa [messageId])

/-- What the loop puts on the channel for a content is the answer to the request it completes. -/
theorem StdinLoop.serves_command (represents : loop.commands.history.Represents before) {c : Bytes}
    (command : event.message = { mtype := .command, content := some c }) :
    (loop.processCommand json hoposhellFolder event c).commands.history.Represents
        (before ++ event.served?.toList) ∧
      responsesPut (loop.processCommand json hoposhellFolder event c).toStream =
        responsesPut loop.toStream ++
          (event.completes before).toList.flatMap (event.answerTo json hoposhellFolder) := by
  simp only [processCommand, StdinEvent.completes, StdinEvent.served?, servedContent, command]
  by_cases restart : (asBytes "restart").isPrefixOf c = true
  · simpa [restart] using represents
  by_cases resize : (asBytes "resize").isPrefixOf c = true
  · simp only [restart, resize, Bool.or_true, if_true, Bool.false_eq_true, if_false]
    cases resized : processResizeCommand c event.master with
    | error panic => simpa using represents
    | ok sizeMessage => simpa [send, responsesPut_resize resized] using represents
  · have spec := @CommandProcessor.processMsg_spec json hoposhellFolder event _ _ represents c
    simp only [restart, resize, Bool.or_false, Bool.false_eq_true, if_false, send, spec.1,
      Option.toList_some, Option.bind_some, responsesPut_append]
    refine ⟨spec.2, ?_⟩
    congr 1
    cases completes : completedItem before c with
    | none => rfl
    | response response => rfl
    | request request =>
        have free := slashFree_of_completedItem completes
        simpa [RequestOrResponse.request?] using responsesPut_response? free.1 free.2.1

/-- A turn of the loop processes a command, or leaves the history and the channel as they are. -/
theorem StdinLoop.step_cases (taken : loop.step json hoposhellFolder event = some next) :
    (event.served? = none ∧ next.commands = loop.commands ∧ next.toStream = loop.toStream) ∨
      ∃ c, event.message = { mtype := .command, content := some c } ∧
        next = loop.processCommand json hoposhellFolder event c := by
  simp only [step, Option.ite_none_right_eq_some] at taken
  rcases taken with ⟨_, taken⟩
  cases message : event.message with
  | mk mtype content =>
      simp only [message] at taken
      cases mtype with
      | stdin =>
          left
          refine ⟨by simp [StdinEvent.served?, servedContent, message], ?_⟩
          cases content with
          | none =>
              cases taken
              exact ⟨rfl, rfl⟩
          | some content =>
              cases written : event.written <;> simp only [written] at taken <;> cases taken <;>
                exact ⟨rfl, rfl⟩
      | command =>
          cases content with
          | none =>
              cases taken
              exact .inl ⟨by simp [StdinEvent.served?, servedContent, message], rfl, rfl⟩
          | some c =>
              cases taken
              exact .inr ⟨c, rfl, rfl⟩

theorem StdinLoop.serves_step (represents : loop.commands.history.Represents before)
    (taken : loop.step json hoposhellFolder event = some next) :
    next.commands.history.Represents (before ++ event.served?.toList) ∧
      responsesPut next.toStream = responsesPut loop.toStream ++
        (event.completes before).toList.flatMap (event.answerTo json hoposhellFolder) := by
  rcases step_cases taken with ⟨unserved, commands, toStream⟩ | ⟨c, message, rfl⟩
  · simpa [StdinEvent.completes, unserved, commands, toStream] using represents
  · exact serves_command represents message

/-- Nothing that has been put on the channel is taken back. -/
theorem StdinLoop.toStream_of_step (taken : loop.step json hoposhellFolder event = some next) :
    loop.toStream <+: next.toStream := by
  rcases step_cases taken with ⟨_, _, toStream⟩ | ⟨c, _, rfl⟩
  · rw [toStream]
  · rw [processCommand]
    split_ifs
    · exact List.prefix_refl _
    · split
      · exact List.prefix_refl _
      · exact List.prefix_append _ _
    · exact List.prefix_append _ _

theorem completions_concat (events : List StdinEvent) (event : StdinEvent) (before : List Bytes) :
    completions before (events ++ [event]) =
      completions before events ++
        (event.completes (before ++ events.filterMap StdinEvent.served?)).toList.map
          (fun request => (event, request)) := by
  induction events generalizing before with
  | nil => simp [completions]
  | cons first events ih =>
      rw [List.cons_append, completions, completions, ih, List.append_assoc]
      cases served : first.served? <;> simp [served]

theorem map_snd_completions {history : CommandHistory} (represents : history.Represents before)
    (events : List StdinEvent) :
    (completions before events).map Prod.snd =
      history.requestsOf (events.filterMap StdinEvent.served?) := by
  induction events generalizing history before with
  | nil => rfl
  | cons event events ih =>
      rw [completions, List.map_append, List.map_map]
      cases served : event.served? with
      | none =>
          have nothing : event.completes before = none := by simp [StdinEvent.completes, served]
          simpa [nothing, served] using ih represents
      | some c =>
          rcases represents.append c with ⟨result, nextRepresents⟩
          rw [List.filterMap_cons_some served, requestsOf_cons, ← ih nextRepresents, result]
          simp [StdinEvent.completes, served, Function.comp_def]

/-- A request that has been completed can be told apart by its header. -/
theorem slashFree_of_mem_completions {before : List Bytes} {events : List StdinEvent}
    {item : StdinEvent × Request} (mem : item ∈ completions before events) :
    SlashFree item.2.cmd ∧ SlashFree item.2.messageId := by
  induction events generalizing before with
  | nil => simp [completions] at mem
  | cons event events ih =>
      rw [completions, List.mem_append] at mem
      rcases mem with here | later
      · rcases List.mem_map.mp here with ⟨request, completes, rfl⟩
        rw [Option.mem_toList, StdinEvent.completes,
          Option.bind_eq_some_iff] at completes
        rcases completes with ⟨c, _, completes⟩
        cases completed : completedItem before c with
        | request request' =>
            rw [completed] at completes
            cases completes
            have free := slashFree_of_completedItem completed
            exact ⟨free.1, free.2.1⟩
        | response response => simp [completed, RequestOrResponse.request?] at completes
        | none => simp [completed, RequestOrResponse.request?] at completes
      · exact ih later

theorem completions_sublist (before : List Bytes) (events : List StdinEvent) :
    ((completions before events).map Prod.fst).Sublist events := by
  induction events generalizing before with
  | nil => exact List.Sublist.slnil
  | cons event events ih =>
      rw [completions]
      cases event.completes before with
      | none => exact (ih _).cons event
      | some request => exact (ih _).cons_cons event

theorem messageId_of_answerTo {request : Request} {chunk : ChunkedResponse}
    (mem : chunk ∈ event.answerTo json hoposhellFolder request) :
    chunk.messageId = request.messageId := by
  rw [StdinEvent.answerTo] at mem
  cases made : event.response? json hoposhellFolder request with
  | none => simp [made] at mem
  | some response =>
      rw [made, Option.elim_some] at mem
      rw [(Response.header_of_mem_chunk mem).2.1, (StdinEvent.header_of_response? made).2.1]

/-- The history has the contents served so far, and the channel the answers to them. -/
structure StdinLoop.Serves (json : Json.Codec) (hoposhellFolder : String)
    (events : List StdinEvent) (loop : StdinLoop) : Prop where
  history : loop.commands.history.Represents (events.filterMap StdinEvent.served?)
  answers : responsesPut loop.toStream =
    (completions [] events).flatMap fun item => item.1.answerTo json hoposhellFolder item.2

theorem StdinLoop.serves_run {events : List StdinEvent} {loop : StdinLoop}
    (reaches : Transition.run (StdinLoop.step json hoposhellFolder) .start events = some loop) :
    loop.Serves json hoposhellFolder events := by
  have kept : ∀ past loop event next, StdinLoop.Serves json hoposhellFolder past loop →
      loop.step json hoposhellFolder event = some next →
      next.Serves json hoposhellFolder (past ++ [event]) := by
    intro past loop event next serves taken
    rcases serves_step serves.history taken with ⟨represents, put⟩
    constructor
    · cases served : event.served? <;> simpa [served] using represents
    · rw [put, serves.answers, completions_concat, List.flatMap_append, List.flatMap_map,
        List.nil_append]
  exact Transition.run_history kept ⟨CommandHistory.represents_new, rfl⟩ reaches

theorem filter_answers (items : List (StdinEvent × Request)) (id : String) :
    (items.flatMap fun item => item.1.answerTo json hoposhellFolder item.2).filter
        (fun chunk => chunk.messageId = id) =
      (items.filter fun item => item.2.messageId = id).flatMap fun item =>
        item.1.answerTo json hoposhellFolder item.2 := by
  induction items with
  | nil => rfl
  | cons item items ih =>
      rw [List.flatMap_cons, List.filter_append, ih, List.filter_cons]
      by_cases same : item.2.messageId = id
      · have all : ∀ chunk ∈ item.1.answerTo json hoposhellFolder item.2,
            decide (chunk.messageId = id) = true := by
          intro chunk mem
          simpa [messageId_of_answerTo mem] using same
        rw [List.filter_eq_self.mpr all, if_pos (by simpa using same), List.flatMap_cons]
      · have none : ∀ chunk ∈ item.1.answerTo json hoposhellFolder item.2,
            ¬decide (chunk.messageId = id) = true := by
          intro chunk mem
          simpa [messageId_of_answerTo mem] using same
        rw [List.filter_eq_nil_iff.mpr none, if_neg (by simpa using same), List.nil_append]

/-- The messages that complete a request with an id, each with its request. -/
def completionsOf (id : String) (events : List StdinEvent) : List (StdinEvent × Request) :=
  (completions [] events).filter fun item => item.2.messageId = id

theorem map_snd_completionsOf {events : List StdinEvent} {id : String} {sent : List Request}
    (nonempty : ∀ request ∈ sent, request.payload ≠ [])
    (sameId : ∀ request ∈ sent, request.messageId = id)
    (mixed : (requestChunks (events.filterMap StdinEvent.served?)).filter
      (fun chunk => chunk.messageId = id) = sent.flatMap Request.chunk) :
    (completionsOf id events).map Prod.snd = sent := by
  have own := requestsOf_mixed nonempty sameId mixed
  rw [← map_snd_completions CommandHistory.represents_new events, List.filter_map] at own
  exact own

theorem completionsOf_sublist (id : String) (events : List StdinEvent) :
    ((completionsOf id events).map Prod.fst).Sublist events :=
  (List.filter_sublist.map Prod.fst).trans (completions_sublist [] events)

theorem StdinLoop.answers_completionsOf {events : List StdinEvent} {loop : StdinLoop}
    (reaches : Transition.run (StdinLoop.step json hoposhellFolder) .start events = some loop)
    (id : String) :
    (responsesPut loop.toStream).filter (fun chunk => chunk.messageId = id) =
      (completionsOf id events).flatMap fun item =>
        item.1.answerTo json hoposhellFolder item.2 := by
  rw [(serves_run reaches).answers]
  exact filter_answers _ id

end Serving

/-- A chunk of another client whose request never is complete. -/
def otherClient : StdinEvent :=
  { echoEvent "ls" Zstd.stored with
    message :=
      { mtype := .command
        content := some (ChunkedRequest.toMessagePayload
          { cmd := "tcp", messageId := "b:2", target := "shell:b", chunkType := .notLast,
            payload := [] }) } }

def echoRequest (cmd : String) : Request where
  cmd := cmd
  messageId := "a:1"
  target := "shell:b"
  payload := asBytes "x"

end Hoposhell
