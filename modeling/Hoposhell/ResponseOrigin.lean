import Hoposhell.ReceiveResponse
import Hoposhell.SendRequest

/-!
# Where the chunks of a response come from

The client examines the messages of a batch one by one until one of them ends the batch
or the whole loop.  `Account` describes what the messages examined by some point have
led to: the chunks collected are those that they hold, an error is among them exactly if
the loop has failed, and a last chunk exactly if the response is complete.
-/

namespace Hoposhell

/-- The chunk of a successful response to the request that a message holds. -/
def okChunk (req : Request) (message : Message MessageTypeToCmd) : Option ChunkedResponse :=
  if message.mtype = .command then
    (message.content.bind (ownChunk req)).filter fun chunk => chunk.statusCode = .ok
  else none

/-- A message of another type than `COMMAND`, or a chunk of a response with an error status. -/
def isFatal (req : Request) (message : Message MessageTypeToCmd) : Bool :=
  message.mtype != .command ||
    (message.content.bind (ownChunk req)).any fun chunk => chunk.statusCode != .ok

/-- The messages of a batch that are looked at: up to the first that does not let it go on. -/
def examined (req : Request) : List (Message MessageTypeToCmd) → List (Message MessageTypeToCmd)
  | [] => []
  | message :: messages =>
      match okChunk req message with
      | none => [message]
      | some chunk =>
          if chunk.chunkType = .last then [message] else message :: examined req messages

/-- No batch is read after this message. -/
def endsLoop (req : Request) (message : Message MessageTypeToCmd) : Bool :=
  isFatal req message || (okChunk req message).any fun chunk => chunk.chunkType == .last

/-- The messages of the batches that are looked at, in order of arrival. -/
def examinedAll (req : Request) :
    List (List (Message MessageTypeToCmd)) → List (Message MessageTypeToCmd)
  | [] => []
  | messages :: batches =>
      if (examined req messages).any (endsLoop req) then examined req messages
      else examined req messages ++ examinedAll req batches

/-- What the messages examined have led to. -/
structure Account (req : Request) (seen : List (Message MessageTypeToCmd))
    (allRes : List ChunkedResponse) (parsed : Parsed) : Prop where
  allRes_eq : parsed.allRes = allRes ++ seen.filterMap (okChunk req)
  error_iff : parsed.result = .error ↔ ∃ message ∈ seen, isFatal req message = true
  reached_iff : parsed.result = .reachedLastChunk ↔
    ∃ chunk ∈ seen.filterMap (okChunk req), chunk.chunkType = .last
  notLast : ∀ chunk ∈ (seen.filterMap (okChunk req)).dropLast, chunk.chunkType = .notLast

/-- What the first message of a batch does. -/
inductive MessageStep (json : Json.Codec) (req : Request) (message : Message MessageTypeToCmd)
    (messages : List (Message MessageTypeToCmd)) (allRes : List ChunkedResponse) (parsed : Parsed) :
    Prop where
  | fatal (noChunk : okChunk req message = none) (fatal : isFatal req message = true)
      (result : parsed.result = .error) (same : parsed.allRes = allRes)
  | ignored (noChunk : okChunk req message = none) (notFatal : isFatal req message = false)
      (result : parsed.result = .canContinue) (same : parsed.allRes = allRes)
  | last {chunk : ChunkedResponse} (own : okChunk req message = some chunk)
      (notFatal : isFatal req message = false) (marked : chunk.chunkType = .last)
      (result : parsed.result = .reachedLastChunk) (pushed : parsed.allRes = allRes ++ [chunk])
  | more {chunk : ChunkedResponse} (own : okChunk req message = some chunk)
      (notFatal : isFatal req message = false) (unmarked : chunk.chunkType = .notLast)
      (rest : parseCommandResponseMessage json req messages (allRes ++ [chunk]) = .ok parsed)

theorem chunkType_eq_notLast_iff {chunk : ChunkedResponse} :
    chunk.chunkType = .notLast ↔ chunk.chunkType ≠ .last := by
  cases chunk.chunkType <;> simp

/-- Batches that let the loop go on and what comes after them. -/
theorem Account.append {req : Request} {seen seen' : List (Message MessageTypeToCmd)}
    {allRes : List ChunkedResponse} {parsed parsed' : Parsed}
    (first : Account req seen allRes parsed) (continues : parsed.result = .canContinue)
    (second : Account req seen' parsed.allRes parsed') :
    Account req (seen ++ seen') allRes parsed' := by
  have noFatal : ¬∃ message ∈ seen, isFatal req message = true := by
    rw [← first.error_iff, continues]
    simp
  have noLast : ¬∃ chunk ∈ seen.filterMap (okChunk req), chunk.chunkType = .last := by
    rw [← first.reached_iff, continues]
    simp
  refine ⟨?_, ?_, ?_, ?_⟩
  · rw [second.allRes_eq, first.allRes_eq, List.filterMap_append, List.append_assoc]
  · rw [second.error_iff]
    constructor
    · rintro ⟨message, mem, fatal⟩
      exact ⟨message, List.mem_append_right _ mem, fatal⟩
    · rintro ⟨message, mem, fatal⟩
      rcases List.mem_append.mp mem with early | late
      · exact absurd ⟨message, early, fatal⟩ noFatal
      · exact ⟨message, late, fatal⟩
  · rw [second.reached_iff, List.filterMap_append]
    constructor
    · rintro ⟨chunk, mem, marked⟩
      exact ⟨chunk, List.mem_append_right _ mem, marked⟩
    · rintro ⟨chunk, mem, marked⟩
      rcases List.mem_append.mp mem with early | late
      · exact absurd ⟨chunk, early, marked⟩ noLast
      · exact ⟨chunk, late, marked⟩
  · intro chunk mem
    rw [List.filterMap_append] at mem
    have place : chunk ∈ seen.filterMap (okChunk req) ∨
        chunk ∈ (seen'.filterMap (okChunk req)).dropLast := by
      by_cases nothing : seen'.filterMap (okChunk req) = []
      · rw [nothing, List.append_nil] at mem
        exact .inl ((List.dropLast_sublist _).subset mem)
      · rw [List.dropLast_append_of_ne_nil nothing] at mem
        exact List.mem_append.mp mem
    rcases place with early | late
    · rw [chunkType_eq_notLast_iff]
      exact fun marked => noLast ⟨chunk, early, marked⟩
    · exact second.notLast chunk late

section Batch

variable {json : Json.Codec} {req : Request} {message : Message MessageTypeToCmd}
  {messages : List (Message MessageTypeToCmd)} {allRes : List ChunkedResponse} {parsed : Parsed}

theorem messageStep_of_parse
    (parses : parseCommandResponseMessage json req (message :: messages) allRes = .ok parsed) :
    MessageStep json req message messages allRes parsed := by
  rcases message with ⟨mtype, content⟩
  by_cases isCommand : mtype = .command
  · subst isCommand
    cases content with
    | none => simp [parseCommandResponseMessage, unwrap, bind, Except.bind] at parses
    | some bytes =>
        change parseCommandResponseMessage json req (commandMessage bytes :: messages) allRes =
          .ok parsed at parses
        cases own : ownChunk req bytes with
        | none =>
            rw [parse_ignored json own] at parses
            cases parses
            exact .ignored (by simp [okChunk, own]) (by simp [isFatal, own]) rfl rfl
        | some chunk =>
            by_cases ok : chunk.statusCode = .ok
            · have isChunk : okChunk req { mtype := .command, content := some bytes } =
                  some chunk := by
                simp [okChunk, own, ok]
              have notFatal : isFatal req { mtype := .command, content := some bytes } = false := by
                simp [isFatal, own, ok]
              rw [parse_own json own ok] at parses
              split at parses
              · rename_i marked
                cases parses
                exact .last isChunk notFatal marked rfl rfl
              · rename_i unmarked
                exact .more isChunk notFatal (chunkType_eq_notLast_iff.mpr unmarked) parses
            · rw [parse_failed json own ok] at parses
              cases report : reportError json chunk.payload with
              | error panic => simp [report, Except.map] at parses
              | ok errorText =>
                  rw [report] at parses
                  cases parses
                  exact .fatal (by simp [okChunk, own, ok]) (by simp [isFatal, own, ok]) rfl rfl
  · rw [parseCommandResponseMessage, if_pos isCommand] at parses
    cases parses
    exact .fatal (by simp [okChunk, isCommand]) (by simp [isFatal, isCommand]) rfl rfl

/-- A batch is accounted for by the messages of it that are examined. -/
theorem account_of_parse
    (parses : parseCommandResponseMessage json req messages allRes = .ok parsed) :
    Account req (examined req messages) allRes parsed := by
  induction messages generalizing allRes with
  | nil =>
      cases parses
      exact ⟨by simp [examined], by simp [examined], by simp [examined], by simp [examined]⟩
  | cons message messages ih =>
      cases messageStep_of_parse parses with
      | fatal noChunk fatal result same =>
          exact ⟨by simp [examined, noChunk, same], by simp [examined, noChunk, fatal, result],
            by simp [examined, noChunk, result], by simp [examined, noChunk]⟩
      | ignored noChunk notFatal result same =>
          exact ⟨by simp [examined, noChunk, same], by simp [examined, noChunk, notFatal, result],
            by simp [examined, noChunk, result], by simp [examined, noChunk]⟩
      | last own notFatal marked result pushed =>
          exact ⟨by simp [examined, own, marked, pushed],
            by simp [examined, own, marked, notFatal, result],
            by simp [examined, own, marked, result], by simp [examined, own, marked]⟩
      | @more chunk own notFatal unmarked rest =>
          have here : Account req [message] allRes
              { result := .canContinue, allRes := allRes ++ [chunk], errorText := none } :=
            ⟨by simp [own], by simp [notFatal], by simp [own, unmarked], by simp [own]⟩
          have shape : examined req (message :: messages) =
              [message] ++ examined req messages := by
            simp [examined, own, unmarked]
          rw [shape]
          exact here.append rfl (ih rest)

theorem parse_of_okChunk {chunk : ChunkedResponse} (own : okChunk req message = some chunk) :
    parseCommandResponseMessage json req (message :: messages) allRes =
      if chunk.chunkType = .last then
        .ok { result := .reachedLastChunk, allRes := allRes ++ [chunk], errorText := none }
      else parseCommandResponseMessage json req messages (allRes ++ [chunk]) := by
  rcases message with ⟨mtype, content⟩
  simp only [okChunk, Option.ite_none_right_eq_some, Option.filter_eq_some_iff,
    Option.bind_eq_some_iff, decide_eq_true_eq] at own
  rcases own with ⟨rfl, ⟨bytes, rfl, own⟩, ok⟩
  exact parse_own json own ok messages allRes

theorem parse_of_noChunk (noChunk : okChunk req message = none) :
    parseCommandResponseMessage json req (message :: messages) allRes =
      parseCommandResponseMessage json req [message] allRes := by
  rcases message with ⟨mtype, content⟩
  by_cases isCommand : mtype = .command
  · subst isCommand
    cases content with
    | none => rfl
    | some bytes =>
        change parseCommandResponseMessage json req (commandMessage bytes :: messages) allRes =
          parseCommandResponseMessage json req [commandMessage bytes] allRes
        cases own : ownChunk req bytes with
        | none => rw [parse_ignored json own, parse_ignored json own]
        | some chunk =>
            have failed : chunk.statusCode ≠ .ok := by simpa [okChunk, own] using noChunk
            rw [parse_failed json own failed, parse_failed json own failed]
  · rw [parseCommandResponseMessage, parseCommandResponseMessage, if_pos isCommand,
      if_pos isCommand]

/-- The messages behind those examined make no difference. -/
theorem parse_examined :
    parseCommandResponseMessage json req (examined req messages) allRes =
      parseCommandResponseMessage json req messages allRes := by
  induction messages generalizing allRes with
  | nil => rfl
  | cons message messages ih =>
      rw [examined]
      split
      · rename_i noChunk
        exact (parse_of_noChunk noChunk).symm
      · rename_i chunk own
        split
        · rename_i marked
          rw [parse_of_okChunk own, parse_of_okChunk own, if_pos marked, if_pos marked]
        · rw [parse_of_okChunk own, parse_of_okChunk own, ih]

theorem examined_sublist (req : Request) (messages : List (Message MessageTypeToCmd)) :
    (examined req messages).Sublist messages := by
  induction messages with
  | nil => exact List.nil_sublist _
  | cons message messages ih =>
      have alone : [message].Sublist (message :: messages) :=
        (List.nil_sublist messages).cons_cons message
      rw [examined]
      split
      · exact alone
      · split
        · exact alone
        · exact ih.cons_cons message

theorem examinedAll_sublist (req : Request) (batches : List (List (Message MessageTypeToCmd))) :
    (examinedAll req batches).Sublist batches.flatten := by
  induction batches with
  | nil => exact List.nil_sublist _
  | cons messages batches ih =>
      rw [examinedAll, List.flatten_cons]
      split
      · exact (examined_sublist req messages).trans (List.sublist_append_left _ _)
      · exact (examined_sublist req messages).append ih

end Batch

section Batches

variable {json : Json.Codec} {req : Request}

theorem Account.any_endsLoop {seen : List (Message MessageTypeToCmd)}
    {allRes : List ChunkedResponse} {parsed : Parsed} (account : Account req seen allRes parsed) :
    seen.any (endsLoop req) = true ↔ parsed.result ≠ .canContinue := by
  have split : seen.any (endsLoop req) = true ↔
      (∃ message ∈ seen, isFatal req message = true) ∨
        ∃ chunk ∈ seen.filterMap (okChunk req), chunk.chunkType = .last := by
    simp only [List.any_eq_true, endsLoop, Bool.or_eq_true, Option.any_eq_true, beq_iff_eq,
      List.mem_filterMap]
    constructor
    · rintro ⟨message, mem, fatal | ⟨chunk, own, marked⟩⟩
      · exact .inl ⟨message, mem, fatal⟩
      · exact .inr ⟨chunk, ⟨message, mem, own⟩, marked⟩
    · rintro (⟨message, mem, fatal⟩ | ⟨chunk, ⟨message, mem, own⟩, marked⟩)
      · exact ⟨message, mem, .inl fatal⟩
      · exact ⟨message, mem, .inr ⟨chunk, own, marked⟩⟩
  rw [split, ← account.error_iff, ← account.reached_iff]
  cases parsed.result <;> simp

/-- The batches are accounted for by the messages of them that are examined. -/
theorem account_of_collect {batches : List (List (Message MessageTypeToCmd))}
    {allRes : List ChunkedResponse} {parsed : Parsed}
    (collects : collect json req batches allRes = .ok parsed) :
    Account req (examinedAll req batches) allRes parsed := by
  induction batches generalizing allRes with
  | nil =>
      cases collects
      exact ⟨by simp [examinedAll], by simp [examinedAll], by simp [examinedAll],
        by simp [examinedAll]⟩
  | cons messages batches ih =>
      cases parses : parseCommandResponseMessage json req messages allRes with
      | error panic => simp [collect, parses, bind, Except.bind] at collects
      | ok first =>
          simp only [collect, parses, bind, Except.bind] at collects
          have account := account_of_parse parses
          by_cases continues : first.result = .canContinue
          · have goesOn : (examined req messages).any (endsLoop req) = false := by
              rw [← Bool.not_eq_true, account.any_endsLoop]
              simp [continues]
            rw [examinedAll, goesOn]
            simp only [continues] at collects
            exact account.append continues (ih collects)
          · have ends : (examined req messages).any (endsLoop req) = true :=
              account.any_endsLoop.mpr continues
            rw [examinedAll, ends]
            have same : first = parsed := by
              cases result : first.result with
              | canContinue => exact absurd result continues
              | reachedLastChunk => simpa [result] using collects
              | error => simpa [result] using collects
            rw [← same]
            exact account

/-- Once the loop has stopped, further batches are not looked at. -/
theorem collect_append_of_stopped {batches : List (List (Message MessageTypeToCmd))}
    {allRes : List ChunkedResponse} {parsed : Parsed}
    (collects : collect json req batches allRes = .ok parsed)
    (stopped : parsed.result ≠ .canContinue) (more : List (List (Message MessageTypeToCmd))) :
    collect json req (batches ++ more) allRes = .ok parsed := by
  induction batches generalizing allRes with
  | nil =>
      cases collects
      exact absurd rfl stopped
  | cons messages batches ih =>
      cases parses : parseCommandResponseMessage json req messages allRes with
      | error panic => simp [collect, parses, bind, Except.bind] at collects
      | ok first =>
          simp only [List.cons_append, collect, parses, bind, Except.bind] at collects ⊢
          cases result : first.result with
          | canContinue =>
              simp only [result] at collects ⊢
              exact ih collects
          | reachedLastChunk => simpa [result] using collects
          | error => simpa [result] using collects

end Batches

section Loop

variable {base64 : Base64.Engine} {json : Json.Codec} {commandTimeout : ℕ} {req : Request}

/-- A turn has looked at the batch that its read has delivered, with this result. -/
def Receiving.Looks (base64 : Base64.Engine) (json : Json.Codec) (req : Request)
    (receiving : Receiving) (poll : Poll) (separated : Separated) (parsed : Parsed) : Prop :=
  ∃ data, poll.read = .ok data ∧
    separateMessages base64 receiving.bufStr (readBuffer data) data.length = .ok separated ∧
    parseCommandResponseMessage json req separated.messages receiving.allRes = .ok parsed

theorem Receiving.turn_spec {receiving : Receiving} {poll : Poll} {turn : Turn}
    (taken : receiving.turn base64 json commandTimeout req poll = .ok turn) :
    match turn with
    | .failed _ => True
    | .next next =>
        (poll.read = .error .wouldBlock ∧ next.bufStr = receiving.bufStr ∧
            next.allRes = receiving.allRes) ∨
          ∃ separated parsed, receiving.Looks base64 json req poll separated parsed ∧
            parsed.result = .canContinue ∧ next.bufStr = separated.buffer ∧
            next.allRes = parsed.allRes
    | .reachedLastChunk allRes =>
        ∃ separated parsed, receiving.Looks base64 json req poll separated parsed ∧
          parsed.result = .reachedLastChunk ∧ parsed.allRes = allRes := by
  cases takesTurn taken with
  | timedOut silent => trivial
  | blocked read => exact .inl ⟨read, rfl, rfl⟩
  | unreadable read => trivial
  | @continues data separated parsed totalBytesReceived read nonempty split gives result =>
      exact .inr ⟨separated, parsed, ⟨data, read, split, gives⟩, result, rfl, rfl⟩
  | @reached data separated parsed read nonempty split gives result =>
      exact ⟨separated, parsed, ⟨data, read, split, gives⟩, result, rfl⟩
  | rejected read nonempty split gives result => trivial

/-- The batches that the first of the polls have delivered. -/
def Delivers (base64 : Base64.Engine) (bufStr : Bytes) (polls : List Poll)
    (batches : List (List (Message MessageTypeToCmd))) : Prop :=
  ∃ front last, front <+: polls ∧
    separateReads base64 bufStr (receivedData front) = .ok (last, batches)

theorem Receiving.Looks.delivers {receiving : Receiving} {poll : Poll} {polls : List Poll}
    {separated : Separated} {parsed : Parsed}
    {batches : List (List (Message MessageTypeToCmd))}
    (looks : receiving.Looks base64 json req poll separated parsed)
    (later : Delivers base64 separated.buffer polls batches) :
    Delivers base64 receiving.bufStr (poll :: polls) (separated.messages :: batches) := by
  rcases looks with ⟨data, read, split, _⟩
  rcases later with ⟨front, last, within, delivers⟩
  refine ⟨poll :: front, last, List.cons_prefix_cons.mpr ⟨rfl, within⟩, ?_⟩
  have received : receivedData (poll :: front) = data :: receivedData front := by
    simp [receivedData, read, Except.toOption]
  rw [received]
  exact separateReads_cons split delivers

/-- A loop that has reached the last chunk has collected the batches delivered by then. -/
theorem Receiving.collect_of_loop {receiving : Receiving} {polls : List Poll}
    {allRes : List ChunkedResponse}
    (loops : receiving.loop base64 json commandTimeout req polls = .ok (.reachedLastChunk allRes)) :
    ∃ batches parsed, Delivers base64 receiving.bufStr polls batches ∧
      collect json req batches receiving.allRes = .ok parsed ∧
      parsed.result = .reachedLastChunk ∧ parsed.allRes = allRes := by
  induction polls generalizing receiving with
  | nil => simp [Receiving.loop] at loops
  | cons poll polls ih =>
      rw [Receiving.loop] at loops
      cases taken : receiving.turn base64 json commandTimeout req poll with
      | error panic => simp [taken, bind, Except.bind] at loops
      | ok turn =>
          simp only [taken, bind, Except.bind] at loops
          have spec := Receiving.turn_spec taken
          cases turn with
          | failed error => simp at loops
          | reachedLastChunk reached =>
              have same : reached = allRes := by simpa using loops
              subst same
              rcases spec with ⟨separated, parsed, looks, result, same⟩
              have nothing : Delivers base64 separated.buffer polls [] :=
                ⟨[], separated.buffer, List.nil_prefix, rfl⟩
              refine ⟨_, parsed, looks.delivers nothing, ?_, result, same⟩
              rcases looks with ⟨data, read, split, gives⟩
              simp only [collect, gives, bind, Except.bind, result]
          | next next =>
              rcases ih loops with ⟨batches, parsed, delivered, collects, reached⟩
              rcases spec with ⟨blocked, sameBuffer, sameRes⟩ | ⟨separated, first, looks, spec⟩
              · rcases delivered with ⟨front, last, within, delivers⟩
                refine ⟨batches, parsed, ?_, by rwa [sameRes] at collects, reached⟩
                refine ⟨poll :: front, last, List.cons_prefix_cons.mpr ⟨rfl, within⟩, ?_⟩
                have received : receivedData (poll :: front) = receivedData front := by
                  simp [receivedData, blocked, Except.toOption]
                rw [received, ← sameBuffer]
                exact delivers
              · rcases spec with ⟨continues, buffer, same⟩
                rw [buffer] at delivered
                refine ⟨_, parsed, looks.delivers delivered, ?_, reached⟩
                rcases looks with ⟨data, read, split, gives⟩
                simp only [collect, gives, bind, Except.bind, continues]
                rwa [same] at collects

end Loop

theorem own_of_okChunk {req : Request} {message : Message MessageTypeToCmd}
    {chunk : ChunkedResponse} (own : okChunk req message = some chunk) :
    chunk.messageId = req.messageId ∧ chunk.statusCode = .ok := by
  simp only [okChunk, Option.ite_none_right_eq_some, Option.filter_eq_some_iff,
    Option.bind_eq_some_iff, decide_eq_true_eq] at own
  rcases own with ⟨_, ⟨bytes, _, held⟩, ok⟩
  refine ⟨?_, ok⟩
  rw [ownChunk] at held
  split at held
  · rw [Option.ite_none_right_eq_some] at held
    rcases held with ⟨sameId, heldEq⟩
    cases heldEq
    exact sameId
  · cases held

/-- What holds of the chunks collected from the batches that have been delivered. -/
structure Collected (json : Json.Codec) (req : Request)
    (batches : List (List (Message MessageTypeToCmd))) (parsed : Parsed) : Prop where
  arrival : (examinedAll req batches).Sublist batches.flatten
  chunks : parsed.allRes = (examinedAll req batches).filterMap (okChunk req)
  own : ∀ chunk ∈ parsed.allRes, chunk.messageId = req.messageId ∧ chunk.statusCode = .ok
  onlyFinal : ∀ chunk ∈ parsed.allRes.dropLast, chunk.chunkType = .notLast
  complete : (∃ chunk ∈ parsed.allRes, chunk.chunkType = .last) →
    ∀ more, collect json req (batches ++ more) [] = .ok parsed
  failed : (∃ message ∈ examinedAll req batches, isFatal req message = true) →
    parsed.result = .error ∧ ∀ more, collect json req (batches ++ more) [] = .ok parsed

theorem collected_of_collect {json : Json.Codec} {req : Request}
    {batches : List (List (Message MessageTypeToCmd))} {parsed : Parsed}
    (collects : collect json req batches [] = .ok parsed) : Collected json req batches parsed := by
  have account := account_of_collect collects
  have chunks : parsed.allRes = (examinedAll req batches).filterMap (okChunk req) := by
    simpa using account.allRes_eq
  refine ⟨examinedAll_sublist req batches, chunks, ?_, ?_, ?_, ?_⟩
  · intro chunk mem
    rw [chunks] at mem
    rcases List.mem_filterMap.mp mem with ⟨message, _, own⟩
    exact own_of_okChunk own
  · rw [chunks]
    exact account.notLast
  · rw [chunks, ← account.reached_iff]
    intro reached
    exact collect_append_of_stopped collects (by simp [reached])
  · rw [← account.error_iff]
    intro error
    exact ⟨error, collect_append_of_stopped collects (by simp [error])⟩

theorem header_of_assembleResponse {zstd : Zstd.Codec} {allRes : List ChunkedResponse}
    {response : Response} (assembled : assembleResponse zstd allRes = .ok response) :
    (∃ chunk ∈ allRes, response.messageId = chunk.messageId ∧
        response.statusCode = chunk.statusCode) ∧
      zstd.decodeAll (allRes.flatMap (·.payload)) = some response.payload := by
  unfold assembleResponse at assembled
  split at assembled
  · cases assembled
  · rename_i first rest
    split at assembled
    · cases assembled
    · rename_i payload decompressed
      cases assembled
      exact ⟨⟨first, by simp, rfl, rfl⟩, decompressed⟩

theorem exists_concat_of_notLast {chunks : List ChunkedResponse}
    (notLast : ∀ chunk ∈ chunks.dropLast, chunk.chunkType = .notLast)
    (reached : ∃ chunk ∈ chunks, chunk.chunkType = .last) :
    ∃ front last, chunks = front ++ [last] ∧ last.chunkType = .last := by
  rcases reached with ⟨chunk, mem, marked⟩
  rcases List.eq_nil_or_concat chunks with rfl | ⟨front, last, rfl⟩
  · cases mem
  · rw [List.concat_eq_append] at mem notLast ⊢
    rw [List.dropLast_concat] at notLast
    refine ⟨front, last, rfl, ?_⟩
    rcases List.mem_append.mp mem with inFront | isLast
    · rw [notLast chunk inFront] at marked
      cases marked
    · rwa [← List.mem_singleton.mp isLast]

/-- A response is returned after the receive loop has reached the last chunk. -/
theorem loop_of_returned {base64 : Base64.Engine} {json : Json.Codec} {zstd : Zstd.Codec}
    {commandTimeout startTime : ℕ} {version : String} {req : Request}
    {writes : ℕ → Except ErrorKind ℕ} {polls : List Poll} {sent : SentRequest}
    {response : Response}
    (sends : sendRequestAndGetResponse base64 json zstd commandTimeout version req writes startTime
      polls = .ok sent)
    (returned : sent.outcome = .returned (.ok response)) :
    ∃ allRes, Receiving.loop base64 json commandTimeout req
        { bufStr := [], allRes := [], startTime, totalBytesReceived := 0 } polls =
          .ok (.reachedLastChunk allRes) ∧
      assembleResponse zstd allRes = .ok response := by
  unfold sendRequestAndGetResponse at sends
  split at sends
  · cases sends
    cases returned
  · unfold receiveResponse at sends
    cases loops : Receiving.loop base64 json commandTimeout req
        { bufStr := [], allRes := [], startTime, totalBytesReceived := 0 } polls with
    | error panic => simp [loops, bind, Except.bind] at sends
    | ok turn =>
        simp only [loops, bind, Except.bind] at sends
        cases turn with
        | next receiving =>
            cases sends
            cases returned
        | failed error =>
            cases sends
            cases returned
        | reachedLastChunk allRes =>
            cases sends
            exact ⟨allRes, rfl, by simpa using returned⟩

/--
At every point of the receive loop the chunks collected are the successful chunks of the
request's own response among the messages examined, in order of arrival, and only the final
one can be the last.  A response is returned only when that one is there and no error has
been examined, and is the decompression of exactly these chunks.  The batches are those
delivered by then, the last of them cut off where the loop has got to.
-/
theorem response_of_own_chunks (base64 : Base64.Engine) (json : Json.Codec) (zstd : Zstd.Codec)
    (commandTimeout : ℕ) (version : String) (req : Request) :
    (∀ batches parsed, collect json req batches [] = .ok parsed →
        Collected json req batches parsed) ∧
      ∀ writes startTime polls sent response,
        sendRequestAndGetResponse base64 json zstd commandTimeout version req writes startTime
            polls = .ok sent →
          sent.outcome = .returned (.ok response) →
          ∃ batches parsed, Delivers base64 [] polls batches ∧
            collect json req batches [] = .ok parsed ∧
            (∃ front last, parsed.allRes = front ++ [last] ∧ last.chunkType = .last) ∧
            response.messageId = req.messageId ∧ response.statusCode = .ok ∧
            zstd.decodeAll (parsed.allRes.flatMap (·.payload)) = some response.payload ∧
            ∀ message ∈ examinedAll req batches, isFatal req message = false := by
  refine ⟨fun batches parsed collects => collected_of_collect collects, ?_⟩
  intro writes startTime polls sent response sends returned
  rcases loop_of_returned sends returned with ⟨allRes, loops, assembled⟩
  rcases Receiving.collect_of_loop loops with ⟨batches, parsed, delivered, collects, reached, rfl⟩
  have collected := collected_of_collect collects
  have account := account_of_collect collects
  have hasLast : ∃ chunk ∈ parsed.allRes, chunk.chunkType = .last := by
    rw [collected.chunks]
    exact account.reached_iff.mp reached
  rcases header_of_assembleResponse assembled with
    ⟨⟨chunk, mem, sameId, sameStatus⟩, decompressed⟩
  refine ⟨batches, parsed, delivered, collects,
    exists_concat_of_notLast collected.onlyFinal hasLast, ?_, ?_, decompressed, ?_⟩
  · rw [sameId, (collected.own chunk mem).1]
  · rw [sameStatus, (collected.own chunk mem).2]
  · intro message examined
    by_contra fatal
    have failed := collected.failed ⟨message, examined, by simpa using fatal⟩
    rw [reached] at failed
    cases failed.1

theorem response_of_own_chunks_download :
    ∃ batches parsed, Delivers Base64.standard [] downloadPolls batches ∧
      collect Json.nullCodec downloadRequest batches [] = .ok parsed ∧
      Zstd.stored.decodeAll (parsed.allRes.flatMap (·.payload)) = some (asBytes "x") := by
  have sends : sendRequestAndGetResponse Base64.standard Json.nullCodec Zstd.stored 1 "1"
      downloadRequest (fun _ => .ok 24) 0 downloadPolls =
      .ok { written := downloadRequest.chunk
            outcome := .returned (.ok { cmd := "download", messageId := "a:1", statusCode := .ok,
                                        payload := asBytes "x" }) } := by
    decide +kernel
  have returned := (response_of_own_chunks Base64.standard Json.nullCodec Zstd.stored 1 "1"
    downloadRequest).2 _ _ _ _ _ sends rfl
  rcases returned with ⟨batches, parsed, delivered, collects, _, _, _, decompressed, _⟩
  exact ⟨batches, parsed, delivered, collects, decompressed⟩

end Hoposhell
