import Hoposhell.CommandHistory

/-!
# What the parser of command messages accepts

`deserialize` is compared with `to_message_payload` in both directions.  A chunk is
read back exactly when its header fields have no separator, because the fields that
the parser returns never have one.  Conversely an accepted request is written by its
own chunk.  An accepted response is, too, except for the status: it is read as an
`i32`, so that a plus sign and leading zeros are accepted before its three digits.
-/

namespace Hoposhell

section Digits

theorem parseDigits_concat (value : ℕ) (digits : Bytes) (digit : UInt8) :
    parseDigits value (digits ++ [digit]) =
      (parseDigits value digits).bind fun value =>
        if 48 ≤ digit ∧ digit ≤ 57 then some (value * 10 + (digit.toNat - 48)) else none := by
  induction digits generalizing value with
  | nil => simp [parseDigits]
  | cons first digits ih =>
      simp only [List.cons_append, parseDigits]
      split
      · exact ih _
      · rfl

/-- The last digit of a number other than zero, and the number before it. -/
theorem exists_concat_of_parseDigits {digits : Bytes} {value : ℕ}
    (parsed : parseDigits 0 digits = some value) (positive : 0 < value) :
    ∃ front, digits = front ++ [UInt8.ofNat (48 + value % 10)] ∧
      parseDigits 0 front = some (value / 10) := by
  rcases List.eq_nil_or_concat digits with rfl | ⟨front, digit, rfl⟩
  · simp only [parseDigits, Option.some.injEq] at parsed
    omega
  · rw [List.concat_eq_append, parseDigits_concat, Option.bind_eq_some_iff] at parsed
    rcases parsed with ⟨before, frontParsed, parsed⟩
    split at parsed
    · rename_i isDigit
      have low : 48 ≤ digit.toNat := UInt8.le_iff_toNat_le.mp isDigit.1
      have high : digit.toNat ≤ 57 := UInt8.le_iff_toNat_le.mp isDigit.2
      have whole := Option.some.inj parsed
      have digitEq : UInt8.ofNat (48 + value % 10) = digit := by
        rw [show 48 + value % 10 = digit.toNat by omega, UInt8.ofNat_toNat]
      refine ⟨front, by rw [digitEq, List.concat_eq_append], ?_⟩
      rw [frontParsed]
      congr 1
      omega
    · cases parsed

theorem eq_replicate_of_parseDigits_zero {digits : Bytes}
    (parsed : parseDigits 0 digits = some 0) : ∃ zeros, digits = List.replicate zeros 48 := by
  induction digits using List.reverseRecOn with
  | nil => exact ⟨0, rfl⟩
  | append_singleton front digit ih =>
      rw [parseDigits_concat, Option.bind_eq_some_iff] at parsed
      rcases parsed with ⟨before, frontParsed, parsed⟩
      split at parsed
      · rename_i isDigit
        have low : 48 ≤ digit.toNat := UInt8.le_iff_toNat_le.mp isDigit.1
        have whole := Option.some.inj parsed
        have beforeEq : before = 0 := by omega
        have digitEq : digit = 48 := UInt8.toNat_inj.mp (by simp; omega)
        rcases ih (beforeEq ▸ frontParsed) with ⟨zeros, rfl⟩
        exact ⟨zeros + 1, by rw [digitEq, List.replicate_succ']⟩
      · cases parsed

theorem parseDigits_replicate_append (zeros : ℕ) (digits : Bytes) :
    parseDigits 0 (List.replicate zeros 48 ++ digits) = parseDigits 0 digits := by
  induction zeros with
  | zero => rfl
  | succ zeros ih => simpa [List.replicate_succ, parseDigits] using ih

end Digits

namespace StatusCode

/-- The number of a status. -/
def code : StatusCode → ℕ
  | .ok => 200
  | .incorrectParams => 400
  | .internalError => 500

/-- The digits of the status, after an optional plus sign and leading zeros. -/
def Spelling (statusCode : StatusCode) (text : Bytes) : Prop :=
  ∃ (sign : Bytes) (zeros : ℕ), (sign = [] ∨ sign = asBytes "+") ∧
    text = sign ++ (List.replicate zeros 48 ++ statusCode.toBytes)

theorem parseDigits_eq_code_iff {statusCode : StatusCode} {digits : Bytes} :
    parseDigits 0 digits = some statusCode.code ↔
      ∃ zeros, digits = List.replicate zeros 48 ++ statusCode.toBytes := by
  constructor
  · intro parsed
    have positive : 0 < statusCode.code := by cases statusCode <;> decide
    have tens : 0 < statusCode.code / 10 := by cases statusCode <;> decide
    have hundreds : 0 < statusCode.code / 10 / 10 := by cases statusCode <;> decide
    have rest : statusCode.code / 10 / 10 / 10 = 0 := by cases statusCode <;> decide
    rcases exists_concat_of_parseDigits parsed positive with ⟨front, rfl, parsedTens⟩
    rcases exists_concat_of_parseDigits parsedTens tens with ⟨front, rfl, parsedHundreds⟩
    rcases exists_concat_of_parseDigits parsedHundreds hundreds with ⟨front, rfl, parsedRest⟩
    rw [rest] at parsedRest
    rcases eq_replicate_of_parseDigits_zero parsedRest with ⟨zeros, rfl⟩
    refine ⟨zeros, ?_⟩
    simp only [List.append_assoc, List.append_cancel_left_eq]
    cases statusCode <;> decide
  · rintro ⟨zeros, rfl⟩
    rw [parseDigits_replicate_append]
    cases statusCode <;> decide

theorem maybeFrom_eq_some_iff {statusCode : StatusCode} {text : String} :
    maybeFrom (some text) = some statusCode ↔ parseI32 text = some (statusCode.code : ℤ) := by
  rw [maybeFrom, Option.bind_some]
  cases parsed : parseI32 text with
  | none => simp
  | some number =>
      cases statusCode <;> simp only [code] <;> grind

theorem spelling_of_unsigned {statusCode : StatusCode} {digits : Bytes}
    (unsigned : digits.head? ≠ some 43) :
    statusCode.Spelling digits ↔ parseDigits 0 digits = some statusCode.code := by
  rw [parseDigits_eq_code_iff]
  constructor
  · rintro ⟨sign, zeros, rfl | rfl, rfl⟩
    · exact ⟨zeros, rfl⟩
    · exact absurd rfl unsigned
  · rintro ⟨zeros, rfl⟩
    exact ⟨[], zeros, .inl rfl, rfl⟩

theorem spelling_plus {statusCode : StatusCode} {digits : Bytes} :
    statusCode.Spelling (43 :: digits) ↔ parseDigits 0 digits = some statusCode.code := by
  constructor
  · rintro ⟨sign, zeros, rfl | rfl, whole⟩
    · have parsed := parseDigits_eq_code_iff.mpr ⟨zeros, whole⟩
      simp [parseDigits] at parsed
    · exact parseDigits_eq_code_iff.mpr ⟨zeros, List.cons.inj whole |>.2⟩
  · intro parsed
    rcases parseDigits_eq_code_iff.mp parsed with ⟨zeros, rfl⟩
    exact ⟨asBytes "+", zeros, .inr rfl, rfl⟩

/-- Neither the sign nor the range of `i32` is in the way of the three numbers. -/
theorem parseI32_eq_code_iff {statusCode : StatusCode} {text : String} :
    parseI32 text = some (statusCode.code : ℤ) ↔ statusCode.Spelling (asBytes text) := by
  have inRange : statusCode.code < 2147483648 := by cases statusCode <;> decide
  have positive : 0 < statusCode.code := by cases statusCode <;> decide
  rw [parseI32]
  rcases asBytes text with _ | ⟨first, rest⟩
  · rw [spelling_of_unsigned (by simp), parseDigits]
    simp [positive.ne]
  · by_cases plus : first = 43
    · subst plus
      rw [spelling_plus]
      cases rest with
      | nil => simp [parseDigits, positive.ne]
      | cons digit rest =>
          cases parsed : parseDigits 0 (digit :: rest) with
          | none => simp [parsed]
          | some value => simp [parsed]; omega
    · rw [spelling_of_unsigned (by simpa using plus)]
      by_cases minus : first = 45
      · subst minus
        have notDigit : parseDigits 0 (45 :: rest) = none := by simp [parseDigits]
        rw [notDigit]
        cases rest with
        | nil => simp
        | cons digit rest =>
            cases parsed : parseDigits 0 (digit :: rest) with
            | none => simp [parsed]
            | some value => simp [parsed]; omega
      · cases parsed : parseDigits 0 (first :: rest) with
        | none => simp [plus, minus, parsed]
        | some value => simp [plus, minus, parsed]; omega

theorem maybeFrom_eq_some_iff_spelling {statusCode : StatusCode} {text : String} :
    maybeFrom (some text) = some statusCode ↔ statusCode.Spelling (asBytes text) := by
  rw [maybeFrom_eq_some_iff, parseI32_eq_code_iff]

theorem Spelling.separator_free {statusCode : StatusCode} {text : Bytes}
    (spelled : statusCode.Spelling text) : messagePartsSeparator ∉ text := by
  rcases spelled with ⟨sign, zeros, signEq, rfl⟩
  have signFree : messagePartsSeparator ∉ sign := by rcases signEq with rfl | rfl <;> decide
  have codeFree : messagePartsSeparator ∉ statusCode.toBytes := by cases statusCode <;> decide
  simp only [List.mem_append, List.mem_replicate, not_or, not_and]
  exact ⟨signFree, fun _ => by decide, codeFree⟩

theorem Spelling.exists_text {statusCode : StatusCode} {text : Bytes}
    (spelled : statusCode.Spelling text) : ∃ status : String, text = asBytes status := by
  have ascii : ∀ byte ∈ text, byte < 128 := by
    rcases spelled with ⟨sign, zeros, signEq, rfl⟩
    have signAscii : ∀ byte ∈ sign, byte < 128 := by
      rcases signEq with rfl | rfl <;> decide +kernel
    have codeAscii : ∀ byte ∈ statusCode.toBytes, byte < 128 := by
      cases statusCode <;> decide +kernel
    intro byte mem
    simp only [List.mem_append, List.mem_replicate] at mem
    rcases mem with inSign | ⟨_, rfl⟩ | inCode
    · exact signAscii byte inSign
    · decide
    · exact codeAscii byte inCode
  rcases Option.isSome_iff_exists.mp (isSome_fromUtf8_of_ascii ascii) with ⟨status, decoded⟩
  exact ⟨status, (asBytes_eq_of_fromUtf8 decoded).symm⟩

end StatusCode

section Parser

/-- The message of a response chunk whose status is written as the given text. -/
def ChunkedResponse.messageWith (chunk : ChunkedResponse) (status : Bytes) : Bytes :=
  messagePayload chunk.cmd .res chunk.messageId status chunk.chunkType chunk.payload

theorem asBytes_of_maybeString {piece : Bytes} {text : String}
    (read : maybeString (some piece) = some text) : asBytes text = piece :=
  asBytes_eq_of_fromUtf8 (by simpa [maybeString] using read)

theorem ReqOrRes.toBytes_of_maybeFrom {piece : Bytes} {kind : ReqOrRes}
    (read : ReqOrRes.maybeFrom (some piece) = some kind) : kind.toBytes = piece := by
  simp only [ReqOrRes.maybeFrom] at read
  split at read
  · rename_i text decoded
    rw [← asBytes_of_maybeString decoded]
    split_ifs at read with req res
    · cases read
      rw [req, ReqOrRes.toBytes]
    · cases read
      rw [res, ReqOrRes.toBytes]
  · cases read

theorem ChunkType.toBytes_of_maybeFrom {piece : Bytes} {chunkType : ChunkType}
    (read : ChunkType.maybeFrom (some piece) = some chunkType) : chunkType.toBytes = piece := by
  simp only [ChunkType.maybeFrom] at read
  split at read
  · rename_i text decoded
    rw [← asBytes_of_maybeString decoded]
    split_ifs at read with notLast last
    · cases read
      rw [notLast, ChunkType.toBytes]
    · cases read
      rw [last, ChunkType.toBytes]
  · cases read

/-- The six pieces of a message that has a payload. -/
theorem splitN_eq_six {msg payload : Bytes}
    (sixth : (Separator.splitN (· == messagePartsSeparator) 6 msg)[5]? = some payload) :
    ∃ cmd kind messageId targetOrStatus chunkType : Bytes,
      Separator.splitN (· == messagePartsSeparator) 6 msg =
          [cmd, kind, messageId, targetOrStatus, chunkType, payload] ∧
        messagePartsSeparator ∉ cmd ∧ messagePartsSeparator ∉ messageId ∧
        messagePartsSeparator ∉ targetOrStatus ∧
        msg = cmd ++ [messagePartsSeparator] ++ kind ++ [messagePartsSeparator] ++ messageId ++
          [messagePartsSeparator] ++ targetOrStatus ++ [messagePartsSeparator] ++ chunkType ++
          [messagePartsSeparator] ++ payload := by
  have short := Separator.length_splitN_le (· == messagePartsSeparator) 6 msg
  have whole := Separator.intercalate_splitN messagePartsSeparator 5 msg
  have free : ∀ piece ∈ (Separator.splitN (· == messagePartsSeparator) 6 msg).take 5,
      messagePartsSeparator ∉ piece := by
    intro piece mem inPiece
    have absent := Separator.free_of_mem_take_splitN mem messagePartsSeparator inPiece
    simp at absent
  generalize Separator.splitN (· == messagePartsSeparator) 6 msg = pieces at *
  match pieces, sixth, short with
  | [cmd, kind, messageId, targetOrStatus, chunkType, last], sixth, _ =>
      have lastEq : last = payload := by simpa using sixth
      subst lastEq
      refine ⟨cmd, kind, messageId, targetOrStatus, chunkType, rfl, free _ (by simp),
        free _ (by simp), free _ (by simp), ?_⟩
      rw [← whole]
      simp [List.intercalate]

/-- What an accepted message looks like. -/
theorem exists_of_deserialize {msg : Bytes} {parsed : ChunkedRequestOrResponse}
    (accepted : ChunkedRequestOrResponse.deserialize msg = parsed) (known : parsed ≠ .none) :
    ∃ (cmd : String) (kind : ReqOrRes) (messageId targetOrStatus : String) (chunkType : ChunkType)
      (payload : Bytes),
      SlashFree cmd ∧ SlashFree messageId ∧ SlashFree targetOrStatus ∧
        msg = messagePayload cmd kind messageId (asBytes targetOrStatus) chunkType payload ∧
        match kind with
        | .req =>
            parsed = .request { cmd, messageId, target := targetOrStatus, chunkType, payload }
        | .res =>
            ∃ statusCode, StatusCode.maybeFrom (some targetOrStatus) = some statusCode ∧
              parsed = .response { cmd, messageId, statusCode, chunkType, payload } := by
  rw [ChunkedRequestOrResponse.deserialize, Option.getD_eq_iff] at accepted
  rcases accepted with accepted | ⟨_, isNone⟩
  · simp only [Option.bind_eq_bind, Option.bind_eq_some_iff] at accepted
    rcases accepted with ⟨cmd, cmdRead, kind, kindRead, messageId, messageIdRead, targetOrStatus,
      targetRead, chunkType, chunkTypeRead, payload, payloadRead, built⟩
    rcases splitN_eq_six payloadRead with
      ⟨_, _, _, _, _, pieces, cmdFree, messageIdFree, targetFree, whole⟩
    simp only [pieces, List.getElem?_cons_zero, List.getElem?_cons_succ] at *
    refine ⟨cmd, kind, messageId, targetOrStatus, chunkType, payload, ?_, ?_, ?_, ?_, ?_⟩
    · rwa [SlashFree, asBytes_of_maybeString cmdRead]
    · rwa [SlashFree, asBytes_of_maybeString messageIdRead]
    · rwa [SlashFree, asBytes_of_maybeString targetRead]
    · rw [messagePayload, asBytes_of_maybeString cmdRead, ReqOrRes.toBytes_of_maybeFrom kindRead,
        asBytes_of_maybeString messageIdRead, asBytes_of_maybeString targetRead,
        ChunkType.toBytes_of_maybeFrom chunkTypeRead]
      exact whole
    · cases kind with
      | req => simpa using built.symm
      | res =>
          rcases Option.bind_eq_some_iff.mp built with ⟨statusCode, statusRead, built⟩
          exact ⟨statusCode, statusRead, (Option.some.inj built).symm⟩
  · exact absurd isNone.symm known

/-- A message is read as a request chunk exactly when that chunk is written so. -/
theorem deserialize_eq_request_iff {msg : Bytes} {chunk : ChunkedRequest} :
    ChunkedRequestOrResponse.deserialize msg = .request chunk ↔
      SlashFree chunk.cmd ∧ SlashFree chunk.messageId ∧ SlashFree chunk.target ∧
        chunk.toMessagePayload = msg := by
  constructor
  · intro accepted
    rcases exists_of_deserialize accepted (by simp) with
      ⟨cmd, kind, messageId, target, chunkType, payload, cmdFree, messageIdFree, targetFree, rfl,
        built⟩
    cases kind with
    | req =>
        have chunkEq : chunk = { cmd, messageId, target, chunkType, payload } := by simpa using built
        rw [chunkEq]
        exact ⟨cmdFree, messageIdFree, targetFree, rfl⟩
    | res => simp at built
  · rintro ⟨cmdFree, messageIdFree, targetFree, rfl⟩
    exact deserialize_request cmdFree messageIdFree targetFree

theorem deserialize_messageWith {chunk : ChunkedResponse} {text : Bytes}
    (cmdFree : SlashFree chunk.cmd) (messageIdFree : SlashFree chunk.messageId)
    (spelled : chunk.statusCode.Spelling text) :
    ChunkedRequestOrResponse.deserialize (chunk.messageWith text) = .response chunk := by
  have textFree := spelled.separator_free
  rcases spelled.exists_text with ⟨status, rfl⟩
  rw [← StatusCode.maybeFrom_eq_some_iff_spelling] at spelled
  rw [ChunkedRequestOrResponse.deserialize, ChunkedResponse.messageWith,
    splitN_messagePayload cmdFree messageIdFree textFree]
  simp [spelled]

/-- A response chunk is read from its own message and from those that spell its status otherwise. -/
theorem deserialize_eq_response_iff {msg : Bytes} {chunk : ChunkedResponse} :
    ChunkedRequestOrResponse.deserialize msg = .response chunk ↔
      SlashFree chunk.cmd ∧ SlashFree chunk.messageId ∧
        ∃ text, chunk.statusCode.Spelling text ∧ chunk.messageWith text = msg := by
  constructor
  · intro accepted
    rcases exists_of_deserialize accepted (by simp) with
      ⟨cmd, kind, messageId, status, chunkType, payload, cmdFree, messageIdFree, _, rfl, built⟩
    cases kind with
    | req => simp at built
    | res =>
        rcases built with ⟨statusCode, statusRead, built⟩
        have chunkEq : chunk = { cmd, messageId, statusCode, chunkType, payload } := by
          simpa using built
        rw [chunkEq]
        rw [StatusCode.maybeFrom_eq_some_iff_spelling] at statusRead
        exact ⟨cmdFree, messageIdFree, asBytes status, statusRead, rfl⟩
  · rintro ⟨cmdFree, messageIdFree, text, spelled, rfl⟩
    exact deserialize_messageWith cmdFree messageIdFree spelled

end Parser

section Completed

theorem slashFree_of_mem_requestChunks {msgs : List Bytes} {chunk : ChunkedRequest}
    (mem : chunk ∈ requestChunks msgs) :
    SlashFree chunk.cmd ∧ SlashFree chunk.messageId ∧ SlashFree chunk.target := by
  rcases List.mem_filterMap.mp mem with ⟨msg, _, read⟩
  split at read
  · rename_i parsed accepted
    cases read
    have canonical := deserialize_eq_request_iff.mp accepted
    exact ⟨canonical.1, canonical.2.1, canonical.2.2.1⟩
  · cases read

/-- The header fields of a completed request come from the wire. -/
theorem slashFree_of_completedItem {msgs : List Bytes} {msg : Bytes} {request : Request}
    (completes : completedItem msgs msg = .request request) :
    SlashFree request.cmd ∧ SlashFree request.messageId ∧ SlashFree request.target := by
  rw [completedItem] at completes
  split at completes
  · rename_i last accepted
    split at completes
    · cases completes
    · cases completes
      have canonical := deserialize_eq_request_iff.mp accepted
      have messageIdFree : SlashFree last.messageId := canonical.2.1
      have headFree : ∀ run : List ChunkedRequest, run.Sublist (requestChunks msgs) →
          SlashFree (run.headD last).cmd ∧ SlashFree (run.headD last).target := by
        intro run inMsgs
        cases run with
        | nil => exact ⟨canonical.1, canonical.2.2.1⟩
        | cons first run =>
            have free := slashFree_of_mem_requestChunks (inMsgs.subset List.mem_cons_self)
            exact ⟨free.1, free.2.2⟩
      have head := headFree _ (requests.openRun_sublist last.messageId (requestChunks msgs))
      exact ⟨head.1, messageIdFree, head.2⟩
  · split at completes <;> cases completes
  · cases completes

/-- A completed request is not pending any more. -/
theorem openRun_of_completedItem {msgs : List Bytes} {msg : Bytes} {request : Request}
    (completes : completedItem msgs msg = .request request) :
    requests.openRun request.messageId (requestChunks (msgs ++ [msg])) = [] := by
  rw [completedItem] at completes
  split at completes
  · rename_i chunk accepted
    split at completes
    · cases completes
    · rename_i marked
      cases completes
      have chunks : requestChunks (msgs ++ [msg]) = requestChunks msgs ++ [chunk] := by
        simp [requestChunks, accepted]
      rw [chunks, Reassembly.Scheme.openRun_concat]
      simp [requests, completeRequest, marked]
  · split at completes <;> cases completes
  · cases completes

/-- What is delivered comes from the wire, and was not pending. -/
theorem wellFormed_of_delivered {msgs : List Bytes} {request : Request}
    (delivered : Delivered (CommandHistory.new.appendAll msgs).2 request) :
    (SlashFree request.cmd ∧ SlashFree request.messageId ∧ SlashFree request.target) ∧
      ∀ past ∈ (CommandHistory.new.appendAll msgs).2.pastRequests,
        past.messageId ≠ request.messageId := by
  rcases delivered with ⟨nonempty, appended⟩
  rcases List.eq_nil_or_concat (request.chunk.map (·.toMessagePayload)) with
    none | ⟨front, last, contents⟩
  · exact absurd (List.map_eq_nil_iff.mp none) nonempty
  rw [List.concat_eq_append] at contents
  rw [contents, CommandHistory.appendAll_concat, Prod.mk.injEq] at appended
  rcases appended with ⟨results, unchanged⟩
  have represents := (CommandHistory.represents_appendAll_new msgs).appendAll front
  rcases represents.append last with ⟨result, represented⟩
  have completes : completedItem (msgs ++ front) last = .request request := by
    rw [← result]
    simpa using List.append_inj_right' results rfl
  refine ⟨slashFree_of_completedItem completes, ?_⟩
  rw [unchanged] at represented
  intro past mem sameId
  have pending := (represented.pastRequests.mem_keys_iff request.messageId).mp
    (sameId ▸ List.mem_map_of_mem mem)
  exact pending (openRun_of_completedItem completes)

end Completed

/-- The round trip of a chunk, with the exact condition on its header fields. -/
theorem deserialize_toMessagePayload_iff :
    (∀ chunk : ChunkedRequest,
        ChunkedRequestOrResponse.deserialize chunk.toMessagePayload = .request chunk ↔
          SlashFree chunk.cmd ∧ SlashFree chunk.messageId ∧ SlashFree chunk.target) ∧
      ∀ chunk : ChunkedResponse,
        ChunkedRequestOrResponse.deserialize chunk.toMessagePayload = .response chunk ↔
          SlashFree chunk.cmd ∧ SlashFree chunk.messageId := by
  constructor
  · intro chunk
    rw [deserialize_eq_request_iff]
    simp
  · intro chunk
    constructor
    · intro accepted
      rw [deserialize_eq_response_iff] at accepted
      exact ⟨accepted.1, accepted.2.1⟩
    · rintro ⟨cmdFree, messageIdFree⟩
      exact deserialize_response cmdFree messageIdFree

/--
What is accepted: the messages of request chunks, and the messages of response chunks up to
the spelling of the status, both with slash-free header fields.
-/
theorem accepted_iff_written (msg : Bytes) :
    (∀ chunk, ChunkedRequestOrResponse.deserialize msg = .request chunk ↔
        SlashFree chunk.cmd ∧ SlashFree chunk.messageId ∧ SlashFree chunk.target ∧
          chunk.toMessagePayload = msg) ∧
      (∀ chunk, ChunkedRequestOrResponse.deserialize msg = .response chunk ↔
        SlashFree chunk.cmd ∧ SlashFree chunk.messageId ∧
          ∃ text, chunk.statusCode.Spelling text ∧ chunk.messageWith text = msg) ∧
      (∀ other chunk, ChunkedRequestOrResponse.deserialize msg = .request chunk →
        ChunkedRequestOrResponse.deserialize other = .request chunk → msg = other) ∧
      ∀ other chunk, ChunkedRequestOrResponse.deserialize msg = .response chunk →
        ChunkedRequestOrResponse.deserialize other = .response chunk →
        ∃ text otherText, chunk.statusCode.Spelling text ∧ chunk.statusCode.Spelling otherText ∧
          msg = chunk.messageWith text ∧ other = chunk.messageWith otherText := by
  refine ⟨fun chunk => deserialize_eq_request_iff, fun chunk => deserialize_eq_response_iff, ?_, ?_⟩
  · intro other chunk accepted otherAccepted
    rw [deserialize_eq_request_iff] at accepted otherAccepted
    exact accepted.2.2.2.symm.trans otherAccepted.2.2.2
  · intro other chunk accepted otherAccepted
    rw [deserialize_eq_response_iff] at accepted otherAccepted
    rcases accepted with ⟨_, _, text, spelled, rfl⟩
    rcases otherAccepted with ⟨_, _, otherText, otherSpelled, rfl⟩
    exact ⟨text, otherText, spelled, otherSpelled, rfl, rfl⟩

/-- A status with a plus sign is accepted, and the chunk read from it is written without. -/
theorem accepts_signed_status :
    ∃ (msg : Bytes) (chunk : ChunkedResponse),
      ChunkedRequestOrResponse.deserialize msg = .response chunk ∧
        ChunkedRequestOrResponse.deserialize chunk.toMessagePayload = .response chunk ∧
        chunk.toMessagePayload ≠ msg := by
  refine ⟨asBytes "ls/res/1/+200/last/[]", ?_⟩
  refine ⟨{ cmd := "ls", messageId := "1", statusCode := .ok, chunkType := .last,
            payload := asBytes "[]" }, ?_, ?_, ?_⟩ <;> decide

end Hoposhell
