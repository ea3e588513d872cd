import Hoposhell.CommandSafety
import Hoposhell.Library.JsonText
import Hoposhell.Message
import Hoposhell.Serialization

/-!
# Forwarding a TCP connection

`main_forward_tcp` reads from a local connection into an array of `BUF_SIZE` bytes and
sends a request made of the array.  What the remote shell writes to the remote host is
what has been read exactly when the read has filled the array.
-/

namespace Hoposhell

def makeShellTarget (shellId : String) : String :=
  "shell:" ++ shellId

/-- The bytes that `serde_json::to_vec` gives are those of the text `encode` gives. -/
def makeTcpRequest (encode : TcpCommandRequestBody → String) (messageId shellId host : String)
    (port : UInt16) (payload : Bytes) : Request where
  cmd := "tcp"
  messageId := messageId
  target := makeShellTarget shellId
  payload := asBytes (encode { host, port, payload })

/-- The arguments of `main_forward_tcp` for a connection, the port as it has been parsed. -/
structure ForwardArgs where
  shellName : Option String
  host : String
  remotePort : UInt16

/--
The request sent for a connection, given the random part of its id and what the `read` of the
connection returns.  A connection that cannot be read is dropped.
-/
def ForwardArgs.tcpRequest (args : ForwardArgs) (encode : TcpCommandRequestBody → String)
    (randomId : String) (read : Except ErrorKind Bytes) : Except Panic (Option Request) :=
  match read with
  | .error _ => .ok none
  | .ok data => do
      let buf := readBuffer data
      let shellId ← unwrap args.shellName
      .ok (some (makeTcpRequest encode (shellId ++ ":" ++ randomId) shellId args.host
        args.remotePort buf))

/-- What `main_forward_tcp` relies on: a body is read back from its text, which is not empty. -/
structure RequestBodies.ReadsTcp (bodies : RequestBodies)
    (encode : TcpCommandRequestBody → String) : Prop where
  tcp_encode : ∀ body, bodies.tcp (encode body) = .ok body
  encode_ne_empty : ∀ body, encode body ≠ ""

/-- The body that carries the data of a connection. -/
def ForwardArgs.body (args : ForwardArgs) (data : Bytes) : TcpCommandRequestBody where
  host := args.host
  port := args.remotePort
  payload := data

/--
The request reaches the handler on the remote shell, which reads from it the data that the
local connection gave, and goes on with nothing else.
-/
structure ByteExact (bodies : RequestBodies) (args : ForwardArgs) (history : CommandHistory)
    (data : Bytes) (request : Request) : Prop where
  delivered : Delivered history request
  decoded : (maybeString (some request.payload)).map bodies.tcp = some (.ok (args.body data))
  written : ∀ system json,
    processTcpCommand system bodies json request.payload = tcpExchange system json (args.body data)

theorem readBuffer_eq_iff {data : Bytes} (fits : data.length ≤ bufSize) :
    readBuffer data = data ↔ data.length = bufSize := by
  constructor
  · intro same
    have lengths := congrArg List.length same
    rw [readBuffer, List.length_append, List.length_replicate] at lengths
    omega
  · intro full
    simp [readBuffer, full]

theorem slashFree_append_iff {left right : String} :
    SlashFree (left ++ right) ↔ SlashFree left ∧ SlashFree right := by
  simp [SlashFree, asBytes, String.toByteArray_append]

section Forward

variable {bodies : RequestBodies} {encode : TcpCommandRequestBody → String} {args : ForwardArgs}

theorem processTcpCommand_of_decoded {system : System} {json : Json.Codec} {payload : Bytes}
    {body : TcpCommandRequestBody}
    (decoded : (maybeString (some payload)).map bodies.tcp = some (.ok body)) :
    processTcpCommand system bodies json payload = tcpExchange system json body := by
  rcases Option.map_eq_some_iff.mp decoded with ⟨text, isText, read⟩
  simp [processTcpCommand, isText, read]

theorem tcpRequest_eq {data : Bytes} {shellId randomId : String} {request : Request}
    (named : args.shellName = some shellId)
    (built : args.tcpRequest encode randomId (.ok data) = .ok (some request)) :
    request = makeTcpRequest encode (shellId ++ ":" ++ randomId) shellId args.host
      args.remotePort (readBuffer data) := by
  simp only [ForwardArgs.tcpRequest, named, unwrap, bind, Except.bind, Except.ok.injEq,
    Option.some.injEq] at built
  exact built.symm

/-- The body of the request carries the whole array. -/
theorem decodes_tcpRequest (lawful : bodies.ReadsTcp encode) {messageId shellId : String}
    {payload : Bytes} :
    (maybeString (some (makeTcpRequest encode messageId shellId args.host args.remotePort
      payload).payload)).map bodies.tcp = some (.ok (args.body payload)) := by
  simp [makeTcpRequest, lawful.tcp_encode, ForwardArgs.body]

theorem ByteExact.full (lawful : bodies.ReadsTcp encode) {history : CommandHistory}
    {data : Bytes} {messageId shellId : String} (fits : data.length ≤ bufSize)
    (exact : ByteExact bodies args history data
      (makeTcpRequest encode messageId shellId args.host args.remotePort (readBuffer data))) :
    data.length = bufSize := by
  have sameBody := (decodes_tcpRequest lawful).symm.trans exact.decoded
  have same : readBuffer data = data := by
    simpa [ForwardArgs.body] using sameBody
  exact (readBuffer_eq_iff fits).mp same

/--
A connection is forwarded byte for byte exactly when the read has filled the array, and the
header of the request can be told apart on the remote shell.
-/
theorem forward_exact_iff (lawful : bodies.ReadsTcp encode) {msgs : List Bytes} {data : Bytes}
    {shellId randomId : String} {request : Request} (named : args.shellName = some shellId)
    (fits : data.length ≤ bufSize)
    (built : args.tcpRequest encode randomId (.ok data) = .ok (some request)) :
    ByteExact bodies args (CommandHistory.new.appendAll msgs).2 data request ↔
      data.length = bufSize ∧ SlashFree shellId ∧ SlashFree randomId ∧
        ∀ past ∈ (CommandHistory.new.appendAll msgs).2.pastRequests,
          past.messageId ≠ shellId ++ ":" ++ randomId := by
  obtain rfl := tcpRequest_eq named built
  have idFree : SlashFree (shellId ++ ":" ++ randomId) ↔ SlashFree shellId ∧ SlashFree randomId := by
    have colonFree : SlashFree ":" := by decide
    simp only [slashFree_append_iff, colonFree, and_true]
  constructor
  · intro exact
    rcases wellFormed_of_delivered exact.delivered with ⟨⟨_, messageIdFree, _⟩, notPending⟩
    have free := idFree.mp messageIdFree
    exact ⟨exact.full lawful fits, free.1, free.2, notPending⟩
  · rintro ⟨full, shellIdFree, randomIdFree, notPending⟩
    have cmdFree : SlashFree "tcp" := by decide
    have stemFree : SlashFree "shell:" := by decide
    have decodes := @decodes_tcpRequest _ _ args lawful (shellId ++ ":" ++ randomId) shellId
      (readBuffer data)
    rw [(readBuffer_eq_iff fits).mpr full] at decodes ⊢
    refine ⟨?_, decodes, fun system json => processTcpCommand_of_decoded decodes⟩
    apply delivered_of_payload_ne_nil
    · exact cmdFree
    · exact idFree.mpr ⟨shellIdFree, randomIdFree⟩
    · exact slashFree_append_iff.mpr ⟨stemFree, shellIdFree⟩
    · exact notPending
    · intro empty
      have noText : encode (args.body data) = "" := asBytes_injective empty
      exact lawful.encode_ne_empty _ noText

end Forward

section TcpText

/-- The fields of a body: the host, the port and the payload. -/
abbrev TcpFields := List Char × ℕ × List ℕ

def hostField : List Char := "\x7b\"host\":".toList

def portField : List Char := ",\"port\":".toList

def payloadField : List Char := ",\"payload\":".toList

def printFields (fields : TcpFields) : List Char :=
  hostField ++ (Json.literal fields.1 ++ (portField ++ (Nat.toDigits 10 fields.2.1 ++
    (payloadField ++ (Json.array fields.2.2 ++ [Json.closeBrace])))))

def readFields : TextReader Char TcpFields :=
  (TextReader.token hostField).andThen fun _ =>
    Json.readLiteral.andThen fun host =>
      (TextReader.token portField).andThen fun _ =>
        Json.readNat.andThen fun port =>
          (TextReader.token payloadField).andThen fun _ =>
            Json.readArray.andThen fun payload =>
              (TextReader.token [Json.closeBrace]).andThen fun _ rest =>
                some ((host, port, payload), rest)

theorem reads_printFields : readFields.Reads printFields := by
  rintro ⟨host, port, payload⟩ rest
  have portRead (more : List Char) : Json.readNat (Nat.toDigits 10 port ++ (payloadField ++ more)) =
      some (port, payloadField ++ more) :=
    Json.readNat_toDigits port (by decide) _
  simp only [readFields, printFields, List.append_assoc]
  rw [TextReader.token_andThen, Json.reads_literal.andThen_eq, TextReader.token_andThen,
    TextReader.andThen, portRead, Option.bind_some, TextReader.token_andThen,
    Json.reads_array.andThen_eq, TextReader.token_andThen]

/-- `serde_json::to_string` of a body. -/
def tcpText (body : TcpCommandRequestBody) : String :=
  String.ofList (printFields (body.host.toList, body.port.toNat, body.payload.map UInt8.toNat))

/-- `serde_json::from_str` of such a text; another one is not read. -/
def readTcpText (text : String) : Except String TcpCommandRequestBody :=
  match readFields.whole text.toList with
  | some (host, port, payload) =>
      if port < 65536 ∧ ∀ n ∈ payload, n < 256 then
        .ok
          { host := String.ofList host
            port := UInt16.ofNat port
            payload := payload.map UInt8.ofNat }
      else .error "invalid value"
  | none => .error "expected value at line 1 column 1"

/-- A reader of the bodies of tcp requests alone. -/
def textBodies : RequestBodies := { tcpBodies with tcp := readTcpText }

theorem textBodies_readsTcp : textBodies.ReadsTcp tcpText where
  tcp_encode body := by
    have read := reads_printFields.whole
      (body.host.toList, body.port.toNat, body.payload.map UInt8.toNat)
    have inRange : body.port.toNat < 65536 ∧ ∀ n ∈ body.payload.map UInt8.toNat, n < 256 := by
      refine ⟨body.port.toNat_lt, ?_⟩
      intro n mem
      rcases List.mem_map.mp mem with ⟨byte, _, rfl⟩
      exact byte.toNat_lt
    have payload : (body.payload.map UInt8.toNat).map UInt8.ofNat = body.payload := by
      rw [List.map_map]
      exact List.map_id'' (fun byte => by simp) _
    simp only [textBodies, readTcpText, tcpText, String.toList_ofList, read, if_pos inRange, payload,
      String.ofList_toList, UInt16.ofNat_toNat]
  encode_ne_empty body := by
    intro empty
    have none := congrArg String.toList empty
    rw [tcpText, String.toList_ofList, String.toList_empty, printFields,
      List.append_eq_nil_iff] at none
    exact absurd none.1 (by decide)

end TcpText

def localArgs : ForwardArgs where
  shellName := some "b"
  host := "localhost"
  remotePort := 81

theorem forward_exact_iff_short :
    ∃ request, localArgs.tcpRequest tcpText "abcdefgh" (.ok [104, 105]) = .ok (some request) ∧
      (ByteExact textBodies localArgs .new [104, 105] request ↔
        [(104 : UInt8), 105].length = bufSize ∧ SlashFree "b" ∧ SlashFree "abcdefgh" ∧
          ∀ past ∈ CommandHistory.new.pastRequests, past.messageId ≠ "b" ++ ":" ++ "abcdefgh") :=
  ⟨_, rfl, @forward_exact_iff _ _ localArgs textBodies_readsTcp [] _ _ _ _ rfl (by decide) rfl⟩

/-- Two bytes that are read are forwarded with as many zeros as fill the array. -/
theorem not_forward_exact :
    ∃ request, localArgs.tcpRequest tcpText "abcdefgh" (.ok [104, 105]) = .ok (some request) ∧
      (maybeString (some request.payload)).map textBodies.tcp =
        some (.ok (localArgs.body ([104, 105] ++ List.replicate 16382 0))) ∧
      ¬ByteExact textBodies localArgs .new [104, 105] request := by
  refine ⟨_, rfl, decodes_tcpRequest textBodies_readsTcp, ?_⟩
  intro exact
  exact absurd (exact.full textBodies_readsTcp (by decide)) (by decide)

end Hoposhell
