import Hoposhell.ForwardTcp

/-!
# The texts of the bodies of requests

The requests of three commands carry a JSON object, which the client prints with
`serde_json::to_vec` and the remote shell reads with `serde_json::from_str`.  What both sides
rely on is that a body is read back from its text.  The printer and the reader of the three
objects, as the program prints them, do so.
-/

namespace Hoposhell

/-- The texts that `serde_json::to_vec` gives for the bodies of requests. -/
structure BodyTexts where
  http : HttpCommandRequestBody → String
  tcp : TcpCommandRequestBody → String
  scripts : ScriptsCommandRequestBody → String

/-- A body is read back from its text, which is not empty. -/
structure RequestBodies.Reads (bodies : RequestBodies) (texts : BodyTexts) : Prop where
  http : ∀ body, bodies.http (texts.http body) = .ok body ∧ texts.http body ≠ ""
  tcp : ∀ body, bodies.tcp (texts.tcp body) = .ok body ∧ texts.tcp body ≠ ""
  scripts : ∀ body, bodies.scripts (texts.scripts body) = .ok body ∧ texts.scripts body ≠ ""

/-- A verb is read from its name in lower case. -/
def HttpVerb.deserialize (text : String) : Option HttpVerb :=
  if text = "get" then some .get
  else if text = "post" then some .post
  else if text = "put" then some .put
  else if text = "delete" then some .delete
  else none

def HttpVerb.serialize : HttpVerb → String
  | .get => "get"
  | .post => "post"
  | .put => "put"
  | .delete => "delete"

theorem HttpVerb.deserialize_serialize (verb : HttpVerb) :
    HttpVerb.deserialize verb.serialize = some verb := by
  cases verb <;> rfl

section HttpText

/-- The fields of a body: the verb, the URL and the body of the HTTP request. -/
abbrev HttpFields := List Char × List Char × Option (List Char)

def verbField : List Char := "\x7b\"verb\":".toList

def urlField : List Char := ",\"url\":".toList

/-- A client sends no headers. -/
def bodyField : List Char := ",\"headers\":\x7b\x7d,\"body\":".toList

def printNullable (text : Option (List Char)) : List Char :=
  text.elim "null".toList Json.literal

def readNullable : TextReader Char (Option (List Char)) :=
  TextReader.nullable "null".toList Json.readLiteral

theorem reads_printNullable : readNullable.Reads printNullable := by
  apply Json.reads_literal.nullable
  intro text rest
  rw [Json.literal, List.cons_append]
  rintro ⟨more, same⟩
  cases same

def printHttp (fields : HttpFields) : List Char :=
  verbField ++ (Json.literal fields.1 ++ (urlField ++ (Json.literal fields.2.1 ++
    (bodyField ++ (printNullable fields.2.2 ++ [Json.closeBrace])))))

def readHttp : TextReader Char HttpFields :=
  (TextReader.token verbField).andThen fun _ =>
    Json.readLiteral.andThen fun verb =>
      (TextReader.token urlField).andThen fun _ =>
        Json.readLiteral.andThen fun url =>
          (TextReader.token bodyField).andThen fun _ =>
            readNullable.andThen fun body =>
              (TextReader.token [Json.closeBrace]).andThen fun _ rest =>
                some ((verb, url, body), rest)

theorem reads_printHttp : readHttp.Reads printHttp := by
  rintro ⟨verb, url, body⟩ rest
  simp only [readHttp, printHttp, List.append_assoc]
  rw [TextReader.token_andThen, Json.reads_literal.andThen_eq, TextReader.token_andThen,
    Json.reads_literal.andThen_eq, TextReader.token_andThen, reads_printNullable.andThen_eq,
    TextReader.token_andThen]

end HttpText

def httpText (body : HttpCommandRequestBody) : String :=
  String.ofList (printHttp
    (body.verb.serialize.toList, body.url.toList, body.body.map String.toList))

/-- `serde_json::from_str` of such a text; another one is not read. -/
def readHttpText (text : String) : Except String HttpCommandRequestBody :=
  match readHttp.whole text.toList with
  | some (verb, url, body) =>
      match HttpVerb.deserialize (String.ofList verb) with
      | some verb =>
          .ok { verb, url := String.ofList url, body := body.map String.ofList }
      | none => .error "unknown variant"
  | none => .error "expected value at line 1 column 1"

def scriptsText (body : ScriptsCommandRequestBody) : String :=
  String.ofList (Json.printObject ("name".toList, body.name.toList))

def readScriptsText (text : String) : Except String ScriptsCommandRequestBody :=
  match Json.readObject.whole text.toList with
  | some (field, name) =>
      if field = "name".toList then .ok { name := String.ofList name }
      else .error "missing field"
  | none => .error "expected value at line 1 column 1"

def jsonTexts : BodyTexts where
  http := httpText
  tcp := tcpText
  scripts := scriptsText

def jsonBodies : RequestBodies where
  http := readHttpText
  tcp := readTcpText
  scripts := readScriptsText

theorem readHttpText_httpText (body : HttpCommandRequestBody) :
    readHttpText (httpText body) = .ok body := by
  have read := reads_printHttp.whole
    (body.verb.serialize.toList, body.url.toList, body.body.map String.toList)
  simp only [readHttpText, httpText, String.toList_ofList, read, String.ofList_toList,
    HttpVerb.deserialize_serialize]
  cases body with
  | mk verb url body => cases body <;> simp

theorem readScriptsText_scriptsText (body : ScriptsCommandRequestBody) :
    readScriptsText (scriptsText body) = .ok body := by
  have read := Json.reads_printObject.whole ("name".toList, body.name.toList)
  simp only [readScriptsText, scriptsText, String.toList_ofList, read, if_true,
    String.ofList_toList]

theorem readTcpText_tcpText (body : TcpCommandRequestBody) :
    readTcpText (tcpText body) = .ok body := by
  have read := textBodies_readsTcp.tcp_encode body
  simpa only [textBodies] using read

/-- A text that is read is not empty when the empty text is not read. -/
theorem ne_empty_of_read {α : Type} {read : String → Except String α} {text : String} {body : α}
    (unread : (read "").isOk = false) (reads : read text = .ok body) : text ≠ "" := by
  rintro rfl
  rw [reads] at unread
  cases unread

theorem httpText_ne_empty (body : HttpCommandRequestBody) : httpText body ≠ "" := by
  have unread : (readHttpText "").isOk = false := by decide
  exact ne_empty_of_read unread (readHttpText_httpText body)

theorem scriptsText_ne_empty (body : ScriptsCommandRequestBody) : scriptsText body ≠ "" := by
  have unread : (readScriptsText "").isOk = false := by decide
  exact ne_empty_of_read unread (readScriptsText_scriptsText body)

theorem jsonBodies_reads : jsonBodies.Reads jsonTexts := by
  constructor <;> intro body <;> simp only [jsonBodies, jsonTexts]
  · exact ⟨readHttpText_httpText body, httpText_ne_empty body⟩
  · exact ⟨readTcpText_tcpText body, textBodies_readsTcp.encode_ne_empty body⟩
  · exact ⟨readScriptsText_scriptsText body, scriptsText_ne_empty body⟩

end Hoposhell
