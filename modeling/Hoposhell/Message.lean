import Hoposhell.Basic
import Hoposhell.Library.Base64
import Hoposhell.Library.Separator

/-!
# Messages on the stream

A message travels as the base64 text of its content, a four-byte tag naming its
type and the terminator `---\n`; the bare terminator is a keep-alive.  This file
models the decoder `separate_messages`, the read that feeds it, and the encoder
`send_message_to_stream`.

The base64 engine is the one dependency whose code is not part of the repository:
it is a parameter here, and the theorems about well-formed streams assume
`Base64.Engine.Lawful` of it.
-/

namespace Hoposhell

/-- The types of the messages the server sends. -/
inductive MessageTypeToCmd where
  | stdin
  | command
deriving DecidableEq, Repr

/-- The types of the messages sent to the server. -/
inductive MessageTypeToStream where
  | stdout
  | header
  | command
deriving DecidableEq, Repr

/-- A message; the content is `None` for no message the program builds. -/
structure Message (T : Type) where
  mtype : T
  content : Option Bytes
deriving DecidableEq, Repr

/-- The terminator `---\n` of every frame, and the whole of a keep-alive. -/
def terminator : Bytes := asBytes "---\n"

/-- The tag that ends the text of a message received from the server. -/
def MessageTypeToCmd.tag : MessageTypeToCmd → Bytes
  | .stdin => asBytes "-iii"
  | .command => asBytes "-ccc"

/-- The type whose tag ends a part, if one does. -/
def messageTypeOf (bufPart : Bytes) : Option MessageTypeToCmd :=
  if (MessageTypeToCmd.tag .stdin).isSuffixOf bufPart then some .stdin
  else if (MessageTypeToCmd.tag .command).isSuffixOf bufPart then some .command
  else none

/-- The buffer kept for the next read and the messages found so far. -/
structure Separated where
  buffer : Bytes
  messages : List (Message MessageTypeToCmd)
deriving DecidableEq, Repr

namespace Separated

/-- What the loop over the parts starts from: the buffer is cleared before it. -/
def empty : Separated where
  buffer := []
  messages := []

def keep (separated : Separated) (bufPart : Bytes) : Separated :=
  { separated with buffer := separated.buffer ++ bufPart }

def push (separated : Separated) (message : Message MessageTypeToCmd) : Separated :=
  { separated with messages := separated.messages ++ [message] }

end Separated

/-- The payload of a part that ends in a tag. -/
def decodePart (base64 : Base64.Engine) (bufPart : Bytes) : Except Panic Bytes := do
  let length ← checkedSub bufPart.length 4
  let payload64 ← strSliceTo bufPart length
  unwrap (base64.decode payload64)

/--
The body of the loop of `separate_messages`.  A part counts as the last one when
its text equals the text of the last part.
-/
def separatePart (base64 : Base64.Engine) (bufferParts : List Bytes) (separated : Separated)
    (bufPart : Bytes) : Except Panic Separated :=
  if bufPart.length = 0 then .ok separated
  else do
    let last ← unwrap bufferParts.getLast?
    match messageTypeOf bufPart with
    | none => if bufPart = last then .ok (separated.keep bufPart) else .ok separated
    | some mtype =>
        let payload ← decodePart base64 bufPart
        .ok (separated.push { mtype, content := some payload })

/-- `separate_messages` -/
def separateMessages (base64 : Base64.Engine) (buffer newData : Bytes) (n : ℕ) :
    Except Panic Separated := do
  let received ← sliceTo newData n
  let text ← unwrap (fromUtf8 received)
  let bufferParts := Separator.split terminator (buffer ++ asBytes text)
  bufferParts.foldlM (separatePart base64 bufferParts) .empty

/-- The kinds of `io::Error` the program tells apart. -/
inductive ErrorKind where
  | wouldBlock
  | other
deriving DecidableEq, Repr

/-- The array of `BUF_SIZE` bytes once `read` has put `data` at its front. -/
def readBuffer (data : Bytes) : Bytes :=
  data ++ List.replicate (bufSize - data.length) 0

/-- `ReadMessageResult` -/
inductive ReadMessageResult where
  | ok (messages : List (Message MessageTypeToCmd))
  | canContinue
  | cannotContinue
deriving DecidableEq, Repr

/--
`read_messages_from_stream`, given what `read` returns: an error, or the bytes it
put into the array.
-/
def readMessagesFromStream (base64 : Base64.Engine) (bufStr : Bytes)
    (read : Except ErrorKind Bytes) : Except Panic (Bytes × ReadMessageResult) :=
  match read with
  | .ok data =>
      if data.length = 0 then .ok (bufStr, .cannotContinue)
      else do
        let separated ← separateMessages base64 bufStr (readBuffer data) data.length
        .ok (separated.buffer, .ok separated.messages)
  | .error .wouldBlock => .ok (bufStr, .canContinue)
  | .error .other => .ok (bufStr, .cannotContinue)

/-- The tag and the terminator that follow the content of a message to the server. -/
def MessageTypeToStream.tag : MessageTypeToStream → Bytes
  | .stdout => asBytes "-ooo---\n"
  | .header => asBytes "-hhh---\n"
  | .command => asBytes "-ccc---\n"

/-- The frame of a message to the server, or `none` for a message without content. -/
def encodedContent (base64 : Base64.Engine) (msg : Message MessageTypeToStream) : Option Bytes :=
  msg.content.map fun content => base64.encode content ++ msg.mtype.tag

/--
`send_message_to_stream`: one call of `write` with the whole frame, whose result is
returned; nothing is written for a message without content.
-/
def sendMessageToStream (base64 : Base64.Engine) (msg : Message MessageTypeToStream)
    (write : Bytes → Except ErrorKind ℕ) : Except ErrorKind ℕ :=
  match encodedContent base64 msg with
  | none => .ok 0
  | some encoded => write encoded

theorem terminator_eq : terminator = [45, 45, 45, 10] := by decide

theorem MessageTypeToCmd.tag_eq (mtype : MessageTypeToCmd) :
    ∃ letter : UInt8, mtype.tag = [45, letter, letter, letter] ∧ letter ≠ 45 ∧ letter ≠ 10 ∧
      letter < 128 := by
  cases mtype with
  | stdin => exact ⟨105, by decide⟩
  | command => exact ⟨99, by decide⟩

theorem MessageTypeToCmd.tag_injective {left right : MessageTypeToCmd}
    (eq : left.tag = right.tag) : left = right := by
  cases left <;> cases right <;> first | rfl | exact absurd eq (by decide)

theorem MessageTypeToCmd.length_tag (mtype : MessageTypeToCmd) : mtype.tag.length = 4 := by
  cases mtype <;> decide

theorem messageTypeOf_eq_some_iff {bufPart : Bytes} {mtype : MessageTypeToCmd} :
    messageTypeOf bufPart = some mtype ↔ mtype.tag <:+ bufPart := by
  have unique : ∀ {other : MessageTypeToCmd}, other.tag <:+ bufPart → mtype.tag <:+ bufPart →
      other = mtype := by
    intro other otherEnds ends
    have lengths : other.tag.length = mtype.tag.length := by
      simp only [MessageTypeToCmd.length_tag]
    exact MessageTypeToCmd.tag_injective
      ((List.suffix_of_suffix_length_le otherEnds ends lengths.le).eq_of_length lengths)
  simp only [messageTypeOf, List.isSuffixOf_iff_suffix]
  constructor
  · intro found
    split at found
    · cases found
      assumption
    · split at found
      · cases found
        assumption
      · cases found
  · intro ends
    split
    · rename_i stdinEnds
      rw [unique stdinEnds ends]
    · rename_i notStdin
      cases mtype with
      | stdin => exact absurd ends notStdin
      | command => rw [if_pos ends]

@[simp]
theorem messageTypeOf_append_tag (payload64 : Bytes) (mtype : MessageTypeToCmd) :
    messageTypeOf (payload64 ++ mtype.tag) = some mtype :=
  messageTypeOf_eq_some_iff.mpr (List.suffix_append payload64 mtype.tag)

theorem decodePart_append_tag (base64 : Base64.Engine) (payload64 : Bytes)
    (mtype : MessageTypeToCmd) :
    decodePart base64 (payload64 ++ mtype.tag) = unwrap (base64.decode payload64) := by
  rcases mtype.tag_eq with ⟨letter, tagEq, _⟩
  have boundary : isCharBoundary (payload64 ++ mtype.tag) payload64.length = true := by
    rw [tagEq, isCharBoundary]
    split
    · rfl
    · rw [List.getElem?_append_right le_rfl, Nat.sub_self]
      rfl
  have length : checkedSub (payload64 ++ mtype.tag).length 4 = .ok payload64.length := by
    simp [checkedSub, mtype.length_tag]
  have slice : strSliceTo (payload64 ++ mtype.tag) payload64.length = .ok payload64 := by
    simp [strSliceTo, boundary]
  rw [decodePart, length]
  simp only [bind, Except.bind, slice]

section SeparatePart

variable {base64 : Base64.Engine} {bufferParts : List Bytes} {separated : Separated} {last : Bytes}

@[simp]
theorem separatePart_nil : separatePart base64 bufferParts separated [] = .ok separated := rfl

theorem separatePart_of_untagged (isLast : bufferParts.getLast? = some last) {bufPart : Bytes}
    (nonempty : bufPart ≠ []) (untagged : messageTypeOf bufPart = none) :
    separatePart base64 bufferParts separated bufPart =
      if bufPart = last then .ok (separated.keep bufPart) else .ok separated := by
  rw [separatePart, if_neg (by simpa using nonempty), isLast]
  simp only [bind, Except.bind, unwrap, untagged]

theorem separatePart_of_tagged (isLast : bufferParts.getLast? = some last) (payload64 : Bytes)
    (mtype : MessageTypeToCmd) :
    separatePart base64 bufferParts separated (payload64 ++ mtype.tag) =
      (unwrap (base64.decode payload64)).map fun payload =>
        separated.push { mtype, content := some payload } := by
  have nonempty : (payload64 ++ mtype.tag).length ≠ 0 := by
    simp [mtype.length_tag]
  rw [separatePart, if_neg nonempty, isLast]
  simp only [bind, Except.bind, unwrap, messageTypeOf_append_tag, decodePart_append_tag]
  cases base64.decode payload64 <;> rfl

end SeparatePart

@[simp]
theorem sliceTo_readBuffer (data : Bytes) : sliceTo (readBuffer data) data.length = .ok data := by
  simp [sliceTo, readBuffer]

/-- One read of valid UTF-8 splits the carried text followed by the new bytes. -/
theorem separateMessages_readBuffer (base64 : Base64.Engine) (buffer : Bytes) {data : Bytes}
    (valid : (fromUtf8 data).isSome) :
    separateMessages base64 buffer (readBuffer data) data.length =
      (Separator.split terminator (buffer ++ data)).foldlM
        (separatePart base64 (Separator.split terminator (buffer ++ data))) .empty := by
  rcases Option.isSome_iff_exists.mp valid with ⟨text, decoded⟩
  rw [separateMessages, sliceTo_readBuffer]
  simp only [bind, Except.bind, decoded, unwrap, asBytes_eq_of_fromUtf8 decoded]

theorem readMessagesFromStream_ok (base64 : Base64.Engine) (bufStr : Bytes) {data : Bytes}
    (nonempty : data ≠ []) :
    readMessagesFromStream base64 bufStr (.ok data) =
      (separateMessages base64 bufStr (readBuffer data) data.length).map fun separated =>
        (separated.buffer, .ok separated.messages) := by
  rw [readMessagesFromStream, if_neg (by simpa using nonempty)]
  cases separateMessages base64 bufStr (readBuffer data) data.length <;> rfl

end Hoposhell
