import Hoposhell.Connect
import Hoposhell.Framing

/-!
# Reading back the outgoing stream

Whatever messages are sent on a connection, and wherever keep-alives stand between them, the
bytes tell the messages: a keep-alive is a mere terminator, the text of a frame before its
terminator has no newline, and the last four bytes of that text are the tag.
-/

namespace Hoposhell

/-- The message that is sent; a keep-alive is none. -/
def Sent.message? (config : ConnectConfig) : Sent → Option (Message MessageTypeToStream)
  | .header => some config.headerMsg
  | .size msg => some msg
  | .replayed msg => some msg.message
  | .forwarded msg => some msg.message
  | .keepAlive => none

def sentMessages (config : ConnectConfig) (sent : List Sent) : List (Message MessageTypeToStream) :=
  sent.filterMap (Sent.message? config)

theorem MessageTypeToStream.tag_eq (mtype : MessageTypeToStream) :
    ∃ letter : UInt8, mtype.tag = [45, letter, letter, letter] ++ terminator ∧ letter ≠ 10 := by
  cases mtype with
  | stdout => exact ⟨111, by decide⟩
  | header => exact ⟨104, by decide⟩
  | command => exact ⟨99, by decide⟩

theorem MessageTypeToStream.tag_injective {left right : MessageTypeToStream}
    (eq : left.tag = right.tag) : left = right := by
  cases left <;> cases right <;> first | rfl | exact absurd eq (by decide)

/-- The text of a frame before its terminator. -/
inductive FrameBody (base64 : Base64.Engine) : Option (Message MessageTypeToStream) → Bytes → Prop
  | keepAlive : FrameBody base64 none []
  | message {mtype : MessageTypeToStream} {content : Bytes} {letter : UInt8}
      (tag : mtype.tag = [45, letter, letter, letter] ++ terminator) (notNewline : letter ≠ 10) :
      FrameBody base64 (some { mtype, content := some content })
        (base64.encode content ++ [45, letter, letter, letter])

section Body

variable {config : ConnectConfig} {base64 : Base64.Engine}

theorem Sent.exists_body {sent : Sent}
    (filled : ∀ message ∈ sent.message? config, message.content.isSome = true) :
    ∃ body, FrameBody config.base64 (sent.message? config) body ∧
      (sent.frame config).getD [] = body ++ terminator := by
  have ofMessage : ∀ message : Message MessageTypeToStream, message.content.isSome = true →
      ∃ body, FrameBody config.base64 (some message) body ∧
        (encodedContent config.base64 message).getD [] = body ++ terminator := by
    rintro ⟨mtype, content⟩ isFilled
    rcases Option.isSome_iff_exists.mp isFilled with ⟨bytes, rfl⟩
    rcases mtype.tag_eq with ⟨letter, tag, notNewline⟩
    refine ⟨_, .message tag notNewline, ?_⟩
    simp [encodedContent, tag]
  cases sent with
  | header => exact ofMessage config.headerMsg (filled _ rfl)
  | size msg => exact ofMessage msg (filled _ rfl)
  | replayed msg => exact ofMessage msg.message (filled _ rfl)
  | forwarded msg => exact ofMessage msg.message (filled _ rfl)
  | keepAlive => exact ⟨[], .keepAlive, rfl⟩

/-- A body without newline does not contain the terminator too early. -/
theorem FrameBody.firstAt {message : Option (Message MessageTypeToStream)} {body : Bytes}
    (noNewline : ∀ content, 10 ∉ base64.encode content) (isBody : FrameBody base64 message body) :
    Separator.FirstAt terminator body := by
  have fresh : (10 : UInt8) ∉ body := by
    cases isBody with
    | keepAlive => exact List.not_mem_nil
    | @message mtype content letter tag notNewline =>
        simp [noNewline content, Ne.symm notNewline]
  rw [terminator_eq]
  refine @Separator.firstAt_of_absent UInt8 [45, 45, 45] 10 (by decide) body ?_
  exact terminator_not_infix_of_newline_not_mem fresh

/-- The body tells the message. -/
theorem FrameBody.unique {left right : Option (Message MessageTypeToStream)}
    {leftBody rightBody : Bytes} (injective : Function.Injective base64.encode)
    (isLeft : FrameBody base64 left leftBody) (isRight : FrameBody base64 right rightBody)
    (same : leftBody = rightBody) : left = right := by
  cases isLeft with
  | keepAlive =>
      cases isRight with
      | keepAlive => rfl
      | message tag notNewline => simp at same
  | @message leftType leftContent leftLetter leftTag _ =>
      cases isRight with
      | keepAlive => simp at same
      | @message rightType rightContent rightLetter rightTag _ =>
          have parts := List.append_inj' same rfl
          have sameContent := injective parts.1
          have sameTag : leftType.tag = rightType.tag := by
            rw [leftTag, rightTag, parts.2]
          rw [sameContent, MessageTypeToStream.tag_injective sameTag]

/-- The bodies of what is sent. -/
inductive SentBodies (config : ConnectConfig) : List Sent → List Bytes → Prop
  | nil : SentBodies config [] []
  | cons {sent : Sent} {rest : List Sent} {body : Bytes} {bodies : List Bytes}
      (isBody : FrameBody config.base64 (sent.message? config) body)
      (isRest : SentBodies config rest bodies) : SentBodies config (sent :: rest) (body :: bodies)

theorem exists_sentBodies {sent : List Sent}
    (filled : ∀ message ∈ sentMessages config sent, message.content.isSome = true) :
    ∃ bodies, SentBodies config sent bodies ∧
      sentBytes config sent = bodies.flatMap (· ++ terminator) := by
  induction sent with
  | nil => exact ⟨[], .nil, rfl⟩
  | cons item rest ih =>
      have filledHere : ∀ message ∈ item.message? config, message.content.isSome = true := by
        intro message mem
        exact filled message (List.mem_filterMap.mpr ⟨item, List.mem_cons_self, mem⟩)
      have filledRest : ∀ message ∈ sentMessages config rest, message.content.isSome = true := by
        intro message mem
        rcases List.mem_filterMap.mp mem with ⟨other, otherMem, isMessage⟩
        exact filled message
          (List.mem_filterMap.mpr ⟨other, List.mem_cons_of_mem item otherMem, isMessage⟩)
      rcases Sent.exists_body filledHere with ⟨body, isBody, frame⟩
      rcases ih filledRest with ⟨bodies, isRest, bytes⟩
      refine ⟨body :: bodies, .cons isBody isRest, ?_⟩
      rw [List.flatMap_cons, ← frame, ← bytes]
      rfl

theorem SentBodies.firstAt {sent : List Sent} {bodies : List Bytes}
    (noNewline : ∀ content, 10 ∉ config.base64.encode content)
    (areBodies : SentBodies config sent bodies) :
    ∀ body ∈ bodies, Separator.FirstAt terminator body := by
  induction areBodies with
  | nil => simp
  | cons isBody _ ih => exact List.forall_mem_cons.mpr ⟨isBody.firstAt noNewline, ih⟩

theorem SentBodies.unique {left right : List Sent} {bodies : List Bytes}
    (injective : Function.Injective config.base64.encode)
    (leftBodies : SentBodies config left bodies) (rightBodies : SentBodies config right bodies) :
    left.map (Sent.message? config) = right.map (Sent.message? config) := by
  induction leftBodies generalizing right with
  | nil =>
      cases rightBodies
      rfl
  | cons isBody _ ih =>
      cases rightBodies with
      | cons isRight rightRest =>
          rw [List.map_cons, List.map_cons, isBody.unique injective isRight rfl, ih rightRest]

end Body

/-- The bytes of an outgoing stream tell which messages have been sent, and in which order. -/
theorem sentMessages_eq_of_sentBytes_eq {config : ConnectConfig}
    (injective : Function.Injective config.base64.encode)
    (noNewline : ∀ content, 10 ∉ config.base64.encode content) {left right : List Sent}
    (leftFilled : ∀ message ∈ sentMessages config left, message.content.isSome = true)
    (rightFilled : ∀ message ∈ sentMessages config right, message.content.isSome = true)
    (same : sentBytes config left = sentBytes config right) :
    sentMessages config left = sentMessages config right := by
  rcases exists_sentBodies leftFilled with ⟨leftBodies, isLeft, leftBytes⟩
  rcases exists_sentBodies rightFilled with ⟨rightBodies, isRight, rightBytes⟩
  rw [leftBytes, rightBytes] at same
  have nonempty : terminator ≠ [] := by decide
  have sameBodies : leftBodies = rightBodies :=
    Separator.flatMap_append_injective nonempty (isLeft.firstAt noNewline)
      (isRight.firstAt noNewline) same
  subst sameBodies
  have sameMessages := congrArg (List.filterMap id) (isLeft.unique injective isRight)
  simpa [sentMessages, List.filterMap_map] using sameMessages

/-- A message that is replayed, and forwarded, between keep-alives. -/
theorem sentMessages_eq_local :
    sentMessages localConfig
        [.keepAlive, .replayed { id := 0, message := { mtype := .stdout, content := some [] } },
          .keepAlive] =
      sentMessages localConfig
        [.keepAlive, .forwarded { id := 1, message := { mtype := .stdout, content := some [] } },
          .keepAlive] :=
  sentMessages_eq_of_sentBytes_eq Base64.standard_lawful.encode_injective
    (ne_newline_of_mem_encode Base64.standard_lawful)
    (by decide) (by decide) (by decide)

end Hoposhell
