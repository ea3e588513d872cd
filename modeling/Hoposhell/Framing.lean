import Hoposhell.Message

/-!
# The framing decoder on a cut stream

The server's stream is a sequence of parts, each followed by the terminator: frames,
keep-alives and, when something goes wrong, bad parts.  The client sees the stream
in reads whose boundaries fall anywhere, so `separate_messages` works on a text that
ends inside a part and may take a frame whose terminator has not arrived.

The invariant of a run of reads is a statement about what is still to come: the
carried buffer followed by the unread bytes is again the stream of some parts, whose
messages are exactly those not delivered yet.  A frame taken before its terminator
leaves a keep-alive behind.
-/

namespace Hoposhell

inductive Frame where
  | keepAlive
  | message (mtype : MessageTypeToCmd) (content : Bytes)
deriving DecidableEq, Repr

namespace Frame

/-- The text of a frame before its terminator. -/
def body (base64 : Base64.Engine) : Frame → Bytes
  | .keepAlive => []
  | .message mtype content => base64.encode content ++ mtype.tag

def bytes (base64 : Base64.Engine) (frame : Frame) : Bytes :=
  frame.body base64 ++ terminator

def message? : Frame → Option (Message MessageTypeToCmd)
  | .keepAlive => none
  | .message mtype content => some { mtype, content := some content }

end Frame

/-- What stands between two terminators of a stream. -/
inductive Part where
  | good (frame : Frame)
  | bad (text : Bytes)
deriving DecidableEq, Repr

namespace Part

def body (base64 : Base64.Engine) : Part → Bytes
  | .good frame => frame.body base64
  | .bad text => text

def message? : Part → Option (Message MessageTypeToCmd)
  | .good frame => frame.message?
  | .bad _ => none

@[simp]
theorem message?_keepAlive : message? (.good .keepAlive) = none := rfl

@[simp]
theorem message?_message (mtype : MessageTypeToCmd) (content : Bytes) :
    message? (.good (.message mtype content)) = some { mtype, content := some content } := rfl

/-- A bad part is a non-empty ASCII text without terminator that ends in no tag. -/
def WellFormed : Part → Prop
  | .good _ => True
  | .bad text =>
      text ≠ [] ∧ (∀ byte ∈ text, byte < 128) ∧ ¬terminator <:+: text ∧ messageTypeOf text = none

instance : (part : Part) → Decidable part.WellFormed
  | .good _ => inferInstanceAs (Decidable True)
  | .bad _ => inferInstanceAs (Decidable (_ ∧ _))

end Part

def stream (base64 : Base64.Engine) (parts : List Part) : Bytes :=
  (parts.map (Part.body base64)).flatMap (· ++ terminator)

/-- The text stops before the end of the first part's terminator. -/
def Unfinished (base64 : Base64.Engine) (tail : Bytes) : List Part → Prop
  | [] => tail = []
  | part :: _ => ∃ more, more ≠ [] ∧ part.body base64 ++ terminator = tail ++ more

/-- A text made of complete parts and of the beginning of the next one. -/
structure Cut (base64 : Base64.Engine) (parts : List Part) (text : Bytes)
    (done todo : List Part) (tail : Bytes) : Prop where
  parts_eq : parts = done ++ todo
  text_eq : text = stream base64 done ++ tail
  unfinished : Unfinished base64 tail todo

section Stream

variable {base64 : Base64.Engine}

@[simp]
theorem stream_nil : stream base64 [] = [] := rfl

@[simp]
theorem stream_cons (part : Part) (parts : List Part) :
    stream base64 (part :: parts) = part.body base64 ++ terminator ++ stream base64 parts := rfl

theorem stream_map_good (frames : List Frame) :
    stream base64 (frames.map .good) = frames.flatMap (Frame.bytes base64) := by
  induction frames with
  | nil => rfl
  | cons frame frames ih =>
      rw [List.map_cons, stream_cons, ih]
      rfl

theorem unfinished_nil (parts : List Part) : Unfinished base64 [] parts := by
  cases parts with
  | nil => rfl
  | cons part parts => exact ⟨part.body base64 ++ terminator, by simp [terminator_eq], rfl⟩

theorem Unfinished.eq_nil {tail : Bytes} {parts : List Part}
    (unfinished : Unfinished base64 tail parts) (whole : tail = stream base64 parts) :
    parts = [] ∧ tail = [] := by
  cases parts with
  | nil => exact ⟨rfl, whole⟩
  | cons part parts =>
      rcases unfinished with ⟨more, nonempty, split⟩
      have positive := List.length_pos_of_ne_nil nonempty
      rw [stream_cons, split] at whole
      have lengths := congrArg List.length whole
      simp only [List.length_append] at lengths
      omega

/-- Every beginning of a stream is cut into complete parts and an unfinished rest. -/
theorem exists_cut {parts : List Part} {text future : Bytes}
    (whole : text ++ future = stream base64 parts) :
    ∃ done todo tail, Cut base64 parts text done todo tail ∧
      tail ++ future = stream base64 todo := by
  induction parts generalizing text with
  | nil =>
      have empty := List.append_eq_nil_iff.mp whole
      exact ⟨[], [], [], ⟨rfl, by simp [empty.1], rfl⟩, by simp [empty.2]⟩
  | cons part parts ih =>
      rw [stream_cons] at whole
      rcases List.append_eq_append_iff.mp whole with
        ⟨missing, bodyEq, futureEq⟩ | ⟨rest, textEq, streamEq⟩
      · by_cases complete : missing = []
        · subst complete
          refine ⟨[part], parts, [], ⟨rfl, ?_, unfinished_nil parts⟩, by simpa using futureEq⟩
          simpa using bodyEq.symm
        · refine ⟨[], part :: parts, text, ⟨rfl, rfl, missing, complete, bodyEq⟩, ?_⟩
          rw [futureEq, stream_cons, bodyEq, List.append_assoc]
      · rcases ih streamEq.symm with ⟨done, todo, tail, cut, wholeTail⟩
        refine ⟨part :: done, todo, tail, ⟨by simp [cut.parts_eq], ?_, cut.unfinished⟩, wholeTail⟩
        rw [textEq, cut.text_eq, stream_cons]
        simp only [List.append_assoc]

end Stream

section Lawful

variable {base64 : Base64.Engine}

theorem ne_dash_of_mem_encode (lawful : base64.Lawful) (content : Bytes) :
    (45 : UInt8) ∉ base64.encode content := by
  intro mem
  exact absurd (lawful.isSymbol_encode content 45 mem) (by decide)

theorem ne_newline_of_mem_encode (lawful : base64.Lawful) (content : Bytes) :
    (10 : UInt8) ∉ base64.encode content := by
  intro mem
  exact absurd (lawful.isSymbol_encode content 10 mem) (by decide)

theorem terminator_not_infix_of_newline_not_mem {text : Bytes} (free : (10 : UInt8) ∉ text) :
    ¬terminator <:+: text := by
  intro occurs
  exact free (occurs.mem (by simp [terminator_eq]))

theorem Frame.newline_not_mem_body (lawful : base64.Lawful) (frame : Frame) :
    (10 : UInt8) ∉ frame.body base64 := by
  cases frame with
  | keepAlive => simp [Frame.body]
  | message mtype content =>
      rcases mtype.tag_eq with ⟨letter, tagEq, _, notNewline, _⟩
      simp [Frame.body, tagEq, ne_newline_of_mem_encode lawful content, notNewline.symm]

theorem Frame.ascii_body (lawful : base64.Lawful) (frame : Frame) :
    ∀ byte ∈ frame.body base64, byte < 128 := by
  cases frame with
  | keepAlive => simp [Frame.body]
  | message mtype content =>
      intro byte mem
      rcases mtype.tag_eq with ⟨letter, tagEq, _, _, ascii⟩
      rcases List.mem_append.mp mem with inContent | inTag
      · exact (lawful.isSymbol_encode content byte inContent).lt_128
      · rw [tagEq] at inTag
        simp only [List.mem_cons, List.not_mem_nil, or_false] at inTag
        rcases inTag with rfl | rfl | rfl | rfl
        · decide
        · exact ascii
        · exact ascii
        · exact ascii

theorem Part.ascii_body (lawful : base64.Lawful) {part : Part} (wellFormed : part.WellFormed) :
    ∀ byte ∈ part.body base64, byte < 128 := by
  cases part with
  | good frame => exact frame.ascii_body lawful
  | bad text => exact wellFormed.2.1

theorem Part.firstAt_body (lawful : base64.Lawful) {part : Part} (wellFormed : part.WellFormed) :
    Separator.FirstAt terminator (part.body base64) := by
  have absent : ¬terminator <:+: part.body base64 := by
    cases part with
    | good frame =>
        exact terminator_not_infix_of_newline_not_mem (frame.newline_not_mem_body lawful)
    | bad text => exact wellFormed.2.2.1
  have shape : terminator = [45, 45, 45] ++ [10] := by decide
  rw [shape] at absent ⊢
  exact Separator.firstAt_of_absent (by decide) absent

theorem ascii_stream (lawful : base64.Lawful) {parts : List Part}
    (wellFormed : ∀ part ∈ parts, part.WellFormed) :
    ∀ byte ∈ stream base64 parts, byte < 128 := by
  intro byte mem
  induction parts with
  | nil => simp at mem
  | cons part parts ih =>
      simp only [stream_cons, List.mem_append] at mem
      rcases mem with (inBody | inTerminator) | inRest
      · exact part.ascii_body lawful (wellFormed part (by simp)) byte inBody
      · have ascii : ∀ byte ∈ terminator, byte < 128 := by decide +kernel
        exact ascii byte inTerminator
      · exact ih (fun other mem => wellFormed other (List.mem_cons_of_mem part mem)) inRest

theorem Unfinished.absent (lawful : base64.Lawful) {tail : Bytes} {parts : List Part}
    (wellFormed : ∀ part ∈ parts, part.WellFormed) (unfinished : Unfinished base64 tail parts) :
    ¬terminator <:+: tail := by
  cases parts with
  | nil =>
      obtain rfl : tail = [] := unfinished
      exact terminator_not_infix_of_newline_not_mem (by simp)
  | cons part parts =>
      rcases unfinished with ⟨more, nonempty, split⟩
      exact (part.firstAt_body lawful (wellFormed part (by simp))).absent split nonempty

/-- An unfinished frame ends in a tag exactly when all but its terminator has arrived. -/
theorem eq_body_of_messageTypeOf (lawful : base64.Lawful) {mtype found : MessageTypeToCmd}
    {content tail more : Bytes} (unfinished : more ≠ [])
    (split : (Frame.message mtype content).bytes base64 = tail ++ more)
    (tagged : messageTypeOf tail = some found) :
    tail = (Frame.message mtype content).body base64 := by
  rcases messageTypeOf_eq_some_iff.mp tagged with ⟨front, rfl⟩
  rcases mtype.tag_eq with ⟨letter, tagEq, notDash, _⟩
  rcases found.tag_eq with ⟨letter', tagEq', _⟩
  simp only [Frame.bytes, Frame.body, List.append_assoc] at split
  have startsInTag : ∃ inTag, front = base64.encode content ++ inTag := by
    rcases List.append_eq_append_iff.mp split with
      ⟨inTag, frontEq, _⟩ | ⟨inContent, contentEq, restEq⟩
    · exact ⟨inTag, frontEq⟩
    · cases inContent with
      | nil => exact ⟨[], by simpa using contentEq.symm⟩
      | cons byte inContent =>
          rw [tagEq'] at restEq
          simp only [List.cons_append, List.cons.injEq] at restEq
          refine absurd ?_ (ne_dash_of_mem_encode lawful content)
          rw [contentEq, restEq.1]
          simp
  rcases startsInTag with ⟨inTag, rfl⟩
  rw [List.append_assoc, List.append_cancel_left_eq, tagEq, tagEq', terminator_eq] at split
  have moreLength := List.length_pos_of_ne_nil unfinished
  have lengths := congrArg List.length split
  rcases inTag with _ | ⟨b₁, _ | ⟨b₂, _ | ⟨b₃, _ | ⟨b₄, inTag⟩⟩⟩⟩
  · simp_all [Frame.body]
  · simp_all
  · simp_all
  · simp_all
  · simp only [List.length_append, List.length_cons, List.length_nil] at lengths
    omega

/-- No bad part among the complete ones repeats the text at which the read ends. -/
def Distinct (done : List Part) (tail : Bytes) : Prop :=
  ∀ text, .bad text ∈ done → text ≠ tail

/-- The read does not end in a tag inside a bad part. -/
def Untagged (tail : Bytes) : List Part → Prop
  | .bad _ :: _ => messageTypeOf tail = none
  | _ => True

theorem separatePart_body (lawful : base64.Lawful) {bufferParts : List Bytes} {tail : Bytes}
    (isLast : bufferParts.getLast? = some tail) (separated : Separated) {part : Part}
    (wellFormed : part.WellFormed) (distinct : Distinct [part] tail) :
    separatePart base64 bufferParts separated (part.body base64) =
      .ok { separated with messages := separated.messages ++ part.message?.toList } := by
  cases part with
  | good frame =>
      cases frame with
      | keepAlive => simp [Part.body, Frame.body, Part.message?, Frame.message?]
      | message mtype content =>
          simp only [Part.body, Frame.body]
          rw [separatePart_of_tagged isLast, lawful.decode_encode]
          rfl
  | bad text =>
      have different : text ≠ tail := distinct text (by simp)
      simp only [Part.body]
      rw [separatePart_of_untagged isLast wellFormed.1 wellFormed.2.2.2, if_neg different]
      simp [Part.message?]

/-- The complete parts of a read deliver their messages and leave the buffer alone. -/
theorem foldlM_separatePart_body (lawful : base64.Lawful) {bufferParts : List Bytes}
    {tail : Bytes} (isLast : bufferParts.getLast? = some tail) (separated : Separated)
    {done : List Part} (wellFormed : ∀ part ∈ done, part.WellFormed)
    (distinct : Distinct done tail) :
    (done.map (Part.body base64)).foldlM (separatePart base64 bufferParts) separated =
      .ok { separated with messages := separated.messages ++ done.filterMap Part.message? } := by
  induction done generalizing separated with
  | nil => simp [pure, Except.pure]
  | cons part done ih =>
      have distinctHere : Distinct [part] tail := by
        intro text mem
        exact distinct text (by simp_all)
      have distinctRest : Distinct done tail := by
        intro text mem
        exact distinct text (List.mem_cons_of_mem part mem)
      rw [List.map_cons, List.foldlM_cons,
        separatePart_body lawful isLast separated (wellFormed part (by simp)) distinctHere]
      simp only [bind, Except.bind]
      rw [ih _ (fun other mem => wellFormed other (List.mem_cons_of_mem part mem)) distinctRest]
      cases content : part.message? <;> simp [content]

theorem Cut.split_eq (lawful : base64.Lawful) {parts done todo : List Part} {text tail : Bytes}
    (wellFormed : ∀ part ∈ parts, part.WellFormed) (cut : Cut base64 parts text done todo tail) :
    Separator.split terminator text = done.map (Part.body base64) ++ [tail] := by
  rcases cut with ⟨rfl, rfl, unfinished⟩
  simp only [List.mem_append] at wellFormed
  refine Separator.split_flatMap_append (by decide) ?_
    (unfinished.absent lawful fun part mem => wellFormed part (Or.inr mem))
  intro body mem
  rcases List.mem_map.mp mem with ⟨part, partMem, rfl⟩
  exact part.firstAt_body lawful (wellFormed part (Or.inl partMem))

theorem Cut.unique (lawful : base64.Lawful) {parts done todo done' todo' : List Part}
    {text tail tail' : Bytes} (wellFormed : ∀ part ∈ parts, part.WellFormed)
    (cut : Cut base64 parts text done todo tail) (cut' : Cut base64 parts text done' todo' tail') :
    done = done' ∧ todo = todo' ∧ tail = tail' := by
  have same := (cut.split_eq lawful wellFormed).symm.trans (cut'.split_eq lawful wellFormed)
  rcases List.append_inj' same rfl with ⟨bodies, tails⟩
  have lengths : done.length = done'.length := by simpa using congrArg List.length bodies
  have halves := List.append_inj (cut.parts_eq.symm.trans cut'.parts_eq) lengths
  exact ⟨halves.1, halves.2, by simpa using tails⟩

/-- What a read leaves for the next one when it ends at `tail`. -/
inductive Carried (base64 : Base64.Engine) (tail : Bytes) (todo : List Part) :
    Separated → Prop where
  | kept (untagged : messageTypeOf tail = none) :
      Carried base64 tail todo { buffer := tail, messages := [] }
  | taken (mtype : MessageTypeToCmd) (content : Bytes) (rest : List Part)
      (todo_eq : todo = .good (.message mtype content) :: rest)
      (tail_eq : tail = (Frame.message mtype content).body base64) :
      Carried base64 tail todo
        { buffer := [], messages := [{ mtype, content := some content }] }

/-- The unterminated text at the end of a read is kept, or taken when it is a whole frame. -/
theorem separatePart_tail (lawful : base64.Lawful) {bufferParts : List Bytes} {tail : Bytes}
    (isLast : bufferParts.getLast? = some tail) (separated : Separated) {todo : List Part}
    (unfinished : Unfinished base64 tail todo) (untagged : Untagged tail todo) :
    ∃ carried, Carried base64 tail todo carried ∧
      separatePart base64 bufferParts separated tail =
        .ok { buffer := separated.buffer ++ carried.buffer
              messages := separated.messages ++ carried.messages } := by
  cases ends : messageTypeOf tail with
  | none =>
      refine ⟨_, .kept ends, ?_⟩
      by_cases empty : tail = []
      · simp [empty]
      · rw [separatePart_of_untagged isLast empty ends, if_pos rfl]
        simp [Separated.keep]
  | some found =>
      match todo, unfinished, untagged with
      | [], unfinished, _ =>
          obtain rfl : tail = [] := unfinished
          rw [show messageTypeOf [] = none by decide] at ends
          cases ends
      | .bad text :: rest, _, untagged =>
          rw [show messageTypeOf tail = none from untagged] at ends
          cases ends
      | .good .keepAlive :: rest, unfinished, _ =>
          rcases unfinished with ⟨more, nonempty, split⟩
          have inTerminator : tail <:+: terminator :=
            ⟨[], more, by simpa [Part.body, Frame.body] using split.symm⟩
          have letters : found.tag <:+: terminator :=
            (messageTypeOf_eq_some_iff.mp ends).isInfix.trans inTerminator
          cases found <;> exact absurd letters (by decide)
      | .good (.message mtype content) :: rest, unfinished, _ =>
          rcases unfinished with ⟨more, nonempty, split⟩
          have tailEq := eq_body_of_messageTypeOf lawful nonempty split ends
          refine ⟨_, .taken mtype content rest rfl tailEq, ?_⟩
          rw [tailEq, Frame.body, separatePart_of_tagged isLast, lawful.decode_encode]
          simp [unwrap, Except.map, Separated.push]

/--
One read: the messages of the parts it completes, and those of the frame it ends in
when the tag of this frame is the last thing read.
-/
theorem separateMessages_of_cut (lawful : base64.Lawful) {parts : List Part}
    (wellFormed : ∀ part ∈ parts, part.WellFormed) {buffer data future : Bytes}
    (whole : buffer ++ (data ++ future) = stream base64 parts)
    {done todo : List Part} {tail : Bytes}
    (cut : Cut base64 parts (buffer ++ data) done todo tail)
    (distinct : Distinct done tail) (untagged : Untagged tail todo) :
    ∃ carried, Carried base64 tail todo carried ∧
      separateMessages base64 buffer (readBuffer data) data.length =
        .ok { carried with messages := done.filterMap Part.message? ++ carried.messages } := by
  have splits := cut.split_eq lawful wellFormed
  have wellFormedDone : ∀ part ∈ done, part.WellFormed := by
    intro part mem
    exact wellFormed part (by simp [cut.parts_eq, mem])
  have valid : (fromUtf8 data).isSome := by
    apply isSome_fromUtf8_of_ascii
    intro byte mem
    refine ascii_stream lawful wellFormed byte ?_
    rw [← whole]
    simp [mem]
  have isLast : (Separator.split terminator (buffer ++ data)).getLast? = some tail := by
    simp [splits]
  rcases separatePart_tail lawful isLast { buffer := [], messages := done.filterMap Part.message? }
    cut.unfinished untagged with ⟨carried, isCarried, last⟩
  have folded : (done.map (Part.body base64) ++ [tail]).foldlM
      (separatePart base64 (Separator.split terminator (buffer ++ data))) .empty =
        .ok { carried with messages := done.filterMap Part.message? ++ carried.messages } := by
    rw [List.foldlM_append, foldlM_separatePart_body lawful isLast .empty wellFormedDone distinct]
    simp only [Separated.empty, List.nil_append, bind, Except.bind, List.foldlM_cons,
      List.foldlM_nil]
    rw [last]
    rfl
  rw [← splits] at folded
  exact ⟨carried, isCarried, (separateMessages_readBuffer base64 buffer valid).trans folded⟩

end Lawful

/-- `separate_messages` on successive reads: the last buffer and the list of every call. -/
def separateReads (base64 : Base64.Engine) (buffer : Bytes) :
    List Bytes → Except Panic (Bytes × List (List (Message MessageTypeToCmd)))
  | [] => .ok (buffer, [])
  | data :: reads => do
      let separated ← separateMessages base64 buffer (readBuffer data) data.length
      let (last, lists) ← separateReads base64 separated.buffer reads
      .ok (last, separated.messages :: lists)

/--
No read ends in a tag inside a bad part, and no read completes a bad part whose text
is the text at which the read ends.  The first of the parts has already been read up
to `seen`.
-/
def CutsCleanly (base64 : Base64.Engine) (seen : Bytes) (parts : List Part) : List Bytes → Prop
  | [] => True
  | data :: reads => ∀ done todo tail, Cut base64 parts (seen ++ data) done todo tail →
      Distinct done tail ∧ Untagged tail todo ∧ CutsCleanly base64 tail todo reads

/--
What the decoder still has to find when the stream has been read up to `seen` in the
first part of `parts`: the same, or only a terminator when it has taken the frame.
-/
inductive Resumed (base64 : Base64.Engine) (seen : Bytes) (parts : List Part) :
    Bytes → List Part → Prop where
  | same : Resumed base64 seen parts seen parts
  | taken (mtype : MessageTypeToCmd) (content : Bytes) (rest : List Part) (buffer : Bytes)
      (parts_eq : parts = .good (.message mtype content) :: rest)
      (seen_eq : seen = (Frame.message mtype content).body base64 ++ buffer) :
      Resumed base64 seen parts buffer (.good .keepAlive :: rest)

section Reads

variable {base64 : Base64.Engine}

theorem separateReads_cons {buffer data last : Bytes} {reads : List Bytes} {separated : Separated}
    {lists : List (List (Message MessageTypeToCmd))}
    (first : separateMessages base64 buffer (readBuffer data) data.length = .ok separated)
    (rest : separateReads base64 separated.buffer reads = .ok (last, lists)) :
    separateReads base64 buffer (data :: reads) = .ok (last, separated.messages :: lists) := by
  simp only [separateReads, bind, Except.bind, first, rest]

theorem separateReads_cons_eq_ok {buffer data last : Bytes} {reads : List Bytes}
    {lists : List (List (Message MessageTypeToCmd))}
    (delivers : separateReads base64 buffer (data :: reads) = .ok (last, lists)) :
    ∃ separated rest, separateMessages base64 buffer (readBuffer data) data.length = .ok separated ∧
      separateReads base64 separated.buffer reads = .ok (last, rest) ∧
      lists = separated.messages :: rest := by
  simp only [separateReads, bind, Except.bind] at delivers
  split at delivers
  · cases delivers
  · rename_i separated first
    split at delivers
    · cases delivers
    · rename_i result rest
      cases delivers
      exact ⟨separated, result.2, first, rest, rfl⟩

/-- A cut of what the decoder still has to find is a cut of what has not been read. -/
theorem Resumed.exists_cut {seen buffer data : Bytes} {parts remaining : List Part}
    (resumed : Resumed base64 seen parts buffer remaining) {done todo : List Part} {tail : Bytes}
    (cut : Cut base64 remaining (buffer ++ data) done todo tail) :
    ∃ done' todo' tail', Cut base64 parts (seen ++ data) done' todo' tail' ∧
      (Distinct done' tail' → Distinct done tail) ∧ (Untagged tail' todo' → Untagged tail todo) ∧
      Resumed base64 tail' todo' tail todo := by
  cases resumed with
  | same => exact ⟨done, todo, tail, cut, id, id, .same⟩
  | taken mtype content rest _ partsEq seenEq =>
      subst partsEq seenEq
      rcases cut with ⟨remainingEq, textEq, unfinished⟩
      cases done with
      | nil =>
          obtain rfl : todo = .good .keepAlive :: rest := by simpa using remainingEq.symm
          obtain rfl : buffer ++ data = tail := by simpa using textEq
          rcases unfinished with ⟨more, nonempty, split⟩
          refine ⟨[], .good (.message mtype content) :: rest,
            (Frame.message mtype content).body base64 ++ (buffer ++ data),
            ⟨rfl, by simp, more, nonempty, ?_⟩, fun _ text mem => by simp at mem,
            fun _ => trivial, .taken mtype content rest _ rfl rfl⟩
          simp only [Part.body, Frame.body, List.nil_append, List.append_assoc] at split ⊢
          rw [split]
      | cons part done =>
          simp only [List.cons_append, List.cons.injEq] at remainingEq
          rcases remainingEq with ⟨rfl, rfl⟩
          refine ⟨.good (.message mtype content) :: done, todo, tail,
            ⟨rfl, ?_, unfinished⟩, ?_, id, .same⟩
          · rw [List.append_assoc, textEq]
            simp [Part.body, Frame.body]
          · intro distinct text mem
            exact distinct text (by simpa using mem)

theorem Resumed.take {seen tail : Bytes} {parts : List Part} {mtype : MessageTypeToCmd}
    {content : Bytes} {rest : List Part}
    (resumed : Resumed base64 seen parts tail (.good (.message mtype content) :: rest))
    (tail_eq : tail = (Frame.message mtype content).body base64) :
    Resumed base64 seen parts [] (.good .keepAlive :: rest) := by
  cases resumed with
  | same => exact .taken mtype content rest [] rfl (by simpa using tail_eq)

/-- Reads that cut the stream cleanly deliver the messages of its frames, in order. -/
theorem separateReads_of_cutsCleanly (lawful : base64.Lawful) {seen buffer : Bytes}
    {parts remaining : List Part} (wellFormed : ∀ part ∈ remaining, part.WellFormed)
    {reads : List Bytes} (whole : buffer ++ reads.flatten = stream base64 remaining)
    (unfinished : Unfinished base64 buffer remaining)
    (resumed : Resumed base64 seen parts buffer remaining)
    (clean : CutsCleanly base64 seen parts reads) :
    ∃ lists, separateReads base64 buffer reads = .ok ([], lists) ∧
      lists.flatten = remaining.filterMap Part.message? := by
  induction reads generalizing seen buffer parts remaining with
  | nil =>
      rcases unfinished.eq_nil (by simpa using whole) with ⟨rfl, rfl⟩
      exact ⟨[], rfl, rfl⟩
  | cons data reads ih =>
      rw [List.flatten_cons] at whole
      have whole' : buffer ++ data ++ reads.flatten = stream base64 remaining := by
        rw [List.append_assoc]
        exact whole
      rcases exists_cut whole' with ⟨done, todo, tail, cut, wholeTail⟩
      rcases resumed.exists_cut cut with ⟨done', todo', tail', cut', toDistinct, toUntagged, next⟩
      rcases clean done' todo' tail' cut' with ⟨distinct, untagged, cleanRest⟩
      rcases separateMessages_of_cut lawful wellFormed whole cut (toDistinct distinct)
        (toUntagged untagged) with ⟨carried, isCarried, separated⟩
      have wellFormedTodo : ∀ part ∈ todo, part.WellFormed := by
        intro part mem
        exact wellFormed part (by simp [cut.parts_eq, mem])
      rw [cut.parts_eq, List.filterMap_append]
      cases isCarried with
      | kept _ =>
          rcases ih wellFormedTodo wholeTail cut.unfinished next cleanRest with
            ⟨lists, delivered, listsEq⟩
          exact ⟨_, separateReads_cons separated delivered, by simp [listsEq]⟩
      | taken mtype content rest todoEq tailEq =>
          subst todoEq
          have wellFormedRest : ∀ part ∈ Part.good .keepAlive :: rest, part.WellFormed := by
            intro part mem
            rcases List.mem_cons.mp mem with rfl | inRest
            · trivial
            · exact wellFormedTodo part (List.mem_cons_of_mem _ inRest)
          have wholeRest : [] ++ reads.flatten = stream base64 (.good .keepAlive :: rest) := by
            simpa [tailEq, Part.body, Frame.body] using wholeTail
          rcases ih wellFormedRest wholeRest (unfinished_nil _) (next.take tailEq) cleanRest with
            ⟨lists, delivered, listsEq⟩
          exact ⟨_, separateReads_cons separated delivered,
            by simp [listsEq, List.filterMap_cons]⟩

theorem cutsCleanly_frames (frames : List Frame) (seen : Bytes) (reads : List Bytes) :
    CutsCleanly base64 seen (frames.map .good) reads := by
  induction reads generalizing frames seen with
  | nil => trivial
  | cons data reads ih =>
      rintro done todo tail ⟨partsEq, _, _⟩
      rcases List.map_eq_append_iff.mp partsEq with ⟨front, back, _, rfl, rfl⟩
      refine ⟨?_, ?_, ih back tail⟩
      · intro text mem
        simp at mem
      · cases back <;> trivial

theorem separateReads_stream_frames (lawful : base64.Lawful) (frames : List Frame)
    {reads : List Bytes} (cut : reads.flatten = stream base64 (frames.map .good)) :
    ∃ lists, separateReads base64 [] reads = .ok ([], lists) ∧
      lists.flatten = frames.filterMap Frame.message? := by
  have wellFormed : ∀ part ∈ frames.map Part.good, part.WellFormed := by
    intro part mem
    rcases List.mem_map.mp mem with ⟨frame, _, rfl⟩
    trivial
  have messages : (frames.map Part.good).filterMap Part.message? =
      frames.filterMap Frame.message? := by
    rw [List.filterMap_map]
    rfl
  rw [← messages]
  exact separateReads_of_cutsCleanly lawful wellFormed (by simpa using cut) (unfinished_nil _) .same
    (cutsCleanly_frames frames [] reads)

/--
Framing is lossless: however the stream of a sequence of frames is cut into reads, the
decoder delivers exactly the messages of the frames and keeps nothing at the end.
-/
theorem separateReads_frames (lawful : base64.Lawful) (frames : List Frame)
    (reads : List Bytes) (cut : reads.flatten = frames.flatMap (Frame.bytes base64)) :
    ∃ lists, separateReads base64 [] reads = .ok ([], lists) ∧
      lists.flatten = frames.filterMap Frame.message? := by
  rw [← stream_map_good] at cut
  exact separateReads_stream_frames lawful frames cut

theorem cutsCleanly_cons (lawful : base64.Lawful) {seen data : Bytes} {parts : List Part}
    {reads : List Bytes} (wellFormed : ∀ part ∈ parts, part.WellFormed) {done todo : List Part}
    {tail : Bytes} (cut : Cut base64 parts (seen ++ data) done todo tail)
    (distinct : Distinct done tail) (untagged : Untagged tail todo)
    (clean : CutsCleanly base64 tail todo reads) :
    CutsCleanly base64 seen parts (data :: reads) := by
  intro done' todo' tail' cut'
  rcases cut.unique lawful wellFormed cut' with ⟨rfl, rfl, rfl⟩
  exact ⟨distinct, untagged, clean⟩

/--
The decoder recovers from bad parts when no read ends in a tag inside one of them, and
none completes one of them that repeats the text at which the read ends.
-/
theorem separateReads_parts (lawful : base64.Lawful) (parts : List Part)
    (wellFormed : ∀ part ∈ parts, part.WellFormed) (reads : List Bytes)
    (cut : reads.flatten = stream base64 parts) (clean : CutsCleanly base64 [] parts reads) :
    ∃ lists, separateReads base64 [] reads = .ok ([], lists) ∧
      lists.flatten = parts.filterMap Part.message? :=
  separateReads_of_cutsCleanly lawful wellFormed (by simpa using cut) (unfinished_nil _) .same clean

end Reads

/-- A keep-alive and a frame, cut inside the base64 text, inside the tag and after it. -/
theorem separateReads_frames_cut_in_tag :
    ∃ lists, separateReads Base64.standard []
        [asBytes "---\nQU", asBytes "JD-i", asBytes "ii", asBytes "---\n"] = .ok ([], lists) ∧
      lists.flatten = [{ mtype := .stdin, content := some (asBytes "ABC") }] :=
  separateReads_frames Base64.standard_lawful [.keepAlive, .message .stdin (asBytes "ABC")]
    [asBytes "---\nQU", asBytes "JD-i", asBytes "ii", asBytes "---\n"] (by decide)

/-- A bad part, and a frame cut inside its base64 text. -/
theorem separateReads_parts_after_bad_part :
    ∃ lists, separateReads Base64.standard [] [asBytes "?---\nQU", asBytes "JD-iii---\n"] =
        .ok ([], lists) ∧
      lists.flatten = [{ mtype := .stdin, content := some (asBytes "ABC") }] := by
  have wellFormed : ∀ part ∈ [Part.bad (asBytes "?"), .good (.message .stdin (asBytes "ABC"))],
      part.WellFormed := by decide +kernel
  refine separateReads_parts Base64.standard_lawful _ wellFormed _ (by decide) ?_
  have first : Cut Base64.standard
      [.bad (asBytes "?"), .good (.message .stdin (asBytes "ABC"))] ([] ++ asBytes "?---\nQU")
      [.bad (asBytes "?")] [.good (.message .stdin (asBytes "ABC"))] (asBytes "QU") :=
    ⟨rfl, by decide, asBytes "JD-iii---\n", by decide, by decide⟩
  have distinct : Distinct [.bad (asBytes "?")] (asBytes "QU") := by
    intro text mem
    obtain rfl : text = asBytes "?" := by simpa using mem
    decide
  exact cutsCleanly_cons Base64.standard_lawful wellFormed first distinct trivial
    (cutsCleanly_frames [.message .stdin (asBytes "ABC")] _ _)

def repeatedBadPart : List Part := [.bad (asBytes "QUJD"), .good (.message .stdin (asBytes "ABC"))]

def repeatedBadPartReads : List Bytes := [asBytes "QUJD---\nQUJD", asBytes "-iii---\n"]

/-- The bad part is glued in front of the frame, which then decodes to other bytes. -/
theorem separateReads_repeatedBadPart :
    (∀ part ∈ repeatedBadPart, part.WellFormed) ∧
      repeatedBadPartReads.flatten = stream Base64.standard repeatedBadPart ∧
      (∀ data ∈ repeatedBadPartReads, data ≠ [] ∧ data.length ≤ bufSize) ∧
      ¬∃ lists, separateReads Base64.standard [] repeatedBadPartReads = .ok ([], lists) ∧
        lists.flatten = repeatedBadPart.filterMap Part.message? := by
  have delivers : separateReads Base64.standard [] repeatedBadPartReads =
      .ok ([], [[], [{ mtype := .stdin, content := some (asBytes "ABCABC") }]]) := by
    simp only [repeatedBadPartReads, separateReads, separateMessages, sliceTo_readBuffer]
    decide
  refine ⟨by decide +kernel, by decide, by decide, ?_⟩
  rintro ⟨lists, delivered, listsEq⟩
  rw [delivers] at delivered
  cases delivered
  revert listsEq
  decide

end Hoposhell
