import Hoposhell.Message

/-!
# Reads that do not panic

The decoder unwraps the UTF-8 conversion of the bytes of a read and the base64
decoding of every part that ends in a tag.  What one read needs is `ReadSafe`; it
depends on the text carried from the reads before it, which `carriedText` gives
without the decoder.
-/

namespace Hoposhell

/-- The text that a read leaves for the next one: the copies of its last part, if untagged. -/
def carriedText (text : Bytes) : Bytes :=
  let bufferParts := Separator.split terminator text
  (bufferParts.filter fun bufPart =>
    messageTypeOf bufPart = none ∧ bufferParts.getLast? = some bufPart).flatten

/-- What a read needs not to panic, given the text carried from the reads before it. -/
def ReadSafe (base64 : Base64.Engine) (bufStr data : Bytes) : Prop :=
  (fromUtf8 data).isSome ∧
    ∀ part ∈ Separator.split terminator (bufStr ++ data), (messageTypeOf part).isSome →
      (base64.decode (part.take (part.length - 4))).isSome

/-- What successive reads need not to panic, from a carried text on. -/
def ReadsSafe (base64 : Base64.Engine) (bufStr : Bytes) : List Bytes → Prop
  | [] => True
  | data :: reads =>
      ReadSafe base64 bufStr data ∧ ReadsSafe base64 (carriedText (bufStr ++ data)) reads

/-- `read_messages_from_stream` on successive successful reads: the last buffer. -/
def readAll (base64 : Base64.Engine) (bufStr : Bytes) : List Bytes → Except Panic Bytes
  | [] => .ok bufStr
  | data :: reads => do
      let (bufStr, _) ← readMessagesFromStream base64 bufStr (.ok data)
      readAll base64 bufStr reads

section Safety

variable {base64 : Base64.Engine}

theorem isOk_separatePart_iff (base64 : Base64.Engine) {bufferParts : List Bytes} {last : Bytes}
    (isLast : bufferParts.getLast? = some last) (separated : Separated) (bufPart : Bytes) :
    (separatePart base64 bufferParts separated bufPart).isOk ↔
      ((messageTypeOf bufPart).isSome →
        (base64.decode (bufPart.take (bufPart.length - 4))).isSome) := by
  by_cases empty : bufPart = []
  · subst empty
    simp [show messageTypeOf [] = none by decide]
  · cases ends : messageTypeOf bufPart with
    | none =>
        rw [separatePart_of_untagged isLast empty ends]
        split <;> simp
    | some mtype =>
        rcases messageTypeOf_eq_some_iff.mp ends with ⟨payload64, rfl⟩
        have payload : (payload64 ++ mtype.tag).take ((payload64 ++ mtype.tag).length - 4) =
            payload64 := by
          simp [mtype.length_tag]
        rw [separatePart_of_tagged isLast, payload]
        cases base64.decode payload64 <;> simp [unwrap, Except.map]

theorem isOk_foldlM_separatePart_iff {bufferParts : List Bytes} {last : Bytes}
    (isLast : bufferParts.getLast? = some last) (separated : Separated) (parts : List Bytes) :
    (parts.foldlM (separatePart base64 bufferParts) separated).isOk ↔
      ∀ part ∈ parts, (messageTypeOf part).isSome →
        (base64.decode (part.take (part.length - 4))).isSome := by
  induction parts generalizing separated with
  | nil => simp [pure, Except.pure]
  | cons part parts ih =>
      have here := isOk_separatePart_iff base64 isLast separated part
      rw [List.foldlM_cons, List.forall_mem_cons, ← here]
      cases separatePart base64 bufferParts separated part with
      | error panic => simp [bind, Except.bind]
      | ok next => simpa [bind, Except.bind] using ih next

/-- One read returns normally exactly when its bytes decode at every stage. -/
theorem isOk_readMessagesFromStream_iff (base64 : Base64.Engine) (bufStr : Bytes)
    {data : Bytes} (nonempty : data ≠ []) :
    (readMessagesFromStream base64 bufStr (.ok data)).isOk ↔ ReadSafe base64 bufStr data := by
  have isOk_map : ∀ result : Except Panic Separated,
      (result.map fun separated => (separated.buffer,
        ReadMessageResult.ok separated.messages)).isOk = result.isOk := by
    intro result
    cases result <;> rfl
  rw [readMessagesFromStream_ok base64 bufStr nonempty, isOk_map, ReadSafe]
  cases decoded : fromUtf8 data with
  | none =>
      simp [separateMessages, decoded, unwrap, bind, Except.bind]
  | some text =>
      have nonemptySplit := Separator.split_ne_nil terminator (bufStr ++ data)
      rw [separateMessages_readBuffer base64 bufStr (by simp [decoded])]
      have isLast := List.getLast?_eq_some_getLast nonemptySplit
      simpa using isOk_foldlM_separatePart_iff isLast .empty _

/-- A part adds to the buffer when it is untagged and the same as the last one. -/
theorem buffer_of_separatePart {bufferParts : List Bytes} {last bufPart : Bytes}
    (isLast : bufferParts.getLast? = some last) {separated next : Separated}
    (taken : separatePart base64 bufferParts separated bufPart = .ok next) :
    next.buffer = separated.buffer ++
      if messageTypeOf bufPart = none ∧ last = bufPart then bufPart else [] := by
  by_cases empty : bufPart = []
  · subst empty
    cases taken
    simp
  · cases ends : messageTypeOf bufPart with
    | none =>
        rw [separatePart_of_untagged isLast empty ends] at taken
        split at taken
        · rename_i same
          cases taken
          simp [Separated.keep, same]
        · rename_i different
          cases taken
          simp [Ne.symm different]
    | some mtype =>
        rcases messageTypeOf_eq_some_iff.mp ends with ⟨payload64, rfl⟩
        rw [separatePart_of_tagged isLast] at taken
        cases decoded : base64.decode payload64 with
        | none => simp [decoded, unwrap, Except.map] at taken
        | some payload =>
            simp only [decoded, unwrap, Except.map, Except.ok.injEq] at taken
            simp [← taken, Separated.push]

theorem buffer_of_foldlM_separatePart {bufferParts : List Bytes} {last : Bytes}
    (isLast : bufferParts.getLast? = some last) {separated result : Separated} {parts : List Bytes}
    (folded : parts.foldlM (separatePart base64 bufferParts) separated = .ok result) :
    result.buffer = separated.buffer ++
      (parts.filter fun part => messageTypeOf part = none ∧ last = part).flatten := by
  induction parts generalizing separated with
  | nil =>
      obtain rfl : separated = result := by simpa [pure, Except.pure] using folded
      simp
  | cons part parts ih =>
      rw [List.foldlM_cons] at folded
      cases first : separatePart base64 bufferParts separated part with
      | error panic => simp [first, bind, Except.bind] at folded
      | ok next =>
          simp only [first, bind, Except.bind] at folded
          rw [ih folded, buffer_of_separatePart isLast first, List.filter_cons]
          by_cases kept : messageTypeOf part = none ∧ last = part <;> simp [kept]

/-- A read that returns normally leaves the carried text. -/
theorem buffer_of_readMessagesFromStream {bufStr data next : Bytes} {result : ReadMessageResult}
    (nonempty : data ≠ [])
    (read : readMessagesFromStream base64 bufStr (.ok data) = .ok (next, result)) :
    next = carriedText (bufStr ++ data) := by
  have valid : (fromUtf8 data).isSome := by
    refine ((isOk_readMessagesFromStream_iff base64 bufStr nonempty).mp ?_).1
    simp [read]
  have isLast := List.getLast?_eq_some_getLast (Separator.split_ne_nil terminator (bufStr ++ data))
  rw [readMessagesFromStream_ok base64 bufStr nonempty,
    separateMessages_readBuffer base64 bufStr valid] at read
  cases folded : (Separator.split terminator (bufStr ++ data)).foldlM
      (separatePart base64 (Separator.split terminator (bufStr ++ data))) .empty with
  | error panic => simp [folded, Except.map] at read
  | ok separated =>
      simp only [folded, Except.map, Except.ok.injEq, Prod.mk.injEq] at read
      rw [← read.1, buffer_of_foldlM_separatePart isLast folded, carriedText, isLast]
      simp [Separated.empty]

theorem isOk_readAll_from_iff {bufStr : Bytes} {reads : List Bytes}
    (nonempty : ∀ data ∈ reads, data ≠ []) :
    (readAll base64 bufStr reads).isOk ↔ ReadsSafe base64 bufStr reads := by
  induction reads generalizing bufStr with
  | nil => simp [readAll, ReadsSafe]
  | cons data reads ih =>
      rw [List.forall_mem_cons] at nonempty
      have here := isOk_readMessagesFromStream_iff base64 bufStr nonempty.1
      rw [ReadsSafe, ← here]
      cases first : readMessagesFromStream base64 bufStr (.ok data) with
      | error panic =>
          simp [readAll, first, bind, Except.bind]
      | ok result =>
          have carried := buffer_of_readMessagesFromStream nonempty.1 first
          rw [← carried, ← ih nonempty.2]
          simp [readAll, first, bind, Except.bind]

/--
Successive reads never panic exactly when every one of them is valid UTF-8 by itself
and completes no tagged text that is not base64.
-/
theorem isOk_readAll_iff (base64 : Base64.Engine) (reads : List Bytes)
    (sizes : ∀ data ∈ reads, data ≠ [] ∧ data.length ≤ bufSize) :
    (readAll base64 [] reads).isOk ↔ ReadsSafe base64 [] reads :=
  isOk_readAll_from_iff fun data mem => (sizes data mem).1

end Safety

theorem isOk_readAll_keepAlive :
    (readAll Base64.standard [] [terminator]).isOk ↔ ReadsSafe Base64.standard [] [terminator] :=
  isOk_readAll_iff Base64.standard [terminator] (by decide)

/-- A read that ends inside a two-byte character panics, and so does a tag after `!`. -/
theorem not_isOk_readAll :
    (∀ reads ∈ [[[195], [169]], [asBytes "!-iii---\n"]], ∀ data ∈ reads,
        data ≠ [] ∧ data.length ≤ bufSize) ∧
      ∀ reads ∈ [[[195], [169]], [asBytes "!-iii---\n"]],
        ¬(readAll Base64.standard [] reads).isOk := by
  refine ⟨by decide, ?_⟩
  intro reads mem
  simp only [List.mem_cons, List.not_mem_nil, or_false] at mem
  rcases mem with rfl | rfl <;>
    simp only [readAll, readMessagesFromStream, separateMessages, sliceTo_readBuffer] <;>
    decide

end Hoposhell
