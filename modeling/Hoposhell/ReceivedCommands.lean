import Hoposhell.Disconnect

/-!
# The messages received on a connection

A connection ends in the middle of a frame, and the next one starts with an empty buffer.
`decodeReads` is what `handle_connection` puts on the channel to the command over the reads of
one connection: the messages of the frames that the server has written, up to the point where
the connection has ended.
-/

namespace Hoposhell

/-- The messages that successive reads deliver, up to one that panics. -/
def decodeReads (base64 : Base64.Engine) (buffer : Bytes) :
    List Bytes → List (Message MessageTypeToCmd)
  | [] => []
  | data :: reads =>
      match separateMessages base64 buffer (readBuffer data) data.length with
      | .ok separated => separated.messages ++ decodeReads base64 separated.buffer reads
      | .error _ => []

/-- The messages that a step puts on the channel to the command. -/
def Connection.delivers (config : ConnectConfig) (connection : Connection) :
    ConnectionEvent → List (Message MessageTypeToCmd)
  | .read result =>
      match readMessagesFromStream config.base64 connection.bufStr result with
      | .ok (_, .ok messages) => messages
      | _ => []
  | _ => []

/--
Messages of the first ones of some frames, among them those of every frame whose end is in the
text.
-/
structure DecodesFrames (base64 : Base64.Engine) (frames : List Frame) (text : Bytes)
    (messages : List (Message MessageTypeToCmd)) : Prop where
  begins : messages <+: frames.filterMap Frame.message?
  complete : ∀ front, front <+: frames → front.flatMap (Frame.bytes base64) <+: text →
    front.filterMap Frame.message? <+: messages

section Frames

variable {base64 : Base64.Engine}

theorem decodeReads_cons {buffer data : Bytes} {separated : Separated}
    (first : separateMessages base64 buffer (readBuffer data) data.length = .ok separated)
    (reads : List Bytes) :
    decodeReads base64 buffer (data :: reads) =
      separated.messages ++ decodeReads base64 separated.buffer reads := by
  rw [decodeReads, first]

theorem stream_append (front back : List Part) :
    stream base64 (front ++ back) = stream base64 front ++ stream base64 back := by
  simp [stream]

/-- An unfinished text has no complete part. -/
theorem Unfinished.eq_nil_of_prefix {tail : Bytes} {parts front : List Part}
    (unfinished : Unfinished base64 tail parts) (begins : front <+: parts)
    (within : stream base64 front <+: tail) : front = [] := by
  cases front with
  | nil => rfl
  | cons part front =>
      cases parts with
      | nil => simp at begins
      | cons first parts =>
          rw [List.cons_prefix_cons] at begins
          rcases begins with ⟨rfl, _⟩
          rcases unfinished with ⟨more, nonempty, split⟩
          have longer := within.length_le
          have lengths := congrArg List.length split
          have positive := List.length_pos_iff.mpr nonempty
          rw [stream_cons, List.append_assoc] at longer
          simp only [List.length_append] at longer lengths
          omega

theorem distinct_of_good {done : List Part} (good : ∀ part ∈ done, ∃ frame, part = .good frame)
    (tail : Bytes) : Distinct done tail := by
  intro text mem
  rcases good (.bad text) mem with ⟨frame, isGood⟩
  cases isGood

theorem untagged_of_good {todo : List Part} (good : ∀ part ∈ todo, ∃ frame, part = .good frame)
    (tail : Bytes) : Untagged tail todo := by
  match todo with
  | [] => trivial
  | .good frame :: rest => trivial
  | .bad text :: rest =>
      rcases good (.bad text) List.mem_cons_self with ⟨frame, isGood⟩
      cases isGood

/-- Reads of the beginning of a stream deliver the messages of its first parts. -/
theorem decodeReads_of_stream (lawful : base64.Lawful) {parts : List Part}
    (good : ∀ part ∈ parts, ∃ frame, part = .good frame) {buffer future : Bytes}
    {reads : List Bytes} (whole : buffer ++ (reads.flatten ++ future) = stream base64 parts)
    (unfinished : Unfinished base64 buffer parts) :
    decodeReads base64 buffer reads <+: parts.filterMap Part.message? ∧
      ∀ front, front <+: parts → stream base64 front <+: buffer ++ reads.flatten →
        front.filterMap Part.message? <+: decodeReads base64 buffer reads := by
  induction reads generalizing buffer parts with
  | nil =>
      refine ⟨List.nil_prefix, ?_⟩
      intro front begins within
      rw [unfinished.eq_nil_of_prefix begins (by simpa using within)]
      exact List.nil_prefix
  | cons data reads ih =>
      have wellFormed : ∀ part ∈ parts, part.WellFormed := by
        intro part mem
        rcases good part mem with ⟨frame, rfl⟩
        trivial
      rw [List.flatten_cons, List.append_assoc] at whole
      have whole' : buffer ++ data ++ (reads.flatten ++ future) = stream base64 parts := by
        rw [List.append_assoc]
        exact whole
      rcases exists_cut whole' with ⟨done, todo, tail, cut, wholeTail⟩
      have goodParts := good
      rw [cut.parts_eq, List.forall_mem_append] at goodParts
      rcases separateMessages_of_cut lawful wellFormed whole cut (distinct_of_good goodParts.1 tail)
        (untagged_of_good goodParts.2 tail) with ⟨carried, isCarried, separated⟩
      rw [decodeReads_cons separated, cut.parts_eq, List.filterMap_append, List.append_assoc]
      -- the parts of `front` that are behind `done` are complete in what is carried on
      have behind : ∀ front, front <+: done ++ todo → stream base64 front <+:
          buffer ++ (data :: reads).flatten →
          front <+: done ∨ ∃ more, front = done ++ more ∧ more <+: todo ∧
            stream base64 more <+: tail ++ reads.flatten := by
        intro front begins within
        rcases List.prefix_or_prefix_of_prefix begins (List.prefix_append done todo) with
          inDone | ⟨more, rfl⟩
        · exact .inl inDone
        · refine .inr ⟨more, rfl, (List.prefix_append_right_inj done).mp begins, ?_⟩
          rw [List.flatten_cons, ← List.append_assoc, cut.text_eq, stream_append,
            List.append_assoc, List.prefix_append_right_inj] at within
          exact within
      cases isCarried with
      | kept _ =>
          rcases ih goodParts.2 wholeTail cut.unfinished with ⟨begins, complete⟩
          refine ⟨(List.prefix_append_right_inj _).mpr (by simpa using begins), ?_⟩
          intro front inParts within
          rcases behind front inParts within with inDone | ⟨more, rfl, inTodo, inRest⟩
          · exact (inDone.filterMap _).trans (List.prefix_append _ _)
          · rw [List.filterMap_append, List.prefix_append_right_inj]
            simpa using complete more inTodo inRest
      | taken mtype content rest todoEq tailEq =>
          subst todoEq
          rw [List.forall_mem_cons] at goodParts
          have goodRest : ∀ part ∈ Part.good .keepAlive :: rest, ∃ frame, part = .good frame :=
            List.forall_mem_cons.mpr ⟨⟨.keepAlive, rfl⟩, goodParts.2.2⟩
          have wholeRest : [] ++ (reads.flatten ++ future) =
              stream base64 (.good .keepAlive :: rest) := by
            simpa [tailEq, Part.body, Frame.body] using wholeTail
          rcases ih goodRest wholeRest (unfinished_nil _) with ⟨begins, complete⟩
          simp only [List.filterMap_cons, Part.message?_keepAlive] at begins complete
          refine ⟨(List.prefix_append_right_inj _).mpr ?_, ?_⟩
          · simpa [List.filterMap_cons] using begins
          · intro front inParts within
            rcases behind front inParts within with inDone | ⟨more, rfl, inTodo, inRest⟩
            · exact (inDone.filterMap _).trans (List.prefix_append _ _)
            · rw [List.filterMap_append, List.prefix_append_right_inj]
              cases more with
              | nil => exact List.nil_prefix
              | cons part more =>
                  rw [List.cons_prefix_cons] at inTodo
                  rcases inTodo with ⟨rfl, inTodo⟩
                  have afterwards : stream base64 (.good .keepAlive :: more) <+:
                      [] ++ reads.flatten := by
                    rw [tailEq, stream_cons, List.append_assoc] at inRest
                    simpa [Part.body, Frame.body] using inRest
                  have found := complete (.good .keepAlive :: more)
                    (List.cons_prefix_cons.mpr ⟨rfl, inTodo⟩) afterwards
                  simpa [List.filterMap_cons] using found

/-- What has been decoded of the stream of frames that the server writes on a connection. -/
theorem decodesFrames_decodeReads (lawful : base64.Lawful) {frames : List Frame}
    {reads : List Bytes} (cut : reads.flatten <+: frames.flatMap (Frame.bytes base64)) :
    DecodesFrames base64 frames reads.flatten (decodeReads base64 [] reads) := by
  rcases cut with ⟨future, whole⟩
  have good : ∀ part ∈ frames.map Part.good, ∃ frame, part = .good frame := by
    intro part mem
    rcases List.mem_map.mp mem with ⟨frame, _, rfl⟩
    exact ⟨frame, rfl⟩
  have messages : ∀ frames : List Frame, (frames.map Part.good).filterMap Part.message? =
      frames.filterMap Frame.message? := by
    intro frames
    rw [List.filterMap_map]
    rfl
  have whole' : [] ++ (reads.flatten ++ future) = stream base64 (frames.map .good) := by
    rw [stream_map_good]
    exact whole
  rcases decodeReads_of_stream lawful good whole' (unfinished_nil _) with ⟨begins, complete⟩
  constructor
  · rwa [messages] at begins
  · intro front inFrames within
    rw [← messages]
    rw [← stream_map_good] at within
    exact complete (front.map .good) (inFrames.map _) within

end Frames

section Connection

variable {config : ConnectConfig} {connection next : Connection} {event : ConnectionEvent}
  {reads : List Bytes}

/-- What is decoded by then does not depend on the reads to come. -/
structure Connection.Received (config : ConnectConfig) (reads : List Bytes)
    (connection : Connection) : Prop where
  toCmd : connection.toCmd = decodeReads config.base64 [] reads
  resumes : connection.control ≠ .panicked → ∀ more,
    decodeReads config.base64 [] (reads ++ more) =
      connection.toCmd ++ decodeReads config.base64 connection.bufStr more

theorem Connection.received_start (config : ConnectConfig) :
    Connection.start.Received config [] where
  toCmd := rfl
  resumes _ _ := rfl

/-- Nothing is delivered where nothing is read. -/
theorem Connection.Received.unread (received : connection.Received config reads)
    (going : connection.control ≠ .panicked) (noData : event.readData? = none)
    (nothing : connection.delivers config event = []) (toCmd : next.toCmd = connection.toCmd)
    (bufStr : next.bufStr = connection.bufStr) :
    next.Received config (reads ++ event.readData?.toList) ∧
      next.toCmd = connection.toCmd ++ connection.delivers config event := by
  rw [noData, nothing, Option.toList_none, List.append_nil, List.append_nil]
  refine ⟨⟨toCmd.trans received.toCmd, fun _ more => ?_⟩, toCmd⟩
  rw [toCmd, bufStr]
  exact received.resumes going more

theorem Connection.Received.read_data (received : connection.Received config reads)
    (going : connection.control ≠ .panicked) {data : Bytes} (nonempty : data ≠ []) :
    (connection.read config (.ok data)).Received config (reads ++ [data]) ∧
      (connection.read config (.ok data)).toCmd =
        connection.toCmd ++ connection.delivers config (.read (.ok data)) := by
  have resumes := received.resumes going
  simp only [Connection.read, Connection.delivers, readMessagesFromStream_ok _ _ nonempty]
  cases first : separateMessages config.base64 connection.bufStr (readBuffer data) data.length with
  | error panic =>
      refine ⟨⟨?_, fun goes => absurd rfl goes⟩, by simp [Except.map]⟩
      rw [resumes, decodeReads, first]
      simp [Except.map]
  | ok separated =>
      refine ⟨⟨?_, fun _ more => ?_⟩, by simp [Except.map]⟩
      · rw [resumes, decodeReads_cons first]
        simp [Except.map, decodeReads]
      · rw [List.append_assoc, resumes, List.singleton_append, decodeReads_cons first]
        simp [Except.map]

theorem Connection.Received.read (received : connection.Received config reads)
    (going : connection.control ≠ .panicked) (result : Except ErrorKind Bytes) :
    (connection.read config result).Received config
        (reads ++ (ConnectionEvent.read result).readData?.toList) ∧
      (connection.read config result).toCmd =
        connection.toCmd ++ connection.delivers config (.read result) := by
  cases result with
  | error kind => cases kind <;> exact received.unread going rfl rfl rfl rfl
  | ok data =>
      by_cases empty : data = []
      · subst empty
        exact received.unread going rfl rfl rfl rfl
      · rw [ConnectionEvent.readData?, if_neg empty]
        exact received.read_data going empty

/-- What has been put on the channel to the command is what the reads so far deliver. -/
theorem Connection.Received.step (received : connection.Received config reads)
    (taken : connection.step config event = some next) :
    next.Received config (reads ++ event.readData?.toList) ∧
      next.toCmd = connection.toCmd ++ connection.delivers config event := by
  have going : connection.control ≠ .panicked := by
    intro panicked
    rw [stuck_of_isEnded (by rw [panicked]; rfl)] at taken
    cases taken
  cases step_spec taken with
  | read control => exact received.read going _
  | write sends written =>
      rcases send_cases written with ⟨n, _, rfl⟩ | ⟨kind, _, rfl⟩ <;>
        exact received.unread going rfl rfl rfl rfl
  | _ => exact received.unread going rfl rfl rfl rfl

end Connection

end Hoposhell
