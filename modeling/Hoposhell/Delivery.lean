import Hoposhell.Replay

/-!
# The delivery of messages across connections

A message put on the channel is taken from it before it is written, so a failed write
loses it unless the history still holds it.  `LosesNothing` is the guard of a step that
loses no message, and a run loses none exactly when all of its steps meet the guard:
the invariant `Consistent` says where messages come from, so that one that is lost
does not come back.
-/

namespace Hoposhell

namespace Shell

/-- The messages written without error on some connection. -/
def written (shell : Shell) : List Posted :=
  postedOf (shell.past ++ shell.connection.elim [] (·.sent))

def held (shell : Shell) : Option Posted :=
  shell.connection.bind fun connection =>
    match connection.control with
    | .send msg => some msg
    | _ => none

/-- The message is on its way to the server, or was written. -/
def Kept (shell : Shell) (msg : Posted) : Prop :=
  msg ∈ shell.channel ∨ shell.held = some msg ∨ msg ∈ shell.history ∨ msg ∈ shell.written

/--
A write that fails for good is that of a message that is on the channel, in the history
or written, and the trim drops only messages that are on the channel, held or written.
-/
def LosesNothing (shell : Shell) : ShellEvent → Prop
  | .produce _ => ∀ msg ∈ trimmed shell.history,
      msg ∈ shell.channel ∨ shell.held = some msg ∨ msg ∈ shell.written
  | .handle (.write (.error .other)) =>
      ∀ msg ∈ shell.held, msg ∈ shell.channel ∨ msg ∈ shell.history ∨ msg ∈ shell.written
  | _ => True

instance (shell : Shell) : (event : ShellEvent) → Decidable (LosesNothing shell event)
  | .produce _ => inferInstanceAs (Decidable (∀ msg ∈ trimmed shell.history, _ ∨ _))
  | .handle (.write (.error .other)) => inferInstanceAs (Decidable (∀ msg ∈ shell.held, _ ∨ _))
  | .enqueue | .respond _ | .connect | .disconnect | .handle (.write (.ok _))
  | .handle (.write (.error .wouldBlock)) | .handle (.getSize _) | .handle (.lockHistory _)
  | .handle (.read _) | .handle (.recv _) | .handle (.getNow _) | .handle .clockBeforeEpoch
  | .handle (.flush _) =>
      inferInstanceAs (Decidable True)

/-- Every message ever put on the channel is kept. -/
def NoneLost (shell : Shell) : Prop :=
  ∀ msg ∈ shell.put, shell.Kept msg

section NoneLost

variable {config : ConnectConfig} {shell next : Shell} {event : ShellEvent}

theorem trimmed_append_trimHistory (history : List Posted) :
    trimmed history ++ trimHistory history = history := by
  unfold trimmed trimHistory
  split
  · exact List.take_append_drop _ _
  · rename_i short
    rw [Nat.sub_eq_zero_of_le (Nat.not_lt.mp short)]
    rfl

theorem held_eq_some_iff {connection : Connection} {msg : Posted}
    (connected : shell.connection = some connection) :
    shell.held = some msg ↔ connection.control = .send msg := by
  rw [held, connected, Option.bind_some]
  cases connection.control <;> simp

theorem Kept.of_channel {msg : Posted} (inChannel : msg ∈ shell.channel) : shell.Kept msg :=
  .inl inChannel

theorem Kept.of_held {msg : Posted} (isHeld : shell.held = some msg) : shell.Kept msg :=
  .inr (.inl isHeld)

theorem Kept.of_history {msg : Posted} (inHistory : msg ∈ shell.history) : shell.Kept msg :=
  .inr (.inr (.inl inHistory))

theorem Kept.of_written {msg : Posted} (inWritten : msg ∈ shell.written) : shell.Kept msg :=
  .inr (.inr (.inr inWritten))

theorem Kept.handle {event : ConnectionEvent} {connection nextConnection : Connection}
    {msg : Posted} (kept : shell.Kept msg) (guard : LosesNothing shell (.handle event))
    (connected : shell.connection = some connection) (allowed : shell.Allows event)
    (taken : connection.step config event = some nextConnection) :
    Kept { shell with connection := some nextConnection, channel := shell.channelAfter event }
      msg := by
  let after : Shell :=
    { shell with connection := some nextConnection, channel := shell.channelAfter event }
  have writtenStays : msg ∈ shell.written → msg ∈ after.written := by
    rcases Connection.sent_prefix_of_step taken with ⟨more, sent⟩
    simp only [written, connected, Option.elim_some, ← sent, postedOf_append, after]
    intro mem
    simp only [List.mem_append] at mem ⊢
    tauto
  rcases kept with inChannel | isHeld | inHistory | inWritten
  · cases event with
    | recv received =>
        cases received with
        | msg first =>
            rcases List.head?_eq_some_iff.mp allowed with ⟨rest, channel⟩
            rw [channel] at inChannel
            rcases List.mem_cons.mp inChannel with rfl | inRest
            · right
              left
              cases Connection.step_spec taken
              rfl
            · exact .of_channel (by simpa [channelAfter, channel] using inRest)
        | timeout | disconnected => exact .of_channel inChannel
    | _ => exact .of_channel inChannel
  · have control := (held_eq_some_iff connected).mp isHeld
    rcases Connection.send_of_step control taken with stillHeld | isWritten | rfl
    · have connectedAfter : after.connection = some nextConnection := rfl
      exact .of_held ((held_eq_some_iff connectedAfter).mpr stillHeld)
    · refine .of_written ?_
      simp [written, isWritten]
    · rcases guard msg isHeld with inChannel | inHistory | inWritten
      · exact .of_channel inChannel
      · exact .of_history inHistory
      · exact .of_written (writtenStays inWritten)
  · exact .of_history inHistory
  · exact .of_written (writtenStays inWritten)

theorem NoneLost.step (noneLost : shell.NoneLost) (guard : LosesNothing shell event)
    (taken : shell.step config event = some next) : next.NoneLost := by
  intro msg put
  cases step_spec taken with
  | produce nothingRecorded unlocked =>
      rcases noneLost msg put with inChannel | isHeld | inHistory | inWritten
      · exact .of_channel inChannel
      · exact .of_held isHeld
      · rw [← trimmed_append_trimHistory shell.history] at inHistory
        rcases List.mem_append.mp inHistory with dropped | kept
        · rcases guard msg dropped with inChannel | isHeld | inWritten
          · exact .of_channel inChannel
          · exact .of_held isHeld
          · exact .of_written inWritten
        · exact .of_history (List.mem_append_left _ kept)
      · exact .of_written inWritten
  | enqueue | respond =>
      rcases List.mem_append.mp put with before | isNew
      · rcases noneLost msg before with inChannel | elsewhere
        · exact .of_channel (List.mem_append_left _ inChannel)
        · exact .inr elsewhere
      · exact .of_channel (List.mem_append_right _ isNew)
  | connect disconnected =>
      have kept := noneLost msg put
      simpa [Kept, held, written, disconnected, Connection.start] using kept
  | handle connected allowed handled =>
      exact (noneLost msg put).handle guard connected allowed handled
  | disconnect connected returned =>
      have kept := noneLost msg put
      simpa [Kept, held, written, connected, returned] using kept

def replaying (shell : Shell) : List Posted :=
  shell.connection.elim [] (·.control.replaying)

/-- Where the messages of the threads come from. -/
structure Consistent (shell : Shell) : Prop where
  history : Increasing shell.nextId shell.history
  history_put : ∀ msg ∈ shell.history, msg ∈ shell.put ∨ shell.recorded = some msg
  recorded : ∀ msg ∈ shell.recorded, msg ∈ shell.history
  history_content : ∀ msg ∈ shell.history, msg.message.content.isSome
  put_below : ∀ msg ∈ shell.put, msg.id < shell.nextId
  put_content : ∀ msg ∈ shell.put, msg.message.content.isSome
  channel_put : ∀ msg ∈ shell.channel, msg ∈ shell.put
  held_put : ∀ msg ∈ shell.held, msg ∈ shell.put
  replaying_history : ∀ msg ∈ shell.replaying, msg ∈ shell.history

theorem consistent_start : start.Consistent where
  history := .nil 0
  history_put := by simp [start]
  recorded := by simp [start]
  history_content := by simp [start]
  put_below := by simp [start]
  put_content := by simp [start]
  channel_put := by simp [start]
  held_put := by simp [start, held]
  replaying_history := by simp [start, replaying]

theorem channelAfter_subset (shell : Shell) (event : ConnectionEvent) :
    shell.channelAfter event ⊆ shell.channel := by
  cases event with
  | recv received =>
      cases received with
      | msg first => exact List.tail_subset _
      | timeout | disconnected => exact List.Subset.refl _
  | _ => exact List.Subset.refl _

theorem Consistent.handle {event : ConnectionEvent} {connection nextConnection : Connection}
    (consistent : shell.Consistent) (connected : shell.connection = some connection)
    (allowed : shell.Allows event)
    (taken : connection.step config event = some nextConnection) :
    Consistent
      { shell with connection := some nextConnection, channel := shell.channelAfter event } := by
  refine { consistent with
    channel_put := fun msg mem => consistent.channel_put msg (channelAfter_subset shell event mem)
    held_put := ?_
    replaying_history := ?_ }
  · intro msg isHeld
    have connectedAfter : (some nextConnection : Option Connection) = some nextConnection := rfl
    rcases Connection.held_of_step taken ((held_eq_some_iff connectedAfter).mp isHeld) with
      control | rfl
    · exact consistent.held_put msg ((held_eq_some_iff connected).mpr control)
    · exact consistent.channel_put msg (List.mem_of_mem_head? allowed)
  · intro msg mem
    have inReplay : msg ∈ nextConnection.control.replaying := mem
    rcases Connection.replaying_of_step taken with fewer | rfl
    · apply consistent.replaying_history
      simpa [replaying, connected] using fewer.subset inReplay
    · have locked : nextConnection.control.replaying = shell.history := allowed
      rwa [locked] at inReplay

theorem isReplay_of_mem_replaying {msg : Posted} (mem : msg ∈ shell.replaying) :
    shell.isLocked = true := by
  cases connected : shell.connection with
  | none => simp [replaying, connected] at mem
  | some connection =>
      simp only [replaying, connected, Option.elim_some] at mem
      simp only [isLocked, connected, Option.any_some]
      cases control : connection.control with
      | replay first rest => rfl
      | _ => rw [control] at mem; cases mem

theorem Consistent.produce (consistent : shell.Consistent) (nothingRecorded : shell.recorded = none)
    (unlocked : shell.isLocked = false) {msg : Posted} (fresh : msg.id = shell.nextId)
    (content : msg.message.content.isSome) :
    Consistent
      { shell with
        history := trimHistory shell.history ++ [msg], recorded := some msg
        nextId := shell.nextId + 1 } where
  history := (consistent.history.sublist (trimHistory_sublist _)).push fresh
  history_put := by
    simp only [List.forall_mem_append, List.forall_mem_singleton, or_true, and_true]
    intro other mem
    have before := consistent.history_put other ((trimHistory_sublist _).subset mem)
    left
    simpa [nothingRecorded] using before
  recorded := by simp
  history_content := by
    simp only [List.forall_mem_append, List.forall_mem_singleton, content, and_true]
    intro other mem
    exact consistent.history_content other ((trimHistory_sublist _).subset mem)
  put_below other put := Nat.lt_succ_of_lt (consistent.put_below other put)
  put_content := consistent.put_content
  channel_put := consistent.channel_put
  held_put := consistent.held_put
  replaying_history := by
    intro other mem
    have locked : shell.isLocked = true := isReplay_of_mem_replaying mem
    rw [unlocked] at locked
    cases locked

/-- A message is put on the channel: a new one, or the one that is recorded. -/
theorem Consistent.put (consistent : shell.Consistent) {msg : Posted}
    {recorded : Option Posted} {nextId : ℕ} (notLess : shell.nextId ≤ nextId)
    (below : msg.id < nextId) (content : msg.message.content.isSome)
    (stays : ∀ other, shell.recorded = some other → other = msg ∨ recorded = some other)
    (wasRecorded : ∀ other ∈ recorded, shell.recorded = some other) :
    Consistent
      { shell with
        channel := shell.channel ++ [msg], recorded, put := shell.put ++ [msg], nextId } where
  history :=
    ⟨consistent.history.pairwise, fun other mem =>
      lt_of_lt_of_le (consistent.history.below other mem) notLess⟩
  history_put := by
    intro other mem
    rcases consistent.history_put other mem with before | isRecorded
    · exact .inl (List.mem_append_left _ before)
    · rcases stays other isRecorded with rfl | same
      · exact .inl (List.mem_append_right _ (List.mem_singleton_self _))
      · exact .inr same
  recorded other isRecorded := consistent.recorded other (wasRecorded other isRecorded)
  history_content := consistent.history_content
  put_below := by
    simp only [List.forall_mem_append, List.forall_mem_singleton, below, and_true]
    intro other mem
    exact lt_of_lt_of_le (consistent.put_below other mem) notLess
  put_content := List.forall_mem_append.mpr
    ⟨consistent.put_content, List.forall_mem_singleton.mpr content⟩
  channel_put := by
    intro other mem
    rcases List.mem_append.mp mem with before | isNew
    · exact List.mem_append_left _ (consistent.channel_put other before)
    · exact List.mem_append_right _ isNew
  held_put other isHeld := List.mem_append_left _ (consistent.held_put other isHeld)
  replaying_history := consistent.replaying_history

theorem Consistent.step (consistent : shell.Consistent)
    (taken : shell.step config event = some next) : next.Consistent := by
  cases step_spec taken with
  | produce nothingRecorded unlocked => exact consistent.produce nothingRecorded unlocked rfl rfl
  | @enqueue msg isRecorded =>
      have inHistory := consistent.recorded msg isRecorded
      apply consistent.put le_rfl
      · exact consistent.history.below msg inHistory
      · exact consistent.history_content msg inHistory
      · intro other same
        left
        rw [isRecorded] at same
        exact (Option.some.inj same).symm
      · simp
  | respond =>
      apply consistent.put (Nat.le_succ _)
      · exact Nat.lt_succ_self _
      · rfl
      · exact fun other same => .inr same
      · exact fun other same => same
  | connect disconnected =>
      exact { consistent with
        held_put := by simp [held, Connection.start]
        replaying_history := by simp [replaying, Connection.start, Control.replaying] }
  | handle connected allowed handled => exact consistent.handle connected allowed handled
  | disconnect connected returned =>
      exact { consistent with
        held_put := by simp [held]
        replaying_history := by simp [replaying] }

theorem Kept.of_handle {event : ConnectionEvent} {connection nextConnection : Connection}
    {msg : Posted} (consistent : shell.Consistent) (connected : shell.connection = some connection)
    (allowed : shell.Allows event) (taken : connection.step config event = some nextConnection)
    (kept : Kept
      { shell with connection := some nextConnection, channel := shell.channelAfter event } msg) :
    shell.Kept msg := by
  rcases kept with inChannel | isHeld | inHistory | inWritten
  · exact .of_channel (channelAfter_subset shell event inChannel)
  · have connectedAfter : (some nextConnection : Option Connection) = some nextConnection := rfl
    rcases Connection.held_of_step taken ((held_eq_some_iff connectedAfter).mp isHeld) with
      control | rfl
    · exact .of_held ((held_eq_some_iff connected).mpr control)
    · exact .of_channel (List.mem_of_mem_head? allowed)
  · exact .of_history inHistory
  · simp only [written, Option.elim_some, postedOf_append, List.mem_append] at inWritten
    rcases inWritten with inPast | inSent
    · exact .of_written (by simp [written, inPast])
    · rcases Connection.posted_of_step taken inSent with before | pending
      · exact .of_written (by simp [written, connected, before])
      · rcases Control.mem_pending pending with inReplay | control
        · refine .of_history (consistent.replaying_history msg ?_)
          simpa [replaying, connected] using inReplay
        · exact .of_held ((held_eq_some_iff connected).mpr control)

theorem put_subset_of_step (taken : shell.step config event = some next) :
    shell.put ⊆ next.put := by
  cases step_spec taken with
  | enqueue | respond => exact List.subset_append_left _ _
  | _ => exact List.Subset.refl _

/-- A message put on the channel that is kept after a step was kept before it. -/
theorem Kept.of_step (consistent : shell.Consistent)
    (taken : shell.step config event = some next) {msg : Posted} (put : msg ∈ shell.put)
    (kept : next.Kept msg) : shell.Kept msg := by
  have notFresh : ∀ {message}, msg ≠ { id := shell.nextId, message } := by
    rintro message rfl
    exact lt_irrefl _ (consistent.put_below _ put)
  cases step_spec taken with
  | produce nothingRecorded unlocked =>
      rcases kept with inChannel | isHeld | inHistory | inWritten
      · exact .of_channel inChannel
      · exact .of_held isHeld
      · rcases List.mem_append.mp inHistory with before | isNew
        · exact .of_history ((trimHistory_sublist _).subset before)
        · exact absurd (List.mem_singleton.mp isNew) notFresh
      · exact .of_written inWritten
  | @enqueue recorded isRecorded =>
      rcases kept with inChannel | elsewhere
      · rcases List.mem_append.mp inChannel with before | isNew
        · exact .of_channel before
        · rw [List.mem_singleton.mp isNew]
          exact .of_history (consistent.recorded recorded isRecorded)
      · exact .inr elsewhere
  | respond =>
      rcases kept with inChannel | elsewhere
      · rcases List.mem_append.mp inChannel with before | isNew
        · exact .of_channel before
        · exact absurd (List.mem_singleton.mp isNew) notFresh
      · exact .inr elsewhere
  | connect disconnected =>
      simpa [Kept, held, written, disconnected, Connection.start] using kept
  | handle connected allowed handled => exact kept.of_handle consistent connected allowed handled
  | disconnect connected returned =>
      simpa [Kept, held, written, connected, returned] using kept

theorem losesNothing_of_step (consistent : shell.Consistent)
    (taken : shell.step config event = some next) (noneLost : next.NoneLost) :
    LosesNothing shell event := by
  cases step_spec taken with
  | produce nothingRecorded unlocked =>
      intro msg dropped
      have increasing := consistent.history.pairwise
      rw [← trimmed_append_trimHistory shell.history, List.pairwise_append] at increasing
      have inHistory : msg ∈ shell.history := List.mem_of_mem_take dropped
      have put : msg ∈ shell.put := by
        simpa [nothingRecorded] using consistent.history_put msg inHistory
      rcases noneLost msg put with inChannel | isHeld | stillInHistory | inWritten
      · exact .inl inChannel
      · exact .inr (.inl isHeld)
      · rcases List.mem_append.mp stillInHistory with kept | isNew
        · exact absurd (increasing.2.2 msg dropped msg kept) (lt_irrefl _)
        · have below := consistent.history.below msg inHistory
          rw [List.mem_singleton.mp isNew] at below
          exact absurd below (lt_irrefl _)
      · exact .inr (.inr inWritten)
  | @handle event connection nextConnection connected allowed handled =>
      match event with
      | .write (.error .other) =>
          intro msg isHeld
          have control := (held_eq_some_iff connected).mp isHeld
          have put := consistent.held_put msg isHeld
          rcases Connection.returned_of_failed control (consistent.put_content msg put) handled with
            ⟨returned, sent⟩
          rcases noneLost msg put with inChannel | stillHeld | inHistory | inWritten
          · exact .inl inChannel
          · simp [held, returned] at stillHeld
          · exact .inr (.inl inHistory)
          · exact .inr (.inr (by simpa [written, connected, sent] using inWritten))
      | .write (.ok _) | .write (.error .wouldBlock) | .getSize _ | .lockHistory _ | .read _
      | .recv _ | .getNow _ | .clockBeforeEpoch | .flush _ => trivial
  | _ => trivial

/--
No message put on the channel is lost, across any connections, in exactly the runs in
which writes fail for good only for messages that are kept elsewhere, and the history
drops only messages that are on the channel, held or written.
-/
theorem noneLost_iff_losesNothing {events : List ShellEvent}
    (reaches : Transition.run (Shell.step config) .start events = some shell) :
    shell.NoneLost ↔ Transition.Meets (Shell.step config) LosesNothing .start events := by
  refine Transition.iff_meets_of_run
    (fun _ _ _ consistent taken => Consistent.step consistent taken) ?_ ?_ consistent_start
    (by simp [NoneLost, start]) reaches
  · intro state event next consistent noneLost taken
    exact ⟨losesNothing_of_step consistent taken, fun guard => noneLost.step guard taken⟩
  · intro state event next consistent lost taken noneLost
    apply lost
    intro msg put
    exact (noneLost msg (put_subset_of_step taken put)).of_step consistent taken put

end NoneLost

end Shell

def firstResponse : Posted where
  id := 0
  message := { mtype := .command, content := some (asBytes "ab") }

theorem noneLost_replayedRun :
    ∃ shell, Transition.run (Shell.step localConfig) .start replayedRun = some shell ∧
      shell.NoneLost := by
  have reaches : (Transition.run (Shell.step localConfig) .start replayedRun).isSome := by decide
  rcases Option.isSome_iff_exists.mp reaches with ⟨shell, reaches⟩
  exact ⟨shell, reaches, (Shell.noneLost_iff_losesNothing reaches).mpr (by decide)⟩

theorem not_noneLost :
    ¬∀ (config : ConnectConfig) (events : List ShellEvent) (shell : Shell),
      Transition.run (Shell.step config) .start events = some shell → shell.NoneLost := by
  intro always
  let reached := Transition.run (Shell.step localConfig) .start
    (.respond (asBytes "ab") :: untilLoop [] ++
      [.handle (.recv (.msg firstResponse)), .handle (.write (.error .other))])
  have reaches : reached.isSome := by decide
  have nowhere : reached.all fun shell => decide (firstResponse ∈ shell.put ∧
      firstResponse ∉ shell.channel ∧ shell.held ≠ some firstResponse ∧
      firstResponse ∉ shell.history ∧ firstResponse ∉ shell.written) := by
    decide
  rcases Option.isSome_iff_exists.mp reaches with ⟨shell, reachedEq⟩
  have kept := always localConfig _ shell reachedEq firstResponse
  rw [reachedEq, Option.all_some, decide_eq_true_iff] at nowhere
  rcases nowhere with ⟨isPut, notInChannel, notHeld, notInHistory, notWritten⟩
  rcases kept isPut with inChannel | isHeld | inHistory | isWritten
  · exact notInChannel inChannel
  · exact notHeld isHeld
  · exact notInHistory inHistory
  · exact notWritten isWritten

end Hoposhell
