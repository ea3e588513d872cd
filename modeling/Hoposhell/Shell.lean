import Hoposhell.Connect

/-!
# The shell across its connections

Three threads share the replay history and the channel to the server.  The stdout
thread records a message in the history and then puts it on the channel, the stdin
thread puts the answers to commands on the channel, and the main thread opens a
connection, runs `handle_connection` on it and opens another one when that returns.

`put` and `past` record every message ever put on the channel, and what was sent on
the connections that have ended.
-/

namespace Hoposhell

structure Shell where
  history : List Posted
  channel : List Posted
  /-- The message the stdout thread has recorded in the history but not yet put on the channel. -/
  recorded : Option Posted
  connection : Option Connection
  /-- Every message ever put on the channel. -/
  put : List Posted
  /-- What was sent on the connections that have ended. -/
  past : List Sent
  nextId : ℕ
deriving DecidableEq, Repr

/-- What the threads of the shell do. -/
inductive ShellEvent where
  /-- The stdout thread reads some output of the command and records it. -/
  | produce (content : Bytes)
  /-- The stdout thread puts the message it has recorded on the channel. -/
  | enqueue
  /-- The stdin thread puts a command message on the channel. -/
  | respond (content : Bytes)
  /-- The main thread has opened a connection. -/
  | connect
  /-- A step of `handle_connection`. -/
  | handle (event : ConnectionEvent)
  /-- `handle_connection` has returned. -/
  | disconnect

/-- The history after the trim that precedes a push. -/
def trimHistory (history : List Posted) : List Posted :=
  if maxMessageHistorySize < history.length then
    history.drop (history.length - maxMessageHistorySize)
  else history

def trimmed (history : List Posted) : List Posted :=
  history.take (history.length - maxMessageHistorySize)

/-- The messages of the replay that are left, or the message being forwarded. -/
def Control.pending : Control → List Posted
  | .replay msg rest => msg :: rest
  | .send msg => [msg]
  | _ => []

/-- The messages that a replay has still to write. -/
def Control.replaying : Control → List Posted
  | .replay msg rest => msg :: rest
  | _ => []

/-- `handle_connection` holds the lock of the history. -/
def Control.isReplay : Control → Bool
  | .replay _ _ => true
  | _ => false

/-- The message of the channel or of the history that was sent. -/
def Sent.posted? : Sent → Option Posted
  | .replayed msg => some msg
  | .forwarded msg => some msg
  | _ => none

/-- The messages of the channel and of the history among what was sent. -/
def postedOf (sent : List Sent) : List Posted :=
  sent.filterMap Sent.posted?

namespace Shell

def start : Shell where
  history := []
  channel := []
  recorded := none
  connection := none
  put := []
  past := []
  nextId := 0

def isLocked (shell : Shell) : Bool :=
  shell.connection.any (·.control.isReplay)

/-- What the history and the channel allow a call of `handle_connection` to return. -/
def Allows (shell : Shell) : ConnectionEvent → Prop
  | .lockHistory history => history = shell.history
  | .recv (.msg msg) => shell.channel.head? = some msg
  | .recv _ => shell.channel = []
  | _ => True

instance (shell : Shell) : (event : ConnectionEvent) → Decidable (shell.Allows event)
  | .lockHistory history => inferInstanceAs (Decidable (history = shell.history))
  | .recv (.msg msg) => inferInstanceAs (Decidable (shell.channel.head? = some msg))
  | .recv .timeout | .recv .disconnected => inferInstanceAs (Decidable (shell.channel = []))
  | .write _ | .getSize _ | .read _ | .getNow _ | .clockBeforeEpoch | .flush _ =>
      inferInstanceAs (Decidable True)

def channelAfter (shell : Shell) : ConnectionEvent → List Posted
  | .recv (.msg _) => shell.channel.tail
  | _ => shell.channel

/-- One step of a thread. -/
def step (config : ConnectConfig) (shell : Shell) (event : ShellEvent) : Option Shell :=
  match event with
  | .produce content =>
      if shell.recorded = none ∧ shell.isLocked = false ∧ content ≠ [] ∧
          content.length ≤ bufSize then
        let msg : Posted :=
          { id := shell.nextId, message := { mtype := .stdout, content := some content } }
        some
          { shell with
            history := trimHistory shell.history ++ [msg]
            recorded := some msg
            nextId := shell.nextId + 1 }
      else none
  | .enqueue =>
      match shell.recorded with
      | some msg =>
          some
            { shell with
              channel := shell.channel ++ [msg]
              recorded := none
              put := shell.put ++ [msg] }
      | none => none
  | .respond content =>
      let msg : Posted :=
        { id := shell.nextId, message := { mtype := .command, content := some content } }
      some
        { shell with
          channel := shell.channel ++ [msg]
          put := shell.put ++ [msg]
          nextId := shell.nextId + 1 }
  | .connect =>
      match shell.connection with
      | some _ => none
      | none => some { shell with connection := some .start }
  | .handle event =>
      if shell.Allows event then do
        let connection ← shell.connection
        let next ← connection.step config event
        some { shell with connection := some next, channel := shell.channelAfter event }
      else none
  | .disconnect =>
      match shell.connection with
      | some connection =>
          if connection.control = .returned then
            some { shell with connection := none, past := shell.past ++ connection.sent }
          else none
      | none => none

/-- What a step does, one case for each kind of event. -/
inductive Step (config : ConnectConfig) (shell : Shell) : ShellEvent → Shell → Prop where
  | produce {content : Bytes} (nothingRecorded : shell.recorded = none)
      (unlocked : shell.isLocked = false) :
      Step config shell (.produce content)
        { shell with
          history := trimHistory shell.history ++
            [{ id := shell.nextId, message := { mtype := .stdout, content := some content } }]
          recorded := some
            { id := shell.nextId, message := { mtype := .stdout, content := some content } }
          nextId := shell.nextId + 1 }
  | enqueue {msg : Posted} (recorded : shell.recorded = some msg) :
      Step config shell .enqueue
        { shell with
          channel := shell.channel ++ [msg], recorded := none, put := shell.put ++ [msg] }
  | respond {content : Bytes} :
      Step config shell (.respond content)
        { shell with
          channel := shell.channel ++
            [{ id := shell.nextId, message := { mtype := .command, content := some content } }]
          put := shell.put ++
            [{ id := shell.nextId, message := { mtype := .command, content := some content } }]
          nextId := shell.nextId + 1 }
  | connect (disconnected : shell.connection = none) :
      Step config shell .connect { shell with connection := some .start }
  | handle {event : ConnectionEvent} {connection next : Connection}
      (connected : shell.connection = some connection) (allowed : shell.Allows event)
      (taken : connection.step config event = some next) :
      Step config shell (.handle event)
        { shell with connection := some next, channel := shell.channelAfter event }
  | disconnect {connection : Connection} (connected : shell.connection = some connection)
      (returned : connection.control = .returned) :
      Step config shell .disconnect
        { shell with connection := none, past := shell.past ++ connection.sent }

section Step

variable {config : ConnectConfig} {shell next : Shell} {event : ShellEvent}

theorem step_spec (taken : shell.step config event = some next) :
    Step config shell event next := by
  cases event with
  | produce content =>
      simp only [step, Option.ite_none_right_eq_some, Option.some.injEq] at taken
      rcases taken with ⟨⟨nothingRecorded, unlocked, _⟩, rfl⟩
      exact .produce nothingRecorded unlocked
  | enqueue =>
      cases recorded : shell.recorded with
      | none => simp [step, recorded] at taken
      | some msg =>
          simp only [step, recorded, Option.some.injEq] at taken
          rw [← taken]
          exact .enqueue recorded
  | respond content =>
      simp only [step, Option.some.injEq] at taken
      rw [← taken]
      exact .respond
  | connect =>
      cases connection : shell.connection with
      | some _ => simp [step, connection] at taken
      | none =>
          simp only [step, connection, Option.some.injEq] at taken
          rw [← taken]
          exact .connect connection
  | handle event =>
      simp only [step, Option.ite_none_right_eq_some, Option.bind_eq_bind,
        Option.bind_eq_some_iff, Option.some.injEq] at taken
      rcases taken with ⟨allowed, connection, connected, handled, taken, rfl⟩
      exact .handle connected allowed taken
  | disconnect =>
      cases connected : shell.connection with
      | none => simp [step, connected] at taken
      | some connection =>
          simp only [step, connected, Option.ite_none_right_eq_some, Option.some.injEq] at taken
          rcases taken with ⟨returned, rfl⟩
          exact .disconnect connected returned

end Step

end Shell

/-- What a connection has sent, and what it still has to send. -/
def Connection.line (connection : Connection) : List Posted :=
  postedOf connection.sent ++ connection.control.pending

def Control.isBeforeReplay : Control → Bool
  | .header | .getSize | .size _ | .lockHistory => true
  | _ => false

namespace Control

@[simp]
theorem pending_replayAll (msgs : List Posted) : (replayAll msgs).pending = msgs := by
  cases msgs <;> rfl

@[simp]
theorem isBeforeReplay_replayAll (msgs : List Posted) :
    (replayAll msgs).isBeforeReplay = false := by
  cases msgs <;> rfl

/-- What has been sent is no longer to be sent. -/
theorem pending_afterSend_ok {control : Control} {sent : Sent}
    (sends : control.sending = some sent) (n : ℕ) :
    postedOf [sent] ++ (control.afterSend (.ok n)).pending = control.pending := by
  cases control with
  | replay msg rest =>
      cases sends
      exact congrArg (msg :: ·) (pending_replayAll rest)
  | _ => cases sends <;> rfl

/-- After a failure the same message is to be sent, or none. -/
theorem pending_afterSend_error (control : Control) (kind : ErrorKind) :
    (control.afterSend (.error kind)).pending.Sublist control.pending := by
  cases control <;> cases kind <;> simp [afterSend, pending]

theorem beforeReplay_of_afterSend {control : Control} {sent : Sent}
    {result : Except ErrorKind ℕ} (sends : control.sending = some sent)
    (before : (control.afterSend result).isBeforeReplay = true) :
    control.isBeforeReplay = true ∧ postedOf [sent] = [] := by
  cases control with
  | replay msg rest =>
      cases result with
      | error kind => cases kind <;> cases before
      | ok n => simp [afterSend] at before
  | header | size => cases sends; exact ⟨rfl, rfl⟩
  | _ =>
      cases sends <;> cases result with
      | error kind => cases kind <;> cases before
      | ok n => cases before

@[simp]
theorem replaying_replayAll (msgs : List Posted) : (replayAll msgs).replaying = msgs := by
  cases msgs <;> rfl

theorem mem_pending {control : Control} {msg : Posted} (mem : msg ∈ control.pending) :
    msg ∈ control.replaying ∨ control = .send msg := by
  cases control with
  | replay first rest => exact .inl mem
  | send held => exact .inr (by rw [List.mem_singleton.mp mem])
  | _ => cases mem

theorem replaying_eq_nil {control : Control} (nothing : control.pending = []) :
    control.replaying = [] := by
  cases control with
  | replay msg rest => cases nothing
  | _ => rfl

theorem ne_send_of_pending {control : Control} (nothing : control.pending = []) (msg : Posted) :
    control ≠ .send msg := by
  rintro rfl
  cases nothing

theorem replaying_afterSend (control : Control) (result : Except ErrorKind ℕ) :
    (control.afterSend result).replaying.Sublist control.replaying := by
  cases control with
  | replay msg rest =>
      cases result with
      | ok n =>
          rw [afterSend, replaying_replayAll]
          exact List.sublist_cons_self msg rest
      | error kind => exact List.nil_sublist _
  | _ =>
      cases result with
      | ok n => exact List.nil_sublist _
      | error kind => cases kind <;> exact List.nil_sublist _

theorem eq_send_of_afterSend {control : Control} {result : Except ErrorKind ℕ} {msg : Posted}
    (holds : control.afterSend result = .send msg) : control = .send msg := by
  cases control with
  | replay first rest =>
      cases result with
      | ok n => cases rest <;> cases holds
      | error kind => cases holds
  | send held =>
      cases result with
      | ok n => cases holds
      | error kind =>
          cases kind with
          | wouldBlock => exact holds
          | other => cases holds
  | _ => cases result <;> cases holds

end Control

@[simp]
theorem postedOf_append (sent sent' : List Sent) :
    postedOf (sent ++ sent') = postedOf sent ++ postedOf sent' := by
  simp [postedOf]

namespace Connection

section Line

variable {config : ConnectConfig} {connection next : Connection} {event : ConnectionEvent}

theorem line_of_send {sent : Sent} {result : Except ErrorKind ℕ}
    (sends : connection.control.sending = some sent)
    (taken : connection.send config sent result = some next) :
    next.line.Sublist connection.line := by
  rcases send_cases taken with ⟨n, _, rfl⟩ | ⟨kind, _, rfl⟩
  · simp only [line, postedOf_append, List.append_assoc, Control.pending_afterSend_ok sends]
    exact List.Sublist.refl _
  · exact (Control.pending_afterSend_error _ kind).append_left _

theorem control_read (config : ConnectConfig) (connection : Connection)
    (result : Except ErrorKind Bytes) :
    (connection.read config result).control.pending = [] ∧
      (connection.read config result).control.isBeforeReplay = false := by
  unfold Connection.read
  split <;> exact ⟨rfl, rfl⟩

theorem control_checkKeepAlive (config : ConnectConfig) (connection : Connection) (now : ℕ) :
    (connection.checkKeepAlive config now).pending = [] ∧
      (connection.checkKeepAlive config now).isBeforeReplay = false := by
  unfold checkKeepAlive
  split
  · exact ⟨rfl, rfl⟩
  · split
    · exact ⟨rfl, rfl⟩
    · split <;> exact ⟨rfl, rfl⟩

/-- A step takes messages to send from the history or the channel, or takes none. -/
theorem line_of_step (taken : connection.step config event = some next) :
    match event with
    | .lockHistory history => next.line = connection.line ++ history
    | .recv (.msg msg) => next.line = connection.line ++ [msg]
    | _ => next.line.Sublist connection.line := by
  cases step_spec taken with
  | write sends taken => exact line_of_send sends taken
  | lockHistory control =>
      simp only [line, Control.pending_replayAll, control]
      simp [Control.pending]
  | recv control => simp [line, control, Control.pending]
  | read control =>
      simp [line, accepted_read, control_read]
  | getNow control =>
      simp [line, control_checkKeepAlive]
  | _ => simp [line, Control.pending]

/-- Nothing of the history or the channel is written before the replay starts. -/
theorem beforeReplay_of_step (taken : connection.step config event = some next)
    (before : next.control.isBeforeReplay = true) :
    connection.control.isBeforeReplay = true ∧ postedOf next.sent = postedOf connection.sent := by
  cases step_spec taken with
  | write sends taken =>
      rcases send_cases taken with ⟨n, _, rfl⟩ | ⟨kind, _, rfl⟩
      · rcases Control.beforeReplay_of_afterSend sends before with ⟨was, nothing⟩
        simp [was, nothing]
      · exact ⟨(Control.beforeReplay_of_afterSend sends before).1, rfl⟩
  | getSize control => simp [control, Control.isBeforeReplay]
  | noSize control => simp [control, Control.isBeforeReplay]
  | lockHistory control => simp at before
  | read control => simp [control_read] at before
  | getNow control => simp [control_checkKeepAlive] at before
  | _ => simp [Control.isBeforeReplay] at before

theorem sent_prefix_of_step (taken : connection.step config event = some next) :
    connection.sent <+: next.sent := by
  cases step_spec taken with
  | write sends taken =>
      rcases send_cases taken with ⟨n, _, rfl⟩ | ⟨kind, _, rfl⟩
      · exact List.prefix_append _ _
      · exact List.prefix_refl _
  | read control => simp [accepted_read]
  | _ => exact List.prefix_refl _

/-- A message being forwarded is written, or held for a retry, or its write has failed. -/
theorem send_of_step {msg : Posted} (control : connection.control = .send msg)
    (taken : connection.step config event = some next) :
    next.control = .send msg ∨ msg ∈ postedOf next.sent ∨ event = .write (.error .other) := by
  cases step_spec taken with
  | write sends taken =>
      rw [control] at sends
      cases sends
      rcases send_cases taken with ⟨n, _, rfl⟩ | ⟨kind, rfl, rfl⟩
      · right
        left
        simp [postedOf, Sent.posted?]
      · cases kind with
        | wouldBlock => exact .inl (by rw [control]; rfl)
        | other => exact .inr (.inr rfl)
  | _ other => rw [control] at other; cases other

/-- The connection ends when the write of a message being forwarded fails for good. -/
theorem returned_of_failed {msg : Posted} (control : connection.control = .send msg)
    (content : msg.message.content.isSome)
    (taken : connection.step config (.write (.error .other)) = some next) :
    next.control = .returned ∧ next.sent = connection.sent := by
  cases step_spec taken with
  | write sends taken =>
      rw [control] at sends
      cases sends
      rcases send_cases taken with ⟨n, noFrame | written, rfl⟩ | ⟨kind, failed, rfl⟩
      · rw [Sent.frame, encodedContent, Option.map_eq_none_iff] at noFrame
        simp [noFrame] at content
      · cases written
      · cases failed
        exact ⟨by rw [control]; rfl, rfl⟩

/-- A replay goes through the messages of the history it has locked. -/
theorem replaying_of_step (taken : connection.step config event = some next) :
    next.control.replaying.Sublist connection.control.replaying ∨
      event = .lockHistory next.control.replaying := by
  cases step_spec taken with
  | write sends taken =>
      left
      rcases send_cases taken with ⟨n, _, rfl⟩ | ⟨kind, _, rfl⟩ <;>
        exact Control.replaying_afterSend _ _
  | lockHistory control =>
      right
      simp
  | read control =>
      left
      rw [Control.replaying_eq_nil (control_read _ _ _).1]
      exact List.nil_sublist _
  | getNow control =>
      left
      rw [Control.replaying_eq_nil (control_checkKeepAlive _ _ _).1]
      exact List.nil_sublist _
  | _ => exact .inl (List.nil_sublist _)

/-- The message being forwarded was held before, or comes from the channel. -/
theorem held_of_step {msg : Posted} (taken : connection.step config event = some next)
    (holds : next.control = .send msg) :
    connection.control = .send msg ∨ event = .recv (.msg msg) := by
  cases step_spec taken with
  | write sends taken =>
      left
      rcases send_cases taken with ⟨n, _, rfl⟩ | ⟨kind, _, rfl⟩ <;>
        exact Control.eq_send_of_afterSend holds
  | recv control =>
      cases holds
      exact .inr rfl
  | lockHistory control =>
      rename_i history
      cases history <;> cases holds
  | read control => exact absurd holds (Control.ne_send_of_pending (control_read _ _ _).1 msg)
  | getNow control =>
      exact absurd holds (Control.ne_send_of_pending (control_checkKeepAlive _ _ _).1 msg)
  | _ => cases holds

theorem posted_of_step {msg : Posted} (taken : connection.step config event = some next)
    (mem : msg ∈ postedOf next.sent) :
    msg ∈ postedOf connection.sent ∨ msg ∈ connection.control.pending := by
  cases step_spec taken with
  | write sends taken =>
      have inLine : msg ∈ connection.line :=
        (line_of_send sends taken).subset (List.mem_append_left _ mem)
      exact List.mem_append.mp inLine
  | read control =>
      left
      simpa [accepted_read] using mem
  | _ => exact .inl mem

end Line

end Connection

end Hoposhell
