import Hoposhell.RemoteCall
import Hoposhell.TerminalSize
import Mathlib.Data.Prod.Lex
import Mathlib.Order.WellFounded

/-!
# The process of a shell can always go on

Whatever has happened, a process whose threads are alive can still serve the messages it has
taken, and deliver all that it has for the server: none of its states is one in which it waits
for something that cannot come.  It needs an outside that lets it, for which some connection
stays up and its writes succeed; a `restart` among the messages ends it before that.
-/

namespace Hoposhell

/-- How far `handle_connection` is from waiting for the channel. -/
def Control.rank (history : ℕ) : Control → ℕ
  | .returned | .panicked => history + 15
  | .header => history + 13
  | .getSize => history + 12
  | .size _ => history + 11
  | .lockHistory => history + 10
  | .replay _ rest => rest.length + 7
  | .send _ => 6
  | .getNow => 5
  | .keepAlive _ => 4
  | .flush _ => 3
  | .read => 2
  | .recv => 1

theorem Control.rank_afterSend {control : Control} {sent : Sent}
    (sends : control.sending = some sent) (n history : ℕ) :
    (control.afterSend (.ok n)).rank history < control.rank history := by
  cases control with
  | replay msg rest => cases rest <;> simp [afterSend, replayAll, rank]
  | _ => first | cases sends; done | simp [afterSend, rank]

theorem Control.rank_replayAll (msgs : List Posted) :
    (replayAll msgs).rank msgs.length < Control.lockHistory.rank msgs.length := by
  cases msgs <;> simp [replayAll, rank]

theorem Control.going_afterSend {control : Control} {sent : Sent}
    (sends : control.sending = some sent) (n : ℕ) :
    (control.afterSend (.ok n)).isEnded = false := by
  cases control with
  | replay msg rest => cases rest <;> rfl
  | _ => first | rfl | cases sends

theorem Sent.frame_ne_nil {config : ConnectConfig} {sent : Sent} {bytes : Bytes}
    (frame : sent.frame config = some bytes) : bytes ≠ [] := by
  have tagged : ∀ (msg : Message MessageTypeToStream) (text : Bytes),
      encodedContent config.base64 msg = some text → text ≠ [] := by
    intro msg text encoded
    rcases Option.map_eq_some_iff.mp encoded with ⟨content, _, rfl⟩
    intro nothing
    have noTag := (List.append_eq_nil_iff.mp nothing).2
    cases type : msg.mtype <;> rw [type] at noTag <;> exact absurd noTag (by decide)
  cases sent with
  | keepAlive =>
      cases frame
      decide
  | header | size | replayed | forwarded => exact tagged _ _ frame

/-- What a friendly outside returns to a call that does not wait for the channel. -/
def ConnectionEvent.Friendly (history : List Posted) : ConnectionEvent → Prop
  | .write result => result.isOk = true
  | .lockHistory locked => locked = history
  | .read result => result = .error .wouldBlock
  | .getSize size => size.isSome = true
  | .getNow _ => True
  | .flush result => result.isOk = true
  | .recv _ | .clockBeforeEpoch => False

namespace Connection

/-- A step that `handle_connection` makes with the help of the outside alone. -/
structure Moves (config : ConnectConfig) (history : List Posted) (connection : Connection)
    (event : ConnectionEvent) (next : Connection) : Prop where
  taken : connection.step config event = some next
  friendly : event.Friendly history
  nearer : next.control.rank history.length < connection.control.rank history.length
  going : next.control.isEnded = false

variable {config : ConnectConfig} {connection : Connection}

/-- A stream that takes the whole frame lets a write go on. -/
theorem exists_send {sent : Sent} (sends : connection.control.sending = some sent) :
    ∃ written next, connection.step config (.write (.ok written)) = some next ∧
      ∃ n, next.control = connection.control.afterSend (.ok n) := by
  have allowed : sent.frame config = none ∨ WriteContract ((sent.frame config).getD [])
      (.ok ((sent.frame config).getD []).length) := by
    cases frame : sent.frame config with
    | none => exact .inl rfl
    | some bytes =>
        right
        exact ⟨List.length_pos_of_ne_nil (Sent.frame_ne_nil frame), le_rfl⟩
  have taken : connection.step config
      (.write (.ok ((sent.frame config).getD []).length)) =
        connection.send config sent (.ok ((sent.frame config).getD []).length) := by
    unfold step
    cases control : connection.control <;> simp_all [Control.sending]
  rcases send : connection.send config sent (.ok ((sent.frame config).getD []).length) with _ | next
  · rw [Connection.send, if_pos allowed] at send
    cases send
  · refine ⟨_, next, taken.trans send, ?_⟩
    rw [control_of_send send]
    cases sent.frame config with
    | none => exact ⟨0, rfl⟩
    | some bytes => exact ⟨_, rfl⟩

/-- Whatever it does but wait for the channel, `handle_connection` can go on with it. -/
theorem exists_move (history : List Posted) (going : connection.control.isEnded = false)
    (notRecv : connection.control ≠ .recv) :
    ∃ event next, connection.Moves config history event next := by
  cases sends : connection.control.sending with
  | some sent =>
      rcases exists_send sends with ⟨written, next, taken, n, control⟩
      refine ⟨_, next, taken, rfl, ?_, ?_⟩
      · rw [control]
        exact Control.rank_afterSend sends n _
      · rw [control]
        exact Control.going_afterSend sends n
  | none =>
      cases control : connection.control with
      | getSize =>
          refine ⟨.getSize (some (24, 80)),
            { connection with control := .size (makeSizeMessage 24 80) }, ?_, rfl, ?_, rfl⟩
          · simp [step, control]
          · simp [control, Control.rank]
      | lockHistory =>
          refine ⟨.lockHistory history, { connection with control := .replayAll history }, ?_, rfl,
            ?_, Control.isEnded_replayAll history⟩
          · simp [step, control]
          · rw [control]
            exact Control.rank_replayAll history
      | read =>
          refine ⟨.read (.error .wouldBlock), { connection with control := .recv }, ?_, rfl, ?_,
            rfl⟩
          · simp [step, control, Connection.read, readMessagesFromStream]
          · simp [control, Control.rank]
      | getNow =>
          -- a clock that stands still is late enough
          let now := connection.lastKeepAlive.getD 0
          have check : connection.checkKeepAlive config now = .keepAlive now ∨
              connection.checkKeepAlive config now = .read := by
            unfold checkKeepAlive
            cases last : connection.lastKeepAlive with
            | none => exact .inl rfl
            | some lastKeepAlive =>
                by_cases early : 0 < config.keepAliveDelta <;>
                  simp [now, last, elapsedMillis, early]
          refine ⟨.getNow now, { connection with control := connection.checkKeepAlive config now },
            ?_, trivial, ?_, ?_⟩
          · simp [step, control]
          · rcases check with check | check <;> simp [check, control, Control.rank]
          · rcases check with check | check <;> rw [check] <;> rfl
      | flush now =>
          refine ⟨.flush (.ok ()), { connection with control := .read, lastKeepAlive := some now },
            ?_, rfl, ?_, rfl⟩
          · simp [step, control]
          · simp [control, Control.rank]
      | recv => exact absurd control notRecv
      | returned | panicked =>
          rw [control] at going
          cases going
      | _ =>
          rw [control] at sends
          cases sends

end Connection

def Message.IsCommand (message : Message MessageTypeToStream) : Prop :=
  ∃ content, message = { mtype := .command, content := some content }

/-- The stdin thread ends the process when it serves the message. -/
def Message.Restarts (message : Message MessageTypeToCmd) : Prop :=
  message.mtype = .command ∧ (asBytes "restart").isPrefixOf (message.content.getD [])

instance (message : Message MessageTypeToCmd) : Decidable message.Restarts :=
  inferInstanceAs (Decidable (_ ∧ _))

section Serve

variable {json : Json.Codec} {hoposhellFolder : String} {loop next : StdinLoop}
  {event : StdinEvent}

theorem isCommand_of_resize {c : Bytes} {master : MasterPty}
    {sizeMessage : Option (Message MessageTypeToStream)}
    (resized : processResizeCommand c master = .ok sizeMessage) :
    ∀ message ∈ sizeMessage.toList, message.IsCommand := by
  intro message mem
  rw [Option.mem_toList] at mem
  simp only [processResizeCommand] at resized
  split at resized
  · split at resized
    · cases size : master.getSize with
      | none => simp [size, unwrap, bind, Except.bind] at resized
      | some size' =>
          simp only [size, unwrap, bind, Except.bind, Except.ok.injEq] at resized
          rw [← resized] at mem
          cases mem
          exact ⟨_, rfl⟩
    · cases resized
      cases mem
  · cases resized
    cases mem

theorem isCommand_of_response {response : Option Response} :
    ∀ message ∈ response.elim [] Response.messages, message.IsCommand := by
  intro message mem
  cases response with
  | none => cases mem
  | some response =>
      rcases List.mem_map.mp mem with ⟨chunk, _, rfl⟩
      exact ⟨_, rfl⟩

/-- What the loop puts on the channel are `COMMAND` messages. -/
theorem StdinLoop.made_of_step (taken : loop.step json hoposhellFolder event = some next) :
    ∃ made, next.toStream = loop.toStream ++ made ∧ ∀ message ∈ made, message.IsCommand := by
  rcases step_cases taken with ⟨_, _, toStream⟩ | ⟨c, _, rfl⟩
  · exact ⟨[], by simp [toStream], by simp⟩
  · unfold processCommand
    split_ifs
    · exact ⟨[], by simp, by simp⟩
    · cases resized : processResizeCommand c event.master with
      | error panic => exact ⟨[], by simp, by simp⟩
      | ok sizeMessage => exact ⟨_, rfl, isCommand_of_resize resized⟩
    · exact ⟨(loop.commands.processMsg event.handlers json event.zstd c hoposhellFolder).1.elim []
        Response.messages, rfl, isCommand_of_response⟩

/-- A message whose calls to the outside succeed. -/
def servedQuietly (message : Message MessageTypeToCmd) : StdinEvent :=
  { echoEvent "" Zstd.stored with message, master := { resize := false, getSize := none } }

/-- A message that does not end the process can be served, and the loop goes on. -/
theorem StdinLoop.exists_step (running : loop.status = .running)
    {message : Message MessageTypeToCmd} (goesOn : ¬message.Restarts) :
    ∃ next, loop.step json hoposhellFolder (servedQuietly message) = some next ∧
      next.status = .running := by
  rcases message with ⟨mtype, content⟩
  cases content with
  | none =>
      refine ⟨loop, ?_, running⟩
      cases mtype <;> simp [step, running, servedQuietly]
  | some content =>
      cases mtype with
      | stdin =>
          refine ⟨{ loop with stdin := loop.stdin ++ content.take 0 }, ?_, running⟩
          simp [step, running, servedQuietly, echoEvent]
      | command =>
          let event := servedQuietly { mtype := .command, content := some content }
          refine ⟨loop.processCommand json hoposhellFolder event content, ?_, ?_⟩
          · simp [step, running, servedQuietly, event]
          · have notRestart : ¬(asBytes "restart").isPrefixOf content = true :=
              fun restart => goesOn ⟨rfl, restart⟩
            have quiet : processResizeCommand content event.master = .ok none := by
              simp [processResizeCommand_eq, event, servedQuietly]
            rw [processCommand, if_neg notRestart]
            split_ifs
            · simp [quiet, send, running]
            · simp [send, running]

end Serve

namespace ConnectProcess

variable {config : ProcessConfig} {process next : ConnectProcess} {event : ProcessEvent}

/-- What the threads of a process leave behind. -/
structure Sound (process : ConnectProcess) : Prop where
  poisoned : process.masterPoisoned = true → process.stdin.status = .panicked
  control : process.status = .running →
    ∀ connection, process.shell.connection = some connection → connection.control ≠ .panicked
  outbox : ∀ message ∈ process.outbox, message.IsCommand

theorem running_of_step (taken : process.step config event = some next) :
    process.status = .running := by
  simp only [step, Option.ite_none_right_eq_some] at taken
  exact taken.1

theorem sound_start : start.Sound where
  poisoned := by simp [start]
  control := by simp [start, Shell.start]
  outbox := by simp [start]

theorem Sound.step (sound : process.Sound) (taken : process.step config event = some next) :
    next.Sound := by
  have running := running_of_step taken
  cases step_spec taken with
  | produce part | enqueue part =>
      cases Shell.step_spec part
      exact ⟨sound.poisoned, sound.control, sound.outbox⟩
  | respond isNext part =>
      cases Shell.step_spec part
      exact ⟨sound.poisoned, sound.control, fun message mem =>
        sound.outbox message (List.mem_of_mem_tail mem)⟩
  | serve canTake part =>
      rcases StdinLoop.made_of_step part with ⟨made, put, commands⟩
      refine ⟨?_, fun _ => sound.control running, ?_⟩
      · intro poisoned
        exact (of_decide_eq_true poisoned).1
      · rw [put, List.drop_left]
        exact commands
  | connect part =>
      cases Shell.step_spec part
      refine ⟨sound.poisoned, fun _ connection same => ?_, sound.outbox⟩
      cases same
      simp [Connection.start]
  | handle connected part =>
      refine ⟨sound.poisoned, fun isRunning connection same panicked => ?_, sound.outbox⟩
      simp only at same isRunning
      simp [same, panicked] at isRunning
  | disconnect part =>
      cases Shell.step_spec part
      refine ⟨sound.poisoned, fun _ connection same => ?_, sound.outbox⟩
      cases same
  | commandDied | setupFailed =>
      refine ⟨sound.poisoned, fun isRunning => ?_, sound.outbox⟩
      cases isRunning
  | connectFailed | commandPanics => exact ⟨sound.poisoned, sound.control, sound.outbox⟩

/-- Its threads are alive, and what was for the server has been forwarded or still will be. -/
structure Draining (flow : List Posted) (process : ConnectProcess) : Prop where
  running : process.status = .running
  alive : process.stdinAlive = true
  stdin : process.stdin.status = .running
  goesOn : ∀ message ∈ process.toCmd, ¬message.Restarts
  sound : process.Sound
  consistent : process.shell.Consistent
  onItsWay : flow <+: process.shell.flow

/-- What is left to do: for the command, for the server, and on the connection. -/
def distance (process : ConnectProcess) : ℕ ×ₗ ℕ ×ₗ ℕ ×ₗ ℕ :=
  let history := process.shell.history.length
  toLex (process.toCmd.length, toLex (process.outbox.length, toLex (process.shell.channel.length,
    process.shell.connection.elim (history + 14) (·.control.rank history))))

/-- The process can make a step that leaves it less to do. -/
def GoesOn (config : ProcessConfig) (flow : List Posted) (process : ConnectProcess) : Prop :=
  ∃ event next, process.step config event = some next ∧ next.Draining flow ∧
    next.distance < process.distance

theorem offers_of_unpoisoned (unpoisoned : process.masterPoisoned = false)
    (event : ConnectionEvent) : process.Offers event := by
  cases event with
  | getSize size =>
      cases size with
      | none => trivial
      | some size => exact unpoisoned
  | _ => trivial

namespace Draining

variable {flow : List Posted}

theorem unpoisoned (draining : process.Draining flow) : process.masterPoisoned = false := by
  cases poisoned : process.masterPoisoned with
  | false => rfl
  | true =>
      have panicked := draining.sound.poisoned poisoned
      rw [draining.stdin] at panicked
      cases panicked

/-- What was for the server stays on its way unless a write fails. -/
theorem flow_of_step (draining : process.Draining flow) {shell : Shell} {event : ShellEvent}
    (part : process.shell.step config.connect event = some shell)
    (noFailure : event ≠ .handle (.write (.error .other))) : flow <+: shell.flow := by
  rcases Shell.flow_of_step draining.consistent part with
    ⟨added, nextFlow, _⟩ | ⟨msg, front, failed, _⟩
  · rw [nextFlow]
    exact draining.onItsWay.trans (List.prefix_append _ _)
  · exact absurd failed noFailure

/-- A message of the channel to the command is served. -/
theorem serve (draining : process.Draining flow) {message : Message MessageTypeToCmd}
    {rest : List (Message MessageTypeToCmd)} (outbox : process.outbox = [])
    (toCmd : process.toCmd = message :: rest) : GoesOn config flow process := by
  have goesOn : ¬message.Restarts := draining.goesOn message (by simp [toCmd])
  have served : ∃ stdin,
      process.stdin.step config.json config.hoposhellFolder (servedQuietly message) = some stdin ∧
        stdin.status = .running :=
    StdinLoop.exists_step draining.stdin goesOn
  rcases served with ⟨stdin, part, running⟩
  have canTake : process.CanTake (servedQuietly message).message :=
    ⟨draining.alive, outbox, by simp [toCmd, servedQuietly]⟩
  have taken : process.step config (.serve (servedQuietly message)) = some
      { process with
        stdin
        toCmd := rest
        outbox := stdin.toStream.drop process.stdin.toStream.length
        masterPoisoned := false } := by
    rw [step, if_pos draining.running]
    simp [canTake, part, running, toCmd, draining.running]
  refine ⟨_, _, taken, { draining with
    stdin := running
    goesOn := fun message mem => draining.goesOn message (by simp [toCmd, mem])
    sound := draining.sound.step taken }, ?_⟩
  rw [distance, distance, Prod.Lex.toLex_lt_toLex]
  left
  simp [toCmd]

/-- A message of the stdin thread is put on the channel to the stream. -/
theorem respond (draining : process.Draining flow) {message : Message MessageTypeToStream}
    {rest : List (Message MessageTypeToStream)} (outbox : process.outbox = message :: rest) :
    GoesOn config flow process := by
  rcases draining.sound.outbox message (by simp [outbox]) with ⟨content, rfl⟩
  rcases part : process.shell.step config.connect (.respond content) with _ | shell
  · cases part
  · have taken : process.step config (.respond content) =
        some { process with shell, outbox := rest } := by
      rw [step, if_pos draining.running]
      simp [outbox, part]
    refine ⟨_, _, taken, { draining with
      sound := draining.sound.step taken
      consistent := draining.consistent.step part
      onItsWay := draining.flow_of_step part (by simp) }, ?_⟩
    rw [distance, distance, Prod.Lex.toLex_lt_toLex]
    right
    refine ⟨rfl, ?_⟩
    rw [Prod.Lex.toLex_lt_toLex]
    left
    simp [outbox]

/-- A connection is opened. -/
theorem connect (draining : process.Draining flow)
    (disconnected : process.shell.connection = none) : GoesOn config flow process := by
  have part : process.shell.step config.connect .connect =
      some { process.shell with connection := some .start } := by
    simp [Shell.step, disconnected]
  have taken : process.step config .connect =
      some { process with shell := { process.shell with connection := some .start } } := by
    rw [step, if_pos draining.running]
    simp [part]
  refine ⟨_, _, taken, { draining with
    sound := draining.sound.step taken
    consistent := draining.consistent.step part
    onItsWay := draining.flow_of_step part (by simp) }, ?_⟩
  simp [distance, Prod.Lex.toLex_lt_toLex, disconnected, Connection.start, Control.rank]

/-- A connection that has returned is left behind. -/
theorem disconnect (draining : process.Draining flow) (reconnects : config.autoReconnect = true)
    {connection : Connection} (connected : process.shell.connection = some connection)
    (returned : connection.control = .returned) : GoesOn config flow process := by
  have part : process.shell.step config.connect .disconnect = some
      { process.shell with
        connection := none, past := process.shell.past ++ connection.sent } := by
    simp [Shell.step, connected, returned]
  have taken : process.step config .disconnect = some
      { process with
        shell :=
          { process.shell with
            connection := none, past := process.shell.past ++ connection.sent } } := by
    rw [step, if_pos draining.running]
    simp [part, reconnects, draining.running]
  refine ⟨_, _, taken, { draining with
    sound := draining.sound.step taken
    consistent := draining.consistent.step part
    onItsWay := draining.flow_of_step part (by simp) }, ?_⟩
  simp [distance, Prod.Lex.toLex_lt_toLex, connected, returned, Control.rank]

/-- `handle_connection` makes a step that delivers nothing. -/
theorem handle (draining : process.Draining flow) {connection nextConnection : Connection}
    {event : ConnectionEvent} (connected : process.shell.connection = some connection)
    (allowed : process.shell.Allows event)
    (handled : connection.step config.connect event = some nextConnection)
    (noFailure : event ≠ .write (.error .other))
    (delivers : connection.delivers config.connect event = [])
    (going : nextConnection.control ≠ .panicked)
    (nearer : toLex ((process.shell.channelAfter event).length,
        nextConnection.control.rank process.shell.history.length) <
      toLex (process.shell.channel.length,
        connection.control.rank process.shell.history.length)) :
    GoesOn config flow process := by
  have part : process.shell.step config.connect (.handle event) = some
      { process.shell with
        connection := some nextConnection, channel := process.shell.channelAfter event } := by
    simp [Shell.step, allowed, connected, handled]
  have taken : process.step config (.handle event) = some
      { process with
        shell :=
          { process.shell with
            connection := some nextConnection, channel := process.shell.channelAfter event } } := by
    rw [step, if_pos draining.running]
    simp [offers_of_unpoisoned draining.unpoisoned event, connected, part, delivers, going,
      draining.running]
  refine ⟨_, _, taken, { draining with
    sound := draining.sound.step taken
    consistent := draining.consistent.step part
    onItsWay := draining.flow_of_step part (by simpa using noFailure) }, ?_⟩
  simp only [distance, connected, Option.elim_some, Prod.Lex.toLex_lt_toLex, lt_self_iff_false,
    true_and, false_or]
  simpa only [Prod.Lex.toLex_lt_toLex] using nearer

/-- `handle_connection` goes on by itself, or with the next message of the channel. -/
theorem goOn (draining : process.Draining flow) (reconnects : config.autoReconnect = true)
    {connection : Connection} (connected : process.shell.connection = some connection)
    (left : connection.control = .recv → process.shell.channel ≠ []) :
    GoesOn config flow process := by
  by_cases recv : connection.control = .recv
  · cases channel : process.shell.channel with
    | nil => exact absurd channel (left recv)
    | cons msg rest =>
        have handled : connection.step config.connect (.recv (.msg msg)) =
            some { connection with control := .send msg } := by
          simp [Connection.step, recv]
        apply draining.handle connected _ handled (by simp) rfl (by simp)
        · rw [Prod.Lex.toLex_lt_toLex]
          left
          simp [Shell.channelAfter, channel]
        · simp [Shell.Allows, channel]
  · cases ended : connection.control.isEnded with
    | true =>
        have notPanicked := draining.sound.control draining.running connection connected
        apply draining.disconnect reconnects connected
        cases control : connection.control <;> simp_all [Control.isEnded]
    | false =>
        have move : ∃ event next,
            connection.Moves config.connect process.shell.history event next :=
          Connection.exists_move process.shell.history ended recv
        rcases move with ⟨event, next, moves⟩
        have friendly := moves.friendly
        have channel : process.shell.channelAfter event = process.shell.channel := by
          cases event with
          | recv => exact friendly.elim
          | _ => rfl
        apply draining.handle connected _ moves.taken
        · rintro rfl
          cases friendly
        · cases event with
          | read result =>
              rw [ConnectionEvent.Friendly] at friendly
              rw [friendly]
              rfl
          | _ => rfl
        · intro panicked
          have going := moves.going
          rw [panicked] at going
          cases going
        · rw [channel, Prod.Lex.toLex_lt_toLex]
          exact .inr ⟨rfl, moves.nearer⟩
        · cases event with
          | recv => exact friendly.elim
          | lockHistory history => exact friendly
          | _ => trivial

/-- Short of being settled, the process can go on. -/
theorem goesOn_or_settled (draining : process.Draining flow)
    (reconnects : config.autoReconnect = true) (unsettled : ¬process.Settled) :
    GoesOn config flow process := by
  cases outbox : process.outbox with
  | cons message rest => exact draining.respond outbox
  | nil =>
      cases toCmd : process.toCmd with
      | cons message rest => exact draining.serve outbox toCmd
      | nil =>
          cases connected : process.shell.connection with
          | none => exact draining.connect connected
          | some connection =>
              apply draining.goOn reconnects connected
              intro recv empty
              refine unsettled ⟨draining.alive, toCmd, outbox, ?_, empty⟩
              rw [Shell.held_eq connected, recv]
              rfl

end Draining

end ConnectProcess

/-- A message is being forwarded when the request is read; the answer to it is still to come. -/
def busyRun : List ProcessEvent :=
  [.connect, .handle (.write (.ok 12)), .handle (.getSize (some (24, 80))),
    .handle (.write (.ok 24)), .handle (.lockHistory []),
    .handle (.read (.ok (echoFrame.bytes Base64.standard))), .produce [120], .enqueue,
    .handle (.recv (.msg { id := 0, message := { mtype := .stdout, content := some [120] } })),
    .handle (.write (.error .wouldBlock))]

end Hoposhell
