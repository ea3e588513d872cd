import Hoposhell.Progress

/-!
# What ends the process of a shell

Losing a connection does not, nor does anything else that the calls of `handle_connection`
return, as long as the server writes frames, the clock does not go back and the terminal tells
its size.  The process then ends only when it is told to restart, when its command has died,
when a stream cannot be set up, or when it has lost a connection and is not to reconnect.
-/

namespace Hoposhell

namespace Connection

/-- What the calls of a connection return is what `handle_connection` can go on with. -/
structure Benign (config : ConnectConfig) (events : List ConnectionEvent) : Prop where
  frames : ∃ frames : List Frame,
    (readData events).flatten <+: frames.flatMap (Frame.bytes config.base64)
  clock : (clockReadings events).Pairwise (· ≤ ·)
  epoch : .clockBeforeEpoch ∉ events
  size : .getSize none ∉ events

/-- Nothing that is still to come makes the connection panic. -/
structure Calm (config : ConnectConfig) (connection : Connection) (events : List ConnectionEvent) :
    Prop where
  notPanicked : connection.control ≠ .panicked
  decodes : Decodes config connection events
  past : ∀ instant ∈ connection.lastKeepAlive, ∀ now ∈ clockReadings events, instant ≤ now
  current : ∀ instant ∈ connection.control.keptAlive none, ∀ now ∈ clockReadings events,
    instant ≤ now
  clock : (clockReadings events).Pairwise (· ≤ ·)
  epoch : .clockBeforeEpoch ∉ events
  size : .getSize none ∉ events

section Calm

variable {config : ConnectConfig} {connection next : Connection} {event : ConnectionEvent}
  {events : List ConnectionEvent}

theorem calm_start (lawful : config.base64.Lawful) (benign : Benign config events) :
    Connection.start.Calm config events where
  notPanicked := by simp [start]
  decodes := by
    rcases benign.frames with ⟨frames, rest, whole⟩
    exact decodes_start lawful whole
  past := by simp [start]
  current := by simp [start, Control.keptAlive]
  clock := benign.clock
  epoch := benign.epoch
  size := benign.size

theorem mem_clockReadings_cons {now : ℕ} (mem : now ∈ clockReadings events) :
    now ∈ clockReadings (event :: events) := by
  rw [clockReadings, List.filterMap_cons]
  cases event.reading? with
  | none => exact mem
  | some reading => exact List.mem_cons_of_mem reading mem

/-- A step that does not panic, and remembers no other instant than those known and its own. -/
theorem Calm.of_step (calm : connection.Calm config (event :: events))
    (taken : connection.step config event = some next)
    (notPanicked : next.control ≠ .panicked)
    (past : ∀ instant ∈ next.lastKeepAlive, instant ∈ connection.lastKeepAlive ∨
      instant ∈ connection.control.keptAlive none)
    (current : ∀ instant ∈ next.control.keptAlive none,
      instant ∈ connection.control.keptAlive none ∨ event.reading? = some instant) :
    next.Calm config events where
  notPanicked := notPanicked
  decodes := decodes_of_step calm.decodes taken
  past instant isPast now mem := by
    rcases past instant isPast with before | before
    · exact calm.past instant before now (mem_clockReadings_cons mem)
    · exact calm.current instant before now (mem_clockReadings_cons mem)
  current instant isCurrent now mem := by
    rcases current instant isCurrent with before | reading
    · exact calm.current instant before now (mem_clockReadings_cons mem)
    · have clock := calm.clock
      rw [clockReadings, List.filterMap_cons_some reading, List.pairwise_cons] at clock
      exact clock.1 now mem
  clock := calm.clock.sublist ((List.sublist_cons_self event events).filterMap _)
  epoch mem := calm.epoch (List.mem_cons_of_mem event mem)
  size mem := calm.size (List.mem_cons_of_mem event mem)

theorem checkKeepAlive_ne_panicked {now : ℕ}
    (later : ∀ instant ∈ connection.lastKeepAlive, instant ≤ now) :
    connection.checkKeepAlive config now ≠ .panicked := by
  intro panicked
  have ended : (connection.checkKeepAlive config now).isEnded = true := by
    rw [panicked]
    rfl
  rw [ended_of_checkKeepAlive_iff] at ended
  exact ended fun _ => later

theorem read_ne_panicked {result : Except ErrorKind Bytes}
    (decodes : Decodes config connection (.read result :: events)) :
    (connection.read config result).control ≠ .panicked := by
  cases result with
  | error kind => cases kind <;> simp [Connection.read, readMessagesFromStream]
  | ok data =>
      by_cases empty : data = []
      · simp [Connection.read, readMessagesFromStream, empty]
      · rcases decodes_read empty decodes with ⟨separated, _, readEq, _⟩
        simp [readEq]

theorem keptAlive_afterSend_error (control : Control) (kind : ErrorKind) :
    (control.afterSend (.error kind)).keptAlive none = none := by
  cases control <;> cases kind <;> rfl

theorem afterSend_ne_panicked {control : Control} {sent : Sent}
    (sends : control.sending = some sent) (result : Except ErrorKind ℕ) :
    control.afterSend result ≠ .panicked := by
  intro panicked
  cases result with
  | ok n =>
      have going := isEnded_afterSend_ok sends n
      rw [panicked] at going
      cases going
  | error kind => cases control <;> cases kind <;> cases panicked

theorem instants_read (config : ConnectConfig) (connection : Connection)
    (result : Except ErrorKind Bytes) :
    (connection.read config result).lastKeepAlive = connection.lastKeepAlive ∧
      (connection.read config result).control.keptAlive none = none := by
  unfold Connection.read
  split <;> exact ⟨rfl, rfl⟩

theorem Calm.step (calm : connection.Calm config (event :: events))
    (taken : connection.step config event = some next) : next.Calm config events := by
  cases step_spec taken with
  | write sends written =>
      rcases send_cases written with ⟨n, _, rfl⟩ | ⟨kind, _, rfl⟩
      · apply calm.of_step taken (afterSend_ne_panicked sends _) (fun _ => .inl)
        intro instant isCurrent
        rw [Control.keptAlive_afterSend_ok sends n] at isCurrent
        exact .inl isCurrent
      · apply calm.of_step taken (afterSend_ne_panicked sends _) (fun _ => .inl)
        intro instant isCurrent
        simp [keptAlive_afterSend_error] at isCurrent
  | @lockHistory history control =>
      apply calm.of_step taken _ (fun _ => .inl)
      · intro instant isCurrent
        simp [Control.keptAlive_replayAll] at isCurrent
      · cases history <;> simp [Control.replayAll]
  | @read result control =>
      have instants := instants_read config connection result
      apply calm.of_step taken (read_ne_panicked calm.decodes)
      · intro instant isPast
        rw [instants.1] at isPast
        exact .inl isPast
      · intro instant isCurrent
        rw [instants.2] at isCurrent
        cases isCurrent
  | @getNow now control =>
      have later : ∀ instant ∈ connection.lastKeepAlive, instant ≤ now := by
        intro instant isPast
        exact calm.past instant isPast now (by simp [clockReadings, ConnectionEvent.reading?])
      apply calm.of_step taken (checkKeepAlive_ne_panicked later) (fun _ => .inl)
      intro instant isCurrent
      right
      rcases checkKeepAlive_cases config connection now with ⟨_, check⟩ | ⟨_, check | check⟩
      · simpa [check, Control.keptAlive, ConnectionEvent.reading?] using isCurrent
      · simp [check, Control.keptAlive] at isCurrent
      · simp [check, Control.keptAlive] at isCurrent
  | @flushed now control =>
      apply calm.of_step taken (by simp)
      · intro instant isPast
        right
        rw [control]
        exact isPast
      · intro instant isCurrent
        cases isCurrent
  | getSize control | recv control | timeout control | disconnected control
  | notFlushed control =>
      apply calm.of_step taken (by simp) (fun _ => .inl)
      intro instant isCurrent
      cases isCurrent
  | noSize control => exact absurd List.mem_cons_self calm.size
  | clockBeforeEpoch control => exact absurd List.mem_cons_self calm.epoch

end Calm

/-- Whatever else its calls return, the connection goes on or returns. -/
theorem ne_panicked_of_benign {config : ConnectConfig} {connection : Connection}
    {events : List ConnectionEvent} (lawful : config.base64.Lawful)
    (benign : Benign config events)
    (reaches : Transition.run (Connection.step config) .start events = some connection) :
    connection.control ≠ .panicked := by
  have kept : ∀ (connection : Connection) event events next,
      connection.Calm config (event :: events) → connection.step config event = some next →
      next.Calm config events :=
    fun _ _ _ _ calm taken => calm.step taken
  have calm : connection.Calm config [] :=
    Transition.run_ahead kept (calm_start lawful benign) reaches
  exact calm.notPanicked

end Connection

namespace ProcessEvent

/-- The call of `handle_connection` that an event is. -/
def handled? : ProcessEvent → Option ConnectionEvent
  | .handle event => some event
  | _ => none

theorem mem_of_mem_handled {event : ConnectionEvent} {events : List ProcessEvent}
    (mem : event ∈ events.filterMap handled?) : .handle event ∈ events := by
  rcases List.mem_filterMap.mp mem with ⟨handle, handleMem, isHandle⟩
  cases handle <;> cases isHandle
  exact handleMem

/-- What the event makes of a process that runs. -/
def ending (config : ProcessConfig) : ProcessEvent → ProcessStatus
  | .commandDied => .exited
  | .serve event => if event.message.Restarts then .exited else .running
  | .setupFailed => .panicked
  | .disconnect => if config.autoReconnect then .running else .returned
  | _ => .running

end ProcessEvent

namespace ConnectProcess

/--
On every connection the server writes frames, the clock does not go back, and the terminal
always tells its size.
-/
structure Benign (config : ProcessConfig) (events : List ProcessEvent) : Prop where
  frames : ∀ reads ∈ connectionReads events, ∃ frames : List Frame,
    reads.flatten <+: frames.flatMap (Frame.bytes config.connect.base64)
  clock : (clockReadings (events.filterMap ProcessEvent.handled?)).Pairwise (· ≤ ·)
  epoch : .handle .clockBeforeEpoch ∉ events
  size : .handle (.getSize none) ∉ events

variable {config : ProcessConfig} {process next : ConnectProcess} {event : ProcessEvent}
  {events : List ProcessEvent}

theorem readData_concat (events : List ConnectionEvent) (event : ConnectionEvent) :
    readData (events ++ [event]) = readData events ++ event.readData?.toList := by
  rw [readData, List.filterMap_append]
  cases read : event.readData? <;> simp [readData, read]

/-- The connection is what the events since it was opened have made of it. -/
def OnConnection (config : ProcessConfig) (past : List ProcessEvent) (process : ConnectProcess) :
    Prop :=
  ∀ connection, process.shell.connection = some connection →
    ∃ before after, past = before ++ .connect :: after ∧
      connectionReads past =
        connectionReads before ++ [readData (after.filterMap ProcessEvent.handled?)] ∧
      Transition.run (Connection.step config.connect) .start
        (after.filterMap ProcessEvent.handled?) = some connection

theorem connectionReads_concat (past : List ProcessEvent) (event : ProcessEvent) :
    connectionReads (past ++ [event]) = readOn (connectionReads past) event := by
  rw [connectionReads, List.foldl_append]
  rfl

section OnConnection

variable {past : List ProcessEvent}

/-- A step of another thread. -/
theorem OnConnection.same (onConnection : process.OnConnection config past)
    (notHandled : event.handled? = none) (reads : ∀ reads, readOn reads event = reads)
    (connection : next.shell.connection = process.shell.connection) :
    next.OnConnection config (past ++ [event]) := by
  intro current connected
  rw [connection] at connected
  rcases onConnection current connected with ⟨before, after, rfl, isRead, run⟩
  refine ⟨before, after ++ [event], by simp, ?_, ?_⟩
  · rw [connectionReads_concat, reads, isRead]
    simp [notHandled]
  · simpa [notHandled] using run

theorem OnConnection.step (onConnection : process.OnConnection config past)
    (taken : process.step config event = some next) :
    next.OnConnection config (past ++ [event]) := by
  cases step_spec taken with
  | produce part =>
      cases Shell.step_spec part
      exact onConnection.same rfl (fun _ => rfl) rfl
  | enqueue part =>
      cases Shell.step_spec part
      exact onConnection.same rfl (fun _ => rfl) rfl
  | respond _ part =>
      cases Shell.step_spec part
      exact onConnection.same rfl (fun _ => rfl) rfl
  | serve | commandPanics | commandDied | connectFailed | setupFailed =>
      exact onConnection.same rfl (fun _ => rfl) rfl
  | connect part =>
      cases Shell.step_spec part
      intro connection connected
      cases connected
      exact ⟨past, [], rfl, connectionReads_concat past .connect, rfl⟩
  | @handle event connection shell connected part =>
      cases Shell.step_spec part with
      | handle same _ handled =>
          obtain rfl := Option.some.inj (connected.symm.trans same)
          intro current isCurrent
          cases isCurrent
          rcases onConnection connection connected with ⟨before, after, rfl, isRead, run⟩
          refine ⟨before, after ++ [.handle event], by simp, ?_, ?_⟩
          · rw [connectionReads_concat, isRead, readOn, List.modifyLast_concat,
              List.filterMap_append]
            exact congrArg (fun reads => _ ++ [reads]) (readData_concat _ event).symm
          · rw [List.filterMap_append]
            exact Transition.run_append_eq_some_iff.mpr
              ⟨connection, run, Transition.run_singleton handled⟩
  | disconnect part =>
      cases Shell.step_spec part
      intro connection connected
      cases connected

theorem onConnection_of_run
    (reaches : Transition.run (ConnectProcess.step config) .start events = some process) :
    process.OnConnection config events := by
  apply Transition.run_history (fun _ _ _ _ onConnection taken => OnConnection.step onConnection taken)
    _ reaches
  intro connection connected
  cases connected

/-- The main thread does not panic on the connection. -/
theorem Benign.ne_panicked (lawful : config.connect.base64.Lawful) (benign : Benign config events)
    (reaches : Transition.run (ConnectProcess.step config) .start events = some process)
    {connection : Connection} (connected : process.shell.connection = some connection) :
    connection.control ≠ .panicked := by
  rcases onConnection_of_run reaches connection connected with ⟨before, after, rfl, isRead, run⟩
  have clock := benign.clock
  rw [List.filterMap_append, clockReadings, List.filterMap_append, List.pairwise_append] at clock
  apply Connection.ne_panicked_of_benign lawful _ run
  constructor
  · apply benign.frames
    rw [isRead]
    exact List.mem_append_right _ List.mem_cons_self
  · exact clock.2.1
  · intro mem
    apply benign.epoch
    exact List.mem_append_right _ (List.mem_cons_of_mem _ (ProcessEvent.mem_of_mem_handled mem))
  · intro mem
    apply benign.size
    exact List.mem_append_right _ (List.mem_cons_of_mem _ (ProcessEvent.mem_of_mem_handled mem))

end OnConnection

section Ending

/-- The loop of the stdin thread ends the process exactly at a message that tells it to restart. -/
theorem exited_iff {json : Json.Codec} {hoposhellFolder : String} {loop next : StdinLoop}
    {event : StdinEvent} (taken : loop.step json hoposhellFolder event = some next) :
    next.status = .exited ↔ event.message.Restarts := by
  rw [StdinLoop.step, Option.ite_none_right_eq_some] at taken
  rcases taken with ⟨running, taken⟩
  rcases event with ⟨⟨mtype, content⟩, handlers, zstd, written, master⟩
  cases content with
  | none =>
      have goesOn : ¬Message.Restarts { mtype, content := none } := by
        rintro ⟨_, restart⟩
        cases restart
      cases mtype <;> cases taken <;> simp [running, goesOn]
  | some content =>
      cases mtype with
      | stdin =>
          have goesOn : ¬Message.Restarts { mtype := .stdin, content := some content } := by
            rintro ⟨isCommand, _⟩
            cases isCommand
          cases written <;> cases taken <;> simp [running, goesOn]
      | command =>
          cases taken
          unfold StdinLoop.processCommand
          split_ifs with restart
          · simp [Message.Restarts, restart]
          · cases processResizeCommand content master <;>
              simp [Message.Restarts, restart, StdinLoop.send, running]
          · simp [Message.Restarts, restart, StdinLoop.send, running]

/-- A step leads to the status that its event stands for, unless the main thread panics. -/
theorem status_of_step (taken : process.step config event = some next)
    (notPanicked : ∀ connection, next.shell.connection = some connection →
      connection.control ≠ .panicked) : next.status = event.ending config := by
  have running := running_of_step taken
  cases step_spec taken with
  | serve canTake part => simp only [ProcessEvent.ending, exited_iff part]
  | @handle event connection shell connected part =>
      apply if_neg
      intro panicked
      cases after : shell.connection with
      | none => simp [after] at panicked
      | some connection =>
          rw [after] at panicked
          exact notPanicked connection after (of_decide_eq_true panicked)
  | produce | enqueue | respond | commandPanics | connectFailed | connect => exact running
  | commandDied | setupFailed | disconnect => rfl

/-- As long as the process runs, nothing has happened that ends it. -/
theorem ending_of_running (taken : process.step config event = some next)
    (running : next.status = .running) : event.ending config = .running := by
  cases step_spec taken with
  | serve canTake part => simpa only [ProcessEvent.ending, exited_iff part] using running
  | commandDied | setupFailed | disconnect => exact running
  | _ => rfl

theorem ending_of_mem
    (reaches : Transition.run (ConnectProcess.step config) .start events = some process)
    (running : process.status = .running) : ∀ event ∈ events, event.ending config = .running := by
  have kept : ∀ past (process : ConnectProcess) event next,
      (process.status = .running → ∀ event ∈ past, ProcessEvent.ending config event = .running) →
      process.step config event = some next →
      (next.status = .running →
        ∀ other ∈ past ++ [event], ProcessEvent.ending config other = .running) := by
    intro past process event next before taken nextRunning
    rw [List.forall_mem_append, List.forall_mem_singleton]
    exact ⟨before (running_of_step taken), ending_of_running taken nextRunning⟩
  exact Transition.run_history kept (fun _ => by simp) reaches running

/--
As long as the server writes frames, the clock does not go back and the terminal tells its size,
the process ends exactly as one of its events says: whatever becomes of its connections, it runs
until it is told to restart, its command has died, a stream cannot be set up, or it has lost a
connection and is not to reconnect.
-/
theorem ends_iff (lawful : config.connect.base64.Lawful) (benign : Benign config events)
    (reaches : Transition.run (ConnectProcess.step config) .start events = some process)
    {status : ProcessStatus} (ended : status ≠ .running) :
    process.status = status ↔ ∃ event ∈ events, event.ending config = status := by
  rcases List.eq_nil_or_concat events with rfl | ⟨front, last, rfl⟩
  · cases reaches
    simpa [start] using ended.symm
  · rw [List.concat_eq_append] at reaches benign ⊢
    rcases Transition.run_append_eq_some_iff.mp reaches with ⟨middle, before, rest⟩
    rcases Transition.run_cons_eq_some_iff.mp rest with ⟨next, taken, same⟩
    cases same
    have here := status_of_step taken fun _ connected =>
      benign.ne_panicked lawful reaches connected
    have earlier := ending_of_mem before (running_of_step taken)
    rw [here]
    constructor
    · intro isLast
      exact ⟨last, by simp, isLast⟩
    · rintro ⟨event, mem, isEnding⟩
      rw [List.mem_append, List.mem_singleton] at mem
      rcases mem with inFront | rfl
      · rw [earlier event inFront] at isEnding
        exact absurd isEnding.symm ended
      · exact isEnding

end Ending

end ConnectProcess

/-- After a lost connection and a second one, the command dies. -/
def dyingRun : List ProcessEvent :=
  servedRun ++ [.commandDied]

theorem ends_dyingRun :
    ∃ process, Transition.run (ConnectProcess.step localProcess) .start dyingRun = some process ∧
      (process.status = .exited ↔
        ∃ event ∈ dyingRun, ProcessEvent.ending localProcess event = .exited) := by
  have reaches : (Transition.run (ConnectProcess.step localProcess) .start dyingRun).isSome := by
    decide +kernel
  rcases Option.isSome_iff_exists.mp reaches with ⟨process, reaches⟩
  have isRead : connectionReads dyingRun = [[echoFrame.bytes Base64.standard], []] :=
    connectionReads_servedRun
  have benign : ConnectProcess.Benign localProcess dyingRun := by
    constructor
    · rw [isRead]
      rintro reads mem
      refine ⟨[echoFrame], ?_⟩
      rw [List.flatMap_singleton]
      simp only [List.mem_cons, List.not_mem_nil, or_false] at mem
      rcases mem with rfl | rfl
      · rw [List.flatten_singleton]
        exact List.prefix_rfl
      · exact List.nil_prefix
    · decide
    · simp [dyingRun, servedRun]
    · simp [dyingRun, servedRun]
  exact ⟨process, reaches,
    ConnectProcess.ends_iff Base64.standard_lawful benign reaches (by decide)⟩

end Hoposhell
