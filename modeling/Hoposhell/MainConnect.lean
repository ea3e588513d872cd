import Hoposhell.ConcurrentRequests
import Hoposhell.Forwarding
import Hoposhell.ReceivedCommands

/-!
# The process of a connected shell

`main_connect` starts the stdout and the stdin thread, and then opens one connection after the
other.  Two channels join the threads: the main thread puts the messages of the server on the
channel to the command, where the stdin thread takes them, and the two others put what is for
the server on the channel to the stream.

The process is put together from the models of the threads, and a run of it is a run of each
of them.  What it adds is the channel to the command, the one terminal that the threads share,
and how the process ends.
-/

namespace Hoposhell

inductive ProcessStatus where
  | running
  /-- `main_connect` has returned. -/
  | returned
  /-- `process::exit`. -/
  | exited
  /-- The main thread has panicked. -/
  | panicked
deriving DecidableEq, Repr

structure ProcessConfig where
  connect : ConnectConfig
  json : Json.Codec
  hoposhellFolder : String
  autoReconnect : Bool

structure ConnectProcess where
  shell : Shell
  stdin : StdinLoop
  /-- No command has made the stdin thread panic. -/
  stdinAlive : Bool
  /-- The channel to the command. -/
  toCmd : List (Message MessageTypeToCmd)
  /-- What the stdin thread has still to put on the channel to the stream. -/
  outbox : List (Message MessageTypeToStream)
  /-- The stdin thread has panicked with the lock of the terminal. -/
  masterPoisoned : Bool
  status : ProcessStatus

/-- What the threads do, once the shell runs. -/
inductive ProcessEvent where
  | produce (content : Bytes)
  | enqueue
  /-- The stdout thread finds the end of the output. -/
  | commandDied
  /-- The stdin thread takes a message from the channel and serves it. -/
  | serve (event : StdinEvent)
  /-- The stdin thread takes a message whose command makes it panic. -/
  | commandPanics (content : Bytes)
  /-- The stdin thread puts a message on the channel. -/
  | respond (content : Bytes)
  | connectFailed
  | connect
  /-- The server is there, but the stream cannot be set up. -/
  | setupFailed
  | handle (event : ConnectionEvent)
  | disconnect

namespace ConnectProcess

def start : ConnectProcess where
  shell := .start
  stdin := .start
  stdinAlive := true
  toCmd := []
  outbox := []
  masterPoisoned := false
  status := .running

/-- The stdin thread is at the head of its loop, and this message is the next one. -/
def CanTake (process : ConnectProcess) (message : Message MessageTypeToCmd) : Prop :=
  process.stdinAlive = true ∧ process.outbox = [] ∧ process.toCmd.head? = some message

instance (process : ConnectProcess) (message : Message MessageTypeToCmd) :
    Decidable (process.CanTake message) :=
  inferInstanceAs (Decidable (_ ∧ _))

/-- The terminal has no size for the main thread once its lock is poisoned. -/
def Offers (process : ConnectProcess) : ConnectionEvent → Prop
  | .getSize (some _) => process.masterPoisoned = false
  | _ => True

instance (process : ConnectProcess) : (event : ConnectionEvent) → Decidable (process.Offers event)
  | .getSize (some _) => inferInstanceAs (Decidable (process.masterPoisoned = false))
  | .getSize none | .write _ | .lockHistory _ | .read _ | .recv _ | .getNow _ | .clockBeforeEpoch
  | .flush _ =>
      inferInstanceAs (Decidable True)

/-- One step of a thread. -/
def step (config : ProcessConfig) (process : ConnectProcess) (event : ProcessEvent) :
    Option ConnectProcess :=
  if process.status = .running then
    match event with
    | .produce content => do
        let shell ← process.shell.step config.connect (.produce content)
        some { process with shell }
    | .enqueue => do
        let shell ← process.shell.step config.connect .enqueue
        some { process with shell }
    | .commandDied =>
        if process.shell.recorded = none then some { process with status := .exited } else none
    | .serve event =>
        if process.CanTake event.message then do
          let stdin ← process.stdin.step config.json config.hoposhellFolder event
          some
            { process with
              stdin
              toCmd := process.toCmd.tail
              outbox := stdin.toStream.drop process.stdin.toStream.length
              -- `process_resize_command` asks for the new size with the lock held
              masterPoisoned := decide (stdin.status = .panicked ∧ event.message.mtype = .command)
              status := if stdin.status = .exited then .exited else .running }
        else none
    | .commandPanics content =>
        if process.CanTake { mtype := .command, content := some content } ∧
            process.stdin.status = .running ∧
            servedContent { mtype := .command, content := some content } = some content then
          some { process with toCmd := process.toCmd.tail, stdinAlive := false }
        else none
    | .respond content =>
        if process.outbox.head? = some { mtype := .command, content := some content } then do
          let shell ← process.shell.step config.connect (.respond content)
          some { process with shell, outbox := process.outbox.tail }
        else none
    | .connectFailed => if process.shell.connection = none then some process else none
    | .connect => do
        let shell ← process.shell.step config.connect .connect
        some { process with shell }
    | .setupFailed =>
        if process.shell.connection = none then some { process with status := .panicked } else none
    | .handle event =>
        if process.Offers event then do
          let connection ← process.shell.connection
          let shell ← process.shell.step config.connect (.handle event)
          some
            { process with
              shell
              toCmd := process.toCmd ++ connection.delivers config.connect event
              status :=
                if shell.connection.any (·.control = .panicked) then .panicked else .running }
        else none
    | .disconnect => do
        let shell ← process.shell.step config.connect .disconnect
        some
          { process with
            shell, status := if config.autoReconnect then .running else .returned }
  else none

end ConnectProcess

namespace ProcessEvent

/-- The steps of the shell that an event is made of. -/
def shellEvents : ProcessEvent → List ShellEvent
  | .produce content => [.produce content]
  | .enqueue => [.enqueue]
  | .respond content => [.respond content]
  | .connect => [.connect]
  | .handle event => [.handle event]
  | .disconnect => [.disconnect]
  | .commandDied | .serve _ | .commandPanics _ | .connectFailed | .setupFailed => []

/-- The turns of the loop of the stdin thread that an event is made of. -/
def stdinEvents : ProcessEvent → List StdinEvent
  | .serve event => [event]
  | _ => []

/-- The message that the stdin thread takes from the channel. -/
def taken? : ProcessEvent → Option (Message MessageTypeToCmd)
  | .serve event => some event.message
  | .commandPanics content => some { mtype := .command, content := some content }
  | _ => none

end ProcessEvent

/-- What has been read on each connection, the last one included. -/
def readOn (reads : List (List Bytes)) : ProcessEvent → List (List Bytes)
  | .connect => reads ++ [[]]
  | .handle event => reads.modifyLast (· ++ event.readData?.toList)
  | _ => reads

def connectionReads (events : List ProcessEvent) : List (List Bytes) :=
  events.foldl readOn []

namespace ConnectProcess

/-- What a step does, one case for each kind of event. -/
inductive Step (config : ProcessConfig) (process : ConnectProcess) :
    ProcessEvent → ConnectProcess → Prop where
  | produce {content : Bytes} {shell : Shell}
      (part : process.shell.step config.connect (.produce content) = some shell) :
      Step config process (.produce content) { process with shell }
  | enqueue {shell : Shell} (part : process.shell.step config.connect .enqueue = some shell) :
      Step config process .enqueue { process with shell }
  | commandDied : Step config process .commandDied { process with status := .exited }
  | serve {event : StdinEvent} {stdin : StdinLoop} (canTake : process.CanTake event.message)
      (part : process.stdin.step config.json config.hoposhellFolder event = some stdin) :
      Step config process (.serve event)
        { process with
          stdin
          toCmd := process.toCmd.tail
          outbox := stdin.toStream.drop process.stdin.toStream.length
          masterPoisoned := decide (stdin.status = .panicked ∧ event.message.mtype = .command)
          status := if stdin.status = .exited then .exited else .running }
  | commandPanics {content : Bytes}
      (canTake : process.CanTake { mtype := .command, content := some content }) :
      Step config process (.commandPanics content)
        { process with toCmd := process.toCmd.tail, stdinAlive := false }
  | respond {content : Bytes} {shell : Shell}
      (next : process.outbox.head? = some { mtype := .command, content := some content })
      (part : process.shell.step config.connect (.respond content) = some shell) :
      Step config process (.respond content) { process with shell, outbox := process.outbox.tail }
  | connectFailed : Step config process .connectFailed process
  | connect {shell : Shell} (part : process.shell.step config.connect .connect = some shell) :
      Step config process .connect { process with shell }
  | setupFailed : Step config process .setupFailed { process with status := .panicked }
  | handle {event : ConnectionEvent} {connection : Connection} {shell : Shell}
      (connected : process.shell.connection = some connection)
      (part : process.shell.step config.connect (.handle event) = some shell) :
      Step config process (.handle event)
        { process with
          shell
          toCmd := process.toCmd ++ connection.delivers config.connect event
          status := if shell.connection.any (·.control = .panicked) then .panicked else .running }
  | disconnect {shell : Shell} (part : process.shell.step config.connect .disconnect = some shell) :
      Step config process .disconnect
        { process with shell, status := if config.autoReconnect then .running else .returned }

section Step

variable {config : ProcessConfig} {process next : ConnectProcess} {event : ProcessEvent}

theorem step_spec (taken : process.step config event = some next) :
    Step config process event next := by
  simp only [step, Option.ite_none_right_eq_some] at taken
  rcases taken with ⟨_, taken⟩
  cases event with
  | produce content =>
      rcases Option.bind_eq_some_iff.mp taken with ⟨shell, part, rest⟩
      cases rest
      exact .produce part
  | enqueue =>
      rcases Option.bind_eq_some_iff.mp taken with ⟨shell, part, rest⟩
      cases rest
      exact .enqueue part
  | commandDied =>
      rcases Option.ite_none_right_eq_some.mp taken with ⟨_, rest⟩
      cases rest
      exact .commandDied
  | serve event =>
      rcases Option.ite_none_right_eq_some.mp taken with ⟨canTake, taken⟩
      rcases Option.bind_eq_some_iff.mp taken with ⟨stdin, part, rest⟩
      cases rest
      exact .serve canTake part
  | commandPanics content =>
      rcases Option.ite_none_right_eq_some.mp taken with ⟨⟨canTake, _⟩, rest⟩
      cases rest
      exact .commandPanics canTake
  | respond content =>
      rcases Option.ite_none_right_eq_some.mp taken with ⟨isNext, taken⟩
      rcases Option.bind_eq_some_iff.mp taken with ⟨shell, part, rest⟩
      cases rest
      exact .respond isNext part
  | connectFailed =>
      rcases Option.ite_none_right_eq_some.mp taken with ⟨_, rest⟩
      cases rest
      exact .connectFailed
  | connect =>
      rcases Option.bind_eq_some_iff.mp taken with ⟨shell, part, rest⟩
      cases rest
      exact .connect part
  | setupFailed =>
      rcases Option.ite_none_right_eq_some.mp taken with ⟨_, rest⟩
      cases rest
      exact .setupFailed
  | handle event =>
      rcases Option.ite_none_right_eq_some.mp taken with ⟨_, taken⟩
      rcases Option.bind_eq_some_iff.mp taken with ⟨connection, connected, taken⟩
      rcases Option.bind_eq_some_iff.mp taken with ⟨shell, part, rest⟩
      cases rest
      exact .handle connected part
  | disconnect =>
      rcases Option.bind_eq_some_iff.mp taken with ⟨shell, part, rest⟩
      cases rest
      exact .disconnect part

end Step

section Parts

variable {config : ProcessConfig} {process : ConnectProcess} {events : List ProcessEvent}

/-- What the process does is a run of the threads around the channel to the stream. -/
theorem shell_run
    (reaches : Transition.run (ConnectProcess.step config) .start events = some process) :
    Transition.run (Shell.step config.connect) .start (events.flatMap ProcessEvent.shellEvents) =
      some process.shell := by
  have matched : ∀ (process : ConnectProcess) event next, process.step config event = some next →
      Transition.run (Shell.step config.connect) process.shell event.shellEvents =
        some next.shell := by
    intro process event next taken
    cases step_spec taken with
    | produce part | enqueue part | connect part | disconnect part => exact Transition.run_singleton part
    | respond _ part | handle _ part => exact Transition.run_singleton part
    | commandDied | serve | commandPanics | connectFailed | setupFailed => rfl
  exact Transition.run_project matched reaches

/-- What the process does is a run of the loop of the stdin thread. -/
theorem stdin_run
    (reaches : Transition.run (ConnectProcess.step config) .start events = some process) :
    Transition.run (StdinLoop.step config.json config.hoposhellFolder) .start
      (events.flatMap ProcessEvent.stdinEvents) = some process.stdin := by
  have matched : ∀ (process : ConnectProcess) event next, process.step config event = some next →
      Transition.run (StdinLoop.step config.json config.hoposhellFolder) process.stdin
        event.stdinEvents = some next.stdin := by
    intro process event next taken
    cases step_spec taken with
    | serve _ part => exact Transition.run_singleton part
    | _ => rfl
  exact Transition.run_project matched reaches

end Parts

section Commands

variable {config : ProcessConfig} {process next : ConnectProcess} {event : ProcessEvent}
  {past : List ProcessEvent}

/-- What has been read on the connection of the process, behind what was read on earlier ones. -/
def ReadsOn (config : ProcessConfig) (process : ConnectProcess) (earlier : List (List Bytes))
    (reads : List (List Bytes)) : Prop :=
  match process.shell.connection with
  | none => reads = earlier
  | some connection =>
      ∃ current, reads = earlier ++ [current] ∧ connection.Received config.connect current

/-- The messages taken and those on the channel are what the reads on all connections deliver. -/
def TakesInOrder (config : ProcessConfig) (past : List ProcessEvent) (process : ConnectProcess) :
    Prop :=
  ∃ earlier, process.ReadsOn config earlier (connectionReads past) ∧
    past.filterMap ProcessEvent.taken? ++ process.toCmd =
      earlier.flatMap (decodeReads config.connect.base64 []) ++
        process.shell.connection.elim [] (·.toCmd)

theorem takesInOrder_start (config : ProcessConfig) : start.TakesInOrder config [] :=
  ⟨[], rfl, rfl⟩

/-- A step that is about something else: nothing is read, and the channel is left as it is. -/
theorem TakesInOrder.same (inOrder : process.TakesInOrder config past)
    (reads : ∀ reads, readOn reads event = reads) (nothing : event.taken? = none)
    (toCmd : next.toCmd = process.toCmd)
    (connection : next.shell.connection = process.shell.connection) :
    next.TakesInOrder config (past ++ [event]) := by
  rcases inOrder with ⟨earlier, readsOn, taken⟩
  refine ⟨earlier, ?_, ?_⟩
  · rw [connectionReads, List.foldl_append, List.foldl_cons, List.foldl_nil, reads, ReadsOn,
      connection]
    exact readsOn
  · simpa [nothing, toCmd, connection] using taken

theorem TakesInOrder.take (inOrder : process.TakesInOrder config past)
    {message : Message MessageTypeToCmd} (reads : ∀ reads, readOn reads event = reads)
    (taken : event.taken? = some message) (isNext : process.toCmd.head? = some message)
    (toCmd : next.toCmd = process.toCmd.tail)
    (connection : next.shell.connection = process.shell.connection) :
    next.TakesInOrder config (past ++ [event]) := by
  rcases inOrder with ⟨earlier, readsOn, before⟩
  refine ⟨earlier, ?_, ?_⟩
  · rw [connectionReads, List.foldl_append, List.foldl_cons, List.foldl_nil, reads, ReadsOn,
      connection]
    exact readsOn
  · rcases List.head?_eq_some_iff.mp isNext with ⟨rest, channel⟩
    simpa [taken, toCmd, connection, channel] using before

theorem TakesInOrder.step (inOrder : process.TakesInOrder config past)
    (taken : process.step config event = some next) :
    next.TakesInOrder config (past ++ [event]) := by
  cases step_spec taken with
  | produce part =>
      cases Shell.step_spec part
      exact inOrder.same (fun _ => rfl) rfl rfl rfl
  | enqueue part =>
      cases Shell.step_spec part
      exact inOrder.same (fun _ => rfl) rfl rfl rfl
  | respond _ part =>
      cases Shell.step_spec part
      exact inOrder.same (fun _ => rfl) rfl rfl rfl
  | commandDied | connectFailed | setupFailed => exact inOrder.same (fun _ => rfl) rfl rfl rfl
  | serve canTake part => exact inOrder.take (fun _ => rfl) rfl canTake.2.2 rfl rfl
  | commandPanics canTake => exact inOrder.take (fun _ => rfl) rfl canTake.2.2 rfl rfl
  | connect part =>
      rcases inOrder with ⟨earlier, readsOn, before⟩
      cases Shell.step_spec part with
      | connect disconnected =>
          rw [ReadsOn, disconnected] at readsOn
          refine ⟨earlier, ⟨[], ?_, Connection.received_start _⟩, ?_⟩
          · rw [connectionReads, List.foldl_append, ← readsOn]
            rfl
          · have nothing : ProcessEvent.connect.taken? = none := rfl
            simpa [nothing, disconnected, Connection.start] using before
  | @handle event connection shell connected part =>
      rcases inOrder with ⟨earlier, readsOn, before⟩
      cases Shell.step_spec part with
      | handle same allowed handled =>
          obtain rfl := Option.some.inj (connected.symm.trans same)
          rw [ReadsOn, connected] at readsOn
          rcases readsOn with ⟨current, reads, received⟩
          rcases received.step handled with ⟨nextReceived, toCmd⟩
          refine ⟨earlier, ⟨current ++ event.readData?.toList, ?_, nextReceived⟩, ?_⟩
          · rw [connectionReads, List.foldl_append, List.foldl_cons, List.foldl_nil, readOn,
              ← connectionReads, reads, List.modifyLast_concat]
          · have nothing : (ProcessEvent.handle event).taken? = none := rfl
            simp only [List.filterMap_append, List.filterMap_cons_none nothing, List.filterMap_nil,
              List.append_nil, Option.elim_some, toCmd]
            rw [← List.append_assoc, before, connected, Option.elim_some, List.append_assoc]
  | disconnect part =>
      rcases inOrder with ⟨earlier, readsOn, before⟩
      cases Shell.step_spec part with
      | disconnect connected returned =>
          rw [ReadsOn, connected] at readsOn
          rcases readsOn with ⟨current, reads, received⟩
          refine ⟨earlier ++ [current], ?_, ?_⟩
          · rw [connectionReads, List.foldl_append, ← reads]
            rfl
          · have nothing : ProcessEvent.disconnect.taken? = none := rfl
            simpa [nothing, connected, received.toCmd] using before

theorem takesInOrder_of_run {events : List ProcessEvent}
    (reaches : Transition.run (ConnectProcess.step config) .start events = some process) :
    process.TakesInOrder config events :=
  Transition.run_history (fun _ _ _ _ inOrder taken => inOrder.step taken)
    (takesInOrder_start config) reaches

theorem taken_eq_decoded {events : List ProcessEvent}
    (reaches : Transition.run (ConnectProcess.step config) .start events = some process) :
    events.filterMap ProcessEvent.taken? ++ process.toCmd =
      (connectionReads events).flatMap (decodeReads config.connect.base64 []) := by
  rcases takesInOrder_of_run reaches with ⟨earlier, readsOn, taken⟩
  rw [taken]
  cases connection : process.shell.connection with
  | none =>
      rw [ReadsOn, connection] at readsOn
      simp [readsOn]
  | some connection' =>
      rw [ReadsOn, connection] at readsOn
      rcases readsOn with ⟨current, reads, received⟩
      simp [reads, received.toCmd]

end Commands

section Responses

variable {config : ProcessConfig} {process next : ConnectProcess} {event : ProcessEvent}

def isCommand (msg : Posted) : Bool :=
  msg.message.mtype = .command

/-- The `COMMAND` messages among messages of the channel. -/
def commandsOf (msgs : List Posted) : List (Message MessageTypeToStream) :=
  (msgs.filter isCommand).map (·.message)

/-- What the stdin thread has made has been put on the channel, or is still to be. -/
structure PutsResponses (process : ConnectProcess) : Prop where
  recorded : ∀ msg ∈ process.shell.recorded, msg.message.mtype = .stdout
  put : commandsOf process.shell.put ++ process.outbox = process.stdin.toStream

theorem PutsResponses.step (puts : process.PutsResponses)
    (taken : process.step config event = some next) : next.PutsResponses := by
  cases step_spec taken with
  | produce part =>
      cases Shell.step_spec part with
      | produce nothingRecorded unlocked => exact ⟨by simp, puts.put⟩
  | enqueue part =>
      cases Shell.step_spec part with
      | @enqueue msg recorded =>
          refine ⟨by simp, ?_⟩
          have isStdout := puts.recorded msg recorded
          simpa [commandsOf, isCommand, isStdout] using puts.put
  | respond isNext part =>
      cases Shell.step_spec part with
      | respond =>
          rcases List.head?_eq_some_iff.mp isNext with ⟨rest, outbox⟩
          refine ⟨puts.recorded, ?_⟩
          simpa [commandsOf, isCommand, outbox] using puts.put
  | commandDied | connectFailed | setupFailed | commandPanics => exact ⟨puts.recorded, puts.put⟩
  | serve canTake part =>
      refine ⟨puts.recorded, ?_⟩
      rcases StdinLoop.toStream_of_step part with ⟨made, toStream⟩
      have before := puts.put
      rw [canTake.2.1, List.append_nil] at before
      simp only [← toStream, List.drop_left]
      rw [before]
  | connect part =>
      cases Shell.step_spec part
      exact ⟨puts.recorded, puts.put⟩
  | handle connected part =>
      cases Shell.step_spec part
      exact ⟨puts.recorded, puts.put⟩
  | disconnect part =>
      cases Shell.step_spec part
      exact ⟨puts.recorded, puts.put⟩

theorem putsResponses_of_run {events : List ProcessEvent}
    (reaches : Transition.run (ConnectProcess.step config) .start events = some process) :
    process.PutsResponses :=
  Transition.run_invariant (fun _ _ _ puts taken => puts.step taken)
    ⟨by simp [start, Shell.start], rfl⟩ reaches

/-- The `COMMAND` messages that have been forwarded, or are still to be. -/
theorem commands_whole_iff {events : List ProcessEvent}
    (reaches : Transition.run (ConnectProcess.step config) .start events = some process) :
    commandsOf process.shell.flow ++ process.outbox = process.stdin.toStream ↔
      Transition.Meets (Shell.step config.connect) (Shell.NoFailure isCommand) .start
        (events.flatMap ProcessEvent.shellEvents) := by
  have ordered := (Shell.flows_of_run (shell_run reaches)).ordered
  rw [← (putsResponses_of_run reaches).put, ← Shell.flowsWhole_iff isCommand (shell_run reaches),
    List.append_cancel_right_eq, Shell.FlowsWhole]
  constructor
  · intro same
    have lengths := congrArg List.length same
    simp only [commandsOf, List.length_map] at lengths
    exact (ordered.filter isCommand).eq_of_length lengths
  · intro same
    exact congrArg (List.map (·.message)) same

/--
Over all connections, what the stdin thread has made is forwarded at most once and in order,
and all of it has been forwarded, or is still to be, exactly when no write of a `COMMAND`
message fails for good.
-/
theorem responses_once_iff {events : List ProcessEvent}
    (reaches : Transition.run (ConnectProcess.step config) .start events = some process) :
    let flow := process.shell.forwarded ++ process.shell.held.toList ++ process.shell.channel
    (commandsOf flow ++ process.outbox).Sublist process.stdin.toStream ∧
      (commandsOf flow ++ process.outbox = process.stdin.toStream ↔
        Transition.Meets (Shell.step config.connect) (Shell.NoFailure isCommand) .start
          (events.flatMap ProcessEvent.shellEvents)) := by
  refine ⟨?_, commands_whole_iff reaches⟩
  rw [← (putsResponses_of_run reaches).put]
  have ordered := (Shell.flows_of_run (shell_run reaches)).ordered
  exact ((ordered.filter isCommand).map _).append_right process.outbox

/-- As long as no command panics, the messages taken are those that the loop has served. -/
theorem taken_eq_of_alive {events : List ProcessEvent}
    (reaches : Transition.run (ConnectProcess.step config) .start events = some process)
    (alive : process.stdinAlive = true) :
    events.filterMap ProcessEvent.taken? =
      (events.flatMap ProcessEvent.stdinEvents).map (·.message) := by
  have kept : ∀ past (process : ConnectProcess) event next,
      (process.stdinAlive = true → past.filterMap ProcessEvent.taken? =
        (past.flatMap ProcessEvent.stdinEvents).map (·.message)) →
      process.step config event = some next →
      (next.stdinAlive = true → (past ++ [event]).filterMap ProcessEvent.taken? =
        ((past ++ [event]).flatMap ProcessEvent.stdinEvents).map (·.message)) := by
    intro past process event next same taken nextAlive
    rw [List.filterMap_append, List.flatMap_append, List.map_append]
    cases step_spec taken with
    | commandPanics canTake => cases nextAlive
    | _ => rw [same nextAlive]; rfl
  exact Transition.run_history kept (fun _ => rfl) reaches alive

/-- All requests under the id have been completed and answered. -/
theorem answers_of_run {events : List ProcessEvent}
    (reaches : Transition.run (ConnectProcess.step config) .start events = some process)
    {id : String} {sent : List Request} (nonempty : ∀ request ∈ sent, request.payload ≠ [])
    (sameId : ∀ request ∈ sent, request.messageId = id)
    (mixed : (requestChunks (((connectionReads events).flatMap
        (decodeReads config.connect.base64 [])).filterMap servedContent)).filter
      (fun chunk => chunk.messageId = id) = sent.flatMap Request.chunk)
    (alive : process.stdinAlive = true) (idle : process.toCmd = [] ∧ process.outbox = [])
    (noFailure : Transition.Meets (Shell.step config.connect) (Shell.NoFailure isCommand) .start
      (events.flatMap ProcessEvent.shellEvents)) :
    (completionsOf id (events.flatMap ProcessEvent.stdinEvents)).map Prod.snd = sent ∧
      (responsesPut (commandsOf process.shell.flow)).filter (fun chunk => chunk.messageId = id) =
        (completionsOf id (events.flatMap ProcessEvent.stdinEvents)).flatMap fun item =>
          item.1.answerTo config.json config.hoposhellFolder item.2 := by
  have decoded := taken_eq_decoded reaches
  rw [idle.1, List.append_nil, taken_eq_of_alive reaches alive] at decoded
  rw [← decoded, List.filterMap_map] at mixed
  have forwarded := (commands_whole_iff reaches).mpr noFailure
  rw [idle.2, List.append_nil] at forwarded
  rw [forwarded]
  exact ⟨map_snd_completionsOf nonempty sameId mixed,
    StdinLoop.answers_completionsOf (stdin_run reaches) id⟩

/--
From the bytes read to the messages forwarded: when the messages decoded on all the connections
have the chunks of requests sent under an id, mixed with anything else, the stdin thread has
served them all, and no write of a `COMMAND` message fails for good, then what has been
forwarded under the id, or is still to be, is the answers to these requests, in order.
-/
theorem answers_forwarded {events : List ProcessEvent}
    (reaches : Transition.run (ConnectProcess.step config) .start events = some process)
    {id : String} {sent : List Request} (nonempty : ∀ request ∈ sent, request.payload ≠ [])
    (sameId : ∀ request ∈ sent, request.messageId = id)
    (mixed : (requestChunks (((connectionReads events).flatMap
        (decodeReads config.connect.base64 [])).filterMap servedContent)).filter
      (fun chunk => chunk.messageId = id) = sent.flatMap Request.chunk)
    (alive : process.stdinAlive = true) (idle : process.toCmd = [] ∧ process.outbox = [])
    (noFailure : Transition.Meets (Shell.step config.connect) (Shell.NoFailure isCommand) .start
      (events.flatMap ProcessEvent.shellEvents)) :
    ∃ served : List (StdinEvent × Request),
      served.map Prod.snd = sent ∧
        (served.map Prod.fst).Sublist (events.flatMap ProcessEvent.stdinEvents) ∧
        (responsesPut (commandsOf (process.shell.forwarded ++ process.shell.held.toList ++
            process.shell.channel))).filter (fun chunk => chunk.messageId = id) =
          served.flatMap fun item =>
            item.1.answerTo config.json config.hoposhellFolder item.2 := by
  rcases answers_of_run reaches nonempty sameId mixed alive idle noFailure with ⟨sent, answers⟩
  exact ⟨completionsOf id _, sent, completionsOf_sublist id _, answers⟩

end Responses

end ConnectProcess

def localProcess : ProcessConfig where
  connect := localConfig
  json := Json.nullCodec
  hoposhellFolder := ""
  autoReconnect := true

/-- The chunk of the answer to `echoRequest`, as it is put on the channel. -/
def echoAnswer : Bytes :=
  ChunkedResponse.toMessagePayload
    { cmd := "ls", messageId := "a:1", statusCode := .ok, chunkType := .last,
      payload := Zstd.storedFrame (asBytes "x") }

def echoFrame : Frame := .message .command (echoEvent "ls" Zstd.stored).content

/-- A request is read on the first connection, and its answer is forwarded on the second one. -/
def servedRun : List ProcessEvent :=
  [.connectFailed, .connect, .handle (.write (.ok 12)), .handle (.getSize (some (24, 80))),
    .handle (.write (.ok 24)), .handle (.lockHistory []),
    .handle (.read (.ok (echoFrame.bytes Base64.standard))), .serve (echoEvent "ls" Zstd.stored),
    .handle (.recv .timeout), .handle (.getNow 0), .handle (.write (.error .other)), .disconnect,
    .respond echoAnswer, .connect, .handle (.write (.ok 12)),
    .handle (.getSize (some (24, 80))), .handle (.write (.ok 24)), .handle (.lockHistory []),
    .handle (.read (.error .wouldBlock)),
    .handle (.recv (.msg
      { id := 0, message := { mtype := .command, content := some echoAnswer } })),
    .handle (.write (.ok 12))]

theorem exists_servedRun :
    ∃ process, Transition.run (ConnectProcess.step localProcess) .start servedRun = some process ∧
      process.stdinAlive = true ∧ process.toCmd = [] ∧ process.outbox = [] := by
  have reaches : ((Transition.run (ConnectProcess.step localProcess) .start servedRun).filter
      fun process => process.stdinAlive && process.toCmd.isEmpty && process.outbox.isEmpty).isSome := by
    decide +kernel
  rcases Option.isSome_iff_exists.mp reaches with ⟨process, reaches⟩
  rcases Option.filter_eq_some_iff.mp reaches with ⟨reaches, idle⟩
  simp only [Bool.and_eq_true, List.isEmpty_iff] at idle
  exact ⟨process, reaches, idle.1.1, idle.1.2, idle.2⟩

theorem connectionReads_servedRun :
    connectionReads servedRun = [[echoFrame.bytes Base64.standard], []] := by
  decide +kernel

/-- The server has started a second frame on the first connection. -/
def servedFrames : List (List Frame) := [[echoFrame, .keepAlive], []]

theorem responses_once_servedRun :
    ∃ process, Transition.run (ConnectProcess.step localProcess) .start servedRun = some process ∧
      let flow := process.shell.forwarded ++ process.shell.held.toList ++ process.shell.channel
      (ConnectProcess.commandsOf flow ++ process.outbox).Sublist process.stdin.toStream ∧
        (ConnectProcess.commandsOf flow ++ process.outbox = process.stdin.toStream ↔
          Transition.Meets (Shell.step localProcess.connect)
            (Shell.NoFailure ConnectProcess.isCommand) .start
            (servedRun.flatMap ProcessEvent.shellEvents)) := by
  rcases exists_servedRun with ⟨process, reaches, _⟩
  exact ⟨process, reaches, ConnectProcess.responses_once_iff reaches⟩

theorem answers_forwarded_servedRun :
    ∃ process, Transition.run (ConnectProcess.step localProcess) .start servedRun = some process ∧
      ∃ served : List (StdinEvent × Request),
        served.map Prod.snd = [echoRequest "ls"] ∧
          (served.map Prod.fst).Sublist (servedRun.flatMap ProcessEvent.stdinEvents) ∧
          (responsesPut (ConnectProcess.commandsOf (process.shell.forwarded ++
              process.shell.held.toList ++ process.shell.channel))).filter
            (fun chunk => chunk.messageId = "a:1") =
            served.flatMap fun item =>
              item.1.answerTo localProcess.json localProcess.hoposhellFolder item.2 := by
  have mixed : (requestChunks (((connectionReads servedRun).flatMap
      (decodeReads localProcess.connect.base64 [])).filterMap servedContent)).filter
        (fun chunk => chunk.messageId = "a:1") = [echoRequest "ls"].flatMap Request.chunk := by
    rw [connectionReads_servedRun]
    decide +kernel
  rcases exists_servedRun with ⟨process, reaches, alive, idle⟩
  exact ⟨process, reaches, ConnectProcess.answers_forwarded reaches (by decide) (by decide) mixed
    alive idle (by decide +kernel)⟩

end Hoposhell
