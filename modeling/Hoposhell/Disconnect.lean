import Hoposhell.Connect
import Hoposhell.Framing

/-!
# What ends a connection

The stream is non-blocking, so that any of its calls may report `WouldBlock`.  The
read and the write of a forwarded message take that as a reason to try again; the
header, the size message, the replay of the history, the keep-alive and its flush do
not.  The clock is another reason to stop: `get_now` panics before `UNIX_EPOCH`, and
a reading below the last one is an overflow where overflows are checked.
-/

namespace Hoposhell

def Control.isEnded : Control → Bool
  | .returned | .panicked => true
  | _ => false

/-- The write of a message of the channel, the only one that is tried again. -/
def Control.isForwarding : Control → Bool
  | .send _ => true
  | _ => false

@[simp]
theorem Control.isEnded_replayAll (msgs : List Posted) : (replayAll msgs).isEnded = false := by
  cases msgs <;> rfl

/-- The control point is about to hand these bytes to `write`. -/
def Control.writes (config : ConnectConfig) (control : Control) : Option Bytes :=
  control.sending.bind (Sent.frame config)

/--
The stream is closed or fails for good, or the channel is closed by its sender.
-/
def FailsForGood (config : ConnectConfig) (connection : Connection) : ConnectionEvent → Prop
  | .read (.ok data) => data = []
  | .read (.error kind) => kind = .other
  | .write (.error kind) => kind = .other ∧ connection.control.writes config ≠ none
  | .flush (.error kind) => kind = .other
  | .recv .disconnected => True
  | _ => False

/--
The call does not report `WouldBlock` where it is not expected, the size of the terminal
can be read, and the clock does not go backwards.
-/
def Expected (config : ConnectConfig) (connection : Connection) : ConnectionEvent → Prop
  | .write (.error .wouldBlock) =>
      connection.control.writes config = none ∨ connection.control.isForwarding = true
  | .flush (.error .wouldBlock) => False
  | .getSize none => False
  | .clockBeforeEpoch => False
  | .getNow now =>
      config.overflowChecks = true →
        ∀ lastKeepAlive ∈ connection.lastKeepAlive, lastKeepAlive ≤ now
  | _ => True

instance (config : ConnectConfig) (connection : Connection) :
    (event : ConnectionEvent) → Decidable (FailsForGood config connection event)
  | .read (.ok data) => inferInstanceAs (Decidable (data = []))
  | .read (.error kind) | .flush (.error kind) => inferInstanceAs (Decidable (kind = .other))
  | .write (.error kind) => inferInstanceAs (Decidable (kind = .other ∧ _ ≠ none))
  | .recv .disconnected => isTrue trivial
  | .write (.ok _) | .getSize _ | .lockHistory _ | .recv (.msg _) | .recv .timeout | .getNow _
  | .clockBeforeEpoch | .flush (.ok _) =>
      isFalse id

instance (config : ConnectConfig) (connection : Connection) :
    (event : ConnectionEvent) → Decidable (Expected config connection event)
  | .write (.error .wouldBlock) => inferInstanceAs (Decidable (_ = none ∨ _ = true))
  | .getNow now =>
      inferInstanceAs (Decidable (config.overflowChecks = true →
        ∀ lastKeepAlive ∈ connection.lastKeepAlive, lastKeepAlive ≤ now))
  | .flush (.error .wouldBlock) | .getSize none | .clockBeforeEpoch => isFalse id
  | .write (.ok _) | .write (.error .other) | .getSize (some _) | .lockHistory _ | .read _
  | .recv _ | .flush (.ok _) | .flush (.error .other) =>
      isTrue trivial

/-- The bytes delivered by a read, if there are any. -/
def ConnectionEvent.readData? : ConnectionEvent → Option Bytes
  | .read (.ok data) => if data = [] then none else some data
  | _ => none

/-- The bytes delivered by the reads of a run, read by read. -/
def readData (events : List ConnectionEvent) : List Bytes :=
  events.filterMap ConnectionEvent.readData?

/-- The bytes still to be read can be decoded, also when some more follow. -/
def Decodes (config : ConnectConfig) (connection : Connection) (events : List ConnectionEvent) :
    Prop :=
  ∃ rest : Bytes,
    (separateReads config.base64 connection.bufStr (readData events ++ [rest])).isOk = true

namespace Connection

section Ended

variable {config : ConnectConfig} {connection next : Connection} {event : ConnectionEvent}
  {events : List ConnectionEvent}

theorem stuck_of_isEnded (ended : connection.control.isEnded = true) :
    connection.step config event = none := by
  unfold step
  cases control : connection.control <;> simp [control, Control.isEnded] at ended <;>
    cases event <;> simp [Control.sending]

theorem control_of_send {sent : Sent} {result : Except ErrorKind ℕ}
    (taken : connection.send config sent result = some next) :
    next.control = connection.control.afterSend
      (match sent.frame config with
        | none => .ok 0
        | some _ => result) := by
  simp only [send, Sent.send_eq] at taken
  split at taken
  · cases taken
    cases sent.frame config <;> rfl
  · cases taken

theorem isEnded_afterSend_ok {control : Control} {sent : Sent}
    (sends : control.sending = some sent) (n : ℕ) :
    (control.afterSend (.ok n)).isEnded = false := by
  cases control with
  | replay msg rest => cases rest <;> rfl
  | _ => first | rfl | cases sends

theorem isEnded_afterSend_error (control : Control) (kind : ErrorKind) :
    (control.afterSend (.error kind)).isEnded = true ↔
      kind = .other ∨ control.isForwarding = false := by
  cases control <;> cases kind <;>
    simp [Control.afterSend, Control.isEnded, Control.isForwarding]

theorem ended_of_send_iff {sent : Sent} {result : Except ErrorKind ℕ}
    (sends : connection.control.sending = some sent)
    (taken : connection.send config sent result = some next) :
    next.control.isEnded = true ↔
      FailsForGood config connection (.write result) ∨ ¬Expected config connection (.write result) := by
  have writes : connection.control.writes config = sent.frame config := by
    rw [Control.writes, sends, Option.bind_some]
  rw [control_of_send taken]
  cases frame : sent.frame config with
  | none =>
      rw [frame] at writes
      rw [isEnded_afterSend_ok sends]
      cases result with
      | ok n => simp [FailsForGood, Expected]
      | error kind => cases kind <;> simp [FailsForGood, Expected, writes]
  | some bytes =>
      rw [frame] at writes
      cases result with
      | ok n => simp [isEnded_afterSend_ok sends, FailsForGood, Expected]
      | error kind =>
          rw [isEnded_afterSend_error]
          cases kind <;> simp [FailsForGood, Expected, writes]

theorem decodes_of_unread (decodes : Decodes config connection (event :: events))
    (unread : event.readData? = none) (same : next.bufStr = connection.bufStr) :
    Decodes config next events := by
  rcases decodes with ⟨rest, delivers⟩
  refine ⟨rest, ?_⟩
  rw [same]
  simpa [readData, unread] using delivers

/-- The first bytes are decoded, and so are the others with the buffer left by them. -/
theorem decodes_read {data : Bytes} (nonempty : data ≠ [])
    (decodes : Decodes config connection (.read (.ok data) :: events)) :
    ∃ separated, separateMessages config.base64 connection.bufStr (readBuffer data) data.length =
        .ok separated ∧
      connection.read config (.ok data) =
        { connection with
          control := .recv
          bufStr := separated.buffer
          toCmd := connection.toCmd ++ separated.messages } ∧
      Decodes config (connection.read config (.ok data)) events := by
  rcases decodes with ⟨rest, delivers⟩
  have isRead : readData (.read (.ok data) :: events) = data :: readData events := by
    simp [readData, ConnectionEvent.readData?, nonempty]
  rw [isRead, List.cons_append, separateReads] at delivers
  cases first : separateMessages config.base64 connection.bufStr (readBuffer data) data.length with
  | error panic => simp [first, bind, Except.bind] at delivers
  | ok separated =>
      simp only [first, bind, Except.bind] at delivers
      have readEq : connection.read config (.ok data) =
          { connection with
            control := .recv
            bufStr := separated.buffer
            toCmd := connection.toCmd ++ separated.messages } := by
        simp [Connection.read, readMessagesFromStream_ok _ _ nonempty, first, Except.map]
      refine ⟨separated, rfl, readEq, rest, ?_⟩
      rw [readEq]
      cases others : separateReads config.base64 separated.buffer (readData events ++ [rest]) with
      | error panic => simp [others] at delivers
      | ok delivered => rfl

theorem ended_of_read_iff {result : Except ErrorKind Bytes}
    (decodes : Decodes config connection (.read result :: events)) :
    (connection.read config result).control.isEnded = true ↔
      FailsForGood config connection (.read result) := by
  cases result with
  | error kind =>
      cases kind <;>
        simp [Connection.read, readMessagesFromStream, FailsForGood, Control.isEnded]
  | ok data =>
      by_cases empty : data = []
      · simp [Connection.read, readMessagesFromStream, FailsForGood, Control.isEnded, empty]
      · rcases decodes_read empty decodes with ⟨separated, _, readEq, _⟩
        simp [readEq, FailsForGood, Control.isEnded, empty]

theorem ended_of_checkKeepAlive_iff (now : ℕ) :
    (connection.checkKeepAlive config now).isEnded = true ↔
      ¬Expected config connection (.getNow now) := by
  simp only [checkKeepAlive, Expected]
  cases connection.lastKeepAlive with
  | none => simp [Control.isEnded]
  | some lastKeepAlive =>
      by_cases forward : lastKeepAlive ≤ now
      · simp only [elapsedMillis, forward, if_true]
        split <;> simp [Control.isEnded, forward]
      · cases checked : config.overflowChecks
        · have wraps : elapsedMillis config now lastKeepAlive =
              .ok (now + 2 ^ 128 - lastKeepAlive) := by
            simp [elapsedMillis, forward, checked]
          simp only [wraps]
          split <;> simp [Control.isEnded]
        · simp [elapsedMillis, forward, checked, Control.isEnded]

theorem decodes_of_step (decodes : Decodes config connection (event :: events))
    (taken : connection.step config event = some next) : Decodes config next events := by
  cases step_spec taken with
  | write sends taken =>
      rcases send_cases taken with ⟨n, _, rfl⟩ | ⟨kind, _, rfl⟩ <;>
        exact decodes_of_unread decodes rfl rfl
  | @read result control =>
      cases result with
      | error kind =>
          apply decodes_of_unread decodes rfl
          cases kind <;> rfl
      | ok data =>
          by_cases empty : data = []
          · apply decodes_of_unread decodes
            · simp [ConnectionEvent.readData?, empty]
            · simp [Connection.read, readMessagesFromStream, empty]
          · exact (decodes_read empty decodes).choose_spec.2.2
  | _ => exact decodes_of_unread decodes rfl rfl

/-- A step ends the connection exactly when a call fails for good or is not as expected. -/
theorem ended_of_step_iff (decodes : Decodes config connection (event :: events))
    (taken : connection.step config event = some next) :
    next.control.isEnded = true ↔
      FailsForGood config connection event ∨ ¬Expected config connection event := by
  cases step_spec taken with
  | write sends taken => exact ended_of_send_iff sends taken
  | read control => simpa [Expected] using ended_of_read_iff decodes
  | getNow control => simpa [FailsForGood] using ended_of_checkKeepAlive_iff _
  | lockHistory control => simp [FailsForGood, Expected]
  | @notFlushed now kind control => cases kind <;> simp [FailsForGood, Expected, Control.isEnded]
  | _ => simp [FailsForGood, Expected, Control.isEnded]

end Ended

end Connection

theorem expected_of_failsForGood {config : ConnectConfig} (connection : Connection)
    (event : ConnectionEvent) (fails : FailsForGood config connection event) :
    Expected config connection event := by
  unfold FailsForGood at fails
  unfold Expected
  split at fails <;> simp_all

theorem decodes_start {config : ConnectConfig} (lawful : config.base64.Lawful)
    {frames : List Frame} {rest : Bytes} {events : List ConnectionEvent}
    (wellFormed : (readData events).flatten ++ rest = frames.flatMap (Frame.bytes config.base64)) :
    Decodes config .start events := by
  have cut : (readData events ++ [rest]).flatten = stream config.base64 (frames.map .good) := by
    rw [stream_map_good, ← wellFormed]
    simp
  rcases separateReads_stream_frames lawful frames cut with ⟨lists, delivers, _⟩
  exact ⟨rest, by simp [Connection.start, delivers]⟩

/--
A connection that reads well-formed frames ends only when the stream or the channel fails
for good, exactly when all calls of the run have expected results.
-/
theorem ends_only_for_good_iff {config : ConnectConfig} (lawful : config.base64.Lawful)
    {events : List ConnectionEvent} {connection : Connection} {frames : List Frame} {rest : Bytes}
    (wellFormed : (readData events).flatten ++ rest = frames.flatMap (Frame.bytes config.base64))
    (reaches : Transition.run (Connection.step config) .start events = some connection) :
    (connection.control = .returned ∨ connection.control = .panicked →
        Transition.Occurs (Connection.step config) (FailsForGood config) .start events) ↔
      Transition.Meets (Connection.step config) (Expected config) .start events := by
  have ended : connection.control = .returned ∨ connection.control = .panicked ↔
      connection.control.isEnded = true := by
    cases connection.control <;> simp [Control.isEnded]
  have kept : ∀ connection event events next, Decodes config connection (event :: events) →
      connection.step config event = some next → Decodes config next events :=
    fun _ _ _ _ decodes taken => Connection.decodes_of_step decodes taken
  have ends : ∀ connection event events next, Decodes config connection (event :: events) →
      connection.step config event = some next →
      (next.control.isEnded = true ↔
        FailsForGood config connection event ∨ ¬Expected config connection event) :=
    fun _ _ _ _ decodes taken => Connection.ended_of_step_iff decodes taken
  have going : ¬Connection.start.control.isEnded = true := by decide
  rw [ended]
  exact Transition.ended_only_after_iff kept (fun _ _ => Connection.stuck_of_isEnded) ends
    expected_of_failsForGood (decodes_start lawful wellFormed) going reaches

/-- A run of a connection in which a read, a write and the channel have nothing to give. -/
def quietRun : List ConnectionEvent :=
  [.write (.ok 12), .getSize (some (24, 80)), .write (.ok 24), .lockHistory [],
    .read (.ok (asBytes "YWI=-iii---
")), .recv .timeout, .getNow 5, .write (.ok 4),
    .flush (.ok ()), .read (.error .wouldBlock),
    .recv (.msg { id := 0, message := { mtype := .stdout, content := some (asBytes "ab") } }),
    .write (.error .wouldBlock), .write (.ok 12), .getNow 5]

theorem ends_only_for_good_quietRun :
    ∃ connection, Transition.run (Connection.step localConfig) .start quietRun = some connection ∧
      (connection.control = .returned ∨ connection.control = .panicked →
        Transition.Occurs (Connection.step localConfig) (FailsForGood localConfig) .start
          quietRun) := by
  have reaches : (Transition.run (Connection.step localConfig) .start quietRun).isSome := by
    decide +kernel
  rcases Option.isSome_iff_exists.mp reaches with ⟨connection, reaches⟩
  have wellFormed : (readData quietRun).flatten ++ [] =
      [Frame.message .stdin (asBytes "ab")].flatMap (Frame.bytes localConfig.base64) := by
    decide
  exact ⟨connection, reaches,
    (ends_only_for_good_iff Base64.standard_lawful wellFormed reaches).mpr (by decide +kernel)⟩

/-- A full socket buffer during the replay of the history ends the connection. -/
theorem not_ends_only_for_good :
    ∃ events connection, readData events = [] ∧
      Transition.run (Connection.step localConfig) .start events = some connection ∧
      connection.control = .returned ∧
      ¬Transition.Occurs (Connection.step localConfig) (FailsForGood localConfig) .start events := by
  refine ⟨[.write (.ok 12), .getSize (some (24, 80)), .write (.ok 24),
    .lockHistory [{ id := 0, message := { mtype := .stdout, content := some (asBytes "ab") } }],
    .write (.error .wouldBlock)], _, rfl, rfl, rfl, ?_⟩
  decide

end Hoposhell
