import Hoposhell.Library.Transition
import Hoposhell.Message

/-!
# A connection to the server

`handle_connection` sends a header and the size of the terminal, replays the history
of messages, and then loops: it reads, sends one message from the channel and, when
it is time, a keep-alive.  The loop is a transition system whose control points are
the calls it makes to the outside, and whose events are what these calls return.

The messages of the channel and of the history carry an identity that the program
does not have and that no step looks at.  `accepted` and `sent` record what the stream
has accepted and which frames the program takes to have been sent.
-/

namespace Hoposhell

/-- A message put on the channel or into the history, and which one it is. -/
structure Posted where
  id : ℕ
  message : Message MessageTypeToStream
deriving DecidableEq, Repr

structure ConnectConfig where
  base64 : Base64.Engine
  version : String
  keepAliveDelta : ℕ
  /-- Whether a subtraction below zero panics, as it does unless built for release. -/
  overflowChecks : Bool

def ConnectConfig.headerMsg (config : ConnectConfig) : Message MessageTypeToStream where
  mtype := .header
  content := some (asBytes ("v" ++ config.version))

def makeSizeMessage (rows cols : ℕ) : Message MessageTypeToStream where
  mtype := .command
  content := some (asBytes "size" ++ [messagePartsSeparator] ++ asBytes (toString rows) ++
    [messagePartsSeparator] ++ asBytes (toString cols))

/-- What is sent by one call of `write`. -/
inductive Sent where
  | header
  | size (msg : Message MessageTypeToStream)
  | replayed (msg : Posted)
  | forwarded (msg : Posted)
  | keepAlive
deriving DecidableEq, Repr

/-- The bytes handed to `write`, if it is called. -/
def Sent.frame (config : ConnectConfig) : Sent → Option Bytes
  | .header => encodedContent config.base64 config.headerMsg
  | .size msg => encodedContent config.base64 msg
  | .replayed msg => encodedContent config.base64 msg.message
  | .forwarded msg => encodedContent config.base64 msg.message
  | .keepAlive => some terminator

/-- The call that sends: `send_message_to_stream`, or `write` for a keep-alive. -/
def Sent.send (config : ConnectConfig) (sent : Sent) (write : Bytes → Except ErrorKind ℕ) :
    Except ErrorKind ℕ :=
  match sent with
  | .header => sendMessageToStream config.base64 config.headerMsg write
  | .size msg => sendMessageToStream config.base64 msg write
  | .replayed msg => sendMessageToStream config.base64 msg.message write
  | .forwarded msg => sendMessageToStream config.base64 msg.message write
  | .keepAlive => write terminator

/-- The point `handle_connection` is at: the call it makes next. -/
inductive Control where
  | header
  | getSize
  | size (msg : Message MessageTypeToStream)
  /-- Before the history is locked. -/
  | lockHistory
  /-- In the replay, with the history locked and these messages left. -/
  | replay (msg : Posted) (rest : List Posted)
  | read
  | recv
  | send (msg : Posted)
  | getNow
  | keepAlive (now : ℕ)
  | flush (now : ℕ)
  | returned
  | panicked
deriving DecidableEq, Repr

namespace Control

/-- The start of the replay, or the end of it when no message is left. -/
def replayAll : List Posted → Control
  | [] => .read
  | msg :: rest => .replay msg rest

def sending : Control → Option Sent
  | .header => some .header
  | .size msg => some (.size msg)
  | .replay msg _ => some (.replayed msg)
  | .send msg => some (.forwarded msg)
  | .keepAlive _ => some .keepAlive
  | _ => none

/-- Where the result of sending leads. -/
def afterSend (control : Control) (result : Except ErrorKind ℕ) : Control :=
  match control, result with
  | .header, .ok _ => .getSize
  | .size _, .ok _ => .lockHistory
  | .replay _ rest, .ok _ => replayAll rest
  | .send _, .ok _ => .getNow
  | .send msg, .error .wouldBlock => .send msg
  | .keepAlive now, .ok _ => .flush now
  | _, _ => .returned

end Control

structure Connection where
  control : Control
  bufStr : Bytes
  lastKeepAlive : Option ℕ
  /-- The messages put on the channel to the command. -/
  toCmd : List (Message MessageTypeToCmd)
  /-- The bytes the stream has accepted. -/
  accepted : Bytes
  /-- What has been sent, as far as the program knows. -/
  sent : List Sent
deriving DecidableEq, Repr

/-- What `recv_timeout` returns. -/
inductive Received where
  | msg (msg : Posted)
  | timeout
  | disconnected
deriving DecidableEq, Repr

/-- What a call of `handle_connection` to the outside returns. -/
inductive ConnectionEvent where
  | write (result : Except ErrorKind ℕ)
  | getSize (size : Option (ℕ × ℕ))
  | lockHistory (history : List Posted)
  | read (result : Except ErrorKind Bytes)
  | recv (received : Received)
  | getNow (now : ℕ)
  /-- The clock is set before `UNIX_EPOCH`, which `get_now` does not expect. -/
  | clockBeforeEpoch
  | flush (result : Except ErrorKind Unit)

/--
The contract of `write`: it accepts at least one byte and at most all of them, or it
fails and accepts none.
-/
def WriteContract (bytes : Bytes) (result : Except ErrorKind ℕ) : Prop :=
  match result with
  | .ok n => 1 ≤ n ∧ n ≤ bytes.length
  | .error _ => True

instance (bytes : Bytes) : (result : Except ErrorKind ℕ) → Decidable (WriteContract bytes result)
  | .ok _ => inferInstanceAs (Decidable (_ ∧ _))
  | .error _ => inferInstanceAs (Decidable True)

def acceptedBytes (bytes : Bytes) (result : Except ErrorKind ℕ) : Bytes :=
  match result with
  | .ok n => bytes.take n
  | .error _ => []

/-- `now - last_keep_alive` on `u128`. -/
def elapsedMillis (config : ConnectConfig) (now lastKeepAlive : ℕ) : Except Panic ℕ :=
  if lastKeepAlive ≤ now then .ok (now - lastKeepAlive)
  else if config.overflowChecks then .error .overflow
  else .ok (now + 2 ^ 128 - lastKeepAlive)

namespace Connection

def start : Connection where
  control := .header
  bufStr := []
  lastKeepAlive := none
  toCmd := []
  accepted := []
  sent := []

/-- One call that sends, with the result of its `write`. -/
def send (config : ConnectConfig) (connection : Connection) (sent : Sent)
    (result : Except ErrorKind ℕ) : Option Connection :=
  let bytes := (sent.frame config).getD []
  if sent.frame config = none ∨ WriteContract bytes result then
    let outcome := sent.send config fun _ => result
    some
      { connection with
        control := connection.control.afterSend outcome
        accepted := connection.accepted ++ acceptedBytes bytes result
        sent := if outcome.isOk then connection.sent ++ [sent] else connection.sent }
  else none

def read (config : ConnectConfig) (connection : Connection) (result : Except ErrorKind Bytes) :
    Connection :=
  match readMessagesFromStream config.base64 connection.bufStr result with
  | .error _ => { connection with control := .panicked }
  | .ok (bufStr, .ok messages) =>
      { connection with control := .recv, bufStr, toCmd := connection.toCmd ++ messages }
  | .ok (bufStr, .canContinue) => { connection with control := .recv, bufStr }
  | .ok (bufStr, .cannotContinue) => { connection with control := .returned, bufStr }

def checkKeepAlive (config : ConnectConfig) (connection : Connection) (now : ℕ) : Control :=
  match connection.lastKeepAlive with
  | none => .keepAlive now
  | some lastKeepAlive =>
      match elapsedMillis config now lastKeepAlive with
      | .error _ => .panicked
      | .ok elapsed => if elapsed < config.keepAliveDelta then .read else .keepAlive now

/-- One step of `handle_connection`. -/
def step (config : ConnectConfig) (connection : Connection) (event : ConnectionEvent) :
    Option Connection :=
  match connection.control, event with
  | .getSize, .getSize (some (rows, cols)) =>
      some { connection with control := .size (makeSizeMessage rows cols) }
  | .getSize, .getSize none => some { connection with control := .panicked }
  | .lockHistory, .lockHistory history =>
      some { connection with control := .replayAll history }
  | .read, .read result => some (connection.read config result)
  | .recv, .recv (.msg msg) => some { connection with control := .send msg }
  | .recv, .recv .timeout => some { connection with control := .getNow }
  | .recv, .recv .disconnected => some { connection with control := .returned }
  | .getNow, .getNow now => some { connection with control := connection.checkKeepAlive config now }
  | .getNow, .clockBeforeEpoch => some { connection with control := .panicked }
  | .flush now, .flush (.ok _) =>
      some { connection with control := .read, lastKeepAlive := some now }
  | .flush _, .flush (.error _) => some { connection with control := .returned }
  | control, .write result =>
      match control.sending with
      | some sent => connection.send config sent result
      | none => none
  | _, _ => none

end Connection

theorem Sent.send_eq (config : ConnectConfig) (sent : Sent) (write : Bytes → Except ErrorKind ℕ) :
    sent.send config write =
      match sent.frame config with
      | none => .ok 0
      | some bytes => write bytes := by
  cases sent <;> rfl

/-- The whole frames of what has been sent. -/
def sentBytes (config : ConnectConfig) (sent : List Sent) : Bytes :=
  sent.flatMap fun item => (item.frame config).getD []

def Control.sendingBytes (config : ConnectConfig) (control : Control) : Bytes :=
  (control.sending.bind fun item => item.frame config).getD []

/--
The stream has accepted exactly the frames sent, and at most a prefix of the one now
being sent.
-/
def Lossless (config : ConnectConfig) (connection : Connection) : Prop :=
  ∃ begun, connection.accepted = sentBytes config connection.sent ++ begun ∧
    begun <+: connection.control.sendingBytes config

/-- A write that accepts some bytes accepts all of them. -/
def WholeWrite (config : ConnectConfig) (connection : Connection) : ConnectionEvent → Prop
  | .write (.ok n) => (connection.control.sendingBytes config).length ≤ n
  | _ => True

instance (config : ConnectConfig) (connection : Connection) :
    (event : ConnectionEvent) → Decidable (WholeWrite config connection event)
  | .write (.ok _) => inferInstanceAs (Decidable (_ ≤ _))
  | .write (.error _) | .getSize _ | .lockHistory _ | .read _ | .recv _ | .getNow _
  | .clockBeforeEpoch | .flush _ =>
      inferInstanceAs (Decidable True)

namespace Connection

/-- What a step does, one case for each call that `handle_connection` makes. -/
inductive Step (config : ConnectConfig) (connection : Connection) :
    ConnectionEvent → Connection → Prop where
  | write {sent : Sent} {result : Except ErrorKind ℕ} {next : Connection}
      (sends : connection.control.sending = some sent)
      (taken : connection.send config sent result = some next) :
      Step config connection (.write result) next
  | getSize {rows cols : ℕ} (control : connection.control = .getSize) :
      Step config connection (.getSize (some (rows, cols)))
        { connection with control := .size (makeSizeMessage rows cols) }
  | noSize (control : connection.control = .getSize) :
      Step config connection (.getSize none) { connection with control := .panicked }
  | lockHistory {history : List Posted} (control : connection.control = .lockHistory) :
      Step config connection (.lockHistory history)
        { connection with control := .replayAll history }
  | read {result : Except ErrorKind Bytes} (control : connection.control = .read) :
      Step config connection (.read result) (connection.read config result)
  | recv {msg : Posted} (control : connection.control = .recv) :
      Step config connection (.recv (.msg msg)) { connection with control := .send msg }
  | timeout (control : connection.control = .recv) :
      Step config connection (.recv .timeout) { connection with control := .getNow }
  | disconnected (control : connection.control = .recv) :
      Step config connection (.recv .disconnected) { connection with control := .returned }
  | getNow {now : ℕ} (control : connection.control = .getNow) :
      Step config connection (.getNow now)
        { connection with control := connection.checkKeepAlive config now }
  | clockBeforeEpoch (control : connection.control = .getNow) :
      Step config connection .clockBeforeEpoch { connection with control := .panicked }
  | flushed {now : ℕ} (control : connection.control = .flush now) :
      Step config connection (.flush (.ok ()))
        { connection with control := .read, lastKeepAlive := some now }
  | notFlushed {now : ℕ} {kind : ErrorKind} (control : connection.control = .flush now) :
      Step config connection (.flush (.error kind)) { connection with control := .returned }

section Step

variable {config : ConnectConfig} {connection next : Connection} {event : ConnectionEvent}

theorem step_spec (taken : connection.step config event = some next) :
    Step config connection event next := by
  unfold step at taken
  split at taken
  case h_12 control result =>
      cases sends : connection.control.sending with
      | none => simp [sends] at taken
      | some sent => exact .write sends (by simpa [sends] using taken)
  case h_13 => cases taken
  all_goals
    cases taken
    constructor
    assumption

/-- A call that sends goes on with the frame sent, or fails and accepts nothing. -/
theorem send_cases {sent : Sent} {result : Except ErrorKind ℕ}
    (taken : connection.send config sent result = some next) :
    (∃ n, (sent.frame config = none ∨ result = .ok n) ∧ next =
      { connection with
        control := connection.control.afterSend (.ok n)
        accepted := connection.accepted ++ acceptedBytes ((sent.frame config).getD []) result
        sent := connection.sent ++ [sent] }) ∨
      ∃ kind, result = .error kind ∧
        next = { connection with control := connection.control.afterSend (.error kind) } := by
  simp only [send, Sent.send_eq] at taken
  split at taken
  · cases frame : sent.frame config with
    | none =>
        left
        refine ⟨0, .inl rfl, ?_⟩
        simpa [frame] using taken.symm
    | some bytes =>
        cases result with
        | ok n =>
            left
            refine ⟨n, .inr rfl, ?_⟩
            simpa [frame] using taken.symm
        | error kind =>
            right
            refine ⟨kind, rfl, ?_⟩
            simpa [frame, acceptedBytes] using taken.symm
  · cases taken

theorem accepted_read (config : ConnectConfig) (connection : Connection)
    (result : Except ErrorKind Bytes) :
    (connection.read config result).accepted = connection.accepted ∧
      (connection.read config result).sent = connection.sent := by
  unfold Connection.read
  split <;> exact ⟨rfl, rfl⟩

theorem step_adds (taken : connection.step config event = some next) :
    ∃ bytes n, next.accepted = connection.accepted ++ bytes.take n ∧
      sentBytes config next.sent = sentBytes config connection.sent ++ bytes ∧
      (WholeWrite config connection event ↔ bytes.length ≤ n) := by
  cases step_spec taken with
  | @write sent result _ sends taken =>
      have sending : connection.control.sendingBytes config = (sent.frame config).getD [] := by
        simp [Control.sendingBytes, sends]
      rcases send_cases taken with ⟨n, written, rfl⟩ | ⟨kind, rfl, rfl⟩
      · refine ⟨(sent.frame config).getD [], n, ?_, by simp [sentBytes], ?_⟩
        · rcases written with noFrame | rfl
          · cases result <;> simp [noFrame, acceptedBytes]
          · rfl
        · rcases written with noFrame | rfl
          · cases result <;> simp [WholeWrite, sending, noFrame]
          · simp [WholeWrite, sending]
      · exact ⟨[], 0, by simp, by simp, by simp [WholeWrite]⟩
  | read =>
      refine ⟨[], 0, ?_, ?_, by simp [WholeWrite]⟩ <;> simp [accepted_read]
  | _ => exact ⟨[], 0, by simp, by simp, by simp [WholeWrite]⟩

end Step

/-- The bytes accepted are the frames sent, or already fewer. -/
def Accounted (config : ConnectConfig) (connection : Connection) : Prop :=
  connection.accepted = sentBytes config connection.sent ∨
    connection.accepted.length < (sentBytes config connection.sent).length

theorem lossless_iff {config : ConnectConfig} {connection : Connection}
    (accounted : connection.Accounted config) :
    Lossless config connection ↔ connection.accepted = sentBytes config connection.sent := by
  constructor
  · rintro ⟨begun, acceptedEq, _⟩
    rcases accounted with exact | fewer
    · exact exact
    · rw [acceptedEq, List.length_append] at fewer
      omega
  · intro acceptedEq
    exact ⟨[], by simpa using acceptedEq, List.nil_prefix⟩

theorem accounted_start (config : ConnectConfig) : Connection.start.Accounted config := .inl rfl

section Accounted

variable {config : ConnectConfig} {connection next : Connection} {event : ConnectionEvent}

theorem fewer_of_step
    (fewer : connection.accepted.length < (sentBytes config connection.sent).length)
    (taken : connection.step config event = some next) :
    next.accepted.length < (sentBytes config next.sent).length := by
  rcases step_adds taken with ⟨bytes, n, acceptedEq, sentEq, _⟩
  rw [acceptedEq, sentEq, List.length_append, List.length_append, List.length_take]
  omega

/-- A step loses bytes exactly when it is a short write. -/
theorem exact_of_step_iff (exact : connection.accepted = sentBytes config connection.sent)
    (taken : connection.step config event = some next) :
    next.accepted = sentBytes config next.sent ↔ WholeWrite config connection event := by
  rcases step_adds taken with ⟨bytes, n, acceptedEq, sentEq, whole⟩
  rw [acceptedEq, sentEq, exact, List.append_cancel_left_eq, List.take_eq_self_iff, whole]

theorem Accounted.step (accounted : connection.Accounted config)
    (taken : connection.step config event = some next) : next.Accounted config := by
  rcases accounted with exact | fewer
  · rcases step_adds taken with ⟨bytes, n, acceptedEq, sentEq, _⟩
    by_cases short : bytes.length ≤ n
    · left
      rw [acceptedEq, sentEq, exact, List.take_of_length_le short]
    · right
      rw [acceptedEq, sentEq, exact, List.length_append, List.length_append, List.length_take]
      omega
  · exact .inr (fewer_of_step fewer taken)

end Accounted

end Connection

/--
No byte is lost on the stream in a run exactly when every write of the run that accepts
some bytes accepts the whole frame.
-/
theorem lossless_iff_wholeWrites {config : ConnectConfig} {events : List ConnectionEvent}
    {connection : Connection}
    (reaches : Transition.run (Connection.step config) .start events = some connection) :
    Lossless config connection ↔
      Transition.Meets (Connection.step config) (WholeWrite config) .start events := by
  have accounted : connection.Accounted config :=
    Transition.run_invariant (fun _ _ _ holds taken => holds.step taken)
      (Connection.accounted_start config) reaches
  rw [Connection.lossless_iff accounted]
  refine Transition.iff_meets_of_run (fun _ _ _ holds taken => holds.step taken)
    (fun _ _ _ _ exact taken => Connection.exact_of_step_iff exact taken) ?_
    (Connection.accounted_start config) rfl reaches
  rintro state event next (exact | fewer) inexact taken
  · exact absurd exact inexact
  · intro exactNext
    have fewerNext := Connection.fewer_of_step fewer taken
    rw [exactNext] at fewerNext
    exact lt_irrefl _ fewerNext

def localConfig : ConnectConfig where
  base64 := Base64.standard
  version := "1"
  keepAliveDelta := 1000
  overflowChecks := true

/-- A connection up to the sending of one message of the channel. -/
def untilSend : List ConnectionEvent :=
  [.write (.ok 12), .getSize (some (24, 80)), .write (.ok 24), .lockHistory [],
    .read (.error .wouldBlock),
    .recv (.msg { id := 0, message := { mtype := .stdout, content := some (asBytes "ab") } })]

theorem lossless_after_retry :
    ∃ connection, Transition.run (Connection.step localConfig) .start
        (untilSend ++ [.write (.error .wouldBlock), .write (.ok 12), .getNow 0, .write (.ok 4)]) =
        some connection ∧
      Lossless localConfig connection := by
  have reaches : (Transition.run (Connection.step localConfig) .start
      (untilSend ++ [.write (.error .wouldBlock), .write (.ok 12), .getNow 0,
        .write (.ok 4)])).isSome := by
    decide
  rcases Option.isSome_iff_exists.mp reaches with ⟨connection, reaches⟩
  exact ⟨connection, reaches, (lossless_iff_wholeWrites reaches).mpr (by decide)⟩

/-- A stream that accepts one byte of a message loses the rest of it. -/
theorem not_lossless_after_short_write :
    ¬∀ (config : ConnectConfig) (events : List ConnectionEvent) (connection : Connection),
      Transition.run (Connection.step config) .start events = some connection →
        Lossless config connection := by
  intro always
  let reached := Transition.run (Connection.step localConfig) .start
    (untilSend ++ [.write (.ok 1)])
  have reaches : reached.isSome := by decide
  have fewer : reached.all fun connection =>
      connection.accepted.length < (sentBytes localConfig connection.sent).length := by
    decide
  rcases Option.isSome_iff_exists.mp reaches with ⟨connection, reachedEq⟩
  rcases always localConfig _ connection reachedEq with ⟨begun, acceptedEq, _⟩
  rw [reachedEq, Option.all_some, decide_eq_true_iff, acceptedEq, List.length_append] at fewer
  omega

end Hoposhell
