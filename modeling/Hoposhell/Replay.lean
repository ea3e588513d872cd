import Hoposhell.Shell

/-!
# The order of the replayed output

A connection writes the history first and the channel afterwards, and both hold the
messages of the stdout thread.  The invariant `Ordered` is about one line: what has
been written on the connection, what is still to be replayed, the channel, and the
message recorded last.  Its output is in production order until a replay starts while
some output is still in the channel.
-/

namespace Hoposhell

def Posted.isStdout (msg : Posted) : Bool :=
  msg.message.mtype == .stdout

/-- The output messages written on a connection, in order. -/
def Connection.writtenStdout (connection : Connection) : List Posted :=
  (postedOf connection.sent).filter Posted.isStdout

/--
A replay starts only when no output message waits on the channel, and none has been
recorded that has still to be put there.
-/
def ReplaysDrained (shell : Shell) : ShellEvent → Prop
  | .handle (.lockHistory _) =>
      shell.recorded = none ∧ ∀ msg ∈ shell.channel, msg.isStdout = false
  | _ => True

instance (shell : Shell) : (event : ShellEvent) → Decidable (ReplaysDrained shell event)
  | .handle (.lockHistory _) => inferInstanceAs (Decidable (_ ∧ ∀ msg ∈ shell.channel, _ = _))
  | .produce _ | .enqueue | .respond _ | .connect | .disconnect | .handle (.write _)
  | .handle (.getSize _) | .handle (.read _) | .handle (.recv _) | .handle (.getNow _)
  | .handle .clockBeforeEpoch | .handle (.flush _) =>
      inferInstanceAs (Decidable True)

/-- Identities increase, up to a bound. -/
structure Increasing (bound : ℕ) (msgs : List Posted) : Prop where
  pairwise : msgs.Pairwise fun earlier later => earlier.id < later.id
  below : ∀ msg ∈ msgs, msg.id < bound

namespace Increasing

theorem nil (bound : ℕ) : Increasing bound [] where
  pairwise := List.Pairwise.nil
  below := by simp

theorem sublist {bound : ℕ} {msgs fewer : List Posted} (increasing : Increasing bound msgs)
    (sublist : fewer.Sublist msgs) : Increasing bound fewer where
  pairwise := increasing.pairwise.sublist sublist
  below msg mem := increasing.below msg (sublist.subset mem)

theorem succ {bound : ℕ} {msgs : List Posted} (increasing : Increasing bound msgs) :
    Increasing (bound + 1) msgs where
  pairwise := increasing.pairwise
  below msg mem := Nat.lt_succ_of_lt (increasing.below msg mem)

theorem push {bound : ℕ} {msgs : List Posted} (increasing : Increasing bound msgs) {msg : Posted}
    (fresh : msg.id = bound) : Increasing (bound + 1) (msgs ++ [msg]) where
  pairwise := by
    refine List.pairwise_append.mpr ⟨increasing.pairwise, List.pairwise_singleton _ _, ?_⟩
    intro earlier mem later isNew
    rw [List.mem_singleton.mp isNew, fresh]
    exact increasing.below earlier mem
  below := by
    intro other mem
    rcases List.mem_append.mp mem with old | isNew
    · exact Nat.lt_succ_of_lt (increasing.below other old)
    · rw [List.mem_singleton.mp isNew, fresh]
      exact Nat.lt_succ_self bound

end Increasing

namespace Shell

/-- What has been or will be written on the current connection, in order. -/
def line (shell : Shell) : List Posted :=
  shell.connection.elim [] Connection.line ++ shell.channel ++ shell.recorded.toList

/-- The history and the output messages of the line are in production order. -/
structure Ordered (shell : Shell) : Prop where
  history : Increasing shell.nextId shell.history
  stdout : Increasing shell.nextId (shell.line.filter Posted.isStdout)
  beforeReplay : ∀ connection, shell.connection = some connection →
    connection.control.isBeforeReplay = true → postedOf connection.sent = []

theorem ordered_start : start.Ordered where
  history := .nil 0
  stdout := .nil 0
  beforeReplay := by simp [start]

theorem trimHistory_sublist (history : List Posted) :
    (trimHistory history).Sublist history := by
  unfold trimHistory
  split
  · exact List.drop_sublist _ _
  · exact List.Sublist.refl _

section Ordered

variable {config : ConnectConfig} {shell next : Shell} {event : ShellEvent}

theorem line_of_handle {event : ConnectionEvent} {connection nextConnection : Connection}
    (allowed : shell.Allows event)
    (taken : connection.step config event = some nextConnection)
    (notLock : ∀ history, event ≠ .lockHistory history) :
    (nextConnection.line ++ shell.channelAfter event).Sublist
      (connection.line ++ shell.channel) := by
  have line := Connection.line_of_step taken
  cases event with
  | lockHistory history => exact absurd rfl (notLock history)
  | recv received =>
      cases received with
      | msg msg =>
          rcases List.head?_eq_some_iff.mp allowed with ⟨rest, channel⟩
          simp only at line
          simp [line, channelAfter, channel]
      | timeout => exact line.append_right _
      | disconnected => exact line.append_right _
  | write _ | getSize _ | read _ | getNow _ | clockBeforeEpoch | flush _ => exact line.append_right _

theorem Ordered.handle {event : ConnectionEvent} {connection nextConnection : Connection}
    (ordered : shell.Ordered) (drained : ReplaysDrained shell (.handle event))
    (connected : shell.connection = some connection) (allowed : shell.Allows event)
    (taken : connection.step config event = some nextConnection) :
    Ordered
      { shell with connection := some nextConnection, channel := shell.channelAfter event } := by
  refine ⟨ordered.history, ?_, ?_⟩
  · by_cases lock : ∃ history, event = .lockHistory history
    · rcases lock with ⟨history, rfl⟩
      obtain rfl : history = shell.history := allowed
      have control : connection.control = .lockHistory := by
        cases Connection.step_spec taken
        assumption
      have silent : connection.line = [] := by
        have nothing := ordered.beforeReplay connection connected (by rw [control]; rfl)
        simp [Connection.line, nothing, control, Control.pending]
      have line : nextConnection.line = shell.history := by
        simpa [silent] using Connection.line_of_step taken
      have channel : shell.channel.filter Posted.isStdout = [] := by
        simpa using drained.2
      have stdout : Increasing shell.nextId (shell.history.filter Posted.isStdout) :=
        ordered.history.sublist List.filter_sublist
      simpa [Shell.line, line, channelAfter, channel, drained.1] using stdout
    · refine ordered.stdout.sublist (List.Sublist.filter _ ?_)
      have fewer := line_of_handle allowed taken fun history eq => lock ⟨history, eq⟩
      simpa [Shell.line, connected] using fewer.append_right shell.recorded.toList
  · intro other otherEq before
    obtain rfl : nextConnection = other := by simpa using otherEq
    rcases Connection.beforeReplay_of_step taken before with ⟨was, same⟩
    rw [same]
    exact ordered.beforeReplay connection connected was

/-- A step that starts no replay too early keeps the order. -/
theorem Ordered.step (ordered : shell.Ordered) (drained : ReplaysDrained shell event)
    (taken : shell.step config event = some next) : next.Ordered := by
  cases step_spec taken with
  | @produce content nothingRecorded unlocked =>
      refine ⟨(ordered.history.sublist (trimHistory_sublist _)).push rfl, ?_,
        ordered.beforeReplay⟩
      have stdout : Increasing (shell.nextId + 1) (shell.line.filter Posted.isStdout ++
          [{ id := shell.nextId, message := { mtype := .stdout, content := some content } }]) :=
        ordered.stdout.push rfl
      simpa [Shell.line, nothingRecorded, Posted.isStdout] using stdout
  | enqueue recorded =>
      refine ⟨ordered.history, ?_, ordered.beforeReplay⟩
      simpa [Shell.line, recorded] using ordered.stdout
  | respond =>
      refine ⟨ordered.history.succ, ?_, ordered.beforeReplay⟩
      simpa [Shell.line, Posted.isStdout] using ordered.stdout.succ
  | connect disconnected =>
      refine ⟨ordered.history, ?_, ?_⟩
      · simpa [Shell.line, disconnected, Connection.line, Connection.start, postedOf,
          Control.pending] using ordered.stdout
      · intro connection connected _
        obtain rfl : .start = connection := by simpa using connected
        rfl
  | handle connected allowed handled => exact ordered.handle drained connected allowed handled
  | disconnect connected returned =>
      refine ⟨ordered.history, ordered.stdout.sublist (List.Sublist.filter _ ?_), by simp⟩
      simp [Shell.line, connected]

/--
Within a connection no output is repeated or reordered, in every run in which a replay
starts only once the channel has no output left.
-/
theorem writtenStdout_increasing {events : List ShellEvent}
    (reaches : Transition.run (Shell.step config) .start events = some shell)
    (drained : Transition.Meets (Shell.step config) ReplaysDrained .start events)
    {connection : Connection} (connected : shell.connection = some connection) :
    connection.writtenStdout.Pairwise fun earlier later => earlier.id < later.id := by
  have ordered : shell.Ordered :=
    Transition.run_preserves (fun _ _ _ holds guard taken => Ordered.step holds guard taken)
      ordered_start drained reaches
  have stdout := ordered.stdout.pairwise
  simp only [Shell.line, connected, Option.elim_some, Connection.line, List.filter_append,
    List.append_assoc] at stdout
  exact (List.pairwise_append.mp stdout).1

end Ordered

end Shell

/-- A connection up to the loop, after a replay of these messages. -/
def untilLoop (history : List Posted) : List ShellEvent :=
  [.connect, .handle (.write (.ok 12)), .handle (.getSize (some (24, 80))),
    .handle (.write (.ok 24)), .handle (.lockHistory history)] ++
    history.map (fun _ => .handle (.write (.ok 12))) ++ [.handle (.read (.error .wouldBlock))]

def firstOutput : Posted where
  id := 0
  message := { mtype := .stdout, content := some (asBytes "ab") }

def replayedRun : List ShellEvent :=
  untilLoop [] ++
    [.produce (asBytes "ab"), .enqueue, .handle (.recv (.msg firstOutput)),
      .handle (.write (.ok 12)), .handle (.getNow 0), .handle (.write (.error .wouldBlock)),
      .disconnect] ++
    untilLoop [firstOutput]

theorem writtenStdout_increasing_replayedRun :
    ∃ shell connection, Transition.run (Shell.step localConfig) .start replayedRun = some shell ∧
      shell.connection = some connection ∧
      connection.writtenStdout.Pairwise fun earlier later => earlier.id < later.id := by
  have reaches : ((Transition.run (Shell.step localConfig) .start replayedRun).bind
      (·.connection)).isSome := by
    decide
  rcases Option.isSome_iff_exists.mp reaches with ⟨connection, reaches⟩
  rcases Option.bind_eq_some_iff.mp reaches with ⟨shell, reaches, connected⟩
  exact ⟨shell, connection, reaches, connected,
    Shell.writtenStdout_increasing reaches (by decide) connected⟩

/-- A message that waits on the channel when its replay starts is written twice. -/
theorem not_writtenStdout_increasing :
    ¬∀ (config : ConnectConfig) (events : List ShellEvent) (shell : Shell)
      (connection : Connection),
      Transition.run (Shell.step config) .start events = some shell →
        shell.connection = some connection →
        connection.writtenStdout.Pairwise fun earlier later => earlier.id < later.id := by
  intro always
  let reached := (Transition.run (Shell.step localConfig) .start
    ([.produce (asBytes "ab"), .enqueue] ++ untilLoop [firstOutput] ++
      [.handle (.recv (.msg firstOutput)), .handle (.write (.ok 12))])).bind fun shell =>
        shell.connection
  have twice : reached.map (·.writtenStdout) = some [firstOutput, firstOutput] := by decide
  rcases Option.map_eq_some_iff.mp twice with ⟨connection, reachedEq, writtenEq⟩
  rcases Option.bind_eq_some_iff.mp reachedEq with ⟨shell, reaches, connected⟩
  have increasing := always localConfig _ shell connection reaches connected
  rw [writtenEq] at increasing
  exact absurd increasing (by decide)

end Hoposhell
