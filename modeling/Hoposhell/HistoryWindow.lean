import Hoposhell.Shell
import Mathlib.Data.List.DropRight

/-!
# The window of the output that the history holds

The stdout thread trims the history before it pushes a message.  What is left after
the push is the last `MAX_MESSAGE_HISTORY_SIZE + 1` messages produced: one more than
the constant says from the first message on that should have been dropped.
-/

namespace Hoposhell

/-- The message that the stdout thread produces. -/
def ShellEvent.output? : ShellEvent → Option (Message MessageTypeToStream)
  | .produce content => some { mtype := .stdout, content := some content }
  | _ => none

/-- The output produced in a run, in order. -/
def outputs (events : List ShellEvent) : List (Message MessageTypeToStream) :=
  events.filterMap ShellEvent.output?

theorem trimHistory_eq_rtake (history : List Posted) :
    trimHistory history = history.rtake maxMessageHistorySize := by
  unfold trimHistory List.rtake
  split
  · rfl
  · rw [Nat.sub_eq_zero_of_le (by omega), List.drop_zero]

theorem rtake_rtake_succ {α : Type} (n : ℕ) (items : List α) :
    (items.rtake (n + 1)).rtake n = items.rtake n := by
  simp only [List.rtake, List.length_drop, List.drop_drop]
  congr 1
  omega

/-- The trim and the push keep the last messages of what has been produced. -/
theorem push_trimHistory {history : List Posted} {produced : List (Message MessageTypeToStream)}
    (window : history.map (·.message) = produced.rtake (maxMessageHistorySize + 1)) (msg : Posted) :
    (trimHistory history ++ [msg]).map (·.message) =
      (produced ++ [msg.message]).rtake (maxMessageHistorySize + 1) := by
  have trimmed : (trimHistory history).map (·.message) =
      (history.map (·.message)).rtake maxMessageHistorySize := by
    rw [trimHistory_eq_rtake, List.rtake, List.rtake, List.map_drop, List.length_map]
  rw [List.map_append, trimmed, window, rtake_rtake_succ, List.rtake_concat_succ, List.map_singleton]

namespace Shell

variable {config : ConnectConfig} {shell next : Shell} {event : ShellEvent}

theorem history_of_step {produced : List (Message MessageTypeToStream)}
    (window : shell.history.map (·.message) = produced.rtake (maxMessageHistorySize + 1))
    (taken : shell.step config event = some next) :
    next.history.map (·.message) =
      (produced ++ event.output?.toList).rtake (maxMessageHistorySize + 1) := by
  cases step_spec taken with
  | produce => exact push_trimHistory window _
  | _ => simpa [ShellEvent.output?] using window

/-- In every run the history is the last messages produced, one more than its size allows. -/
theorem history_of_run {produced : List (Message MessageTypeToStream)} {events : List ShellEvent}
    (window : shell.history.map (·.message) = produced.rtake (maxMessageHistorySize + 1))
    (reaches : Transition.run (Shell.step config) shell events = some next) :
    next.history.map (·.message) =
      (produced ++ outputs events).rtake (maxMessageHistorySize + 1) := by
  induction events generalizing shell produced with
  | nil =>
      obtain rfl : shell = next := by simpa [Transition.run] using reaches
      simpa [outputs] using window
  | cons event events ih =>
      rcases Transition.run_cons_eq_some_iff.mp reaches with ⟨middle, taken, rest⟩
      rw [ih (history_of_step window taken) rest, List.append_assoc]
      congr 2
      cases output : event.output? <;> simp [outputs, output]

end Shell

theorem rtake_eq_rtake_succ_iff {α : Type} {n : ℕ} {items : List α} :
    items.rtake (n + 1) = items.rtake n ↔ items.length ≤ n := by
  constructor
  · intro same
    have lengths := congrArg List.length same
    simp only [List.rtake, List.length_drop] at lengths
    omega
  · intro short
    rw [List.rtake, List.rtake, Nat.sub_eq_zero_of_le short, Nat.sub_eq_zero_of_le (by omega)]

/--
The history holds the last `MAX_MESSAGE_HISTORY_SIZE` messages produced exactly as long as
no more than that many have been.  In every run it holds the last
`MAX_MESSAGE_HISTORY_SIZE + 1`, and a replay goes through a contiguous tail of the output.
-/
theorem history_window_iff {config : ConnectConfig} {events : List ShellEvent} {shell : Shell}
    (reaches : Transition.run (Shell.step config) .start events = some shell) :
    (shell.history.map (·.message) = (outputs events).rtake maxMessageHistorySize ↔
        (outputs events).length ≤ maxMessageHistorySize) ∧
      shell.history.map (·.message) = (outputs events).rtake (maxMessageHistorySize + 1) ∧
      ∀ replayed, shell.Allows (.lockHistory replayed) →
        replayed.map (·.message) <:+ outputs events := by
  have empty : Shell.start.history.map (·.message) =
      List.rtake [] (maxMessageHistorySize + 1) := by
    rfl
  have window := Shell.history_of_run empty reaches
  rw [List.nil_append] at window
  refine ⟨?_, window, ?_⟩
  · rw [window]
    exact rtake_eq_rtake_succ_iff
  · rintro replayed rfl
    rw [window]
    exact List.drop_suffix _ _

theorem history_window_two :
    ∃ shell, Transition.run (Shell.step localConfig) .start
        [.produce (asBytes "a"), .enqueue, .produce (asBytes "b"), .enqueue] = some shell ∧
      shell.history.map (·.message) =
        (outputs [.produce (asBytes "a"), .enqueue, .produce (asBytes "b"), .enqueue]).rtake
          maxMessageHistorySize := by
  have reaches : (Transition.run (Shell.step localConfig) .start
      [.produce (asBytes "a"), .enqueue, .produce (asBytes "b"), .enqueue]).isSome := by
    decide
  rcases Option.isSome_iff_exists.mp reaches with ⟨shell, reaches⟩
  exact ⟨shell, reaches, (history_window_iff reaches).1.mpr (by decide)⟩

/-- Output produced and put on the channel so many times. -/
def producing (n : ℕ) : List ShellEvent :=
  (List.replicate n [ShellEvent.produce (asBytes "a"), .enqueue]).flatten

theorem length_outputs_producing (n : ℕ) : (outputs (producing n)).length = n := by
  induction n with
  | zero => rfl
  | succ n ih =>
      have more : producing (n + 1) = .produce (asBytes "a") :: .enqueue :: producing n := rfl
      rw [more]
      exact congrArg (· + 1) ih

theorem exists_run_producing (config : ConnectConfig) (n : ℕ) {shell : Shell}
    (nothingRecorded : shell.recorded = none) (disconnected : shell.connection = none) :
    ∃ next, Transition.run (Shell.step config) shell (producing n) = some next := by
  induction n generalizing shell with
  | zero => exact ⟨shell, rfl⟩
  | succ n ih =>
      have more : producing (n + 1) = .produce (asBytes "a") :: .enqueue :: producing n := rfl
      have short : (asBytes "a").length ≤ bufSize := by decide
      have nonempty : asBytes "a" ≠ [] := by decide
      simp only [more, Transition.run, Shell.step, nothingRecorded, Shell.isLocked, disconnected,
        Option.any_none, short, nonempty, ne_eq, not_false_eq_true, and_self, if_true,
        Option.bind_some]
      apply ih
      · rfl
      · rfl

/-- After 2049 messages the history holds all of them, one too many. -/
theorem history_too_long :
    ∃ events shell, Transition.run (Shell.step localConfig) .start events = some shell ∧
      (outputs events).length = maxMessageHistorySize + 1 ∧
      shell.history.length = maxMessageHistorySize + 1 ∧
      shell.history.map (·.message) ≠ (outputs events).rtake maxMessageHistorySize := by
  have produced := length_outputs_producing (maxMessageHistorySize + 1)
  rcases exists_run_producing localConfig (maxMessageHistorySize + 1)
      (rfl : Shell.start.recorded = none) rfl with
    ⟨shell, reaches⟩
  have empty : Shell.start.history.map (·.message) =
      List.rtake [] (maxMessageHistorySize + 1) := by
    rfl
  have window := Shell.history_of_run empty reaches
  rw [List.nil_append] at window
  refine ⟨producing (maxMessageHistorySize + 1), shell, reaches, produced, ?_, ?_⟩
  · rw [← List.length_map (·.message), window, List.rtake, List.length_drop, produced]
    omega
  · rw [window, Ne, rtake_eq_rtake_succ_iff, produced]
    omega

end Hoposhell
