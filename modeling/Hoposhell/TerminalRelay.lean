import Hoposhell.LocalSinks
import Hoposhell.MainConnect
import Mathlib.Data.List.Flatten

/-!
# The terminal of a shell, relayed to the server and back

What the command of the shell prints goes to the server, and what the server sends for it is
written to the terminal.  In both directions no byte is made up, repeated or out of its turn.
Some are missing only after a write to the terminal that is short, or a write of output to the
stream that fails for good.
-/

namespace Hoposhell

/-- What the `STDIN` messages among the messages of the server hold. -/
def inputOf (messages : List (Message MessageTypeToCmd)) : Bytes :=
  (messages.filter (·.mtype = .stdin)).flatMap fun message => message.content.getD []

def isStdout (msg : Posted) : Bool :=
  msg.message.mtype = .stdout

def Posted.content (msg : Posted) : Bytes :=
  msg.message.content.getD []

/-- What the `STDOUT` messages among messages of the channel hold. -/
def outputOf (msgs : List Posted) : Bytes :=
  (msgs.filter isStdout).flatMap Posted.content

/-- What the stdout thread reads of the command. -/
def ShellEvent.output : ShellEvent → Bytes
  | .produce content => content
  | _ => []

@[simp]
theorem inputOf_append (messages messages' : List (Message MessageTypeToCmd)) :
    inputOf (messages ++ messages') = inputOf messages ++ inputOf messages' := by
  simp [inputOf]

@[simp]
theorem outputOf_append (msgs msgs' : List Posted) :
    outputOf (msgs ++ msgs') = outputOf msgs ++ outputOf msgs' := by
  simp [outputOf]

section Input

variable {json : Json.Codec} {hoposhellFolder : String} {events : List StdinEvent}
  {loop : StdinLoop}

theorem flatten_stdinContent (events : List StdinEvent) :
    (events.filterMap StdinEvent.stdinContent).flatten = inputOf (events.map (·.message)) := by
  induction events with
  | nil => rfl
  | cons event events ih =>
      simp only [inputOf] at ih
      rcases event with ⟨⟨mtype, content⟩, handlers, zstd, written, master⟩
      cases mtype <;> cases content <;> simp [inputOf, StdinEvent.stdinContent, ih]

/-- The calls of `write` to the terminal, each of which keeps its contract. -/
theorem obeys_of_mem_ptyWrites (obeys : ∀ event ∈ events, event.PtyObeys)
    {write : Sink.Write UInt8} (mem : write ∈ events.filterMap StdinEvent.ptyWrite) :
    write.Obeys := by
  rcases List.mem_filterMap.mp mem with ⟨event, eventMem, isWrite⟩
  cases content : event.stdinContent with
  | none => simp [StdinEvent.ptyWrite, content] at isWrite
  | some data =>
      rcases obeys event eventMem data content with ⟨accepted, written, obeysHere⟩
      simp only [StdinEvent.ptyWrite, content, written, Option.some.injEq] at isWrite
      rwa [← isWrite]

/-- The terminal gets parts of what the messages hold, and all of it when no write is short. -/
theorem StdinLoop.types
    (reaches : Transition.run (StdinLoop.step json hoposhellFolder) .start events = some loop)
    (obeys : ∀ event ∈ events, event.PtyObeys) :
    loop.stdin.Sublist (inputOf (events.map (·.message))) ∧
      (loop.stdin = inputOf (events.map (·.message)) ↔ ∀ event ∈ events, event.WritesAll) := by
  have received : loop.stdin = Sink.received (events.filterMap StdinEvent.ptyWrite) :=
    stdin_run reaches
  rw [received, ← flatten_stdinContent, ← offered_ptyWrites obeys]
  refine ⟨Sink.received_sublist_offered _, ?_⟩
  rw [Sink.received_eq_offered_iff fun write mem => obeys_of_mem_ptyWrites obeys mem]
  constructor
  · intro whole event mem
    apply (StdinEvent.writesAll_iff (obeys event mem)).mpr
    intro write isWrite
    exact whole write (List.mem_filterMap.mpr ⟨event, mem, isWrite⟩)
  · intro all write mem
    rcases List.mem_filterMap.mp mem with ⟨event, eventMem, isWrite⟩
    exact (StdinEvent.writesAll_iff (obeys event eventMem)).mp (all event eventMem) write isWrite

end Input

section Output

/-- Nothing is missing from a list when nothing is missing from what its elements hold. -/
theorem eq_of_flatMap_eq {α β : Type} {part whole : List α} {f : α → List β}
    (sublist : part.Sublist whole) (nonempty : ∀ x ∈ whole, f x ≠ [])
    (same : part.flatMap f = whole.flatMap f) : part = whole := by
  have lengths := congrArg List.length same
  clear same
  induction sublist with
  | slnil => rfl
  | @cons part whole x sublist ih =>
      have shorter := (sublist.flatMap f).length_le
      have some := List.length_pos_of_ne_nil (nonempty x List.mem_cons_self)
      simp only [List.flatMap_cons, List.length_append] at lengths
      omega
  | @cons_cons part whole x sublist ih =>
      simp only [List.flatMap_cons, List.length_append, Nat.add_left_cancel_iff] at lengths
      rw [ih (fun y mem => nonempty y (List.mem_cons_of_mem x mem)) lengths]

variable {config : ConnectConfig} {shell next : Shell} {event : ShellEvent}

namespace Shell

/-- What has been read of the command has been put on the channel, or is recorded for it. -/
structure PutsOutput (past : List ShellEvent) (shell : Shell) : Prop where
  whole : outputOf (shell.put ++ shell.recorded.toList) = past.flatMap ShellEvent.output
  nonempty : ∀ msg ∈ shell.put ++ shell.recorded.toList, isStdout msg → msg.content ≠ []

theorem nonempty_of_produce {content : Bytes}
    (taken : shell.step config (.produce content) = some next) : content ≠ [] := by
  simp only [step, Option.ite_none_right_eq_some] at taken
  exact taken.1.2.2.1

theorem PutsOutput.step {past : List ShellEvent} (puts : shell.PutsOutput past)
    (taken : shell.step config event = some next) : next.PutsOutput (past ++ [event]) := by
  have whole := puts.whole
  have nonempty := puts.nonempty
  cases step_spec taken with
  | @produce content nothingRecorded unlocked =>
      rw [nothingRecorded, Option.toList_none, List.append_nil] at whole nonempty
      refine ⟨?_, ?_⟩
      · rw [List.flatMap_append, ← whole, Option.toList_some, outputOf_append]
        simp [outputOf, isStdout, Posted.content, ShellEvent.output]
      · intro msg mem stdout
        rcases List.mem_append.mp mem with before | isNew
        · exact nonempty msg before stdout
        · obtain rfl := List.mem_singleton.mp isNew
          exact nonempty_of_produce taken
  | @enqueue msg recorded =>
      rw [recorded, Option.toList_some] at whole nonempty
      refine ⟨?_, ?_⟩
      · simpa [ShellEvent.output] using whole
      · simpa using nonempty
  | @respond content =>
      refine ⟨?_, ?_⟩
      · have isCommand : ∀ msgs, outputOf
            ({ id := shell.nextId, message := { mtype := .command, content := some content } } ::
              msgs) = outputOf msgs :=
          fun _ => rfl
        simpa [ShellEvent.output, isCommand] using whole
      · intro msg mem stdout
        simp only [List.mem_append, List.mem_singleton] at mem nonempty
        rcases mem with (before | rfl) | recorded
        · exact nonempty msg (.inl before) stdout
        · cases stdout
        · exact nonempty msg (.inr recorded) stdout
  | connect | handle | disconnect =>
      refine ⟨?_, nonempty⟩
      simpa [ShellEvent.output] using whole

theorem putsOutput_of_run {events : List ShellEvent}
    (reaches : Transition.run (Shell.step config) .start events = some shell) :
    shell.PutsOutput events := by
  apply Transition.run_history (fun _ _ _ _ puts taken => PutsOutput.step puts taken) _ reaches
  exact ⟨rfl, by simp [start]⟩

/-- The messages that hold what has been read of the command: on their way, or recorded. -/
def outgoing (shell : Shell) : List Posted :=
  shell.flow ++ shell.recorded.toList

/-- Parts of the output are on their way, and all of it when no write of it fails for good. -/
theorem prints {events : List ShellEvent}
    (reaches : Transition.run (Shell.step config) .start events = some shell) :
    (outputOf shell.outgoing).Sublist (events.flatMap ShellEvent.output) ∧
      (outputOf shell.outgoing = events.flatMap ShellEvent.output ↔
        Transition.Meets (Shell.step config) (NoFailure isStdout) .start events) := by
  have puts := putsOutput_of_run reaches
  have ordered := (flows_of_run reaches).ordered
  rw [← puts.whole, outgoing, outputOf_append, outputOf_append, List.append_cancel_right_eq,
    ← flowsWhole_iff isStdout reaches, FlowsWhole]
  refine ⟨((ordered.filter isStdout).flatMap _).append_right _, ?_, ?_⟩
  · intro same
    apply eq_of_flatMap_eq (ordered.filter isStdout) _ same
    intro msg mem
    rcases List.mem_filter.mp mem with ⟨put, stdout⟩
    exact puts.nonempty msg (List.mem_append_left _ put) stdout
  · intro same
    rw [outputOf, same, outputOf]

end Shell

end Output

namespace ConnectProcess

variable {config : ProcessConfig} {process : ConnectProcess} {events : List ProcessEvent}

/-- A message whose command panics types nothing. -/
theorem inputOf_taken (events : List ProcessEvent) :
    inputOf (events.filterMap ProcessEvent.taken?) =
      inputOf ((events.flatMap ProcessEvent.stdinEvents).map (·.message)) := by
  induction events with
  | nil => rfl
  | cons event events ih =>
      have here : inputOf event.taken?.toList = inputOf (event.stdinEvents.map (·.message)) := by
        cases event <;> rfl
      have first : (event :: events).filterMap ProcessEvent.taken? =
          event.taken?.toList ++ events.filterMap ProcessEvent.taken? := by
        cases taken : event.taken? <;> simp [taken]
      rw [first, List.flatMap_cons, List.map_append, inputOf_append, inputOf_append, here, ih]

end ConnectProcess

/-- The server types `ls`, of which the terminal takes the first byte, and the command answers. -/
def typingRun : List ProcessEvent :=
  [.connect, .handle (.write (.ok 12)), .handle (.getSize (some (24, 80))),
    .handle (.write (.ok 24)), .handle (.lockHistory []),
    .handle (.read (.ok ((Frame.message .stdin (asBytes "ls")).bytes Base64.standard))),
    .serve (stdinEvent "ls" 1), .produce (asBytes "l"), .enqueue,
    .handle (.recv (.msg
      { id := 0, message := { mtype := .stdout, content := some (asBytes "l") } })),
    .handle (.write (.ok 10))]

end Hoposhell
