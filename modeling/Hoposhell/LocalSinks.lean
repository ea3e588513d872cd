import Hoposhell.Library.Sink
import Hoposhell.ProcessResponse
import Hoposhell.StdinLoop

/-!
# What reaches the shell and the standard output

The stdin thread hands the content of a `STDIN` message to the shell in one call of `write`,
and a download to the standard output is one call of `write` too.  Neither looks at how much
has been accepted, so that all the bytes arrive exactly when no such write is short.
-/

namespace Hoposhell

namespace StdinEvent

/-- The content of a `STDIN` message. -/
def stdinContent (event : StdinEvent) : Option Bytes :=
  if event.message.mtype = .stdin then event.message.content else none

/-- The call of `write` for a `STDIN` message, if it succeeds. -/
def ptyWrite (event : StdinEvent) : Option (Sink.Write UInt8) :=
  match event.stdinContent, event.written with
  | some data, .ok accepted => some { data, accepted }
  | _, _ => none

/-- The pseudo-terminal keeps the contract of a sink. -/
def PtyObeys (event : StdinEvent) : Prop :=
  ∀ data, event.stdinContent = some data →
    ∃ accepted, event.written = .ok accepted ∧ Sink.Write.Obeys { data, accepted }

/-- The content of a `STDIN` message is written as a whole. -/
def WritesAll (event : StdinEvent) : Prop :=
  ∀ data, event.stdinContent = some data → event.written = .ok data.length

end StdinEvent

section Pty

variable {json : Json.Codec} {hoposhellFolder : String}

theorem StdinLoop.stdin_processCommand (loop : StdinLoop) (event : StdinEvent) (c : Bytes) :
    (loop.processCommand json hoposhellFolder event c).stdin = loop.stdin := by
  rw [processCommand]
  split_ifs
  · rfl
  · cases processResizeCommand c event.master <;> rfl
  · rfl

/-- A turn of the loop writes to the shell at most what a `STDIN` message holds. -/
theorem StdinLoop.stdin_step {loop next : StdinLoop} {event : StdinEvent}
    (taken : loop.step json hoposhellFolder event = some next) :
    next.stdin = loop.stdin ++ Sink.received event.ptyWrite.toList := by
  rw [step] at taken
  split_ifs at taken with running
  rcases event with ⟨⟨mtype, content⟩, handlers, zstd, written, master⟩
  cases content with
  | none =>
      cases mtype <;> cases taken <;>
        simp [StdinEvent.ptyWrite, StdinEvent.stdinContent, Sink.received]
  | some content =>
      cases mtype with
      | stdin =>
          cases written with
          | ok accepted =>
              cases taken
              simp [StdinEvent.ptyWrite, StdinEvent.stdinContent, Sink.received, Sink.Write.taken]
          | error kind =>
              cases taken
              simp [StdinEvent.ptyWrite, StdinEvent.stdinContent, Sink.received]
      | command =>
          cases taken
          rw [stdin_processCommand]
          simp [StdinEvent.ptyWrite, StdinEvent.stdinContent, Sink.received]

/-- The shell gets what the calls of `write` accept, and nothing from other messages. -/
theorem StdinLoop.stdin_run {loop last : StdinLoop} {events : List StdinEvent}
    (reaches : Transition.run (StdinLoop.step json hoposhellFolder) loop events = some last) :
    last.stdin = loop.stdin ++ Sink.received (events.filterMap StdinEvent.ptyWrite) := by
  induction events generalizing loop with
  | nil =>
      cases reaches
      simp [Sink.received]
  | cons event events ih =>
      rcases Transition.run_cons_eq_some_iff.mp reaches with ⟨next, taken, rest⟩
      rw [ih rest, stdin_step taken]
      cases write : event.ptyWrite <;> simp [Sink.received, write]

/-- With a sink that keeps its contract, the calls of `write` are those of all the contents. -/
theorem offered_ptyWrites {events : List StdinEvent} (obeys : ∀ event ∈ events, event.PtyObeys) :
    Sink.offered (events.filterMap StdinEvent.ptyWrite) =
      (events.filterMap StdinEvent.stdinContent).flatten := by
  induction events with
  | nil => rfl
  | cons event events ih =>
      rw [List.forall_mem_cons] at obeys
      cases content : event.stdinContent with
      | none =>
          have noWrite : event.ptyWrite = none := by simp [StdinEvent.ptyWrite, content]
          simpa [noWrite, content] using ih obeys.2
      | some data =>
          rcases obeys.1 data content with ⟨accepted, written, _⟩
          have write : event.ptyWrite = some { data, accepted } := by
            simp [StdinEvent.ptyWrite, content, written]
          have rest := ih obeys.2
          simp only [Sink.offered] at rest
          simp [Sink.offered, write, content, rest]

theorem StdinEvent.writesAll_iff {event : StdinEvent} (obeys : event.PtyObeys) :
    event.WritesAll ↔ ∀ write ∈ event.ptyWrite, write.IsWhole := by
  cases content : event.stdinContent with
  | none => simp [WritesAll, ptyWrite, content]
  | some data =>
      rcases obeys data content with ⟨accepted, written, _⟩
      simp [WritesAll, ptyWrite, content, written, Sink.Write.IsWhole]

end Pty

/--
The shell gets all that `STDIN` messages hold, in their order, exactly when no write to it is
short, and a download is printed as it is exactly when the write to the standard output is not.
-/
theorem sinks_receive_all_iff (json : Json.Codec) (hoposhellFolder : String)
    {events : List StdinEvent} {loop : StdinLoop}
    (reaches : Transition.run (StdinLoop.step json hoposhellFolder) .start events = some loop)
    (obeys : ∀ event ∈ events, event.PtyObeys) :
    (loop.stdin = (events.filterMap StdinEvent.stdinContent).flatten ↔
        ∀ event ∈ events, event.WritesAll) ∧
      ∀ {File : Type} (machine : LocalMachine File) (responsePayload : Bytes)
        (remoteFilePath : String) (accepted : ℕ),
        machine.write responsePayload = .ok accepted →
        Sink.Write.Obeys { data := responsePayload, accepted } →
          (processDownloadResponse machine responsePayload remoteFilePath (some "-") =
              .ok { stdout := responsePayload } ↔
            machine.write responsePayload = .ok responsePayload.length) := by
  constructor
  · have stdin : loop.stdin = Sink.received (events.filterMap StdinEvent.ptyWrite) :=
      StdinLoop.stdin_run reaches
    have writesObey : ∀ write ∈ events.filterMap StdinEvent.ptyWrite, write.Obeys := by
      intro write mem
      rcases List.mem_filterMap.mp mem with ⟨event, eventMem, isWrite⟩
      cases content : event.stdinContent with
      | none => simp [StdinEvent.ptyWrite, content] at isWrite
      | some data =>
          rcases obeys event eventMem data content with ⟨accepted, written, obeysHere⟩
          simp only [StdinEvent.ptyWrite, content, written, Option.some.injEq] at isWrite
          rwa [← isWrite]
    rw [stdin, ← offered_ptyWrites obeys, Sink.received_eq_offered_iff writesObey]
    constructor
    · intro whole event mem
      apply (StdinEvent.writesAll_iff (obeys event mem)).mpr
      intro write isWrite
      exact whole write (List.mem_filterMap.mpr ⟨event, mem, isWrite⟩)
    · intro all write mem
      rcases List.mem_filterMap.mp mem with ⟨event, eventMem, isWrite⟩
      exact (StdinEvent.writesAll_iff (obeys event eventMem)).mp (all event eventMem) write isWrite
  · intro File machine responsePayload remoteFilePath accepted written keeps
    have whole := Sink.Write.isWhole_iff keeps
    simp only [Sink.Write.IsWhole, Sink.Write.taken] at whole
    simp [processDownloadResponse, written, whole]

/-- A `STDIN` message, of which the shell accepts as many bytes as this. -/
def stdinEvent (text : String) (accepted : ℕ) : StdinEvent where
  message := { mtype := .stdin, content := some (asBytes text) }
  handlers :=
    { ls := .ok, download := .ok, glob := .ok, http := .ok, tcp := .ok,
      scripts := fun payload _ => .ok payload }
  zstd := Zstd.stored
  written := .ok accepted
  master := { resize := true, getSize := some (24, 80) }

/-- A machine with no files, whose standard output accepts as many bytes as this. -/
def bareMachine (accepted : ℕ) : LocalMachine Unit where
  tree :=
    { kind := fun _ => .dir, entry := fun _ _ => none, root := (), cwd := (), root_isDir := rfl,
      cwd_isDir := rfl }
  write := fun _ => .ok accepted
  writeFile := fun _ _ => true

theorem ptyObeys_stdinEvent {text : String} {accepted : ℕ}
    (within : accepted ≤ (asBytes text).length) (progress : 0 < accepted) :
    (stdinEvent text accepted).PtyObeys := by
  intro data content
  obtain rfl : asBytes text = data := by simpa [StdinEvent.stdinContent, stdinEvent] using content
  exact ⟨accepted, rfl, within, fun _ => progress⟩

theorem sinks_receive_all_two :
    ∃ loop, Transition.run (StdinLoop.step Json.nullCodec "") .start
        [stdinEvent "ls" 2, stdinEvent "-a" 1] = some loop ∧
      (loop.stdin = ([stdinEvent "ls" 2, stdinEvent "-a" 1].filterMap
            StdinEvent.stdinContent).flatten ↔
        ∀ event ∈ [stdinEvent "ls" 2, stdinEvent "-a" 1], event.WritesAll) ∧
      (processDownloadResponse (bareMachine 2) (asBytes "abc") "file" (some "-") =
          .ok { stdout := asBytes "abc" } ↔
        (bareMachine 2).write (asBytes "abc") = .ok (asBytes "abc").length) := by
  refine ⟨_, rfl, ?_⟩
  have both := @sinks_receive_all_iff Json.nullCodec "" [stdinEvent "ls" 2, stdinEvent "-a" 1] _ rfl
    (by
      intro event mem
      simp only [List.mem_cons, List.not_mem_nil, or_false] at mem
      rcases mem with rfl | rfl
      · exact ptyObeys_stdinEvent (by decide) (by decide)
      · exact ptyObeys_stdinEvent (by decide) (by decide))
  exact ⟨both.1, both.2 (bareMachine 2) (asBytes "abc") "file" 2 rfl ⟨by decide, by decide⟩⟩

/-- The rest of a short write is never written. -/
theorem sinks_lose :
    (∃ loop, (stdinEvent "paste" 3).PtyObeys ∧
        Transition.run (StdinLoop.step Json.nullCodec "") .start [stdinEvent "paste" 3] =
          some loop ∧
        loop.stdin = asBytes "pas" ∧
        loop.stdin ≠ ([stdinEvent "paste" 3].filterMap StdinEvent.stdinContent).flatten) ∧
      Sink.Write.Obeys { data := asBytes "abc", accepted := 2 } ∧
      (bareMachine 2).write (asBytes "abc") = .ok 2 ∧
      processDownloadResponse (bareMachine 2) (asBytes "abc") "file" (some "-") =
        .ok { stdout := asBytes "ab" } ∧
      processDownloadResponse (bareMachine 2) (asBytes "abc") "file" (some "-") ≠
        .ok { stdout := asBytes "abc" } := by
  have printed : processDownloadResponse (bareMachine 2) (asBytes "abc") "file" (some "-") =
      .ok { stdout := asBytes "ab" } := rfl
  refine ⟨⟨_, ptyObeys_stdinEvent (by decide) (by decide), rfl, rfl, by decide⟩,
    ⟨by decide, by decide⟩, rfl, printed, ?_⟩
  rw [printed]
  simp [show asBytes "ab" ≠ asBytes "abc" by decide]

end Hoposhell
