import Hoposhell.Delivery

/-!
# Forwarding across connections

A message is taken from the channel, held until it is written, and forwarded on one
connection.  Over all connections every message put on the channel is forwarded at most
once and in its turn; it is missing only when a write of it has failed for good.

This is about forwarding alone.  The replay of the history on a new connection comes on top
of it, and holds no `COMMAND` message.
-/

namespace Hoposhell

def Sent.forwarded? : Sent → Option Posted
  | .forwarded msg => some msg
  | _ => none

def forwardedOf (sent : List Sent) : List Posted :=
  sent.filterMap Sent.forwarded?

/-- The message that is being forwarded. -/
def Control.held? : Control → Option Posted
  | .send msg => some msg
  | _ => none

/-- The messages that a connection has taken from the channel and not lost. -/
def Connection.taken (connection : Connection) : List Posted :=
  forwardedOf connection.sent ++ connection.control.held?.toList

namespace Shell

/-- The messages forwarded on all the connections. -/
def forwarded (shell : Shell) : List Posted :=
  forwardedOf (shell.past ++ shell.connection.elim [] (·.sent))

/-- The messages that have been forwarded, the one that is being forwarded and those to come. -/
def flow (shell : Shell) : List Posted :=
  shell.forwarded ++ shell.held.toList ++ shell.channel

/-- Every message of the kind has been forwarded, or is still to be, once and in its turn. -/
def FlowsWhole (kind : Posted → Bool) (shell : Shell) : Prop :=
  shell.flow.filter kind = shell.put.filter kind

/-- No write of a message of the kind fails for good. -/
def NoFailure (kind : Posted → Bool) (shell : Shell) : ShellEvent → Prop
  | .handle (.write (.error .other)) => ∀ msg ∈ shell.held, kind msg = false
  | _ => True

instance (kind : Posted → Bool) (shell : Shell) :
    (event : ShellEvent) → Decidable (shell.NoFailure kind event)
  | .handle (.write (.error .other)) =>
      inferInstanceAs (Decidable (∀ msg ∈ shell.held, kind msg = false))
  | .produce _ | .enqueue | .respond _ | .connect | .disconnect | .handle (.write (.ok _))
  | .handle (.write (.error .wouldBlock)) | .handle (.getSize _) | .handle (.lockHistory _)
  | .handle (.read _) | .handle (.recv _) | .handle (.getNow _) | .handle .clockBeforeEpoch
  | .handle (.flush _) =>
      inferInstanceAs (Decidable True)

end Shell

@[simp]
theorem forwardedOf_append (sent sent' : List Sent) :
    forwardedOf (sent ++ sent') = forwardedOf sent ++ forwardedOf sent' := by
  simp [forwardedOf]

namespace Control

@[simp]
theorem held?_replayAll (msgs : List Posted) : (replayAll msgs).held? = none := by
  cases msgs <;> rfl

theorem held?_eq_some_iff {control : Control} {msg : Posted} :
    control.held? = some msg ↔ control = .send msg := by
  cases control <;> simp [held?]

/-- What is sent is what was held, if anything was. -/
theorem held?_afterSend_ok {control : Control} {sent : Sent}
    (sends : control.sending = some sent) (n : ℕ) :
    forwardedOf [sent] ++ (control.afterSend (.ok n)).held?.toList = control.held?.toList := by
  cases control with
  | replay msg rest =>
      cases sends
      rw [afterSend, held?_replayAll]
      rfl
  | _ => cases sends <;> rfl

theorem held?_afterSend_wouldBlock {control : Control} {sent : Sent}
    (sends : control.sending = some sent) :
    (control.afterSend (.error .wouldBlock)).held? = control.held? := by
  cases control <;> cases sends <;> rfl

theorem held?_afterSend_other (control : Control) :
    (control.afterSend (.error .other)).held? = none := by
  cases control <;> rfl

theorem held?_eq_none {control : Control} (nothing : control.pending = []) :
    control.held? = none := by
  cases control with
  | send msg => cases nothing
  | _ => rfl

end Control

namespace Connection

variable {config : ConnectConfig} {connection next : Connection} {event : ConnectionEvent}

/-- All that a step does to the messages taken, for each kind of event. -/
inductive Takes (connection next : Connection) : ConnectionEvent → Prop where
  | recv {msg : Posted} (taken : next.taken = connection.taken ++ [msg]) :
      Takes connection next (.recv (.msg msg))
  | failure (taken : (∀ msg ∈ connection.control.held?, msg.message.content.isSome) →
      next.taken = forwardedOf connection.sent) : Takes connection next (.write (.error .other))
  | other {event : ConnectionEvent} (notRecv : ∀ msg, event ≠ .recv (.msg msg))
      (noFailure : event ≠ .write (.error .other)) (taken : next.taken = connection.taken) :
      Takes connection next event

theorem takes_of_send {sent : Sent} {result : Except ErrorKind ℕ}
    (sends : connection.control.sending = some sent)
    (written : connection.send config sent result = some next) :
    Takes connection next (.write result) := by
  rcases send_cases written with ⟨n, accepts, rfl⟩ | ⟨kind, rfl, rfl⟩
  · have same : forwardedOf (connection.sent ++ [sent]) ++
        (connection.control.afterSend (.ok n)).held?.toList = connection.taken := by
      rw [forwardedOf_append, List.append_assoc, Control.held?_afterSend_ok sends]
      rfl
    by_cases failed : result = .error .other
    · subst failed
      refine .failure fun content => ?_
      -- nothing is written for a message without content, and none of these is held
      cases held : connection.control.held? with
      | none =>
          rw [taken, held, Option.toList_none, List.append_nil] at same
          exact same
      | some msg =>
          have isContent := content msg held
          rw [Control.held?_eq_some_iff] at held
          rw [held] at sends
          cases sends
          have noContent : msg.message.content = none := by
            simpa [Sent.frame, encodedContent] using accepts
          simp [noContent] at isContent
    · exact .other (by simp) (by simpa using failed) same
  · cases kind with
    | wouldBlock =>
        refine .other (by simp) (by simp) ?_
        simp [taken, Control.held?_afterSend_wouldBlock sends]
    | other =>
        refine .failure fun _ => ?_
        simp [taken, Control.held?_afterSend_other]

theorem takes_of_step (step : connection.step config event = some next) :
    Takes connection next event := by
  cases step_spec step with
  | write sends written => exact takes_of_send sends written
  | recv control =>
      refine .recv ?_
      simp [taken, control, Control.held?]
  | lockHistory control =>
      refine .other (by simp) (by simp) ?_
      rw [taken, Control.held?_replayAll, taken, control]
      rfl
  | @read result control =>
      have nothing := Control.held?_eq_none (control_read config connection result).1
      refine .other (by simp) (by simp) ?_
      rw [taken, nothing, (accepted_read config connection result).2, taken, control]
      rfl
  | @getNow now control =>
      have nothing := Control.held?_eq_none (control_checkKeepAlive config connection now).1
      refine .other (by simp) (by simp) ?_
      rw [taken, nothing, taken, control]
      rfl
  | getSize control | noSize control | timeout control | disconnected control
  | clockBeforeEpoch control | flushed control | notFlushed control =>
      refine .other (by simp) (by simp) ?_
      simp [taken, control, Control.held?]

end Connection

namespace Shell

variable {config : ConnectConfig} {shell next : Shell} {event : ShellEvent}

theorem held_eq {connection : Connection} (connected : shell.connection = some connection) :
    shell.held = connection.control.held? := by
  rw [held, connected, Option.bind_some]
  cases connection.control <;> rfl

theorem flow_eq (shell : Shell) :
    shell.flow =
      forwardedOf shell.past ++ shell.connection.elim [] Connection.taken ++ shell.channel := by
  cases connected : shell.connection with
  | none => simp [flow, forwarded, held, connected, forwardedOf]
  | some connection =>
      simp [flow, forwarded, held_eq connected, connected, Connection.taken]

/-- Messages flow to the server, until a write of the message that is held fails for good. -/
theorem flow_of_step (consistent : shell.Consistent)
    (taken : shell.step config event = some next) :
    (∃ added, next.flow = shell.flow ++ added ∧ next.put = shell.put ++ added ∧
        (event = .handle (.write (.error .other)) → shell.held = none)) ∨
      ∃ msg front, event = .handle (.write (.error .other)) ∧ shell.held = some msg ∧
        shell.flow = front ++ [msg] ++ shell.channel ∧ next.flow = front ++ shell.channel ∧
        next.put = shell.put := by
  simp only [flow_eq]
  cases step_spec taken with
  | produce => exact .inl ⟨[], by simp, by simp, by simp⟩
  | enqueue => exact .inl ⟨_, (List.append_assoc _ _ _).symm, rfl, by simp⟩
  | respond => exact .inl ⟨_, (List.append_assoc _ _ _).symm, rfl, by simp⟩
  | connect disconnected =>
      refine .inl ⟨[], ?_, by simp, by simp⟩
      simp [disconnected, Connection.taken, Connection.start, Control.held?, forwardedOf]
  | disconnect connected returned =>
      refine .inl ⟨[], ?_, by simp, by simp⟩
      simp [connected, Connection.taken, returned, Control.held?]
  | @handle event connection nextConnection connected allowed handled =>
      have content : ∀ msg ∈ connection.control.held?, msg.message.content.isSome := by
        rw [← held_eq connected]
        exact fun msg isHeld => consistent.put_content msg (consistent.held_put msg isHeld)
      simp only [connected, Option.elim_some, ShellEvent.handle.injEq]
      cases Connection.takes_of_step handled with
      | @recv msg took =>
          rcases List.head?_eq_some_iff.mp allowed with ⟨rest, channel⟩
          left
          refine ⟨[], ?_, by simp, by simp⟩
          simp [took, channelAfter, channel]
      | failure took =>
          cases isHeld : connection.control.held? with
          | none =>
              left
              refine ⟨[], ?_, by simp, fun _ => ?_⟩
              · rw [took content, Connection.taken, isHeld]
                simp [channelAfter]
              · rw [held_eq connected, isHeld]
          | some msg =>
              right
              refine ⟨msg, forwardedOf shell.past ++ forwardedOf connection.sent, rfl, ?_, ?_, ?_,
                trivial⟩
              · rw [held_eq connected, isHeld]
              · simp [Connection.taken, isHeld]
              · simp [took content, channelAfter]
      | other notRecv noFailure took =>
          have channel : shell.channelAfter event = shell.channel := by
            cases event with
            | recv received =>
                cases received with
                | msg msg => exact absurd rfl (notRecv msg)
                | timeout | disconnected => rfl
            | _ => rfl
          left
          refine ⟨[], ?_, by simp, fun failed => absurd failed noFailure⟩
          simp [took, channel]

/-- Nothing is forwarded that was not put on the channel, or twice, or out of its turn. -/
structure Flows (shell : Shell) : Prop where
  consistent : shell.Consistent
  ordered : shell.flow.Sublist shell.put

theorem flows_start : start.Flows where
  consistent := consistent_start
  ordered := List.Sublist.refl _

theorem Flows.step (flows : shell.Flows) (taken : shell.step config event = some next) :
    next.Flows where
  consistent := flows.consistent.step taken
  ordered := by
    have ordered := flows.ordered
    rcases flow_of_step flows.consistent taken with
      ⟨added, flow, put, _⟩ | ⟨msg, front, _, _, flow, nextFlow, put⟩
    · rw [flow, put]
      exact ordered.append_right added
    · rw [nextFlow, put]
      rw [flow] at ordered
      exact ((List.sublist_append_left front [msg]).append_right shell.channel).trans ordered

theorem Flows.whole_of_step_iff {kind : Posted → Bool} (flows : shell.Flows)
    (whole : shell.FlowsWhole kind) (taken : shell.step config event = some next) :
    next.FlowsWhole kind ↔ shell.NoFailure kind event := by
  rw [FlowsWhole] at whole
  rcases flow_of_step flows.consistent taken with
    ⟨added, flow, put, noFailure⟩ | ⟨msg, front, rfl, isHeld, flow, nextFlow, put⟩
  · have guard : shell.NoFailure kind event := by
      unfold NoFailure
      split
      · simp [noFailure rfl]
      · trivial
    rw [FlowsWhole, flow, put, List.filter_append, List.filter_append, whole]
    simp [guard]
  · rw [flow] at whole
    have lengths := congrArg List.length whole
    simp only [FlowsWhole, NoFailure, nextFlow, put, isHeld, Option.mem_def, Option.some.injEq,
      forall_eq']
    cases ofKind : kind msg with
    | false =>
        rw [← whole]
        simp [ofKind]
    | true =>
        simp only [List.filter_append, List.filter_singleton, ofKind, cond_true, List.length_append,
          List.length_singleton] at lengths
        simp only [Bool.true_eq_false, iff_false]
        intro same
        have fewer := congrArg List.length same
        rw [List.filter_append, List.length_append] at fewer
        omega

theorem Flows.not_whole_of_step {kind : Posted → Bool} (flows : shell.Flows)
    (notWhole : ¬shell.FlowsWhole kind) (taken : shell.step config event = some next) :
    ¬next.FlowsWhole kind := by
  intro whole
  apply notWhole
  rw [FlowsWhole] at whole
  rcases flow_of_step flows.consistent taken with
    ⟨added, flow, put, _⟩ | ⟨msg, front, _, _, flow, nextFlow, put⟩
  · rw [flow, put, List.filter_append, List.filter_append] at whole
    exact List.append_cancel_right whole
  · -- what is left has already everything that was put, so that nothing was missing before
    apply (flows.ordered.filter kind).eq_of_length_le
    rw [← put, ← whole, nextFlow, flow]
    exact (((List.sublist_append_left front [msg]).append_right shell.channel).filter kind).length_le

theorem flows_of_run {events : List ShellEvent}
    (reaches : Transition.run (Shell.step config) .start events = some shell) : shell.Flows :=
  Transition.run_invariant (fun _ _ _ flows taken => Flows.step flows taken) flows_start reaches

theorem flowsWhole_iff (kind : Posted → Bool) {events : List ShellEvent}
    (reaches : Transition.run (Shell.step config) .start events = some shell) :
    shell.FlowsWhole kind ↔
      Transition.Meets (Shell.step config) (NoFailure kind) .start events := by
  have whole : start.FlowsWhole kind := rfl
  exact Transition.iff_meets_of_run (fun _ _ _ flows taken => Flows.step flows taken)
    (fun _ _ _ flows whole taken => flows.whole_of_step_iff whole taken)
    (fun _ _ _ flows notWhole taken => flows.not_whole_of_step notWhole taken)
    flows_start whole reaches

/--
Over all connections no message is forwarded twice or out of its turn, and those of a kind all
are forwarded, or still to be, exactly when no write of one of them fails for good.
-/
theorem forwards_once_iff (kind : Posted → Bool) {events : List ShellEvent}
    (reaches : Transition.run (Shell.step config) .start events = some shell) :
    (shell.forwarded ++ shell.held.toList ++ shell.channel).Sublist shell.put ∧
      ((shell.forwarded ++ shell.held.toList ++ shell.channel).filter kind =
          shell.put.filter kind ↔
        Transition.Meets (Shell.step config) (NoFailure kind) .start events) :=
  ⟨(flows_of_run reaches).ordered, flowsWhole_iff kind reaches⟩

end Shell

/-- What is replayed on the second connection is not forwarded again. -/
theorem forwards_once_replayedRun :
    ∃ shell, Transition.run (Shell.step localConfig) .start replayedRun = some shell ∧
      (shell.forwarded ++ shell.held.toList ++ shell.channel).Sublist shell.put ∧
        ((shell.forwarded ++ shell.held.toList ++ shell.channel).filter (fun _ => true) =
            shell.put.filter (fun _ => true) ↔
          Transition.Meets (Shell.step localConfig) (Shell.NoFailure fun _ => true) .start
            replayedRun) := by
  have reaches : (Transition.run (Shell.step localConfig) .start replayedRun).isSome := by decide
  rcases Option.isSome_iff_exists.mp reaches with ⟨shell, reaches⟩
  exact ⟨shell, reaches, Shell.forwards_once_iff _ reaches⟩

end Hoposhell
