import Hoposhell.Disconnect
import Hoposhell.Library.Thinning

/-!
# What a connection sends

`plan` reads off what a connection is to send from what the calls of `handle_connection`
return: the header, the size of the terminal, the history, and then the messages of the
channel, with a keep-alive at each reading of the clock that is due.  The connection follows
the plan whatever its writes return, and stops at some point of it when it ends.
-/

namespace Hoposhell

/-- `now` is not before `last_keep_alive` by the keep-alive delta. -/
def ConnectConfig.isDue (config : ConnectConfig) (lastKeepAlive now : ℕ) : Bool :=
  match elapsedMillis config now lastKeepAlive with
  | .error _ => false
  | .ok elapsed => config.keepAliveDelta ≤ elapsed

/-- What is to be sent after a call, with the instant of the last keep-alive before it. -/
def planned (config : ConnectConfig) (last : Option ℕ) : ConnectionEvent → List Sent
  | .getSize (some (rows, cols)) => [.size (makeSizeMessage rows cols)]
  | .lockHistory history => history.map .replayed
  | .recv (.msg msg) => [.forwarded msg]
  | .getNow now => if Thinning.isDue config.isDue last now then [.keepAlive] else []
  | _ => []

def plannedLast (config : ConnectConfig) (last : Option ℕ) : ConnectionEvent → Option ℕ
  | .getNow now => Thinning.next config.isDue last now
  | _ => last

def planFrom (config : ConnectConfig) (last : Option ℕ) : List ConnectionEvent → List Sent
  | [] => []
  | event :: events =>
      planned config last event ++ planFrom config (plannedLast config last event) events

/-- All that a connection is to send. -/
def plan (config : ConnectConfig) (events : List ConnectionEvent) : List Sent :=
  .header :: planFrom config none events

def ConnectionEvent.reading? : ConnectionEvent → Option ℕ
  | .getNow now => some now
  | _ => none

/-- The readings of the clock. -/
def clockReadings (events : List ConnectionEvent) : List ℕ :=
  events.filterMap ConnectionEvent.reading?

/-- What is still to be sent, up to the next call that is not a write. -/
def Control.toSend : Control → List Sent
  | .header => [.header]
  | .size msg => [.size msg]
  | .replay msg rest => .replayed msg :: rest.map .replayed
  | .send msg => [.forwarded msg]
  | .keepAlive _ => [.keepAlive]
  | _ => []

/-- The instant of the last keep-alive, that of one on its way included. -/
def Control.keptAlive (lastKeepAlive : Option ℕ) : Control → Option ℕ
  | .keepAlive now | .flush now => some now
  | _ => lastKeepAlive

def Connection.keptAlive (connection : Connection) : Option ℕ :=
  connection.control.keptAlive connection.lastKeepAlive

/-- Readings of the clock at which keep-alives are sent on time. -/
structure OnTime (config : ConnectConfig) (readings instants : List ℕ) : Prop where
  sublist : instants.Sublist readings
  /-- The delta has passed since the keep-alive before. -/
  apart : instants.IsChain fun earlier later =>
    ∃ elapsed, elapsedMillis config later earlier = .ok elapsed ∧ config.keepAliveDelta ≤ elapsed
  /-- A reading without a keep-alive comes within the delta after one that has it. -/
  prompt : ∀ front now back, readings = front ++ now :: back →
    now ∈ instants ∨ ∃ earlier ∈ front, earlier ∈ instants ∧
      ∀ elapsed, elapsedMillis config now earlier = .ok elapsed → elapsed < config.keepAliveDelta

theorem planFrom_append (config : ConnectConfig) (last : Option ℕ)
    (front back : List ConnectionEvent) :
    planFrom config last (front ++ back) =
      planFrom config last front ++
        planFrom config (front.foldl (plannedLast config) last) back := by
  induction front generalizing last with
  | nil => rfl
  | cons event front ih =>
      simp only [List.cons_append, planFrom, List.foldl_cons, ih, List.append_assoc]

theorem plan_concat (config : ConnectConfig) (past : List ConnectionEvent)
    (event : ConnectionEvent) :
    plan config (past ++ [event]) =
      plan config past ++ planned config (past.foldl (plannedLast config) none) event := by
  simp [plan, planFrom_append, planFrom]

theorem ConnectConfig.isDue_iff {config : ConnectConfig} {lastKeepAlive now : ℕ} :
    config.isDue lastKeepAlive now = true ↔
      ∃ elapsed, elapsedMillis config now lastKeepAlive = .ok elapsed ∧
        config.keepAliveDelta ≤ elapsed := by
  unfold ConnectConfig.isDue
  cases elapsedMillis config now lastKeepAlive <;> simp

theorem onTime_thin (config : ConnectConfig) (readings : List ℕ) :
    OnTime config readings (Thinning.thin config.isDue none readings) where
  sublist := Thinning.thin_sublist none readings
  apart := by
    apply (Thinning.isChain_thin none readings).imp
    intro earlier later due
    exact ConnectConfig.isDue_iff.mp due
  prompt := by
    rintro front now back rfl
    rcases Thinning.mem_thin_or none front now back with kept | ⟨earlier, isEarlier, early⟩
    · exact .inl kept
    · right
      refine ⟨earlier, (Thinning.thin_sublist none front).subset isEarlier, ?_, ?_⟩
      · rw [Thinning.thin_append]
        exact List.mem_append_left _ isEarlier
      · intro elapsed isElapsed
        by_contra late
        have due := ConnectConfig.isDue_iff.mpr ⟨elapsed, isElapsed, Nat.le_of_not_lt late⟩
        rw [early] at due
        cases due

/-- A keep-alive is planned at each reading that the thinning keeps. -/
theorem count_keepAlive_planFrom (config : ConnectConfig) (last : Option ℕ)
    (events : List ConnectionEvent) :
    (planFrom config last events).count .keepAlive =
      (Thinning.thin config.isDue last (clockReadings events)).length := by
  induction events generalizing last with
  | nil => rfl
  | cons event events ih =>
      rw [planFrom, List.count_append, ih]
      cases event with
      | getNow now =>
          have readings : clockReadings (.getNow now :: events) = now :: clockReadings events := rfl
          rw [readings, Thinning.thin, planned, plannedLast, Thinning.next]
          by_cases due : Thinning.isDue config.isDue last now = true
          · simp only [due, if_true, List.count_singleton_self, List.length_cons]
            omega
          · simp [due]
      | lockHistory history =>
          have notMem : Sent.keepAlive ∉ history.map Sent.replayed := by simp
          have zero := List.count_eq_zero_of_not_mem notMem
          rw [planned, zero, Nat.zero_add]
          rfl
      | getSize size => cases size <;> exact Nat.zero_add _
      | recv received => cases received <;> exact Nat.zero_add _
      | _ => exact Nat.zero_add _

theorem count_keepAlive_plan (config : ConnectConfig) (events : List ConnectionEvent) :
    (plan config events).count .keepAlive =
      (Thinning.thin config.isDue none (clockReadings events)).length := by
  rw [plan, List.count_cons_of_ne (by decide), count_keepAlive_planFrom]

namespace Control

@[simp]
theorem toSend_replayAll (msgs : List Posted) : (replayAll msgs).toSend = msgs.map .replayed := by
  cases msgs <;> rfl

theorem toSend_eq_cons {control : Control} {sent : Sent} (sends : control.sending = some sent)
    (n : ℕ) : control.toSend = sent :: (control.afterSend (.ok n)).toSend := by
  cases control with
  | replay msg rest =>
      cases sends
      rw [afterSend, toSend_replayAll]
      rfl
  | _ => cases sends <;> rfl

theorem toSend_afterSend_error {control : Control} {kind : ErrorKind}
    (going : (control.afterSend (.error kind)).isEnded = false) :
    (control.afterSend (.error kind)).toSend = control.toSend := by
  cases control with
  | send msg =>
      cases kind with
      | wouldBlock => rfl
      | other => cases going
  | _ => cases going

theorem keptAlive_afterSend_ok {control : Control} {sent : Sent}
    (sends : control.sending = some sent) (n : ℕ) (last : Option ℕ) :
    (control.afterSend (.ok n)).keptAlive last = control.keptAlive last := by
  cases control with
  | replay msg rest => cases rest <;> rfl
  | _ => first | rfl | cases sends

theorem keptAlive_afterSend_error {control : Control} {kind : ErrorKind} (last : Option ℕ)
    (going : (control.afterSend (.error kind)).isEnded = false) :
    (control.afterSend (.error kind)).keptAlive last = control.keptAlive last := by
  cases control with
  | send msg =>
      cases kind with
      | wouldBlock => rfl
      | other => cases going
  | _ => cases going

@[simp]
theorem keptAlive_replayAll (msgs : List Posted) (last : Option ℕ) :
    (replayAll msgs).keptAlive last = last := by
  cases msgs <;> rfl

/-- A keep-alive is only ever the last thing to be sent. -/
theorem count_keepAlive_toSend (control : Control) : control.toSend.count .keepAlive ≤ 1 := by
  cases control with
  | replay msg rest =>
      have notMem : Sent.keepAlive ∉ (msg :: rest).map Sent.replayed := by simp
      have zero := List.count_eq_zero_of_not_mem notMem
      exact zero.le.trans zero_le_one
  | _ => simp [toSend]

end Control

namespace Connection

variable {config : ConnectConfig} {connection next : Connection} {event : ConnectionEvent}

/-- One step of the plan. -/
structure Advances (config : ConnectConfig) (connection : Connection) (event : ConnectionEvent)
    (next : Connection) (rest : List Sent) : Prop where
  sent : connection.sent ++ connection.control.toSend ++ planned config connection.keptAlive event =
    next.sent ++ rest
  keepAlive : rest.count .keepAlive ≤ 1
  going : next.control.isEnded = false →
    rest = next.control.toSend ∧ next.keptAlive = plannedLast config connection.keptAlive event

theorem advances_of_send {sent : Sent} {result : Except ErrorKind ℕ}
    (sends : connection.control.sending = some sent)
    (written : connection.send config sent result = some next) :
    ∃ rest, connection.Advances config (.write result) next rest := by
  rcases send_cases written with ⟨n, _, rfl⟩ | ⟨kind, _, rfl⟩
  · refine ⟨(connection.control.afterSend (.ok n)).toSend, ?_, ?_, ?_⟩
    · simp [planned, Control.toSend_eq_cons sends n]
    · exact Control.count_keepAlive_toSend _
    · intro going
      exact ⟨rfl, Control.keptAlive_afterSend_ok sends n _⟩
  · refine ⟨connection.control.toSend, ?_, ?_, ?_⟩
    · simp [planned]
    · exact Control.count_keepAlive_toSend _
    · intro going
      exact ⟨(Control.toSend_afterSend_error going).symm, Control.keptAlive_afterSend_error _ going⟩

/-- A call that is no write leaves what has been sent as it is. -/
theorem advances_of_call (nothing : connection.control.toSend = [])
    (sent : next.sent = connection.sent)
    (toSend : next.control.toSend = planned config connection.keptAlive event)
    (keptAlive : next.control.isEnded = false →
      next.keptAlive = plannedLast config connection.keptAlive event) :
    ∃ rest, connection.Advances config event next rest := by
  refine ⟨next.control.toSend, ?_, ?_, ?_⟩
  · rw [nothing, List.append_nil, sent, toSend]
  · exact Control.count_keepAlive_toSend _
  · intro going
    exact ⟨rfl, keptAlive going⟩

/-- The clock is read: a keep-alive is to be sent when one is due. -/
theorem checkKeepAlive_cases (config : ConnectConfig) (connection : Connection) (now : ℕ) :
    (Thinning.isDue config.isDue connection.lastKeepAlive now = true ∧
        connection.checkKeepAlive config now = .keepAlive now) ∨
      (Thinning.isDue config.isDue connection.lastKeepAlive now = false ∧
        (connection.checkKeepAlive config now = .read ∨
          connection.checkKeepAlive config now = .panicked)) := by
  unfold checkKeepAlive
  cases connection.lastKeepAlive with
  | none => exact .inl ⟨rfl, rfl⟩
  | some lastKeepAlive =>
      simp only [Thinning.isDue, Option.all_some, ConnectConfig.isDue]
      cases elapsedMillis config now lastKeepAlive with
      | error panic => exact .inr ⟨rfl, .inr rfl⟩
      | ok elapsed =>
          by_cases early : elapsed < config.keepAliveDelta
          · right
            simp [early]
          · left
            simp [early, Nat.le_of_not_lt early]

/-- The reading of the clock leads to what is planned for it. -/
theorem plans_checkKeepAlive (config : ConnectConfig) (connection : Connection) (now : ℕ) :
    (connection.checkKeepAlive config now).toSend =
        planned config connection.lastKeepAlive (.getNow now) ∧
      (connection.checkKeepAlive config now).keptAlive connection.lastKeepAlive =
        plannedLast config connection.lastKeepAlive (.getNow now) := by
  rw [planned, plannedLast, Thinning.next]
  rcases checkKeepAlive_cases config connection now with ⟨due, check⟩ | ⟨early, check | check⟩
  · rw [check, due]
    exact ⟨rfl, rfl⟩
  · rw [check, early]
    exact ⟨rfl, rfl⟩
  · rw [check, early]
    exact ⟨rfl, rfl⟩

theorem toSend_read (config : ConnectConfig) (connection : Connection)
    (result : Except ErrorKind Bytes) :
    (connection.read config result).control.toSend = [] ∧
      (connection.read config result).keptAlive = connection.lastKeepAlive := by
  unfold Connection.read
  split <;> exact ⟨rfl, rfl⟩

theorem keptAlive_eq {control : Control} (isAt : connection.control = control) :
    connection.keptAlive = control.keptAlive connection.lastKeepAlive := by
  rw [keptAlive, isAt]

theorem advances_of_step (taken : connection.step config event = some next) :
    ∃ rest, connection.Advances config event next rest := by
  cases step_spec taken with
  | write sends written => exact advances_of_send sends written
  | lockHistory control =>
      apply advances_of_call
      · rw [control]
        rfl
      · rfl
      · exact Control.toSend_replayAll _
      · intro going
        rw [keptAlive_eq control]
        exact Control.keptAlive_replayAll _ _
  | @read result control =>
      have nothing := toSend_read config connection result
      apply advances_of_call
      · rw [control]
        rfl
      · exact (accepted_read config connection result).2
      · exact nothing.1
      · intro going
        rw [nothing.2, keptAlive_eq control]
        rfl
  | @getNow now control =>
      have last : connection.keptAlive = connection.lastKeepAlive := keptAlive_eq control
      have plans := plans_checkKeepAlive config connection now
      apply advances_of_call
      · rw [control]
        rfl
      · rfl
      · rw [last]
        exact plans.1
      · intro going
        rw [last, keptAlive]
        exact plans.2
  | getSize control | recv control | timeout control | flushed control =>
      apply advances_of_call
      · rw [control]
        rfl
      · rfl
      · rfl
      · intro going
        rw [keptAlive_eq control]
        rfl
  | noSize control | disconnected control | clockBeforeEpoch control | notFlushed control =>
      apply advances_of_call
      · rw [control]
        rfl
      · rfl
      · rfl
      · intro going
        cases going

/-- The connection has sent what is planned, up to what it is still to send. -/
def Follows (config : ConnectConfig) (past : List ConnectionEvent) (connection : Connection) :
    Prop :=
  ∃ rest, plan config past = connection.sent ++ rest ∧ rest.count .keepAlive ≤ 1 ∧
    (connection.control.isEnded = false → rest = connection.control.toSend ∧
      connection.keptAlive = past.foldl (plannedLast config) none)

theorem follows_start (config : ConnectConfig) : Connection.start.Follows config [] :=
  ⟨[.header], rfl, by decide, fun _ => ⟨rfl, rfl⟩⟩

theorem Follows.step {past : List ConnectionEvent} (follows : connection.Follows config past)
    (taken : connection.step config event = some next) : next.Follows config (past ++ [event]) := by
  have going : connection.control.isEnded = false := by
    by_contra ended
    rw [stuck_of_isEnded (by simpa using ended)] at taken
    cases taken
  rcases follows with ⟨left, planned, _, upTo⟩
  rcases upTo going with ⟨rfl, last⟩
  rcases advances_of_step taken with ⟨rest, advances⟩
  refine ⟨rest, ?_, advances.keepAlive, ?_⟩
  · rw [plan_concat, planned, ← last]
    exact advances.sent
  · intro nextGoing
    rcases advances.going nextGoing with ⟨toSend, keptAlive⟩
    refine ⟨toSend, ?_⟩
    rw [keptAlive, last, List.foldl_append, List.foldl_cons, List.foldl_nil]

theorem follows_of_run {events : List ConnectionEvent}
    (reaches : Transition.run (step config) .start events = some connection) :
    connection.Follows config events :=
  Transition.run_history (fun _ _ _ _ follows taken => Follows.step follows taken)
    (follows_start config) reaches

/--
A connection sends what is planned, in that order and up to some point, and while it goes on
that point is the one it is at.
-/
theorem sends_plan {events : List ConnectionEvent}
    (reaches : Transition.run (step config) .start events = some connection) :
    connection.sent <+: plan config events ∧
      (connection.control.isEnded = false →
        plan config events = connection.sent ++ connection.control.toSend) := by
  rcases follows_of_run reaches with ⟨rest, planned, _, upTo⟩
  refine ⟨⟨rest, planned.symm⟩, ?_⟩
  intro going
  rw [planned, (upTo going).1]

end Connection

/-- A connection with two keep-alives, and a reading of the clock in between. -/
def idleRun : List ConnectionEvent :=
  untilSend ++ [.write (.ok 12), .getNow 0, .write (.ok 4), .flush (.ok ()),
    .read (.error .wouldBlock), .recv .timeout, .getNow 999,
    .read (.error .wouldBlock), .recv .timeout, .getNow 1000, .write (.ok 4)]

theorem sends_plan_idleRun :
    ∃ connection, Transition.run (Connection.step localConfig) .start idleRun = some connection ∧
      connection.sent <+: plan localConfig idleRun ∧
      (connection.control.isEnded = false →
        plan localConfig idleRun = connection.sent ++ connection.control.toSend) := by
  have reaches : (Transition.run (Connection.step localConfig) .start idleRun).isSome := by decide
  rcases Option.isSome_iff_exists.mp reaches with ⟨connection, reaches⟩
  exact ⟨connection, reaches, Connection.sends_plan reaches⟩

/--
As many keep-alives are sent as there are readings of the clock at which one is due, up to one
that is still to be sent.
-/
theorem Connection.keepAlives_onTime {config : ConnectConfig} {connection : Connection}
    {events : List ConnectionEvent}
    (reaches : Transition.run (Connection.step config) .start events = some connection) :
    ∃ instants, OnTime config (clockReadings events) instants ∧
      connection.sent.count .keepAlive ≤ instants.length ∧
      instants.length ≤ connection.sent.count .keepAlive + 1 := by
  refine ⟨_, onTime_thin config (clockReadings events), ?_⟩
  rcases follows_of_run reaches with ⟨rest, planned, few, _⟩
  have counted := congrArg (List.count .keepAlive) planned
  rw [count_keepAlive_plan, List.count_append] at counted
  omega

theorem keepAlives_onTime_idleRun :
    ∃ connection, Transition.run (Connection.step localConfig) .start idleRun = some connection ∧
      ∃ instants, OnTime localConfig (clockReadings idleRun) instants ∧
        connection.sent.count .keepAlive ≤ instants.length ∧
        instants.length ≤ connection.sent.count .keepAlive + 1 := by
  have reaches : (Transition.run (Connection.step localConfig) .start idleRun).isSome := by decide
  rcases Option.isSome_iff_exists.mp reaches with ⟨connection, reaches⟩
  exact ⟨connection, reaches, Connection.keepAlives_onTime reaches⟩

end Hoposhell
