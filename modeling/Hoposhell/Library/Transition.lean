import Mathlib.Data.List.Basic
import Mathlib.Order.WellFounded

/-!
# Runs of a deterministic transition system

A system is a partial step function on states and events: an event that cannot
happen in a state has no successor.  `run` takes a list of events, and `Meets`
says that every step of a run starts from a state and an event satisfying a guard.

`run_preserves` is the invariant rule for runs whose steps all meet a guard, and
`iff_meets_of_run` its exact form: when a property is lost exactly at the steps
violating the guard and never comes back, it holds after a run iff the run meets
the guard.

`Occurs` says that some step of a run has a cause.  `ended_only_after_iff` is about
runs that end: when a step ends the run exactly if it is a cause or violates the
guard, the run ends for no other reason than a cause iff it meets the guard.

`run_history` is the invariant rule for what relates a state to the events that have led
to it, `run_ahead` the one for what relates it to the events still to come, and `run_project`
turns the runs of a system into runs of a part of it.

`exists_run_of_decreasing` is the rule for what can be reached: where every state short of a
goal can take a step that decreases a measure, some run reaches the goal.
-/

namespace Transition

universe u v w

variable {State : Type u} {Event : Type v} (step : State → Event → Option State)

def run (state : State) : List Event → Option State
  | [] => some state
  | event :: events => (step state event).bind (fun next => run next events)

/-- Every step of the run starts from a state and an event satisfying the guard. -/
def Meets (guard : State → Event → Prop) (state : State) : List Event → Prop
  | [] => True
  | event :: events =>
      guard state event ∧ ∀ next, step state event = some next → Meets guard next events

/-- Some step of the run starts from a state and an event that are a cause. -/
def Occurs (cause : State → Event → Prop) (state : State) : List Event → Prop
  | [] => False
  | event :: events =>
      cause state event ∨ ∃ next, step state event = some next ∧ Occurs cause next events

variable {step}

instance decidableMeets {guard : State → Event → Prop}
    [∀ state event, Decidable (guard state event)] :
    (state : State) → (events : List Event) → Decidable (Meets step guard state events)
  | _, [] => isTrue trivial
  | state, event :: events =>
      match taken : step state event with
      | none => decidable_of_iff (guard state event) (by simp [Meets, taken])
      | some next =>
          have : Decidable (Meets step guard next events) := decidableMeets next events
          decidable_of_iff (guard state event ∧ Meets step guard next events)
            (by simp [Meets, taken])

instance decidableOccurs {cause : State → Event → Prop}
    [∀ state event, Decidable (cause state event)] :
    (state : State) → (events : List Event) → Decidable (Occurs step cause state events)
  | _, [] => isFalse id
  | state, event :: events =>
      match taken : step state event with
      | none => decidable_of_iff (cause state event) (by simp [Occurs, taken])
      | some next =>
          have : Decidable (Occurs step cause next events) := decidableOccurs next events
          decidable_of_iff (cause state event ∨ Occurs step cause next events)
            (by simp [Occurs, taken])

theorem run_singleton {state next : State} {event : Event} (taken : step state event = some next) :
    run step state [event] = some next := by
  rw [run, taken]
  rfl

theorem run_cons_eq_some_iff {state last : State} {event : Event} {events : List Event} :
    run step state (event :: events) = some last ↔
      ∃ next, step state event = some next ∧ run step next events = some last := by
  simp [run, Option.bind_eq_some_iff]

/-- A property kept by every step that meets the guard holds after every run that does. -/
theorem run_preserves {guard : State → Event → Prop} {inv : State → Prop}
    (kept : ∀ state event next, inv state → guard state event →
      step state event = some next → inv next)
    {state last : State} {events : List Event} (start : inv state)
    (meets : Meets step guard state events) (reaches : run step state events = some last) :
    inv last := by
  induction events generalizing state with
  | nil =>
      obtain rfl : state = last := by simpa [run] using reaches
      exact start
  | cons event events ih =>
      rcases run_cons_eq_some_iff.mp reaches with ⟨next, taken, rest⟩
      exact ih (kept state event next start meets.1 taken) (meets.2 next taken) rest

theorem meets_true (state : State) (events : List Event) :
    Meets step (fun _ _ => True) state events := by
  induction events generalizing state with
  | nil => trivial
  | cons event events ih => exact ⟨trivial, fun next _ => ih next⟩

theorem run_invariant {inv : State → Prop}
    (kept : ∀ state event next, inv state → step state event = some next → inv next)
    {state last : State} {events : List Event} (start : inv state)
    (reaches : run step state events = some last) : inv last :=
  run_preserves (fun state event next holds _ taken => kept state event next holds taken) start
    (meets_true state events) reaches

/-- A property of the events so far and of the state that every step keeps. -/
theorem run_history {inv : List Event → State → Prop}
    (kept : ∀ past state event next, inv past state → step state event = some next →
      inv (past ++ [event]) next)
    {state last : State} {events : List Event} (start : inv [] state)
    (reaches : run step state events = some last) : inv events last := by
  have fromPast : ∀ {past : List Event} {state : State} {events : List Event}, inv past state →
      run step state events = some last → inv (past ++ events) last := by
    intro past state events holds reaches
    induction events generalizing past state with
    | nil =>
        obtain rfl : state = last := by simpa [run] using reaches
        simpa using holds
    | cons event events ih =>
        rcases run_cons_eq_some_iff.mp reaches with ⟨next, taken, rest⟩
        simpa using ih (kept past state event next holds taken) rest
  simpa using fromPast start reaches

/-- A property of a state and the events still to come that every step keeps. -/
theorem run_ahead {inv : State → List Event → Prop}
    (kept : ∀ state event events next, inv state (event :: events) →
      step state event = some next → inv next events)
    {state last : State} {events : List Event} (start : inv state events)
    (reaches : run step state events = some last) : inv last [] := by
  induction events generalizing state with
  | nil =>
      obtain rfl : state = last := by simpa [run] using reaches
      exact start
  | cons event events ih =>
      rcases run_cons_eq_some_iff.mp reaches with ⟨next, taken, rest⟩
      exact ih (kept state event events next start taken) rest

theorem run_append_eq_some_iff {state last : State} {front back : List Event} :
    run step state (front ++ back) = some last ↔
      ∃ middle, run step state front = some middle ∧ run step middle back = some last := by
  induction front generalizing state with
  | nil => simp [run]
  | cons event front ih =>
      simp only [List.cons_append, run_cons_eq_some_iff, ih]
      constructor
      · rintro ⟨next, taken, middle, reaches, rest⟩
        exact ⟨middle, ⟨next, taken, reaches⟩, rest⟩
      · rintro ⟨middle, ⟨next, taken, reaches⟩, rest⟩
        exact ⟨next, taken, middle, reaches, rest⟩

section Project

variable {Part : Type u} {PartEvent : Type v} {partStep : Part → PartEvent → Option Part}

/-- A run is a run of each part whose steps are made by the steps of the whole. -/
theorem run_project {part : State → Part} {partEvents : Event → List PartEvent}
    (matched : ∀ state event next, step state event = some next →
      run partStep (part state) (partEvents event) = some (part next))
    {state last : State} {events : List Event} (reaches : run step state events = some last) :
    run partStep (part state) (events.flatMap partEvents) = some (part last) := by
  induction events generalizing state with
  | nil =>
      obtain rfl : state = last := by simpa [run] using reaches
      rfl
  | cons event events ih =>
      rcases run_cons_eq_some_iff.mp reaches with ⟨next, taken, rest⟩
      rw [List.flatMap_cons]
      exact run_append_eq_some_iff.mpr ⟨part next, matched state event next taken, ih rest⟩

end Project

section Decreasing

variable {Measure : Type w} [Preorder Measure] [WellFoundedLT Measure]

theorem exists_run_of_decreasing {inv goal : State → Prop} (measure : State → Measure)
    (progress : ∀ state, inv state → ¬goal state → ∃ event next,
      step state event = some next ∧ inv next ∧ measure next < measure state)
    {state : State} (start : inv state) :
    ∃ events last, run step state events = some last ∧ inv last ∧ goal last := by
  induction rank : measure state using WellFoundedLT.induction generalizing state with
  | ind bound ih =>
      by_cases reached : goal state
      · exact ⟨[], state, rfl, start, reached⟩
      · rcases progress state start reached with ⟨event, next, taken, kept, less⟩
        rw [rank] at less
        rcases ih (measure next) less kept rfl with ⟨events, last, reaches, invLast, goalLast⟩
        refine ⟨event :: events, last, ?_, invLast, goalLast⟩
        exact run_cons_eq_some_iff.mpr ⟨next, taken, reaches⟩

end Decreasing

/-- A property lost exactly at the steps violating the guard, and lost for good. -/
theorem iff_meets_of_run {guard : State → Event → Prop} {inv good : State → Prop}
    (kept : ∀ state event next, inv state → step state event = some next → inv next)
    (atStep : ∀ state event next, inv state → good state →
      step state event = some next → (good next ↔ guard state event))
    (lost : ∀ state event next, inv state → ¬good state →
      step state event = some next → ¬good next)
    {state last : State} {events : List Event} (invStart : inv state) (start : good state)
    (reaches : run step state events = some last) :
    good last ↔ Meets step guard state events := by
  have lostForever : ∀ {state : State} {events : List Event}, inv state → ¬good state →
      run step state events = some last → ¬good last := by
    intro state events holds bad reaches
    have keptBoth : ∀ state event next, inv state ∧ ¬good state →
        step state event = some next → inv next ∧ ¬good next :=
      fun state event next both taken =>
        ⟨kept state event next both.1 taken, lost state event next both.1 both.2 taken⟩
    exact (run_invariant keptBoth ⟨holds, bad⟩ reaches).2
  induction events generalizing state with
  | nil =>
      obtain rfl : state = last := by simpa [run] using reaches
      simpa [Meets] using start
  | cons event events ih =>
      rcases run_cons_eq_some_iff.mp reaches with ⟨next, taken, rest⟩
      have invNext := kept state event next invStart taken
      have here := atStep state event next invStart start taken
      have onlyNext : ∀ other, step state event = some other → other = next := by
        intro other taken'
        exact Option.some.inj (taken'.symm.trans taken)
      constructor
      · intro goodLast
        have goodNext : good next := by
          by_contra bad
          exact lostForever invNext bad rest goodLast
        refine ⟨here.mp goodNext, ?_⟩
        intro other taken'
        rw [onlyNext other taken']
        exact (ih invNext goodNext rest).mp goodLast
      · rintro ⟨guardHere, meetsRest⟩
        exact (ih invNext (here.mpr guardHere) rest).mpr (meetsRest next taken)

/--
A run ends only for a cause exactly when all its steps meet the guard.  The invariant is
about a state and the events still to come.
-/
theorem ended_only_after_iff {cause guard : State → Event → Prop} {ended : State → Prop}
    {inv : State → List Event → Prop}
    (kept : ∀ state event events next, inv state (event :: events) →
      step state event = some next → inv next events)
    (stuck : ∀ state event, ended state → step state event = none)
    (ends : ∀ state event events next, inv state (event :: events) →
      step state event = some next → (ended next ↔ cause state event ∨ ¬guard state event))
    (allowed : ∀ state event, cause state event → guard state event)
    {state last : State} {events : List Event} (start : inv state events) (going : ¬ended state)
    (reaches : run step state events = some last) :
    (ended last → Occurs step cause state events) ↔ Meets step guard state events := by
  induction events generalizing state with
  | nil =>
      obtain rfl : state = last := by simpa [run] using reaches
      simp [Meets, going]
  | cons event events ih =>
      rcases run_cons_eq_some_iff.mp reaches with ⟨next, taken, rest⟩
      have here := ends state event events next start taken
      simp only [Occurs, Meets, taken, Option.some.injEq, exists_eq_left', forall_eq']
      by_cases endedNext : ended next
      · cases events with
        | nil =>
            obtain rfl : next = last := by simpa [run] using rest
            have reason := here.mp endedNext
            have meets := allowed state event
            simp only [endedNext, Occurs, Meets, or_false, and_true, forall_const]
            tauto
        | cons event' events =>
            rcases run_cons_eq_some_iff.mp rest with ⟨other, taken', _⟩
            rw [stuck next event' endedNext] at taken'
            cases taken'
      · have noCause : ¬cause state event := fun isCause => endedNext (here.mpr (.inl isCause))
        have meetsHere : guard state event := by
          by_contra violated
          exact endedNext (here.mpr (.inr violated))
        rw [← ih (kept state event events next start taken) endedNext rest]
        simp only [noCause, meetsHere, false_or, true_and]

end Transition
