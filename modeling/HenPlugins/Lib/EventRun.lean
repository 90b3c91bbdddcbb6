import Mathlib.Data.List.Basic

/-!
# Runs over a list of events

A step function says which state an event leads to, and `none` when the event
cannot occur.  A run is defined when each of its events can occur in turn.  For
steps that always succeed, a condition is followed along the run.
-/

set_option autoImplicit false

namespace HenPlugins.Lib.EventRun

variable {State Event : Type} (step : State → Event → Option State)

def run : State → List Event → Option State
  | state, [] => some state
  | state, event :: rest =>
      match step state event with
      | none => none
      | some next => run next rest

theorem run_cons (state final : State) (event : Event) (rest : List Event)
    (ran : run step state (event :: rest) = some final) :
    ∃ next, step state event = some next ∧ run step next rest = some final := by
  rw [run] at ran
  cases taken : step state event with
  | none =>
      rw [taken] at ran
      contradiction
  | some next =>
      rw [taken] at ran
      exact ⟨next, rfl, ran⟩

theorem run_append (state final : State) (front back : List Event)
    (ran : run step state (front ++ back) = some final) :
    ∃ middle, run step state front = some middle ∧
      run step middle back = some final := by
  induction front generalizing state with
  | nil => exact ⟨state, rfl, ran⟩
  | cons event front ih =>
      obtain ⟨next, taken, later⟩ := run_cons step state final event _ ran
      obtain ⟨middle, first, second⟩ := ih next later
      refine ⟨middle, ?_, second⟩
      rw [run, taken]
      exact first

theorem run_invariant (Invariant : State → Prop) (events : List Event)
    (preserved : ∀ event ∈ events, ∀ state next, Invariant state →
      step state event = some next → Invariant next)
    (state final : State) (initially : Invariant state)
    (ran : run step state events = some final) : Invariant final := by
  induction events generalizing state with
  | nil =>
      cases Option.some.inj ran
      exact initially
  | cons event rest ih =>
      obtain ⟨next, taken, later⟩ := run_cons step state final event rest ran
      have first := preserved event (List.mem_cons_self ..) state next
        initially taken
      exact ih (fun other member => preserved other
        (List.mem_cons_of_mem _ member)) next first later

/-- A latch that one kind of event sets and nothing clears. -/
theorem run_latch (latch : State → Bool) (sets : Event → Bool)
    (stepLatch : ∀ state event next, step state event = some next →
      latch next = (latch state || sets event))
    (state final : State) (events : List Event)
    (ran : run step state events = some final) :
    latch final = (latch state || events.any sets) := by
  induction events generalizing state with
  | nil =>
      cases Option.some.inj ran
      simp
  | cons event rest ih =>
      obtain ⟨next, taken, later⟩ := run_cons step state final event rest ran
      rw [ih next later, stepLatch state event next taken, List.any_cons,
        Bool.or_assoc]

/-- Each event is good in the state in which it occurs. -/
def Along (good : State → Event → Prop) : State → List Event → Prop
  | _, [] => True
  | state, event :: rest =>
      good state event ∧
        match step state event with
        | none => True
        | some next => Along good next rest

instance decidableAlong (good : State → Event → Prop)
    [∀ state event, Decidable (good state event)] :
    ∀ (state : State) (events : List Event),
      Decidable (Along step good state events)
  | _, [] => inferInstanceAs (Decidable True)
  | state, event :: rest =>
      match taken : step state event with
      | none =>
          decidable_of_iff (good state event) (by
            rw [Along, taken]
            exact (and_iff_left trivial).symm)
      | some next =>
          have := decidableAlong good next rest
          decidable_of_iff (good state event ∧ Along step good next rest) (by
            rw [Along, taken])

/-- If the steps of a run meet one condition, they meet another, where an
invariant that they keep makes the difference. -/
theorem along_of_sound (Invariant : State → Prop)
    (sound proper : State → Event → Prop)
    (kept : ∀ state event next, Invariant state → sound state event →
      step state event = some next → proper state event ∧ Invariant next)
    (state final : State) (events : List Event) (initially : Invariant state)
    (ran : run step state events = some final)
    (good : Along step sound state events) :
    Along step proper state events ∧ Invariant final := by
  induction events generalizing state with
  | nil =>
      cases Option.some.inj ran
      exact ⟨trivial, initially⟩
  | cons event rest ih =>
      obtain ⟨next, taken, later⟩ := run_cons step state final event rest ran
      rw [Along, taken] at good
      obtain ⟨here, onward⟩ := good
      obtain ⟨first, still⟩ := kept state event next initially here taken
      obtain ⟨every, last⟩ := ih next still later onward
      rw [Along, taken]
      exact ⟨⟨first, every⟩, last⟩

/-- Every step of the run is good in the state it is taken from. -/
def EveryStep (next : State → Event → State) (good : State → Event → Prop) :
    State → List Event → Prop
  | _, [] => True
  | state, event :: rest =>
      good state event ∧ EveryStep next good (next state event) rest

instance decidableEveryStep (next : State → Event → State)
    (good : State → Event → Prop)
    [∀ state event, Decidable (good state event)] :
    ∀ (state : State) (events : List Event),
      Decidable (EveryStep next good state events)
  | _, [] => inferInstanceAs (Decidable True)
  | state, event :: rest =>
      have := decidableEveryStep next good (next state event) rest
      inferInstanceAs (Decidable (_ ∧ _))

/-- Steps that meet one condition meet another, where an invariant that they
keep makes the difference. -/
theorem everyStep_of_sound (next : State → Event → State)
    (sound proper : State → Event → Prop) (Invariant : State → Prop)
    (kept : ∀ state event, Invariant state → sound state event →
      proper state event ∧ Invariant (next state event))
    (state : State) (events : List Event) (initially : Invariant state)
    (every : EveryStep next sound state events) :
    EveryStep next proper state events := by
  induction events generalizing state with
  | nil => trivial
  | cons event rest ih =>
      obtain ⟨here, later⟩ := every
      obtain ⟨good, still⟩ := kept state event initially here
      exact ⟨good, ih _ still later⟩

theorem everyStep_and (next : State → Event → State)
    (first second : State → Event → Prop) (state : State)
    (events : List Event) :
    EveryStep next (fun state event => first state event ∧ second state event)
        state events ↔
      EveryStep next first state events ∧
        EveryStep next second state events := by
  induction events generalizing state with
  | nil => exact (and_self_iff).symm
  | cons event rest ih =>
      simp only [EveryStep]
      rw [ih]
      exact and_and_and_comm

/-- Two conditions agree on runs on which they agree step by step, given an
invariant that the run keeps. -/
theorem everyStep_iff_of_sound (next : State → Event → State)
    (sound first second : State → Event → Prop) (Invariant : State → Prop)
    (agree : ∀ state event, Invariant state → sound state event →
      (first state event ↔ second state event))
    (kept : ∀ state event, Invariant state → sound state event →
      Invariant (next state event))
    (state : State) (events : List Event) (initially : Invariant state)
    (every : EveryStep next sound state events) :
    EveryStep next first state events ↔ EveryStep next second state events := by
  constructor
  · intro good
    apply everyStep_of_sound next _ second Invariant _ state events initially
      ((everyStep_and next sound first state events).mpr ⟨every, good⟩)
    intro state event invariant both
    exact ⟨(agree state event invariant both.1).mp both.2,
      kept state event invariant both.1⟩
  · intro good
    apply everyStep_of_sound next _ first Invariant _ state events initially
      ((everyStep_and next sound second state events).mpr ⟨every, good⟩)
    intro state event invariant both
    exact ⟨(agree state event invariant both.1).mpr both.2,
      kept state event invariant both.1⟩

/-- Two conditions that agree under an invariant, which either of them
maintains, agree on runs. -/
theorem everyStep_iff (next : State → Event → State)
    (first second : State → Event → Prop) (Invariant : State → Prop)
    (agree : ∀ state event, Invariant state →
      (first state event ↔ second state event))
    (kept : ∀ state event, Invariant state → first state event →
      Invariant (next state event))
    (state : State) (events : List Event) (initially : Invariant state) :
    EveryStep next first state events ↔ EveryStep next second state events := by
  induction events generalizing state with
  | nil => rfl
  | cons event rest ih =>
      simp only [EveryStep]
      rw [← agree state event initially]
      constructor
      · intro every
        obtain ⟨good, later⟩ := every
        exact ⟨good, (ih _ (kept state event initially good)).mp later⟩
      · intro every
        obtain ⟨good, later⟩ := every
        exact ⟨good, (ih _ (kept state event initially good)).mpr later⟩

end HenPlugins.Lib.EventRun
