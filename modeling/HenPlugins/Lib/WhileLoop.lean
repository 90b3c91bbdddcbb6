import Mathlib.Data.Nat.Find

/-!
# While loops as iterated steps

A loop is a guard and a body on an explicit state.  `runFor` makes at most the
given number of iterations; the loop halts when some number of iterations
falsifies the guard.  The rules are the invariant rule for every prefix of a
run, the variant rule for halting and the fixed-point rule for divergence.
-/

set_option autoImplicit false

namespace HenPlugins.Lib.WhileLoop

theorem least_of_exists (Holds : Nat → Prop) (some : ∃ count, Holds count) :
    ∃ count, Holds count ∧ ∀ earlier < count, ¬ Holds earlier := by
  classical
  exact ⟨Nat.find some, Nat.find_spec some, fun _ => Nat.find_min some⟩

variable {State : Type} (guard : State → Bool) (body : State → State)

def runFor : Nat → State → State
  | 0, state => state
  | count + 1, state =>
      if guard state then runFor count (body state) else state

theorem runFor_zero (state : State) : runFor guard body 0 state = state := rfl

theorem runFor_succ (count : Nat) (state : State) :
    runFor guard body (count + 1) state =
      if guard state then runFor guard body count (body state)
      else state := rfl

/-- The loop stops, in the given state. -/
def EndsIn (start final : State) : Prop :=
  ∃ count, runFor guard body count start = final ∧ guard final = false

def Halts (start : State) : Prop :=
  ∃ final, EndsIn guard body start final

theorem runFor_of_guard_false (count : Nat) (state : State)
    (stopped : guard state = false) :
    runFor guard body count state = state := by
  cases count with
  | zero => rfl
  | succ count => simp [runFor_succ, stopped]

theorem runFor_add (first second : Nat) (state : State) :
    runFor guard body (first + second) state =
      runFor guard body second (runFor guard body first state) := by
  induction first generalizing state with
  | zero => simp [runFor_zero]
  | succ first ih =>
      rw [Nat.succ_add]
      by_cases continues : guard state = true
      · simp only [runFor_succ, if_pos continues]
        exact ih (body state)
      · have stopped : guard state = false := by simpa using continues
        simp only [runFor_succ, if_neg continues]
        exact (runFor_of_guard_false guard body second state stopped).symm

theorem endsIn_unique (start left right : State)
    (first : EndsIn guard body start left)
    (second : EndsIn guard body start right) : left = right := by
  obtain ⟨leftCount, leftRun, leftStop⟩ := first
  obtain ⟨rightCount, rightRun, rightStop⟩ := second
  have fromLeft := runFor_add guard body leftCount rightCount start
  have fromRight := runFor_add guard body rightCount leftCount start
  rw [leftRun, runFor_of_guard_false guard body _ left leftStop] at fromLeft
  rw [rightRun, runFor_of_guard_false guard body _ right rightStop]
    at fromRight
  rw [← fromLeft, ← fromRight, Nat.add_comm]

theorem endsIn_of_guard_false (state : State) (stopped : guard state = false) :
    EndsIn guard body state state :=
  ⟨0, rfl, stopped⟩

theorem endsIn_of_body (state final : State) (continues : guard state = true)
    (onward : EndsIn guard body (body state) final) :
    EndsIn guard body state final := by
  obtain ⟨count, run, stopped⟩ := onward
  refine ⟨count + 1, ?_, stopped⟩
  rw [runFor_succ, if_pos continues, run]

/-- Invariant rule, for every number of iterations. -/
theorem runFor_invariant (Invariant : State → Prop)
    (preserved : ∀ state, guard state = true → Invariant state →
      Invariant (body state))
    (count : Nat) (state : State) (initially : Invariant state) :
    Invariant (runFor guard body count state) := by
  induction count generalizing state with
  | zero => exact initially
  | succ count ih =>
      by_cases continues : guard state = true
      · rw [runFor_succ, if_pos continues]
        exact ih _ (preserved state continues initially)
      · rw [runFor_succ, if_neg continues]
        exact initially

/-- Variant rule: a measure that every iteration lowers bounds their number. -/
theorem guard_runFor_of_measure (measure : State → Nat)
    (lowered : ∀ state, guard state = true →
      measure (body state) < measure state)
    (count : Nat) (state : State) (bounded : measure state ≤ count) :
    guard (runFor guard body count state) = false := by
  induction count generalizing state with
  | zero =>
      apply Bool.eq_false_iff.mpr
      intro continues
      have less := lowered state continues
      omega
  | succ count ih =>
      by_cases continues : guard state = true
      · have less := lowered state continues
        rw [runFor_succ, if_pos continues]
        exact ih (body state) (by omega)
      · rw [runFor_succ, if_neg continues]
        exact Bool.eq_false_iff.mpr continues

/-- A state the body does not leave while the guard holds is never left. -/
theorem runFor_of_fixed (count : Nat) (state : State)
    (fixed : body state = state) : runFor guard body count state = state := by
  induction count with
  | zero => rfl
  | succ count ih =>
      rw [runFor_succ, fixed, ih]
      split <;> rfl

/-- Reaching such a state is divergence. -/
theorem not_halts_of_fixed (start : State) (count : Nat)
    (continues : guard (runFor guard body count start) = true)
    (fixed : body (runFor guard body count start) =
      runFor guard body count start) :
    ¬ Halts guard body start := by
  intro halted
  obtain ⟨final, later, run, stopped⟩ := halted
  have onward := runFor_add guard body count later start
  rw [runFor_of_fixed guard body later _ fixed, Nat.add_comm,
    runFor_add, run, runFor_of_guard_false guard body count final stopped]
    at onward
  rw [← onward, stopped] at continues
  contradiction

end HenPlugins.Lib.WhileLoop
