import HenPlugins.Lib.SharedDescriptors

/-!
# Traces of a program

A trace lists the calls that a program made with the answers that it got.  A
record is what an onlooker makes of them, call by call; it begins anew with no
command of the program.  Rules about the program's text hold along its traces.
-/

set_option autoImplicit false

namespace HenPlugins.Lib.CallTrace

open HenPlugins.Lib.CallProgram
open HenPlugins.Lib.EventRun
open HenPlugins.Lib.SharedDescriptors

variable {Label Role Data Point Record : Type}

structure Exchange (Label Role Data : Type) where
  request : Request Label Role
  answer : Answer Data

/-- The program makes the calls of the trace and goes on with another one. -/
inductive Executes (body : Point → Program Label Role Data Point) :
    Program Label Role Data Point → List (Exchange Label Role Data) →
    Program Label Role Data Point → Prop where
  | stop (program : Program Label Role Data Point) :
      Executes body program [] program
  | call (request : Request Label Role)
      (next : Answer Data → Program Label Role Data Point)
      (answer : Answer Data) (trace : List (Exchange Label Role Data))
      (rest : Program Label Role Data Point)
      (later : Executes body (next answer) trace rest) :
      Executes body (.call request next) (⟨request, answer⟩ :: trace) rest
  | again (point : Point) (trace : List (Exchange Label Role Data))
      (rest : Program Label Role Data Point)
      (later : Executes body (body point) trace rest) :
      Executes body (.again point) trace rest

section Rules
variable (body : Point → Program Label Role Data Point)
  (note : Record → Exchange Label Role Data → Record)
  (good : Record → Exchange Label Role Data → Prop)
  (ready : Point → Record → Prop)

/-- Whatever its calls are answered, they are good up to the next point, and
the record is one that the point is ready for. -/
def Keeps : Program Label Role Data Point → Record → Prop
  | .done, _ => True
  | .exit, _ => True
  | .call request next, record =>
      ∀ answer, good record ⟨request, answer⟩ ∧
        Keeps (next answer) (note record ⟨request, answer⟩)
  | .again point, record => ready point record

theorem keeps_call (request : Request Label Role)
    (next : Answer Data → Program Label Role Data Point) (record : Record)
    (here : ∀ answer, good record ⟨request, answer⟩)
    (later : ∀ answer, Keeps note good ready (next answer)
      (note record ⟨request, answer⟩)) :
    Keeps note good ready (.call request next) record := by
  intro answer
  exact ⟨here answer, later answer⟩

theorem keeps_silent (request : Request Label Role)
    (next : Answer Data → Program Label Role Data Point) (record : Record)
    (here : ∀ answer, good record ⟨request, answer⟩)
    (silent : ∀ answer, note record ⟨request, answer⟩ = record)
    (later : ∀ answer, Keeps note good ready (next answer) record) :
    Keeps note good ready (.call request next) record := by
  apply keeps_call note good ready request next record here
  intro answer
  rw [silent answer]
  exact later answer

/-- If a point keeps to the rules whenever it is ready, so do all traces. -/
theorem everyStep_of_keeps
    (enters : ∀ point record, ready point record →
      Keeps note good ready (body point) record)
    (start rest : Program Label Role Data Point)
    (trace : List (Exchange Label Role Data))
    (executes : Executes body start trace rest) (record : Record)
    (keeps : Keeps note good ready start record) :
    EveryStep note good record trace := by
  induction executes generalizing record with
  | stop program => trivial
  | call request next answer trace rest later ih =>
      obtain ⟨here, onward⟩ := keeps answer
      exact ⟨here, ih _ onward⟩
  | again point trace rest later ih => exact ih record (enters point record keeps)

end Rules

section SoundRules
variable (body : Point → Program Label Role Data Point)
  (note : Record → Exchange Label Role Data → Record)
  (sound good : Record → Exchange Label Role Data → Prop)
  (ready : Point → Record → Prop)

/-- The same as long as the answers are sound for the record. -/
def KeepsWhile : Program Label Role Data Point → Record → Prop
  | .done, _ => True
  | .exit, _ => True
  | .call request next, record =>
      ∀ answer, sound record ⟨request, answer⟩ →
        good record ⟨request, answer⟩ ∧
          KeepsWhile (next answer) (note record ⟨request, answer⟩)
  | .again point, record => ready point record

theorem everyStep_of_keepsWhile
    (enters : ∀ point record, ready point record →
      KeepsWhile note sound good ready (body point) record)
    (start rest : Program Label Role Data Point)
    (trace : List (Exchange Label Role Data))
    (executes : Executes body start trace rest) (record : Record)
    (keeps : KeepsWhile note sound good ready start record)
    (every : EveryStep note sound record trace) :
    EveryStep note good record trace := by
  induction executes generalizing record with
  | stop program => trivial
  | call request next answer trace rest later ih =>
      obtain ⟨fits, onward⟩ := every
      obtain ⟨here, still⟩ := keeps answer fits
      exact ⟨here, ih _ still onward⟩
  | again point trace rest later ih =>
      exact ih record (enters point record keeps) every

theorem keepsWhile_rest
    (enters : ∀ point record, ready point record →
      KeepsWhile note sound good ready (body point) record)
    (start rest : Program Label Role Data Point)
    (trace : List (Exchange Label Role Data))
    (executes : Executes body start trace rest) (record : Record)
    (keeps : KeepsWhile note sound good ready start record)
    (every : EveryStep note sound record trace) :
    KeepsWhile note sound good ready rest (trace.foldl note record) := by
  induction executes generalizing record with
  | stop program => exact keeps
  | call request next answer trace rest later ih =>
      obtain ⟨fits, onward⟩ := every
      exact ih _ (keeps answer fits).2 onward
  | again point trace rest later ih =>
      exact ih record (enters point record keeps) every

end SoundRules

section Points
variable (allowed : Request Label Role → Answer Data → Prop)

/-- With answers that are allowed, the program goes on at the point. -/
inductive Leads : Program Label Role Data Point → Point → Prop where
  | again (point : Point) : Leads (.again point) point
  | call (request : Request Label Role)
      (next : Answer Data → Program Label Role Data Point)
      (answer : Answer Data) (point : Point)
      (fits : allowed request answer) (later : Leads (next answer) point) :
      Leads (.call request next) point

theorem leads_again_iff (point other : Point) :
    Leads allowed (.again point : Program Label Role Data Point) other ↔
      other = point := by
  constructor
  · intro leads
    cases leads
    rfl
  · intro same
    rw [same]
    exact .again point

theorem leads_call_iff (request : Request Label Role)
    (next : Answer Data → Program Label Role Data Point) (point : Point) :
    Leads allowed (.call request next) point ↔
      ∃ answer, allowed request answer ∧ Leads allowed (next answer) point := by
  constructor
  · intro leads
    cases leads with
    | call _ _ answer _ fits later => exact ⟨answer, fits, later⟩
  · intro leads
    obtain ⟨answer, fits, later⟩ := leads
    exact .call request next answer point fits later

theorem not_leads_done (point : Point) :
    ¬ Leads allowed (.done : Program Label Role Data Point) point := by
  intro leads
  cases leads

end Points

theorem executes_append (body : Point → Program Label Role Data Point)
    (start middle rest : Program Label Role Data Point)
    (front back : List (Exchange Label Role Data))
    (first : Executes body start front middle)
    (second : Executes body middle back rest) :
    Executes body start (front ++ back) rest := by
  induction first with
  | stop program => exact second
  | call request next answer trace rest later ih =>
      exact .call request next answer _ _ (ih second)
  | again point trace rest later ih => exact .again point _ _ (ih second)

/-- A loop goes on. -/
def settle (body : Point → Program Label Role Data Point) :
    Program Label Role Data Point → Program Label Role Data Point
  | .again point => body point
  | program => program

/-- The calls that get the answers, as far as there are calls. -/
def traceOf (body : Point → Program Label Role Data Point) :
    Program Label Role Data Point → List (Answer Data) →
      List (Exchange Label Role Data)
  | _, [] => []
  | program, answer :: rest =>
      match settle body program with
      | .call request next =>
          ⟨request, answer⟩ :: traceOf body (next answer) rest
      | _ => []

def restOf (body : Point → Program Label Role Data Point) :
    Program Label Role Data Point → List (Answer Data) →
      Program Label Role Data Point
  | program, [] => program
  | program, answer :: rest =>
      match settle body program with
      | .call _ next => restOf body (next answer) rest
      | _ => program

theorem executes_of_settle (body : Point → Program Label Role Data Point)
    (start rest : Program Label Role Data Point)
    (trace : List (Exchange Label Role Data))
    (settled : Executes body (settle body start) trace rest) :
    Executes body start trace rest := by
  cases start with
  | again point => exact .again point trace rest settled
  | done => exact settled
  | exit => exact settled
  | call request next => exact settled

theorem executes_traceOf (body : Point → Program Label Role Data Point)
    (start : Program Label Role Data Point) (answers : List (Answer Data)) :
    Executes body start (traceOf body start answers)
      (restOf body start answers) := by
  induction answers generalizing start with
  | nil => exact .stop start
  | cons answer answers ih =>
      rw [traceOf, restOf]
      split
      · rename_i request next settled
        apply executes_of_settle
        rw [settled]
        exact .call request next answer _ _ (ih (next answer))
      · exact .stop start

section Shared
variable [DecidableEq Role] (body : Point → Program Label Role Data Point)
  (start : Nat → Program Label Role Data Point) (first : Role)

/-- Every session is where some trace of its program leads. -/
def Traced (state : State Label Role Data Point) : Prop :=
  ∀ session ∈ state.sessions, ∃ number trace,
    Executes body (start number) trace session.program

omit [DecidableEq Role] in
theorem traced_set (state : State Label Role Data Point) (table : Table)
    (index : Nat) (session after : Session Label Role Data Point)
    (here : state.sessions[index]? = some session)
    (goesOn : ∀ number trace,
      Executes body (start number) trace session.program →
        ∃ longer, Executes body (start number) longer after.program)
    (traced : Traced body start state) :
    Traced body start ⟨table, state.sessions.set index after⟩ := by
  intro other member
  obtain there | same := List.mem_or_eq_of_mem_set member
  · exact traced other there
  · obtain ⟨number, trace, executes⟩ :=
      traced session (List.mem_of_getElem? here)
    obtain ⟨longer, onward⟩ := goesOn number trace executes
    rw [same]
    exact ⟨number, longer, onward⟩

theorem traced_step (state : State Label Role Data Point) (event : Event Data)
    (next : State Label Role Data Point) (traced : Traced body start state)
    (taken : SharedDescriptors.step body start first state event = some next) :
    Traced body start next := by
  unfold SharedDescriptors.step at taken
  split at taken
  · contradiction
  split at taken
  · rename_i index answer
    split at taken
    · rename_i session here
      obtain ⟨request, rest, program, -, rfl⟩ :=
        callStep_spec state next index session answer taken
      apply traced_set body start state _ index session _ here _ traced
      intro number trace executes
      rw [program] at executes
      exact ⟨_, executes_append body _ _ _ trace _ executes
        (.call request rest answer [] _ (.stop _))⟩
    · contradiction
  · rename_i index
    split at taken
    · rename_i session here
      rw [proceedStep] at taken
      split at taken
      · rename_i point program
        cases Option.some.inj taken
        apply traced_set body start state _ index session _ here _ traced
        intro number trace executes
        rw [program] at executes
        exact ⟨_, executes_append body _ _ _ trace _ executes
          (.again point [] _ (.stop _))⟩
      · contradiction
    · contradiction
  · rename_i number
    split at taken
    · cases Option.some.inj taken
      intro session member
      obtain there | new := List.mem_append.mp member
      · exact traced session there
      · rw [List.mem_singleton.mp new]
        exact ⟨number, [], .stop _⟩
    · contradiction
  · split at taken
    · cases Option.some.inj taken
      exact traced
    · cases Option.some.inj taken
      exact traced
    · contradiction

/-- What is shown of all traces holds for the sessions of a run. -/
theorem traced_run (state final : State Label Role Data Point)
    (events : List (Event Data)) (traced : Traced body start state)
    (ran : run (SharedDescriptors.step body start first) state events =
      some final) : Traced body start final :=
  run_invariant _ (Traced body start) events
    (fun event _ state next initially taken =>
      traced_step body start first state event next initially taken)
    state final traced ran

end Shared

end HenPlugins.Lib.CallTrace
