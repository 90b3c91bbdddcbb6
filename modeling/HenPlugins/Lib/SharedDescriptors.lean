import Mathlib.Data.List.Count
import HenPlugins.Lib.CallProgram
import HenPlugins.Lib.EventRun

/-!
# Sessions that share a descriptor table

The sessions of a process run their programs in any order, call by call.  A new
descriptor gets any free number, and a call on a number that is not open fails.
Sessions arrive with a descriptor of their own, and the rest of the process
opens and closes descriptors that no session holds.
-/

set_option autoImplicit false

namespace HenPlugins.Lib.SharedDescriptors

open HenPlugins.Lib.CallProgram
open HenPlugins.Lib.EventRun

inductive Holder where
  | free
  | elsewhere
  | session (index : Nat)
  deriving DecidableEq

abbrev Table := Nat → Holder

section System
variable {Label Role Data Point : Type} [DecidableEq Role]

/-- A session, with the numbers that it was given and those that it closed, the
last ones first. -/
structure Session (Label Role Data Point : Type) where
  program : Program Label Role Data Point
  slots : Slots Role
  opened : List Nat
  closed : List Nat

structure State (Label Role Data Point : Type) where
  table : Table
  sessions : List (Session Label Role Data Point)

inductive Event (Data : Type) where
  | call (index : Nat) (answer : Answer Data)
  | proceed (index : Nat)
  | arrive (number : Nat)
  | elsewhere (number : Nat)

/-! ## Calls -/

def Table.isOpen (table : Table) (fd : Int) : Bool :=
  0 ≤ fd && table fd.toNat != .free

def Table.failsUnlessOpen (table : Table) (value fd : Int) : Bool :=
  table.isOpen fd || value < 0

/-- The values that a call may return. -/
def Table.allows (table : Table) : Request Label Role → Int → Bool
  | .plain _, _ => true
  | .use _ fd, value => table.failsUnlessOpen value fd
  | .acquire _ _ through, value =>
      through.all (table.failsUnlessOpen value) &&
        (value < 0 || table value.toNat = .free)
  | .close _ fd, value => table.failsUnlessOpen value fd

/-- A descriptor is released whatever `close` returns. -/
def Table.after (table : Table) (index : Nat) :
    Request Label Role → Int → Table
  | .plain _, _ => table
  | .use _ _, _ => table
  | .acquire _ _ _, value =>
      if value < 0 then table
      else Function.update table value.toNat (.session index)
  | .close _ fd, _ =>
      if fd < 0 then table else Function.update table fd.toNat .free

def newNumbers : Request Label Role → Int → List Nat
  | .acquire _ _ _, value => if value < 0 then [] else [value.toNat]
  | _, _ => []

def closedNumbers : Request Label Role → List Nat
  | .close _ fd => if fd < 0 then [] else [fd.toNat]
  | _ => []

/-! ## Steps -/

variable (body : Point → Program Label Role Data Point)
  (start : Nat → Program Label Role Data Point) (first : Role)

def Session.after (session : Session Label Role Data Point)
    (request : Request Label Role) (answer : Answer Data)
    (next : Answer Data → Program Label Role Data Point) :
    Session Label Role Data Point where
  program := next answer
  slots := session.slots.after request answer.value
  opened := newNumbers request answer.value ++ session.opened
  closed := closedNumbers request ++ session.closed

def arrival (number : Nat) : Session Label Role Data Point where
  program := start number
  slots := Function.update (fun _ => .unset) first (.opened number)
  opened := [number]
  closed := []

def Session.hasExited (session : Session Label Role Data Point) : Bool :=
  match session.program with
  | .exit => true
  | _ => false

/-- The next call of a session is answered. -/
def callStep (state : State Label Role Data Point) (index : Nat)
    (session : Session Label Role Data Point) (answer : Answer Data) :
    Option (State Label Role Data Point) :=
  match session.program with
  | .call request next =>
      if state.table.allows request answer.value then
        some {
          table := state.table.after index request answer.value
          sessions := state.sessions.set index
            (session.after request answer next) }
      else none
  | _ => none

/-- A session goes on from a point. -/
def proceedStep (state : State Label Role Data Point) (index : Nat)
    (session : Session Label Role Data Point) :
    Option (State Label Role Data Point) :=
  match session.program with
  | .again point =>
      some { state with
        sessions := state.sessions.set index
          { session with program := body point } }
  | _ => none

/-- When one session has exited, nothing goes on. -/
def step (state : State Label Role Data Point) (event : Event Data) :
    Option (State Label Role Data Point) :=
  if state.sessions.any Session.hasExited then none
  else
    match event with
    | .call index answer =>
        match state.sessions[index]? with
        | some session => callStep state index session answer
        | none => none
    | .proceed index =>
        match state.sessions[index]? with
        | some session => proceedStep body state index session
        | none => none
    | .arrive number =>
        if state.table number = .free then
          some {
            table := Function.update state.table number
              (.session state.sessions.length)
            sessions := state.sessions ++ [arrival start first number] }
        else none
    | .elsewhere number =>
        match state.table number with
        | .free =>
            some { state with
              table := Function.update state.table number .elsewhere }
        | .elsewhere =>
            some { state with
              table := Function.update state.table number .free }
        | .session _ => none

end System

/-! ## What a call changes -/

/-- A permitted call changes nothing, or it opens a free number in a slot of no
number, or it closes the number of a slot. -/
inductive Effect {Role : Type} [DecidableEq Role] (index : Nat)
    (table : Table) (slots : Slots Role) :
    Table → Slots Role → List Nat → List Nat → Prop where
  | same (other : Slots Role)
      (agree : ∀ role number,
        other role = .opened number ↔ slots role = .opened number) :
      Effect index table slots table other [] []
  | opens (role : Role) (number : Nat) (free : table number = .free)
      (empty : ¬ (slots role).IsOpened) :
      Effect index table slots
        (Function.update table number (.session index))
        (Function.update slots role (.opened number)) [number] []
  | closes (role : Role) (number : Nat) (held : slots role = .opened number) :
      Effect index table slots (Function.update table number .free)
        (Function.update slots role .closed) [] [number]

theorem agree_update {Role : Type} [DecidableEq Role] (slots : Slots Role)
    (role : Role) (slot : Slot) (empty : ¬ (slots role).IsOpened)
    (stays : ¬ slot.IsOpened) (other : Role) (number : Nat) :
    Function.update slots role slot other = .opened number ↔
      slots other = .opened number := by
  by_cases same : other = role
  · rw [same, Function.update_self]
    rw [isOpened_iff] at empty stays
    exact iff_of_false (fun opened => stays ⟨number, opened⟩) fun opened =>
      empty ⟨number, opened⟩
  · rw [Function.update_of_ne same]

section Effects
variable {Label Role : Type} [DecidableEq Role] (index : Nat)
  (table : Table) (slots : Slots Role)

theorem effect_acquire (role : Role) (label : Label) (through : Option Int)
    (value : Int)
    (permitted : slots.Permits (.acquire role label through))
    (allowed : table.allows
      (.acquire role label through : Request Label Role) value = true) :
    let request : Request Label Role := .acquire role label through
    Effect index table slots (table.after index request value)
      (slots.after request value) (newNumbers request value)
      (closedNumbers request) := by
  obtain ⟨empty, -⟩ := permitted
  simp only [Table.after, Slots.after, newNumbers, closedNumbers, Slot.ofValue]
  split
  · exact .same _ (agree_update slots role .unset empty id)
  · rename_i succeeded
    rw [Table.allows, Bool.and_eq_true, Bool.or_eq_true, decide_eq_true_eq,
      decide_eq_true_eq] at allowed
    obtain ⟨-, failed | free⟩ := allowed
    · exact absurd failed succeeded
    · exact .opens role value.toNat free empty

theorem effect_close (role : Role) (fd value : Int)
    (permitted : slots.Permits (.close role fd : Request Label Role)) :
    let request : Request Label Role := .close role fd
    Effect index table slots (table.after index request value)
      (slots.after request value) (newNumbers request value)
      (closedNumbers request) := by
  obtain ⟨kept, fresh⟩ := permitted
  simp only [Table.after, Slots.after, newNumbers, closedNumbers]
  cases slot : slots role with
  | unset =>
      rw [slot, Slot.Keeps] at kept
      rw [if_pos kept, if_pos kept]
      refine .same _ (agree_update slots role .unset ?_ id)
      rw [slot]
      exact id
  | opened number =>
      rw [slot, Slot.Keeps] at kept
      rw [if_neg (by omega), if_neg (by omega), kept, Int.toNat_natCast]
      exact .closes role number slot
  | closed => exact absurd slot fresh

theorem effect_of_permits (request : Request Label Role) (value : Int)
    (permitted : slots.Permits request)
    (allowed : table.allows request value = true) :
    Effect index table slots (table.after index request value)
      (slots.after request value) (newNumbers request value)
      (closedNumbers request) := by
  cases request with
  | plain label => exact .same _ fun _ _ => Iff.rfl
  | use label fd => exact .same _ fun _ _ => Iff.rfl
  | acquire role label through =>
      exact effect_acquire index table slots role label through value permitted
        allowed
  | close role fd =>
      exact effect_close index table slots role fd value permitted

end Effects

/-! ## Accounts -/

/-- The numbers that the table gives to a session are those of its slots, each
in one slot, and those that it has been given and has not closed. -/
structure Accounts {Role : Type} (index : Nat) (table : Table)
    (slots : Slots Role) (opened closed : List Nat) : Prop where
  held : ∀ number, table number = .session index ↔ slots.Holds number
  apart : ∀ role other number, slots role = .opened number →
    slots other = .opened number → role = other
  counted : ∀ number, opened.count number = closed.count number +
    if table number = .session index then 1 else 0

theorem accounts_frame {Role : Type} (index : Nat) (table after : Table)
    (slots : Slots Role) (opened closed : List Nat)
    (agree : ∀ number,
      after number = .session index ↔ table number = .session index)
    (accounts : Accounts index table slots opened closed) :
    Accounts index after slots opened closed where
  held := by
    intro number
    rw [agree, accounts.held]
  apart := accounts.apart
  counted := by
    intro number
    simp only [agree, accounts.counted number]

/-- A number that a session neither had nor gets makes no difference to it. -/
theorem agree_table (table : Table) (number other index : Nat)
    (holder : Holder) (before : table number ≠ .session index)
    (after : holder ≠ .session index) :
    Function.update table number holder other = .session index ↔
      table other = .session index := by
  by_cases same : other = number
  · rw [same, Function.update_self]
    exact iff_of_false after before
  · rw [Function.update_of_ne same]

section Accounting
variable {Role : Type} [DecidableEq Role] (index : Nat) (table after : Table)
  (slots later : Slots Role) (opened closed given released : List Nat)

theorem holds_update (role : Role) (slot : Slot) (number : Nat) :
    Slots.Holds (Function.update slots role slot) number ↔
      slot = .opened number ∨
        ∃ other, other ≠ role ∧ slots other = .opened number := by
  constructor
  · intro holds
    obtain ⟨other, opened⟩ := holds
    by_cases same : other = role
    · rw [same, Function.update_self] at opened
      exact Or.inl opened
    · rw [Function.update_of_ne same] at opened
      exact Or.inr ⟨other, same, opened⟩
  · intro either
    obtain opened | ⟨other, differ, opened⟩ := either
    · exact ⟨role, by rw [Function.update_self, opened]⟩
    · exact ⟨other, by rw [Function.update_of_ne differ, opened]⟩

theorem accounts_opens (role : Role) (number : Nat)
    (free : table number = .free) (empty : ¬ (slots role).IsOpened)
    (accounts : Accounts index table slots opened closed) :
    Accounts index (Function.update table number (.session index))
      (Function.update slots role (.opened number)) (number :: opened)
      closed where
  held := by
    intro other
    rw [holds_update]
    by_cases same : other = number
    · rw [same, Function.update_self]
      exact iff_of_true rfl (Or.inl rfl)
    · rw [Function.update_of_ne same, accounts.held]
      constructor
      · intro holds
        obtain ⟨holder, opened⟩ := holds
        refine Or.inr ⟨holder, ?_, opened⟩
        intro atRole
        rw [← atRole, isOpened_iff] at empty
        exact empty ⟨other, opened⟩
      · intro either
        obtain this | ⟨holder, -, opened⟩ := either
        · exact absurd (Slot.opened.inj this).symm same
        · exact ⟨holder, opened⟩
  apart := by
    have fresh : ∀ other, slots other ≠ .opened number := by
      intro other opened
      have taken := (accounts.held number).mpr ⟨other, opened⟩
      rw [free] at taken
      cases taken
    intro left right other leftOpened rightOpened
    by_cases atLeft : left = role <;> by_cases atRight : right = role
    · rw [atLeft, atRight]
    · rw [atLeft, Function.update_self] at leftOpened
      rw [Function.update_of_ne atRight, ← leftOpened] at rightOpened
      exact absurd rightOpened (fresh right)
    · rw [atRight, Function.update_self] at rightOpened
      rw [Function.update_of_ne atLeft, ← rightOpened] at leftOpened
      exact absurd leftOpened (fresh left)
    · rw [Function.update_of_ne atLeft] at leftOpened
      rw [Function.update_of_ne atRight] at rightOpened
      exact accounts.apart left right other leftOpened rightOpened
  counted := by
    intro other
    have before := accounts.counted other
    rw [List.count_cons]
    by_cases same : other = number
    · rw [same, free] at before
      rw [same, Function.update_self]
      simpa using before
    · rw [Function.update_of_ne same, before]
      simp [Ne.symm same]

theorem accounts_closes (role : Role) (number : Nat)
    (held : slots role = .opened number)
    (accounts : Accounts index table slots opened closed) :
    Accounts index (Function.update table number .free)
      (Function.update slots role .closed) opened (number :: closed) where
  held := by
    intro other
    rw [holds_update]
    by_cases same : other = number
    · rw [same, Function.update_self]
      refine iff_of_false nofun ?_
      intro either
      obtain this | ⟨holder, differ, opened⟩ := either
      · cases this
      · exact differ (accounts.apart holder role number opened held)
    · rw [Function.update_of_ne same, accounts.held]
      constructor
      · intro holds
        obtain ⟨holder, opened⟩ := holds
        refine Or.inr ⟨holder, ?_, opened⟩
        intro atRole
        rw [atRole, held] at opened
        exact same (Slot.opened.inj opened).symm
      · intro either
        obtain this | ⟨holder, -, opened⟩ := either
        · cases this
        · exact ⟨holder, opened⟩
  apart := by
    intro left right other leftOpened rightOpened
    have atLeft : left ≠ role := by
      intro same
      rw [same, Function.update_self] at leftOpened
      cases leftOpened
    have atRight : right ≠ role := by
      intro same
      rw [same, Function.update_self] at rightOpened
      cases rightOpened
    rw [Function.update_of_ne atLeft] at leftOpened
    rw [Function.update_of_ne atRight] at rightOpened
    exact accounts.apart left right other leftOpened rightOpened
  counted := by
    intro other
    have before := accounts.counted other
    rw [List.count_cons]
    by_cases same : other = number
    · rw [same, (accounts.held number).mpr ⟨role, held⟩] at before
      rw [same, Function.update_self]
      simpa using before
    · rw [Function.update_of_ne same, before]
      simp [Ne.symm same]

theorem accounts_effect
    (effect : Effect index table slots after later given released)
    (accounts : Accounts index table slots opened closed) :
    Accounts index after later (given ++ opened) (released ++ closed) := by
  cases effect with
  | same _ agree =>
      refine ⟨?_, ?_, accounts.counted⟩
      · intro number
        rw [accounts.held]
        exact exists_congr fun role => (agree role number).symm
      · intro role other number left right
        exact accounts.apart role other number
          ((agree role number).mp left) ((agree other number).mp right)
  | opens role number free empty =>
      exact accounts_opens index table slots opened closed role number free
        empty accounts
  | closes role number held =>
      exact accounts_closes index table slots opened closed role number held
        accounts

theorem effect_frame
    (effect : Effect index table slots after later given released)
    (accounts : Accounts index table slots opened closed) (other number : Nat)
    (differ : other ≠ index) :
    after number = .session other ↔ table number = .session other := by
  cases effect with
  | same _ agree => exact Iff.rfl
  | opens role opened free empty =>
      apply agree_table
      · rw [free]
        exact nofun
      · intro holder
        exact differ (Holder.session.inj holder).symm
  | closes role closed held =>
      apply agree_table
      · rw [(accounts.held closed).mpr ⟨role, held⟩]
        intro holder
        exact differ (Holder.session.inj holder).symm
      · exact nofun

end Accounting

/-! ## Runs -/

section Runs
variable {Label Role Data Point : Type} [DecidableEq Role]
  (body : Point → Program Label Role Data Point)
  (start : Nat → Program Label Role Data Point) (first : Role)
  (sound : Slots Role → Request Label Role → Answer Data → Prop)
  (ready : Point → Slots Role → Prop)

/-- The call that a session makes next. -/
def State.pending (state : State Label Role Data Point) (index : Nat) :
    Option (Slots Role × Request Label Role) :=
  match state.sessions[index]? with
  | some session =>
      match session.program with
      | .call request _ => some (session.slots, request)
      | _ => none
  | none => none

def SoundStep (state : State Label Role Data Point) : Event Data → Prop
  | .call index answer =>
      ∀ call ∈ state.pending index, sound call.1 call.2 answer
  | _ => True

/-- A session calls on descriptors that it holds. -/
def OwnStep (state : State Label Role Data Point) : Event Data → Prop
  | .call index _ =>
      ∀ call ∈ state.pending index, ∀ fd ∈ call.2.touched, 0 ≤ fd →
        state.table fd.toNat = .session index
  | _ => True

instance decidableSoundStep
    [∀ slots request answer, Decidable (sound slots request answer)]
    (state : State Label Role Data Point) (event : Event Data) :
    Decidable (SoundStep sound state event) :=
  match event with
  | .call index answer =>
      inferInstanceAs (Decidable
        (∀ call ∈ state.pending index, sound call.1 call.2 answer))
  | .proceed _ => inferInstanceAs (Decidable True)
  | .arrive _ => inferInstanceAs (Decidable True)
  | .elsewhere _ => inferInstanceAs (Decidable True)

instance decidableOwnStep (state : State Label Role Data Point)
    (event : Event Data) : Decidable (OwnStep state event) :=
  match event with
  | .call index _ =>
      inferInstanceAs (Decidable
        (∀ call ∈ state.pending index, ∀ fd ∈ call.2.touched, 0 ≤ fd →
          state.table fd.toNat = .session index))
  | .proceed _ => inferInstanceAs (Decidable True)
  | .arrive _ => inferInstanceAs (Decidable True)
  | .elsewhere _ => inferInstanceAs (Decidable True)

/-- What a session was given it has closed, each as often. -/
def ReturnsAll (state : State Label Role Data Point) (index : Nat)
    (session : Session Label Role Data Point) : Prop :=
  ∀ number, state.table number ≠ .session index ∧
    session.opened.count number = session.closed.count number

structure Owns (table : Table) (index : Nat)
    (session : Session Label Role Data Point) : Prop where
  accounts : Accounts index table session.slots session.opened session.closed
  safe : Safe sound ready session.program session.slots

structure Invariant (state : State Label Role Data Point) : Prop where
  owns : ∀ index session, state.sessions[index]? = some session →
    Owns sound ready state.table index session
  unused : ∀ index number, state.sessions.length ≤ index →
    state.table number ≠ .session index

theorem owns_frame (table after : Table) (index : Nat)
    (session : Session Label Role Data Point)
    (agree : ∀ number,
      after number = .session index ↔ table number = .session index)
    (owns : Owns sound ready table index session) :
    Owns sound ready after index session where
  accounts := accounts_frame index table after _ _ _ agree owns.accounts
  safe := owns.safe

theorem invariant_set (state : State Label Role Data Point) (index : Nat)
    (session changed : Session Label Role Data Point) (after : Table)
    (here : state.sessions[index]? = some session)
    (invariant : Invariant sound ready state)
    (owns : Owns sound ready after index changed)
    (agree : ∀ other number, other ≠ index →
      (after number = .session other ↔ state.table number = .session other)) :
    Invariant sound ready
      { table := after, sessions := state.sessions.set index changed } where
  owns := by
    intro other found there
    rw [List.getElem?_set] at there
    split at there
    · rename_i same
      split at there
      · cases Option.some.inj there
        rw [← same]
        exact owns
      · cases there
    · rename_i differ
      exact owns_frame sound ready state.table after other found
        (fun number => agree other number (Ne.symm differ))
        (invariant.owns other found there)
  unused := by
    intro other number beyond
    rw [List.length_set] at beyond
    obtain ⟨bound, -⟩ := List.getElem?_eq_some_iff.mp here
    intro holder
    rw [agree other number (by omega)] at holder
    exact invariant.unused other number beyond holder

theorem callStep_spec (state next : State Label Role Data Point)
    (index : Nat) (session : Session Label Role Data Point)
    (answer : Answer Data)
    (taken : callStep state index session answer = some next) :
    ∃ request rest, session.program = .call request rest ∧
      state.table.allows request answer.value = true ∧
      next = {
        table := state.table.after index request answer.value
        sessions := state.sessions.set index
          (session.after request answer rest) } := by
  rw [callStep] at taken
  split at taken
  · rename_i request rest program
    split at taken
    · rename_i allowed
      exact ⟨request, rest, program, allowed, (Option.some.inj taken).symm⟩
    · cases taken
  · cases taken

omit [DecidableEq Role] in
theorem pending_of_program (state : State Label Role Data Point)
    (index : Nat) (session : Session Label Role Data Point)
    (request : Request Label Role)
    (rest : Answer Data → Program Label Role Data Point)
    (here : state.sessions[index]? = some session)
    (program : session.program = .call request rest) :
    state.pending index = some (session.slots, request) := by
  simp only [State.pending, here, program]

/-- A sound call is made on what the session holds, and keeps the accounts. -/
theorem kept_call (state next : State Label Role Data Point)
    (index : Nat) (session : Session Label Role Data Point)
    (answer : Answer Data) (invariant : Invariant sound ready state)
    (here : state.sessions[index]? = some session)
    (good : SoundStep sound state (.call index answer))
    (taken : callStep state index session answer = some next) :
    OwnStep state (.call index answer) ∧ Invariant sound ready next := by
  obtain ⟨request, rest, program, allowed, rfl⟩ :=
    callStep_spec state next index session answer taken
  have pending := pending_of_program state index session request rest here
    program
  have owns := invariant.owns index session here
  have safe := owns.safe
  rw [program, Safe] at safe
  obtain ⟨permitted, later⟩ := safe answer (good _ pending)
  have effect := effect_of_permits index state.table session.slots request
    answer.value permitted allowed
  constructor
  · intro call same fd touched natural
    rw [pending] at same
    cases Option.some.inj same
    rw [owns.accounts.held]
    exact covers_touched session.slots request permitted fd touched fd.toNat
      (Int.toNat_of_nonneg natural).symm
  · apply invariant_set sound ready state index session _ _ here invariant
    · exact {
        accounts := accounts_effect index _ _ _ _ _ _ _ _ effect owns.accounts
        safe := later }
    · intro other number differ
      exact effect_frame index _ _ _ _ _ _ _ _ effect owns.accounts other
        number differ

theorem kept_proceed
    (continues : ∀ point slots, ready point slots →
      Safe sound ready (body point) slots)
    (state next : State Label Role Data Point) (index : Nat)
    (session : Session Label Role Data Point)
    (invariant : Invariant sound ready state)
    (here : state.sessions[index]? = some session)
    (taken : proceedStep body state index session = some next) :
    Invariant sound ready next := by
  rw [proceedStep] at taken
  split at taken
  · rename_i point program
    cases Option.some.inj taken
    have owns := invariant.owns index session here
    have safe := owns.safe
    rw [program, Safe] at safe
    apply invariant_set sound ready state index session _ _ here invariant
    · exact {
        accounts := owns.accounts
        safe := continues point session.slots safe }
    · intro other number _
      exact Iff.rfl
  · cases taken

theorem accounts_arrival (table : Table) (index number : Nat)
    (free : table number = .free)
    (unused : ∀ other, table other ≠ .session index) :
    Accounts index (Function.update table number (.session index))
      (Function.update (fun _ => .unset) first (.opened number) : Slots Role)
      [number] [] := by
  have nothing : Accounts index table (fun _ => .unset : Slots Role) [] [] := by
    refine ⟨?_, ?_, ?_⟩
    · intro other
      exact iff_of_false (unused other) fun holds => by
        obtain ⟨role, opened⟩ := holds
        cases opened
    · intro role other held opened
      cases opened
    · intro other
      rw [if_neg (unused other)]
      rfl
  exact accounts_opens index table _ [] [] first number free id nothing

theorem kept_arrive
    (begins : ∀ number, Safe sound ready (start number)
      (Function.update (fun _ => .unset) first (.opened number)))
    (state : State Label Role Data Point) (number : Nat)
    (free : state.table number = .free)
    (invariant : Invariant sound ready state) :
    Invariant sound ready {
      table := Function.update state.table number
        (.session state.sessions.length)
      sessions := state.sessions ++ [arrival start first number] } where
  owns := by
    intro index session there
    rw [List.getElem?_append] at there
    split at there
    · rename_i earlier
      apply owns_frame sound ready state.table _ index session _
        (invariant.owns index session there)
      intro other
      apply agree_table state.table number other index
      · rw [free]
        exact nofun
      · intro holder
        have equal := Holder.session.inj holder
        omega
    · rename_i later
      rw [List.getElem?_singleton] at there
      split at there
      · rename_i last
        cases Option.some.inj there
        have position : index = state.sessions.length := by omega
        rw [position]
        exact {
          accounts := accounts_arrival first state.table _ number free
            fun other => invariant.unused _ other (Nat.le_refl _)
          safe := begins number }
      · cases there
  unused := by
    intro index other beyond
    rw [List.length_append, List.length_singleton] at beyond
    rw [ne_eq, agree_table state.table number other index]
    · exact invariant.unused index other (by omega)
    · rw [free]
      exact nofun
    · intro holder
      have equal := Holder.session.inj holder
      omega

theorem invariant_table (state : State Label Role Data Point) (after : Table)
    (agree : ∀ index number,
      after number = .session index ↔ state.table number = .session index)
    (invariant : Invariant sound ready state) :
    Invariant sound ready { state with table := after } where
  owns := by
    intro index session there
    exact owns_frame sound ready state.table after index session (agree index)
      (invariant.owns index session there)
  unused := by
    intro index number beyond holder
    exact invariant.unused index number beyond ((agree index number).mp holder)

theorem kept_step
    (begins : ∀ number, Safe sound ready (start number)
      (Function.update (fun _ => .unset) first (.opened number)))
    (continues : ∀ point slots, ready point slots →
      Safe sound ready (body point) slots)
    (state : State Label Role Data Point) (event : Event Data)
    (next : State Label Role Data Point)
    (invariant : Invariant sound ready state)
    (good : SoundStep sound state event)
    (taken : step body start first state event = some next) :
    OwnStep state event ∧ Invariant sound ready next := by
  unfold step at taken
  split at taken
  · cases taken
  · cases event with
    | call index answer =>
        simp only at taken
        split at taken
        · rename_i session here
          exact kept_call sound ready state next index session answer
            invariant here good taken
        · cases taken
    | proceed index =>
        simp only at taken
        split at taken
        · rename_i session here
          exact ⟨trivial, kept_proceed body sound ready continues state next
            index session invariant here taken⟩
        · cases taken
    | arrive number =>
        simp only at taken
        split at taken
        · rename_i free
          cases Option.some.inj taken
          exact ⟨trivial, kept_arrive start first sound ready begins state
            number free invariant⟩
        · cases taken
    | elsewhere number =>
        refine ⟨trivial, ?_⟩
        simp only at taken
        split at taken
        · rename_i free
          cases Option.some.inj taken
          apply invariant_table sound ready state _ _ invariant
          intro index other
          exact agree_table state.table number other index .elsewhere
            (by rw [free]; exact nofun) nofun
        · rename_i elsewhere
          cases Option.some.inj taken
          apply invariant_table sound ready state _ _ invariant
          intro index other
          exact agree_table state.table number other index .free
            (by rw [elsewhere]; exact nofun) nofun
        · cases taken

theorem invariant_start (table : Table)
    (fresh : ∀ index number, table number ≠ .session index) :
    Invariant sound ready
      ({ table := table, sessions := [] } : State Label Role Data Point) where
  owns := by
    intro index session there
    cases there
  unused := by
    intro index number _
    exact fresh index number

theorem returnsAll_of_done (state : State Label Role Data Point)
    (invariant : Invariant sound ready state) (index : Nat)
    (session : Session Label Role Data Point)
    (here : state.sessions[index]? = some session)
    (done : session.program = .done) : ReturnsAll state index session := by
  have owns := invariant.owns index session here
  have safe := owns.safe
  rw [done, Safe] at safe
  intro number
  have none : state.table number ≠ .session index := by
    intro holder
    obtain ⟨role, opened⟩ := (owns.accounts.held number).mp holder
    apply safe role
    rw [opened]
    trivial
  have counted := owns.accounts.counted number
  rw [if_neg none] at counted
  exact ⟨none, counted⟩

/-- Along a run of sound steps, sessions touch only what they hold, and those
that are done have returned everything. -/
theorem run_sound
    (begins : ∀ number, Safe sound ready (start number)
      (Function.update (fun _ => .unset) first (.opened number)))
    (continues : ∀ point slots, ready point slots →
      Safe sound ready (body point) slots)
    (table : Table) (fresh : ∀ index number, table number ≠ .session index)
    (events : List (Event Data)) (final : State Label Role Data Point)
    (ran : run (step body start first) { table := table, sessions := [] }
      events = some final)
    (good : Along (step body start first) (SoundStep sound)
      { table := table, sessions := [] } events) :
    Along (step body start first) OwnStep { table := table, sessions := [] }
        events ∧
      ∀ index session, final.sessions[index]? = some session →
        session.program = .done → ReturnsAll final index session := by
  obtain ⟨own, last⟩ := along_of_sound (step body start first)
    (Invariant sound ready) (SoundStep sound) OwnStep
    (kept_step body start first sound ready begins continues) _ final events
    (invariant_start sound ready table fresh) ran good
  exact ⟨own, returnsAll_of_done sound ready final last⟩

end Runs

end HenPlugins.Lib.SharedDescriptors
