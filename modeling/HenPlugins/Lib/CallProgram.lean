import Mathlib.Logic.Function.Basic

/-!
# Programs that call the system

A program is the tree of its calls; where a loop begins again, it names a point.
A call may open, use or close a descriptor.  The slots of a program say what
became of the descriptors that its calls were answered with, and a program is
safe if from its slots on no call touches a descriptor that it does not hold.
-/

set_option autoImplicit false

namespace HenPlugins.Lib.CallProgram

/-- A call, and what it does to descriptors; `through` is the descriptor that
a new one is taken from. -/
inductive Request (Label Role : Type) where
  | plain (label : Label)
  | use (label : Label) (fd : Int)
  | acquire (role : Role) (label : Label) (through : Option Int)
  | close (role : Role) (fd : Int)

/-- The value that a call returns, and what it leaves in its buffers. -/
structure Answer (Data : Type) where
  value : Int
  data : Data

inductive Program (Label Role Data Point : Type) where
  | done
  | exit
  | call (request : Request Label Role)
      (next : Answer Data → Program Label Role Data Point)
  | again (point : Point)

variable {Label Role Data Point : Type}

/-- The descriptors that a call is made on. -/
def Request.touched : Request Label Role → List Int
  | .plain _ => []
  | .use _ fd => [fd]
  | .acquire _ _ through => through.toList
  | .close _ fd => [fd]

/-- The last descriptor of a role. -/
inductive Slot where
  | unset
  | opened (number : Nat)
  | closed
  deriving DecidableEq

def Slot.ofValue (value : Int) : Slot :=
  if value < 0 then .unset else .opened value.toNat

def Slot.close : Slot → Slot
  | .opened _ => .closed
  | slot => slot

def Slot.IsOpened : Slot → Prop
  | .opened _ => True
  | _ => False

instance (slot : Slot) : Decidable slot.IsOpened :=
  match slot with
  | .unset => inferInstanceAs (Decidable False)
  | .opened _ => inferInstanceAs (Decidable True)
  | .closed => inferInstanceAs (Decidable False)

/-- The variable of the role holds this number. -/
def Slot.Keeps : Slot → Int → Prop
  | .unset, fd => fd < 0
  | .opened number, fd => fd = number
  | .closed, _ => True

abbrev Slots (Role : Type) := Role → Slot

def Slots.Holds (slots : Slots Role) (number : Nat) : Prop :=
  ∃ role, slots role = .opened number

def Slots.after [DecidableEq Role] (slots : Slots Role) :
    Request Label Role → Int → Slots Role
  | .plain _, _ => slots
  | .use _ _, _ => slots
  | .acquire role _ _, value => Function.update slots role (.ofValue value)
  | .close role _, _ => Function.update slots role (slots role).close

theorem keeps_ofValue (value : Int) : (Slot.ofValue value).Keeps value := by
  rw [Slot.ofValue]
  split
  · rename_i failed
    exact failed
  · rename_i succeeded
    exact (Int.toNat_of_nonneg (by omega)).symm

theorem ofValue_ne_closed (value : Int) : Slot.ofValue value ≠ .closed := by
  rw [Slot.ofValue]
  split <;> exact nofun

theorem close_not_opened (slot : Slot) : ¬ slot.close.IsOpened := by
  cases slot with
  | unset => exact id
  | opened number => exact id
  | closed => exact id

theorem keeps_close (slot : Slot) (fd : Int) (kept : slot.Keeps fd) :
    slot.close.Keeps fd := by
  cases slot with
  | unset => exact kept
  | opened number => trivial
  | closed => trivial

theorem isOpened_iff (slot : Slot) :
    slot.IsOpened ↔ ∃ number, slot = .opened number := by
  cases slot with
  | unset => exact iff_of_false id nofun
  | opened number => exact iff_of_true trivial ⟨number, rfl⟩
  | closed => exact iff_of_false id nofun

/-- A descriptor number that is held; a negative one is none. -/
def Slots.Covers (slots : Slots Role) (fd : Int) : Prop :=
  ∀ number : Nat, fd = number → slots.Holds number

/-- The call respects the slots. -/
def Slots.Permits (slots : Slots Role) : Request Label Role → Prop
  | .plain _ => True
  | .use _ fd => slots.Covers fd
  | .acquire role _ through =>
      ¬ (slots role).IsOpened ∧ ∀ fd ∈ through, slots.Covers fd
  | .close role fd => (slots role).Keeps fd ∧ slots role ≠ .closed

theorem covers_of_keeps (slots : Slots Role) (role : Role) (fd : Int)
    (kept : (slots role).Keeps fd) (fresh : slots role ≠ .closed) :
    slots.Covers fd := by
  intro number same
  cases slot : slots role with
  | unset =>
      rw [slot, Slot.Keeps] at kept
      omega
  | opened other =>
      rw [slot, Slot.Keeps] at kept
      have equal : other = number := by omega
      exact ⟨role, by rw [slot, equal]⟩
  | closed => exact absurd slot fresh

theorem covers_touched (slots : Slots Role) (request : Request Label Role)
    (permitted : slots.Permits request) (fd : Int)
    (touched : fd ∈ request.touched) : slots.Covers fd := by
  cases request with
  | plain label => contradiction
  | use label used =>
      rw [List.mem_singleton.mp touched]
      exact permitted
  | acquire role label through =>
      exact permitted.2 fd (Option.mem_toList.mp touched)
  | close role closed =>
      rw [List.mem_singleton.mp touched]
      obtain ⟨kept, fresh⟩ := permitted
      exact covers_of_keeps slots role closed kept fresh

section Safety
variable [DecidableEq Role]
  (sound : Slots Role → Request Label Role → Answer Data → Prop)
  (ready : Point → Slots Role → Prop)

/-- As long as its steps are sound, the program touches only what it holds, and
it ends holding nothing. -/
def Safe : Program Label Role Data Point → Slots Role → Prop
  | .done, slots => ∀ role, ¬ (slots role).IsOpened
  | .exit, _ => True
  | .call request next, slots =>
      ∀ answer, sound slots request answer →
        slots.Permits request ∧
          Safe (next answer) (slots.after request answer.value)
  | .again point, slots => ready point slots

variable (slots : Slots Role)
  (next : Answer Data → Program Label Role Data Point)

theorem safe_plain (label : Label)
    (later : ∀ answer, sound slots (.plain label) answer →
      Safe sound ready (next answer) slots) :
    Safe sound ready (.call (.plain label) next) slots := by
  intro answer good
  exact ⟨trivial, later answer good⟩

theorem safe_use (label : Label) (fd : Int) (held : slots.Covers fd)
    (later : ∀ answer, sound slots (.use label fd) answer →
      Safe sound ready (next answer) slots) :
    Safe sound ready (.call (.use label fd) next) slots := by
  intro answer good
  exact ⟨held, later answer good⟩

theorem safe_acquire (role : Role) (label : Label) (through : Option Int)
    (free : ∀ answer, sound slots (.acquire role label through) answer →
      ¬ (slots role).IsOpened)
    (held : ∀ answer, sound slots (.acquire role label through) answer →
      ∀ fd ∈ through, slots.Covers fd)
    (later : ∀ answer, sound slots (.acquire role label through) answer →
      Safe sound ready (next answer)
        (Function.update slots role (.ofValue answer.value))) :
    Safe sound ready (.call (.acquire role label through) next) slots := by
  intro answer good
  exact ⟨⟨free answer good, held answer good⟩, later answer good⟩

theorem safe_close (role : Role) (fd : Int) (kept : (slots role).Keeps fd)
    (fresh : ∀ answer, sound slots (.close role fd) answer →
      slots role ≠ .closed)
    (later : ∀ answer, sound slots (.close role fd) answer →
      Safe sound ready (next answer)
        (Function.update slots role (slots role).close)) :
    Safe sound ready (.call (.close role fd) next) slots := by
  intro answer good
  exact ⟨⟨kept, fresh answer good⟩, later answer good⟩

end Safety

end HenPlugins.Lib.CallProgram
