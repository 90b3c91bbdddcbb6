import Mathlib.Algebra.Order.BigOperators.Group.List
import HenPlugins.Memory.HookRun
import HenPlugins.Memory.TakeOverSteps

/-!
# What is taken over stays so

Whatever steps are taken in whatever order, every function that was taken over
leads to its new code, every trampoline continues its function, and nothing
else has changed.
-/

set_option autoImplicit false

namespace HenPlugins.Memory.TakenOver

open HenPlugins.Lib.ByteMemory
open HenPlugins.Lib.PatchedText
open HenPlugins.Lib.PatchLedger
open HenPlugins.Memory.CodeCave
open HenPlugins.Memory.FarHook
open HenPlugins.Memory.FarHookRun (place Redirected paddedMemory)
open HenPlugins.Memory.HookRun (apart_of_order sledCave)
open HenPlugins.Memory.PatchedProcess
open HenPlugins.Memory.PrologueHooks (trampolineBytes length_trampolineBytes)
open HenPlugins.Memory.ServedSteps
open HenPlugins.Memory.TakeOver
open HenPlugins.Memory.TakeOverSteps
open HenPlugins.Memory.Trampoline

/-! ## Any sequence of steps -/

section Running
variable {Module Slot : Type} [DecidableEq Module] [DecidableEq Slot]
  (site : Site Module)

theorem standing_performAll (done steps : List (Step Module Slot))
    (session : Session Slot) (patches : List (Patch 64 UInt8))
    (layout : Layout site (done ++ steps))
    (standing : Standing site done session patches) :
    ∃ all, Standing site (done ++ steps)
      (performAll site.cave site.segment session steps) all := by
  induction steps generalizing done session patches with
  | nil =>
      rw [List.append_nil]
      exact ⟨patches, standing⟩
  | cons step steps ih =>
      have next := next_of_layout site done steps step layout
      obtain ⟨more, stood⟩ := leads_step site done session patches standing
        step next
      rw [List.append_cons] at layout ⊢
      exact ih (done ++ [step]) _ _ layout stood

omit [DecidableEq Slot] in
theorem standing_untouched :
    Standing site [] (untouched site.original : Session Slot) [] where
  patched := patched_start site _ site.original rfl
  room := rfl
  served := by simp
  unset := fun _ _ => rfl

/-! ## What that means for the functions -/

/-- A trampoline that continues the function. -/
structure Continues (current : CodeMemory) (address : Address)
    (minSize size : Nat) (entry : Address) : Prop where
  entered : entry ≠ 0
  copied : ∀ index < size, current (entry + BitVec.ofNat 64 index) =
    site.original (address + BitVec.ofNat 64 index)
  continued : jumpTarget current (entry + BitVec.ofNat 64 size) =
    some (address + BitVec.ofNat 64 size)
  boundary : FirstBoundary site.cave.disassembler
    (codeAt site.original address) minSize size

def LeftAlone (current : CodeMemory) (address : Address) (count : Nat) :
    Prop :=
  ∀ other, Within address count other → current other = site.original other

/-- The pointer continues the function and `redirected` holds, unless the code
of the function is refused and nothing is done to it. -/
def Rerouted (current : CodeMemory) (original address : Address)
    (minInstructionSize : BitVec 32) (redirected : Prop) : Prop :=
  match displacedBy site.cave site.original address minInstructionSize with
  | none =>
      original = 0 ∧ LeftAlone site current address
        (inspected site.cave site.original address minInstructionSize)
  | some size =>
      Continues site current address minInstructionSize.toInt.toNat size
          original ∧ redirected

/-- What became of a function; without `enough` padding a far jump may be
missing. -/
def Took (enough : Module → Prop) (session : Session Slot) :
    Step Module Slot → Prop
  | .prologue slot address minInstructionSize destination =>
      Rerouted site session.state.memory (session.originals slot) address
        minInstructionSize
        (jumpTarget session.state.memory address = some destination)
  | .near info slot address srclen destination =>
      Rerouted site session.state.memory (session.originals slot) address
        (BitVec.ofNat 32 srclen)
        (Redirected session.state.memory
            (nearCall address srclen destination) ∨
          ¬ enough info ∧ LeftAlone site session.state.memory address
            (inspected site.cave site.original address
              (BitVec.ofNat 32 srclen)))
  | .call info slot address destination =>
      if address = 0 then KeptAs session.originals slot 0
      else
        (KeptAs session.originals slot
              (readLEA32 site.original address 0 1 5) ∧
            Redirected session.state.memory (farCall address destination)) ∨
          (KeptAs session.originals slot 0 ∧ ¬ enough info ∧
            LeftAlone site session.state.memory address 5)
  | .replace address destination =>
      address ≠ 0 →
        jumpTarget session.state.memory address = some destination
  | .overwrite address data =>
      address ≠ 0 → Holds session.state.memory address data
  | .swap slot address destination =>
      if address = 0 then session.originals slot = 0
      else
        session.originals slot = readPointer site.original address ∧
          readPointer session.state.memory address = destination
  | .remember slot address => session.originals slot = address

/-! ## From the patches to the functions -/

theorem readPointer_of_holds (memory : CodeMemory)
    (address pointer : Address)
    (holds : Holds memory address (pointerBytes pointer)) :
    readPointer memory address = pointer := by
  have bytes := read_of_holds memory address _ holds
  have bounded : pointer.toNat % 256 ^ 8 = pointer.toNat :=
    Nat.mod_eq_of_lt pointer.isLt
  rw [length_pointerBytes] at bytes
  rw [readPointer, bytes, pointerBytes, fromLittleEndian_littleEndian, bounded,
    BitVec.ofNat_toNat, BitVec.setWidth_eq]

section Reading
variable (done : List (Step Module Slot)) (session : Session Slot)
  (patches : List (Patch 64 UInt8))
  (standing : Standing site done session patches)

include standing

omit [DecidableEq Slot] in
theorem holds_patch (patch : Patch 64 UInt8) (member : patch ∈ patches) :
    Holds session.state.memory patch.address patch.data :=
  standing.patched.kept.stands patch member

omit [DecidableEq Slot] in
theorem leftAlone_of_unpatched (address : Address) (count : Nat)
    (solid : ∀ other, Within address count other → ¬ site.InCave other)
    (unpatched : Unpatched patches address count) :
    LeftAlone site session.state.memory address count :=
  kept_range _ _ _ _ standing.patched.kept address count solid unpatched

omit [DecidableEq Slot] in
theorem jumpTarget_of_patch (address destination : Address)
    (member : { address := address, data := jumpBytes destination } ∈
      patches) :
    jumpTarget session.state.memory address = some destination :=
  jumpTarget_of_holds _ _ _ (holds_patch site done session patches standing _
    member)

omit [DecidableEq Slot] in
theorem redirected_of_jumped (info : Module) (call : Call)
    (inText : InText (site.segment info) call.src call.srclen)
    (jumped : Jumped site patches info call) :
    Redirected session.state.memory call := by
  obtain ⟨area, near, source, target⟩ := jumped
  have small := site.small info
  rw [InText] at inText
  have atSource := holds_patch site done session patches standing _ source
  have atTarget := holds_patch site done session patches standing _ target
  have leads := displacement_leads (site.segment info).textbase
    (place (site.segment info) call.src) area (by omega) (by omega)
  rw [address_of_place] at leads
  refine ⟨_, ((holds_append _ _ _ _).mp atSource).1, ?_⟩
  rw [leads]
  exact atTarget

omit [DecidableEq Slot] in
theorem continues_of_trampoline (slot : Slot) (address : Address)
    (minInstructionSize : BitVec 32) (size : Nat)
    (displaced : displacedBy site.cave site.original address
      minInstructionSize = some size)
    (nonzero : session.originals slot ≠ 0)
    (member : { address := session.originals slot
                data := trampolineBytes site.original address size } ∈
      patches) :
    Continues site session.state.memory address
      minInstructionSize.toInt.toNat size (session.originals slot) := by
  obtain ⟨-, -, -, instructions, prologue⟩ :=
    displacedBy_eq_some site.cave site.original address _ size displaced
  have holds := holds_patch site done session patches standing _ member
  obtain ⟨copied, continued⟩ := (holds_append _ _ _ _).mp holds
  rw [length_read] at continued
  exact
    { entered := nonzero
      copied := fun index inside =>
        copied index _ (getElem?_read _ _ size index inside)
      continued := jumpTarget_of_holds _ _ _ continued
      boundary := firstBoundary_of_covers _ _ _ _ instructions prologue.1 }

omit [DecidableEq Slot] in
theorem rerouted_of_hooked (slot : Slot) (address : Address)
    (minInstructionSize : BitVec 32) (led redirected : Prop)
    (solid : ∀ other, Within address (inspected site.cave site.original
      address minInstructionSize) other → ¬ site.InCave other)
    (follows : address ≠ 0 → led → redirected)
    (hooked : Hooked site session.originals patches slot address
      minInstructionSize led) :
    Rerouted site session.state.memory (session.originals slot) address
      minInstructionSize redirected := by
  cases displaced : displacedBy site.cave site.original address
      minInstructionSize with
  | none =>
      rw [Hooked, displaced] at hooked
      rw [Rerouted, displaced]
      exact ⟨hooked.1, leftAlone_of_unpatched site done session patches
        standing address _ solid hooked.2⟩
  | some size =>
      rw [Hooked, displaced] at hooked
      rw [Rerouted, displaced]
      obtain ⟨nonzero, member, leading⟩ := hooked
      have given := (displacedBy_eq_some site.cave site.original address _
        size displaced).1
      exact ⟨continues_of_trampoline site done session patches standing slot
        address _ size displaced nonzero member, follows given leading⟩

omit [DecidableEq Slot] in
theorem took_of_served (layout : Layout site done) (step : Step Module Slot)
    (member : step ∈ done) :
    Took site (fun info => Spare (site.segment info) site.original
      (areasTaken site done info)) session step := by
  have served := standing.served step member
  have solid := layout.offCave step member
  have wellFormed := layout.wellFormed step member
  cases step with
  | prologue slot address minInstructionSize destination =>
      exact rerouted_of_hooked site done session patches standing slot address
        _ _ _ solid (fun _ => jumpTarget_of_patch site done session patches
          standing address destination) served
  | near info slot address srclen destination =>
      obtain ⟨-, -, inText⟩ := wellFormed
      apply rerouted_of_hooked site done session patches standing slot address
        _ _ _ solid ?_ served
      rintro given (jumped | ⟨few, alone⟩)
      · exact Or.inl (redirected_of_jumped site done session patches standing
          info (nearCall address srclen destination) (inText given) jumped)
      · exact Or.inr ⟨few, leftAlone_of_unpatched site done session patches
          standing address _ solid alone⟩
  | call info slot address destination =>
      rw [Took]
      rw [Served] at served
      split at served
      · rename_i unresolved
        rw [if_pos unresolved]
        exact served
      · rename_i given
        rw [if_neg given]
        have extent : (Step.call info slot address destination).extentAt
            site = 5 := if_neg given
        rw [extent] at solid
        rcases served with ⟨target, jumped⟩ | ⟨unset, few, alone⟩
        · exact Or.inl ⟨target, redirected_of_jumped site done session patches
            standing info (farCall address destination) (wellFormed.2 given)
            jumped⟩
        · exact Or.inr ⟨unset, few, leftAlone_of_unpatched site done session
            patches standing address 5 solid alone⟩
  | replace address destination =>
      intro given
      exact jumpTarget_of_patch site done session patches standing address
        destination (served given)
  | overwrite address data =>
      intro given
      exact holds_patch site done session patches standing _ (served given)
  | swap slot address destination =>
      rw [Took]
      rw [Served] at served
      split at served
      · rename_i unresolved
        rw [if_pos unresolved]
        exact served
      · rename_i given
        rw [if_neg given]
        exact ⟨served.1, readPointer_of_holds _ _ _ (holds_patch site done
          session patches standing _ served.2)⟩
  | remember slot address => exact served

end Reading

/-- The session that any steps lead to. -/
structure AllTaken (steps : List (Step Module Slot)) (session : Session Slot) :
    Prop where
  took : ∀ step ∈ steps, Took site (fun info => Spare (site.segment info)
    site.original (areasTaken site steps info)) session step
  unchanged : ∀ address, ¬ Claimed site steps address →
    session.state.memory address = site.original address

theorem allTaken_performAll (steps : List (Step Module Slot))
    (layout : Layout site steps) :
    AllTaken site steps (performAll site.cave site.segment
      (untouched site.original) steps) := by
  obtain ⟨patches, standing⟩ := standing_performAll site [] steps
    (untouched site.original) [] layout (standing_untouched site)
  constructor
  · intro step member
    exact took_of_served site steps _ patches standing layout step member
  · intro address free
    apply standing.patched.kept.elsewhere address
    · exact fun inCave => free (Or.inl inCave)
    · intro patch member covers
      exact free (standing.patched.claimed patch member address covers)

theorem pairwise_of_subperm {Step : Type} (related : Step → Step → Prop)
    (symmetric : ∀ first second, related first second →
      related second first) (steps all : List Step)
    (some : steps.Subperm all) (pairwise : all.Pairwise related) :
    steps.Pairwise related := by
  obtain ⟨kept, perm, sublist⟩ := some
  exact (perm.pairwise_iff fun {_ _} => symmetric _ _).mp
    (pairwise.sublist sublist)

theorem sum_of_subperm {Step : Type} (size : Step → Nat)
    (steps all : List Step) (some : steps.Subperm all) :
    (steps.map size).sum ≤ (all.map size).sum := by
  obtain ⟨kept, perm, sublist⟩ := some
  rw [← (perm.map size).sum_nat]
  exact (sublist.map size).sum_le_sum fun _ _ => Nat.zero_le _

omit [DecidableEq Module] [DecidableEq Slot] in
/-- A layout does not depend on what is done first, or at all. -/
theorem layout_of_subperm (steps all : List (Step Module Slot))
    (some : steps.Subperm all) (layout : Layout site all) :
    Layout site steps where
  room := Nat.le_trans (sum_of_subperm _ _ _ some) layout.room
  wellFormed := fun step member =>
    layout.wellFormed step (some.subset member)
  slots := pairwise_of_subperm _ (fun _ _ differ slot second first =>
    differ slot first second) _ _ some layout.slots
  apart := pairwise_of_subperm _ (fun _ _ => apart_symm _ _ _ _) _ _ some
    layout.apart
  offCave := fun step member => layout.offCave step (some.subset member)
  placed := fun step member => layout.placed step (some.subset member)
  offPadding := fun step member =>
    layout.offPadding step (some.subset member)

end Running

/-! ## Five functions in a sea of `nop` -/

theorem apart_of_bounds (base other : Address) (count otherCount : Nat)
    (fits : base.toNat + count ≤ 2 ^ 64)
    (otherFits : other.toNat + otherCount ≤ 2 ^ 64)
    (clear : Clear base.toNat count other.toNat otherCount) :
    Apart base count other otherCount := by
  rcases clear with before | behind
  · exact apart_of_order base other count otherCount before otherFits
  · exact apart_symm _ _ _ _
      (apart_of_order other base otherCount count behind fits)

/-- Where the texts of two modules are. -/
def sledBase (second : Bool) : Address := if second then 0x30000 else 0x10000

theorem sledBase_ne_zero (second : Bool) : sledBase second ≠ 0 := by
  cases second <;> decide

theorem sledBase_inUserSpace (second : Bool) :
    (sledBase second).toNat + 32 < 2 ^ 47 := by
  cases second <;> decide

def sledSegment (second : Bool) : TextSegment where
  textbase := sledBase second
  textsz := 32
  notNull := sledBase_ne_zero second
  inUserSpace := sledBase_inUserSpace second

/-- One padding at the start of each text, and `nop` everywhere else. -/
def sledMemory : CodeMemory := write paddedMemory 0x30000 [0x0f, 0x0b]

theorem sledMemory_padding (second : Bool) (padding : Padding)
    (position : Nat) (inside : position < 32)
    (stands : Stands (codeAt sledMemory (sledBase second)) position
      padding.bytes) : position = 0 := by
  cases padding with
  | trap =>
      have first := stands 0 0x0f rfl
      clear stands
      revert second position
      decide +kernel
  | ret =>
      have first := stands 0 0xc3 rfl
      clear stands
      revert second position
      decide +kernel

theorem sledCave_inUserSpace :
    sledCave.cavePadFunc.toNat + sledCave.maxCaveSize.toNat ≤ 2 ^ 64 := by
  decide

theorem testFits_sledCave : 6 ≤ sledCave.maxCaveSize.toNat := by decide

theorem small_sledSegment (second : Bool) :
    (sledSegment second).textsz < 2 ^ 27 :=
  show 32 < 2 ^ 27 by decide

theorem sledCave_off_sledSegment (second : Bool) :
    Apart sledCave.cavePadFunc sledCave.maxCaveSize.toNat
      (sledSegment second).textbase ((sledSegment second).textsz + 16) := by
  cases second <;>
    exact apart_of_bounds _ _ _ _ (by decide) (by decide) (by decide)

theorem sledSegment_apart (first second : Bool) (differ : first ≠ second) :
    Apart (sledSegment first).textbase ((sledSegment first).textsz + 16)
      (sledSegment second).textbase ((sledSegment second).textsz + 16) := by
  cases first <;> cases second <;> first
    | contradiction
    | exact apart_of_bounds _ _ _ _ (by decide) (by decide) (by decide)

section Sled
variable {Module : Type} (second : Module → Bool)
  (distinct : Function.Injective second)

def sledSite : Site Module where
  cave := sledCave
  segment := fun info => sledSegment (second info)
  original := sledMemory
  testFits := testFits_sledCave
  small := fun info => small_sledSegment (second info)
  caveOffText := fun info => sledCave_off_sledSegment (second info)
  modulesApart := fun info other differ =>
    sledSegment_apart (second info) (second other) (distinct.ne differ)

/-- Where a function lies in this process. -/
structure Apposite (address : Address) (count : Nat) : Prop where
  fits : address.toNat + count ≤ 2 ^ 64
  offCave : Clear address.toNat count 0x20000 64
  placed : ∀ second, place (sledSegment second) address + count ≤ 32 ∨
    Clear address.toNat count (sledBase second).toNat 48
  offPadding : ∀ second,
    Clear address.toNat count (sledBase second).toNat 16

instance decidableApposite (address : Address) (count : Nat) :
    Decidable (Apposite address count) :=
  decidable_of_iff
    (address.toNat + count ≤ 2 ^ 64 ∧ Clear address.toNat count 0x20000 64 ∧
      (∀ second, place (sledSegment second) address + count ≤ 32 ∨
        Clear address.toNat count (sledBase second).toNat 48) ∧
      ∀ second, Clear address.toNat count (sledBase second).toNat 16)
    ⟨fun parts => ⟨parts.1, parts.2.1, parts.2.2.1, parts.2.2.2⟩,
      fun parts => ⟨parts.1, parts.2, parts.3, parts.4⟩⟩

theorem sledText_fits (second : Bool) (count : Nat) (few : count ≤ 48) :
    (sledBase second).toNat + count ≤ 2 ^ 64 := by
  have bounded := sledBase_inUserSpace second
  omega

/-- A layout of this process from what can be computed. -/
theorem sledSite_layout {Slot : Type} (steps : List (Step Module Slot))
    (room : (steps.map (Step.room sledCave sledMemory)).sum ≤ 64)
    (wellFormed : ∀ step ∈ steps, step.WellFormed (sledSite second distinct))
    (slots : steps.Pairwise fun first second =>
      first.slot = none ∨ first.slot ≠ second.slot)
    (apart : steps.Pairwise fun first other =>
      Clear first.address.toNat (first.extent sledCave sledMemory)
        other.address.toNat (other.extent sledCave sledMemory))
    (apposite : ∀ step ∈ steps,
      Apposite step.address (step.extent sledCave sledMemory)) :
    Layout (sledSite second distinct) steps where
  room := room
  wellFormed := wellFormed
  slots := by
    apply slots.imp
    rintro first second (unused | differ) slot used again
    · rw [unused] at used
      contradiction
    · exact differ (used.trans again.symm)
  apart := by
    apply apart.imp_of_mem
    intro first other member otherMember clear
    exact apart_of_bounds _ _ _ _ (apposite first member).fits
      (apposite other otherMember).fits clear
  offCave := fun step member => apart_of_bounds _ _ _ _
    (apposite step member).fits sledCave_inUserSpace
    (apposite step member).offCave
  placed := fun step member info =>
    ((apposite step member).placed (second info)).imp id fun clear =>
      apart_of_bounds _ _ _ _ (apposite step member).fits
        (sledText_fits (second info) 48 (Nat.le_refl _)) clear
  offPadding := by
    intro step member info position padded
    obtain ⟨inside, padding, stands⟩ := padded
    rw [sledMemory_padding (second info) padding position inside stands]
    have clear := apart_of_bounds _ _ _ _ (apposite step member).fits
      (sledText_fits (second info) 16 (by decide))
      ((apposite step member).offPadding (second info))
    rwa [BitVec.add_zero]

end Sled

abbrev twoModules : Site Bool := sledSite id Function.injective_id

def fiveSteps : List (Step Bool Nat) :=
  [.near false 0 0x10010 6 0x600000, .call true (some 1) 0x30010 0x700000,
    .prologue 2 0x40000 15 0x500000, .overwrite 0x50000 [ret],
    .swap 3 0x60000 0x800000]

/-- The first two lie in the texts, the others apart from both. -/
theorem fiveSteps_layout : Layout twoModules fiveSteps := by
  apply sledSite_layout
  · decide +kernel
  · simp only [fiveSteps, List.forall_mem_cons]
    refine ⟨⟨by decide, by decide, fun _ => ?_⟩, ⟨by decide, fun _ => ?_⟩,
      ⟨by decide, by decide⟩, ⟨by decide, fun _ => Or.inl ⟨rfl, ?_⟩⟩,
      fun _ second => ?_, by simp⟩
    · rw [InText]
      decide +kernel
    · rw [InText]
      decide +kernel
    · decide +kernel
    · exact apart_of_bounds _ _ _ _ (by decide)
        (sledText_fits second 48 (Nat.le_refl _))
        (by cases second <;> decide +kernel)
  · decide
  · decide +kernel
  · decide +kernel

/-- There is padding for the far jump of each module. -/
theorem fiveSteps_spare (second : Bool) :
    Spare (sledSegment second) sledMemory
      (areasTaken twoModules fiveSteps second) := by
  have needed : areasTaken twoModules fiveSteps second = 1 := by
    cases second <;> decide +kernel
  rw [needed]
  refine ⟨[0], by simp, by simp, ?_⟩
  intro position member
  rw [List.mem_singleton.mp member]
  refine ⟨show 0 < 32 by decide, .trap, ?_⟩
  intro index byte found
  have inside : index < 16 := (List.getElem?_eq_some_iff.mp found).1
  revert found
  revert byte
  revert index
  cases second <;> decide +kernel

end HenPlugins.Memory.TakenOver
