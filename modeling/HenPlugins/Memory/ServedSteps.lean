import HenPlugins.Memory.PatchedProcess

/-!
# What the patches are for

The trampoline of a hook holds the original code, and the patches that stand
say of every step so far that it was served.  Later patches keep off its
function, so it stays served.
-/

set_option autoImplicit false

namespace HenPlugins.Memory.ServedSteps

open HenPlugins.Lib.ByteMemory
open HenPlugins.Lib.PatchedText
open HenPlugins.Lib.PatchLedger
open HenPlugins.Memory.CodeCave
open HenPlugins.Memory.FarHook
open HenPlugins.Memory.PatchedProcess
open HenPlugins.Memory.PrologueHooks (trampolineBytes length_trampolineBytes)
open HenPlugins.Memory.TakeOver
open HenPlugins.Memory.Trampoline

/-! ## What is looked at -/

section Displaced
variable (cave : Cave) (original memory : CodeMemory) (address : Address)
  (minInstructionSize : BitVec 32)

theorem inspected_covers (given : address ≠ 0) :
    ∃ instructions, Covers cave.disassembler (codeAt original address)
      minInstructionSize.toInt.toNat 0 instructions
      (inspected cave original address minInstructionSize) := by
  rw [inspected, if_neg given]
  exact coverEnd_covers _ _ _ _ 0 (by omega)

theorem displacedBy_eq_some (size : Nat)
    (displaced : displacedBy cave original address minInstructionSize =
      some size) :
    address ≠ 0 ∧ 5 ≤ minInstructionSize.toInt ∧
      size = inspected cave original address minInstructionSize ∧
      ∃ instructions, Prologue cave.disassembler original address
        minInstructionSize.toInt.toNat instructions size := by
  rw [displacedBy] at displaced
  split at displaced
  · contradiction
  · rename_i passed
    rw [not_or, Int.not_lt] at passed
    simp only at displaced
    split at displaced
    · contradiction
    · rename_i nonempty
      cases Option.some.inj displaced
      obtain ⟨instructions, prologue⟩ := (getInstructionSize_eq_iff
        cave.disassembler original address _ _ passed.1
        (Nat.pos_of_ne_zero nonempty)).mp rfl
      obtain ⟨others, covers⟩ := inspected_covers cave original address
        minInstructionSize passed.1
      exact ⟨passed.1, passed.2,
        (covers_unique _ _ _ _ _ _ _ _ covers prologue.1).2,
        instructions, prologue⟩

/-- The size depends on nothing else. -/
theorem getInstructionSize_same
    (same : ∀ other, Within address
      (inspected cave original address minInstructionSize) other →
        memory other = original other) :
    getInstructionSize cave.disassembler memory address
        minInstructionSize.toInt.toNat =
      getInstructionSize cave.disassembler original address
        minInstructionSize.toInt.toNat := by
  by_cases given : address = 0
  · rw [getInstructionSize, getInstructionSize, if_pos given, if_pos given]
  · obtain ⟨instructions, covers⟩ := inspected_covers cave original address
      minInstructionSize given
    have here := covers_congr cave.disassembler _ (codeAt memory address) _ 0
      _ instructions covers fun index inside =>
        same _ (within_add address _ index inside)
    obtain ⟨first, stop, firstCovers, firstOutcome⟩ := instructionLoop_spec
      cave.disassembler (codeAt memory address)
      minInstructionSize.toInt.toNat minInstructionSize.toInt.toNat 0
      (by omega)
    obtain ⟨second, otherStop, secondCovers, secondOutcome⟩ :=
      instructionLoop_spec cave.disassembler (codeAt original address)
        minInstructionSize.toInt.toNat minInstructionSize.toInt.toNat 0
        (by omega)
    obtain ⟨rfl, rfl⟩ := covers_unique _ _ _ _ _ _ _ _ here firstCovers
    obtain ⟨rfl, rfl⟩ := covers_unique _ _ _ _ _ _ _ _ covers secondCovers
    rw [getInstructionSize, getInstructionSize, if_neg given, if_neg given]
    rcases firstOutcome with ⟨clean, value⟩ | ⟨unclean, value⟩
    · rcases secondOutcome with ⟨-, otherValue⟩ | ⟨otherwise, -⟩
      · rw [value, otherValue]
      · exact absurd clean otherwise
    · rcases secondOutcome with ⟨otherwise, -⟩ | ⟨-, otherValue⟩
      · exact absurd otherwise unclean
      · rw [value, otherValue]

theorem displacedSize_same (state : HookState)
    (bounded : Bounded cave state)
    (same : ∀ other, Within address
      (inspected cave original address minInstructionSize) other →
        state.memory other = original other)
    (room : state.caveInstSize.toNat +
      trampolineRoom cave original address minInstructionSize ≤
        cave.maxCaveSize.toNat) :
    displacedSize cave state address minInstructionSize =
      displacedBy cave original address minInstructionSize := by
  have sizes := getInstructionSize_same cave original state.memory address
    minInstructionSize same
  cases displaced : displacedBy cave original address minInstructionSize with
  | some size =>
      obtain ⟨given, needed, -, instructions, prologue⟩ :=
        displacedBy_eq_some cave original address _ size displaced
      have bounds := prologue_bounds _ _ _ _ _ _ prologue
      rw [trampolineRoom, displaced] at room
      apply (displacedSize_eq_some_iff cave state bounded address _ size).mpr
      have computed := (getInstructionSize_eq_iff cave.disassembler original
        address _ size given (by omega)).mpr ⟨instructions, prologue⟩
      obtain ⟨others, here⟩ := (getInstructionSize_eq_iff cave.disassembler
        state.memory address _ size given (by omega)).mp
          (sizes.trans computed)
      exact ⟨others, given, needed, here, by
        simp only at room
        omega⟩
  | none =>
      rw [displacedBy] at displaced
      rw [displacedSize]
      split at displaced
      · rename_i refused
        rw [if_pos refused]
      · rename_i passed
        rw [if_neg passed]
        simp only at displaced ⊢
        split at displaced
        · rename_i nothing
          rw [sizes]
          rw [if_pos (Or.inl nothing)]
        · contradiction

end Displaced

/-! ## A trampoline -/

section Hooking
variable {Module : Type} (site : Site Module) (claims : Address → Prop)
  (taken : Module → Nat) (state : HookState) (patches : List (Patch 64 UInt8)) (address : Address)
  (minInstructionSize : BitVec 32)
  (patched : Patched site claims taken state patches)
  (own : Own site claims patches address
    (inspected site.cave site.original address minInstructionSize))
  (room : state.caveInstSize.toNat +
    trampolineRoom site.cave site.original address minInstructionSize ≤
      site.cave.maxCaveSize.toNat)
include patched own room

theorem displaced_ready :
    displacedSize site.cave (caveBlockInit site.cave state) address
        minInstructionSize =
      displacedBy site.cave site.original address minInstructionSize := by
  have ready := patched_caveBlockInit site claims taken state patches patched
  apply displacedSize_same
  · have used := ready.used
    rw [Bounded]
    omega
  · exact own_original site claims taken _ patches address _ own ready
  · rw [caveBlockInit_caveInstSize]
    exact room

theorem hook_refused
    (refused : displacedBy site.cave site.original address
      minInstructionSize = none) :
    createPrologueHook site.cave state address minInstructionSize =
        (0, caveBlockInit site.cave state) ∧
      Patched site claims taken (caveBlockInit site.cave state) patches := by
  refine ⟨?_, patched_caveBlockInit site claims taken state patches patched⟩
  apply createPrologueHook_none
  rw [displaced_ready site claims taken state patches address _ patched own
    room]
  exact refused

theorem hook_accepted (size : Nat)
    (accepted : displacedBy site.cave site.original address
      minInstructionSize = some size)
    (claimCave : ∀ other, site.InCave other → claims other) :
    ∃ entry hooked,
      createPrologueHook site.cave state address minInstructionSize =
          (entry, hooked) ∧
        entry ≠ 0 ∧
        hooked.caveInstSize.toNat =
          state.caveInstSize.toNat + (size + 14) ∧
        (∀ other, Within entry (size + 14) other → site.InCave other) ∧
        Patched site claims taken hooked
          (patches ++
            [{ address := entry
               data := trampolineBytes site.original address size }]) := by
  have ready := patched_caveBlockInit site claims taken state patches patched
  have displaced := displaced_ready site claims taken state patches address _
    patched own room
  rw [accepted] at displaced
  obtain ⟨given, -, reach, instructions, prologue⟩ :=
    displacedBy_eq_some site.cave site.original address _ size accepted
  have bounds := prologue_bounds _ _ _ _ _ _ prologue
  have minBound := minInstructionSize_lt minInstructionSize
  have used := ready.used
  rw [trampolineRoom, accepted] at room
  simp only at room
  have initial := caveBlockInit_caveInstSize site.cave state
  have held : trampolineBytes (caveBlockInit site.cave state).memory address
      size = trampolineBytes site.original address size := by
    rw [trampolineBytes, trampolineBytes]
    rw [read_congr site.original _ address size fun other inside =>
      own_original site claims taken _ patches address _ own ready other
        (by rw [← reach]; exact inside)]
  have written := fillTrampoline_memory site.cave
    (caveBlockInit site.cave state) address size (by omega)
  have grown := fillTrampoline_caveInstSize site.cave
    (caveBlockInit site.cave state) (by rw [Bounded]; omega) address size
    (by omega)
  have initialised := caveBlockInit_sets site.cave state
  have hooked := createPrologueHook_some site.cave state address _ size
    displaced
  refine ⟨_,
    (fillTrampoline site.cave (caveBlockInit site.cave state) address size).2,
    hooked, ?_, ?_, ?_, ?_⟩
  · exact trampoline_ne_zero site.cave (caveBlockInit site.cave state) used
  · rw [grown, initial]
    omega
  · intro other inside
    rw [entry_offset] at inside
    exact within_cave site.cave _ (size + 14) (by rw [initial]; omega) other
      inside
  · apply patched_trampoline site claims taken _ patches ready
    · rw [written, ← held]
      rfl
    · exact initialised
    · rw [grown, length_trampolineBytes]
      omega
    · rw [length_trampolineBytes, initial]
      omega
    · exact claimCave

end Hooking

/-! ## What the patches say of a step -/

section Serving
variable {Module Slot : Type} (site : Site Module)

/-- Padding of the modules. -/
def InPadding (address : Address) : Prop :=
  ∃ info position, PaddedAt (site.segment info) site.original position ∧
    Within ((site.segment info).textbase + BitVec.ofNat 64 position) 16
      address

/-- Where the patches of these steps may lie. -/
def Claimed (done : List (Step Module Slot)) (address : Address) : Prop :=
  site.InCave address ∨
    (∃ step ∈ done, Within step.address (step.extentAt site) address) ∨
    InPadding site address

def areasTaken [DecidableEq Module] (done : List (Step Module Slot)) :
    Module → Nat :=
  (done.map (Step.far site.cave site.original)).sum

def roomTaken (done : List (Step Module Slot)) : Nat :=
  (done.map (Step.room site.cave site.original)).sum

def Unpatched (patches : List (Patch 64 UInt8)) (address : Address)
    (count : Nat) : Prop :=
  ∀ patch ∈ patches, patch.Off address count

/-- A trampoline of the function, unless its code is refused. -/
def Hooked (originals : Slot → Address) (patches : List (Patch 64 UInt8))
    (slot : Slot) (address : Address) (minInstructionSize : BitVec 32)
    (led : Prop) : Prop :=
  match displacedBy site.cave site.original address minInstructionSize with
  | none =>
      originals slot = 0 ∧ Unpatched patches address
        (inspected site.cave site.original address minInstructionSize)
  | some size =>
      originals slot ≠ 0 ∧
        { address := originals slot
          data := trampolineBytes site.original address size } ∈ patches ∧
        led

def Jumped (patches : List (Patch 64 UInt8)) (info : Module) (call : Call) :
    Prop :=
  ∃ area, area < (site.segment info).textsz + 2 ∧
    sourcePatch (site.segment info) call area ∈ patches ∧
      areaPatch (site.segment info) call area ∈ patches

/-- The padding is used up, and the function is left alone. -/
def OutOfPadding (patches : List (Patch 64 UInt8)) (count : Module → Nat)
    (info : Module) (address : Address) (extent : Nat) : Prop :=
  ¬ Spare (site.segment info) site.original (count info) ∧
    Unpatched patches address extent

/-- What is kept in a slot, if there is one. -/
def KeptAs (originals : Slot → Address) (slot : Option Slot)
    (target : Address) : Prop :=
  ∀ kept ∈ slot, originals kept = target

def nearCall (address : Address) (srclen : Nat) (destination : Address) :
    Call where
  src := address
  dst := destination
  srclen := srclen
  call := false

def farCall (address destination : Address) : Call where
  src := address
  dst := destination
  srclen := 5
  call := true

/-- What is patched for a step, after so many areas were asked for. -/
def Served (originals : Slot → Address) (patches : List (Patch 64 UInt8))
    (count : Module → Nat) : Step Module Slot → Prop
  | .prologue slot address minInstructionSize destination =>
      Hooked site originals patches slot address minInstructionSize
        ({ address := address, data := jumpBytes destination } ∈ patches)
  | .near info slot address srclen destination =>
      Hooked site originals patches slot address (BitVec.ofNat 32 srclen)
        (Jumped site patches info (nearCall address srclen destination) ∨
          OutOfPadding site patches count info address (inspected site.cave
            site.original address (BitVec.ofNat 32 srclen)))
  | .call info slot address destination =>
      if address = 0 then KeptAs originals slot 0
      else
        (KeptAs originals slot (readLEA32 site.original address 0 1 5) ∧
            Jumped site patches info (farCall address destination)) ∨
          (KeptAs originals slot 0 ∧
            OutOfPadding site patches count info address 5)
  | .replace address destination =>
      address ≠ 0 →
        { address := address, data := jumpBytes destination } ∈ patches
  | .overwrite address data =>
      address ≠ 0 → { address := address, data := data } ∈ patches
  | .swap slot address destination =>
      if address = 0 then originals slot = 0
      else
        originals slot = readPointer site.original address ∧
          { address := address, data := pointerBytes destination } ∈ patches
  | .remember slot address => originals slot = address

/-- The session after these steps. -/
structure Standing [DecidableEq Module] (done : List (Step Module Slot))
    (session : Session Slot) (patches : List (Patch 64 UInt8)) : Prop where
  patched : Patched site (Claimed site done) (areasTaken site done)
    session.state patches
  room : session.state.caveInstSize.toNat = roomTaken site done
  served : ∀ step ∈ done, Served site session.originals patches
    (areasTaken site done) step
  unset : ∀ slot, (∀ step ∈ done, step.slot ≠ some slot) →
    session.originals slot = 0

/-! ## Later patches -/

section Later
variable (originals later : Slot → Address)
  (patches more : List (Patch 64 UInt8)) (count further : Module → Nat)

theorem unpatched_later (address : Address) (extent : Nat)
    (before : Unpatched patches address extent)
    (off : Unpatched more address extent) :
    Unpatched (patches ++ more) address extent := by
  intro patch member
  rcases List.mem_append.mp member with earlier | new
  · exact before patch earlier
  · exact off patch new

theorem hooked_later (slot : Slot) (address : Address)
    (minInstructionSize : BitVec 32) (led laterLed : Prop)
    (same : later slot = originals slot)
    (off : Unpatched more address
      (inspected site.cave site.original address minInstructionSize))
    (leads : led → laterLed)
    (hooked : Hooked site originals patches slot address minInstructionSize
      led) :
    Hooked site later (patches ++ more) slot address minInstructionSize
      laterLed := by
  rw [Hooked] at hooked ⊢
  rw [same]
  split at hooked
  · obtain ⟨unset, alone⟩ := hooked
    exact ⟨unset, unpatched_later patches more _ _ alone off⟩
  · obtain ⟨set, trampoline, leading⟩ := hooked
    exact ⟨set, List.mem_append_left _ trampoline, leads leading⟩

theorem jumped_later (info : Module) (call : Call)
    (jumped : Jumped site patches info call) :
    Jumped site (patches ++ more) info call := by
  obtain ⟨area, near, source, target⟩ := jumped
  exact ⟨area, near, List.mem_append_left _ source,
    List.mem_append_left _ target⟩

theorem outOfPadding_later (info : Module) (address : Address)
    (extent : Nat) (grows : count ≤ further)
    (off : Unpatched more address extent)
    (out : OutOfPadding site patches count info address extent) :
    OutOfPadding site (patches ++ more) further info address extent := by
  obtain ⟨few, alone⟩ := out
  exact ⟨fun enough => few (spare_mono _ _ _ _ (grows info) enough),
    unpatched_later patches more _ _ alone off⟩

theorem keptAs_later (slot : Option Slot) (target : Address)
    (same : ∀ kept, slot = some kept → later kept = originals kept)
    (before : KeptAs originals slot target) : KeptAs later slot target := by
  intro kept member
  rw [same kept member]
  exact before kept member

theorem served_later (step : Step Module Slot) (grows : count ≤ further)
    (same : ∀ slot, step.slot = some slot → later slot = originals slot)
    (off : Unpatched more step.address (step.extentAt site))
    (served : Served site originals patches count step) :
    Served site later (patches ++ more) further step := by
  cases step with
  | prologue slot address minInstructionSize destination =>
      exact hooked_later site originals later patches more slot address _ _ _
        (same slot rfl) off (List.mem_append_left _) served
  | near info slot address srclen destination =>
      apply hooked_later site originals later patches more slot address _ _ _
        (same slot rfl) off ?_ served
      rintro (jumped | out)
      · exact Or.inl (jumped_later site patches more info _ jumped)
      · exact Or.inr (outOfPadding_later site patches more count further
          info address _ grows off out)
  | call info slot address destination =>
      rw [Served] at served ⊢
      split at served
      · rename_i unresolved
        rw [if_pos unresolved]
        exact keptAs_later originals later slot _ same served
      · rename_i given
        rw [if_neg given]
        have extent : (Step.call info slot address destination).extentAt
            site = 5 := if_neg given
        rw [extent] at off
        rcases served with ⟨target, jumped⟩ | ⟨unset, out⟩
        · exact Or.inl ⟨keptAs_later originals later slot _ same target,
            jumped_later site patches more info _ jumped⟩
        · exact Or.inr ⟨keptAs_later originals later slot _ same unset,
            outOfPadding_later site patches more count further info address 5
              grows off out⟩
  | replace address destination =>
      intro given
      exact List.mem_append_left _ (served given)
  | overwrite address data =>
      intro given
      exact List.mem_append_left _ (served given)
  | swap slot address destination =>
      rw [Served] at served ⊢
      rw [same slot rfl]
      split at served
      · rename_i unresolved
        rw [if_pos unresolved]
        exact served
      · rename_i given
        rw [if_neg given]
        exact ⟨served.1, List.mem_append_left _ served.2⟩
  | remember slot address =>
      rw [Served] at served ⊢
      rw [same slot rfl]
      exact served

end Later

end Serving

/-! ## One step more -/

section Stepping
variable {Module Slot : Type} (site : Site Module)

/-- What the layout says of the next step. -/
structure Next (done : List (Step Module Slot)) (step : Step Module Slot) :
    Prop where
  room : roomTaken site done + step.room site.cave site.original ≤
    site.cave.maxCaveSize.toNat
  wellFormed : step.WellFormed site
  slots : ∀ earlier ∈ done, ∀ slot, earlier.slot = some slot →
    step.slot ≠ some slot
  apart : ∀ earlier ∈ done, Apart earlier.address (earlier.extentAt site)
    step.address (step.extentAt site)
  offCave : ∀ address, Within step.address (step.extentAt site) address →
    ¬ site.InCave address
  placed : ∀ info,
    InText (site.segment info) step.address (step.extentAt site) ∨
      OffText (site.segment info) step.address (step.extentAt site)
  offPadding : ∀ info position,
    PaddedAt (site.segment info) site.original position →
      Apart step.address (step.extentAt site)
        ((site.segment info).textbase + BitVec.ofNat 64 position) 16
  earlierOffCave : ∀ earlier ∈ done, ∀ address,
    Within earlier.address (earlier.extentAt site) address →
      ¬ site.InCave address
  earlierOffPadding : ∀ earlier ∈ done, ∀ info position,
    PaddedAt (site.segment info) site.original position →
      Apart earlier.address (earlier.extentAt site)
        ((site.segment info).textbase + BitVec.ofNat 64 position) 16

theorem roomTaken_append (done more : List (Step Module Slot)) :
    roomTaken site (done ++ more) =
      roomTaken site done + roomTaken site more := by
  rw [roomTaken, List.map_append, List.sum_append]
  rfl

theorem roomTaken_snoc (done : List (Step Module Slot)) (step : Step Module Slot) :
    roomTaken site (done ++ [step]) =
      roomTaken site done + step.room site.cave site.original := by
  rw [roomTaken_append]
  rfl

theorem areasTaken_snoc [DecidableEq Module] (done : List (Step Module Slot)) (step : Step Module Slot) :
    areasTaken site (done ++ [step]) =
      areasTaken site done + step.far site.cave site.original := by
  rw [areasTaken, List.map_append, List.sum_append]
  rfl

theorem next_of_layout (done later : List (Step Module Slot)) (step : Step Module Slot)
    (layout : Layout site (done ++ step :: later)) : Next site done step := by
  have member : step ∈ done ++ step :: later :=
    List.mem_append_right _ (List.mem_cons_self ..)
  obtain ⟨-, -, slots⟩ := List.pairwise_append.mp layout.slots
  obtain ⟨-, -, apart⟩ := List.pairwise_append.mp layout.apart
  have room : roomTaken site (done ++ step :: later) ≤
      site.cave.maxCaveSize.toNat := layout.room
  rw [List.append_cons, roomTaken_append, roomTaken_snoc] at room
  exact
    { room := by omega
      wellFormed := layout.wellFormed step member
      slots := fun earlier old =>
        slots earlier old step (List.mem_cons_self ..)
      apart := fun earlier old =>
        apart earlier old step (List.mem_cons_self ..)
      offCave := layout.offCave step member
      placed := layout.placed step member
      offPadding := layout.offPadding step member
      earlierOffCave := fun earlier old =>
        layout.offCave earlier (List.mem_append_left _ old)
      earlierOffPadding := fun earlier old =>
        layout.offPadding earlier (List.mem_append_left _ old) }

/-- Where the patches of one step may lie. -/
def ClaimedBy (step : Step Module Slot) (address : Address) : Prop :=
  site.InCave address ∨
    Within step.address (step.extentAt site) address ∨ InPadding site address

variable (done : List (Step Module Slot)) (step : Step Module Slot)

theorem claimed_earlier (address : Address)
    (claimed : Claimed site done address) :
    Claimed site (done ++ [step]) address := by
  rcases claimed with inCave | ⟨earlier, member, inside⟩ | inPadding
  · exact Or.inl inCave
  · exact Or.inr (Or.inl ⟨earlier, List.mem_append_left _ member, inside⟩)
  · exact Or.inr (Or.inr inPadding)

theorem claimed_new (address : Address)
    (inside : Within step.address (step.extentAt site) address) :
    Claimed site (done ++ [step]) address :=
  Or.inr (Or.inl ⟨step,
    List.mem_append_right _ (List.mem_singleton_self _), inside⟩)

variable (session : Session Slot) (patches : List (Patch 64 UInt8))
  (next : Next site done step)
include next

/-- The patches of a step keep off the earlier functions. -/
theorem unpatched_of_claimedBy (more : List (Patch 64 UInt8))
    (claims : ∀ patch ∈ more, ∀ address, patch.Covers address →
      ClaimedBy site step address)
    (earlier : Step Module Slot) (member : earlier ∈ done) :
    Unpatched more earlier.address (earlier.extentAt site) := by
  intro patch new address covers inside
  rcases claims patch new address covers with
    inCave | own | ⟨info, position, padded, here⟩
  · exact next.earlierOffCave earlier member address inside inCave
  · exact next.apart earlier member address inside own
  · exact next.earlierOffPadding earlier member info position padded address
      inside here

variable [DecidableEq Module] (standing : Standing site done session patches)
include standing

theorem own_next :
    Own site (Claimed site (done ++ [step])) patches step.address
      (step.extentAt site) where
  off := by
    apply off_unclaimed site _ _ _ _ standing.patched
    intro address inside claimed
    rcases claimed with inCave | ⟨earlier, member, own⟩ |
      ⟨info, position, padded, here⟩
    · exact next.offCave address inside inCave
    · exact next.apart earlier member address own inside
    · exact next.offPadding info position padded address inside here
  solid := next.offCave
  placed := next.placed
  offPadding := next.offPadding
  claim := claimed_new site done step

/-- A step is done. -/
theorem standing_next (after : Session Slot)
    (more : List (Patch 64 UInt8))
    (patched : Patched site (Claimed site (done ++ [step]))
      (areasTaken site done + step.far site.cave site.original) after.state
      (patches ++ more))
    (room : after.state.caveInstSize.toNat =
      roomTaken site done + step.room site.cave site.original)
    (claims : ∀ patch ∈ more, ∀ address, patch.Covers address →
      ClaimedBy site step address)
    (others : ∀ slot, step.slot ≠ some slot →
      after.originals slot = session.originals slot)
    (served : Served site after.originals (patches ++ more)
      (areasTaken site done + step.far site.cave site.original) step) :
    Standing site (done ++ [step]) after (patches ++ more) where
  patched := by
    rw [areasTaken_snoc]
    exact patched
  room := by
    rw [roomTaken_snoc]
    exact room
  served := by
    rw [areasTaken_snoc]
    intro other member
    rcases List.mem_append.mp member with earlier | last
    · apply served_later site session.originals after.originals patches more
        (areasTaken site done) _ other (fun _ => Nat.le_add_right _ _)
      · intro slot used
        exact others slot (next.slots other earlier slot used)
      · exact unpatched_of_claimedBy site done step next more claims other
          earlier
      · exact standing.served other earlier
    · rw [List.mem_singleton.mp last]
      exact served
  unset := by
    intro slot unused
    rw [others slot (unused step
      (List.mem_append_right _ (List.mem_singleton_self _)))]
    exact standing.unset slot fun earlier member =>
      unused earlier (List.mem_append_left _ member)

theorem unset_next
    (slot : Slot) (used : step.slot = some slot) :
    session.originals slot = 0 := by
  apply standing.unset slot
  intro earlier member before
  exact next.slots earlier member slot before used

omit next in
theorem patched_next (cost : Module → Nat) :
    Patched site (Claimed site (done ++ [step]))
      (areasTaken site done + cost) session.state patches :=
  patched_mono site _ _ _ _ standing.patched _ _
    (claimed_earlier site done step) fun _ => Nat.le_add_right _ _

/-- A step for which nothing is patched. -/
theorem standing_still (after : Session Slot)
    (patched : Patched site (Claimed site (done ++ [step]))
      (areasTaken site done + step.far site.cave site.original) after.state
      patches)
    (size : after.state.caveInstSize = session.state.caveInstSize)
    (room : step.room site.cave site.original = 0)
    (others : ∀ slot, step.slot ≠ some slot →
      after.originals slot = session.originals slot)
    (served : Served site after.originals patches
      (areasTaken site done + step.far site.cave site.original) step) :
    Standing site (done ++ [step]) after patches := by
  have result := standing_next site done step session patches next standing
    after []
  rw [List.append_nil] at result
  apply result patched ?_ (by simp) others served
  rw [size, standing.room, room, Nat.add_zero]

end Stepping

end HenPlugins.Memory.ServedSteps
