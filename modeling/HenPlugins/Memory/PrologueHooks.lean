import HenPlugins.Memory.Trampoline

/-!
# Installing prologue hooks

An install calls `CreatePrologueHook` and, when it returns a trampoline,
redirects the function with `WriteJump64`.  The invariant says where every
trampoline lies, what it holds, and that nothing else has changed.
-/

set_option autoImplicit false

namespace HenPlugins.Memory.PrologueHooks

open HenPlugins.Lib.ByteMemory
open HenPlugins.Memory.CodeCave
open HenPlugins.Memory.Trampoline

structure Request where
  address : Address
  minInstructionSize : BitVec 32
  destination : Address
  deriving DecidableEq

/-- What an install did: the displaced bytes, and the returned address. -/
structure Installed where
  request : Request
  displaced : Option Nat
  entry : Address
  deriving DecidableEq

structure Session where
  state : HookState
  installed : List Installed

def install (cave : Cave) (session : Session) (request : Request) : Session :=
  let displaced := displacedSize cave (caveBlockInit cave session.state)
    request.address request.minInstructionSize
  let (pHook, hooked) := createPrologueHook cave session.state
    request.address request.minInstructionSize
  let patched :=
    if pHook ≠ 0 then writeJump64 hooked request.address request.destination
    else hooked
  { state := patched
    installed := session.installed ++
      [{ request := request, displaced := displaced, entry := pHook }] }

def processStart (memory : CodeMemory) : Session :=
  { state :=
      { memory := memory, caveInstSize := 0, once := false, written := [] }
    installed := [] }

def installAll (cave : Cave) (session : Session) (requests : List Request) :
    Session :=
  requests.foldl (install cave) session

/-! ## What is assumed and what is asked -/

/-- Everything written fits in the cave, and the displaced ranges lie apart
from each other and from the cave. -/
structure LaidOut (cave : Cave) (installed : List Installed) : Prop where
  testFits : 6 ≤ cave.maxCaveSize.toNat
  fits : ∀ hook ∈ installed, ∀ size, hook.displaced = some size →
    (hook.entry - cave.cavePadFunc).toNat + size + 14 ≤
      cave.maxCaveSize.toNat
  offCave : ∀ hook ∈ installed, ∀ size, hook.displaced = some size →
    Apart hook.request.address size cave.cavePadFunc cave.maxCaveSize.toNat
  apart : installed.Pairwise fun first second => ∀ size otherSize,
    first.displaced = some size → second.displaced = some otherSize →
      Apart first.request.address size second.request.address otherSize

/-- A hook that redirects its function and whose trampoline continues it. -/
structure Works (cave : Cave) (original current : CodeMemory)
    (hook : Installed) (size : Nat) : Prop where
  redirected : jumpTarget current hook.request.address =
    some hook.request.destination
  copied : ∀ index < size,
    current (hook.entry + BitVec.ofNat 64 index) =
      original (hook.request.address + BitVec.ofNat 64 index)
  continued : jumpTarget current (hook.entry + BitVec.ofNat 64 size) =
    some (hook.request.address + BitVec.ofNat 64 size)
  boundary : FirstBoundary cave.disassembler
    (codeAt original hook.request.address)
    hook.request.minInstructionSize.toInt.toNat size
  clear : (jumpBytes hook.request.destination).length ≤ size

/-! ## The invariant -/

/-- What a hook is, whatever happens to the memory later. -/
structure Placed (cave : Cave) (original : CodeMemory) (used : Nat)
    (hook : Installed) (size : Nat) : Prop where
  nonzero : hook.entry ≠ 0
  inCave : ∃ offset, hook.entry = cave.cavePadFunc + BitVec.ofNat 64 offset ∧
    offset + (size + 14) ≤ used
  boundary : FirstBoundary cave.disassembler
    (codeAt original hook.request.address)
    hook.request.minInstructionSize.toInt.toNat size
  clear : 14 ≤ size

def trampolineBytes (original : CodeMemory) (address : Address) (size : Nat) :
    List UInt8 :=
  read original address size ++ jumpBytes (address + BitVec.ofNat 64 size)

@[simp] theorem length_trampolineBytes (original : CodeMemory)
    (address : Address) (size : Nat) :
    (trampolineBytes original address size).length = size + 14 := by
  simp [trampolineBytes]

structure Standing (cave : Cave) (original : CodeMemory)
    (session : Session) : Prop where
  initialised : session.installed ≠ [] → session.state.once = true
  used : session.state.caveInstSize.toNat ≤ cave.maxCaveSize.toNat
  refused : ∀ hook ∈ session.installed, hook.displaced = none →
    hook.entry = 0
  placed : ∀ hook ∈ session.installed, ∀ size, hook.displaced = some size →
    Placed cave original session.state.caveInstSize.toNat hook size
  jumps : ∀ hook ∈ session.installed, ∀ size, hook.displaced = some size →
    Holds session.state.memory hook.request.address
      (jumpBytes hook.request.destination)
  trampolines : ∀ hook ∈ session.installed, ∀ size,
    hook.displaced = some size →
      Holds session.state.memory hook.entry
        (trampolineBytes original hook.request.address size)
  disjoint : session.installed.Pairwise fun first second =>
    ∀ size otherSize, first.displaced = some size →
      second.displaced = some otherSize →
        Apart first.entry (size + 14) second.entry (otherSize + 14)
  untouched : ∀ address,
    ¬ Within cave.cavePadFunc cave.maxCaveSize.toNat address →
    (∀ hook ∈ session.installed, ∀ size, hook.displaced = some size →
      ¬ Within hook.request.address size address) →
    session.state.memory address = original address

theorem standing_start (cave : Cave) (memory : CodeMemory) :
    Standing cave memory (processStart memory) where
  initialised := by intro some; contradiction
  used := Nat.zero_le _
  refused := by simp [processStart]
  placed := by simp [processStart]
  jumps := by simp [processStart]
  trampolines := by simp [processStart]
  disjoint := List.Pairwise.nil
  untouched := by intro address _ _; rfl

/-- The initialisation comes before every hook. -/
theorem standing_caveBlockInit (cave : Cave) (original : CodeMemory)
    (session : Session) (testFits : 6 ≤ cave.maxCaveSize.toNat)
    (standing : Standing cave original session) :
    Standing cave original
      { session with state := caveBlockInit cave session.state } := by
  by_cases initialised : session.state.once = true
  · rw [caveBlockInit_once cave session.state initialised]
    exact standing
  · have fresh : session.installed = [] := by
      by_contra some
      exact initialised (standing.initialised some)
    refine
      { initialised := fun _ => caveBlockInit_sets cave session.state
        used := by simpa using standing.used
        refused := by simp [fresh]
        placed := by simp [fresh]
        jumps := by simp [fresh]
        trampolines := by simp [fresh]
        disjoint := by simp [fresh]
        untouched := ?_ }
    intro address outside _
    rw [caveBlockInit_outside cave session.state testFits address outside]
    exact standing.untouched address outside (by simp [fresh])

/-! ## One install -/

theorem install_refused (cave : Cave) (session : Session) (request : Request)
    (refused : displacedSize cave (caveBlockInit cave session.state)
      request.address request.minInstructionSize = none) :
    install cave session request =
      { state := caveBlockInit cave session.state
        installed := session.installed ++
          [{ request := request, displaced := none, entry := 0 }] } := by
  simp only [install, refused,
    createPrologueHook_none cave session.state request.address _ refused,
    ne_eq, not_true_eq_false, if_false]

theorem install_accepted (cave : Cave) (session : Session) (request : Request)
    (size : Nat)
    (accepted : displacedSize cave (caveBlockInit cave session.state)
      request.address request.minInstructionSize = some size)
    (used : session.state.caveInstSize.toNat ≤ cave.maxCaveSize.toNat) :
    install cave session request =
      { state := writeJump64 (fillTrampoline cave
          (caveBlockInit cave session.state) request.address size).2
          request.address request.destination
        installed := session.installed ++
          [{ request := request
             displaced := some size
             entry := cave.cavePadFunc + session.state.caveInstSize }] } := by
  have hooked := createPrologueHook_some cave session.state request.address _
    size accepted
  have entry : (fillTrampoline cave (caveBlockInit cave session.state)
      request.address size).1 =
        cave.cavePadFunc + session.state.caveInstSize := by
    simp only [fillTrampoline, caveBlockInit_caveInstSize]
  have nonzero := trampoline_ne_zero cave session.state used
  simp only [install, accepted, hooked, entry, ne_eq, nonzero,
    not_false_eq_true, if_true]

theorem standing_refused (cave : Cave) (original : CodeMemory)
    (state : HookState) (installed : List Installed) (request : Request)
    (initialised : state.once = true)
    (standing : Standing cave original ⟨state, installed⟩) :
    Standing cave original
      { state := state
        installed := installed ++
          [{ request := request, displaced := none, entry := 0 }] } := by
  have old : ∀ hook ∈ installed ++
      [{ request := request, displaced := none, entry := (0 : Address) }],
      ∀ size, hook.displaced = some size → hook ∈ installed := by
    intro hook member size displaced
    rcases List.mem_append.mp member with old | new
    · exact old
    · cases List.mem_singleton.mp new
      contradiction
  refine
    { initialised := fun _ => initialised
      used := standing.used
      refused := ?_
      placed := fun hook member size displaced => standing.placed hook
        (old hook member size displaced) size displaced
      jumps := fun hook member size displaced => standing.jumps hook
        (old hook member size displaced) size displaced
      trampolines := fun hook member size displaced => standing.trampolines
        hook (old hook member size displaced) size displaced
      disjoint := ?_
      untouched := ?_ }
  · intro hook member none
    rcases List.mem_append.mp member with old | new
    · exact standing.refused hook old none
    · cases List.mem_singleton.mp new
      rfl
  · refine List.pairwise_append.mpr ⟨standing.disjoint,
      List.pairwise_singleton _ _, ?_⟩
    intro first _ second new size otherSize _ displaced
    cases List.mem_singleton.mp new
    contradiction
  · intro address outside elsewhere
    exact standing.untouched address outside fun hook member =>
      elsewhere hook (List.mem_append_left _ member)

/-! ## A successful install -/

section Accepting
variable (cave : Cave) (state : HookState) (request : Request) (size : Nat)

/-- There is room for the trampoline, and for the jump. -/
structure Fitting : Prop where
  room : state.caveInstSize.toNat + (size + 14) ≤ cave.maxCaveSize.toNat
  offCave : Apart request.address size cave.cavePadFunc cave.maxCaveSize.toNat
  clear : 14 ≤ size

def hookedMemory : CodeMemory :=
  write (write state.memory (cave.cavePadFunc + state.caveInstSize)
      (trampolineBytes state.memory request.address size)) request.address
    (jumpBytes request.destination)

theorem hookedMemory_jump :
    Holds (hookedMemory cave state request size) request.address
      (jumpBytes request.destination) := by
  apply holds_write
  rw [length_jumpBytes]
  decide

section Memory
variable (fitting : Fitting cave state request size)
include fitting

theorem jump_within (address : Address)
    (inside : Within request.address
      (jumpBytes request.destination).length address) :
    Within request.address size address := by
  rw [length_jumpBytes] at inside
  exact within_mono _ _ _ fitting.clear address inside

theorem trampoline_within (address : Address)
    (inside : Within (cave.cavePadFunc + state.caveInstSize) (size + 14)
      address) : Within cave.cavePadFunc cave.maxCaveSize.toNat address := by
  rw [entry_offset] at inside
  exact within_cave cave _ (size + 14) fitting.room address inside

theorem hookedMemory_outside (address : Address)
    (offCave : ¬ Within cave.cavePadFunc cave.maxCaveSize.toNat address)
    (elsewhere : ¬ Within request.address size address) :
    hookedMemory cave state request size address = state.memory address := by
  rw [hookedMemory, write_outside _ _ _ _ fun inside => elsewhere
    (jump_within cave state request size fitting address inside)]
  apply write_outside
  rw [length_trampolineBytes]
  intro inside
  exact offCave (trampoline_within cave state request size fitting address
    inside)

theorem hookedMemory_inCave (address : Address)
    (inCave : Within cave.cavePadFunc cave.maxCaveSize.toNat address)
    (elsewhere : ¬ Within (cave.cavePadFunc + state.caveInstSize) (size + 14)
      address) :
    hookedMemory cave state request size address = state.memory address := by
  rw [hookedMemory, write_outside _ _ _ _ fun inside => fitting.offCave address
    (jump_within cave state request size fitting address inside) inCave]
  apply write_outside
  rw [length_trampolineBytes]
  exact elsewhere

theorem hookedMemory_trampoline :
    Holds (hookedMemory cave state request size)
      (cave.cavePadFunc + state.caveInstSize)
      (trampolineBytes state.memory request.address size) := by
  have room := fitting.room
  have bounded := cave.maxCaveSize.isLt
  apply holds_write_apart
  · apply holds_write
    rw [length_trampolineBytes]
    omega
  · rw [length_trampolineBytes]
    intro address inTrampoline inJump
    exact fitting.offCave address
      (jump_within cave state request size fitting address inJump)
      (trampoline_within cave state request size fitting address inTrampoline)

end Memory

end Accepting

section Step
variable (cave : Cave) (original : CodeMemory) (state : HookState)
  (installed : List Installed) (request : Request) (size : Nat)
  (standing : Standing cave original ⟨state, installed⟩)
  (fitting : Fitting cave state request size)
  (apart : ∀ hook ∈ installed, ∀ otherSize, hook.displaced = some otherSize →
    Apart hook.request.address otherSize request.address size)
  (offCave : ∀ hook ∈ installed, ∀ otherSize,
    hook.displaced = some otherSize →
      Apart hook.request.address otherSize cave.cavePadFunc
        cave.maxCaveSize.toNat)
include standing

include fitting apart in
/-- The prologue to be displaced is still the original one. -/
theorem prologue_untouched (address : Address)
    (inside : Within request.address size address) :
    state.memory address = original address := by
  apply standing.untouched address (fitting.offCave address inside)
  intro hook member otherSize displaced inOther
  exact apart hook member otherSize displaced address inOther inside

include fitting apart in
theorem trampolineBytes_untouched :
    trampolineBytes state.memory request.address size =
      trampolineBytes original request.address size := by
  simp only [trampolineBytes]
  rw [read_congr original state.memory request.address size
    (prologue_untouched cave original state installed request size standing
      fitting apart)]

include fitting apart offCave in
theorem old_jump_kept (hook : Installed) (member : hook ∈ installed)
    (otherSize : Nat) (displaced : hook.displaced = some otherSize) :
    Holds (hookedMemory cave state request size) hook.request.address
      (jumpBytes hook.request.destination) := by
  have clear := (standing.placed hook member otherSize displaced).clear
  apply holds_congr state.memory _ _ _
    (standing.jumps hook member otherSize displaced)
  intro address inside
  rw [length_jumpBytes] at inside
  have inHook := within_mono _ 14 otherSize clear address inside
  exact hookedMemory_outside cave state request size fitting address
    (offCave hook member otherSize displaced address inHook)
    (apart hook member otherSize displaced address inHook)

include fitting in
theorem old_trampoline_apart (hook : Installed) (member : hook ∈ installed)
    (otherSize : Nat) (displaced : hook.displaced = some otherSize) :
    Apart hook.entry (otherSize + 14)
      (cave.cavePadFunc + state.caveInstSize) (size + 14) := by
  have space := cave.inUserSpace
  have room := fitting.room
  obtain ⟨offset, entry, below⟩ :=
    (standing.placed hook member otherSize displaced).inCave
  rw [entry, entry_offset]
  exact apart_consecutive _ offset _ _ _ below (by omega)

include fitting in
theorem old_trampoline_kept (hook : Installed) (member : hook ∈ installed)
    (otherSize : Nat) (displaced : hook.displaced = some otherSize) :
    Holds (hookedMemory cave state request size) hook.entry
      (trampolineBytes original hook.request.address otherSize) := by
  apply holds_congr state.memory _ _ _
    (standing.trampolines hook member otherSize displaced)
  intro address inside
  rw [length_trampolineBytes] at inside
  obtain ⟨offset, entry, below⟩ :=
    (standing.placed hook member otherSize displaced).inCave
  have used : state.caveInstSize.toNat ≤ cave.maxCaveSize.toNat :=
    standing.used
  have inCave : Within cave.cavePadFunc cave.maxCaveSize.toNat address := by
    rw [entry] at inside
    apply within_cave cave offset (otherSize + 14) _ address inside
    exact Nat.le_trans below used
  exact hookedMemory_inCave cave state request size fitting address inCave
    (old_trampoline_apart cave original state installed request size standing
      fitting hook member otherSize displaced address inside)

include fitting apart offCave in
/-- The step of the invariant. -/
theorem standing_accepted (next : HookState)
    (initialised : next.once = true)
    (used : next.caveInstSize.toNat = state.caveInstSize.toNat + size + 14)
    (memory : next.memory = hookedMemory cave state request size)
    (boundary : FirstBoundary cave.disassembler
      (codeAt original request.address)
      request.minInstructionSize.toInt.toNat size) :
    Standing cave original
      { state := next
        installed := installed ++
          [{ request := request
             displaced := some size
             entry := cave.cavePadFunc + state.caveInstSize }] } := by
  have room := fitting.room
  refine
    { initialised := fun _ => initialised
      used := ?_
      refused := ?_
      placed := ?_
      jumps := ?_
      trampolines := ?_
      disjoint := ?_
      untouched := ?_ }
  · show next.caveInstSize.toNat ≤ _
    omega
  · intro hook member none
    rcases List.mem_append.mp member with old | new
    · exact standing.refused hook old none
    · cases List.mem_singleton.mp new
      contradiction
  · intro hook member otherSize displaced
    rcases List.mem_append.mp member with old | new
    · obtain ⟨nonzero, ⟨offset, entry, below⟩, hookBoundary, clear⟩ :=
        standing.placed hook old otherSize displaced
      refine ⟨nonzero, ⟨offset, entry, ?_⟩, hookBoundary, clear⟩
      have stateBelow : offset + (otherSize + 14) ≤ state.caveInstSize.toNat :=
        below
      show _ ≤ next.caveInstSize.toNat
      omega
    · cases List.mem_singleton.mp new
      cases displaced
      refine ⟨trampoline_ne_zero cave state standing.used,
        ⟨state.caveInstSize.toNat, entry_offset cave state, ?_⟩, boundary,
        fitting.clear⟩
      show _ ≤ next.caveInstSize.toNat
      omega
  · intro hook member otherSize displaced
    show Holds next.memory _ _
    rw [memory]
    rcases List.mem_append.mp member with old | new
    · exact old_jump_kept cave original state installed request size standing
        fitting apart offCave hook old otherSize displaced
    · cases List.mem_singleton.mp new
      exact hookedMemory_jump cave state request size
  · intro hook member otherSize displaced
    show Holds next.memory _ _
    rw [memory]
    rcases List.mem_append.mp member with old | new
    · exact old_trampoline_kept cave original state installed request size
        standing fitting hook old otherSize displaced
    · cases List.mem_singleton.mp new
      cases displaced
      rw [← trampolineBytes_untouched cave original state installed request
        size standing fitting apart]
      exact hookedMemory_trampoline cave state request size fitting
  · refine List.pairwise_append.mpr ⟨standing.disjoint,
      List.pairwise_singleton _ _, ?_⟩
    intro first old second new otherSize newSize firstDisplaced displaced
    cases List.mem_singleton.mp new
    cases displaced
    exact old_trampoline_apart cave original state installed request size
      standing fitting first old otherSize firstDisplaced
  · intro address outside elsewhere
    show next.memory address = _
    rw [memory, hookedMemory_outside cave state request size fitting address
      outside (elsewhere _ (List.mem_append_right _
        (List.mem_singleton_self _)) size rfl)]
    exact standing.untouched address outside fun hook member =>
      elsewhere hook (List.mem_append_left _ member)

end Step

end HenPlugins.Memory.PrologueHooks
