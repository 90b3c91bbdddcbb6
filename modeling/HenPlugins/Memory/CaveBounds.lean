import HenPlugins.Lib.EventRun
import HenPlugins.Memory.Trampoline

/-!
# Keeping to the code cave

The space check of `CreatePrologueHook` counts the displaced bytes and the jump
but not the return address behind it, so the last eight bytes of a trampoline
may lie behind the cave.
-/

set_option autoImplicit false

namespace HenPlugins.Memory.CaveBounds

open HenPlugins.Lib.ByteMemory
open HenPlugins.Lib.EventRun
open HenPlugins.Memory.CodeCave
open HenPlugins.Memory.Trampoline

structure Call where
  address : Address
  minInstructionSize : BitVec 32

def callHook (cave : Cave) (state : HookState) (call : Call) : HookState :=
  (createPrologueHook cave state call.address call.minInstructionSize).2

/-- The process with the generated pad: `MAX_CAVE_SIZE` times `int3`. -/
def paddedStart (cave : Cave) (code : CodeMemory) : HookState :=
  { memory := fun address =>
      if Within cave.cavePadFunc cave.maxCaveSize.toNat address then 0xcc
      else code address
    caveInstSize := 0
    once := false
    written := [] }

def InCave (cave : Cave) (written : Write) : Prop :=
  ∀ address, Within written.address written.data.length address →
    Within cave.cavePadFunc cave.maxCaveSize.toNat address

/-- The call asks for room for that many displaced bytes. -/
def Asks (cave : Cave) (state : HookState) (call : Call) (size : Nat) : Prop :=
  call.address ≠ 0 ∧ 5 ≤ call.minInstructionSize.toInt ∧
    ∃ instructions, Prologue cave.disassembler
      (caveBlockInit cave state).memory call.address
      call.minInstructionSize.toInt.toNat instructions size

def Fits (cave : Cave) (state : HookState) (size : Nat) : Prop :=
  state.caveInstSize.toNat + (size + 14) ≤ cave.maxCaveSize.toNat

/-- The call writes to the cave only, and refuses what does not fit. -/
structure StepKept (cave : Cave) (state : HookState) (call : Call) : Prop where
  writes : ∀ written ∈ (callHook cave state call).written, InCave cave written
  bounded : (callHook cave state call).caveInstSize.toNat ≤
    cave.maxCaveSize.toNat
  refuses : ∀ size, Asks cave state call size → ¬ Fits cave state size →
    (createPrologueHook cave state call.address
        call.minInstructionSize).1 = 0 ∧
      (callHook cave state call).caveInstSize = state.caveInstSize ∧
      ∀ address, Within cave.cavePadFunc cave.maxCaveSize.toNat address →
        (callHook cave state call).memory address = state.memory address

/-- What the calls asks for, if it passes the check, leaves room for the return
address too.  The first call needs a cave for the test code, and one that can be
padded again if its request is refused. -/
structure StepFits (cave : Cave) (state : HookState) (call : Call) : Prop where
  room : ∀ size, Asks cave state call size →
    state.caveInstSize.toNat + size + 6 ≤ cave.maxCaveSize.toNat →
      Fits cave state size
  testFits : state.once = false → 6 ≤ cave.maxCaveSize.toNat
  padded : state.once = false → cave.maxCaveSize.toNat ≤ maxLen ∨
    ∀ size, Asks cave state call size → Fits cave state size

/-- What every call finds. -/
structure Kept (cave : Cave) (state : HookState) : Prop where
  writes : ∀ written ∈ state.written, InCave cave written
  bounded : state.caveInstSize.toNat ≤ cave.maxCaveSize.toNat
  padded : state.once = false → ∀ address,
    Within cave.cavePadFunc cave.maxCaveSize.toNat address →
      state.memory address = 0xcc

theorem kept_paddedStart (cave : Cave) (code : CodeMemory) :
    Kept cave (paddedStart cave code) where
  writes := by simp [paddedStart]
  bounded := Nat.zero_le _
  padded := by
    intro _ address inside
    exact if_pos inside

section Calling
variable (cave : Cave) (state : HookState) (call : Call)

theorem bounded_of_kept (kept : Kept cave state) :
    Bounded cave (caveBlockInit cave state) := by
  have bounded := kept.bounded
  rw [Bounded, caveBlockInit_caveInstSize]
  omega

theorem callHook_refused (refused : displacedSize cave
    (caveBlockInit cave state) call.address call.minInstructionSize = none) :
    callHook cave state call = caveBlockInit cave state := by
  rw [callHook, createPrologueHook_none cave state _ _ refused]

theorem callHook_accepted (size : Nat) (accepted : displacedSize cave
    (caveBlockInit cave state) call.address call.minInstructionSize =
      some size) :
    callHook cave state call =
      (fillTrampoline cave (caveBlockInit cave state) call.address size).2 := by
  rw [callHook, createPrologueHook_some cave state _ _ size accepted]

theorem callHook_once : (callHook cave state call).once = true := by
  have initialised := caveBlockInit_sets cave state
  cases displaced : displacedSize cave (caveBlockInit cave state) call.address
      call.minInstructionSize with
  | none =>
      rw [callHook_refused cave state call displaced]
      exact initialised
  | some size =>
      rw [callHook_accepted cave state call size displaced]
      exact initialised

/-- The check is passed by what is asked for, with six bytes more. -/
theorem displacedSize_of_asks (kept : Kept cave state) (size : Nat) :
    displacedSize cave (caveBlockInit cave state) call.address
        call.minInstructionSize = some size ↔
      Asks cave state call size ∧
        state.caveInstSize.toNat + size + 6 ≤ cave.maxCaveSize.toNat := by
  rw [displacedSize_eq_some_iff cave _ (bounded_of_kept cave state kept)]
  constructor
  · intro accepted
    obtain ⟨instructions, given, needed, prologue, room⟩ := accepted
    rw [caveBlockInit_caveInstSize] at room
    exact ⟨⟨given, needed, instructions, prologue⟩, room⟩
  · intro asked
    obtain ⟨⟨given, needed, instructions, prologue⟩, room⟩ := asked
    refine ⟨instructions, given, needed, prologue, ?_⟩
    rw [caveBlockInit_caveInstSize]
    exact room

theorem asks_unique (size other : Nat) (asks : Asks cave state call size)
    (otherAsks : Asks cave state call other) : other = size := by
  obtain ⟨-, -, instructions, prologue⟩ := asks
  obtain ⟨-, -, others, otherPrologue⟩ := otherAsks
  exact (covers_unique _ _ _ _ _ _ _ _ prologue.1 otherPrologue.1).2

theorem asks_small (size : Nat) (asks : Asks cave state call size) :
    size ≤ 2 ^ 34 := by
  obtain ⟨-, -, instructions, prologue⟩ := asks
  have bounds := prologue_bounds _ _ _ _ _ _ prologue
  have minBound := minInstructionSize_lt call.minInstructionSize
  omega

theorem accepted_caveInstSize (kept : Kept cave state) (size : Nat)
    (accepted : displacedSize cave (caveBlockInit cave state) call.address
      call.minInstructionSize = some size) :
    (callHook cave state call).caveInstSize.toNat =
      state.caveInstSize.toNat + size + 14 := by
  have asks := ((displacedSize_of_asks cave state call kept size).mp
    accepted).1
  rw [callHook_accepted cave state call size accepted,
    fillTrampoline_caveInstSize cave _ (bounded_of_kept cave state kept) _
      size (asks_small cave state call size asks),
    caveBlockInit_caveInstSize]

theorem caveBlockInit_written (fresh : state.once = false) :
    (caveBlockInit cave state).written = state.written ++
      ({ address := cave.cavePadFunc, data := caveTest } : Write) ::
        (if maxLen < cave.maxCaveSize.toNat then []
          else [{ address := cave.cavePadFunc
                  data := List.replicate cave.maxCaveSize.toNat 0xcc }]) := by
  unfold caveBlockInit sysProcMemset
  rw [if_neg (by rw [fresh]; decide)]
  simp only
  split
  · rfl
  · simp only [sysProcRw, List.append_assoc]
    rfl

theorem caveBlockInit_inCave (kept : Kept cave state)
    (testFits : state.once = false → 6 ≤ cave.maxCaveSize.toNat) :
    ∀ written ∈ (caveBlockInit cave state).written, InCave cave written := by
  by_cases initialised : state.once = true
  · rw [caveBlockInit_once cave state initialised]
    exact kept.writes
  · have fresh : state.once = false := by simpa using initialised
    rw [caveBlockInit_written cave state fresh]
    intro written member
    rcases List.mem_append.mp member with old | new
    · exact kept.writes written old
    · rcases List.mem_cons.mp new with rfl | pad
      · intro address inside
        exact within_mono _ _ _ (testFits fresh) address inside
      · split at pad
        · contradiction
        · cases List.mem_singleton.mp pad
          intro address inside
          rw [List.length_replicate] at inside
          exact inside

theorem caveBlockInit_padded (kept : Kept cave state)
    (small : state.once = false → cave.maxCaveSize.toNat ≤ maxLen)
    (address : Address)
    (inside : Within cave.cavePadFunc cave.maxCaveSize.toNat address) :
    (caveBlockInit cave state).memory address = state.memory address := by
  by_cases initialised : state.once = true
  · rw [caveBlockInit_once cave state initialised]
  · have fresh : state.once = false := by simpa using initialised
    have allowed : ¬ maxLen < cave.maxCaveSize.toNat := by
      have := small fresh
      omega
    simp only [caveBlockInit, sysProcMemset, fresh, Bool.false_eq_true,
      if_false, if_neg allowed]
    rw [kept.padded fresh address inside]
    show write _ _ _ address = _
    rw [write]
    have index : (address - cave.cavePadFunc).toNat <
        cave.maxCaveSize.toNat := inside
    rw [List.getElem?_replicate, if_pos index]
    rfl

theorem caveBlockInit_unpadded (fresh : state.once = false)
    (large : maxLen < cave.maxCaveSize.toNat) :
    (caveBlockInit cave state).memory cave.cavePadFunc = 0xB8 := by
  simp only [caveBlockInit, sysProcMemset, fresh, Bool.false_eq_true, if_false,
    if_pos large]
  show write _ _ _ _ = _
  rw [write, BitVec.sub_self]
  rfl

theorem accepted_inCave (size : Nat)
    (accepted : displacedSize cave (caveBlockInit cave state) call.address
      call.minInstructionSize = some size)
    (fits : Fits cave state size)
    (initialised : ∀ written ∈ (caveBlockInit cave state).written,
      InCave cave written) :
    ∀ written ∈ (callHook cave state call).written, InCave cave written := by
  rw [callHook_accepted cave state call size accepted]
  rw [Fits] at fits
  have part : ∀ (offset : Nat) (data : List UInt8),
      offset + data.length ≤ size + 14 →
      InCave cave
        { address := cave.cavePadFunc + BitVec.ofNat 64
            (state.caveInstSize.toNat + offset), data := data } := by
    intro offset data inside address within
    exact within_cave cave (state.caveInstSize.toNat + offset) data.length
      (by omega) address within
  simp only [fillTrampoline, sysProcRw, caveBlockInit_caveInstSize,
    entry_offset, BitVec.add_assoc, ← BitVec.ofNat_add]
  intro written member
  rcases List.mem_append.mp member with before | pointer
  · rcases List.mem_append.mp before with before | stub
    · rcases List.mem_append.mp before with old | copy
      · exact initialised written old
      · rw [List.mem_singleton.mp copy]
        exact part 0 _ (by rw [length_read]; omega)
    · rw [List.mem_singleton.mp stub]
      exact part size _ (by rw [length_jmpStub]; omega)
  · rw [List.mem_singleton.mp pointer]
    exact part (size + 6) _ (by rw [length_littleEndian])

theorem caveBlockInit_written_kept (written : Write)
    (member : written ∈ (caveBlockInit cave state).written) :
    written ∈ (callHook cave state call).written := by
  cases displaced : displacedSize cave (caveBlockInit cave state) call.address
      call.minInstructionSize with
  | none =>
      rw [callHook_refused cave state call displaced]
      exact member
  | some size =>
      rw [callHook_accepted cave state call size displaced]
      simp only [fillTrampoline, sysProcRw, List.append_assoc]
      exact List.mem_append_left _ member

theorem refused_of_not_fits (kept : Kept cave state)
    (room : ∀ size, Asks cave state call size →
      state.caveInstSize.toNat + size + 6 ≤ cave.maxCaveSize.toNat →
        Fits cave state size)
    (size : Nat) (asks : Asks cave state call size)
    (oversized : ¬ Fits cave state size) :
    displacedSize cave (caveBlockInit cave state) call.address
      call.minInstructionSize = none := by
  cases displaced : displacedSize cave (caveBlockInit cave state) call.address
      call.minInstructionSize with
  | none => rfl
  | some other =>
      obtain ⟨otherAsks, checked⟩ :=
        (displacedSize_of_asks cave state call kept other).mp displaced
      rw [asks_unique cave state call size other asks otherAsks] at checked
      exact absurd (room size asks checked) oversized

theorem testFits_of_stepKept (fresh : state.once = false)
    (stepKept : StepKept cave state call) : 6 ≤ cave.maxCaveSize.toNat := by
  have test : ({ address := cave.cavePadFunc, data := caveTest } : Write) ∈
      (caveBlockInit cave state).written := by
    rw [caveBlockInit_written cave state fresh]
    exact List.mem_append_right _ (List.mem_cons_self ..)
  have last := stepKept.writes _
    (caveBlockInit_written_kept cave state call _ test)
    (cave.cavePadFunc + BitVec.ofNat 64 5)
    (within_add cave.cavePadFunc caveTest.length 5 (by decide))
  rw [Within, offset_of_add, Nat.mod_eq_of_lt (by decide)] at last
  omega

theorem room_of_stepKept (kept : Kept cave state)
    (stepKept : StepKept cave state call) (size : Nat)
    (asks : Asks cave state call size)
    (checked : state.caveInstSize.toNat + size + 6 ≤
      cave.maxCaveSize.toNat) : Fits cave state size := by
  have used := accepted_caveInstSize cave state call kept size
    ((displacedSize_of_asks cave state call kept size).mpr ⟨asks, checked⟩)
  have bounded := stepKept.bounded
  rw [Fits]
  omega

/-- In a large cave the test code stays, so the first request must not be
refused for its size. -/
theorem padded_of_stepKept (kept : Kept cave state)
    (stepKept : StepKept cave state call) (fresh : state.once = false) :
    cave.maxCaveSize.toNat ≤ maxLen ∨
      ∀ size, Asks cave state call size → Fits cave state size := by
  by_contra neither
  rw [not_or, Nat.not_le] at neither
  obtain ⟨large, oversized⟩ := neither
  push Not at oversized
  obtain ⟨size, asks, oversized⟩ := oversized
  have refused := refused_of_not_fits cave state call kept
    (room_of_stepKept cave state call kept stepKept) size asks oversized
  have first : Within cave.cavePadFunc cave.maxCaveSize.toNat
      cave.cavePadFunc := by
    rw [Within, BitVec.sub_self]
    exact Nat.lt_of_le_of_lt (Nat.zero_le maxLen) large
  have same := (stepKept.refuses size asks oversized).2.2 _ first
  rw [callHook_refused cave state call refused,
    caveBlockInit_unpadded cave state fresh large,
    kept.padded fresh _ first] at same
  contradiction

theorem writes_of_stepFits (kept : Kept cave state)
    (fits : StepFits cave state call) :
    ∀ written ∈ (callHook cave state call).written, InCave cave written := by
  have initialised := caveBlockInit_inCave cave state kept fits.testFits
  cases displaced : displacedSize cave (caveBlockInit cave state)
      call.address call.minInstructionSize with
  | none =>
      rw [callHook_refused cave state call displaced]
      exact initialised
  | some size =>
      obtain ⟨asks, checked⟩ :=
        (displacedSize_of_asks cave state call kept size).mp displaced
      exact accepted_inCave cave state call size displaced
        (fits.room size asks checked) initialised

theorem bounded_of_stepFits (kept : Kept cave state)
    (fits : StepFits cave state call) :
    (callHook cave state call).caveInstSize.toNat ≤
      cave.maxCaveSize.toNat := by
  cases displaced : displacedSize cave (caveBlockInit cave state)
      call.address call.minInstructionSize with
  | none =>
      rw [callHook_refused cave state call displaced,
        caveBlockInit_caveInstSize]
      exact kept.bounded
  | some size =>
      obtain ⟨asks, checked⟩ :=
        (displacedSize_of_asks cave state call kept size).mp displaced
      have room := fits.room size asks checked
      rw [accepted_caveInstSize cave state call kept size displaced]
      rw [Fits] at room
      omega

theorem stepKept_iff (kept : Kept cave state) :
    StepKept cave state call ↔ StepFits cave state call := by
  constructor
  · intro stepKept
    exact ⟨room_of_stepKept cave state call kept stepKept,
      fun fresh => testFits_of_stepKept cave state call fresh stepKept,
      padded_of_stepKept cave state call kept stepKept⟩
  · intro fits
    refine ⟨writes_of_stepFits cave state call kept fits,
      bounded_of_stepFits cave state call kept fits, ?_⟩
    intro size asks oversized
    have refused := refused_of_not_fits cave state call kept fits.room size
      asks oversized
    rw [callHook_refused cave state call refused,
      createPrologueHook_none cave state _ _ refused]
    refine ⟨rfl, caveBlockInit_caveInstSize cave state, ?_⟩
    apply caveBlockInit_padded cave state kept
    intro fresh
    rcases fits.padded fresh with small | allFit
    · exact small
    · exact absurd (allFit size asks) oversized

theorem kept_callHook (stepKept : StepKept cave state call) :
    Kept cave (callHook cave state call) where
  writes := stepKept.writes
  bounded := stepKept.bounded
  padded := by
    intro fresh
    rw [callHook_once] at fresh
    contradiction

end Calling

/-- Trampolines stay in the cave exactly in the runs whose calls all leave room
for the return address. -/
theorem trampolines_inCave_iff (cave : Cave) (code : CodeMemory)
    (calls : List Call) :
    EveryStep (callHook cave) (StepKept cave) (paddedStart cave code) calls ↔
      EveryStep (callHook cave) (StepFits cave) (paddedStart cave code)
        calls := by
  apply everyStep_iff (callHook cave) (StepKept cave) (StepFits cave)
    (Kept cave)
  · intro state call kept
    exact stepKept_iff cave state call kept
  · intro state call _ stepKept
    exact kept_callHook cave state call stepKept
  · exact kept_paddedStart cave code

/-- Two hooks of fifteen `nop` in a cave of fifty bytes. -/
def narrowCave : Cave := shortCave 50 (by decide)

theorem narrowCave_overrun :
    ¬ EveryStep (callHook narrowCave) (StepKept narrowCave)
      (paddedStart narrowCave fun _ => 0x90)
      [{ address := 0x1000, minInstructionSize := 15 },
        { address := 0x1100, minInstructionSize := 15 }] := by
  intro kept
  obtain ⟨-, second, -⟩ := kept
  have bounded := second.bounded
  revert bounded
  decide +kernel

end HenPlugins.Memory.CaveBounds
