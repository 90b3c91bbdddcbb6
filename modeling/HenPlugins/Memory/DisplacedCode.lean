import HenPlugins.Memory.HookRun

/-!
# The displaced instructions

`CreatePrologueHook` looks at the error flag of each instruction and at nothing
else.  The trampoline is a verbatim copy, so it decodes to the same
instructions, also where their meaning depends on where they stand.
-/

set_option autoImplicit false

namespace HenPlugins.Memory.DisplacedCode

open HenPlugins.Lib.ByteMemory
open HenPlugins.Memory.CodeCave
open HenPlugins.Memory.Trampoline
open HenPlugins.Memory.PrologueHooks
open HenPlugins.Memory.HookRun

/-- A relative branch, or an operand addressed through `rip`. -/
def dependsOnAddress (hs : Hde64s) : Bool :=
  hs.hasFlag fRelative ||
    (hs.hasFlag fModrm && hs.modrmMod == 0 && hs.modrmRm == 5)

/-- A returned trampoline holds no instruction that depends on its address. -/
def OnlyMovable (cave : Cave) (state : HookState) (address : Address)
    (minInstructionSize : BitVec 32) : Prop :=
  (createPrologueHook cave state address minInstructionSize).1 ≠ 0 →
    ∀ instructions size, Prologue cave.disassembler
      (caveBlockInit cave state).memory address
      minInstructionSize.toInt.toNat instructions size →
    ∀ hs ∈ instructions, dependsOnAddress hs = false

section Call
variable (cave : Cave) (state : HookState) (address : Address)
  (minInstructionSize : BitVec 32)

/-- Zero is returned, and no trampoline is written. -/
structure Refused : Prop where
  zero : (createPrologueHook cave state address minInstructionSize).1 = 0
  unwritten : (createPrologueHook cave state address minInstructionSize).2 =
    caveBlockInit cave state

/-- The trampoline returned decodes to the displaced instructions, and leads
back behind them. -/
structure Copied (instructions : List Hde64s) (size : Nat) : Prop where
  nonzero : (createPrologueHook cave state address minInstructionSize).1 ≠ 0
  verbatim : ∀ index < size,
    (createPrologueHook cave state address minInstructionSize).2.memory
        ((createPrologueHook cave state address minInstructionSize).1 +
          BitVec.ofNat 64 index) =
      (caveBlockInit cave state).memory (address + BitVec.ofNat 64 index)
  decoded : Prologue cave.disassembler
    (createPrologueHook cave state address minInstructionSize).2.memory
    (createPrologueHook cave state address minInstructionSize).1
    minInstructionSize.toInt.toNat instructions size
  back : jumpTarget
    (createPrologueHook cave state address minInstructionSize).2.memory
    ((createPrologueHook cave state address minInstructionSize).1 +
      BitVec.ofNat 64 size) = some (address + BitVec.ofNat 64 size)

theorem prologue_copied (memory : CodeMemory) (entry : Address)
    (minSize size : Nat) (instructions : List Hde64s)
    (prologue : Prologue cave.disassembler state.memory address minSize
      instructions size)
    (verbatim : ∀ index < size, memory (entry + BitVec.ofNat 64 index) =
      state.memory (address + BitVec.ofNat 64 index)) :
    Prologue cave.disassembler memory entry minSize instructions size :=
  ⟨covers_congr cave.disassembler _ _ minSize 0 size instructions prologue.1
    verbatim, prologue.2⟩

theorem copied_of_accepted (bounded : Bounded cave state)
    (instructions : List Hde64s) (size : Nat)
    (accepted : Accepted cave (caveBlockInit cave state) address
      minInstructionSize instructions size) :
    Copied cave state address minInstructionSize instructions size := by
  have ready := caveBlockInit_bounded cave state bounded
  have displaced := (displacedSize_eq_some_iff cave _ ready address
    minInstructionSize size).mpr ⟨instructions, accepted⟩
  have bounds := prologue_bounds _ _ _ _ _ _ accepted.prologue
  have minBound := minInstructionSize_lt minInstructionSize
  have memory := fillTrampoline_memory cave (caveBlockInit cave state) address
    size (by omega)
  have hooked := createPrologueHook_some cave state address
    minInstructionSize size displaced
  have holds := holds_write (caveBlockInit cave state).memory
    (cave.cavePadFunc + (caveBlockInit cave state).caveInstSize)
    (HenPlugins.Lib.ByteMemory.read (caveBlockInit cave state).memory address
      size ++ jumpBytes (address + BitVec.ofNat 64 size)) (by
        rw [List.length_append, length_read, length_jumpBytes]
        omega)
  rw [← memory] at holds
  obtain ⟨copy, back⟩ := (holds_append _ _ _ _).mp holds
  rw [length_read] at back
  have verbatim : ∀ index < size,
      (fillTrampoline cave (caveBlockInit cave state) address size).2.memory
          ((fillTrampoline cave (caveBlockInit cave state) address size).1 +
            BitVec.ofNat 64 index) =
        (caveBlockInit cave state).memory
          (address + BitVec.ofNat 64 index) := by
    intro index inside
    exact copy index _ (getElem?_read _ _ size index inside)
  have used : (caveBlockInit cave state).caveInstSize.toNat ≤
      cave.maxCaveSize.toNat := by
    have room := accepted.room
    omega
  refine ⟨?_, ?_, ?_, ?_⟩
  · rw [hooked]
    exact trampoline_ne_zero cave _ used
  · rw [hooked]
    exact verbatim
  · rw [hooked]
    exact prologue_copied cave _ address _ _ _ size instructions
      accepted.prologue verbatim
  · rw [hooked]
    exact jumpTarget_of_holds _ _ _ back

theorem refused_of_unaccepted (bounded : Bounded cave state)
    (unaccepted : ∀ instructions size,
      ¬ Accepted cave (caveBlockInit cave state) address minInstructionSize
        instructions size) :
    Refused cave state address minInstructionSize := by
  have ready := caveBlockInit_bounded cave state bounded
  cases displaced : displacedSize cave (caveBlockInit cave state) address
      minInstructionSize with
  | none =>
      have refused := createPrologueHook_none cave state address
        minInstructionSize displaced
      exact ⟨by rw [refused], by rw [refused]⟩
  | some size =>
      obtain ⟨instructions, accepted⟩ := (displacedSize_eq_some_iff cave _
        ready address minInstructionSize size).mp displaced
      exact absurd accepted (unaccepted instructions size)

end Call

theorem install_bounded (cave : Cave) (session : Session) (request : Request)
    (bounded : Bounded cave session.state) :
    Bounded cave (install cave session request).state := by
  have hooked := createPrologueHook_bounded cave session.state bounded
    request.address request.minInstructionSize
  rw [install]
  simp only
  split
  · exact hooked
  · exact hooked

theorem installAll_bounded (cave : Cave) (session : Session)
    (requests : List Request) (bounded : Bounded cave session.state) :
    Bounded cave (installAll cave session requests).state := by
  induction requests generalizing session with
  | nil => exact bounded
  | cons request requests ih =>
      exact ih _ (install_bounded cave session request bounded)

/-- After any installs: an error-free prologue with room for it is copied
whatever its instructions depend on, and anything else is refused. -/
theorem displaced_code_copied (cave : Cave) (memory : CodeMemory)
    (earlier : List Request) (address : Address)
    (minInstructionSize : BitVec 32) :
    (∀ instructions size, Accepted cave
        (caveBlockInit cave
          (installAll cave (processStart memory) earlier).state)
        address minInstructionSize instructions size →
      Copied cave (installAll cave (processStart memory) earlier).state address
        minInstructionSize instructions size) ∧
    ((∀ instructions size, ¬ Accepted cave
        (caveBlockInit cave
          (installAll cave (processStart memory) earlier).state)
        address minInstructionSize instructions size) →
      Refused cave (installAll cave (processStart memory) earlier).state
        address minInstructionSize) := by
  have bounded := installAll_bounded cave (processStart memory) earlier
    (Nat.zero_le _)
  constructor
  · intro instructions size accepted
    exact copied_of_accepted cave _ address minInstructionSize bounded
      instructions size accepted
  · intro unaccepted
    exact refused_of_unaccepted cave _ address minInstructionSize bounded
      unaccepted

/-- A `jmp rel32` in front of a `nop` sled. -/
def jumpCode (address : Address) : UInt8 :=
  if address = 0x1000 then 0xE9 else 0x90

theorem relativeJump_not_onlyMovable :
    ¬ OnlyMovable sledCave (processStart jumpCode).state 0x1000 15 := by
  intro onlyMovable
  have hooked : (createPrologueHook sledCave (processStart jumpCode).state
      0x1000 15).1 ≠ 0 := by
    decide +kernel
  have displaced : displacedSize sledCave
      (caveBlockInit sledCave (processStart jumpCode).state) 0x1000 15 =
        some 15 := by
    decide +kernel
  obtain ⟨instructions, accepted⟩ := (displacedSize_eq_some_iff sledCave _
    (caveBlockInit_bounded sledCave _ (Nat.zero_le _)) 0x1000 15 15).mp
    displaced
  have movable := onlyMovable hooked instructions 15 accepted.prologue
  cases accepted.prologue.1 with
  | step _ _ later _ _ =>
      have first := movable _ (List.mem_cons_self ..)
      revert first
      decide +kernel

end HenPlugins.Memory.DisplacedCode
