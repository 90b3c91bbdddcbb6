import HenPlugins.Memory.CodeCave

/-!
# What one call of `CreatePrologueHook` does

The checks are passed exactly by an error-free prologue for which there is
room; the three writes of a trampoline are one, and reading a written jump
back gives its destination.
-/

set_option autoImplicit false

namespace HenPlugins.Memory.Trampoline

open HenPlugins.Lib.ByteMemory
open HenPlugins.Memory.CodeCave

def jumpBytes (destination : Address) : List UInt8 :=
  jmpStub ++ littleEndian 8 destination.toNat

/-- Where `jmp qword ptr [$+6]` leads, if this instruction is at the address. -/
def jumpTarget (memory : CodeMemory) (address : Address) : Option Address :=
  if read memory address jmpStub.length = jmpStub then
    some (BitVec.ofNat 64 (fromLittleEndian
      (read memory (address + BitVec.ofNat 64 jmpStub.length) 8)))
  else none

@[simp] theorem length_jmpStub : jmpStub.length = 6 := rfl

@[simp] theorem length_jumpBytes (destination : Address) :
    (jumpBytes destination).length = 14 := by
  rw [jumpBytes, List.length_append, length_littleEndian, length_jmpStub]

theorem jumpTarget_of_holds (memory : CodeMemory)
    (address destination : Address)
    (holds : Holds memory address (jumpBytes destination)) :
    jumpTarget memory address = some destination := by
  obtain ⟨stub, pointer⟩ := (holds_append memory address jmpStub _).mp holds
  have stubRead := read_of_holds memory address jmpStub stub
  have pointerRead := read_of_holds memory _ _ pointer
  rw [length_littleEndian] at pointerRead
  have bounded : destination.toNat % 256 ^ 8 = destination.toNat :=
    Nat.mod_eq_of_lt destination.isLt
  rw [jumpTarget]
  rw [if_pos stubRead, pointerRead, fromLittleEndian_littleEndian, bounded,
    BitVec.ofNat_toNat, BitVec.setWidth_eq]

theorem writeJump64_memory (state : HookState) (src dst : Address) :
    (writeJump64 state src dst).memory =
      write state.memory src (jumpBytes dst) := by
  apply write_append
  rw [length_littleEndian, length_jmpStub]
  decide

section Hooking
variable (cave : Cave) (state : HookState)

theorem caveBlockInit_once (initialised : state.once = true) :
    caveBlockInit cave state = state := by
  rw [caveBlockInit, if_pos initialised]

@[simp] theorem caveBlockInit_sets : (caveBlockInit cave state).once = true := by
  rw [caveBlockInit]
  split
  · assumption
  · rfl

@[simp] theorem sysProcMemset_caveInstSize (src : Address) (c : UInt8)
    (len : Nat) :
    (sysProcMemset state src c len).caveInstSize = state.caveInstSize := by
  rw [sysProcMemset]
  split <;> rfl

@[simp] theorem caveBlockInit_caveInstSize :
    (caveBlockInit cave state).caveInstSize = state.caveInstSize := by
  rw [caveBlockInit]
  split
  · rfl
  · exact sysProcMemset_caveInstSize _ _ _ _

/-- The initialisation keeps to a cave that holds its test code. -/
theorem caveBlockInit_outside (testFits : 6 ≤ cave.maxCaveSize.toNat)
    (address : Address)
    (outside : ¬ Within cave.cavePadFunc cave.maxCaveSize.toNat address) :
    (caveBlockInit cave state).memory address = state.memory address := by
  have beyondTest : ¬ Within cave.cavePadFunc caveTest.length address := by
    intro inside
    exact outside (within_mono _ caveTest.length _ testFits address inside)
  have tested : (sysProcRw state cave.cavePadFunc caveTest).memory address =
      state.memory address :=
    write_outside _ _ _ _ beyondTest
  unfold caveBlockInit sysProcMemset
  split
  · rfl
  · split
    · exact tested
    · refine Eq.trans (write_outside _ _ _ _ ?_) tested
      rw [List.length_replicate]
      exact outside

theorem covers_unique (disassembler : Disassembler) (code : Nat → UInt8)
    (minSize offset stop otherStop : Nat) (instructions others : List Hde64s)
    (covers : Covers disassembler code minSize offset instructions stop)
    (otherCovers : Covers disassembler code minSize offset others otherStop) :
    others = instructions ∧ otherStop = stop := by
  induction covers generalizing others with
  | done offset enough =>
      cases otherCovers with
      | done _ _ => exact ⟨rfl, rfl⟩
      | step _ short _ _ _ => omega
  | step offset short later stop rest ih =>
      cases otherCovers with
      | done _ enough => omega
      | step _ _ otherLater _ otherRest =>
          obtain ⟨same, sameStop⟩ := ih otherLater otherRest
          exact ⟨by rw [same], sameStop⟩

/-- A prologue of the size the disassembler accepts. -/
def Prologue (disassembler : Disassembler) (memory : CodeMemory)
    (address : Address) (minSize : Nat) (instructions : List Hde64s)
    (size : Nat) : Prop :=
  Covers disassembler (codeAt memory address) minSize 0 instructions size ∧
    ErrorFree instructions

theorem prologue_bounds (disassembler : Disassembler) (memory : CodeMemory)
    (address : Address) (minSize size : Nat) (instructions : List Hde64s)
    (prologue : Prologue disassembler memory address minSize instructions
      size) : minSize ≤ size ∧ size ≤ minSize + 2 ^ 32 := by
  have bounds := covers_bounds disassembler _ minSize 0 size instructions
    prologue.1
  omega

theorem getInstructionSize_eq_iff (disassembler : Disassembler)
    (memory : CodeMemory) (address : Address) (minSize size : Nat)
    (given : address ≠ 0) (some : 0 < size) :
    getInstructionSize disassembler memory address minSize = size ↔
      ∃ instructions,
        Prologue disassembler memory address minSize instructions size := by
  obtain ⟨instructions, stop, covers, outcome⟩ := instructionLoop_spec
    disassembler (codeAt memory address) minSize minSize 0 (by omega)
  rw [getInstructionSize, if_neg given]
  constructor
  · intro computed
    rcases outcome with ⟨clean, value⟩ | ⟨-, value⟩
    · rw [value] at computed
      subst computed
      exact ⟨instructions, covers, clean⟩
    · omega
  · intro prologue
    obtain ⟨others, otherCovers, otherClean⟩ := prologue
    obtain ⟨rfl, rfl⟩ := covers_unique disassembler _ minSize 0 stop size
      instructions others covers otherCovers
    rcases outcome with ⟨-, value⟩ | ⟨unclean, -⟩
    · exact value
    · exact absurd otherClean unclean

/-- A bound that every state a program reaches meets. -/
def Bounded : Prop :=
  state.caveInstSize.toNat ≤ cave.maxCaveSize.toNat + 8

theorem newSize_toNat (bounded : Bounded cave state) (size more : Nat)
    (small : size ≤ 2 ^ 34) (few : more ≤ 14) :
    (state.caveInstSize + BitVec.ofNat 64 size +
        BitVec.ofNat 64 more).toNat =
      state.caveInstSize.toNat + size + more := by
  have space := cave.inUserSpace
  rw [Bounded] at bounded
  rw [BitVec.toNat_add, BitVec.toNat_add, BitVec.toNat_ofNat,
    BitVec.toNat_ofNat]
  omega

theorem minInstructionSize_lt (minInstructionSize : BitVec 32) :
    minInstructionSize.toInt.toNat < 2 ^ 31 := by
  have bound := @BitVec.toInt_lt 32 minInstructionSize
  omega

/-- What the checks require: no instruction is looked at but for its error
flag, and the room asked for leaves out the return address. -/
structure Accepted (address : Address) (minInstructionSize : BitVec 32)
    (instructions : List Hde64s) (size : Nat) : Prop where
  given : address ≠ 0
  needed : 5 ≤ minInstructionSize.toInt
  prologue : Prologue cave.disassembler state.memory address
    minInstructionSize.toInt.toNat instructions size
  room : state.caveInstSize.toNat + size + 6 ≤ cave.maxCaveSize.toNat

/-- The space check, without the wrap of its sum. -/
theorem validnateBlockSize_iff (bounded : Bounded cave state) (intSize : Nat)
    (small : intSize ≤ 2 ^ 34) :
    validnateBlockSize cave.maxCaveSize (state.caveInstSize +
        BitVec.ofNat 64 intSize + BitVec.ofNat 64 jmpStub.length) = false ↔
      ¬ state.caveInstSize.toNat + intSize + 6 ≤ cave.maxCaveSize.toNat := by
  have total := newSize_toNat cave state bounded intSize jmpStub.length small
    (by decide)
  rw [length_jmpStub] at total
  have compared : cave.maxCaveSize < state.caveInstSize +
      BitVec.ofNat 64 intSize + BitVec.ofNat 64 6 ↔
        cave.maxCaveSize.toNat < state.caveInstSize.toNat + intSize + 6 := by
    rw [BitVec.lt_def, total]
  rw [validnateBlockSize, length_jmpStub]
  split
  · rename_i tooLarge
    rw [compared] at tooLarge
    simp only [true_iff]
    omega
  · rename_i fits
    rw [compared] at fits
    simp only [Bool.true_eq_false, false_iff, not_not]
    omega

theorem displacedSize_eq_some_iff (bounded : Bounded cave state)
    (address : Address) (minInstructionSize : BitVec 32) (size : Nat) :
    displacedSize cave state address minInstructionSize = some size ↔
      ∃ instructions,
        Accepted cave state address minInstructionSize instructions size := by
  have minBound := minInstructionSize_lt minInstructionSize
  rw [displacedSize]
  constructor
  · intro accepted
    split at accepted
    · contradiction
    · rename_i passed
      rw [not_or, Int.not_lt] at passed
      simp only at accepted
      split at accepted
      · contradiction
      · rename_i sized
        cases Option.some.inj accepted
        obtain ⟨nonempty, room⟩ := not_or.mp sized
        obtain ⟨instructions, prologue⟩ := (getInstructionSize_eq_iff
          cave.disassembler state.memory address _ _ passed.1
          (Nat.pos_of_ne_zero nonempty)).mp rfl
        have bounds := prologue_bounds _ _ _ _ _ _ prologue
        refine ⟨instructions, passed.1, passed.2, prologue, ?_⟩
        rw [validnateBlockSize_iff cave state bounded _ (by omega),
          not_not] at room
        exact room
  · intro accepted
    obtain ⟨instructions, given, needed, prologue, room⟩ := accepted
    have bounds := prologue_bounds _ _ _ _ _ _ prologue
    have computed := (getInstructionSize_eq_iff cave.disassembler state.memory
      address _ size given (by omega)).mpr ⟨instructions, prologue⟩
    rw [if_neg (by rw [not_or, Int.not_lt]; exact ⟨given, needed⟩)]
    simp only [computed]
    rw [if_neg]
    rw [not_or, validnateBlockSize_iff cave state bounded size (by omega),
      not_not]
    exact ⟨by omega, room⟩

theorem fillTrampoline_memory (address : Address) (size : Nat)
    (small : size ≤ 2 ^ 34) :
    (fillTrampoline cave state address size).2.memory =
      write state.memory (cave.cavePadFunc + state.caveInstSize)
        (read state.memory address size ++
          jumpBytes (address + BitVec.ofNat 64 size)) := by
  have copiedLength := length_read state.memory address size
  have stubbed := write_append state.memory
    (cave.cavePadFunc + state.caveInstSize) (read state.memory address size)
    jmpStub (by rw [copiedLength, length_jmpStub]; omega)
  have filled := write_append state.memory
    (cave.cavePadFunc + state.caveInstSize)
    (read state.memory address size ++ jmpStub)
    (littleEndian 8 (address + BitVec.ofNat 64 size).toNat) (by
      rw [List.length_append, copiedLength, length_jmpStub,
        length_littleEndian]
      omega)
  rw [copiedLength] at stubbed
  rw [List.length_append, copiedLength, BitVec.ofNat_add, ← BitVec.add_assoc,
    List.append_assoc] at filled
  rw [← stubbed] at filled
  exact filled

theorem fillTrampoline_caveInstSize (bounded : Bounded cave state)
    (address : Address) (size : Nat) (small : size ≤ 2 ^ 34) :
    (fillTrampoline cave state address size).2.caveInstSize.toNat =
      state.caveInstSize.toNat + size + 14 := by
  have total := newSize_toNat cave state bounded size 14 small (by omega)
  rw [BitVec.add_assoc, ← BitVec.ofNat_add] at total
  exact total

theorem createPrologueHook_none (address : Address)
    (minInstructionSize : BitVec 32)
    (refused : displacedSize cave (caveBlockInit cave state) address
      minInstructionSize = none) :
    createPrologueHook cave state address minInstructionSize =
      (0, caveBlockInit cave state) := by
  simp only [createPrologueHook, refused]

theorem createPrologueHook_some (address : Address)
    (minInstructionSize : BitVec 32) (size : Nat)
    (accepted : displacedSize cave (caveBlockInit cave state) address
      minInstructionSize = some size) :
    createPrologueHook cave state address minInstructionSize =
      fillTrampoline cave (caveBlockInit cave state) address size := by
  simp only [createPrologueHook, accepted]

theorem caveBlockInit_bounded (bounded : Bounded cave state) :
    Bounded cave (caveBlockInit cave state) := by
  rw [Bounded, caveBlockInit_caveInstSize]
  exact bounded

theorem createPrologueHook_bounded (bounded : Bounded cave state)
    (address : Address) (minInstructionSize : BitVec 32) :
    Bounded cave
      (createPrologueHook cave state address minInstructionSize).2 := by
  have ready := caveBlockInit_bounded cave state bounded
  cases displaced : displacedSize cave (caveBlockInit cave state) address
      minInstructionSize with
  | none =>
      rw [createPrologueHook_none cave state address _ displaced]
      exact ready
  | some size =>
      obtain ⟨instructions, -, -, prologue, room⟩ :=
        (displacedSize_eq_some_iff cave _ ready address _ size).mp displaced
      have bounds := prologue_bounds _ _ _ _ _ _ prologue
      have minBound := minInstructionSize_lt minInstructionSize
      rw [createPrologueHook_some cave state address _ size displaced]
      rw [Bounded]
      rw [fillTrampoline_caveInstSize cave _ ready address size (by omega)]
      omega

theorem entry_offset : cave.cavePadFunc + state.caveInstSize =
    cave.cavePadFunc + BitVec.ofNat 64 state.caveInstSize.toNat := by
  rw [BitVec.ofNat_toNat, BitVec.setWidth_eq]

/-- A part of the cave. -/
theorem within_cave (offset count : Nat)
    (fits : offset + count ≤ cave.maxCaveSize.toNat) (address : Address)
    (inside : Within (cave.cavePadFunc + BitVec.ofNat 64 offset) count
      address) : Within cave.cavePadFunc cave.maxCaveSize.toNat address := by
  have space := cave.inUserSpace
  exact within_mono _ _ _ fits address
    (within_of_later _ offset count (by omega) address inside)

/-- A trampoline is never at address zero. -/
theorem trampoline_ne_zero
    (inside : state.caveInstSize.toNat ≤ cave.maxCaveSize.toNat) :
    cave.cavePadFunc + state.caveInstSize ≠ 0 := by
  intro zero
  have space := cave.inUserSpace
  have number := congrArg BitVec.toNat zero
  rw [BitVec.toNat_add, Nat.mod_eq_of_lt (by omega)] at number
  apply cave.notNull
  apply BitVec.eq_of_toNat_eq
  rw [BitVec.ofNat_eq_ofNat, BitVec.toNat_ofNat, Nat.zero_mod] at number ⊢
  omega

end Hooking

end HenPlugins.Memory.Trampoline
