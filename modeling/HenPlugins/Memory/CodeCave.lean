import HenPlugins.Lib.ByteMemory

/-!
# Prologue hooks in the code cave

`CreatePrologueHook` copies the instructions it displaces into `cavePadFunc`
and puts a jump back behind them; `WriteJump64` then redirects the function.
The disassembler is a parameter, and every write to the process is recorded.
-/

set_option autoImplicit false

namespace HenPlugins.Memory.CodeCave

open HenPlugins.Lib.ByteMemory

abbrev Address := BitVec 64

abbrev CodeMemory := Address → UInt8

structure Hde64s where
  len : Nat
  flags : BitVec 32
  modrmMod : UInt8
  modrmRm : UInt8
  deriving DecidableEq

def fModrm : BitVec 32 := 0x00000001
def fRelative : BitVec 32 := 0x00000200
def fError : BitVec 32 := 0x00001000

def Hde64s.hasFlag (hs : Hde64s) (flag : BitVec 32) : Bool :=
  hs.flags &&& flag != 0

/-- `hde64_disasm`: what it says of some bytes depends on the instruction they
begin with, and no instruction is empty. -/
structure Disassembler where
  hde64Disasm : (Nat → UInt8) → Hde64s
  len_pos : ∀ code, 1 ≤ (hde64Disasm code).len
  len_lt : ∀ code, (hde64Disasm code).len < 2 ^ 32
  local_bytes : ∀ code other,
    (∀ index < (hde64Disasm code).len, other index = code index) →
      hde64Disasm other = hde64Disasm code

def codeAt (memory : CodeMemory) (address : Address) (index : Nat) : UInt8 :=
  memory (address + BitVec.ofNat 64 index)

/-- The instruction that begins at the offset. -/
def Disassembler.decode (disassembler : Disassembler) (code : Nat → UInt8)
    (offset : Nat) : Hde64s :=
  disassembler.hde64Disasm fun index => code (offset + index)

/-- Every round adds at least a byte, so the size bounds the rounds. -/
def instructionLoop (disassembler : Disassembler) (code : Nat → UInt8)
    (minSize : Nat) : Nat → Nat → Nat
  | 0, instructionSize => instructionSize
  | fuel + 1, instructionSize =>
      if instructionSize < minSize then
        let hs := disassembler.decode code instructionSize
        if hs.hasFlag fError then 0
        else instructionLoop disassembler code minSize fuel
          (instructionSize + hs.len)
      else instructionSize

def getInstructionSize (disassembler : Disassembler) (memory : CodeMemory)
    (address : Address) (minSize : Nat) : Nat :=
  if address = 0 then 0
  else instructionLoop disassembler (codeAt memory address) minSize minSize 0

structure Write where
  address : Address
  data : List UInt8

/-- The code cave: a function of the process, so it lies in user space. -/
structure Cave where
  disassembler : Disassembler
  cavePadFunc : Address
  maxCaveSize : BitVec 64
  notNull : cavePadFunc ≠ 0
  inUserSpace : cavePadFunc.toNat + maxCaveSize.toNat < 2 ^ 47

structure HookState where
  memory : CodeMemory
  caveInstSize : BitVec 64
  once : Bool
  written : List Write

/-- `sys_proc_rw` with `write_` set. -/
def sysProcRw (state : HookState) (addr : Address) (data : List UInt8) :
    HookState :=
  { state with
    memory := write state.memory addr data
    written := state.written ++ [{ address := addr, data := data }] }

def maxLen : Nat := 8 * 1024

def sysProcMemset (state : HookState) (src : Address) (c : UInt8)
    (len : Nat) : HookState :=
  if maxLen < len then state
  else sysProcRw state src (List.replicate len c)

/-- `jmp qword ptr [$+6]` -/
def jmpStub : List UInt8 := [0xFF, 0x25, 0x00, 0x00, 0x00, 0x00]

def writeJump64 (state : HookState) (src dst : Address) : HookState :=
  sysProcRw (sysProcRw state src jmpStub) (src + BitVec.ofNat 64 jmpStub.length)
    (littleEndian 8 dst.toNat)

/-- `mov eax, 1; ret` -/
def caveTest : List UInt8 := [0xB8, 0x01, 0x00, 0x00, 0x00, 0xC3]

def caveBlockInit (cave : Cave) (state : HookState) : HookState :=
  if state.once then state
  else
    let tested := sysProcRw state cave.cavePadFunc caveTest
    let padded := sysProcMemset tested cave.cavePadFunc 0xcc
      cave.maxCaveSize.toNat
    { padded with once := true }

def validnateBlockSize (cavePadSize newSize : BitVec 64) : Bool :=
  if cavePadSize < newSize then false else true

/-- The size of the displaced instructions, when all the checks are passed. -/
def displacedSize (cave : Cave) (state : HookState) (address : Address)
    (minInstructionSize : BitVec 32) : Option Nat :=
  if address = 0 ∨ minInstructionSize.toInt < 5 then none
  else
    let intSize := getInstructionSize cave.disassembler state.memory address
      minInstructionSize.toInt.toNat
    if intSize = 0 ∨ validnateBlockSize cave.maxCaveSize
        (state.caveInstSize + BitVec.ofNat 64 intSize +
          BitVec.ofNat 64 jmpStub.length) = false then none
    else some intSize

/-- The writes of a hook, and the address of its trampoline. -/
def fillTrampoline (cave : Cave) (state : HookState) (address : Address)
    (intSize : Nat) : Address × HookState :=
  let ucavePadNew := cave.cavePadFunc + state.caveInstSize
  let retaddr := address + BitVec.ofNat 64 intSize
  let copied := sysProcRw state ucavePadNew
    (read state.memory address intSize)
  let closed := sysProcRw copied (ucavePadNew + BitVec.ofNat 64 intSize)
    jmpStub
  let filled := sysProcRw closed
    (ucavePadNew + BitVec.ofNat 64 intSize +
      BitVec.ofNat 64 jmpStub.length) (littleEndian 8 retaddr.toNat)
  let newCaveSize := intSize + (jmpStub.length + 8)
  (ucavePadNew,
    { filled with
      caveInstSize := state.caveInstSize + BitVec.ofNat 64 newCaveSize })

def createPrologueHook (cave : Cave) (state : HookState) (address : Address)
    (minInstructionSize : BitVec 32) : Address × HookState :=
  let ready := caveBlockInit cave state
  match displacedSize cave ready address minInstructionSize with
  | none => (0, ready)
  | some intSize => fillTrampoline cave ready address intSize

section Decoding
variable (disassembler : Disassembler) (code : Nat → UInt8)

/-- The instructions from one offset to another. -/
inductive Decoded : Nat → List Hde64s → Nat → Prop where
  | nil (offset : Nat) : Decoded offset [] offset
  | cons (offset : Nat) (later : List Hde64s) (stop : Nat)
      (rest : Decoded (offset + (disassembler.decode code offset).len) later
        stop) :
      Decoded offset (disassembler.decode code offset :: later) stop

/-- The instructions a prologue of the given size consists of: all that begin
before the size is reached. -/
inductive Covers (minSize : Nat) : Nat → List Hde64s → Nat → Prop where
  | done (offset : Nat) (enough : minSize ≤ offset) :
      Covers minSize offset [] offset
  | step (offset : Nat) (short : offset < minSize) (later : List Hde64s)
      (stop : Nat)
      (rest : Covers minSize
        (offset + (disassembler.decode code offset).len) later stop) :
      Covers minSize offset (disassembler.decode code offset :: later) stop

/-- An instruction that ends here, or the start. -/
def Boundary (offset : Nat) : Prop :=
  ∃ instructions, Decoded disassembler code 0 instructions offset

structure FirstBoundary (minSize offset : Nat) : Prop where
  boundary : Boundary disassembler code offset
  reaches : minSize ≤ offset
  first : ∀ other, Boundary disassembler code other → minSize ≤ other →
    offset ≤ other

/-- No instruction of the list is reported as an error. -/
def ErrorFree (instructions : List Hde64s) : Prop :=
  ∀ hs ∈ instructions, hs.hasFlag fError = false

theorem decoded_of_covers (minSize offset stop : Nat)
    (instructions : List Hde64s)
    (covers : Covers disassembler code minSize offset instructions stop) :
    Decoded disassembler code offset instructions stop := by
  induction covers with
  | done offset enough => exact Decoded.nil offset
  | step offset short later stop rest ih =>
      exact Decoded.cons offset later stop ih

theorem covers_bounds (minSize offset stop : Nat) (instructions : List Hde64s)
    (covers : Covers disassembler code minSize offset instructions stop) :
    minSize ≤ stop ∧ offset ≤ stop ∧ stop ≤ max offset (minSize + 2 ^ 32) := by
  induction covers with
  | done offset enough => omega
  | step offset short later stop rest ih =>
      have bounded := disassembler.len_lt fun index => code (offset + index)
      rw [Disassembler.decode] at ih
      omega

theorem le_of_decoded (offset stop : Nat) (instructions : List Hde64s)
    (decoded : Decoded disassembler code offset instructions stop) :
    offset ≤ stop := by
  induction decoded with
  | nil offset => exact Nat.le_refl offset
  | cons offset later stop rest ih => omega

/-- Every boundary that is far enough lies at or behind the end. -/
theorem covers_first (minSize offset stop : Nat) (instructions : List Hde64s)
    (covers : Covers disassembler code minSize offset instructions stop)
    (others : List Hde64s) (other : Nat)
    (decoded : Decoded disassembler code offset others other)
    (reaches : minSize ≤ other) : stop ≤ other := by
  induction covers generalizing others with
  | done offset enough =>
      exact le_of_decoded disassembler code offset other others decoded
  | step offset short later stop rest ih =>
      cases decoded with
      | nil => omega
      | cons _ later _ rest => exact ih later rest

theorem firstBoundary_of_covers (minSize stop : Nat)
    (instructions : List Hde64s)
    (covers : Covers disassembler code minSize 0 instructions stop) :
    FirstBoundary disassembler code minSize stop where
  boundary := ⟨instructions,
    decoded_of_covers disassembler code minSize 0 stop instructions covers⟩
  reaches := (covers_bounds disassembler code minSize 0 stop instructions
    covers).1
  first := by
    rintro other ⟨others, decoded⟩ reaches
    exact covers_first disassembler code minSize 0 stop instructions covers
      others other decoded reaches

theorem covers_congr (other : Nat → UInt8) (minSize offset stop : Nat)
    (instructions : List Hde64s)
    (covers : Covers disassembler code minSize offset instructions stop)
    (same : ∀ index < stop, other index = code index) :
    Covers disassembler other minSize offset instructions stop := by
  induction covers with
  | done offset enough => exact Covers.done offset enough
  | step offset short later stop rest ih =>
      have inside := (covers_bounds disassembler code minSize _ stop later
        rest).2.1
      have alike : disassembler.decode other offset =
          disassembler.decode code offset := by
        apply disassembler.local_bytes
        intro index before
        apply same
        rw [Disassembler.decode] at inside
        omega
      rw [← alike] at ih ⊢
      exact Covers.step offset short later stop (ih same)

theorem instructionLoop_spec (minSize fuel offset : Nat)
    (enough : minSize ≤ offset + fuel) :
    ∃ instructions stop,
      Covers disassembler code minSize offset instructions stop ∧
        ((ErrorFree instructions ∧
            instructionLoop disassembler code minSize fuel offset = stop) ∨
          (¬ ErrorFree instructions ∧
            instructionLoop disassembler code minSize fuel offset = 0)) := by
  induction fuel generalizing offset with
  | zero =>
      exact ⟨[], offset, Covers.done offset enough,
        Or.inl ⟨by simp [ErrorFree], rfl⟩⟩
  | succ fuel ih =>
      by_cases short : offset < minSize
      · have positive := disassembler.len_pos fun index =>
          code (offset + index)
        obtain ⟨instructions, stop, covers, outcome⟩ :=
          ih (offset + (disassembler.decode code offset).len) (by
            rw [Disassembler.decode]
            omega)
        refine ⟨_, stop, Covers.step offset short instructions stop covers, ?_⟩
        rw [instructionLoop, if_pos short]
        by_cases error :
            (disassembler.decode code offset).hasFlag fError = true
        · right
          refine ⟨?_, by simp [error]⟩
          intro clean
          have here := clean _ (List.mem_cons_self ..)
          rw [error] at here
          contradiction
        · have clean : (disassembler.decode code offset).hasFlag fError =
              false := by
            simpa using error
          have split : ErrorFree (disassembler.decode code offset ::
              instructions) ↔ ErrorFree instructions := by
            simp [ErrorFree, clean]
          simp only [clean, Bool.false_eq_true, if_false, split]
          exact outcome
      · refine ⟨[], offset, Covers.done offset (by omega),
          Or.inl ⟨by simp [ErrorFree], ?_⟩⟩
        rw [instructionLoop, if_neg short]

end Decoding

/-- `nop` and `jmp rel32` (0x210 are its `F_IMM32` and `F_RELATIVE`). -/
def decodeShort (code : Nat → UInt8) : Hde64s :=
  if code 0 = 0x90 then
    { len := 1, flags := 0, modrmMod := 0, modrmRm := 0 }
  else if code 0 = 0xE9 then
    { len := 5, flags := 0x210, modrmMod := 0, modrmRm := 0 }
  else { len := 1, flags := fError, modrmMod := 0, modrmRm := 0 }

theorem decodeShort_len (code : Nat → UInt8) :
    1 ≤ (decodeShort code).len ∧ (decodeShort code).len < 2 ^ 32 := by
  rw [decodeShort]
  split
  · simp
  · split <;> simp

def shortDisassembler : Disassembler where
  hde64Disasm := decodeShort
  len_pos := fun code => (decodeShort_len code).1
  len_lt := fun code => (decodeShort_len code).2
  local_bytes := by
    intro code other same
    have first := same 0 (decodeShort_len code).1
    simp only [decodeShort, first]

def shortCave (maxCaveSize : BitVec 64) (small : maxCaveSize.toNat ≤ 4096) :
    Cave where
  disassembler := shortDisassembler
  cavePadFunc := 0x20000
  maxCaveSize := maxCaveSize
  notNull := by decide
  inUserSpace := by
    show 0x20000 + maxCaveSize.toNat < 2 ^ 47
    omega

end HenPlugins.Memory.CodeCave
