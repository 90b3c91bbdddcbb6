import HenPlugins.Hde.Encoding
import HenPlugins.Memory.DisplacedCode

/-!
# Prologues under the disassembler of the repository

`GetInstructionSize` calls `hde64_disasm`.  The disassembler that the hooks
assume is this one: it looks at no byte behind an instruction, but for the
flags of an instruction that is too long, which the hooks do not look at.
-/

set_option autoImplicit false

namespace HenPlugins.Hde.DisplacedPrologue

open HenPlugins.Lib.ByteCursor
open HenPlugins.Lib.ByteMemory (Within within_add)
open HenPlugins.Memory.CodeCave (Address CodeMemory Cave codeAt fError
  Disassembler displacedSize caveBlockInit)
open HenPlugins.Memory.Trampoline
open HenPlugins.Memory.PrologueHooks
open HenPlugins.Memory.HookRun
open HenPlugins.Hde.Disasm
open HenPlugins.Hde.Locality
open HenPlugins.Hde.Encoding

/-! ## `GetInstructionSize` -/

def decodeAt (code : Nat → UInt8) (offset : Nat) : Option Hde64s :=
  hde64Disasm fun index => code (offset + index)

/-- Every round adds at least a byte, so the size bounds the rounds. -/
def instructionLoop (code : Nat → UInt8) (minSize : Nat) :
    Nat → Nat → Option Nat
  | 0, instructionSize => some instructionSize
  | fuel + 1, instructionSize =>
      if instructionSize < minSize then
        (decodeAt code instructionSize).bind fun hs =>
          if hs.hasFlag fError then some 0
          else instructionLoop code minSize fuel
            (instructionSize + hs.len.toNat)
      else some instructionSize

/-- No result stands for a look-up outside the tables. -/
def getInstructionSize (memory : CodeMemory) (address : Address)
    (minSize : Nat) : Option Nat :=
  if address = 0 then some 0
  else instructionLoop (codeAt memory address) minSize minSize 0

/-! ## The disassembler that the hooks assume -/

/-- What the hooks see of a record. -/
def seen (hs : Hde64s) : Memory.CodeCave.Hde64s :=
  if hs.hasFlag fErrorLength then
    { len := 15, flags := fError ||| fErrorLength, modrmMod := 0, modrmRm := 0 }
  else
    { len := hs.len.toNat
      flags := hs.flags
      modrmMod := hs.modrmMod
      modrmRm := hs.modrmRm }

def seenAt (code : Nat → UInt8) : Memory.CodeCave.Hde64s :=
  ((hde64Disasm code).map seen).getD (seen cleared)

theorem seenAt_of_decoded (code : Nat → UInt8) (hs : Hde64s)
    (decoded : hde64Disasm code = some hs) : seenAt code = seen hs := by
  rw [seenAt, decoded]
  rfl

theorem seen_len (hs : Hde64s) (long : hs.hasFlag fErrorLength = true →
    hs.len = 15) : (seen hs).len = hs.len.toNat := by
  rw [seen]
  split
  · rename_i flag
    rw [long flag]
    rfl
  · rfl

theorem seen_error (hs : Hde64s) (long : hs.hasFlag fErrorLength = true →
    hs.hasFlag fError = true) :
    (seen hs).hasFlag fError = hs.hasFlag fError := by
  rw [seen]
  split
  · rename_i flag
    rw [long flag]
    rfl
  · rfl

theorem len_of_settled (code : Nat → UInt8) (hs : Hde64s)
    (settled : Settled code hs) : (seenAt code).len = hs.len.toNat := by
  rw [seenAt_of_decoded code hs settled.decoded]
  exact seen_len hs fun flag => (settled.tooLong flag).1

theorem seenAt_local (code other : Nat → UInt8)
    (same : ∀ index < (seenAt code).len, other index = code index) :
    seenAt other = seenAt code := by
  obtain ⟨hs, settled⟩ := exists_settled code
  rw [len_of_settled code hs settled] at same
  rw [seenAt_of_decoded code hs settled.decoded]
  cases flag : hs.hasFlag fErrorLength with
  | false =>
      exact seenAt_of_decoded other hs ((settled.own flag).1 other same)
  | true =>
      obtain ⟨fifteen, -, -, others⟩ := settled.tooLong flag
      rw [fifteen] at same
      obtain ⟨error, decoded, -, long, -⟩ := others other same
      rw [seenAt_of_decoded other error decoded, seen, seen, if_pos long,
        if_pos flag]

/-- `hde64_disasm` meets what the hooks assume of it. -/
def hdeDisassembler : Disassembler where
  hde64Disasm := seenAt
  len_pos := by
    intro code
    obtain ⟨hs, settled⟩ := exists_settled code
    rw [len_of_settled code hs settled]
    exact UInt8.le_iff_toNat_le.mp settled.nonempty
  len_lt := by
    intro code
    obtain ⟨hs, settled⟩ := exists_settled code
    rw [len_of_settled code hs settled]
    have byte := hs.len.toNat_lt
    omega
  local_bytes := seenAt_local

theorem instructionLoop_eq (code : Nat → UInt8) (minSize fuel size : Nat) :
    instructionLoop code minSize fuel size =
      some (Memory.CodeCave.instructionLoop hdeDisassembler code minSize fuel
        size) := by
  induction fuel generalizing size with
  | zero => rfl
  | succ fuel ih =>
      obtain ⟨hs, settled⟩ := exists_settled fun index =>
        code (size + index)
      have decoded : decodeAt code size = some hs := settled.decoded
      have len := len_of_settled _ hs settled
      have error : (hdeDisassembler.decode code size).hasFlag fError =
          hs.hasFlag fError := by
        show (seenAt _).hasFlag fError = _
        rw [seenAt_of_decoded _ hs settled.decoded]
        exact seen_error hs fun flag => (settled.tooLong flag).2.1
      rw [instructionLoop, Memory.CodeCave.instructionLoop]
      split
      · rw [decoded, Option.bind_some]
        simp only [error]
        split
        · rfl
        · rw [ih]
          show _ = some (Memory.CodeCave.instructionLoop _ _ _ _
            (size + (seenAt fun index => code (size + index)).len))
          rw [len]
      · rfl

theorem getInstructionSize_eq (memory : CodeMemory) (address : Address)
    (minSize : Nat) :
    getInstructionSize memory address minSize =
      some (Memory.CodeCave.getInstructionSize hdeDisassembler memory address
        minSize) := by
  rw [getInstructionSize, Memory.CodeCave.getInstructionSize]
  split
  · rfl
  · exact instructionLoop_eq _ minSize minSize 0

/-! ## The displaced instructions -/

section Displacing
variable (code : Nat → UInt8)

/-- The instructions of a prologue, none of them an error. -/
inductive Instructions (minSize : Nat) : Nat → List Hde64s → Nat → Prop where
  | done (offset : Nat) (enough : minSize ≤ offset) :
      Instructions minSize offset [] offset
  | step (offset : Nat) (short : offset < minSize) (hs : Hde64s)
      (decoded : decodeAt code offset = some hs)
      (good : hs.hasFlag fError = false) (later : List Hde64s) (stop : Nat)
      (rest : Instructions minSize (offset + hs.len.toNat) later stop) :
      Instructions minSize offset (hs :: later) stop

/-- An error that the loop comes to. -/
def Undecodable (minSize offset : Nat) : Prop :=
  ∃ before instructions hs, before < minSize ∧
    Instructions code before offset instructions before ∧
    decodeAt code before = some hs ∧ hs.hasFlag fError = true

structure Displaced (minSize size : Nat) (instructions : List Hde64s) :
    Prop where
  decoded : Instructions code minSize 0 instructions size
  reaches : minSize ≤ size
  /-- The last instruction begins before the size is reached. -/
  bounded : 0 < minSize → size < minSize + 15
  /-- The displaced bytes are the instructions one behind the other. -/
  spelled : ∃ words, List.Forall₂ Spelling instructions words ∧
    Spells code 0 size words.flatten

theorem decodeAt_len (offset : Nat) (hs : Hde64s)
    (decoded : decodeAt code offset = some hs) :
    1 ≤ hs.len.toNat ∧ hs.len.toNat ≤ 15 := by
  obtain ⟨found, settled⟩ := exists_settled fun index =>
    code (offset + index)
  cases decoded.symm.trans settled.decoded
  exact ⟨UInt8.le_iff_toNat_le.mp settled.nonempty,
    UInt8.le_iff_toNat_le.mp settled.short⟩

theorem instructions_bounds (minSize offset stop : Nat)
    (instructions : List Hde64s)
    (decoded : Instructions code minSize offset instructions stop) :
    minSize ≤ stop ∧ offset ≤ stop ∧ (offset < minSize → stop < minSize + 15) := by
  induction decoded with
  | done offset enough => omega
  | step offset short hs decoded good later stop rest ih =>
      have len := decodeAt_len code offset hs decoded
      cases rest with
      | done _ enough => omega
      | step _ shortLater _ _ _ _ _ _ =>
          have bounds := ih
          omega

theorem instructions_spelled (minSize offset stop : Nat)
    (instructions : List Hde64s)
    (decoded : Instructions code minSize offset instructions stop) :
    ∃ words, List.Forall₂ Spelling instructions words ∧
      Spells code offset stop words.flatten := by
  induction decoded with
  | done offset enough => exact ⟨[], .nil, spells_nil code offset⟩
  | step offset short hs decoded good later stop rest ih =>
      obtain ⟨word, spelling, spells⟩ := spelled_of_good _ hs decoded good
      obtain ⟨words, spellings, behind⟩ := ih
      refine ⟨word :: words, .cons spelling spellings, ?_⟩
      rw [List.flatten_cons]
      exact spells_append code offset (offset + hs.len.toNat) stop _ _
        (spells_shift code offset 0 _ word spells) behind

/-- A run of instructions goes through every earlier boundary. -/
theorem instructions_later (bound minSize offset middle stop : Nat)
    (front whole : List Hde64s)
    (before : Instructions code bound offset front middle)
    (all : Instructions code minSize offset whole stop)
    (early : middle < minSize) :
    ∃ later, Instructions code minSize middle later stop := by
  induction before generalizing whole with
  | done offset _ => exact ⟨whole, all⟩
  | step offset _ hs decoded _ later middle rest ih =>
      have bounds := instructions_bounds code _ _ _ _ rest
      cases all with
      | done _ enough => omega
      | step _ _ other otherDecoded _ otherLater _ otherRest =>
          cases decoded.symm.trans otherDecoded
          exact ih otherLater otherRest early

theorem not_undecodable (minSize stop : Nat) (instructions : List Hde64s)
    (decoded : Instructions code minSize 0 instructions stop) :
    ¬ Undecodable code minSize 0 := by
  rintro ⟨before, front, hs, early, reached, failed, error⟩
  obtain ⟨later, rest⟩ := instructions_later code before minSize 0 before stop
    front instructions reached decoded early
  cases rest with
  | done _ enough => omega
  | step _ _ other otherDecoded good _ _ _ =>
      cases failed.symm.trans otherDecoded
      rw [error] at good
      contradiction

theorem displaced_of_instructions (minSize size : Nat)
    (instructions : List Hde64s)
    (decoded : Instructions code minSize 0 instructions size) :
    Displaced code minSize size instructions :=
  have bounds := instructions_bounds code minSize 0 size instructions decoded
  { decoded := decoded
    reaches := bounds.1
    bounded := bounds.2.2
    spelled := instructions_spelled code minSize 0 size instructions decoded }

theorem instructionLoop_outcome (minSize fuel offset : Nat)
    (enough : minSize ≤ offset + fuel) :
    (∃ instructions stop,
      Instructions code minSize offset instructions stop ∧
        instructionLoop code minSize fuel offset = some stop) ∨
    (Undecodable code minSize offset ∧
      instructionLoop code minSize fuel offset = some 0) := by
  induction fuel generalizing offset with
  | zero => exact Or.inl ⟨[], offset, .done offset enough, rfl⟩
  | succ fuel ih =>
      rw [instructionLoop]
      split
      · rename_i short
        obtain ⟨hs, settled⟩ := exists_settled fun index =>
          code (offset + index)
        have decoded : decodeAt code offset = some hs := settled.decoded
        have len := decodeAt_len code offset hs decoded
        rw [decoded, Option.bind_some]
        cases error : hs.hasFlag fError with
        | true =>
            exact Or.inr ⟨⟨offset, [], hs, short, .done offset (Nat.le_refl _),
              decoded, error⟩, rfl⟩
        | false =>
            simp only [Bool.false_eq_true, if_false]
            rcases ih (offset + hs.len.toNat) (by omega) with
              ⟨instructions, stop, rest, result⟩ |
              ⟨⟨before, instructions, other, inside, rest, undecoded⟩, result⟩
            · exact Or.inl ⟨hs :: instructions, stop,
                .step offset short hs decoded error instructions stop rest,
                result⟩
            · have bounds := instructions_bounds code _ _ _ _ rest
              exact Or.inr ⟨⟨before, hs :: instructions, other, inside,
                .step offset (by omega) hs decoded error instructions before
                  rest, undecoded⟩, result⟩
      · rename_i long
        exact Or.inl ⟨[], offset, .done offset (by omega), rfl⟩

end Displacing

/-- The size that is asked of the repository's own disassembler: whole
instructions up to the first boundary that is far enough, or 0 exactly for a
null address and an error. -/
theorem getInstructionSize_displaces (memory : CodeMemory) (address : Address)
    (minSize : Nat) :
    ∃ size, getInstructionSize memory address minSize = some size ∧
      Memory.CodeCave.getInstructionSize hdeDisassembler memory address
        minSize = size ∧
      ((address ≠ 0 ∧ ∃ instructions,
          Displaced (codeAt memory address) minSize size instructions) ∨
        (size = 0 ∧
          (address = 0 ∨ Undecodable (codeAt memory address) minSize 0))) ∧
      (0 < minSize → (size = 0 ↔
        address = 0 ∨ Undecodable (codeAt memory address) minSize 0)) := by
  have same := getInstructionSize_eq memory address minSize
  obtain ⟨size, computed⟩ : ∃ size, Memory.CodeCave.getInstructionSize
      hdeDisassembler memory address minSize = size := ⟨_, rfl⟩
  rw [computed] at same
  refine ⟨size, same, computed, ?_⟩
  rw [getInstructionSize] at same
  split at same
  · rename_i null
    cases same
    exact ⟨Or.inr ⟨rfl, Or.inl null⟩, fun _ => ⟨fun _ => Or.inl null,
      fun _ => rfl⟩⟩
  · rename_i given
    rcases instructionLoop_outcome (codeAt memory address) minSize minSize 0
      (by omega) with ⟨instructions, stop, decoded, result⟩ | ⟨error, result⟩
    · cases same.symm.trans result
      have displaced := displaced_of_instructions _ _ _ _ decoded
      refine ⟨Or.inl ⟨given, instructions, displaced⟩, fun positive => ?_⟩
      have reaches := displaced.reaches
      constructor
      · intro nothing
        omega
      · rintro (null | error)
        · exact absurd null given
        · exact absurd error (not_undecodable _ _ _ _ decoded)
    · cases same.symm.trans result
      exact ⟨Or.inr ⟨rfl, Or.inr error⟩, fun _ => ⟨fun _ => Or.inr error,
        fun _ => rfl⟩⟩

/-! ## Hooks under this disassembler -/

def withHde (cave : Cave) : Cave :=
  { cave with disassembler := hdeDisassembler }

theorem instructions_of_covers (code : Nat → UInt8)
    (minSize offset stop : Nat) (records : List Memory.CodeCave.Hde64s)
    (covers : Memory.CodeCave.Covers hdeDisassembler code minSize offset records
      stop)
    (clean : Memory.CodeCave.ErrorFree records) :
    ∃ instructions, Instructions code minSize offset instructions stop ∧
      instructions.map seen = records := by
  induction covers with
  | done offset enough => exact ⟨[], .done offset enough, rfl⟩
  | step offset short later stop rest ih =>
      obtain ⟨instructions, decodedRest, sameRest⟩ := ih fun other member =>
        clean other (List.mem_cons_of_mem _ member)
      obtain ⟨hs, settled⟩ := exists_settled fun index =>
        code (offset + index)
      have here : hdeDisassembler.decode code offset = seen hs :=
        seenAt_of_decoded _ hs settled.decoded
      have len : (hdeDisassembler.decode code offset).len = hs.len.toNat :=
        len_of_settled _ hs settled
      have good := clean _ (List.mem_cons_self ..)
      rw [here, seen_error hs fun flag => (settled.tooLong flag).2.1] at good
      rw [len] at decodedRest
      exact ⟨hs :: instructions, .step offset short hs settled.decoded good _ _
        decodedRest, by rw [List.map_cons, sameRest, here]⟩

theorem displaced_of_prologue (memory : CodeMemory) (address : Address)
    (minSize size : Nat) (records : List Memory.CodeCave.Hde64s)
    (prologue : Prologue hdeDisassembler memory address minSize records size) :
    ∃ instructions, instructions.map seen = records ∧
      Displaced (codeAt memory address) minSize size instructions := by
  obtain ⟨instructions, decoded, same⟩ := instructions_of_covers _ minSize 0
    size records prologue.1 prologue.2
  exact ⟨instructions, same, displaced_of_instructions _ _ _ _ decoded⟩

theorem instructions_congr (code other : Nat → UInt8)
    (minSize offset stop : Nat) (instructions : List Hde64s)
    (decoded : Instructions code minSize offset instructions stop)
    (same : ∀ index < stop, other index = code index) :
    Instructions other minSize offset instructions stop := by
  induction decoded with
  | done offset enough => exact .done offset enough
  | step offset short hs decoded good later stop rest ih =>
      have bounds := instructions_bounds code _ _ _ _ rest
      obtain ⟨found, settled⟩ := exists_settled fun index =>
        code (offset + index)
      cases decoded.symm.trans settled.decoded
      have fits : hs.hasFlag fErrorLength = false := by
        by_contra long
        rw [Bool.not_eq_false] at long
        rw [(settled.tooLong long).2.1] at good
        contradiction
      have alike := (settled.own fits).1 (fun index => other (offset + index))
        fun index inside => same _ (by omega)
      exact .step offset short hs alike good later stop (ih same)

section Installing
variable (cave : Cave) (original : CodeMemory)

/-- The prologues that are displaced are those of the program. -/
def Prologues (installed : List Installed) : Prop :=
  ∀ hook ∈ installed, ∀ size, hook.displaced = some size →
    ∃ records, Prologue cave.disassembler original hook.request.address
      hook.request.minInstructionSize.toInt.toNat records size

theorem prologues_install (session : Session) (request : Request)
    (laidOut : LaidOut cave (install cave session request).installed)
    (standing : Standing cave original session)
    (prologues : Prologues cave original session.installed) :
    Prologues cave original (install cave session request).installed := by
  have ready := standing_caveBlockInit cave original session laidOut.testFits
    standing
  intro hook member size displaced
  rcases List.mem_append.mp member with old | new
  · exact prologues hook old size displaced
  · have asked : displacedSize cave (caveBlockInit cave session.state)
        request.address request.minInstructionSize = some size := by
      rw [List.mem_singleton.mp new] at displaced
      exact displaced
    have bounded : Bounded cave (caveBlockInit cave session.state) := by
      have used := ready.used
      rw [Bounded]
      exact Nat.le_trans used (by omega)
    obtain ⟨records, accepted⟩ := (displacedSize_eq_some_iff cave _ bounded
      request.address _ size).mp asked
    obtain ⟨-, -, apart⟩ := List.pairwise_append.mp laidOut.apart
    have request_eq : hook.request = request := by
      rw [List.mem_singleton.mp new]
    have untouched : ∀ index < size,
        (caveBlockInit cave session.state).memory
            (request.address + BitVec.ofNat 64 index) =
          original (request.address + BitVec.ofNat 64 index) := by
      intro index inside
      have within := within_add request.address size index inside
      rw [← request_eq] at within ⊢
      refine ready.untouched _ (laidOut.offCave hook member size displaced _
        within) ?_
      intro other otherMember otherSize otherDisplaced inOther
      exact apart other otherMember hook new otherSize size otherDisplaced
        displaced _ inOther within
    rw [request_eq]
    exact ⟨records, Memory.CodeCave.covers_congr cave.disassembler _ _ _ 0 size
      records accepted.prologue.1 fun index inside =>
        (untouched index inside).symm, accepted.prologue.2⟩

theorem prologues_installAll (session : Session) (requests : List Request)
    (long : ∀ request ∈ requests, 14 ≤ request.minInstructionSize.toInt)
    (laidOut : LaidOut cave (installAll cave session requests).installed)
    (standing : Standing cave original session)
    (prologues : Prologues cave original session.installed) :
    Prologues cave original (installAll cave session requests).installed := by
  induction requests generalizing session with
  | nil => exact prologues
  | cons request requests ih =>
      obtain ⟨hooks, -, later⟩ := installAll_installed cave
        (install cave session request) requests
      have laidOutLater : LaidOut cave
          (installAll cave (install cave session request) requests).installed :=
        laidOut
      rw [later] at laidOutLater
      have laidOutFirst := laidOut_earlier cave _ hooks laidOutLater
      exact ih (install cave session request)
        (fun other member => long other (List.mem_cons_of_mem _ member))
        laidOut
        (standing_install cave original session request
          (long request (List.mem_cons_self ..)) laidOutFirst standing)
        (prologues_install cave original session request laidOutFirst standing
          prologues)

end Installing

/-- After any sequence of hooks, a trampoline decodes to the instructions that
it displaced, and leads back behind them. -/
structure Continued (original current : CodeMemory) (hook : Installed)
    (size : Nat) (instructions : List Hde64s) : Prop where
  displaced : Displaced (codeAt original hook.request.address)
    hook.request.minInstructionSize.toInt.toNat size instructions
  copied : Displaced (codeAt current hook.entry)
    hook.request.minInstructionSize.toInt.toNat size instructions
  redirected : jumpTarget current hook.request.address =
    some hook.request.destination
  back : jumpTarget current (hook.entry + BitVec.ofNat 64 size) =
    some (hook.request.address + BitVec.ofNat 64 size)

/-- Every hook of the sequence that was installed is continued. -/
def AllContinued (cave : Cave) (memory : CodeMemory)
    (requests : List Request) : Prop :=
  ∀ hook ∈
      (installAll (withHde cave) (processStart memory) requests).installed,
    ∀ size, hook.displaced = some size → ∃ instructions,
      Continued memory
        (installAll (withHde cave) (processStart memory) requests).state.memory
        hook size instructions

theorem hooks_continue_instructions (cave : Cave) (memory : CodeMemory)
    (requests : List Request)
    (long : ∀ request ∈ requests, 14 ≤ request.minInstructionSize.toInt)
    (laidOut : LaidOut (withHde cave)
      (installAll (withHde cave) (processStart memory) requests).installed) :
    AllContinued cave memory requests := by
  intro hook member size displaced
  have standing := standing_installAll (withHde cave) memory _ requests long
    laidOut (standing_start (withHde cave) memory)
  have works := works_of_standing (withHde cave) memory _ standing hook member
    size displaced
  obtain ⟨records, prologue⟩ := prologues_installAll (withHde cave) memory
    (processStart memory) requests long laidOut
    (standing_start (withHde cave) memory) (by intro _ none; cases none)
    hook member size displaced
  obtain ⟨instructions, -, original⟩ := displaced_of_prologue memory _ _ size
    records prologue
  exact ⟨instructions, original, displaced_of_instructions _ _ _ _
    (instructions_congr _ _ _ _ _ _ original.decoded works.copied),
    works.redirected, works.continued⟩

/-! ## A prologue with a frame -/

/-- `push rbp; mov rbp, rsp; push r15; push r14; push rbx; sub rsp, 28h;
mov rax, [rip + 10h]`, and `nop` behind it. -/
def framedCode (address : Address) : UInt8 :=
  [0x55, 0x48, 0x89, 0xe5, 0x41, 0x57, 0x41, 0x56, 0x53, 0x48, 0x83, 0xec, 0x28,
    0x48, 0x8b, 0x05, 0x10, 0x00, 0x00, 0x00].getD (address - 0x1000).toNat 0x90

def framedRequests : List Request :=
  [{ address := 0x1000, minInstructionSize := 14, destination := 0x50000 },
    { address := 0x1100, minInstructionSize := 15, destination := 0x60000 }]

theorem framed_installed :
    (installAll (withHde sledCave) (processStart framedCode)
      framedRequests).installed =
      [{ request :=
          { address := 0x1000
            minInstructionSize := 14
            destination := 0x50000 }
         displaced := some 20
         entry := 0x20000 },
       { request :=
          { address := 0x1100
            minInstructionSize := 15
            destination := 0x60000 }
         displaced := some 15
         entry := 0x20022 }] := by
  decide +kernel

theorem hooks_continue_framed :
    AllContinued sledCave framedCode framedRequests := by
  apply hooks_continue_instructions sledCave framedCode framedRequests
  · decide
  · rw [framed_installed]
    refine ⟨by decide, ?_, ?_, ?_⟩
    · simp only [List.forall_mem_cons, Option.some.injEq]
      refine ⟨?_, ?_, by simp⟩
      · rintro _ rfl
        decide
      · rintro _ rfl
        decide
    · simp only [List.forall_mem_cons, Option.some.injEq]
      refine ⟨?_, ?_, by simp⟩
      · rintro _ rfl
        exact apart_of_order _ _ _ _ (by decide) (by decide)
      · rintro _ rfl
        exact apart_of_order _ _ _ _ (by decide) (by decide)
    · simp only [List.pairwise_cons, List.mem_singleton, forall_eq,
        Option.some.injEq]
      refine ⟨?_, by simp⟩
      rintro _ _ rfl rfl
      exact apart_of_order _ _ _ _ (by decide) (by decide)

end HenPlugins.Hde.DisplacedPrologue
