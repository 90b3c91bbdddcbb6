import Mathlib.Algebra.BigOperators.Group.List.Basic
import Mathlib.Algebra.Group.Pi.Basic
import HenPlugins.Lib.PatchLedger
import HenPlugins.Memory.FarHookRun
import HenPlugins.Memory.PrologueHooks

/-!
# Taking over functions

A plugin takes over the functions of its process in different ways: with a
trampoline and an absolute jump, with a trampoline and a jump by way of the
padding of a module, by redirecting a call, through a table of pointers, or
without a way back.  Here are the steps, what is asked of the functions that
are taken over, and what one patch leaves of the others.
-/

set_option autoImplicit false

namespace HenPlugins.Memory.TakeOver

open HenPlugins.Lib.ByteMemory
open HenPlugins.Lib.PatchedText
open HenPlugins.Lib.PatchLedger
open HenPlugins.Memory.CodeCave
open HenPlugins.Memory.FarHook
open HenPlugins.Memory.FarHookRun (place offset_ne_zero)
open HenPlugins.Memory.PatternScan
open HenPlugins.Memory.Trampoline

/-! ## The steps -/

/-- What is done to one function: `slot` is the pointer through which the
original is called, `info` the module whose padding a far jump takes. -/
inductive Step (Module Slot : Type) where
  /-- `CreatePrologueHook`, then `WriteJump64` -/
  | prologue (slot : Slot) (address : Address)
      (minInstructionSize : BitVec 32) (destination : Address)
  /-- `CreatePrologueHook`, then `Make32to64Jmp` -/
  | near (info : Module) (slot : Slot) (address : Address) (srclen : Nat)
      (destination : Address)
  /-- `Make32to64Jmp` of a call, whose target may be kept -/
  | call (info : Module) (slot : Option Slot) (address destination : Address)
  /-- `WriteJump64` alone -/
  | replace (address destination : Address)
  /-- `sys_proc_rw` with a few bytes of code, often a `ret` -/
  | overwrite (address : Address) (data : List UInt8)
  /-- a pointer in a table is exchanged -/
  | swap (slot : Slot) (address destination : Address)
  /-- the pointer is the function itself -/
  | remember (slot : Slot) (address : Address)
  deriving DecidableEq

structure Session (Slot : Type) where
  state : HookState
  originals : Slot → Address

def ret : UInt8 := 0xc3

def pointerBytes (pointer : Address) : List UInt8 :=
  littleEndian 8 pointer.toNat

def readPointer (memory : CodeMemory) (address : Address) : Address :=
  BitVec.ofNat 64 (fromLittleEndian (read memory address 8))

section Performing
variable {Module Slot : Type} [DecidableEq Slot] (cave : Cave)
  (segment : Module → TextSegment)

/-- A function that was not resolved is left out. -/
def perform (session : Session Slot) : Step Module Slot → Session Slot
  | .prologue slot address minInstructionSize destination =>
      if address ≠ 0 then
        let (pHook, hooked) := createPrologueHook cave session.state address
          minInstructionSize
        if pHook ≠ 0 then
          { state := writeJump64 hooked address destination
            originals := Function.update session.originals slot pHook }
        else { session with state := hooked }
      else session
  | .near info slot address srclen destination =>
      if address ≠ 0 then
        let (pHook, hooked) := createPrologueHook cave session.state address
          (BitVec.ofNat 32 srclen)
        if pHook ≠ 0 then
          { state := (make32to64Jmp (segment info) hooked
              { src := address
                dst := destination
                srclen := srclen
                call := false } false).2
            originals := Function.update session.originals slot pHook }
        else { session with state := hooked }
      else session
  | .call info slot address destination =>
      if address ≠ 0 then
        let (original, redirected) := make32to64Jmp (segment info)
          session.state
          { src := address, dst := destination, srclen := 5, call := true }
          slot.isSome
        { state := redirected
          originals :=
            match slot, original with
            | some kept, some target =>
                Function.update session.originals kept target
            | _, _ => session.originals }
      else session
  | .replace address destination =>
      if address ≠ 0 then
        { session with
          state := writeJump64 session.state address destination }
      else session
  | .overwrite address data =>
      if address ≠ 0 then
        { session with state := sysProcRw session.state address data }
      else session
  | .swap slot address destination =>
      if address ≠ 0 then
        { state :=
            sysProcRw session.state address (pointerBytes destination)
          originals := Function.update session.originals slot
            (readPointer session.state.memory address) }
      else session
  | .remember slot address =>
      { session with
        originals := Function.update session.originals slot address }

def performAll (session : Session Slot) (steps : List (Step Module Slot)) :
    Session Slot :=
  steps.foldl (perform cave segment) session

/-- No pointer is set before the first step. -/
def untouched (memory : CodeMemory) : Session Slot where
  state := { memory := memory, caveInstSize := 0, once := false, written := [] }
  originals := fun _ => 0

end Performing

/-! ## What a step needs -/

/-- The end of the last instruction that is looked at. -/
def coverEnd (disassembler : Disassembler) (code : Nat → UInt8)
    (minSize : Nat) : Nat → Nat → Nat
  | 0, offset => offset
  | fuel + 1, offset =>
      if offset < minSize then
        coverEnd disassembler code minSize fuel
          (offset + (disassembler.decode code offset).len)
      else offset

theorem coverEnd_covers (disassembler : Disassembler) (code : Nat → UInt8)
    (minSize fuel offset : Nat) (enough : minSize ≤ offset + fuel) :
    ∃ instructions, Covers disassembler code minSize offset instructions
      (coverEnd disassembler code minSize fuel offset) := by
  induction fuel generalizing offset with
  | zero => exact ⟨[], Covers.done offset enough⟩
  | succ fuel ih =>
      rw [coverEnd]
      by_cases short : offset < minSize
      · have positive := disassembler.len_pos fun index =>
          code (offset + index)
        obtain ⟨instructions, covers⟩ :=
          ih (offset + (disassembler.decode code offset).len) (by
            rw [Disassembler.decode]
            omega)
        rw [if_pos short]
        exact ⟨_, Covers.step offset short instructions _ covers⟩
      · rw [if_neg short]
        exact ⟨[], Covers.done offset (by omega)⟩

section Extents
variable {Module Slot : Type} (cave : Cave) (original : CodeMemory)

/-- How much of a function `CreatePrologueHook` looks at. -/
def inspected (address : Address) (minInstructionSize : BitVec 32) : Nat :=
  if address = 0 then 0
  else coverEnd cave.disassembler (codeAt original address)
    minInstructionSize.toInt.toNat minInstructionSize.toInt.toNat 0

/-- How much it displaces, given room. -/
def displacedBy (address : Address) (minInstructionSize : BitVec 32) :
    Option Nat :=
  if address = 0 ∨ minInstructionSize.toInt < 5 then none
  else
    let intSize := getInstructionSize cave.disassembler original address
      minInstructionSize.toInt.toNat
    if intSize = 0 then none else some intSize

/-- The bytes of the trampoline in the cave. -/
def trampolineRoom (address : Address) (minInstructionSize : BitVec 32) :
    Nat :=
  match displacedBy cave original address minInstructionSize with
  | none => 0
  | some size => size + 14

def Step.address : Step Module Slot → Address
  | .prologue _ address _ _ => address
  | .near _ _ address _ _ => address
  | .call _ _ address _ => address
  | .replace address _ => address
  | .overwrite address _ => address
  | .swap _ address _ => address
  | .remember _ address => address

def Step.slot : Step Module Slot → Option Slot
  | .prologue slot _ _ _ => some slot
  | .near _ slot _ _ _ => some slot
  | .call _ slot _ _ => slot
  | .replace _ _ => none
  | .overwrite _ _ => none
  | .swap slot _ _ => some slot
  | .remember slot _ => some slot

/-- The bytes of the function that must be its own: behind overwritten ones
one more is counted, which tells a `ret` from the padding. -/
def Step.extent : Step Module Slot → Nat
  | .prologue _ address minInstructionSize _ =>
      inspected cave original address minInstructionSize
  | .near _ _ address srclen _ =>
      inspected cave original address (BitVec.ofNat 32 srclen)
  | .call _ _ address _ => if address = 0 then 0 else 5
  | .replace address _ => if address = 0 then 0 else 14
  | .overwrite address data => if address = 0 then 0 else data.length + 1
  | .swap _ address _ => if address = 0 then 0 else 8
  | .remember _ _ => 0

def Step.room : Step Module Slot → Nat
  | .prologue _ address minInstructionSize _ =>
      trampolineRoom cave original address minInstructionSize
  | .near _ _ address srclen _ =>
      trampolineRoom cave original address (BitVec.ofNat 32 srclen)
  | _ => 0

/-- How much padding of each module a step uses up. -/
def Step.far [DecidableEq Module] : Step Module Slot → Module → Nat
  | .near info _ address srclen _ =>
      match displacedBy cave original address (BitVec.ofNat 32 srclen) with
      | none => 0
      | some _ => Pi.single info 1
  | .call info _ address _ => if address = 0 then 0 else Pi.single info 1
  | _ => 0

end Extents

/-- The cave, the modules of the far jumps and the process as it was. -/
structure Site (Module : Type) where
  cave : Cave
  segment : Module → TextSegment
  original : CodeMemory
  testFits : 6 ≤ cave.maxCaveSize.toNat
  small : ∀ info, (segment info).textsz < 2 ^ 27
  caveOffText : ∀ info, Apart cave.cavePadFunc cave.maxCaveSize.toNat
    (segment info).textbase ((segment info).textsz + 16)
  modulesApart : ∀ info other, info ≠ other →
    Apart (segment info).textbase ((segment info).textsz + 16)
      (segment other).textbase ((segment other).textsz + 16)

def Site.InCave {Module : Type} (site : Site Module) (address : Address) :
    Prop :=
  Within site.cave.cavePadFunc site.cave.maxCaveSize.toNat address

section Layout
variable {Module Slot : Type} (segment : TextSegment) (site : Site Module)

/-- Padding of the text. -/
def PaddedAt (memory : CodeMemory) (position : Nat) : Prop :=
  position < segment.textsz ∧
    ∃ padding : Padding,
      Stands (codeAt memory segment.textbase) position padding.bytes

def InText (address : Address) (count : Nat) : Prop :=
  place segment address + count ≤ segment.textsz

def OffText (address : Address) (count : Nat) : Prop :=
  Apart address count segment.textbase (segment.textsz + 16)

/-- What is asked of the arguments of one step: in the text of the modules
nothing but a `ret` is overwritten. -/
def Step.WellFormed : Step Module Slot → Prop
  | .prologue _ _ minInstructionSize destination =>
      14 ≤ minInstructionSize.toInt ∧ destination.toNat < 2 ^ 48
  | .near info _ address srclen destination =>
      (srclen = 5 ∨ srclen = 6) ∧ destination.toNat < 2 ^ 48 ∧
        (address ≠ 0 → InText (site.segment info) address srclen)
  | .call info _ address destination =>
      destination.toNat < 2 ^ 48 ∧
        (address ≠ 0 → InText (site.segment info) address 5)
  | .replace _ destination => destination.toNat < 2 ^ 48
  | .overwrite address data =>
      data.length < 2 ^ 32 ∧ (address ≠ 0 →
        (data = [ret] ∧ site.original (address + 1) ≠ 0x66) ∨
          ∀ info, OffText (site.segment info) address data.length)
  | .swap _ address _ =>
      address ≠ 0 → ∀ info, OffText (site.segment info) address 8
  | .remember _ _ => True

def Step.extentAt (step : Step Module Slot) : Nat :=
  step.extent site.cave site.original

/-- The functions lie apart from one another, from the cave and from the
padding of the modules, each in their text or away from it, and the cave has
room for all the trampolines. -/
structure Layout (steps : List (Step Module Slot)) : Prop where
  room : (steps.map (Step.room site.cave site.original)).sum ≤
    site.cave.maxCaveSize.toNat
  wellFormed : ∀ step ∈ steps, step.WellFormed site
  slots : steps.Pairwise fun first second =>
    ∀ slot, first.slot = some slot → second.slot ≠ some slot
  apart : steps.Pairwise fun first second =>
    Apart first.address (first.extentAt site) second.address
      (second.extentAt site)
  offCave : ∀ step ∈ steps, ∀ address,
    Within step.address (step.extentAt site) address → ¬ site.InCave address
  placed : ∀ step ∈ steps, ∀ info,
    InText (site.segment info) step.address (step.extentAt site) ∨
      OffText (site.segment info) step.address (step.extentAt site)
  offPadding : ∀ step ∈ steps, ∀ info position,
    PaddedAt (site.segment info) site.original position →
      Apart step.address (step.extentAt site)
        ((site.segment info).textbase + BitVec.ofNat 64 position) 16

end Layout

/-! ## Padding under a patch -/

section Padding
variable (segment : TextSegment)

/-- The patch makes no padding and spoils none. -/
def Quiet (memory : CodeMemory) (patch : Patch 64 UInt8) : Prop :=
  ∀ (padding : Padding) (position : Nat), position < segment.textsz →
    Stands (codeAt (patch.apply memory) segment.textbase) position
      padding.bytes →
    Stands (codeAt memory segment.textbase) position padding.bytes ∧
      patch.Off (segment.textbase + BitVec.ofNat 64 position) 16

theorem within_scan (position : Nat) (inside : position < segment.textsz)
    (address : Address)
    (here : Within (segment.textbase + BitVec.ofNat 64 position) 16
      address) :
    Within segment.textbase (segment.textsz + 16) address := by
  have bounded := segment.inUserSpace
  exact within_mono _ (position + 16) _ (by omega) address
    (within_of_later _ position 16 (by omega) address here)

theorem stands_of_same (memory other : CodeMemory) (position : Nat)
    (padding : Padding)
    (same : ∀ address,
      Within (segment.textbase + BitVec.ofNat 64 position) 16 address →
        other address = memory address)
    (stands : Stands (codeAt memory segment.textbase) position
      padding.bytes) :
    Stands (codeAt other segment.textbase) position padding.bytes := by
  rw [← holds_iff_stands] at stands ⊢
  apply holds_congr memory other _ _ stands
  intro address inside
  rw [padding.length_bytes] at inside
  exact same address inside

theorem quiet_offText (memory : CodeMemory) (patch : Patch 64 UInt8)
    (off : patch.Off segment.textbase (segment.textsz + 16)) :
    Quiet segment memory patch := by
  intro padding position inside stands
  have away : patch.Off (segment.textbase + BitVec.ofNat 64 position) 16 := by
    intro address covers here
    exact off address covers
      (within_scan segment position inside address here)
  refine ⟨?_, away⟩
  apply stands_of_same segment _ memory position padding ?_ stands
  intro address here
  rw [Patch.apply, write_outside memory _ _ address fun covers =>
    away address covers here]

theorem address_of_place (address : Address) :
    segment.textbase + BitVec.ofNat 64 (place segment address) =
      address := by
  rw [place, BitVec.ofNat_toNat, BitVec.setWidth_eq, add_sub_cancel]

theorem apart_of_clear (start count position otherCount : Nat)
    (clear : Clear start count position otherCount)
    (fits : start + count ≤ 2 ^ 64) (otherFits : position + otherCount ≤ 2 ^ 64) :
    Apart (segment.textbase + BitVec.ofNat 64 start) count
      (segment.textbase + BitVec.ofNat 64 position) otherCount := by
  rcases clear with before | behind
  · exact apart_consecutive _ start position count otherCount before otherFits
  · exact apart_symm _ _ _ _
      (apart_consecutive _ position start otherCount count behind fits)

/-- Inert bytes are quiet wherever they are written. -/
theorem quiet_inert (memory : CodeMemory) (patch : Patch 64 UInt8)
    (fits : place segment patch.address + patch.data.length ≤ 2 ^ 64)
    (inert : ∀ padding : Padding, Inert padding.bytes patch.data) :
    Quiet segment memory patch := by
  intro padding position inside stands
  have bounded := segment.inUserSpace
  have source := address_of_place segment patch.address
  have spliced : Stands (splice (codeAt memory segment.textbase)
      (place segment patch.address) patch.data) position padding.bytes := by
    apply stands_congr _ _ position padding.bytes stands
    intro index early
    rw [padding.length_bytes] at early
    have written := codeAt_write memory segment.textbase
      (place segment patch.address) patch.data fits (position + index)
      (by omega)
    rw [source] at written
    exact written.symm
  obtain ⟨stood, clear⟩ := occurrence_of_splice padding.bytes patch.data
    (inert padding) _ _ position spliced
  rw [padding.length_bytes] at clear
  refine ⟨stood, ?_⟩
  have apart := apart_of_clear segment _ _ _ _
    (clear_symm _ _ _ _ clear) fits (by omega)
  rwa [source] at apart

theorem ret_in_padding (padding : Padding) (index : Nat) (inside : index < 16)
    (found : padding.bytes[index]? = some ret) :
    index = 0 ∧ padding.bytes[1]? = some 0x66 := by
  revert found
  cases padding with
  | trap =>
      revert index
      decide
  | ret =>
      revert index
      decide

/-- A `ret` in front of a byte that is not padding. -/
theorem quiet_ret (memory : CodeMemory) (address : Address)
    (next : memory (address + 1) ≠ 0x66) :
    Quiet segment memory { address := address, data := [ret] } := by
  intro padding position inside stands
  have off : Patch.Off { address := address, data := [ret] }
      (segment.textbase + BitVec.ofNat 64 position) 16 := by
    intro other covers here
    have same : other = address := by
      have zero : (other - address).toNat = 0 := Nat.lt_one_iff.mp covers
      exact sub_eq_zero.mp (BitVec.eq_of_toNat_eq zero)
    rw [same] at here
    obtain ⟨index, near, reached⟩ : ∃ index < 16,
        segment.textbase + BitVec.ofNat 64 (position + index) = address := by
      refine ⟨_, here, ?_⟩
      rw [BitVec.ofNat_add, ← BitVec.add_assoc, BitVec.ofNat_toNat,
        BitVec.setWidth_eq, add_sub_cancel]
    have written := holds_write memory address [ret] (by decide) 0 ret rfl
    rw [BitVec.add_zero] at written
    have found := List.getElem?_eq_getElem
      (show index < padding.bytes.length by
        rw [padding.length_bytes]
        exact near)
    have byte := stands index _ found
    rw [codeAt, reached, Patch.apply, written] at byte
    rw [← byte] at found
    obtain ⟨first, second⟩ := ret_in_padding padding index near found
    subst first
    have behind := stands 1 0x66 second
    rw [codeAt, BitVec.ofNat_add, ← BitVec.add_assoc, ← Nat.add_zero position,
      reached, Patch.apply, write_outside] at behind
    · exact next behind
    · intro covered
      have offset := offset_of_add address 1
      rw [Within] at covered
      have small : (address + BitVec.ofNat 64 1 - address).toNat < 1 :=
        covered
      omega
  refine ⟨?_, off⟩
  apply stands_of_same segment _ memory position padding ?_ stands
  intro other here
  rw [Patch.apply, write_outside memory _ _ other fun covers =>
    off other covers here]

/-! ## How much padding there is -/

theorem padding_conflict (padding other : Padding) (shift : Nat)
    (positive : 0 < shift) (inside : shift < 16) :
    Conflict other.bytes padding.bytes shift := by
  cases padding <;> cases other <;> interval_cases shift <;>
    first
      | exact ⟨0, _, _, rfl, rfl, by decide⟩
      | exact ⟨1, _, _, rfl, rfl, by decide⟩

theorem padding_clear (text : Nat → UInt8) (padding other : Padding)
    (position further : Nat) (before : position < further)
    (stands : Stands text position padding.bytes)
    (otherStands : Stands text further other.bytes) :
    position + 16 ≤ further := by
  by_contra overlap
  obtain ⟨index, byte, otherByte, inOther, inPadding, differ⟩ :=
    padding_conflict padding other (further - position) (by omega) (by omega)
  have fromOther := otherStands index byte inOther
  have fromPadding := stands _ otherByte inPadding
  rw [show position + (index + (further - position)) = further + index by
    omega, fromOther] at fromPadding
  exact differ fromPadding

theorem paddedAt_apart (memory : CodeMemory) (position other : Nat)
    (padded : PaddedAt segment memory position)
    (otherPadded : PaddedAt segment memory other)
    (differ : position ≠ other) :
    Apart (segment.textbase + BitVec.ofNat 64 position) 16
      (segment.textbase + BitVec.ofNat 64 other) 16 := by
  have bounded := segment.inUserSpace
  obtain ⟨inside, padding, stands⟩ := padded
  obtain ⟨otherInside, otherPadding, otherStands⟩ := otherPadded
  apply apart_of_clear segment _ _ _ _ ?_ (by omega) (by omega)
  rcases Nat.lt_or_gt_of_ne differ with before | behind
  · exact Or.inl (padding_clear _ _ _ _ _ before stands otherStands)
  · exact Or.inr (padding_clear _ _ _ _ _ behind otherStands stands)

/-- There are at least so many paddings. -/
def Spare (memory : CodeMemory) (count : Nat) : Prop :=
  ∃ positions : List Nat, positions.Nodup ∧ count ≤ positions.length ∧
    ∀ position ∈ positions, PaddedAt segment memory position

theorem spare_mono (memory : CodeMemory) (count fewer : Nat)
    (less : fewer ≤ count) (spare : Spare segment memory count) :
    Spare segment memory fewer := by
  obtain ⟨positions, nodup, enough, padded⟩ := spare
  exact ⟨positions, nodup, by omega, padded⟩

theorem found_of_spare (memory : CodeMemory)
    (spare : Spare segment memory 1) : findJmpArea segment memory ≠ 0 := by
  obtain ⟨positions, -, enough, padded⟩ := spare
  obtain ⟨position, member⟩ := List.exists_mem_of_length_pos enough
  obtain ⟨inside, padding, stands⟩ := padded position member
  have some : segment.textsz ≠ 0 := by omega
  have found : ∀ other : Padding,
      patternScan (codeAt memory segment.textbase) segment.textbase
          segment.textsz other.signature (BitVec.ofNat 64 other.offset) = 0 →
        other ≠ padding := by
    intro other zero same
    subst same
    rcases patternScan_bytes (codeAt memory segment.textbase)
        segment.textbase segment.textsz (other.bytes.map Token.byte)
        other.signature (patternToByte_padding other)
        (by cases other <;> simp [Padding.bytes]) (by simp)
        (BitVec.ofNat 64 other.offset) segment.notNull some with
      ⟨first, early, -, -, value⟩ | ⟨nowhere, -⟩
    · have bounds := other.offset_bounds
      rw [value, BitVec.add_assoc, ← BitVec.ofNat_add] at zero
      exact offset_ne_zero segment _ (by omega) zero
    · exact nowhere position inside
        ((looselyAt_iff_stands _ _ _).mpr stands)
  intro nothing
  rw [findJmpArea] at nothing
  split at nothing
  · rename_i noTrap
    cases padding with
    | trap => exact found .trap noTrap rfl
    | ret => exact found .ret nothing rfl
  · rename_i trap
    exact trap nothing

theorem spare_off (memory : CodeMemory) (patch : Patch 64 UInt8)
    (off : ∀ position, PaddedAt segment memory position →
      patch.Off (segment.textbase + BitVec.ofNat 64 position) 16)
    (count : Nat) (spare : Spare segment memory count) :
    Spare segment (patch.apply memory) count := by
  obtain ⟨positions, nodup, enough, padded⟩ := spare
  refine ⟨positions, nodup, enough, ?_⟩
  intro position member
  have here := padded position member
  obtain ⟨inside, padding, stands⟩ := here
  refine ⟨inside, padding, stands_of_same segment memory _ position padding
    ?_ stands⟩
  intro address within
  rw [Patch.apply, write_outside memory _ _ address fun covers =>
    off position ⟨inside, padding, stands⟩ address covers within]

theorem spare_area (memory : CodeMemory) (patch : Patch 64 UInt8)
    (position : Nat) (padded : PaddedAt segment memory position)
    (covered : ∀ address, patch.Covers address →
      Within (segment.textbase + BitVec.ofNat 64 position) 16 address)
    (count : Nat) (spare : Spare segment memory (count + 1)) :
    Spare segment (patch.apply memory) count := by
  obtain ⟨positions, nodup, enough, all⟩ := spare
  refine ⟨positions.erase position, nodup.erase position, ?_, ?_⟩
  · have shorter := @List.length_erase_le _ _ position positions
    have most := @List.le_length_erase _ _ _ position positions
    omega
  · intro other member
    obtain ⟨differ, old⟩ := (nodup.mem_erase_iff).mp member
    have apart := paddedAt_apart segment memory position other padded
      (all other old) (Ne.symm differ)
    obtain ⟨inside, padding, stands⟩ := all other old
    refine ⟨inside, padding, stands_of_same segment memory _ other padding
      ?_ stands⟩
    intro address within
    rw [Patch.apply, write_outside memory _ _ address fun covers =>
      apart address (covered address covers) within]

end Padding

end HenPlugins.Memory.TakeOver
