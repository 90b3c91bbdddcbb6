import HenPlugins.Memory.FarHook

/-!
# Near jumps

`WriteJump32` stores the distance to the target in 32 bits, and `ReadLEA32`
extends it by its sign again.  The target comes back exactly when the distance
is such an extension.
-/

set_option autoImplicit false

namespace HenPlugins.Memory.NearJump

open HenPlugins.Lib.ByteMemory
open HenPlugins.Memory.CodeCave
open HenPlugins.Memory.FarHook

/-- The number is the sign extension of one of 32 bits. -/
def FitsInt32 (number : BitVec 64) : Prop :=
  ∃ narrow : BitVec 32, narrow.signExtend 64 = number

/-- The memory after a jump of `len` bytes to `dst` was written at `src`. -/
structure ReadsBack (before after : CodeMemory) (src dst : Address)
    (len : Nat) : Prop where
  target : readLEA32 after src 0 1 5 = dst ↔ FitsInt32 (dst - src - 5)
  padding : ∀ index, 5 ≤ index → index < len →
    after (src + BitVec.ofNat 64 index) = 0x90
  frame : ∀ address, ¬ Within src len address → after address = before address

theorem fitsInt32_iff (number : BitVec 64) :
    FitsInt32 number ↔ (number.setWidth 32).signExtend 64 = number := by
  constructor
  · intro fits
    obtain ⟨narrow, rfl⟩ := fits
    have back : (narrow.signExtend 64).setWidth 32 = narrow := by
      ext index bound
      rw [BitVec.getElem_setWidth, BitVec.getLsbD_signExtend, if_pos bound]
      simp [bound, Nat.lt_trans bound]
    rw [back]
  · intro same
    exact ⟨_, same⟩

section Jump
variable (memory : CodeMemory) (src dst : Address) (len : Nat) (call : Bool)

theorem readLEA32_of_holds (given : src ≠ 0)
    (holds : Holds memory src (shortJump src dst call)) :
    readLEA32 memory src 0 1 5 =
      src + (relativeAddress src dst).signExtend 64 + 5 := by
  have distance := (relativeAddress src dst).isLt
  have operand : read memory (1 + src) 4 =
      littleEndian 4 (relativeAddress src dst).toNat := by
    have parts := (holds_append memory src [callOp call]
      (littleEndian 4 (relativeAddress src dst).toNat)).mp holds
    have bytes := read_of_holds memory _ _ parts.2
    rw [length_littleEndian] at bytes
    rw [BitVec.add_comm]
    exact bytes
  have stored : BitVec.ofNat 32
      (fromLittleEndian (read memory (1 + src) 4)) =
        relativeAddress src dst := by
    rw [operand, fromLittleEndian_littleEndian]
    apply BitVec.eq_of_toNat_eq
    rw [BitVec.toNat_ofNat]
    omega
  rw [readLEA32, if_neg given]
  simp only [stored, ne_eq, not_true_eq_false, if_false]

theorem target_iff :
    src + (relativeAddress src dst).signExtend 64 + 5 = dst ↔
      FitsInt32 (dst - src - 5) := by
  rw [fitsInt32_iff]
  have distance : relativeAddress src dst =
      (dst - src - 5).setWidth 32 := rfl
  rw [distance]
  generalize (dst - src - 5).setWidth 32 = narrow
  constructor
  · intro same
    rw [← same]
    bv_omega
  · intro same
    rw [same]
    bv_omega

/-- What `memset` has left is hidden or padding. -/
theorem jump_frame (address : Address) (long : jmpcallbytes ≤ len)
    (outside : ¬ Within src len address) :
    write (if len = 5 then memory
        else write memory src (List.replicate len 0x90)) src
      (shortJump src dst call) address = memory address := by
  rw [write_outside]
  · by_cases exactly : len = 5
    · rw [if_pos exactly]
    · rw [if_neg exactly, write_outside]
      rw [List.length_replicate]
      exact outside
  · intro within
    rw [length_shortJump] at within
    exact outside (within_mono _ _ _ long _ within)

theorem jump_padding (index : Nat) (behind : 5 ≤ index) (inside : index < len)
    (bounded : len ≤ maxLen) :
    write (if len = 5 then memory
        else write memory src (List.replicate len 0x90)) src
      (shortJump src dst call) (src + BitVec.ofNat 64 index) = 0x90 := by
  have small : index < 2 ^ 64 := by
    rw [maxLen] at bounded
    omega
  rw [write_outside]
  · rw [if_neg (by omega)]
    have holds := holds_write memory src (List.replicate len 0x90) (by
      rw [List.length_replicate]
      rw [maxLen] at bounded
      omega)
    exact holds index 0x90 (List.getElem?_eq_some_iff.mpr
      ⟨by rw [List.length_replicate]; exact inside,
        List.getElem_replicate _⟩)
  · intro within
    rw [Within, length_shortJump, offset_of_add,
      Nat.mod_eq_of_lt small] at within
    omega

end Jump

theorem writeJump32_readsBack (state : HookState) (src dst : Address)
    (len : Nat) (call : Bool) (given : src ≠ 0) (target : dst ≠ 0)
    (long : jmpcallbytes ≤ len) (bounded : len ≤ maxLen) :
    ReadsBack state.memory (writeJump32 state src dst len call).memory src dst
      len := by
  rw [writeJump32_memory state src dst len call given target long bounded]
  constructor
  · rw [readLEA32_of_holds _ src dst call given]
    · exact target_iff src dst
    · apply holds_write
      rw [length_shortJump]
      decide
  · intro index behind inside
    exact jump_padding state.memory src dst len call index behind inside
      bounded
  · intro address outside
    exact jump_frame state.memory src dst len call address long outside

/-- A jump over two bytes of padding. -/
theorem jump_readsBack :
    ReadsBack (fun _ => 0)
      (writeJump32 ⟨fun _ => 0, 0, false, []⟩ 0x400000 0x400100 7
        false).memory 0x400000 0x400100 7 :=
  writeJump32_readsBack ⟨fun _ => 0, 0, false, []⟩ 0x400000 0x400100 7 false
    (by decide) (by decide) (by decide) (by decide)

end HenPlugins.Memory.NearJump
