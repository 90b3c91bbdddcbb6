import Mathlib.Tactic.IntervalCases
import HenPlugins.Hde.Disasm

/-!
# What an instruction depends on

Every look-up of `hde64_disasm` stays inside the tables, and each stretch of it
is steady.  So the record of an instruction is settled by its own bytes, except
where it would be longer than 15: then they settle that it is an error.
-/

set_option autoImplicit false

namespace HenPlugins.Hde.Locality

open HenPlugins.Lib.ByteCursor
open HenPlugins.Memory.CodeCave (fModrm fRelative fError)
open HenPlugins.Hde.Table
open HenPlugins.Hde.Disasm

/-! ## The tables -/

theorem forall_byte (holds : UInt8 → Prop)
    (all : ∀ number : Fin 256, holds (UInt8.ofFin number)) (byte : UInt8) :
    holds byte := by
  have given := all byte.toFin
  rwa [UInt8.ofFin_toFin] at given

set_option maxRecDepth 2048 in
@[simp] theorem length_hde64Table : hde64Table.length = 529 := by rfl

theorem table_isSome (index : Nat) (inside : index < 529) :
    hde64Table[index]?.isSome = true := by
  rw [List.getElem?_eq_getElem (by rw [length_hde64Table]; exact inside)]
  rfl

/-- The values that `cflags` takes. -/
def opcodeKinds : List UInt8 :=
  [0x00, 0x01, 0x02, 0x03, 0x04, 0x06, 0x10, 0x11, 0x20, 0x50]

/-- The kind is known, also with the operand of `test`. -/
def KnownKind (opcode : UInt8) (found : Option (Bool × UInt8 × UInt8)) : Bool :=
  found.any fun outcome => outcome.2.1 ∈ opcodeKinds ∧
    (opcode = 0xf6 → (outcome.2.1 ||| cImm8) ∈ opcodeKinds) ∧
    (opcode = 0xf7 → (outcome.2.1 ||| cImmP66) ∈ opcodeKinds)

theorem opcodeFlags_again (ht : Nat) (opcode : UInt8) :
    KnownKind opcode (opcodeFlags true ht opcode) = true := by
  show KnownKind opcode
    (some (true, if opcode &&& 0xfd = 0x24 then 1 else 0, 0)) = true
  revert opcode
  apply forall_byte
  decide +kernel

theorem opcodeFlags_first (opcode : UInt8) :
    KnownKind opcode (opcodeFlags false 0 opcode) = true := by
  revert opcode
  apply forall_byte
  decide +kernel

theorem opcodeFlags_second (opcode : UInt8) :
    KnownKind opcode (opcodeFlags false deltaOpcodes opcode) = true := by
  revert opcode
  apply forall_byte
  decide +kernel

theorem entry_prefixes (opcode : UInt8) :
    (entry deltaPrefixes opcode).isSome = true := by
  revert opcode
  apply forall_byte
  decide +kernel

theorem prefixError_isSome (opcode2 opcode pref : UInt8) :
    (prefixError opcode2 opcode pref).isSome = true := by
  rw [prefixError]
  split
  · rw [Option.isSome_map]
    exact entry_prefixes opcode
  · rfl

theorem fpuError_isSome (opcode mMod mReg mRm : UInt8) (low : 0xd9 ≤ opcode)
    (high : opcode ≤ 0xdf) (register : mReg ≤ 7) :
    (fpuError opcode mMod mReg mRm).isSome = true := by
  have t : (opcode - 0xd9).toNat ≤ 6 := by
    rw [UInt8.toNat_sub_of_le _ _ low]
    rw [UInt8.le_iff_toNat_le] at low high
    have last : (0xdf : UInt8).toNat = 0xdf := rfl
    have first : (0xd9 : UInt8).toNat = 0xd9 := rfl
    omega
  rw [UInt8.le_iff_toNat_le] at register
  have seven : (7 : UInt8).toNat = 7 := rfl
  simp only [fpuError, deltaFpuModrm, deltaFpuReg]
  split
  · rw [Option.isSome_map]
    exact table_isSome _ (by omega)
  · rw [Option.isSome_map]
    exact table_isSome _ (by omega)

theorem lockLoop_isSome (op mReg : UInt8) (steps ht : Nat)
    (inside : ht + 2 * steps ≤ 529) :
    (lockLoop op mReg (2 * steps) ht).isSome = true := by
  induction steps generalizing ht with
  | zero => rfl
  | succ steps ih =>
      obtain ⟨first, hasFirst⟩ :=
        Option.isSome_iff_exists.mp (table_isSome ht (by omega))
      obtain ⟨mask, hasMask⟩ :=
        Option.isSome_iff_exists.mp (table_isSome (ht + 1) (by omega))
      rw [Nat.mul_succ, lockLoop, hasFirst, Option.bind_eq_bind,
        Option.bind_some]
      split
      · rw [hasMask]
        rfl
      · exact ih (ht + 2) (by omega)

theorem onlyMemLoop_isSome (opcode pref mReg : UInt8) (steps ht : Nat)
    (inside : ht + 3 * steps ≤ 529) :
    (onlyMemLoop opcode pref mReg (3 * steps) ht).isSome = true := by
  induction steps generalizing ht with
  | zero => rfl
  | succ steps ih =>
      obtain ⟨first, hasFirst⟩ :=
        Option.isSome_iff_exists.mp (table_isSome ht (by omega))
      obtain ⟨prefixes, hasPrefixes⟩ :=
        Option.isSome_iff_exists.mp (table_isSome (ht + 1) (by omega))
      obtain ⟨mask, hasMask⟩ :=
        Option.isSome_iff_exists.mp (table_isSome (ht + 2) (by omega))
      rw [Nat.mul_succ, onlyMemLoop, hasFirst, Option.bind_eq_bind,
        Option.bind_some]
      split
      · rw [hasPrefixes, Option.bind_some]
        split
        · rw [hasMask]
          rfl
        · rfl
      · exact ih (ht + 3) (by omega)

theorem lockError_isSome (opcode2 opcode mMod mReg : UInt8) :
    (lockError opcode2 opcode mMod mReg).isSome = true := by
  rw [lockError]
  split
  · rfl
  · split
    · exact lockLoop_isSome _ _ 9 _ (by decide)
    · exact lockLoop_isSome _ _ 12 _ (by decide)

theorem memoryError_isSome (opcode2 opcode pref mMod mReg : UInt8) :
    (memoryError opcode2 opcode pref mMod mReg).isSome = true := by
  rw [memoryError]
  split
  · split
    · rw [length_hde64Table]
      exact onlyMemLoop_isSome _ _ _ 14 _ (by decide)
    · exact onlyMemLoop_isSome _ _ _ 5 _ (by decide)
  · split
    · split
      · rfl
      · split
        · rfl
        · split <;> rfl
    · rfl

theorem operandError_isSome (opcode2 opcode pref mMod mReg : UInt8) :
    (operandError opcode2 opcode pref mMod mReg).isSome = true := by
  have memory := memoryError_isSome opcode2 opcode pref mMod mReg
  unfold operandError
  repeat' split
  all_goals first | rfl | rwa [Option.isSome_map]

theorem checkOperands_isSome (x opcode pref : UInt8) (hs : Hde64s)
    (register : hs.modrmReg ≤ 7) :
    (checkOperands x opcode pref hs).isSome = true := by
  have fpu : (fpuCheck opcode hs).isSome = true := by
    rw [fpuCheck]
    split
    · rename_i range
      exact fpuError_isSome _ _ _ _ range.2.1 range.2.2 register
    · rfl
  have lock : (lockCheck opcode pref hs).isSome = true := by
    rw [lockCheck]
    split
    · exact lockError_isSome _ _ _ _
    · rfl
  obtain ⟨fpuFound, hasFpu⟩ := Option.isSome_iff_exists.mp fpu
  obtain ⟨lockFound, hasLock⟩ := Option.isSome_iff_exists.mp lock
  obtain ⟨operand, hasOperand⟩ := Option.isSome_iff_exists.mp
    (operandError_isSome hs.opcode2 opcode pref hs.modrmMod hs.modrmReg)
  simp only [checkOperands, hasFpu, hasLock, hasOperand, Option.bind_eq_bind,
    Option.bind_some]
  rfl

theorem register_le (c : UInt8) : (c &&& 0x3f) >>> 3 ≤ 7 := by
  revert c
  apply forall_byte
  decide +kernel

/-! ## Steadiness -/

theorem steady_prefixLoop (x : Nat) (hs : Hde64s) (pref c : UInt8) :
    Steady (prefixLoop x hs pref c) := by
  induction x generalizing hs pref c with
  | zero => exact steady_pure _
  | succ x ih =>
      refine steady_bind _ _ steady_take fun c => ?_
      cases onPrefix c hs with
      | none => exact steady_pure _
      | some found => exact ih found.1 (pref ||| found.2) c

theorem steady_rexByte (hs : Hde64s) (c : UInt8) :
    Steady (rexByte hs c) := by
  rw [rexByte]
  split
  · by_cases wide : (c &&& 0xf) >>> 3 ≠ 0
    · rw [wideMove, if_pos wide]
      exact steady_look_take _ fun seen next => steady_pure _
    · rw [wideMove, if_neg wide]
      exact steady_bind _ _ (steady_pure 0) fun op64 =>
        steady_bind _ _ steady_take fun next => steady_pure _
  · exact steady_pure _

theorem steady_opcodeByte (hs : Hde64s) (pref : UInt8) (op64 : Nat)
    (c : UInt8) (again : Bool) :
    Steady (opcodeByte hs pref op64 c again) := by
  rw [opcodeByte]
  split
  · exact steady_pure _
  · split
    · exact steady_bind _ _ steady_take fun next => steady_pure _
    · split
      · exact steady_pure _
      · exact steady_pure _

theorem steady_sibByte (hs : Hde64s) (mMod mRm : UInt8) (size : Nat) :
    Steady (sibByte hs mMod mRm size) := by
  by_cases sib : mMod ≠ 3 ∧ mRm = 4
  · simp only [sibByte, if_pos sib]
    exact steady_look_take _ fun c _ => steady_pure _
  · simp only [sibByte, if_neg sib]
    exact steady_look_unused _ (steady_pure _)

theorem steady_dispBytes (hs : Hde64s) (size : Nat) :
    Steady (dispBytes hs size) :=
  steady_bind _ _ (steady_takes size) fun _ => steady_pure _

theorem steady_operandPart (x cflags : UInt8) (here : Opcode) :
    Steady (operandPart x cflags here) := by
  rw [operandPart]
  split
  · refine steady_bind _ _ steady_take fun c => ?_
    refine steady_bind _ _ (steady_ofOption _) fun checked => ?_
    refine steady_bind _ _ (steady_sibByte _ _ _ _) fun scaled => ?_
    exact steady_bind _ _ (steady_dispBytes _ _) fun hs => steady_pure _
  · exact steady_pure _

theorem steady_immediate (count : Nat) (flags : BitVec 32) (hs : Hde64s) :
    Steady (immediate count flags hs) :=
  steady_bind _ _ (steady_takes count) fun _ => steady_pure _

theorem steady_imm8Part (cflags : UInt8) (hs : Hde64s) :
    Steady (imm8Part cflags hs) := by
  refine steady_bind _ _ ?_ fun hs => ?_
  · rw [imm8Byte]
    split
    · exact steady_immediate _ _ _
    · exact steady_pure _
  · rw [relPart]
    split
    · exact steady_immediate _ _ _
    · split
      · exact steady_immediate _ _ _
      · exact steady_pure _

theorem steady_imm16Part (cflags : UInt8) (hs : Hde64s) :
    Steady (imm16Part cflags hs) := by
  refine steady_bind _ _ ?_ fun hs => steady_imm8Part cflags hs
  rw [imm16Bytes]
  split
  · exact steady_immediate _ _ _
  · exact steady_pure _

theorem steady_immBytes (pref : UInt8) (op64 : Nat) (cflags : UInt8)
    (hs : Hde64s) : Steady (immBytes pref op64 cflags hs) := by
  rw [immBytes]
  split
  · split
    · split
      · exact steady_immediate _ _ _
      · exact steady_immediate _ _ _
    · split
      · exact steady_bind _ _ (steady_immediate _ _ _) fun hs =>
          steady_imm16Part cflags hs
      · split
        · exact steady_bind _ _ (steady_immediate _ _ _) fun hs =>
            steady_imm16Part cflags hs
        · exact steady_bind _ _ (steady_immediate _ _ _) fun hs =>
            steady_imm8Part cflags hs
  · exact steady_imm16Part cflags hs

theorem steady_behindPrefixes (hs : Hde64s) (pref c : UInt8) :
    Steady (behindPrefixes hs pref c) := by
  refine steady_bind _ _ (steady_rexByte _ _) fun extended => ?_
  refine steady_bind _ _ (steady_opcodeByte _ _ _ _ _) fun here => ?_
  refine steady_bind _ _ (steady_ofOption _) fun looked => ?_
  refine steady_bind _ _ (steady_ofOption _) fun forbidden => ?_
  refine steady_bind _ _ (steady_operandPart _ _ _) fun operand => ?_
  exact steady_immBytes _ _ _ _

theorem steady_instruction : Steady instruction :=
  steady_bind _ _ (steady_prefixLoop _ _ _ _) fun _ =>
    steady_behindPrefixes _ _ _

/-! ## No look-up fails -/

/-- The flag of an instruction that is too long comes last. -/
def LengthUnset (hs : Hde64s) : Prop := hs.flags &&& fErrorLength = 0

theorem lengthUnset_or (first second : BitVec 32)
    (firstUnset : first &&& fErrorLength = 0)
    (secondUnset : second &&& fErrorLength = 0) :
    (first ||| second) &&& fErrorLength = 0 := by
  rw [BitVec.and_or_distrib_right, firstUnset, secondUnset]
  rfl

theorem lengthUnset_raise (hs : Hde64s) (error : Bool) (kind : BitVec 32)
    (other : kind &&& fErrorLength = 0) (unset : LengthUnset hs) :
    LengthUnset (hs.raise error kind) := by
  cases error with
  | false => exact unset
  | true => exact lengthUnset_or _ _ unset (lengthUnset_or _ _ rfl other)

theorem prefixFlags_lengthUnset (pref : UInt8) :
    prefixFlags pref &&& fErrorLength = 0 := by
  revert pref
  apply forall_byte
  decide +kernel

theorem yields_prefixLoop (x : Nat) (hs : Hde64s) (pref c : UInt8) :
    Yields x (fun _ => True) (prefixLoop x hs pref c) := by
  induction x generalizing hs pref c with
  | zero => exact yields_pure _ _ trivial
  | succ x ih =>
      refine yields_mono (1 + x) (x + 1) (by omega) _ _ (fun _ => id) _ ?_
      refine yields_bind 1 x _ _ _ _ yields_take fun c _ => ?_
      cases onPrefix c hs with
      | none => exact yields_done x _ _ trivial
      | some found => exact ih found.1 (pref ||| found.2) c

theorem yields_rexByte (hs : Hde64s) (c : UInt8) (unset : LengthUnset hs) :
    Yields 1 (fun extended => LengthUnset extended.1) (rexByte hs c) := by
  rw [rexByte]
  split
  · refine yields_bind 0 1 (fun _ => True) _ _ _ ?_ fun op64 _ => ?_
    · rw [wideMove]
      split
      · exact yields_bind 0 0 _ _ _ _ yields_look fun next _ =>
          yields_pure _ _ trivial
      · exact yields_pure _ _ trivial
    · exact yields_bind 1 0 _ _ _ _ yields_take fun next _ =>
        yields_pure _ _ (lengthUnset_or _ _ unset rfl)
  · exact yields_done 1 _ _ unset

/-- The table is one of the two that hold opcodes. -/
def AtOpcode (here : Opcode) : Prop :=
  LengthUnset here.hs ∧ (here.ht = 0 ∨ here.ht = deltaOpcodes)

theorem yields_opcodeByte (hs : Hde64s) (pref : UInt8) (op64 : Nat)
    (c : UInt8) (again : Bool) (unset : LengthUnset hs) :
    Yields 1 AtOpcode (opcodeByte hs pref op64 c again) := by
  rw [opcodeByte]
  split
  · exact yields_done 1 _ _ ⟨unset, Or.inl rfl⟩
  · split
    · exact yields_bind 1 0 _ _ _ _ yields_take fun next _ =>
        yields_pure _ _ ⟨unset, Or.inr rfl⟩
    · split
      · exact yields_done 1 _ _ ⟨unset, Or.inl rfl⟩
      · exact yields_done 1 _ _ ⟨unset, Or.inl rfl⟩

theorem opcodeFlags_known (again : Bool) (ht : Nat) (opcode : UInt8)
    (table : ht = 0 ∨ ht = deltaOpcodes) :
    KnownKind opcode (opcodeFlags again ht opcode) = true := by
  cases again with
  | true => exact opcodeFlags_again ht opcode
  | false =>
      rcases table with rfl | rfl
      · exact opcodeFlags_first opcode
      · exact opcodeFlags_second opcode

theorem checkOperands_unset (x opcode pref : UInt8) (hs : Hde64s)
    (unset : LengthUnset hs) (checked : Hde64s × UInt8)
    (found : checkOperands x opcode pref hs = some checked) :
    LengthUnset checked.1 := by
  simp only [checkOperands, Option.bind_eq_bind, Option.bind_eq_some_iff,
    Option.some.injEq] at found
  obtain ⟨fpu, -, lock, -, operand, -, rfl⟩ := found
  exact lengthUnset_raise _ _ _ rfl (lengthUnset_raise _ _ _ rfl
    (lengthUnset_raise _ _ _ rfl (lengthUnset_raise _ _ _ rfl unset)))

theorem dispSize_le (pref mMod mRm : UInt8) : dispSize pref mMod mRm ≤ 4 := by
  unfold dispSize
  repeat' split
  all_goals omega

theorem yields_sibByte (hs : Hde64s) (mMod mRm : UInt8) (size : Nat)
    (small : size ≤ 4) (unset : LengthUnset hs) :
    Yields 1 (fun scaled => scaled.2 ≤ 4 ∧ LengthUnset scaled.1)
      (sibByte hs mMod mRm size) := by
  refine yields_bind 0 1 _ _ _ _ yields_look fun c _ => ?_
  split
  · refine yields_bind 1 0 _ _ _ _ yields_take fun _ _ =>
      yields_pure _ _ ⟨?_, lengthUnset_or _ _ unset rfl⟩
    show (if _ then 4 else _) ≤ 4
    split <;> omega
  · exact yields_done 1 _ _ ⟨small, unset⟩

theorem dispFlag_unset (size : Nat) (small : size ≤ 4) :
    dispFlag size &&& fErrorLength = 0 := by
  interval_cases size <;> rfl

theorem yields_dispBytes (hs : Hde64s) (size : Nat) (small : size ≤ 4)
    (unset : LengthUnset hs) :
    Yields 4 LengthUnset (dispBytes hs size) := by
  refine yields_mono (size + 0) 4 small _ _ (fun _ => id) _ ?_
  exact yields_bind _ 0 _ _ _ _ (yields_takes size) fun _ _ =>
    yields_pure _ _ (lengthUnset_or _ _ unset (dispFlag_unset size small))

theorem yields_operandPart (x cflags : UInt8) (here : Opcode)
    (unset : LengthUnset here.hs) :
    Yields 6 (fun operand => LengthUnset operand.1)
      (operandPart x cflags here) := by
  rw [operandPart]
  split
  · refine yields_bind 1 5 _ _ _ _ yields_take fun c _ => ?_
    obtain ⟨checked, found⟩ := Option.isSome_iff_exists.mp
      (checkOperands_isSome x here.opcode here.pref (withModrm here.hs c)
        (register_le c))
    have modrmUnset : LengthUnset (withModrm here.hs c) :=
      lengthUnset_or _ _ unset rfl
    refine yields_bind 0 5 (fun checked => LengthUnset checked.1) _ _ _
      (yields_ofOption _ _ ⟨checked, found, checkOperands_unset _ _ _ _
        modrmUnset checked found⟩) fun checked kept => ?_
    refine yields_bind 1 4 _ _ _ _ (yields_sibByte _ _ _ _
      (dispSize_le _ _ _) kept) fun scaled both => ?_
    exact yields_bind 4 0 _ _ _ _ (yields_dispBytes _ _ both.1 both.2)
      fun hs last => yields_pure _ _ last
  · exact yields_done 6 _ _ (lengthUnset_raise _ _ _ rfl unset)

theorem yields_immediate (count : Nat) (flags : BitVec 32) (hs : Hde64s)
    (other : flags &&& fErrorLength = 0) (unset : LengthUnset hs) :
    Yields count LengthUnset (immediate count flags hs) :=
  yields_bind count 0 _ _ _ _ (yields_takes count) fun _ _ =>
    yields_pure _ _ (lengthUnset_or _ _ unset other)

theorem yields_imm8Part (cflags : UInt8) (hs : Hde64s)
    (unset : LengthUnset hs) :
    Yields 5 LengthUnset (imm8Part cflags hs) := by
  refine yields_bind 1 4 LengthUnset _ _ _ ?_ fun hs unset => ?_
  · rw [imm8Byte]
    split
    · exact yields_immediate 1 _ hs rfl unset
    · exact yields_done 1 _ _ unset
  · rw [relPart]
    split
    · exact yields_immediate 4 _ hs rfl unset
    · split
      · exact yields_mono 1 4 (by omega) _ _ (fun _ => id) _
          (yields_immediate 1 _ hs rfl unset)
      · exact yields_done 4 _ _ unset

theorem yields_imm16Part (cflags : UInt8) (hs : Hde64s)
    (unset : LengthUnset hs) :
    Yields 7 LengthUnset (imm16Part cflags hs) := by
  refine yields_bind 2 5 LengthUnset _ _ _ ?_ fun hs unset =>
    yields_imm8Part cflags hs unset
  rw [imm16Bytes]
  split
  · exact yields_immediate 2 _ hs rfl unset
  · exact yields_done 2 _ _ unset

theorem yields_immBytes (pref : UInt8) (op64 : Nat) (cflags : UInt8)
    (hs : Hde64s) (unset : LengthUnset hs) :
    Yields 15 LengthUnset (immBytes pref op64 cflags hs) := by
  have short : ∀ count, count ≤ 15 → ∀ computation : Cursor UInt8 Hde64s,
      Yields count LengthUnset computation →
        Yields 15 LengthUnset computation :=
    fun count small => yields_mono count 15 small _ _ fun _ => id
  rw [immBytes]
  split
  · split
    · split
      · exact short 2 (by omega) _ (yields_immediate 2 _ hs rfl unset)
      · exact short 4 (by omega) _ (yields_immediate 4 _ hs rfl unset)
    · split
      · exact yields_bind 8 7 _ _ _ _ (yields_immediate 8 _ hs rfl unset)
          fun hs unset => yields_imm16Part cflags hs unset
      · split
        · exact short 11 (by omega) _ (yields_bind 4 7 _ _ _ _
            (yields_immediate 4 _ hs rfl unset) fun hs unset =>
              yields_imm16Part cflags hs unset)
        · exact short 7 (by omega) _ (yields_bind 2 5 _ _ _ _
            (yields_immediate 2 _ hs rfl unset) fun hs unset =>
              yields_imm8Part cflags hs unset)
  · exact short 7 (by omega) _ (yields_imm16Part cflags hs unset)

theorem yields_behindPrefixes (hs : Hde64s) (pref c : UInt8)
    (unset : LengthUnset hs) :
    Yields 23 LengthUnset (behindPrefixes hs pref c) := by
  refine yields_bind 1 22 _ _ _ _ (yields_rexByte hs c unset)
    fun extended unset => ?_
  refine yields_bind 1 21 _ _ _ _ (yields_opcodeByte _ _ _ _ _ unset)
    fun here atOpcode => ?_
  obtain ⟨looked, hasLooked, -⟩ := (Option.any_eq_true _ _).mp
    (opcodeFlags_known extended.2.2.2 here.ht here.opcode atOpcode.2)
  refine yields_bind 0 21 (fun _ => True) _ _ _
    (yields_ofOption _ _ ⟨looked, hasLooked, trivial⟩) fun looked _ => ?_
  obtain ⟨forbidden, hasForbidden⟩ := Option.isSome_iff_exists.mp
    (prefixError_isSome here.hs.opcode2 here.opcode here.pref)
  refine yields_bind 0 21 (fun _ => True) _ _ _
    (yields_ofOption _ _ ⟨forbidden, hasForbidden, trivial⟩)
    fun forbidden _ => ?_
  refine yields_bind 6 15 _ _ _ _ (yields_operandPart _ _ _ ?_)
    fun operand unset => yields_immBytes _ _ _ _ unset
  exact lengthUnset_raise _ _ _ rfl (lengthUnset_raise _ _ _ rfl atOpcode.1)

/-- No instruction keeps the function from returning. -/
theorem yields_instruction : Yields 39 LengthUnset instruction :=
  yields_bind 16 23 _ _ _ _ (yields_prefixLoop 16 cleared 0 0) fun prefixed _ =>
    yields_behindPrefixes _ _ _ (prefixFlags_lengthUnset prefixed.2.1)

/-! ## The bytes of an instruction -/

theorem lt_of_run_prefixLoop (code : Nat → UInt8) (x : Nat) (hs : Hde64s)
    (pref c : UInt8) (position stop : Nat) (found : Hde64s × UInt8 × UInt8)
    (ran : run code (prefixLoop (x + 1) hs pref c) position =
      some (found, stop)) : position < stop := by
  rw [prefixLoop, run_bind, run_take, Option.bind_some] at ran
  cases kind : onPrefix (code position) hs with
  | none =>
      simp only [kind] at ran
      cases ran
      exact Nat.lt_succ_self position
  | some bit =>
      simp only [kind] at ran
      exact (steady_prefixLoop _ _ _ _).forward _ _ _ _ ran

theorem pos_of_run_instruction (code : Nat → UInt8) (hs : Hde64s) (size : Nat)
    (ran : run code instruction 0 = some (hs, size)) : 0 < size := by
  obtain ⟨prefixed, between, first, later⟩ :=
    (run_bind_eq_some _ _ _ _ _ _).mp ran
  have moved := lt_of_run_prefixLoop code 15 _ _ _ 0 between prefixed first
  have onward := (steady_behindPrefixes _ _ _).forward _ _ _ _ later
  omega

/-- What is known of the record of an instruction. -/
structure Settled (code : Nat → UInt8) (hs : Hde64s) : Prop where
  decoded : hde64Disasm code = some hs
  nonempty : 1 ≤ hs.len
  short : hs.len ≤ 15
  /-- Its bytes settle the record, and one byte more is read at most. -/
  own : hs.hasFlag fErrorLength = false →
    (∀ other, (∀ index < hs.len.toNat, other index = code index) →
      hde64Disasm other = some hs) ∧
    ∀ index ∈ reads code instruction 0, index ≤ hs.len.toNat
  /-- Fifteen bytes settle that an instruction is too long, and how far it is
  read is bounded all the same. -/
  tooLong : hs.hasFlag fErrorLength = true →
    hs.len = 15 ∧ hs.hasFlag fError = true ∧
      (∀ index ∈ reads code instruction 0, index ≤ 39) ∧
      ∀ other, (∀ index < 15, other index = code index) →
        ∃ error, hde64Disasm other = some error ∧ error.len = 15 ∧
          error.hasFlag fErrorLength = true ∧ error.hasFlag fError = true

theorem toNat_size (size : Nat) (small : size ≤ 39) :
    (UInt8.ofNat size).toNat = size := by
  rw [UInt8.toNat_ofNat']
  omega

theorem withLength_short (hs : Hde64s) (size : Nat) (short : size ≤ 15) :
    withLength hs size = { hs with len := UInt8.ofNat size } := by
  have fifteen : (15 : UInt8).toNat = 15 := rfl
  have size := toNat_size size (by omega)
  rw [withLength, if_neg]
  rw [UInt8.lt_iff_toNat_lt, size]
  omega

theorem withLength_long (hs : Hde64s) (size : Nat) (long : 15 < size)
    (small : size ≤ 39) :
    withLength hs size =
      { hs.addFlags (fError ||| fErrorLength) with len := 15 } := by
  have fifteen : (15 : UInt8).toNat = 15 := rfl
  have size := toNat_size size small
  rw [withLength, if_pos]
  rw [UInt8.lt_iff_toNat_lt, size]
  omega

theorem hasFlag_addFlags (hs : Hde64s) (flags flag : BitVec 32) :
    (hs.addFlags flags).hasFlag flag =
      (hs.hasFlag flag || flags &&& flag != 0) := by
  have both := @BitVec.or_eq_zero_iff 32 (hs.flags &&& flag) (flags &&& flag)
  rw [Hde64s.hasFlag, Hde64s.hasFlag, Hde64s.addFlags,
    BitVec.and_or_distrib_right, Bool.eq_iff_iff]
  simp only [bne_iff_ne, Bool.or_eq_true, ne_eq]
  exact (not_congr both).trans not_and_or

theorem withLength_long_flags (hs : Hde64s) (size : Nat) (long : 15 < size)
    (small : size ≤ 39) :
    (withLength hs size).len = 15 ∧
      (withLength hs size).hasFlag fErrorLength = true ∧
      (withLength hs size).hasFlag fError = true := by
  rw [withLength_long hs size long small]
  refine ⟨rfl, ?_, ?_⟩
  · show (hs.addFlags _).hasFlag _ = true
    rw [hasFlag_addFlags, Bool.or_eq_true]
    exact Or.inr (by decide)
  · show (hs.addFlags _).hasFlag _ = true
    rw [hasFlag_addFlags, Bool.or_eq_true]
    exact Or.inr (by decide)

theorem hde64Disasm_of_run (code : Nat → UInt8) (hs : Hde64s) (size : Nat)
    (ran : run code instruction 0 = some (hs, size)) :
    hde64Disasm code = some (withLength hs size) := by
  rw [hde64Disasm, ran]
  rfl

/-- Fifteen bytes that begin an instruction that is too long. -/
theorem long_of_same (code other : Nat → UInt8) (hs : Hde64s) (size : Nat)
    (ran : run code instruction 0 = some (hs, size)) (long : 15 < size)
    (same : ∀ index < 15, other index = code index) :
    ∃ error stop, run other instruction 0 = some (error, stop) ∧ 15 < stop ∧
      stop ≤ 39 := by
  obtain ⟨error, stop, ranOther, bounded, -⟩ := yields_instruction other 0
  refine ⟨error, stop, ranOther, ?_, by omega⟩
  by_contra notLong
  have back := steady_instruction.settled other code _ _ _ ranOther
    fun index _ inside => (same index (by omega)).symm
  rw [ran] at back
  cases back
  exact notLong long

section Lengths
variable (code : Nat → UInt8) (hs : Hde64s) (size : Nat)
  (ran : run code instruction 0 = some (hs, size))
  (bounded : size ≤ 39)

include ran bounded

theorem settled_long (long : 15 < size) :
    Settled code (withLength hs size) := by
  obtain ⟨len, length, error⟩ := withLength_long_flags hs size long bounded
  refine ⟨hde64Disasm_of_run code hs size ran, ?_, ?_, ?_, ?_⟩
  · rw [len]
    decide
  · rw [len]
    decide
  · intro none
    rw [length] at none
    contradiction
  · intro _
    refine ⟨len, error, ?_, ?_⟩
    · intro index member
      have ahead := (steady_instruction.ahead code 0 hs size ran index
        member).2
      omega
    · intro other same
      obtain ⟨found, stop, ranOther, longOther, boundOther⟩ :=
        long_of_same code other hs size ran long same
      exact ⟨withLength found stop, hde64Disasm_of_run other found stop
        ranOther, withLength_long_flags found stop longOther boundOther⟩

theorem settled_short (short : size ≤ 15)
    (unset : hs.flags &&& fErrorLength = 0) :
    Settled code { hs with len := UInt8.ofNat size } := by
  have decoded := hde64Disasm_of_run code hs size ran
  have nonempty := pos_of_run_instruction code hs size ran
  have fifteen : (15 : UInt8).toNat = 15 := rfl
  have one : (1 : UInt8).toNat = 1 := rfl
  have sized := toNat_size size bounded
  rw [withLength_short hs size short] at decoded
  refine ⟨decoded, ?_, ?_, ?_, ?_⟩
  · rw [UInt8.le_iff_toNat_le, sized, one]
    exact nonempty
  · rw [UInt8.le_iff_toNat_le, sized, fifteen]
    exact short
  · intro _
    rw [sized]
    refine ⟨?_, ?_⟩
    · intro other same
      have ranOther := steady_instruction.settled code other _ _ _ ran
        fun index _ inside => same index inside
      rw [hde64Disasm_of_run other hs size ranOther,
        withLength_short hs size short]
    · intro index member
      exact (steady_instruction.ahead code 0 hs size ran index member).2
  · intro set
    have clear : Hde64s.hasFlag { hs with len := UInt8.ofNat size }
        fErrorLength = false := by
      show (hs.flags &&& fErrorLength != 0) = false
      rw [unset]
      rfl
    rw [clear] at set
    contradiction

end Lengths

theorem exists_settled (code : Nat → UInt8) : ∃ hs, Settled code hs := by
  obtain ⟨hs, size, ran, bounded, unset⟩ := yields_instruction code 0
  by_cases long : 15 < size
  · exact ⟨_, settled_long code hs size ran (by omega) long⟩
  · exact ⟨_, settled_short code hs size ran (by omega) (by omega) unset⟩

/-- The disassembler answers for any bytes, and the bytes of the instruction
settle its answer. -/
theorem hde64Disasm_settled (code : Nat → UInt8) :
    ∃ hs, Settled code hs :=
  exists_settled code

end HenPlugins.Hde.Locality
