import HenPlugins.Hde.Locality

/-!
# The record spells the instruction

Behind the prefixes, the bytes of an instruction can be read off its record:
`REX`, opcode, `ModRM`, `SIB`, displacement and immediate operand, each if its
flag is set.  Only `enter` has two immediate operands, which share the union.
-/

set_option autoImplicit false

namespace HenPlugins.Hde.Encoding

open HenPlugins.Lib.ByteCursor
open HenPlugins.Memory.CodeCave (fModrm fRelative fError)
open HenPlugins.Hde.Table
open HenPlugins.Hde.Disasm
open HenPlugins.Hde.Locality

/-! ## Spelling -/

def rexOf (hs : Hde64s) : List UInt8 :=
  if hs.hasFlag fPrefixRex then
    [(0x40 : UInt8) ||| hs.rexW <<< 3 ||| hs.rexR <<< 2 ||| hs.rexX <<< 1 |||
      hs.rexB]
  else []

def opcodeOf (hs : Hde64s) : List UInt8 :=
  if hs.opcode = 0x0f then [hs.opcode, hs.opcode2] else [hs.opcode]

def modrmOf (hs : Hde64s) : List UInt8 :=
  if hs.hasFlag fModrm then [hs.modrm] else []

def sibOf (hs : Hde64s) : List UInt8 :=
  if hs.hasFlag fSib then [hs.sib] else []

def dispOf (hs : Hde64s) : List UInt8 :=
  if hs.hasFlag fDisp8 then hs.disp.take 1
  else if hs.hasFlag fDisp16 then hs.disp.take 2
  else if hs.hasFlag fDisp32 then hs.disp.take 4
  else []

def immOf (hs : Hde64s) : List UInt8 :=
  if hs.hasFlag fImm8 then hs.imm.take 1
  else if hs.hasFlag fImm16 then hs.imm.take 2
  else if hs.hasFlag fImm32 then hs.imm.take 4
  else if hs.hasFlag fImm64 then hs.imm.take 8
  else []

/-- The instruction behind its prefixes, up to its immediate operand. -/
def headOf (hs : Hde64s) : List UInt8 :=
  rexOf hs ++ (opcodeOf hs ++ (modrmOf hs ++ (sibOf hs ++ dispOf hs)))

/-- `enter` stores its second operand over the low byte of the first. -/
def Immediates (hs : Hde64s) (word : List UInt8) : Prop :=
  if (hs.hasFlag fImm16 && hs.hasFlag fImm8) = true then
    ∃ low, word = low :: (hs.imm.take 2).reverse
  else word = immOf hs

/-! ## Flags -/

theorem flags_or (first second flag : BitVec 32) :
    ((first ||| second) &&& flag != 0) =
      (first &&& flag != 0 || second &&& flag != 0) :=
  hasFlag_addFlags { cleared with flags := first } second flag

/-- The flags of the operand and of the immediate. -/
def operandMask : BitVec 32 := fModrm ||| fSib ||| fDisp8 ||| fDisp16 ||| fDisp32

def immMask : BitVec 32 := fImm8 ||| fImm16 ||| fImm32 ||| fImm64

theorem inside_mono (mask wider flag : BitVec 32)
    (covers : wider &&& mask = mask) (inside : mask &&& flag = flag) :
    wider &&& flag = flag := by
  rw [← inside, ← BitVec.and_assoc, covers]

theorem flag_clear (mask flag : BitVec 32) (inside : mask &&& flag = flag)
    (hs : Hde64s) (clear : hs.flags &&& mask = 0) :
    hs.hasFlag flag = false := by
  rw [Hde64s.hasFlag, ← inside, ← BitVec.and_assoc, clear]
  exact bne_eq_false_iff_eq.mpr BitVec.zero_and

/-! ## Frames -/

/-- Only flags of a mask are new. -/
def OnlyAdds (mask : BitVec 32) (hs later : Hde64s) : Prop :=
  ∃ added, later.flags = hs.flags ||| added ∧ added &&& ~~~mask = 0

theorem onlyAdds_refl (mask : BitVec 32) (hs : Hde64s) :
    OnlyAdds mask hs hs :=
  ⟨0, by simp, by simp⟩

theorem onlyAdds_trans (mask : BitVec 32) (hs middle later : Hde64s)
    (first : OnlyAdds mask hs middle) (second : OnlyAdds mask middle later) :
    OnlyAdds mask hs later := by
  obtain ⟨firstAdded, firstFlags, firstInside⟩ := first
  obtain ⟨secondAdded, secondFlags, secondInside⟩ := second
  refine ⟨firstAdded ||| secondAdded, ?_, ?_⟩
  · rw [secondFlags, firstFlags, BitVec.or_assoc]
  · rw [BitVec.and_or_distrib_right, firstInside, secondInside]
    rfl

/-- A flag outside the mask is as it was. -/
theorem hasFlag_of_onlyAdds (mask flag : BitVec 32)
    (outside : ~~~mask &&& flag = flag) (hs later : Hde64s)
    (adds : OnlyAdds mask hs later) :
    later.hasFlag flag = hs.hasFlag flag := by
  obtain ⟨added, flags, inside⟩ := adds
  have none : (added &&& flag != 0) = false := by
    rw [← outside, ← BitVec.and_assoc, inside]
    exact bne_eq_false_iff_eq.mpr BitVec.zero_and
  rw [Hde64s.hasFlag, flags, flags_or, none, Bool.or_false]
  rfl

theorem hasFlag_mono (mask flag : BitVec 32) (hs later : Hde64s)
    (adds : OnlyAdds mask hs later) (set : hs.hasFlag flag = true) :
    later.hasFlag flag = true := by
  obtain ⟨added, flags, inside⟩ := adds
  rw [Hde64s.hasFlag, flags, flags_or, Bool.or_eq_true]
  exact Or.inl set

def errorMask : BitVec 32 := fError ||| fErrorOpcode ||| fErrorLock |||
  fErrorOperand

/-- Errors are raised, and nothing else is changed. -/
def Raised (hs later : Hde64s) : Prop :=
  ∃ added, added &&& ~~~errorMask = 0 ∧ later = hs.addFlags added

theorem raised_raise (hs : Hde64s) (error : Bool) (kind : BitVec 32)
    (inside : (fError ||| kind) &&& ~~~errorMask = 0) :
    Raised hs (hs.raise error kind) := by
  cases error with
  | false =>
      refine ⟨0, by simp, ?_⟩
      show hs = { hs with flags := hs.flags ||| 0 }
      simp
  | true => exact ⟨fError ||| kind, inside, rfl⟩

theorem raised_trans (hs middle later : Hde64s) (first : Raised hs middle)
    (second : Raised middle later) : Raised hs later := by
  obtain ⟨firstAdded, firstInside, rfl⟩ := first
  obtain ⟨secondAdded, secondInside, rfl⟩ := second
  refine ⟨firstAdded ||| secondAdded, ?_, ?_⟩
  · rw [BitVec.and_or_distrib_right, firstInside, secondInside]
    rfl
  · simp only [Hde64s.addFlags, BitVec.or_assoc]

theorem onlyAdds_of_raised (hs later : Hde64s) (raised : Raised hs later) :
    OnlyAdds errorMask hs later := by
  obtain ⟨added, inside, rfl⟩ := raised
  exact ⟨added, rfl, inside⟩

theorem raised_withErrors (hs : Hde64s) (error forbidden : Bool) :
    Raised hs (withErrors hs error forbidden) :=
  raised_trans _ _ _ (raised_raise hs error _ (by decide))
    (raised_raise _ forbidden _ (by decide))

/-! ## Prefixes -/

def readPrefix (hs : Hde64s) (c : UInt8) : Hde64s :=
  (onPrefix c hs).elim hs Prod.fst

def IsPrefix (c : UInt8) : Prop := (onPrefix c cleared).isSome = true

/-- The fields that the prefixes leave. -/
def prefixesOf (hs : Hde64s) : UInt8 × UInt8 × UInt8 × UInt8 × UInt8 :=
  (hs.pRep, hs.pLock, hs.pSeg, hs.p66, hs.p67)

theorem onPrefix_isSome (c : UInt8) (hs : Hde64s) :
    (onPrefix c hs).isSome = (onPrefix c cleared).isSome := by
  unfold onPrefix
  repeat' split
  all_goals rfl

theorem onPrefix_bit (c : UInt8) (hs later : Hde64s) (bit : UInt8)
    (found : onPrefix c hs = some (later, bit)) : bit &&& 0x80 = 0 := by
  unfold onPrefix at found
  repeat' split at found
  all_goals first | contradiction | (cases found; rfl)

theorem topBit_or (first second : UInt8) (firstClear : first &&& 0x80 = 0)
    (secondClear : second &&& 0x80 = 0) : (first ||| second) &&& 0x80 = 0 := by
  apply UInt8.toBitVec_inj.mp
  have firstBits := congrArg UInt8.toBitVec firstClear
  have secondBits := congrArg UInt8.toBitVec secondClear
  rw [UInt8.toBitVec_and] at firstBits secondBits ⊢
  rw [UInt8.toBitVec_or, BitVec.and_or_distrib_right, firstBits, secondBits]
  rfl

/-- What the loop has read, with the byte that it leaves in `c`. -/
theorem prefixLoop_spells (code : Nat → UInt8) (x : Nat) (hs : Hde64s)
    (pref c : UInt8) (position stop : Nat) (found : Hde64s × UInt8 × UInt8)
    (clear : pref &&& 0x80 = 0)
    (ran : run code (prefixLoop (x + 1) hs pref c) position =
      some (found, stop)) :
    ∃ prefixes between, (∀ byte ∈ prefixes, IsPrefix byte) ∧
      Spells code position between prefixes ∧
      stop = between + 1 ∧ found.2.2 = code between ∧
      found.2.1 &&& 0x80 = 0 ∧
      (stop ≤ position + x → found.1 = prefixes.foldl readPrefix hs) := by
  induction x generalizing hs pref c position with
  | zero =>
      rw [prefixLoop, run_bind, run_take, Option.bind_some] at ran
      cases kind : onPrefix (code position) hs with
      | none =>
          simp only [kind] at ran
          cases ran
          exact ⟨[], position, List.forall_mem_nil _, spells_nil code position,
            rfl, rfl, clear, fun _ => rfl⟩
      | some bit =>
          simp only [kind] at ran
          cases ran
          refine ⟨[], position, List.forall_mem_nil _, spells_nil code position,
            rfl, rfl, ?_, fun early => absurd early (by omega)⟩
          exact topBit_or _ _ clear (onPrefix_bit _ hs bit.1 bit.2 kind)
  | succ x ih =>
      rw [prefixLoop, run_bind, run_take, Option.bind_some] at ran
      cases kind : onPrefix (code position) hs with
      | none =>
          simp only [kind] at ran
          cases ran
          exact ⟨[], position, List.forall_mem_nil _, spells_nil code position,
            rfl, rfl, clear, fun _ => rfl⟩
      | some bit =>
          simp only [kind] at ran
          have clearLater :=
            topBit_or _ _ clear (onPrefix_bit _ hs bit.1 bit.2 kind)
          obtain ⟨prefixes, between, all, spells, last, left, unset, fold⟩ :=
            ih _ _ _ _ clearLater ran
          have here : IsPrefix (code position) := by
            rw [IsPrefix, ← onPrefix_isSome _ hs, kind]
            rfl
          refine ⟨code position :: prefixes, between, ?_, ?_, last, left, unset,
            ?_⟩
          · intro byte member
            rcases List.mem_cons.mp member with rfl | later
            · exact here
            · exact all byte later
          · exact spells_append code _ _ _ _ _ (spells_single code position)
              spells
          · intro early
            rw [fold (by omega), List.foldl_cons, readPrefix, kind]
            rfl

/-! ## `REX` and the opcode -/

theorem rex_spelled (c : UInt8) (rex : c &&& 0xf0 = 0x40) :
    (0x40 : UInt8) ||| ((c &&& 0xf) >>> 3) <<< 3 ||| ((c &&& 7) >>> 2) <<< 2 |||
      ((c &&& 3) >>> 1) <<< 1 ||| (c &&& 1) = c := by
  revert c
  apply forall_byte
  decide +kernel

/-- Flags that neither the prefixes nor `REX` set. -/
def bodyMask : BitVec 32 := operandMask ||| immMask ||| fRelative |||
  fErrorLength ||| errorMask

theorem prefixFlags_clear (pref : UInt8) :
    prefixFlags pref &&& bodyMask = 0 := by
  revert pref
  apply forall_byte
  decide +kernel

theorem prefixFlags_rex (pref : UInt8) (clear : pref &&& 0x80 = 0) :
    prefixFlags pref &&& fPrefixRex = 0 := by
  revert pref
  apply forall_byte
  decide +kernel

theorem rexByte_spells (code : Nat → UInt8) (hs : Hde64s) (position : Nat)
    (extended : Hde64s × Nat × UInt8 × Bool) (stop : Nat)
    (fresh : hs.flags &&& fPrefixRex = 0)
    (ran : run code (rexByte hs (code position)) (position + 1) =
      some (extended, stop)) :
    ∃ between, stop = between + 1 ∧ extended.2.2.1 = code between ∧
      Spells code position between (rexOf extended.1) ∧
      OnlyAdds fPrefixRex hs extended.1 ∧
      prefixesOf extended.1 = prefixesOf hs := by
  have unset : hs.hasFlag fPrefixRex = false :=
    flag_clear fPrefixRex fPrefixRex rfl hs fresh
  rw [rexByte] at ran
  split at ran
  · rename_i rex
    obtain ⟨op64, between, wide, later⟩ :=
      (run_bind_eq_some _ _ _ _ _ _).mp ran
    have stays : between = position + 1 := by
      rw [wideMove] at wide
      split at wide <;> cases wide <;> rfl
    subst stays
    cases later
    refine ⟨position + 1, rfl, rfl, ?_, ⟨fPrefixRex, rfl, by decide⟩, rfl⟩
    have set : (withRex hs (code position)).hasFlag fPrefixRex = true := by
      show (hs.addFlags fPrefixRex).hasFlag fPrefixRex = true
      rw [hasFlag_addFlags, Bool.or_eq_true]
      exact Or.inr (by decide)
    have spelled : rexOf (withRex hs (code position)) = [code position] := by
      rw [rexOf, if_pos set]
      exact congrArg (fun byte => [byte]) (rex_spelled _ rex)
    show Spells code position (position + 1) (rexOf (withRex hs _))
    rw [spelled]
    exact spells_single code position
  · cases ran
    refine ⟨position, rfl, rfl, ?_, onlyAdds_refl _ hs, rfl⟩
    rw [rexOf, unset]
    exact spells_nil code position

theorem opcodeByte_flags (code : Nat → UInt8) (hs : Hde64s) (pref : UInt8)
    (op64 : Nat) (c : UInt8) (again : Bool) (position : Nat) (here : Opcode)
    (stop : Nat)
    (ran : run code (opcodeByte hs pref op64 c again) position =
      some (here, stop)) :
    here.hs.flags = hs.flags ∧ (here.ht = 0 ∨ here.ht = deltaOpcodes) := by
  rw [opcodeByte] at ran
  split at ran
  · cases ran
    exact ⟨rfl, Or.inl rfl⟩
  · split at ran
    · cases ran
      exact ⟨rfl, Or.inr rfl⟩
    · split at ran
      · cases ran
        exact ⟨rfl, Or.inl rfl⟩
      · cases ran
        exact ⟨rfl, Or.inl rfl⟩

theorem opcodeByte_spells (code : Nat → UInt8) (hs : Hde64s) (pref : UInt8)
    (op64 position : Nat) (here : Opcode) (stop : Nat)
    (ran : run code (opcodeByte hs pref op64 (code position) false)
      (position + 1) = some (here, stop)) :
    Spells code position stop (opcodeOf here.hs) ∧
      here.hs =
        { hs with opcode := here.hs.opcode, opcode2 := here.hs.opcode2 } := by
  rw [opcodeByte, if_neg (by decide)] at ran
  split at ran
  · rename_i two
    cases ran
    refine ⟨?_, rfl⟩
    rw [opcodeOf, if_pos two]
    exact spells_append code _ _ _ _ _ (spells_single code position)
      (spells_single code (position + 1))
  · rename_i one
    have spelled : ∀ here : Opcode, here.hs.opcode = code position →
        Spells code position (position + 1) (opcodeOf here.hs) := by
      intro here same
      rw [opcodeOf, same, if_neg one]
      exact spells_single code position
    split at ran
    · cases ran
      exact ⟨spelled _ rfl, rfl⟩
    · cases ran
      exact ⟨spelled _ rfl, rfl⟩

/-! ## `ModRM`, `SIB` and the displacement -/

/-- Only the fields of the operand differ. -/
def OperandFrame (hs later : Hde64s) : Prop :=
  later = { hs with
    flags := later.flags
    modrm := later.modrm
    modrmMod := later.modrmMod
    modrmReg := later.modrmReg
    modrmRm := later.modrmRm
    sib := later.sib
    sibScale := later.sibScale
    sibIndex := later.sibIndex
    sibBase := later.sibBase
    disp := later.disp }

theorem raised_checkOperands (x opcode pref : UInt8) (hs : Hde64s)
    (checked : Hde64s × UInt8)
    (found : checkOperands x opcode pref hs = some checked) :
    Raised hs checked.1 := by
  simp only [checkOperands, Option.bind_eq_bind, Option.bind_eq_some_iff,
    Option.some.injEq] at found
  obtain ⟨fpu, -, lock, -, operand, -, rfl⟩ := found
  have grouped := raised_raise hs
    (x ≠ 0 ∧ (x <<< hs.modrmReg) &&& 0x80 ≠ 0) fErrorOpcode (by decide)
  have checked := raised_trans _ _ _ grouped
    (raised_raise _ fpu fErrorOpcode (by decide))
  have locked := raised_trans _ _ _ checked
    (raised_raise _ lock fErrorLock (by decide))
  exact raised_trans _ _ _ locked
    (raised_raise _ operand.1 fErrorOperand (by decide))

def DispSize (size : Nat) : Prop :=
  size = 0 ∨ size = 1 ∨ size = 2 ∨ size = 4

theorem dispSize_sizes (pref mMod mRm : UInt8) :
    DispSize (dispSize pref mMod mRm) := by
  unfold dispSize
  repeat' split
  all_goals simp [DispSize]

theorem sibByte_spells (code : Nat → UInt8) (hs : Hde64s) (mMod mRm : UInt8)
    (size position : Nat) (scaled : Hde64s × Nat) (stop : Nat)
    (clear : hs.hasFlag fSib = false) (sizes : DispSize size)
    (ran : run code (sibByte hs mMod mRm size) position =
      some (scaled, stop)) :
    Spells code position stop (sibOf scaled.1) ∧
      OnlyAdds fSib hs scaled.1 ∧
      DispSize scaled.2 ∧
      scaled.1 = { hs with
        flags := scaled.1.flags
        sib := scaled.1.sib
        sibScale := scaled.1.sibScale
        sibIndex := scaled.1.sibIndex
        sibBase := scaled.1.sibBase } := by
  rw [sibByte, run_bind, run_look, Option.bind_some] at ran
  simp only at ran
  split at ran
  · cases ran
    have set : (withSib hs (code position)).hasFlag fSib = true := by
      show (hs.addFlags fSib).hasFlag fSib = true
      rw [hasFlag_addFlags, Bool.or_eq_true]
      exact Or.inr (by decide)
    refine ⟨?_, ⟨fSib, rfl, by decide⟩, ?_, rfl⟩
    · show Spells code position (position + 1) (sibOf (withSib hs _))
      rw [sibOf, if_pos set]
      exact spells_single code position
    · show DispSize (if _ then 4 else size)
      split
      · exact Or.inr (Or.inr (Or.inr rfl))
      · exact sizes
  · cases ran
    refine ⟨?_, onlyAdds_refl _ hs, sizes, rfl⟩
    rw [sibOf, clear]
    exact spells_nil code position

theorem take_store (union bytes : List UInt8) :
    (store union bytes).take bytes.length = bytes := by
  rw [store, List.take_left]

def dispMask : BitVec 32 := fDisp8 ||| fDisp16 ||| fDisp32

theorem dispBytes_spells (code : Nat → UInt8) (hs : Hde64s)
    (size position : Nat) (later : Hde64s) (stop : Nat)
    (clear : ∀ flag, dispMask &&& flag = flag → hs.hasFlag flag = false)
    (sizes : DispSize size)
    (ran : run code (dispBytes hs size) position = some (later, stop)) :
    Spells code position stop (dispOf later) ∧ OnlyAdds dispMask hs later ∧
      later = { hs with flags := later.flags, disp := later.disp } := by
  obtain ⟨bytes, between, taken, rest⟩ :=
    (run_bind_eq_some _ _ _ _ _ _).mp ran
  cases rest
  obtain ⟨spells, length⟩ := spells_takes code _ _ _ _ taken
  have eight := clear fDisp8 (by decide)
  have sixteen := clear fDisp16 (by decide)
  have thirtyTwo := clear fDisp32 (by decide)
  have flags : ∀ flag : BitVec 32, Hde64s.hasFlag
      { hs with
        flags := hs.flags ||| dispFlag size
        disp := store hs.disp bytes } flag =
      (hs.hasFlag flag || dispFlag size &&& flag != 0) := fun flag =>
    hasFlag_addFlags hs (dispFlag size) flag
  have stored := take_store hs.disp bytes
  refine ⟨?_, ⟨dispFlag size, rfl, ?_⟩, rfl⟩
  · simp only [dispOf, flags, eight, sixteen, thirtyTwo, Bool.false_or]
    rcases sizes with rfl | rfl | rfl | rfl
    · rw [List.length_eq_zero_iff.mp length] at spells
      exact spells
    · rw [length] at stored
      rw [if_pos (by decide), stored]
      exact spells
    · rw [length] at stored
      rw [if_neg (by decide), if_pos (by decide), stored]
      exact spells
    · rw [length] at stored
      rw [if_neg (by decide), if_neg (by decide), if_pos (by decide), stored]
      exact spells
  · rcases sizes with rfl | rfl | rfl | rfl <;> rfl

theorem onlyAdds_mono (mask wider : BitVec 32)
    (inside : ~~~wider &&& mask = 0) (hs later : Hde64s)
    (adds : OnlyAdds mask hs later) : OnlyAdds wider hs later := by
  obtain ⟨added, flags, small⟩ := adds
  refine ⟨added, flags, ?_⟩
  have covered : ~~~wider &&& ~~~mask = ~~~wider := by
    have split : ~~~wider = (~~~wider &&& mask) ||| (~~~wider &&& ~~~mask) := by
      rw [← BitVec.and_or_distrib_left, BitVec.or_not_self, BitVec.and_allOnes]
    rw [inside] at split
    exact (split.trans BitVec.zero_or).symm
  rw [← covered, BitVec.and_comm (~~~wider), ← BitVec.and_assoc, small]
  exact BitVec.zero_and

/-- `ModRM` is in the record when its checks are done. -/
theorem checked_modrm (hs : Hde64s) (c x opcode pref : UInt8)
    (checked : Hde64s × UInt8)
    (found : checkOperands x opcode pref (withModrm hs c) = some checked) :
    OnlyAdds (fModrm ||| errorMask) hs checked.1 ∧
      checked.1.hasFlag fModrm = true ∧ checked.1.modrm = c ∧
      OperandFrame hs checked.1 := by
  have raised := raised_checkOperands x opcode pref _ checked found
  have checks := onlyAdds_of_raised _ _ raised
  have modrm : OnlyAdds fModrm hs (withModrm hs c) := ⟨fModrm, rfl, by decide⟩
  have set : (withModrm hs c).hasFlag fModrm = true := by
    show (hs.addFlags fModrm).hasFlag fModrm = true
    rw [hasFlag_addFlags, Bool.or_eq_true]
    exact Or.inr (by decide)
  refine ⟨onlyAdds_trans _ _ _ _ (onlyAdds_mono _ _ (by decide) _ _ modrm)
    (onlyAdds_mono _ _ (by decide) _ _ checks),
    hasFlag_mono _ _ _ _ checks set, ?_, ?_⟩
  · obtain ⟨added, errors, same⟩ := raised
    rw [same]
    rfl
  · obtain ⟨added, errors, same⟩ := raised
    rw [OperandFrame, same]
    rfl

theorem operandPart_spells (code : Nat → UInt8) (x cflags : UInt8)
    (here : Opcode) (position : Nat) (operand : Hde64s × UInt8) (stop : Nat)
    (clear : here.hs.flags &&& operandMask = 0)
    (ran : run code (operandPart x cflags here) position =
      some (operand, stop)) :
    Spells code position stop
        (modrmOf operand.1 ++ (sibOf operand.1 ++ dispOf operand.1)) ∧
      OnlyAdds (operandMask ||| errorMask) here.hs operand.1 ∧
      OperandFrame here.hs operand.1 := by
  have kept : ∀ (mask flag : BitVec 32) (later : Hde64s),
      operandMask &&& flag = flag → ~~~mask &&& flag = flag →
        OnlyAdds mask here.hs later → later.hasFlag flag = false := by
    intro mask flag later inside outside adds
    rw [hasFlag_of_onlyAdds mask flag outside _ _ adds]
    exact flag_clear operandMask flag inside here.hs clear
  rw [operandPart] at ran
  split at ran
  · obtain ⟨c, second, taken, rest⟩ := (run_bind_eq_some _ _ _ _ _ _).mp ran
    cases taken
    obtain ⟨checked, third, looked, rest⟩ :=
      (run_bind_eq_some _ _ _ _ _ _).mp rest
    obtain ⟨found, rfl⟩ := (run_ofOption_eq_some _ _ _ _ _).mp looked
    obtain ⟨scaled, fourth, sib, rest⟩ :=
      (run_bind_eq_some _ _ _ _ _ _).mp rest
    obtain ⟨later, fifth, disp, last⟩ :=
      (run_bind_eq_some _ _ _ _ _ _).mp rest
    cases last
    obtain ⟨checkAdds, set, byte, checkFrame⟩ := checked_modrm _ _ _ _ _ _ found
    obtain ⟨spellsSib, sibAdds, sizes, sibFrame⟩ := sibByte_spells code _ _ _ _
      _ _ _ (kept _ fSib _ (by decide) (by decide) checkAdds)
      (dispSize_sizes _ _ _) sib
    have bothAdds := onlyAdds_trans (fModrm ||| errorMask ||| fSib) _ _ _
      (onlyAdds_mono _ _ (by decide) _ _ checkAdds)
      (onlyAdds_mono _ _ (by decide) _ _ sibAdds)
    obtain ⟨spellsDisp, dispAdds, dispFrame⟩ := dispBytes_spells code _ _ _ _ _
      (fun flag inside => kept _ flag _
        (inside_mono _ _ _ (by decide) inside)
        (inside_mono _ _ _ (by decide) inside) bothAdds) sizes disp
    have allAdds := onlyAdds_trans (operandMask ||| errorMask) _ _ _
      (onlyAdds_mono _ _ (by decide) _ _ bothAdds)
      (onlyAdds_mono _ _ (by decide) _ _ dispAdds)
    have laterSet := hasFlag_mono _ _ _ _ dispAdds
      (hasFlag_mono _ _ _ _ sibAdds set)
    have laterByte : later.modrm = code position := by
      rw [dispFrame, sibFrame, byte]
    have laterSib : sibOf later = sibOf scaled.1 := by
      rw [sibOf, sibOf, hasFlag_of_onlyAdds _ fSib (by decide) _ _ dispAdds,
        dispFrame]
    refine ⟨?_, allAdds, ?_⟩
    · show Spells code position _ (modrmOf later ++ (sibOf later ++ dispOf later))
      rw [modrmOf, if_pos laterSet, laterByte, laterSib]
      exact spells_append code _ _ _ _ _ (spells_single code position)
        (spells_append code _ _ _ _ _ spellsSib spellsDisp)
    · show OperandFrame here.hs later
      rw [OperandFrame, dispFrame, sibFrame, checkFrame]
  · cases ran
    have raised := raised_raise here.hs (here.pref &&& preLock ≠ 0) fErrorLock
      (by decide)
    have adds := onlyAdds_of_raised _ _ raised
    refine ⟨?_, onlyAdds_mono _ _ (by decide) _ _ adds, ?_⟩
    · simp only [modrmOf, sibOf, dispOf,
        kept errorMask fModrm _ (by decide) (by decide) adds,
        kept errorMask fSib _ (by decide) (by decide) adds,
        kept errorMask fDisp8 _ (by decide) (by decide) adds,
        kept errorMask fDisp16 _ (by decide) (by decide) adds,
        kept errorMask fDisp32 _ (by decide) (by decide) adds]
      exact spells_nil code position
    · obtain ⟨added, errors, same⟩ := raised
      rw [OperandFrame, same]
      rfl

/-! ## The immediate operand -/

/-- One immediate operand of so many bytes, with its flags. -/
def OneImmediate (count : Nat) (flags : BitVec 32) : Prop :=
  (count, flags) ∈ [(0, 0), (1, fImm8), (1, fImm8 ||| fRelative), (2, fImm16),
    (2, fImm16 ||| fRelative), (4, fImm32), (4, fImm32 ||| fRelative),
    (8, fImm64)]

/-- The bytes and the record behind an immediate operand. -/
structure ImmediateSpelled (code : Nat → UInt8) (hs later : Hde64s)
    (position stop : Nat) : Prop where
  spells : ∃ word, Immediates later word ∧ Spells code position stop word
  adds : OnlyAdds (immMask ||| fRelative) hs later
  frame : later = { hs with flags := later.flags, imm := later.imm }

theorem immediate_spells (code : Nat → UInt8) (count : Nat) (flags : BitVec 32)
    (hs : Hde64s) (position : Nat) (later : Hde64s) (stop : Nat)
    (one : OneImmediate count flags)
    (clear : ∀ flag, immMask &&& flag = flag → hs.hasFlag flag = false)
    (ran : run code (immediate count flags hs) position =
      some (later, stop)) : ImmediateSpelled code hs later position stop := by
  obtain ⟨bytes, between, taken, rest⟩ :=
    (run_bind_eq_some _ _ _ _ _ _).mp ran
  cases rest
  obtain ⟨spells, length⟩ := spells_takes code _ _ _ _ taken
  have added : ∀ flag : BitVec 32, Hde64s.hasFlag
      { hs with
        flags := hs.flags ||| flags
        imm := store hs.imm bytes } flag =
      (hs.hasFlag flag || flags &&& flag != 0) := fun flag =>
    hasFlag_addFlags hs flags flag
  have stored := take_store hs.imm bytes
  rw [length] at stored
  simp only [OneImmediate, List.mem_cons, Prod.mk.injEq, List.not_mem_nil,
    or_false] at one
  refine ⟨⟨bytes, ?_, spells⟩, ⟨flags, rfl, ?_⟩, rfl⟩
  · simp only [Immediates, immOf, added, clear fImm8 (by decide),
      clear fImm16 (by decide), clear fImm32 (by decide),
      clear fImm64 (by decide), Bool.false_or]
    rcases one with ⟨rfl, rfl⟩ | ⟨rfl, rfl⟩ | ⟨rfl, rfl⟩ | ⟨rfl, rfl⟩ |
      ⟨rfl, rfl⟩ | ⟨rfl, rfl⟩ | ⟨rfl, rfl⟩ | ⟨rfl, rfl⟩ <;>
      (rw [if_neg (by decide)]
       exact stored.symm)
  · rcases one with ⟨-, rfl⟩ | ⟨-, rfl⟩ | ⟨-, rfl⟩ | ⟨-, rfl⟩ | ⟨-, rfl⟩ |
      ⟨-, rfl⟩ | ⟨-, rfl⟩ | ⟨-, rfl⟩ <;> rfl

/-- The second operand of `enter` takes the place of the low byte of the
first. -/
theorem enter_spells (code : Nat → UInt8) (hs : Hde64s) (position : Nat)
    (later : Hde64s) (stop : Nat)
    (ran : run code (immediate 2 fImm16 hs >>= immediate 1 fImm8) position =
      some (later, stop)) : ImmediateSpelled code hs later position stop := by
  obtain ⟨middle, between, first, second⟩ :=
    (run_bind_eq_some _ _ _ _ _ _).mp ran
  cases first
  cases second
  have sets : ∀ flag : BitVec 32, ((fImm16 ||| fImm8) &&& flag != 0) = true →
      Hde64s.hasFlag ((hs.addFlags fImm16).addFlags fImm8) flag = true := by
    intro flag inside
    rw [hasFlag_addFlags, hasFlag_addFlags, Bool.or_assoc, ← flags_or, inside,
      Bool.or_true]
  refine ⟨⟨[code position, code (position + 1), code (position + 2)], ?_, ?_⟩,
    ⟨fImm16 ||| fImm8, BitVec.or_assoc _ _ _, by decide⟩, rfl⟩
  · rw [Immediates, if_pos]
    · exact ⟨code position, rfl⟩
    · rw [Bool.and_eq_true]
      exact ⟨sets fImm16 (by decide), sets fImm8 (by decide)⟩
  · exact spells_append code _ (position + 2) _ [_, _] [_]
      (spells_append code _ (position + 1) _ [_] [_]
        (spells_single code position) (spells_single code (position + 1)))
      (spells_single code (position + 2))

/-- `immBytes` reads one operand, or the two of `enter`. -/
inductive ImmShape (hs : Hde64s) (computation : Cursor UInt8 Hde64s) : Prop where
  | one (count : Nat) (flags : BitVec 32) (given : OneImmediate count flags)
      (same : ∀ code position, run code computation position =
        run code (immediate count flags hs) position)
  | enter (same : ∀ code position, run code computation position =
      run code (immediate 2 fImm16 hs >>= immediate 1 fImm8) position)

theorem run_immediate_zero (code : Nat → UInt8) (hs : Hde64s)
    (position : Nat) :
    run code (immediate 0 0 hs) position = some (hs, position) := by
  show some (({ hs with
    flags := hs.flags ||| 0
    imm := [] ++ hs.imm } : Hde64s), position) = _
  simp

theorem immBytes_shape (pref : UInt8) (op64 : Nat) (cflags : UInt8)
    (hs : Hde64s) (known : cflags ∈ opcodeKinds) :
    ImmShape hs (immBytes pref op64 cflags hs) := by
  have none : ∀ computation, computation = (pure hs : Cursor UInt8 Hde64s) →
      ImmShape hs computation := by
    rintro _ rfl
    exact .one 0 0 (by simp [OneImmediate]) fun code position =>
      (run_immediate_zero code hs position).symm
  have plain : ∀ count flags computation, OneImmediate count flags →
      computation = immediate count flags hs → ImmShape hs computation := by
    rintro count flags _ given rfl
    exact .one count flags given fun _ _ => rfl
  have padded : ∀ count flags computation, OneImmediate count flags →
      computation = (immediate count flags hs >>= fun hs => pure hs) →
        ImmShape hs computation := by
    rintro count flags _ given rfl
    exact .one count flags given fun code position =>
      run_bind_pure code position _
  -- a wide operand is of 8, 4 or 2 bytes
  have wide : ∀ cflags, cflags = 0x10 ∨ cflags = 0x11 →
      ImmShape hs (immBytes pref op64 cflags hs) := by
    intro cflags kind
    by_cases moved : op64 ≠ 0
    · refine padded 8 fImm64 _ (by simp [OneImmediate]) ?_
      rcases kind with rfl | rfl <;>
        rw [immBytes, if_pos (by decide), if_neg (by decide), if_pos moved] <;>
        rfl
    · by_cases short : pref &&& pre66 = 0
      · refine padded 4 fImm32 _ (by simp [OneImmediate]) ?_
        rcases kind with rfl | rfl <;>
          rw [immBytes, if_pos (by decide), if_neg (by decide), if_neg moved,
            if_pos short] <;>
          rfl
      · refine padded 2 fImm16 _ (by simp [OneImmediate]) ?_
        rcases kind with rfl | rfl <;>
          rw [immBytes, if_pos (by decide), if_neg (by decide), if_neg moved,
            if_neg short] <;>
          rfl
  simp only [opcodeKinds, List.mem_cons, List.not_mem_nil, or_false] at known
  rcases known with rfl | rfl | rfl | rfl | rfl | rfl | rfl | rfl | rfl | rfl
  · exact none _ rfl
  · exact none _ rfl
  · exact padded 1 fImm8 _ (by simp [OneImmediate]) rfl
  · exact padded 1 fImm8 _ (by simp [OneImmediate]) rfl
  · exact padded 2 fImm16 _ (by simp [OneImmediate]) rfl
  · refine .enter fun code position => ?_
    show run code (immediate 2 fImm16 hs >>= fun hs =>
      immediate 1 fImm8 hs >>= fun hs => pure hs) position = _
    simp only [run_bind code position (immediate 2 fImm16 hs), run_bind_pure]
  · exact wide _ (Or.inl rfl)
  · exact wide _ (Or.inr rfl)
  · exact plain 1 (fImm8 ||| fRelative) _ (by simp [OneImmediate]) rfl
  · by_cases short : pref &&& pre66 ≠ 0
    · refine plain 2 (fImm16 ||| fRelative) _ (by simp [OneImmediate]) ?_
      rw [immBytes, if_pos (by decide), if_pos (by decide), if_pos short]
    · refine plain 4 (fImm32 ||| fRelative) _ (by simp [OneImmediate]) ?_
      rw [immBytes, if_pos (by decide), if_pos (by decide), if_neg short]

theorem immBytes_spells (code : Nat → UInt8) (pref : UInt8) (op64 : Nat)
    (cflags : UInt8) (hs : Hde64s) (position : Nat) (later : Hde64s)
    (stop : Nat) (known : cflags ∈ opcodeKinds)
    (clear : ∀ flag, immMask &&& flag = flag → hs.hasFlag flag = false)
    (ran : run code (immBytes pref op64 cflags hs) position =
      some (later, stop)) : ImmediateSpelled code hs later position stop := by
  cases immBytes_shape pref op64 cflags hs known with
  | one count flags given same =>
      rw [same] at ran
      exact immediate_spells code count flags hs position later stop given clear
        ran
  | enter same =>
      rw [same] at ran
      exact enter_spells code hs position later stop ran

/-! ## The instruction -/

theorem clear_of_onlyAdds (mask clear : BitVec 32)
    (apart : ~~~mask &&& clear = clear) (hs later : Hde64s)
    (adds : OnlyAdds mask hs later) (fresh : hs.flags &&& clear = 0) :
    later.flags &&& clear = 0 := by
  have same := hasFlag_of_onlyAdds mask clear apart hs later adds
  have unset := flag_clear clear clear (BitVec.and_self) hs fresh
  rw [unset] at same
  exact bne_eq_false_iff_eq.mp same

theorem clear_of_clear (mask flags : BitVec 32)
    (inside : mask &&& flags = flags) (hs : Hde64s)
    (fresh : hs.flags &&& mask = 0) : hs.flags &&& flags = 0 := by
  rw [← inside, ← BitVec.and_assoc, fresh]
  exact BitVec.zero_and

/-- Only fields behind the opcode differ. -/
def BodyFrame (hs later : Hde64s) : Prop :=
  later = { hs with
    flags := later.flags
    modrm := later.modrm
    modrmMod := later.modrmMod
    modrmReg := later.modrmReg
    modrmRm := later.modrmRm
    sib := later.sib
    sibScale := later.sibScale
    sibIndex := later.sibIndex
    sibBase := later.sibBase
    imm := later.imm
    disp := later.disp }

theorem bodyFrame_trans (hs middle later : Hde64s)
    (first : BodyFrame hs middle) (second : BodyFrame middle later) :
    BodyFrame hs later := by
  refine second.trans ?_
  rw [first]

theorem bodyFrame_of_operand (hs later : Hde64s)
    (frame : OperandFrame hs later) : BodyFrame hs later := by
  rw [OperandFrame] at frame
  rw [BodyFrame, frame]

theorem bodyFrame_of_imm (hs later : Hde64s)
    (frame : later = { hs with flags := later.flags, imm := later.imm }) :
    BodyFrame hs later := by
  rw [BodyFrame, frame]

theorem front_of_frame (hs later : Hde64s) (frame : BodyFrame hs later)
    (adds : OnlyAdds bodyMask hs later) :
    rexOf later = rexOf hs ∧ opcodeOf later = opcodeOf hs ∧
      prefixesOf later = prefixesOf hs := by
  have flag := hasFlag_of_onlyAdds bodyMask fPrefixRex (by decide) hs later adds
  refine ⟨?_, ?_, ?_⟩
  · rw [rexOf, flag, frame]
    rfl
  · rw [frame]
    rfl
  · rw [frame]
    rfl

theorem operand_of_frame (hs later : Hde64s)
    (adds : OnlyAdds (immMask ||| fRelative) hs later)
    (frame : later = { hs with flags := later.flags, imm := later.imm }) :
    modrmOf later ++ (sibOf later ++ dispOf later) =
      modrmOf hs ++ (sibOf hs ++ dispOf hs) := by
  have kept : ∀ flag, ~~~(immMask ||| fRelative) &&& flag = flag →
      later.hasFlag flag = hs.hasFlag flag := fun flag apart =>
    hasFlag_of_onlyAdds _ flag apart hs later adds
  rw [modrmOf, sibOf, dispOf, kept fModrm (by decide), kept fSib (by decide),
    kept fDisp8 (by decide), kept fDisp16 (by decide), kept fDisp32 (by decide),
    frame]
  rfl

/-- `cflags` stays known, with the operand of `test` as well. -/
theorem operandPart_kinds (code : Nat → UInt8) (x cflags : UInt8)
    (here : Opcode) (position : Nat) (operand : Hde64s × UInt8) (stop : Nat)
    (known : cflags ∈ opcodeKinds)
    (six : here.opcode = 0xf6 → (cflags ||| cImm8) ∈ opcodeKinds)
    (seven : here.opcode = 0xf7 → (cflags ||| cImmP66) ∈ opcodeKinds)
    (ran : run code (operandPart x cflags here) position =
      some (operand, stop)) : operand.2 ∈ opcodeKinds := by
  have extended : ∀ mReg, extendFlags here.opcode mReg cflags ∈ opcodeKinds := by
    intro mReg
    unfold extendFlags
    split
    · split
      · exact six (by assumption)
      · split
        · exact seven (by assumption)
        · exact known
    · exact known
  rw [operandPart] at ran
  split at ran
  · obtain ⟨c, second, -, rest⟩ := (run_bind_eq_some _ _ _ _ _ _).mp ran
    obtain ⟨checked, third, -, rest⟩ := (run_bind_eq_some _ _ _ _ _ _).mp rest
    obtain ⟨scaled, fourth, -, rest⟩ := (run_bind_eq_some _ _ _ _ _ _).mp rest
    obtain ⟨later, fifth, -, last⟩ := (run_bind_eq_some _ _ _ _ _ _).mp rest
    cases last
    exact extended _
  · cases ran
    exact known

/-- A second `REX` is an error. -/
theorem hasFlag_withErrors_again (hs : Hde64s) (ht : Nat) (opcode : UInt8)
    (looked : Bool × UInt8 × UInt8) (forbidden : Bool)
    (found : opcodeFlags true ht opcode = some looked) :
    (withErrors hs looked.1 forbidden).hasFlag fError = true := by
  cases found
  have raised : ((hs.raise true fErrorOpcode)).hasFlag fError = true := by
    show (hs.addFlags _).hasFlag _ = true
    rw [hasFlag_addFlags, Bool.or_eq_true]
    exact Or.inr (by decide)
  exact hasFlag_mono _ _ _ _ (onlyAdds_of_raised _ _
    (raised_raise _ forbidden _ (by decide))) raised

/-- What stands behind the prefixes, if there is no error. -/
theorem behindPrefixes_spells (code : Nat → UInt8) (hs : Hde64s)
    (pref : UInt8) (position : Nat) (found : Hde64s) (stop : Nat)
    (fresh : hs.flags &&& bodyMask = 0)
    (freshRex : hs.flags &&& fPrefixRex = 0)
    (ran : run code (behindPrefixes hs pref (code position)) (position + 1) =
      some (found, stop)) (good : found.hasFlag fError = false) :
    ∃ word, Immediates found word ∧
      Spells code position stop (headOf found ++ word) ∧
      prefixesOf found = prefixesOf hs := by
  obtain ⟨⟨extended, op64, c, again⟩, first, rexRan, behindRex⟩ :=
    (run_bind_eq_some _ _ _ _ _ _).mp ran
  obtain ⟨here, second, opcodeRan, behindOpcode⟩ :=
    (run_bind_eq_some _ _ _ _ _ _).mp behindRex
  obtain ⟨⟨error, cflags, x⟩, third, lookedRan, behindFlags⟩ :=
    (run_bind_eq_some _ _ _ _ _ _).mp behindOpcode
  obtain ⟨looked, rfl⟩ := (run_ofOption_eq_some _ _ _ _ _).mp lookedRan
  obtain ⟨forbidden, fourth, forbiddenRan, behindErrors⟩ :=
    (run_bind_eq_some _ _ _ _ _ _).mp behindFlags
  obtain ⟨-, rfl⟩ := (run_ofOption_eq_some _ _ _ _ _).mp forbiddenRan
  obtain ⟨⟨operand, kind⟩, fifth, operandRan, immRan⟩ :=
    (run_bind_eq_some _ _ _ _ _ _).mp behindErrors
  obtain ⟨between, rfl, rfl, rexSpells, rexAdds, rexPrefixes⟩ :=
    rexByte_spells code hs position _ first freshRex rexRan
  obtain ⟨opcodeSame, table⟩ := opcodeByte_flags _ _ _ _ _ _ _ _ _ opcodeRan
  -- the flags of the body are clear up to the operand
  have hereFresh := clear_of_onlyAdds fPrefixRex bodyMask (by decide) _ _
    rexAdds fresh
  rw [← opcodeSame] at hereFresh
  have errors := onlyAdds_of_raised _ _
    (raised_withErrors here.hs error forbidden)
  have operandFresh := clear_of_onlyAdds errorMask operandMask
    (by decide) _ _ errors (clear_of_clear _ _ (by decide) _ hereFresh)
  obtain ⟨operandSpells, operandAdds, operandFrame⟩ :=
    operandPart_spells code x cflags _ _ _ _ operandFresh operandRan
  have immFresh := clear_of_onlyAdds (operandMask ||| errorMask) immMask
    (by decide) _ _ operandAdds (clear_of_onlyAdds errorMask immMask (by decide)
      _ _ errors (clear_of_clear _ _ (by decide) _ hereFresh))
  obtain ⟨given, same, decided⟩ := (Option.any_eq_true _ _).mp
    (opcodeFlags_known again here.ht here.opcode table)
  rw [looked] at same
  cases same
  obtain ⟨known, six, seven⟩ := of_decide_eq_true decided
  obtain ⟨⟨word, immediates, immSpells⟩, immAdds, immFrame⟩ :=
    immBytes_spells code _ _ kind operand _ _ _
      (operandPart_kinds code x cflags
        { here with hs := withErrors here.hs error forbidden } _ _ _ known six
        seven operandRan)
      (fun flag inside => flag_clear immMask flag inside operand immFresh)
      immRan
  -- an error that is raised would be there still
  have sound : again = false := by
    rw [Bool.eq_false_iff]
    rintro rfl
    have raised := hasFlag_withErrors_again here.hs here.ht here.opcode _
      forbidden looked
    rw [hasFlag_mono _ _ _ _ immAdds (hasFlag_mono _ _ _ _ operandAdds raised)]
      at good
    contradiction
  subst sound
  obtain ⟨opcodeSpells, opcodeFrame⟩ :=
    opcodeByte_spells code extended pref op64 between here _ opcodeRan
  obtain ⟨added, inErrors, raisedSame⟩ :=
    raised_withErrors here.hs error forbidden
  -- behind the opcode, its fields stay
  have raisedFrame : BodyFrame here.hs (withErrors here.hs error forbidden) := by
    rw [BodyFrame, raisedSame]
    rfl
  have frame := bodyFrame_trans _ _ _ raisedFrame (bodyFrame_trans _ _ _
    (bodyFrame_of_operand _ _ operandFrame) (bodyFrame_of_imm _ _ immFrame))
  have adds := onlyAdds_trans bodyMask _ _ _
    (onlyAdds_mono _ _ (by decide) _ _ errors)
    (onlyAdds_trans bodyMask _ _ _
      (onlyAdds_mono _ _ (by decide) _ _ operandAdds)
      (onlyAdds_mono _ _ (by decide) _ _ immAdds))
  obtain ⟨sameRex, sameOpcode, samePrefixes⟩ := front_of_frame _ _ frame adds
  have extendedRex : rexOf here.hs = rexOf extended := by
    rw [rexOf, Hde64s.hasFlag, opcodeSame, opcodeFrame]
    rfl
  have sameOperand : modrmOf found ++ (sibOf found ++ dispOf found) =
      modrmOf operand ++ (sibOf operand ++ dispOf operand) :=
    operand_of_frame operand found immAdds immFrame
  refine ⟨word, immediates, ?_, ?_⟩
  · rw [headOf, sameRex, extendedRex, sameOpcode, sameOperand]
    exact spells_append code _ _ _ _ _ (spells_append code _ _ _ _ _ rexSpells
      (spells_append code _ _ _ _ _ opcodeSpells operandSpells)) immSpells
  · rw [samePrefixes, ← rexPrefixes]
    show prefixesOf here.hs = prefixesOf extended
    rw [opcodeFrame]
    rfl

theorem size_of_good (code : Nat → UInt8) (hs : Hde64s)
    (decoded : hde64Disasm code = some hs) (good : hs.hasFlag fError = false) :
    ∃ found size, run code instruction 0 = some (found, size) ∧ size ≤ 15 ∧
      hs = { found with len := UInt8.ofNat size } := by
  obtain ⟨found, size, ran, bounded, -⟩ := yields_instruction code 0
  rw [hde64Disasm_of_run code found size ran, Option.some.injEq] at decoded
  have short : size ≤ 15 := by
    by_contra long
    obtain ⟨-, -, error⟩ :=
      withLength_long_flags found size (by omega) (by omega)
    rw [decoded, good] at error
    contradiction
  exact ⟨found, size, ran, short,
    decoded.symm.trans (withLength_short found size short)⟩

/-- Bytes that a record stands for; the order of the prefixes is not recorded. -/
def Spelling (hs : Hde64s) (word : List UInt8) : Prop :=
  ∃ prefixes immediates, word = prefixes ++ (headOf hs ++ immediates) ∧
    (∀ byte ∈ prefixes, IsPrefix byte) ∧
    prefixesOf hs = prefixesOf (prefixes.foldl readPrefix cleared) ∧
    Immediates hs immediates

theorem spelled_of_good (code : Nat → UInt8) (hs : Hde64s)
    (decoded : hde64Disasm code = some hs) (good : hs.hasFlag fError = false) :
    ∃ word, Spelling hs word ∧ Spells code 0 hs.len.toNat word := by
  obtain ⟨found, size, ran, short, rfl⟩ := size_of_good code hs decoded good
  obtain ⟨⟨before, pref, c⟩, stop, prefixRan, bodyRan⟩ :=
    (run_bind_eq_some _ _ _ _ _ _).mp ran
  obtain ⟨prefixes, between, all, prefixSpells, rfl, rfl, unset, fold⟩ :=
    prefixLoop_spells code 15 cleared 0 0 0 stop _ (by decide) prefixRan
  have onward := (steady_behindPrefixes _ _ _).forward _ _ _ _ bodyRan
  obtain ⟨immediates, imm, bodySpells, same⟩ := behindPrefixes_spells code
    { before with flags := prefixFlags pref } _ between found size
    (prefixFlags_clear pref) (prefixFlags_rex pref unset) bodyRan good
  refine ⟨_, ⟨prefixes, immediates, rfl, all, ?_, imm⟩, ?_⟩
  · have folded : before = prefixes.foldl readPrefix cleared := fold (by omega)
    simp only [prefixesOf, folded] at same ⊢
    exact same
  · have length : (UInt8.ofNat size).toNat = size := toNat_size size (by omega)
    show Spells code 0 (UInt8.ofNat size).toNat _
    rw [length]
    exact spells_append code _ _ _ _ _ prefixSpells bodySpells

/-- An instruction without an error is spelled by its record. -/
theorem hde64Disasm_spells (code : Nat → UInt8) (hs : Hde64s)
    (decoded : hde64Disasm code = some hs) (good : hs.hasFlag fError = false) :
    ∃ word, Spelling hs word ∧ Spells code 0 hs.len.toNat word :=
  spelled_of_good code hs decoded good

/-- `mov rax, [rip + 10h]` -/
def moveToRax (index : Nat) : UInt8 :=
  [0x48, 0x8b, 0x05, 0x10, 0x00, 0x00, 0x00].getD index 0xcc

def movedToRax : Hde64s :=
  { cleared with
    len := 7
    rexW := 1
    opcode := 0x8b
    modrm := 5
    modrmRm := 5
    disp := [0x10, 0, 0, 0]
    flags := fPrefixRex ||| fModrm ||| fDisp32 }

theorem moveToRax_spells :
    ∃ word, Spelling movedToRax word ∧ Spells moveToRax 0 7 word :=
  hde64Disasm_spells moveToRax movedToRax (by decide +kernel) (by decide)

-- two instructions `enter` of one record
example : hde64Disasm (fun index => [0xc8, 0x10, 0x00, 0x01].getD index 0) =
    hde64Disasm (fun index => [0xc8, 0x20, 0x00, 0x01].getD index 0) := by
  decide +kernel

end HenPlugins.Hde.Encoding
