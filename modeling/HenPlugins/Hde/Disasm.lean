import HenPlugins.Lib.ByteCursor
import HenPlugins.Memory.CodeCave
import HenPlugins.Hde.Table

/-!
# `hde64_disasm`

One definition for each stretch of the function, in the order of the source; `p`
is the cursor.  A union is its bytes, and the errors are flags of the record.
-/

set_option autoImplicit false

namespace HenPlugins.Hde.Disasm

open HenPlugins.Lib.ByteCursor
open HenPlugins.Memory.CodeCave (fModrm fRelative fError)
open HenPlugins.Hde.Table

def fSib : BitVec 32 := 0x00000002
def fImm8 : BitVec 32 := 0x00000004
def fImm16 : BitVec 32 := 0x00000008
def fImm32 : BitVec 32 := 0x00000010
def fImm64 : BitVec 32 := 0x00000020
def fDisp8 : BitVec 32 := 0x00000040
def fDisp16 : BitVec 32 := 0x00000080
def fDisp32 : BitVec 32 := 0x00000100
def fErrorOpcode : BitVec 32 := 0x00002000
def fErrorLength : BitVec 32 := 0x00004000
def fErrorLock : BitVec 32 := 0x00008000
def fErrorOperand : BitVec 32 := 0x00010000
def fPrefixRex : BitVec 32 := 0x40000000

structure Hde64s where
  len : UInt8
  pRep : UInt8
  pLock : UInt8
  pSeg : UInt8
  p66 : UInt8
  p67 : UInt8
  rex : UInt8
  rexW : UInt8
  rexR : UInt8
  rexX : UInt8
  rexB : UInt8
  opcode : UInt8
  opcode2 : UInt8
  modrm : UInt8
  modrmMod : UInt8
  modrmReg : UInt8
  modrmRm : UInt8
  sib : UInt8
  sibScale : UInt8
  sibIndex : UInt8
  sibBase : UInt8
  imm : List UInt8
  disp : List UInt8
  flags : BitVec 32
  deriving DecidableEq

/-- `memset(hs, 0, sizeof(hde64s))` -/
def cleared : Hde64s :=
  { len := 0, pRep := 0, pLock := 0, pSeg := 0, p66 := 0, p67 := 0, rex := 0,
    rexW := 0, rexR := 0, rexX := 0, rexB := 0, opcode := 0, opcode2 := 0,
    modrm := 0, modrmMod := 0, modrmReg := 0, modrmRm := 0, sib := 0,
    sibScale := 0, sibIndex := 0, sibBase := 0, imm := List.replicate 8 0,
    disp := List.replicate 4 0, flags := 0 }

def Hde64s.hasFlag (hs : Hde64s) (flag : BitVec 32) : Bool :=
  hs.flags &&& flag != 0

def Hde64s.addFlags (hs : Hde64s) (flags : BitVec 32) : Hde64s :=
  { hs with flags := hs.flags ||| flags }

/-- `hs->flags |= F_ERROR | kind`, under a condition. -/
def Hde64s.raise (hs : Hde64s) (error : Bool) (kind : BitVec 32) : Hde64s :=
  if error then hs.addFlags (fError ||| kind) else hs

/-- A member of a union is its first bytes. -/
def store (union bytes : List UInt8) : List UInt8 :=
  bytes ++ union.drop bytes.length

/-- A case of the switch that reads the prefixes, and its bit of `pref`. -/
def onPrefix (c : UInt8) (hs : Hde64s) : Option (Hde64s × UInt8) :=
  if c = 0xf3 then some ({ hs with pRep := c }, preF3)
  else if c = 0xf2 then some ({ hs with pRep := c }, preF2)
  else if c = 0xf0 then some ({ hs with pLock := c }, preLock)
  else if c = 0x26 ∨ c = 0x2e ∨ c = 0x36 ∨ c = 0x3e ∨ c = 0x64 ∨ c = 0x65 then
    some ({ hs with pSeg := c }, preSeg)
  else if c = 0x66 then some ({ hs with p66 := c }, pre66)
  else if c = 0x67 then some ({ hs with p67 := c }, pre67)
  else none

/-- Sixteen prefixes end the loop, and the last of them is left in `c`. -/
def prefixLoop : Nat → Hde64s → UInt8 → UInt8 →
    Cursor UInt8 (Hde64s × UInt8 × UInt8)
  | 0, hs, pref, c => pure (hs, pref, c)
  | x + 1, hs, pref, _ => do
      let c ← take
      match onPrefix c hs with
      | some (hs, bit) => prefixLoop x hs (pref ||| bit) c
      | none => pure (hs, pref, c)

def prefixFlags (pref : UInt8) : BitVec 32 :=
  pref.toBitVec.setWidth 32 <<< 23

/-- `op64` of a move of 64 bits, whose opcode is looked at beforehand. -/
def wideMove (rexW : UInt8) : Cursor UInt8 Nat :=
  if rexW ≠ 0 then do
    let next ← look
    pure (if next &&& 0xf8 = 0xb8 then 1 else 0)
  else pure 0

def withRex (hs : Hde64s) (c : UInt8) : Hde64s :=
  { hs with
    flags := hs.flags ||| fPrefixRex
    rexW := (c &&& 0xf) >>> 3
    rexR := (c &&& 7) >>> 2
    rexX := (c &&& 3) >>> 1
    rexB := c &&& 1 }

/-- The record, `op64`, `c`, and whether a second `REX` follows. -/
def rexByte (hs : Hde64s) (c : UInt8) :
    Cursor UInt8 (Hde64s × Nat × UInt8 × Bool) :=
  if c &&& 0xf0 = 0x40 then do
    let op64 ← wideMove ((c &&& 0xf) >>> 3)
    let next ← take
    pure (withRex hs c, op64, next, next &&& 0xf0 = 0x40)
  else pure (hs, 0, c, false)

/-- Where the decoding stands behind the opcode. -/
structure Opcode where
  hs : Hde64s
  pref : UInt8
  op64 : Nat
  opcode : UInt8
  ht : Nat

def opcodeByte (hs : Hde64s) (pref : UInt8) (op64 : Nat) (c : UInt8)
    (again : Bool) : Cursor UInt8 Opcode :=
  if again then
    pure { hs := hs, pref := pref, op64 := op64, opcode := c, ht := 0 }
  else if c = 0x0f then do
    let next ← take
    pure
      { hs := { hs with opcode := c, opcode2 := next }
        pref := pref
        op64 := op64
        opcode := next
        ht := deltaOpcodes }
  else if 0xa0 ≤ c ∧ c ≤ 0xa3 then
    pure
      { hs := { hs with opcode := c }
        pref := if pref &&& pre67 ≠ 0 then pref ||| pre66 else pref &&& ~~~pre66
        op64 := op64 + 1
        opcode := c
        ht := 0 }
  else
    pure
      { hs := { hs with opcode := c }
        pref := pref
        op64 := op64
        opcode := c
        ht := 0 }

def withModrm (hs : Hde64s) (c : UInt8) : Hde64s :=
  { hs with
    flags := hs.flags ||| fModrm
    modrm := c
    modrmMod := c >>> 6
    modrmRm := c &&& 7
    modrmReg := (c &&& 0x3f) >>> 3 }

def fpuCheck (opcode : UInt8) (hs : Hde64s) : Option Bool :=
  if hs.opcode2 = 0 ∧ 0xd9 ≤ opcode ∧ opcode ≤ 0xdf then
    fpuError opcode hs.modrmMod hs.modrmReg hs.modrmRm
  else some false

def lockCheck (opcode pref : UInt8) (hs : Hde64s) : Option Bool :=
  if pref &&& preLock ≠ 0 then
    lockError hs.opcode2 opcode hs.modrmMod hs.modrmReg
  else some false

/-- The errors of an operand, and `m_mod` behind these checks. -/
def checkOperands (x opcode pref : UInt8) (hs : Hde64s) :
    Option (Hde64s × UInt8) := do
  let grouped := hs.raise
    (x ≠ 0 ∧ (x <<< hs.modrmReg) &&& 0x80 ≠ 0) fErrorOpcode
  let fpu ← fpuCheck opcode hs
  let lock ← lockCheck opcode pref hs
  let (operand, mMod) ←
    operandError hs.opcode2 opcode pref hs.modrmMod hs.modrmReg
  some (((grouped.raise fpu fErrorOpcode).raise lock fErrorLock).raise operand
    fErrorOperand, mMod)

/-- `test` is the only one of its group with an immediate operand. -/
def extendFlags (opcode mReg cflags : UInt8) : UInt8 :=
  if mReg ≤ 1 then
    if opcode = 0xf6 then cflags ||| cImm8
    else if opcode = 0xf7 then cflags ||| cImmP66
    else cflags
  else cflags

def dispSize (pref mMod mRm : UInt8) : Nat :=
  if mMod = 0 then
    if pref &&& pre67 ≠ 0 then if mRm = 6 then 2 else 0
    else if mRm = 5 then 4 else 0
  else if mMod = 1 then 1
  else if mMod = 2 then if pref &&& pre67 = 0 then 4 else 2
  else 0

def withSib (hs : Hde64s) (c : UInt8) : Hde64s :=
  { hs with
    flags := hs.flags ||| fSib
    sib := c
    sibScale := c >>> 6
    sibIndex := (c &&& 0x3f) >>> 3
    sibBase := c &&& 7 }

/-- The byte behind `ModRM` is read in any case, and is left again if it is no
`SIB`. -/
def sibByte (hs : Hde64s) (mMod mRm : UInt8) (size : Nat) :
    Cursor UInt8 (Hde64s × Nat) := do
  let c ← look
  if mMod ≠ 3 ∧ mRm = 4 then do
    let _ ← take
    pure (withSib hs c, if c &&& 7 = 5 ∧ mMod &&& 1 = 0 then 4 else size)
  else pure (hs, size)

def dispFlag : Nat → BitVec 32
  | 1 => fDisp8
  | 2 => fDisp16
  | 4 => fDisp32
  | _ => 0

def dispBytes (hs : Hde64s) (size : Nat) : Cursor UInt8 Hde64s := do
  let bytes ← takes size
  pure
    { hs with
      flags := hs.flags ||| dispFlag size
      disp := store hs.disp bytes }

/-- Everything from `ModRM` to the displacement, and `cflags`. -/
def modrmPart (x cflags : UInt8) (here : Opcode) :
    Cursor UInt8 (Hde64s × UInt8) := do
  let c ← take
  let (hs, mMod) ← ofOption
    (checkOperands x here.opcode here.pref (withModrm here.hs c))
  let (hs, size) ← sibByte hs mMod hs.modrmRm
    (dispSize here.pref mMod hs.modrmRm)
  let hs ← dispBytes hs size
  pure (hs, extendFlags here.opcode hs.modrmReg cflags)

def operandPart (x cflags : UInt8) (here : Opcode) :
    Cursor UInt8 (Hde64s × UInt8) :=
  if cflags &&& cModrm ≠ 0 then modrmPart x cflags here
  else pure (here.hs.raise (here.pref &&& preLock ≠ 0) fErrorLock, cflags)

def immediate (count : Nat) (flags : BitVec 32) (hs : Hde64s) :
    Cursor UInt8 Hde64s := do
  let bytes ← takes count
  pure { hs with flags := hs.flags ||| flags, imm := store hs.imm bytes }

def relPart (cflags : UInt8) (hs : Hde64s) : Cursor UInt8 Hde64s :=
  if cflags &&& cRel32 ≠ 0 then immediate 4 (fImm32 ||| fRelative) hs
  else if cflags &&& cRel8 ≠ 0 then immediate 1 (fImm8 ||| fRelative) hs
  else pure hs

def imm8Byte (cflags : UInt8) (hs : Hde64s) : Cursor UInt8 Hde64s :=
  if cflags &&& cImm8 ≠ 0 then immediate 1 fImm8 hs else pure hs

def imm16Bytes (cflags : UInt8) (hs : Hde64s) : Cursor UInt8 Hde64s :=
  if cflags &&& cImm16 ≠ 0 then immediate 2 fImm16 hs else pure hs

def imm8Part (cflags : UInt8) (hs : Hde64s) : Cursor UInt8 Hde64s := do
  let hs ← imm8Byte cflags hs
  relPart cflags hs

def imm16Part (cflags : UInt8) (hs : Hde64s) : Cursor UInt8 Hde64s := do
  let hs ← imm16Bytes cflags hs
  imm8Part cflags hs

def immBytes (pref : UInt8) (op64 : Nat) (cflags : UInt8) (hs : Hde64s) :
    Cursor UInt8 Hde64s :=
  if cflags &&& cImmP66 ≠ 0 then
    if cflags &&& cRel32 ≠ 0 then
      if pref &&& pre66 ≠ 0 then immediate 2 (fImm16 ||| fRelative) hs
      else immediate 4 (fImm32 ||| fRelative) hs
    else if op64 ≠ 0 then do
      let hs ← immediate 8 fImm64 hs
      imm16Part cflags hs
    else if pref &&& pre66 = 0 then do
      let hs ← immediate 4 fImm32 hs
      imm16Part cflags hs
    else do
      -- `imm16_ok`
      let hs ← immediate 2 fImm16 hs
      imm8Part cflags hs
  else imm16Part cflags hs

/-- The errors of an opcode, on top of what is there. -/
def withErrors (hs : Hde64s) (error forbidden : Bool) : Hde64s :=
  (hs.raise error fErrorOpcode).raise forbidden fErrorOpcode

/-- From the byte behind the prefixes to `disasm_done`. -/
def behindPrefixes (hs : Hde64s) (pref c : UInt8) : Cursor UInt8 Hde64s := do
  let (hs, op64, c, again) ← rexByte hs c
  let here ← opcodeByte hs pref op64 c again
  let (error, cflags, x) ← ofOption (opcodeFlags again here.ht here.opcode)
  let forbidden ← ofOption (prefixError here.hs.opcode2 here.opcode here.pref)
  let (hs, cflags) ← operandPart x cflags
    { here with hs := withErrors here.hs error forbidden }
  immBytes here.pref here.op64 cflags hs

def instruction : Cursor UInt8 Hde64s := do
  let (hs, pref, c) ← prefixLoop 16 cleared 0 0
  behindPrefixes { hs with flags := prefixFlags pref }
    (if pref = 0 then preNone else pref) c

/-- The length, at most 15. -/
def withLength (hs : Hde64s) (size : Nat) : Hde64s :=
  if 15 < UInt8.ofNat size then
    { hs.addFlags (fError ||| fErrorLength) with len := 15 }
  else { hs with len := UInt8.ofNat size }

/-- No result stands for a look-up outside the tables. -/
def hde64Disasm (code : Nat → UInt8) : Option Hde64s :=
  (run code instruction 0).map fun outcome => withLength outcome.1 outcome.2

end HenPlugins.Hde.Disasm
