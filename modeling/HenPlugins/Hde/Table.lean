import Mathlib.Data.List.Basic

/-!
# The opcode tables

`hde64_table` holds several tables one behind the other, and `ht` points to the
start of one of them.  A look-up that leaves the array has no result.
-/

set_option autoImplicit false

namespace HenPlugins.Hde.Table

def cModrm : UInt8 := 0x01
def cImm8 : UInt8 := 0x02
def cImm16 : UInt8 := 0x04
def cImmP66 : UInt8 := 0x10
def cRel8 : UInt8 := 0x20
def cRel32 : UInt8 := 0x40
def cGroup : UInt8 := 0x80
def cError : UInt8 := 0xff

def preNone : UInt8 := 0x01
def preF2 : UInt8 := 0x02
def preF3 : UInt8 := 0x04
def pre66 : UInt8 := 0x08
def pre67 : UInt8 := 0x10
def preLock : UInt8 := 0x20
def preSeg : UInt8 := 0x40

def deltaOpcodes : Nat := 0x4a
def deltaFpuReg : Nat := 0xfd
def deltaFpuModrm : Nat := 0x104
def deltaPrefixes : Nat := 0x13c
def deltaOpLockOk : Nat := 0x1ae
def deltaOp2LockOk : Nat := 0x1c6
def deltaOpOnlyMem : Nat := 0x1d8
def deltaOp2OnlyMem : Nat := 0x1e7

def hde64Table : List UInt8 :=
  [
    0xa5, 0xaa, 0xa5, 0xb8, 0xa5, 0xaa, 0xa5, 0xaa, 0xa5, 0xb8, 0xa5, 0xb8,
    0xa5, 0xb8, 0xa5, 0xb8, 0xc0, 0xc0, 0xc0, 0xc0, 0xc0, 0xc0, 0xc0, 0xc0,
    0xac, 0xc0, 0xcc, 0xc0, 0xa1, 0xa1, 0xa1, 0xa1, 0xb1, 0xa5, 0xa5, 0xa6,
    0xc0, 0xc0, 0xd7, 0xda, 0xe0, 0xc0, 0xe4, 0xc0, 0xea, 0xea, 0xe0, 0xe0,
    0x98, 0xc8, 0xee, 0xf1, 0xa5, 0xd3, 0xa5, 0xa5, 0xa1, 0xea, 0x9e, 0xc0,
    0xc0, 0xc2, 0xc0, 0xe6, 0x03, 0x7f, 0x11, 0x7f, 0x01, 0x7f, 0x01, 0x3f,
    0x01, 0x01, 0xab, 0x8b, 0x90, 0x64, 0x5b, 0x5b, 0x5b, 0x5b, 0x5b, 0x92,
    0x5b, 0x5b, 0x76, 0x90, 0x92, 0x92, 0x5b, 0x5b, 0x5b, 0x5b, 0x5b, 0x5b,
    0x5b, 0x5b, 0x5b, 0x5b, 0x5b, 0x5b, 0x6a, 0x73, 0x90, 0x5b, 0x52, 0x52,
    0x52, 0x52, 0x5b, 0x5b, 0x5b, 0x5b, 0x77, 0x7c, 0x77, 0x85, 0x5b, 0x5b,
    0x70, 0x5b, 0x7a, 0xaf, 0x76, 0x76, 0x5b, 0x5b, 0x5b, 0x5b, 0x5b, 0x5b,
    0x5b, 0x5b, 0x5b, 0x5b, 0x5b, 0x86, 0x01, 0x03, 0x01, 0x04, 0x03, 0xd5,
    0x03, 0xd5, 0x03, 0xcc, 0x01, 0xbc, 0x03, 0xf0, 0x03, 0x03, 0x04, 0x00,
    0x50, 0x50, 0x50, 0x50, 0xff, 0x20, 0x20, 0x20, 0x20, 0x01, 0x01, 0x01,
    0x01, 0xc4, 0x02, 0x10, 0xff, 0xff, 0xff, 0x01, 0x00, 0x03, 0x11, 0xff,
    0x03, 0xc4, 0xc6, 0xc8, 0x02, 0x10, 0x00, 0xff, 0xcc, 0x01, 0x01, 0x01,
    0x00, 0x00, 0x00, 0x00, 0x01, 0x01, 0x03, 0x01, 0xff, 0xff, 0xc0, 0xc2,
    0x10, 0x11, 0x02, 0x03, 0x01, 0x01, 0x01, 0xff, 0xff, 0xff, 0x00, 0x00,
    0x00, 0xff, 0x00, 0x00, 0xff, 0xff, 0xff, 0xff, 0x10, 0x10, 0x10, 0x10,
    0x02, 0x10, 0x00, 0x00, 0xc6, 0xc8, 0x02, 0x02, 0x02, 0x02, 0x06, 0x00,
    0x04, 0x00, 0x02, 0xff, 0x00, 0xc0, 0xc2, 0x01, 0x01, 0x03, 0x03, 0x03,
    0xca, 0x40, 0x00, 0x0a, 0x00, 0x04, 0x00, 0x00, 0x00, 0x00, 0x7f, 0x00,
    0x33, 0x01, 0x00, 0x00, 0x00, 0x00, 0x00, 0x00, 0xff, 0xbf, 0xff, 0xff,
    0x00, 0x00, 0x00, 0x00, 0x07, 0x00, 0x00, 0xff, 0x00, 0x00, 0x00, 0x00,
    0x00, 0x00, 0x00, 0x00, 0x00, 0x00, 0x00, 0x00, 0x00, 0x00, 0xff, 0xff,
    0x00, 0x00, 0x00, 0xbf, 0x00, 0x00, 0x00, 0x00, 0x00, 0x00, 0x00, 0x00,
    0x7f, 0x00, 0x00, 0xff, 0x40, 0x40, 0x40, 0x40, 0x41, 0x49, 0x40, 0x40,
    0x40, 0x40, 0x4c, 0x42, 0x40, 0x40, 0x40, 0x40, 0x40, 0x40, 0x40, 0x40,
    0x4f, 0x44, 0x53, 0x40, 0x40, 0x40, 0x44, 0x57, 0x43, 0x5c, 0x40, 0x60,
    0x40, 0x40, 0x40, 0x40, 0x40, 0x40, 0x40, 0x40, 0x40, 0x40, 0x40, 0x40,
    0x40, 0x40, 0x64, 0x66, 0x6e, 0x6b, 0x40, 0x40, 0x6a, 0x46, 0x40, 0x40,
    0x44, 0x46, 0x40, 0x40, 0x5b, 0x44, 0x40, 0x40, 0x00, 0x00, 0x00, 0x00,
    0x06, 0x06, 0x06, 0x06, 0x01, 0x06, 0x06, 0x02, 0x06, 0x06, 0x00, 0x06,
    0x00, 0x0a, 0x0a, 0x00, 0x00, 0x00, 0x02, 0x07, 0x07, 0x06, 0x02, 0x0d,
    0x06, 0x06, 0x06, 0x0e, 0x05, 0x05, 0x02, 0x02, 0x00, 0x00, 0x04, 0x04,
    0x04, 0x04, 0x05, 0x06, 0x06, 0x06, 0x00, 0x00, 0x00, 0x0e, 0x00, 0x00,
    0x08, 0x00, 0x10, 0x00, 0x18, 0x00, 0x20, 0x00, 0x28, 0x00, 0x30, 0x00,
    0x80, 0x01, 0x82, 0x01, 0x86, 0x00, 0xf6, 0xcf, 0xfe, 0x3f, 0xab, 0x00,
    0xb0, 0x00, 0xb1, 0x00, 0xb3, 0x00, 0xba, 0xf8, 0xbb, 0x00, 0xc0, 0x00,
    0xc1, 0x00, 0xc7, 0xbf, 0x62, 0xff, 0x00, 0x8d, 0xff, 0x00, 0xc4, 0xff,
    0x00, 0xc5, 0xff, 0x00, 0xff, 0xff, 0xeb, 0x01, 0xff, 0x0e, 0x12, 0x08,
    0x00, 0x13, 0x09, 0x00, 0x16, 0x08, 0x00, 0x17, 0x09, 0x00, 0x2b, 0x09,
    0x00, 0xae, 0xff, 0x07, 0xb2, 0xff, 0x00, 0xb4, 0xff, 0x00, 0xb5, 0xff,
    0x00, 0xc3, 0x01, 0x00, 0xc7, 0xff, 0xbf, 0xe7, 0x08, 0x00, 0xf0, 0x02,
    0x00]

/-- `ht[ht[opcode / 4] + (opcode % 4)]` -/
def entry (ht : Nat) (opcode : UInt8) : Option UInt8 := do
  let row ← hde64Table[ht + opcode.toNat / 4]?
  hde64Table[ht + (row.toNat + opcode.toNat % 4)]?

/-- `cflags` as it is looked up; `again` is the jump to `error_opcode` behind a
second `REX` prefix. -/
def lookedUp (again : Bool) (ht : Nat) (opcode : UInt8) : Option UInt8 :=
  if again then some cError else entry ht opcode

/-- The error, `cflags` and `x` of an opcode. -/
def opcodeFlags (again : Bool) (ht : Nat) (opcode : UInt8) :
    Option (Bool × UInt8 × UInt8) := do
  let cflags ← lookedUp again ht opcode
  if cflags = cError then
    some (true, if opcode &&& 0xfd = 0x24 then 1 else 0, 0)
  else if cflags &&& cGroup ≠ 0 then do
    let low ← hde64Table[ht + (cflags &&& 0x7f).toNat]?
    let high ← hde64Table[ht + (cflags &&& 0x7f).toNat + 1]?
    some (false, low, high)
  else some (false, cflags, 0)

/-- The prefixes that an opcode of the second table forbids. -/
def prefixError (opcode2 opcode pref : UInt8) : Option Bool :=
  if opcode2 ≠ 0 then
    (entry deltaPrefixes opcode).map fun forbidden => forbidden &&& pref ≠ 0
  else some false

def fpuError (opcode mMod mReg mRm : UInt8) : Option Bool :=
  let t := (opcode - 0xd9).toNat
  if mMod = 3 then
    hde64Table[deltaFpuModrm + t * 8 + mReg.toNat]?.map fun mask =>
      (mask <<< mRm) &&& 0x80 ≠ 0
  else
    hde64Table[deltaFpuReg + t]?.map fun mask => (mask <<< mReg) &&& 0x80 ≠ 0

/-- Pairs of an opcode and a mask; the first argument is how far the end of the
table is, which a step of two would jump over at 1. -/
def lockLoop (op mReg : UInt8) : Nat → Nat → Option Bool
  | 0, _ => some true
  | 1, _ => none
  | left + 2, ht => do
      let first ← hde64Table[ht]?
      if first = op then
        let mask ← hde64Table[ht + 1]?
        some ((mask <<< mReg) &&& 0x80 ≠ 0)
      else lockLoop op mReg left (ht + 2)

def lockError (opcode2 opcode mMod mReg : UInt8) : Option Bool :=
  if mMod = 3 then some true
  else if opcode2 ≠ 0 then
    lockLoop opcode mReg (deltaOpOnlyMem - deltaOp2LockOk) deltaOp2LockOk
  else
    lockLoop (opcode &&& 0xfe) mReg (deltaOp2LockOk - deltaOpLockOk)
      deltaOpLockOk

/-- Triples of an opcode, prefixes and a mask. -/
def onlyMemLoop (opcode pref mReg : UInt8) : Nat → Nat → Option Bool
  | 0, _ => some false
  | 1, _ => none
  | 2, _ => none
  | left + 3, ht => do
      let first ← hde64Table[ht]?
      if first = opcode then
        let prefixes ← hde64Table[ht + 1]?
        if prefixes &&& pref ≠ 0 then
          let mask ← hde64Table[ht + 2]?
          some ((mask <<< mReg) &&& 0x80 = 0)
        else some false
      else onlyMemLoop opcode pref mReg left (ht + 3)

def memoryError (opcode2 opcode pref mMod mReg : UInt8) : Option Bool :=
  if mMod = 3 then
    if opcode2 ≠ 0 then
      onlyMemLoop opcode pref mReg (hde64Table.length - deltaOp2OnlyMem)
        deltaOp2OnlyMem
    else
      onlyMemLoop opcode pref mReg (deltaOp2OnlyMem - deltaOpOnlyMem)
        deltaOpOnlyMem
  else if opcode2 ≠ 0 then
    if opcode = 0x50 ∨ opcode = 0xd7 ∨ opcode = 0xf7 then
      some (pref &&& (preNone ||| pre66) ≠ 0)
    else if opcode = 0xd6 then some (pref &&& (preF2 ||| preF3) ≠ 0)
    else if opcode = 0xc5 then some true
    else some false
  else some false

/-- Whether the operand is an error, and `m_mod` as the moves to and from
control and debug registers leave it. -/
def operandError (opcode2 opcode pref mMod mReg : UInt8) :
    Option (Bool × UInt8) :=
  if opcode2 ≠ 0 ∧ (opcode = 0x20 ∨ opcode = 0x22) then
    some (mReg > 4 ∨ mReg = 1, 3)
  else if opcode2 ≠ 0 ∧ (opcode = 0x21 ∨ opcode = 0x23) then
    some (mReg = 4 ∨ mReg = 5, 3)
  else if opcode2 = 0 ∧ opcode = 0x8c then some (mReg > 5, mMod)
  else if opcode2 = 0 ∧ opcode = 0x8e then some (mReg = 1 ∨ mReg > 5, mMod)
  else (memoryError opcode2 opcode pref mMod mReg).map fun error => (error, mMod)

end HenPlugins.Hde.Table
